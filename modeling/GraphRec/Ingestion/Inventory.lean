import GraphRec.Ingestion.ExactlyOnce
import Mathlib.Data.List.Perm.Subperm

/-!
# The limits of the inventory

Each request works out how much it adds from queries of its own.  Whatever it finds, what
it adds was checked under the lock of the dimension, so that after a request that adds
something the inventory is within its limit; a request that adds no product is never
refused for the products there are; and one that is refused leaves everything as it was.
-/

namespace Ingestion

open Transactions Transition

/-! ## Growth by what was checked -/

/-- A count grows at most by what the request was admitted for. -/
def GrowsWithin (cfg : Config) (d : Dimension) (notes : List Note) (s : Store) (t : Time)
    (used used' : ℕ) : Prop :=
  ∃ quantity checks, (∀ note ∈ checks, note ∈ notes) ∧ Admits cfg d quantity s t checks ∧
    used' ≤ used + quantity

theorem GrowsWithin.of_le {cfg : Config} {d : Dimension} {notes : List Note} {s : Store}
    {t : Time} {used used' : ℕ} (h : used' ≤ used) : GrowsWithin cfg d notes s t used used' :=
  ⟨0, [], by simp, Or.inl ⟨rfl, rfl⟩, h⟩

/-- The plan limits what there is of a dimension. -/
def WithinLimit (cfg : Config) (d : Dimension) (count : ℕ) : Prop :=
  ∃ limits limit, cfg.limits = some limits ∧ limits d = some limit ∧ count ≤ limit

theorem WithinLimit.of_le {cfg : Config} {d : Dimension} {count count' : ℕ}
    (h : WithinLimit cfg d count) (hle : count' ≤ count) : WithinLimit cfg d count' := by
  obtain ⟨limits, limit, hlimits, hlimit, hcount⟩ := h
  exact ⟨limits, limit, hlimits, hlimit, Nat.le_trans hle hcount⟩

/-- What has grown is within its limit. -/
theorem GrowsWithin.le_limit {cfg : Config} {d : Dimension} {notes : List Note} {s : Store}
    {t : Time} {used used' : ℕ} (h : GrowsWithin cfg d notes s t used used') (hgrown : used < used')
    (hd : d.guarded = true) (hcount : ∀ start reset, capacityUsed s d start reset = used) :
    WithinLimit cfg d used' := by
  obtain ⟨quantity, checks, -, hadmits, hle⟩ := h
  rcases hadmits with ⟨rfl, -⟩ | ⟨check, -, -, hcheck⟩
  · omega
  · obtain ⟨limits, hlimits, hlimit⟩ := hcheck.limit
    have hused := hcheck.used hd
    have hroom := hcheck.room
    rw [hcount] at hused
    rw [hcheck.quantity] at hroom
    exact ⟨limits, check.limit, hlimits, hlimit, by omega⟩

/-- A count that has grown since the start of a run is within its limit. -/
theorem GrowsWithin.run_le {cfg : Config} {d : Dimension} {notes : List Note} {s : Store}
    {t : Time} {first used used' : ℕ} (h : GrowsWithin cfg d notes s t used used')
    (hrun : first < used → WithinLimit cfg d used) (hd : d.guarded = true)
    (hcount : ∀ start reset, capacityUsed s d start reset = used) :
    first < used' → WithinLimit cfg d used' := by
  intro hgrown
  rcases Nat.lt_or_ge used used' with hstep | hstep
  · exact h.le_limit hstep hd hcount
  · exact (hrun (Nat.lt_of_lt_of_le hgrown hstep)).of_le hstep

/-! ## Syncs -/

/-- The ids of the products that are created. -/
def createdIds (writes : List ProductWrite) : List String :=
  writes.filterMap fun write =>
    match write with
    | .create id _ => some id
    | .update _ _ _ => none

/-- A product that is flushed is not added. -/
theorem length_flushProduct (s : Store) (externalId : String) (loaded assigned : Product) :
    (s.flushProduct externalId loaded assigned).products.rows.length = s.products.rows.length := by
  have hkeys := congrArg List.length
    (keys_update s.products externalId (Product.flush loaded assigned))
  simp only [List.length_map] at hkeys
  exact hkeys

/-- Products are added by creations only. -/
theorem length_applyWrites (writes : List ProductWrite) (products : Table String Product) :
    (applyWrites products writes).rows.length ≤
      products.rows.length + (createdIds writes).length := by
  induction writes generalizing products with
  | nil => exact Nat.le_refl _
  | cons write writes ih =>
      cases write with
      | create id row =>
          have hinsert : (products.insert id row).rows.length ≤ products.rows.length + 1 := by
            cases h : products.get? id with
            | some old =>
                rw [Table.insert_of_some _ h]
                exact Nat.le_succ _
            | none => simp [Table.rows_insert _ h]
          have hrest := ih (products.insert id row)
          simp only [createdIds, List.filterMap_cons, List.length_cons] at hrest ⊢
          exact Nat.le_trans hrest (by omega)
      | update id loaded assigned =>
          have hrest := ih (products.update id (Product.flush loaded assigned))
          have hkeys := congrArg List.length
            (keys_update products id (Product.flush loaded assigned))
          simp only [List.length_map] at hkeys
          rw [hkeys] at hrest
          exact hrest

/-- The loop creates distinct products that it was given and that do not exist. -/
theorem Tallies.created_ids {s : Store} {now : Time} {seen : List String} {t t' : SyncTally}
    {items : List ProductUpsert} (h : Tallies s now seen t items t') :
    ∃ new, createdIds t'.writes = createdIds t.writes ++ new ∧ new.Nodup ∧
      ∀ id ∈ new, id ∉ seen ∧ id ∈ items.map ProductUpsert.externalId ∧
        s.products.get? id = none := by
  induction h with
  | nil seen t => exact ⟨[], by simp, List.nodup_nil, by simp⟩
  | rejected hseen _ ih =>
      obtain ⟨new, hnew, hnodup, hfresh⟩ := ih
      refine ⟨new, hnew, hnodup, ?_⟩
      intro id hid
      obtain ⟨hunseen, hitem, habsent⟩ := hfresh id hid
      exact ⟨hunseen, List.mem_cons_of_mem _ hitem, habsent⟩
  | updated loaded hnew hpresent _ ih =>
      obtain ⟨new, hids, hnodup, hfresh⟩ := ih
      refine ⟨new, ?_, hnodup, ?_⟩
      · simpa [createdIds, SyncTally.upsert] using hids
      · intro id hid
        obtain ⟨hunseen, hitem, habsent⟩ := hfresh id hid
        exact ⟨fun hold => hunseen (List.mem_cons_of_mem _ hold), List.mem_cons_of_mem _ hitem,
          habsent⟩
  | @created seen t t' p rest hnew habsent _ ih =>
      obtain ⟨new, hids, hnodup, hfresh⟩ := ih
      refine ⟨p.externalId :: new, ?_, ?_, ?_⟩
      · simpa [createdIds, SyncTally.upsert] using hids
      · refine List.nodup_cons.mpr ⟨?_, hnodup⟩
        intro hid
        exact (hfresh _ hid).1 List.mem_cons_self
      · intro id hid
        rcases List.mem_cons.mp hid with rfl | hrest
        · exact ⟨hnew, List.mem_cons_self, habsent⟩
        · obtain ⟨hunseen, hitem, hnone⟩ := hfresh id hrest
          exact ⟨fun hold => hunseen (List.mem_cons_of_mem _ hold), List.mem_cons_of_mem _ hitem,
            hnone⟩

/-- A sync creates at most the products it was checked for. -/
theorem created_le {s : Store} {now : Time} {items : List ProductUpsert} {tally : SyncTally}
    (h : Tallies s now [] .zero items tally) :
    (createdIds tally.writes).length ≤ (newProductIds s items).length := by
  obtain ⟨new, hids, hnodup, hfresh⟩ := h.created_ids
  rw [hids]
  refine (List.Nodup.subperm hnodup ?_).length_le
  intro id hid
  obtain ⟨-, hitem, habsent⟩ := hfresh id hid
  exact List.mem_dedup.mpr (List.mem_filter.mpr ⟨hitem, decide_eq_true habsent⟩)

/-! ## Loads -/

/-- The products of a file are distinct. -/
theorem itemIds_nodup (rows : List Interaction) : (itemIds rows).Nodup :=
  List.nodup_reverse.mpr (List.nodup_dedup _)

/-- A load adds the products it was checked for. -/
theorem length_loadProducts (s : Store) (now : Time) (rows : List Interaction) :
    (s.products.insertAll (logProducts now rows)).rows.length =
      s.products.rows.length + (newItems s rows).length := by
  have hkeys : (logProducts now rows).map Prod.fst = itemIds rows := by
    rw [logProducts, List.map_map]
    exact List.map_id _
  rw [Table.length_insertAll, hkeys, (itemIds_nodup rows).dedup]
  congr 2
  refine List.filter_congr ?_
  intro item _
  cases s.products.get? item <;> rfl

/-! ## Every request -/

section Requests

variable {cfg : Config} {op : Op} {notes : List Note} {s s' : Store} {t : Time} {result : Result}

/-- A request adds at most the products it was admitted for. -/
theorem opEnds_products (h : OpEnds cfg op notes s t result s') :
    GrowsWithin cfg .storedProducts notes s t s.products.rows.length s'.products.rows.length := by
  cases op with
  | submitEvent p =>
      cases h with
      | duplicate | unknownProduct | refused | rejected => exact .of_le (Nat.le_refl _)
      | stored _ _ _ hwrite =>
          rw [writeEvent_ok hwrite]
          exact .of_le (Nat.le_refl _)
  | submitBatch id p =>
      cases h with
      | replayed | conflict | refused | rejected => exact .of_le (Nat.le_refl _)
      | stored _ _ _ _ hwrite =>
          rw [writeBatch_ok hwrite]
          exact .of_le (Nat.le_refl _)
  | loadInteractionLog id rows =>
      cases h with
      | outOfRange | productsRefused | eventsRefused | rejected => exact .of_le (Nat.le_refl _)
      | stored hproducts _ _ hwrite =>
          rw [writeLoad_ok hwrite]
          refine ⟨_, _, ?_, hproducts, Nat.le_of_eq (length_loadProducts s _ rows)⟩
          exact fun note hnote => List.mem_cons_of_mem _ (List.mem_append_left _ hnote)
  | bulkUpsert id p =>
      cases h with
      | replayed | conflict | refused | rejected => exact .of_le (Nat.le_refl _)
      | stored _ hadmits htally hwrite =>
          rw [writeSync_ok hwrite]
          refine ⟨_, _, fun _ hnote => hnote, hadmits, ?_⟩
          exact Nat.le_trans (length_applyWrites _ _) (Nat.add_le_add_left (created_le htally) _)
  | updateProduct externalId p =>
      cases h with
      | refused => exact .of_le (Nat.le_refl _)
      | created hnew hadmits =>
          refine ⟨_, _, fun _ hnote => hnote, hadmits, ?_⟩
          simp [Table.rows_insert _ hnew]
      | updated => exact .of_le (Nat.le_of_eq (length_flushProduct s externalId _ _))
  | disableProduct externalId =>
      cases h with
      | notFound => exact .of_le (Nat.le_refl _)
      | disabled => exact .of_le (Nat.le_of_eq (length_flushProduct s externalId _ _))
  | registerModelVersion | createTrainingJob | finishTraining | activateModelVersion
  | archiveModelVersion | changeJobs =>
      cases h with
      | answered | rejected => exact .of_le (Nat.le_refl _)
      | registered _ _ _ _ hsame | changed _ _ hsame =>
          rw [hsame.products]
          exact .of_le (Nat.le_refl _)

/-- The versions are touched by the requests about versions alone. -/
theorem opEnds_versions (h : OpEnds cfg op notes s t result s') :
    GrowsWithin cfg .activeModelVersions notes s t (retainedVersions s) (retainedVersions s') := by
  cases op with
  | submitEvent p =>
      cases h with
      | duplicate | unknownProduct | refused | rejected => exact .of_le (Nat.le_refl _)
      | stored _ _ _ hwrite =>
          rw [writeEvent_ok hwrite]
          exact .of_le (Nat.le_refl _)
  | submitBatch id p =>
      cases h with
      | replayed | conflict | refused | rejected => exact .of_le (Nat.le_refl _)
      | stored _ _ _ _ hwrite =>
          rw [writeBatch_ok hwrite]
          exact .of_le (Nat.le_refl _)
  | loadInteractionLog id rows =>
      cases h with
      | outOfRange | productsRefused | eventsRefused | rejected => exact .of_le (Nat.le_refl _)
      | stored _ _ _ hwrite =>
          rw [writeLoad_ok hwrite]
          exact .of_le (Nat.le_refl _)
  | bulkUpsert id p =>
      cases h with
      | replayed | conflict | refused | rejected => exact .of_le (Nat.le_refl _)
      | stored _ _ _ hwrite =>
          rw [writeSync_ok hwrite]
          exact .of_le (Nat.le_refl _)
  | updateProduct externalId p => cases h <;> exact .of_le (Nat.le_refl _)
  | disableProduct externalId => cases h <;> exact .of_le (Nat.le_refl _)
  | registerModelVersion | createTrainingJob | finishTraining | activateModelVersion
  | archiveModelVersion | changeJobs =>
      cases h with
      | answered | rejected => exact .of_le (Nat.le_refl _)
      | registered _ hroom hfresh hversions _ =>
          obtain ⟨checks, hchecks, hadmits⟩ := hroom
          refine ⟨1, checks, hchecks, hadmits, ?_⟩
          rw [retainedVersions, hversions, Table.count_insert _ hfresh]
          exact Nat.add_le_add_left (by split <;> simp) _
      | changed _ hretained _ => exact .of_le hretained

/-- Was the request refused, or rejected by a constraint? -/
def isRefused : Result → Bool
  | .ok answer => answer.refused
  | .error _ => true

/-- A refused request leaves everything as it was. -/
theorem opEnds_refused (h : OpEnds cfg op notes s t result s') (hrefused : isRefused result = true) :
    s' = s := by
  cases op with
  | submitEvent p | submitBatch id p | bulkUpsert id p | loadInteractionLog id rows
  | updateProduct externalId p | disableProduct externalId =>
      cases h <;> first
        | rfl
        | cases hrefused
  | registerModelVersion | createTrainingJob | finishTraining | activateModelVersion
  | archiveModelVersion | changeJobs =>
      cases h with
      | answered | rejected => rfl
      | registered hanswer | changed hanswer =>
          rw [isRefused, hanswer] at hrefused
          cases hrefused

end Requests

/-! ## Requests that add no product -/

/-- How many products a request about products would add; none for another. -/
def Op.newProducts (s : Store) : Op → Option ℕ
  | .bulkUpsert _ p => some (newProductIds s p.products).length
  | .updateProduct externalId _ => some (if s.products.get? externalId = none then 1 else 0)
  | .disableProduct _ => some 0
  | .loadInteractionLog _ rows => some (newItems s rows).length
  | _ => none

/-- The errors of a request about products that are not about how many there are. -/
inductive OtherError (s : Store) : Op → ApiError → Prop
  | conflict (id : ℕ) (p : ProductBulkUpsertRequest) :
      OtherError s (.bulkUpsert id p) idempotencyConflict
  | notFound (externalId : String) :
      OtherError s (.disableProduct externalId) (productNotFound externalId)
  | events {id : ℕ} {rows : List Interaction} {now : Time} {e : ApiError}
      (he : CapacityError .acceptedEvents (newEventCount s (eventRows now rows)) e) :
      OtherError s (.loadInteractionLog id rows) e

/-- A request that adds no product is not refused for the products. -/
theorem opEnds_harmless {cfg : Config} {op : Op} {notes : List Note} {s s' : Store} {t : Time}
    {e : ApiError} (h : OpEnds cfg op notes s t (.ok (.error e)) s')
    (hnone : op.newProducts s = some 0) : OtherError s op e := by
  cases op with
  | bulkUpsert id p =>
      cases h with
      | conflict => exact .conflict id p
      | refused _ he => exact absurd (Option.some.inj hnone) he.1
  | updateProduct externalId p =>
      cases h with
      | refused hnew he =>
          rw [Op.newProducts, if_pos hnew] at hnone
          cases hnone
  | disableProduct externalId =>
      cases h with
      | notFound => exact .notFound externalId
  | loadInteractionLog id rows =>
      cases h with
      | productsRefused he => exact absurd (Option.some.inj hnone) he.1
      | eventsRefused _ he => exact .events he
  | submitEvent | submitBatch | registerModelVersion | createTrainingJob | finishTraining
  | activateModelVersion | archiveModelVersion | changeJobs => cases hnone

/-! ## Every run -/

/-- What holds of each request of a run. -/
structure InventoryKept (cfg : Config) (entry : LogEntry) : Prop where
  /-- Products that were added are within the limit. -/
  products : entry.before.products.rows.length < entry.after.products.rows.length →
    WithinLimit cfg .storedProducts entry.after.products.rows.length
  /-- So are versions. -/
  versions : retainedVersions entry.before < retainedVersions entry.after →
    WithinLimit cfg .activeModelVersions (retainedVersions entry.after)
  /-- A request that adds no product is not refused for the products. -/
  harmless : entry.op.newProducts entry.before = some 0 → ∀ e, entry.result = .ok (.error e) →
    OtherError entry.before entry.op e
  /-- A refused request changes nothing. -/
  refused : isRefused entry.result = true → entry.after = entry.before

/-- **The inventory stays within its limits.**  Whatever the interleaving of the requests. -/
theorem inventory_within_limits {cfg : Config} {first : Start} {as : List (Action Op)}
    {st : SystemState} (h : Run (tenant cfg first) anyStep (tenant cfg first).init as st) :
    (∀ entry ∈ st.log, InventoryKept cfg entry) ∧
      (first.store.products.rows.length < st.store.products.rows.length →
        WithinLimit cfg .storedProducts st.store.products.rows.length) ∧
      (retainedVersions first.store < retainedVersions st.store →
        WithinLimit cfg .activeModelVersions (retainedVersions st.store)) := by
  obtain ⟨t, -, hserial⟩ := serializable cfg h
  refine ⟨?_, ?_, ?_⟩
  · intro entry hentry
    have hgood := (hserial.each hentry).2
    refine ⟨fun hgrown => ?_, fun hgrown => ?_, fun hnone e he => ?_, opEnds_refused hgood⟩
    · exact (opEnds_products hgood).le_limit hgrown rfl fun _ _ => rfl
    · exact (opEnds_versions hgood).le_limit hgrown rfl fun _ _ => rfl
    · rw [he] at hgood
      exact opEnds_harmless hgood hnone
  · refine (hserial.invariant (P := fun s _ =>
      first.store.products.rows.length < s.products.rows.length →
      WithinLimit cfg .storedProducts s.products.rows.length) ?_ (fun _ _ _ hs _ => hs) ?_)
    · exact fun hgrown => absurd hgrown (Nat.lt_irrefl _)
    · intro op notes s t result s' _ hs hgood
      exact (opEnds_products hgood).run_le hs rfl fun _ _ => rfl
  · refine (hserial.invariant (P := fun s _ => retainedVersions first.store < retainedVersions s →
      WithinLimit cfg .activeModelVersions (retainedVersions s)) ?_ (fun _ _ _ hs _ => hs) ?_)
    · exact fun hgrown => absurd hgrown (Nat.lt_irrefl _)
    · intro op notes s t result s' _ hs hgood
      exact (opEnds_versions hgood).run_le hs rfl fun _ _ => rfl

/-- Two products, for a plan that allows one. -/
def twoProducts : Start where
  store := Store.empty.addProducts [logProduct 0 "lamp", logProduct 0 "sofa"]
  now := 0
  dated := by
    intro row hrow
    cases hrow

/-- A product that exists is written, a new one is refused while a version is registered. -/
def aboveLimitRun : List (Action Op) :=
  [.start 0 (.bulkUpsert 7 ⟨none, [someProduct "lamp"], "text", noRequestId⟩),
    .start 1 (.updateProduct "rug" (someProduct "rug")),
    .start 2 (.registerModelVersion false 3 ⟨"v1", "dgsr", none⟩ 10)] ++
    statements 0 2 ++ statements 2 3 ++ statements 0 3 ++ statements 1 7 ++ statements 2 4

/-- That run is one, and keeps the inventory. -/
theorem inventory_within_limits_above :
    ∃ st, Run (tenant (smallPlan 5 1 1) twoProducts) anyStep
        (tenant (smallPlan 5 1 1) twoProducts).init aboveLimitRun st ∧
      (st.log.map (fun entry => isRefused entry.result) = [false, true, false] ∧
        st.store.products.rows.length = 2 ∧ retainedVersions st.store = 1) ∧
      (∀ entry ∈ st.log, InventoryKept (smallPlan 5 1 1) entry) ∧
      (twoProducts.store.products.rows.length < st.store.products.rows.length →
        WithinLimit (smallPlan 5 1 1) .storedProducts st.store.products.rows.length) ∧
      (retainedVersions twoProducts.store < retainedVersions st.store →
        WithinLimit (smallPlan 5 1 1) .activeModelVersions (retainedVersions st.store)) := by
  have hdone : (exec (tenant (smallPlan 5 1 1) twoProducts)
      (tenant (smallPlan 5 1 1) twoProducts).init aboveLimitRun).map (fun st => (st.log.map fun entry => isRefused entry.result,
        st.store.products.rows.length, retainedVersions st.store)) =
      some ([false, true, false], 2, 1) := by
    decide +kernel
  obtain ⟨st, hexec, hst⟩ := Option.map_eq_some_iff.mp hdone
  simp only [Prod.mk.injEq] at hst
  exact ⟨st, run_of_exec hexec, hst, inventory_within_limits (run_of_exec hexec)⟩

end Ingestion
