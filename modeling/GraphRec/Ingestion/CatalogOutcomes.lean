import GraphRec.Ingestion.Outcomes

/-!
# How the catalogue requests end
-/

namespace Ingestion

open Transactions

/-! ## Syncs -/

/-- The loop over a sync ends with a tally: which items came before, and which products
exist in the store. -/
inductive Tallies (s : Store) (now : Time) :
    List String → SyncTally → List ProductUpsert → SyncTally → Prop
  | nil (seen : List String) (t : SyncTally) : Tallies s now seen t [] t
  | rejected {seen : List String} {t t' : SyncTally} {p : ProductUpsert} {rest : List ProductUpsert}
      (hseen : p.externalId ∈ seen) (tail : Tallies s now seen (t.reject p.externalId) rest t') :
      Tallies s now seen t (p :: rest) t'
  | updated {seen : List String} {t t' : SyncTally} {p : ProductUpsert} {rest : List ProductUpsert}
      (loaded : Product) (hnew : p.externalId ∉ seen)
      (hpresent : s.products.get? p.externalId ≠ none)
      (tail : Tallies s now (p.externalId :: seen) (t.upsert p now (some loaded)) rest t') :
      Tallies s now seen t (p :: rest) t'
  | created {seen : List String} {t t' : SyncTally} {p : ProductUpsert} {rest : List ProductUpsert}
      (hnew : p.externalId ∉ seen) (habsent : s.products.get? p.externalId = none)
      (tail : Tallies s now (p.externalId :: seen) (t.upsert p now none) rest t') :
      Tallies s now seen t (p :: rest) t'

/-- The tally depends on which products there are, not on what they say. -/
theorem Tallies.of_keys {s s' : Store} {now : Time} {seen : List String} {t t' : SyncTally}
    {items : List ProductUpsert} (hkeys : s'.productKeys = s.productKeys)
    (h : Tallies s now seen t items t') : Tallies s' now seen t items t' := by
  induction h with
  | nil seen t => exact .nil seen t
  | rejected hseen _ ih => exact .rejected hseen ih
  | updated loaded hnew hpresent _ ih =>
      exact .updated loaded hnew (fun h => hpresent ((get?_eq_none_of_keys hkeys _).mp h)) ih
  | created hnew habsent _ ih =>
      exact .created hnew ((get?_eq_none_of_keys hkeys _).mpr habsent) ih

/-- What is stored about products is kept under their lock. -/
theorem since_products {held : List LockKey} {s s' : Store} {t t' : Time}
    (hlock : .dimension .storedProducts ∈ held) (h : Since held s t s' t') :
    s'.productKeys = s.productKeys ∧ s'.syncs = s.syncs :=
  h.kept _ hlock

/-- The loop goes on with its tally. -/
theorem upsertItems_ends {now : Time} {next : SyncTally → Transaction}
    {good : List Note → Store → Time → Result → Store → Prop} {held : List LockKey}
    {notes : List Note} (hlock : .dimension .storedProducts ∈ held) {items : List ProductUpsert}
    {seen : List String} {tally : SyncTally} {s : Store} {t : Time} (hdated : Dated s t)
    (hnext : ∀ s' t' tally', Since held s t s' t' → Tallies s' now seen tally items tally' →
      Ends (next tally') good held notes s' t') :
    Ends (upsertItems now next seen tally items) good held notes s t := by
  induction items generalizing seen tally s t with
  | nil => exact hnext s t tally (Since.now held hdated) (.nil seen tally)
  | cons p rest ih =>
      unfold upsertItems
      split
      · next hseen =>
          refine ih hdated ?_
          intro s' t' tally' h htallies
          exact hnext s' t' tally' h (.rejected hseen htallies)
      · next hnew =>
          intro s₁ t₁ h₁
          refine ih h₁.inv ?_
          intro s' t' tally' h htallies
          refine hnext s' t' tally' (h₁.trans rules h) ?_
          have hkeys := (since_products hlock h).1
          cases hloaded : s₁.products.get? p.externalId with
          | none =>
              rw [hloaded] at htallies
              exact .created hnew ((get?_eq_none_of_keys hkeys _).mpr hloaded) htallies
          | some loaded =>
              rw [hloaded] at htallies
              refine .updated loaded hnew ?_ htallies
              rw [Ne, get?_eq_none_of_keys hkeys, hloaded]
              exact Option.some_ne_none loaded

/-- The request id has no sync yet. -/
def ProductBulkUpsertRequest.Fresh (p : ProductBulkUpsertRequest) (s : Store) : Prop :=
  ∀ requestId, truthy p.requestId = some requestId → s.sync? requestId = none

/-- The row of a sync. -/
def ProductBulkUpsertRequest.row (cfg : Config) (id : ℕ) (p : ProductBulkUpsertRequest)
    (tally : SyncTally) (now : Time) : CatalogSync :=
  syncRow id p (cfg.hash p.canonical) tally now

/-- How `bulk_upsert` ends. -/
inductive BulkUpsertEnds (cfg : Config) (id : ℕ) (p : ProductBulkUpsertRequest) :
    List Note → Store → Time → Result → Store → Prop
  | replayed {s : Store} {t : Time} {requestId : String} {previous : CatalogSync}
      (hid : truthy p.requestId = some requestId) (hprevious : s.sync? requestId = some previous)
      (hhash : previous.payloadHash = some (cfg.hash p.canonical)) :
      BulkUpsertEnds cfg id p [] s t (.ok (.sync previous.response)) s
  | conflict {s : Store} {t : Time} {requestId : String} {previous : CatalogSync}
      (hid : truthy p.requestId = some requestId) (hprevious : s.sync? requestId = some previous)
      (hhash : previous.payloadHash ≠ some (cfg.hash p.canonical)) :
      BulkUpsertEnds cfg id p [] s t (.ok (.error idempotencyConflict)) s
  | refused {s : Store} {t : Time} {e : ApiError} (hnew : p.Fresh s)
      (he : CapacityError .storedProducts (newProductIds s p.products).length e) :
      BulkUpsertEnds cfg id p [] s t (.ok (.error e)) s
  | stored {notes : List Note} {s s' : Store} {t now : Time} {tally : SyncTally}
      (hnew : p.Fresh s)
      (hadmits : Admits cfg .storedProducts (newProductIds s p.products).length s t notes)
      (htally : Tallies s now [] .zero p.products tally)
      (hwrite : writeSync (p.row cfg id tally now) tally now s = .ok s') :
      BulkUpsertEnds cfg id p notes s t (.ok (.sync (syncResult (p.row cfg id tally now) tally)))
        s'
  | rejected {notes : List Note} {s : Store} {t : Time} {c : Constraint} (hnew : p.Fresh s) :
      BulkUpsertEnds cfg id p notes s t (.error c) s

theorem ProductBulkUpsertRequest.Fresh.since {p : ProductBulkUpsertRequest} {held : List LockKey}
    {s s' : Store} {t t' : Time} (hnew : p.Fresh s) (hlock : .dimension .storedProducts ∈ held)
    (h : Since held s t s' t') : p.Fresh s' := by
  intro requestId hid
  have hsyncs := (since_products hlock h).2
  simpa [Store.sync?, hsyncs] using hnew requestId hid

theorem newProductIds_of_keys {s s' : Store} (h : s'.productKeys = s.productKeys)
    (products : List ProductUpsert) : newProductIds s' products = newProductIds s products := by
  unfold newProductIds
  congr 1
  refine List.filter_congr ?_
  intro id _
  exact decide_eq_decide.mpr (get?_eq_none_of_keys h id)

theorem upsertNewSync_ends (cfg : Config) (id : ℕ) (p : ProductBulkUpsertRequest) {s : Store}
    {t : Time} (hnew : p.Fresh s) :
    Ends (upsertNewSync cfg id p (cfg.hash p.canonical)) (BulkUpsertEnds cfg id p)
      [.dimension .storedProducts] [] s t := by
  intro s₁ t₁ h₁
  have hnew₁ := hnew.since List.mem_cons_self h₁
  refine requireCapacity_ends h₁.inv ?_ ?_
  · intro held notes s₂ t₂ hheld _ h₂ _ hadmits s₃ t₃ h₃
    have hlock := hheld _ List.mem_cons_self
    refine upsertItems_ends hlock h₃.inv ?_
    intro s₄ t₄ tally h₄ htally
    have hlast : ∀ {s₅ t₅}, Since held s₄ t₄ s₅ t₅ → p.Fresh s₅ ∧
        Tallies s₅ t₃ [] .zero p.products tally ∧
        Admits cfg .storedProducts (newProductIds s₅ p.products).length s₅ t₅ notes := by
      intro s₅ t₅ h₅
      have h₂₅ := h₃.trans rules (h₄.trans rules h₅)
      have h₁₅ := h₂.trans rules (since_of_subset hheld h₂₅)
      refine ⟨hnew₁.since List.mem_cons_self h₁₅, htally.of_keys (since_products hlock h₅).1, ?_⟩
      rw [newProductIds_of_keys (since_products List.mem_cons_self h₁₅).1]
      exact hadmits.later (fun _ => h₂₅.kept _ hlock) h₂₅.time
    refine commit_ends ?_ ?_
    · intro s₅ t₅ after h₅ hwrite
      obtain ⟨hnew₅, htally₅, hadmits₅⟩ := hlast h₅
      have hledger : after.ledger .acceptedEvents = s₅.ledger .acceptedEvents := by
        rw [writeSync_ok hwrite]
        simp only [Store.ledger, List.filter_append, booked]
        split <;> simp
      refine ⟨.stored hnew₅ hadmits₅ htally₅ hwrite, dated_of_ledger h₅ hledger, ?_⟩
      rw [writeSync_ok hwrite] at hledger ⊢
      exact keeps_frame (fun _ => ⟨rfl, rfl, hledger⟩) (fun hfree => absurd hlock hfree)
        (fun _ => Nat.le_refl _) fun _ _ _ hrow => hrow
    · intro s₅ t₅ c h₅ _
      exact .rejected (hlast h₅).1
  · intro s₂ t₂ e h₂ he
    rw [← newProductIds_of_keys (since_products List.mem_cons_self h₂).1] at he
    exact .refused (hnew₁.since List.mem_cons_self h₂) he

theorem bulkUpsert_ends (cfg : Config) (id : ℕ) (p : ProductBulkUpsertRequest) (s : Store)
    (t : Time) : Ends (bulkUpsert cfg id p) (BulkUpsertEnds cfg id p) [] [] s t := by
  intro s₁ t₁ h₁
  dsimp only
  cases hid : truthy p.requestId with
  | none =>
      refine upsertNewSync_ends cfg id p ?_
      intro requestId h
      rw [hid] at h
      cases h
  | some requestId =>
      intro s₂ t₂ h₂
      dsimp only
      cases hprevious : s₂.sync? requestId with
      | none =>
          refine upsertNewSync_ends cfg id p ?_
          intro requestId' h
          rw [hid] at h
          obtain rfl := Option.some.inj h
          exact hprevious
      | some previous =>
          dsimp only
          have hstored : ∀ {s₃ t₃}, Since [.dimension .storedProducts] s₂ t₂ s₃ t₃ →
              s₃.sync? requestId = some previous := by
            intro s₃ t₃ h₃
            simpa [Store.sync?, (since_products List.mem_cons_self h₃).2] using hprevious
          split
          · next hhash =>
              intro s₃ t₃ h₃
              exact .replayed hid (hstored h₃) hhash
          · next hhash =>
              intro s₃ t₃ h₃
              exact .conflict hid (hstored h₃) hhash

/-! ## One product -/

/-- The store after one product is flushed. -/
def Store.flushProduct (s : Store) (externalId : String) (loaded assigned : Product) : Store :=
  { s with products := s.products.update externalId (Product.flush loaded assigned) }

/-- How `update_product` ends. -/
inductive UpdateProductEnds (cfg : Config) (externalId : String) (p : ProductUpsert) :
    List Note → Store → Time → Result → Store → Prop
  | refused {s : Store} {t : Time} {e : ApiError} (hnew : s.products.get? externalId = none)
      (he : CapacityError .storedProducts 1 e) :
      UpdateProductEnds cfg externalId p [] s t (.ok (.error e)) s
  | created {notes : List Note} {s : Store} {t now : Time}
      (hnew : s.products.get? externalId = none)
      (hadmits : Admits cfg .storedProducts 1 s t notes) :
      UpdateProductEnds cfg externalId p notes s t (.ok (.product externalId (p.row now)))
        { s with products := s.products.insert externalId (p.row now) }
  | updated {s : Store} {t now : Time} {loaded : Product}
      (hpresent : s.products.get? externalId ≠ none) :
      UpdateProductEnds cfg externalId p [] s t (.ok (.product externalId (p.merge now loaded)))
        (s.flushProduct externalId loaded (p.merge now loaded))

/-- An update leaves the keys. -/
theorem keys_update (products : Table String Product) (id : String) (f : Product → Product) :
    (products.update id f).rows.map Prod.fst = products.rows.map Prod.fst := by
  simp [Table.update, Table.updateWhere]

theorem updateProduct_ends (cfg : Config) (externalId : String) (p : ProductUpsert) (s : Store)
    (t : Time) :
    Ends (updateProduct cfg externalId p) (UpdateProductEnds cfg externalId p) [] [] s t := by
  intro s₁ t₁ h₁ s₂ t₂ h₂ s₃ t₃ h₃
  dsimp only
  cases hloaded : s₃.products.get? externalId with
  | none =>
      have hnew : ∀ {s₄ t₄}, Since [.dimension .storedProducts] s₃ t₃ s₄ t₄ →
          s₄.products.get? externalId = none := by
        intro s₄ t₄ h₄
        exact (get?_eq_none_of_keys (since_products List.mem_cons_self h₄).1 _).mpr hloaded
      refine requireCapacity_ends h₃.inv ?_ ?_
      · intro held notes s₄ t₄ hheld _ h₄ _ hadmits
        have hlock := hheld _ List.mem_cons_self
        have hwritten : ∀ {s₅ t₅}, Since held s₄ t₄ s₅ t₅ →
            s₅.products.get? externalId = none ∧
            s₅.writeProduct (.create externalId (p.row t₂)) =
              .ok { s₅ with products := s₅.products.insert externalId (p.row t₂) } := by
          intro s₅ t₅ h₅
          have hfresh := hnew (h₄.trans rules (since_of_subset hheld h₅))
          refine ⟨hfresh, ?_⟩
          simp [Store.writeProduct, hfresh]
        refine commit_ends ?_ ?_
        · intro s₅ t₅ after h₅ hwrite
          obtain ⟨hfresh, hok⟩ := hwritten h₅
          rw [hok] at hwrite
          cases hwrite
          refine ⟨.created hfresh (hadmits.later (fun _ => h₅.kept _ hlock) h₅.time),
            dated_of_ledger h₅ rfl, ?_⟩
          exact keeps_frame (fun _ => ⟨rfl, rfl, rfl⟩) (fun hfree => absurd hlock hfree)
            (fun _ => Nat.le_refl _) fun _ _ _ hrow => hrow
        · intro s₅ t₅ c h₅ hwrite
          rw [(hwritten h₅).2] at hwrite
          cases hwrite
      · intro s₄ t₄ e h₄ he
        exact .refused (hnew h₄) he
  | some loaded =>
      refine commit_ends ?_ ?_
      · intro s₄ t₄ after h₄ hwrite
        cases hwrite
        refine ⟨.updated ?_, dated_of_ledger h₄ rfl, ?_⟩
        · rw [Ne, get?_eq_none_of_keys (since_products List.mem_cons_self h₄).1, hloaded]
          exact Option.some_ne_none loaded
        · exact keeps_frame (fun _ => ⟨rfl, rfl, rfl⟩)
            (fun hfree => absurd List.mem_cons_self hfree) (fun _ => Nat.le_refl _)
            fun _ _ _ hrow => hrow
      · intro s₄ t₄ c h₄ hwrite
        cases hwrite

/-- How `disable_product` ends. -/
inductive DisableProductEnds (externalId : String) :
    List Note → Store → Time → Result → Store → Prop
  | notFound {s : Store} {t : Time} :
      DisableProductEnds externalId [] s t (.ok (.error (productNotFound externalId))) s
  | disabled {s : Store} {t now : Time} {loaded : Product} :
      DisableProductEnds externalId [] s t
        (.ok (.product externalId { loaded with isActive := false, updatedAt := now }))
        (s.flushProduct externalId loaded { loaded with isActive := false, updatedAt := now })

theorem disableProduct_ends (externalId : String) (s : Store) (t : Time) :
    Ends (disableProduct externalId) (DisableProductEnds externalId) [] [] s t := by
  intro s₁ t₁ h₁
  dsimp only
  cases s₁.products.get? externalId with
  | none =>
      intro s₂ t₂ h₂
      exact .notFound
  | some loaded =>
      intro s₂ t₂ h₂
      refine commit_ends ?_ ?_
      · intro s₃ t₃ after h₃ hwrite
        cases hwrite
        refine ⟨.disabled, dated_of_ledger h₃ rfl, ?_⟩
        exact keeps_frame (fun _ => ⟨rfl, rfl, rfl⟩) (fun _ => ⟨keys_update _ _ _, rfl⟩)
          (fun _ => Nat.le_refl _) fun _ _ _ hrow => hrow
      · intro s₃ t₃ c h₃ hwrite
        cases hwrite

end Ingestion
