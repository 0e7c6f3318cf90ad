import GraphRec.Dgsr.Export
import GraphRec.Ingestion.LogIds
import GraphRec.Lib.Paging

/-!
# Listing the products

`list_products` reads the products newest first, those of one moment by their ids, from an offset
on.  No request changes the key that the order goes by: `step_keepsKeys` — whatever runs, a product
that is there stays, with its key.
-/

namespace Ingestion

open Transactions Transition

/-- A collation under which no two texts are equal: that of the id columns is deterministic. -/
structure DeterministicCollation extends Dgsr.Collation where
  antisymm : ∀ a b, le a b = true → le b a = true → a = b

abbrev ProductKey := Time × String

/-- What `ORDER BY created_at DESC, external_id ASC` reads of a row. -/
def productKey (row : String × Product) : ProductKey := (row.2.createdAt, row.1)

/-- `ORDER BY created_at DESC, external_id ASC`. -/
def DeterministicCollation.newestFirst (collation : DeterministicCollation) (k k' : ProductKey) :
    Prop :=
  k'.1 < k.1 ∨ (k.1 = k'.1 ∧ collation.le k.2 k'.2 = true)

section Order

variable (collation : DeterministicCollation)

instance : DecidableRel collation.newestFirst := fun _ _ => inferInstanceAs (Decidable (_ ∨ _))

instance : Std.Total collation.newestFirst := ⟨by
  intro k k'
  rcases lt_trichotomy k.1 k'.1 with hlt | heq | hgt
  · exact .inr (.inl hlt)
  · rcases collation.total k.2 k'.2 with hle | hle
    · exact .inl (.inr ⟨heq, hle⟩)
    · exact .inr (.inr ⟨heq.symm, hle⟩)
  · exact .inl (.inl hgt)⟩

instance : IsTrans ProductKey collation.newestFirst := ⟨by
  rintro k k' k'' (hlt | ⟨heq, hle⟩) (hlt' | ⟨heq', hle'⟩)
  · exact .inl (hlt'.trans hlt)
  · exact .inl (heq' ▸ hlt)
  · exact .inl (heq ▸ hlt')
  · exact .inr ⟨heq.trans heq', collation.trans _ _ _ hle hle'⟩⟩

instance : Std.Antisymm collation.newestFirst := ⟨by
  rintro ⟨t, id⟩ ⟨t', id'⟩ (hlt | ⟨heq, hle⟩) (hlt' | ⟨heq', hle'⟩)
  · exact absurd hlt' hlt.asymm
  · exact absurd heq'.symm hlt.ne'
  · exact absurd heq hlt'.ne
  · exact Prod.ext heq (collation.antisymm _ _ hle hle')⟩

end Order

/-- The products of a listing: all of them, or those of the given ids. -/
def Store.listed (s : Store) (externalIds : Option (List String)) : List (String × Product) :=
  s.products.rows.filter fun row => externalIds.elim true fun ids => ids.contains row.1

/-- `count_products`. -/
def countProducts (s : Store) (externalIds : Option (List String)) : ℕ :=
  (s.listed externalIds).length

/-- `list_products`. -/
def listProducts (collation : DeterministicCollation) (s : Store) (limit : Option ℕ)
    (offset : ℕ) (externalIds : Option (List String)) : List (String × Product) :=
  let products := s.listed externalIds
  Paging.page collation.newestFirst productKey products offset (limit.getD products.length)

@[simp] theorem listed_none (s : Store) : s.listed none = s.products.rows := by
  simp [Store.listed]

/-! ## Keys -/

/-- The keys of the products. -/
def Store.listingKeys (s : Store) : List ProductKey := s.products.rows.map productKey

theorem mem_listingKeys {s : Store} {k : ProductKey} :
    k ∈ s.listingKeys ↔ ∃ row, s.products.get? k.2 = some row ∧ row.createdAt = k.1 := by
  simp only [Store.listingKeys, List.mem_map, ← Table.mem_rows_iff]
  constructor
  · rintro ⟨⟨id, row⟩, hmem, rfl⟩
    exact ⟨row, hmem, rfl⟩
  · rintro ⟨row, hmem, hcreated⟩
    exact ⟨(k.2, row), hmem, Prod.ext hcreated rfl⟩

@[simp] theorem length_listingKeys (s : Store) :
    s.listingKeys.length = s.products.rows.length := List.length_map _

theorem listingKeys_nodup (s : Store) : s.listingKeys.Nodup := by
  refine List.Nodup.of_map Prod.snd ?_
  rw [Store.listingKeys, List.map_map]
  exact s.products.nodup

/-- The products stay, with the time of their creation. -/
def KeysStay (products products' : Table String Product) : Prop :=
  ∀ id row, products.get? id = some row →
    ∃ row', products'.get? id = some row' ∧ row'.createdAt = row.createdAt

theorem KeysStay.refl (products : Table String Product) : KeysStay products products :=
  fun _ row h => ⟨row, h, rfl⟩

theorem KeysStay.trans {t t' t'' : Table String Product} (h : KeysStay t t') (h' : KeysStay t' t'') :
    KeysStay t t'' := by
  intro id row hrow
  obtain ⟨row', hrow', heq⟩ := h id row hrow
  obtain ⟨row'', hrow'', heq'⟩ := h' id row' hrow'
  exact ⟨row'', hrow'', heq'.trans heq⟩

theorem KeysStay.subset {s s' : Store} (h : KeysStay s.products s'.products) :
    ∀ k ∈ s.listingKeys, k ∈ s'.listingKeys := by
  intro k hk
  obtain ⟨row, hrow, hcreated⟩ := mem_listingKeys.mp hk
  obtain ⟨row', hrow', heq⟩ := h _ _ hrow
  exact mem_listingKeys.mpr ⟨row', hrow', heq.trans hcreated⟩

section Writes

variable {products : Table String Product}

theorem keysStay_insert (id : String) (row : Product) : KeysStay products (products.insert id row) := by
  intro k old hold
  refine ⟨old, ?_, rfl⟩
  rw [Table.get?_insert_cases]
  split
  · next hk => rw [← hk, hold, Option.getD_some]
  · exact hold

theorem keysStay_insertAll (rows : List (String × Product)) :
    KeysStay products (products.insertAll rows) :=
  fun _ old hold => ⟨old, Table.get?_insertAll_of_some _ hold rows, rfl⟩

/-- A product is flushed without the time of its creation. -/
theorem keysStay_flush (id : String) {loaded assigned : Product}
    (h : assigned.createdAt = loaded.createdAt) :
    KeysStay products (products.update id (Product.flush loaded assigned)) := by
  intro k old hold
  rw [Table.get?_update]
  split
  · rw [hold]
    exact ⟨_, rfl, by simp [Product.flush, writeColumn, h]⟩
  · exact ⟨old, hold, rfl⟩

/-- Writes that do not assign the time of creation. -/
def KeepCreation (writes : List ProductWrite) : Prop :=
  ∀ id loaded assigned, .update id loaded assigned ∈ writes →
    assigned.createdAt = loaded.createdAt

theorem keysStay_applyWrites {writes : List ProductWrite} (h : KeepCreation writes) :
    KeysStay products (applyWrites products writes) := by
  induction writes generalizing products with
  | nil => exact .refl products
  | cons write writes ih =>
      have hrest : KeepCreation writes := fun id loaded assigned hmem =>
        h id loaded assigned (List.mem_cons_of_mem _ hmem)
      refine KeysStay.trans ?_ (ih hrest)
      cases write with
      | create id row => exact keysStay_insert id row
      | update id loaded assigned =>
          exact keysStay_flush id (h id loaded assigned List.mem_cons_self)

/-- A sync keeps the times of creation. -/
theorem Tallies.keepCreation {s : Store} {now : Time} {seen : List String} {t t' : SyncTally}
    {items : List ProductUpsert} (h : Tallies s now seen t items t') (ht : KeepCreation t.writes) :
    KeepCreation t'.writes := by
  induction h with
  | nil => exact ht
  | rejected _ _ ih => exact ih ht
  | updated loaded _ _ _ ih =>
      refine ih fun id loaded' assigned hmem => ?_
      rcases List.mem_append.mp hmem with hold | hnew
      · exact ht id loaded' assigned hold
      · cases List.mem_singleton.mp hnew
        rfl
  | created _ _ _ ih =>
      refine ih fun id loaded' assigned hmem => ?_
      rcases List.mem_append.mp hmem with hold | hnew
      · exact ht id loaded' assigned hold
      · cases List.mem_singleton.mp hnew

end Writes

/-- **A request keeps the keys of the products.** -/
theorem opEnds_keysStay {cfg : Config} {op : Op} {notes : List Note} {s s' : Store} {t : Time}
    {result : Result} (h : OpEnds cfg op notes s t result s') :
    KeysStay s.products s'.products := by
  cases op with
  | submitEvent p =>
      cases h with
      | duplicate | unknownProduct | refused | rejected => exact .refl _
      | stored _ _ _ hwrite =>
          rw [writeEvent_ok hwrite]
          exact .refl _
  | submitBatch id p =>
      cases h with
      | replayed | conflict | refused | rejected => exact .refl _
      | stored _ _ _ _ hwrite =>
          rw [writeBatch_ok hwrite]
          exact .refl _
  | loadInteractionLog id rows =>
      cases h with
      | outOfRange | productsRefused | eventsRefused | rejected => exact .refl _
      | stored _ _ _ hwrite =>
          rw [writeLoad_ok hwrite]
          exact keysStay_insertAll _
  | bulkUpsert id p =>
      cases h with
      | replayed | conflict | refused | rejected => exact .refl _
      | stored _ _ htally hwrite =>
          rw [writeSync_ok hwrite]
          exact keysStay_applyWrites (htally.keepCreation fun _ _ _ hmem => by cases hmem)
  | updateProduct externalId p =>
      cases h with
      | refused => exact .refl _
      | created => exact keysStay_insert _ _
      | updated => exact keysStay_flush _ rfl
  | disableProduct externalId =>
      cases h with
      | notFound => exact .refl _
      | disabled => exact keysStay_flush _ rfl
  | registerModelVersion | createTrainingJob | finishTraining | activateModelVersion
  | archiveModelVersion | changeJobs =>
      cases h with
      | answered | rejected => exact .refl _
      | registered _ _ _ _ hsame | changed _ _ hsame =>
          rw [hsame.products]
          exact .refl _

/-- **Whatever runs, the products stay**, with their keys. -/
theorem step_keepsKeys {cfg : Config} {first : Start} {st st' : SystemState} {a : Action Op}
    (hreach : Reachable (tenant cfg first) anyStep st)
    (hstep : (tenant cfg first).step st a = some st') :
    KeysStay st.store.products st'.store.products := by
  rcases step_store hstep with hsame | ⟨entry, hmem, hbefore, hafter⟩
  · rw [hsame]
    exact .refl _
  · obtain ⟨as, hrun⟩ := hreach.run (.single trivial hstep)
    obtain ⟨t, -, hserial⟩ := serializable cfg hrun
    rw [← hbefore, ← hafter]
    exact opEnds_keysStay (hserial.each hmem).2

end Ingestion
