import GraphRec.Ingestion.Customers
import GraphRec.Lib.Alone

/-!
# Bulk requests that run alone

What `bulk_upsert` and `submit_batch` come to when no other transaction runs: their answers and
the store they leave are functions of the store and of the readings of the clock.

* `capacityRefusal` — what `require_capacity` refuses with, if it does;
* `alone_bulkUpsert`, `alone_submitBatch` — a request within the capacity;
* `alone_bulkUpsert_refused`, `alone_submitBatch_refused` — one that is not.
-/

namespace Ingestion

open Transactions

variable {cfg : Config} {clock : ℕ → Time} {n : ℕ} {s : Store}

/-! ## Capacity -/

/-- What `require_capacity` refuses with at a time, if it does. -/
def capacityRefusal (cfg : Config) (d : Dimension) (quantity : ℕ) (now : Time) (s : Store) :
    Option ApiError :=
  if quantity = 0 then none
  else
    match cfg.limits with
    | none => some quotaUnavailable
    | some limits =>
        match limits d with
        | none => some limitUnavailable
        | some limit =>
            let (start, reset) := cfg.calendar.monthBounds now
            let used := capacityUsed s d start reset
            if limit < used + quantity then some (quotaExceeded d limit used quantity reset)
            else none

/-- The reading of the clock that is next after a check that was passed. -/
def readAfter (quantity n : ℕ) : ℕ := if quantity = 0 then n else n + 1

/-- A check that is passed. -/
theorem alone_requireCapacity {d : Dimension} {quantity : ℕ} (next : Transaction)
    (h : capacityRefusal cfg d quantity (clock n) s = none) :
    (requireCapacity cfg d quantity next).alone clock n s =
      next.alone clock (readAfter quantity n) s := by
  unfold capacityRefusal at h
  unfold requireCapacity readAfter
  by_cases hzero : quantity = 0
  · rw [if_pos hzero, if_pos hzero]
  · rw [if_neg hzero] at h ⊢
    rw [if_neg hzero]
    cases hlimits : cfg.limits with
    | none => simp [hlimits] at h
    | some limits =>
        cases hlimit : limits d with
        | none => simp [hlimits, hlimit] at h
        | some limit =>
            simp only [hlimits, hlimit, ite_eq_right_iff, reduceCtorEq, imp_false] at h
            simp only [hlimit, alone_lock, alone_clock, alone_look]
            rw [if_neg h, alone_note]

/-- A check that is not passed ends the transaction. -/
theorem alone_requireCapacity_refused {d : Dimension} {quantity : ℕ} (next : Transaction)
    {e : ApiError} (h : capacityRefusal cfg d quantity (clock n) s = some e) :
    ∃ m, (requireCapacity cfg d quantity next).alone clock n s = ⟨.ok (.error e), s, m⟩ := by
  unfold capacityRefusal at h
  unfold requireCapacity
  by_cases hzero : quantity = 0
  · simp [hzero] at h
  · rw [if_neg hzero] at h ⊢
    cases hlimits : cfg.limits with
    | none =>
        simp only [hlimits, Option.some.injEq] at h
        exact ⟨n, by rw [alone_lock, h, alone_done]⟩
    | some limits =>
        cases hlimit : limits d with
        | none =>
            simp only [hlimits, hlimit, Option.some.injEq] at h
            exact ⟨n, by simp only [hlimit, alone_lock, alone_done, h]⟩
        | some limit =>
            simp only [hlimits, hlimit, Option.ite_none_right_eq_some, Option.some.injEq] at h
            obtain ⟨hover, rfl⟩ := h
            refine ⟨n + 1, ?_⟩
            simp only [hlimit, alone_lock, alone_clock, alone_look]
            rw [if_pos hover, alone_done]

/-! ## A catalogue sync -/

/-- The loop of `bulk_upsert` over a table that stays as it is. -/
def tallyItems (now : Time) (products : Table String Product) :
    List String → SyncTally → List ProductUpsert → SyncTally
  | _, t, [] => t
  | seen, t, p :: rest =>
      if p.externalId ∈ seen then tallyItems now products seen (t.reject p.externalId) rest
      else
        tallyItems now products (p.externalId :: seen)
          (t.upsert p now (products.get? p.externalId)) rest

theorem alone_upsertItems (now : Time) (next : SyncTally → Transaction) (seen : List String)
    (t : SyncTally) (items : List ProductUpsert) :
    (upsertItems now next seen t items).alone clock n s =
      (next (tallyItems now s.products seen t items)).alone clock n s := by
  induction items generalizing seen t with
  | nil => rfl
  | cons p rest ih =>
      unfold upsertItems tallyItems
      split
      · exact ih _ _
      · rw [alone_look]
        exact ih _ _

/-- The items whose id did not come before, and those whose id did. -/
def firsts : List String → List ProductUpsert → List ProductUpsert
  | _, [] => []
  | seen, p :: rest =>
      if p.externalId ∈ seen then firsts seen rest
      else p :: firsts (p.externalId :: seen) rest

def laters : List String → List ProductUpsert → List ProductUpsert
  | _, [] => []
  | seen, p :: rest =>
      if p.externalId ∈ seen then p :: laters seen rest
      else laters (p.externalId :: seen) rest

theorem mem_firsts {seen : List String} {items : List ProductUpsert} {p : ProductUpsert}
    (h : p ∈ firsts seen items) : p ∈ items ∧ p.externalId ∉ seen := by
  fun_induction firsts seen items with
  | case1 => cases h
  | case2 seen q rest hseen ih =>
      obtain ⟨hmem, hnew⟩ := ih h
      exact ⟨List.mem_cons_of_mem _ hmem, hnew⟩
  | case3 seen q rest hseen ih =>
      rcases List.mem_cons.mp h with rfl | hrest
      · exact ⟨List.mem_cons_self, hseen⟩
      · obtain ⟨hmem, hnew⟩ := ih hrest
        rw [List.mem_cons, not_or] at hnew
        exact ⟨List.mem_cons_of_mem _ hmem, hnew.2⟩

/-- The first items have ids of their own. -/
theorem firsts_nodup (seen : List String) (items : List ProductUpsert) :
    ((firsts seen items).map ProductUpsert.externalId).Nodup := by
  fun_induction firsts seen items with
  | case1 => exact List.nodup_nil
  | case2 seen q rest hseen ih => exact ih
  | case3 seen q rest hseen ih =>
      rw [List.map_cons, List.nodup_cons]
      refine ⟨?_, ih⟩
      intro hmem
      obtain ⟨p, hp, heq⟩ := List.mem_map.mp hmem
      exact (mem_firsts hp).2 (heq ▸ List.mem_cons_self)

/-- The ids of the first items are those of the items. -/
theorem mem_firsts_ids {seen : List String} {items : List ProductUpsert} {id : String}
    (hnew : id ∉ seen) : id ∈ (firsts seen items).map ProductUpsert.externalId ↔
      id ∈ items.map ProductUpsert.externalId := by
  fun_induction firsts seen items with
  | case1 => rfl
  | case2 seen p rest hseen ih =>
      rw [ih hnew, List.map_cons, List.mem_cons, or_iff_right]
      rintro rfl
      exact hnew hseen
  | case3 seen p rest hseen ih =>
      rw [List.map_cons, List.map_cons, List.mem_cons, List.mem_cons]
      by_cases hid : id = p.externalId
      · simp [hid]
      · rw [ih (by simp [hid, hnew])]

/-- Is the product one that the table does not have? -/
def isNew (products : Table String Product) (p : ProductUpsert) : Bool :=
  decide (products.get? p.externalId = none)

/-- What the loop counts. -/
theorem tallyItems_counts (now : Time) (products : Table String Product) (seen : List String)
    (t : SyncTally) (items : List ProductUpsert) :
    (tallyItems now products seen t items).created =
        t.created + (firsts seen items).countP (isNew products) ∧
      (tallyItems now products seen t items).updated =
        t.updated + (firsts seen items).countP (fun p => !isNew products p) ∧
      (tallyItems now products seen t items).rejected =
        t.rejected + (laters seen items).length ∧
      (tallyItems now products seen t items).failures =
        t.failures ++ (laters seen items).map fun p => ⟨p.externalId, duplicateInBatch⟩ := by
  induction items generalizing seen t with
  | nil => simp [tallyItems, firsts, laters]
  | cons p rest ih =>
      unfold tallyItems firsts laters
      split
      · obtain ⟨hcreated, hupdated, hrejected, hfailures⟩ := ih seen (t.reject p.externalId)
        refine ⟨hcreated, hupdated, ?_, ?_⟩
        · have hone : (t.reject p.externalId).rejected = t.rejected + 1 := rfl
          rw [hrejected, List.length_cons, hone]
          omega
        · rw [hfailures, List.map_cons, SyncTally.reject, List.append_assoc]
          rfl
      · obtain ⟨hcreated, hupdated, hrejected, hfailures⟩ :=
          ih (p.externalId :: seen) (t.upsert p now (products.get? p.externalId))
        rw [hcreated, hupdated, hrejected, hfailures]
        cases hstored : products.get? p.externalId with
        | none =>
            have hnew : isNew products p = true := decide_eq_true hstored
            simp only [SyncTally.upsert, List.countP_cons, hnew]
            grind
        | some row =>
            have hold : isNew products p = false := by simp [isNew, hstored]
            simp only [SyncTally.upsert, List.countP_cons, hold]
            grind

/-! ### What it writes -/

/-- The table after an item. -/
def upsertOne (now : Time) (products : Table String Product) (p : ProductUpsert) :
    Table String Product :=
  match products.get? p.externalId with
  | some _ => products.update p.externalId (p.assign now)
  | none => products.insert p.externalId (p.row now)

/-- The table after items. -/
def upsertAll (now : Time) (products : Table String Product) (items : List ProductUpsert) :
    Table String Product :=
  items.foldl (upsertOne now) products

/-- An item changes the row of its own id. -/
theorem get?_upsertOne_of_ne {products : Table String Product} {p : ProductUpsert} {id : String}
    (hne : id ≠ p.externalId) (now : Time) :
    (upsertOne now products p).get? id = products.get? id := by
  unfold upsertOne
  split
  · rw [Table.get?_update, if_neg hne]
  · rw [Table.get?_insert_cases, if_neg hne]

/-- The row of the item. -/
theorem get?_upsertOne_self (now : Time) (products : Table String Product) (p : ProductUpsert) :
    (upsertOne now products p).get? p.externalId =
      some (((products.get? p.externalId).map (p.assign now)).getD (p.row now)) := by
  unfold upsertOne
  split
  · next row hrow => rw [Table.get?_update, if_pos rfl, hrow, Option.map_some, Option.getD_some]
  · next hnone =>
      rw [Table.get?_insert_cases, if_pos rfl, hnone, Option.map_none]

/-- Items leave the rows of other ids as they are. -/
theorem get?_upsertAll_of_notMem {items : List ProductUpsert} {id : String}
    (h : id ∉ items.map ProductUpsert.externalId) (now : Time) (products : Table String Product) :
    (upsertAll now products items).get? id = products.get? id := by
  induction items generalizing products with
  | nil => rfl
  | cons p rest ih =>
      rw [List.map_cons, List.mem_cons, not_or] at h
      exact (ih h.2 _).trans (get?_upsertOne_of_ne h.1 now)

/-- The row of an item, where no other item has its id. -/
theorem get?_upsertAll_of_mem {items : List ProductUpsert}
    (hnodup : (items.map ProductUpsert.externalId).Nodup) {p : ProductUpsert} (hp : p ∈ items)
    (now : Time) (products : Table String Product) :
    (upsertAll now products items).get? p.externalId =
      some (((products.get? p.externalId).map (p.assign now)).getD (p.row now)) := by
  induction items generalizing products with
  | nil => cases hp
  | cons q rest ih =>
      rw [List.map_cons, List.nodup_cons] at hnodup
      rcases List.mem_cons.mp hp with rfl | hrest
      · exact (get?_upsertAll_of_notMem hnodup.1 now _).trans (get?_upsertOne_self now _ _)
      · have hne : p.externalId ≠ q.externalId := by
          intro heq
          exact hnodup.1 (heq ▸ List.mem_map_of_mem hrest)
        refine (ih hnodup.2 hrest _).trans ?_
        rw [get?_upsertOne_of_ne hne]

/-- What is flushed for an item that was just looked up. -/
theorem writeProduct_upsert (cur : Store) (now : Time) (p : ProductUpsert) (t : SyncTally) :
    ∃ write, (t.upsert p now (cur.products.get? p.externalId)).writes = t.writes ++ [write] ∧
      cur.writeProduct write =
        .ok { cur with products := upsertOne now cur.products p } := by
  unfold SyncTally.upsert upsertOne
  cases hstored : cur.products.get? p.externalId with
  | none =>
      refine ⟨_, rfl, ?_⟩
      simp only [Store.writeProduct, hstored]
  | some row =>
      refine ⟨_, rfl, ?_⟩
      simp only [Store.writeProduct]
      rw [Table.update_congr cur.products (g := p.assign now)]
      intro stored hrow
      obtain rfl := Option.some.inj (hstored.symm.trans hrow)
      simp [Product.flush]

/-- **The writes of a sync.**  They are not rejected, and give each first item to its row. -/
theorem foldlM_tallyItems {now : Time} {s cur : Store} {seen : List String} {t : SyncTally}
    {items : List ProductUpsert} (hwrites : t.writes.foldlM Store.writeProduct s = .ok cur)
    (hsame : ∀ id, id ∉ seen → cur.products.get? id = s.products.get? id) :
    (tallyItems now s.products seen t items).writes.foldlM Store.writeProduct s =
      .ok { cur with products := upsertAll now cur.products (firsts seen items) } := by
  induction items generalizing cur seen t with
  | nil => exact hwrites
  | cons p rest ih =>
      unfold tallyItems firsts
      split
      · exact ih hwrites hsame
      · next hfirst =>
          rw [← hsame p.externalId hfirst]
          obtain ⟨write, hlast, hwrite⟩ := writeProduct_upsert cur now p t
          refine @ih { cur with products := upsertOne now cur.products p } _ _ ?_ ?_
          · rw [hlast, List.foldlM_append, hwrites]
            simp only [List.foldlM_cons, List.foldlM_nil, bind, Except.bind, hwrite]
            rfl
          · intro id hid
            rw [List.mem_cons, not_or] at hid
            exact (get?_upsertOne_of_ne hid.1 now).trans (hsame id hid.2)

/-- What a sync comes to. -/
def syncTally (now : Time) (s : Store) (p : ProductBulkUpsertRequest) : SyncTally :=
  tallyItems now s.products [] .zero p.products

/-- The store after a sync. -/
def Store.synced (s : Store) (cfg : Config) (id : ℕ) (p : ProductBulkUpsertRequest) (now : Time) :
    Store :=
  { s with
    products := upsertAll now s.products (firsts [] p.products)
    usage := s.usage ++ booked .storedProducts (syncTally now s p).created now
    syncs := s.syncs ++ [p.row cfg id (syncTally now s p) now] }

/-- A request id that is fresh is not rejected. -/
theorem insertSync_of_fresh {sync : CatalogSync}
    (h : ∀ requestId, sync.requestId = some requestId → s.sync? requestId = none) :
    s.insertSync sync = .ok { s with syncs := s.syncs ++ [sync] } := by
  unfold Store.insertSync
  rw [if_neg]
  rintro ⟨hsome, old, hold, heq⟩
  obtain ⟨requestId, hid⟩ := Option.isSome_iff_exists.mp hsome
  have hnone := h requestId hid
  rw [Store.sync?, List.find?_eq_none] at hnone
  exact hnone old hold (decide_eq_true (heq.trans hid))

theorem writeSync_alone (cfg : Config) (id : ℕ) {p : ProductBulkUpsertRequest} (now : Time)
    (hfresh : p.Fresh s) :
    writeSync (p.row cfg id (syncTally now s p) now) (syncTally now s p) now s =
      .ok (s.synced cfg id p now) := by
  have hproducts : (tallyItems now s.products [] .zero p.products).writes.foldlM
      Store.writeProduct s =
        .ok { s with products := upsertAll now s.products (firsts [] p.products) } :=
    foldlM_tallyItems rfl fun _ _ => rfl
  unfold writeSync
  simp only [bind, Except.bind, syncTally, hproducts, bookUsage_eq]
  refine insertSync_of_fresh ?_
  intro requestId hid
  exact hfresh requestId ((truthy_of_ne p.requestId_nonempty).trans hid)

/-- How many products a sync would add. -/
def ProductBulkUpsertRequest.quantity (p : ProductBulkUpsertRequest) (s : Store) : ℕ :=
  (newProductIds s p.products).length

/-- `bulk_upsert` of a request that is not a repetition goes on to the capacity check. -/
theorem alone_bulkUpsert_fresh {id : ℕ} {p : ProductBulkUpsertRequest} (hfresh : p.Fresh s) :
    (bulkUpsert cfg id p).alone clock n s =
      (upsertNewSync cfg id p (cfg.hash p.canonical)).alone clock n s := by
  unfold bulkUpsert
  rw [alone_lock]
  dsimp only
  cases hid : truthy p.requestId with
  | none => rfl
  | some requestId => simp only [alone_look, hfresh requestId hid]

/-- **A sync alone**, within the capacity. -/
theorem alone_bulkUpsert {id : ℕ} {p : ProductBulkUpsertRequest} (hfresh : p.Fresh s)
    (hroom : capacityRefusal cfg .storedProducts (p.quantity s) (clock n) s = none) :
    (bulkUpsert cfg id p).alone clock n s =
      let m := readAfter (p.quantity s) n
      ⟨.ok (.sync (syncResult (p.row cfg id (syncTally (clock m) s p) (clock m))
        (syncTally (clock m) s p))), s.synced cfg id p (clock m), m + 1⟩ := by
  rw [alone_bulkUpsert_fresh hfresh, upsertNewSync, alone_look]
  refine (alone_requireCapacity _ hroom).trans ?_
  rw [alone_clock, alone_upsertItems]
  exact alone_commit (writeSync_alone cfg id _ hfresh) _

/-- A sync beyond the capacity writes nothing. -/
theorem alone_bulkUpsert_refused (id : ℕ) {p : ProductBulkUpsertRequest} (hfresh : p.Fresh s)
    {e : ApiError} (h : capacityRefusal cfg .storedProducts (p.quantity s) (clock n) s = some e) :
    ∃ m, (bulkUpsert cfg id p).alone clock n s = ⟨.ok (.error e), s, m⟩ := by
  rw [alone_bulkUpsert_fresh hfresh, upsertNewSync, alone_look]
  exact alone_requireCapacity_refused _ h

/-! ## A batch -/

/-- Rows under fresh and distinct keys, of customers, are all inserted. -/
theorem foldlM_insertEvent {rows : List (String × CustomerEvent)}
    (hnodup : (rows.map Prod.fst).Nodup)
    (hfresh : ∀ id ∈ rows.map Prod.fst, s.events.get? id = none)
    (hknown : ∀ row ∈ rows, s.customerKnown row.2 = true) :
    rows.foldlM Store.insertEvent s = .ok { s with events := s.events.insertAll rows } := by
  induction rows generalizing s with
  | nil => rfl
  | cons row rows ih =>
      rw [List.map_cons, List.nodup_cons] at hnodup
      have hinsert : s.insertEvent row =
          .ok { s with events := s.events.insert row.1 row.2 } := by
        simp only [Store.insertEvent, hfresh row.1 List.mem_cons_self,
          hknown row List.mem_cons_self, if_true]
      simp only [List.foldlM_cons, bind, Except.bind, hinsert]
      refine ih hnodup.2 ?_ fun row' hrow' => hknown row' (List.mem_cons_of_mem _ hrow')
      intro id hid
      rw [Table.get?_insert_cases, if_neg]
      · exact hfresh id (List.mem_cons_of_mem _ hid)
      · rintro rfl
        exact hnodup.1 hid

/-- A request id that is fresh is not rejected. -/
theorem insertBatch_of_fresh {batch : EventBatch}
    (h : ∀ requestId, batch.requestId = some requestId → s.batch? requestId = none) :
    s.insertBatch batch = .ok { s with batches := s.batches ++ [batch] } := by
  unfold Store.insertBatch
  rw [if_neg]
  rintro ⟨hsome, old, hold, heq⟩
  obtain ⟨requestId, hid⟩ := Option.isSome_iff_exists.mp hsome
  have hnone := h requestId hid
  rw [Store.batch?, List.find?_eq_none] at hnone
  exact hnone old hold (decide_eq_true (heq.trans hid))

/-- The tally of a batch that runs alone. -/
def batchTally (now : Time) (s : Store) (p : EventBatchSubmit) : EventTally :=
  p.tally s (knownProducts s p.events) now

/-- The row of such a batch. -/
def EventBatchSubmit.batch (cfg : Config) (id : ℕ) (p : EventBatchSubmit) (s : Store)
    (now : Time) : EventBatch :=
  p.row cfg id s (knownProducts s p.events) now

/-- The store after a batch. -/
def Store.batched (s : Store) (cfg : Config) (id : ℕ) (p : EventBatchSubmit) (now : Time) :
    Store :=
  { s with
    customers := (s.ensureCustomers (batchTally now s p).customers).customers
    events := s.events.insertAll (batchTally now s p).newEvents
    batches := s.batches ++ [p.batch cfg id s now]
    usage := s.usage ++ booked .acceptedEvents (batchTally now s p).accepted now }

/-- **The writes of a batch** are not rejected. -/
theorem writeBatch_alone (cfg : Config) (id : ℕ) {p : EventBatchSubmit} (now : Time)
    (hfresh : p.Fresh s) :
    writeBatch (p.batch cfg id s now) (batchTally now s p) now s =
      .ok (s.batched cfg id p now) := by
  have hevents : (batchTally now s p).newEvents.foldlM Store.insertEvent
        (s.ensureCustomers (batchTally now s p).customers) =
      .ok { s.ensureCustomers (batchTally now s p).customers with
        events := s.events.insertAll (batchTally now s p).newEvents } :=
    foldlM_insertEvent (tally_nodup _ _ _ _) (tally_fresh p s _ now) (tally_known p s _ now)
  unfold writeBatch
  simp only [bind, Except.bind, hevents, bookUsage_eq]
  rw [insertBatch_of_fresh]
  · rfl
  · intro requestId hid
    exact hfresh requestId ((truthy_of_ne p.requestId_nonempty).trans hid)

/-- How many events a batch that runs alone is checked for. -/
def EventBatchSubmit.newCount (p : EventBatchSubmit) (s : Store) : ℕ :=
  p.quantity s (knownProducts s p.events)

/-- `submit_batch` of a request that is not a repetition goes on to the capacity check. -/
theorem alone_submitBatch_fresh {id : ℕ} {p : EventBatchSubmit} (hfresh : p.Fresh s) :
    (submitBatch cfg id p).alone clock n s =
      (submitNewBatch cfg id p (cfg.hash p.canonical)).alone clock n s := by
  unfold submitBatch
  rw [alone_lock]
  dsimp only
  cases hid : truthy p.requestId with
  | none => rfl
  | some requestId => simp only [alone_look, hfresh requestId hid]

/-- **A batch alone**, within the capacity. -/
theorem alone_submitBatch {id : ℕ} {p : EventBatchSubmit} (hfresh : p.Fresh s)
    (hroom : capacityRefusal cfg .acceptedEvents (p.newCount s) (clock n) s = none) :
    (submitBatch cfg id p).alone clock n s =
      let m := readAfter (p.newCount s) n
      ⟨.ok (.batch (p.batch cfg id s (clock m)).response), s.batched cfg id p (clock m), m + 1⟩ := by
  rw [alone_submitBatch_fresh hfresh, submitNewBatch, alone_look, alone_look]
  refine (alone_requireCapacity _ hroom).trans ?_
  rw [alone_clock]
  exact alone_commit (writeBatch_alone cfg id _ hfresh) _

/-- A batch beyond the capacity writes nothing. -/
theorem alone_submitBatch_refused (id : ℕ) {p : EventBatchSubmit} (hfresh : p.Fresh s)
    {e : ApiError} (h : capacityRefusal cfg .acceptedEvents (p.newCount s) (clock n) s = some e) :
    ∃ m, (submitBatch cfg id p).alone clock n s = ⟨.ok (.error e), s, m⟩ := by
  rw [alone_submitBatch_fresh hfresh, submitNewBatch, alone_look, alone_look]
  exact alone_requireCapacity_refused _ h

end Ingestion
