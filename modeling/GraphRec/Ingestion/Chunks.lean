import GraphRec.Ingestion.Alone

/-!
# Bulk requests one after another

A list that is sent to `bulk_upsert` or `submit_batch` in parts, each alone, against the whole list
sent at once.  The two differ in the readings of the clock, and a catalogue or an event store is
compared without them.

* `catalogueOf`, `eventsOf` — what is stored, without its times;
* `catalogueOf_upsertAll` — items give the same catalogue at any time;
* `tallyEvents_append` — the tally of a list is those of its parts, the later part knowing what the
  earlier one added;
* `capacityRefusal_mono` — room for the whole is room for the parts.
-/

namespace Ingestion

open Transactions

variable {cfg : Config} {now now' : Time} {s s' : Store}

/-! ## Capacity -/

/-- Room for a quantity is room for less, also when some of the rest is in use by then. -/
theorem capacityRefusal_mono {d : Dimension} {quantity quantity' : ℕ}
    (h : capacityRefusal cfg d quantity now s = none) (hle : quantity' ≤ quantity)
    (hused : ∀ start reset,
      capacityUsed s' d start reset + quantity' ≤ capacityUsed s d start reset + quantity) :
    capacityRefusal cfg d quantity' now s' = none := by
  by_cases hzero : quantity' = 0
  · rw [capacityRefusal, if_pos hzero]
  · have hpos : quantity ≠ 0 := by omega
    unfold capacityRefusal at h ⊢
    rw [if_neg hpos] at h
    rw [if_neg hzero]
    cases hlimits : cfg.limits with
    | none => simp [hlimits] at h
    | some limits =>
        cases hlimit : limits d with
        | none => simp [hlimits, hlimit] at h
        | some limit =>
            simp only [hlimits, hlimit, ite_eq_right_iff, reduceCtorEq, imp_false] at h
            simp only [hlimit, ite_eq_right_iff, reduceCtorEq, imp_false]
            have hmore := hused (cfg.calendar.monthBounds now).1 (cfg.calendar.monthBounds now).2
            omega

/-! ## Products -/

/-- A product without its times. -/
def Product.undated (r : Product) : Product := { r with createdAt := 0, updatedAt := 0 }

/-- The catalogue without its times. -/
def catalogueOf (products : Table String Product) : List (String × Product) :=
  products.rows.map fun row => (row.1, row.2.undated)

theorem catalogueOf_keys {products products' : Table String Product}
    (h : catalogueOf products = catalogueOf products') :
    products.rows.map Prod.fst = products'.rows.map Prod.fst := by
  have hfst := congrArg (List.map Prod.fst) h
  simpa only [catalogueOf, List.map_map, Function.comp_def] using hfst

/-- The catalogue after an item. -/
theorem catalogueOf_upsertOne (now : Time) (products : Table String Product) (p : ProductUpsert) :
    catalogueOf (upsertOne now products p) =
      if p.externalId ∈ products.rows.map Prod.fst then
        (catalogueOf products).map fun row => if row.1 = p.externalId then (row.1, p.row 0) else row
      else catalogueOf products ++ [(p.externalId, p.row 0)] := by
  have hnone := Table.get?_eq_none_iff products (k := p.externalId)
  unfold upsertOne
  split
  · next row hrow =>
      rw [if_pos]
      · simp only [catalogueOf, Table.update, Table.updateWhere, List.map_map]
        refine List.map_congr_left ?_
        intro row _
        simp only [Function.comp_apply]
        split
        · rfl
        · rfl
      · by_contra hnot
        rw [hnone.mpr hnot] at hrow
        cases hrow
  · next hfree =>
      rw [if_neg (hnone.mp hfree), catalogueOf, Table.rows_insert _ hfree, List.map_append]
      rfl

/-- **Items give the same catalogue** whenever they are written. -/
theorem catalogueOf_upsertAll {products products' : Table String Product}
    (h : catalogueOf products = catalogueOf products') (items : List ProductUpsert) :
    catalogueOf (upsertAll now products items) = catalogueOf (upsertAll now' products' items) := by
  induction items generalizing products products' with
  | nil => exact h
  | cons p rest ih =>
      refine ih ?_
      rw [catalogueOf_upsertOne, catalogueOf_upsertOne, catalogueOf_keys h, h]

theorem upsertAll_append (now : Time) (products : Table String Product)
    (items rest : List ProductUpsert) :
    upsertAll now products (items ++ rest) = upsertAll now (upsertAll now products items) rest :=
  List.foldl_append

/-- Items with distinct ids all come first. -/
theorem firsts_eq_self {seen : List String} {items : List ProductUpsert}
    (hnodup : (items.map ProductUpsert.externalId).Nodup)
    (hnew : ∀ p ∈ items, p.externalId ∉ seen) :
    firsts seen items = items ∧ laters seen items = [] := by
  induction items generalizing seen with
  | nil => exact ⟨rfl, rfl⟩
  | cons p rest ih =>
      rw [List.map_cons, List.nodup_cons] at hnodup
      have hp := hnew p List.mem_cons_self
      have hrest : ∀ q ∈ rest, q.externalId ∉ p.externalId :: seen := by
        intro q hq hmem
        rcases List.mem_cons.mp hmem with heq | hseen
        · exact hnodup.1 (heq ▸ List.mem_map_of_mem hq)
        · exact hnew q (List.mem_cons_of_mem _ hq) hseen
      obtain ⟨hfirsts, hlaters⟩ := ih hnodup.2 hrest
      rw [firsts, laters, if_neg hp, if_neg hp, hfirsts, hlaters]
      exact ⟨rfl, rfl⟩

/-- Which products are new does not change with items of other ids. -/
theorem countP_isNew_upsertAll {items rest : List ProductUpsert}
    (hdisjoint : ∀ q ∈ rest, q.externalId ∉ items.map ProductUpsert.externalId)
    (products : Table String Product) :
    rest.countP (isNew (upsertAll now products items)) = rest.countP (isNew products) := by
  refine List.countP_congr ?_
  intro q hq
  rw [isNew, isNew, get?_upsertAll_of_notMem (hdisjoint q hq)]

/-- The rows after items: one more for each that is new. -/
theorem length_upsertAll {items : List ProductUpsert}
    (hnodup : (items.map ProductUpsert.externalId).Nodup) (products : Table String Product) :
    (upsertAll now products items).rows.length =
      products.rows.length + items.countP (isNew products) := by
  induction items generalizing products with
  | nil => rfl
  | cons p rest ih =>
      rw [List.map_cons, List.nodup_cons] at hnodup
      have hrest :
          rest.countP (isNew (upsertOne now products p)) = rest.countP (isNew products) := by
        refine List.countP_congr ?_
        intro q hq
        rw [isNew, isNew, get?_upsertOne_of_ne]
        rintro heq
        exact hnodup.1 (heq ▸ List.mem_map_of_mem hq)
      refine (ih hnodup.2 _).trans ?_
      rw [hrest, List.countP_cons]
      unfold upsertOne
      cases hstored : products.get? p.externalId with
      | none =>
          have hnew : isNew products p = true := decide_eq_true hstored
          simp only [Table.rows_insert _ hstored, List.length_append, List.length_singleton, hnew,
            if_true]
          omega
      | some row =>
          have hold : isNew products p = false := by simp [isNew, hstored]
          simp [Table.update, Table.updateWhere, hold]

/-- What the capacity of a sync is checked for is what it creates. -/
theorem quantity_eq_countP (p : ProductBulkUpsertRequest) (s : Store) :
    p.quantity s = (firsts [] p.products).countP (isNew s.products) := by
  have hperm : (newProductIds s p.products).Perm
      (((firsts [] p.products).filter (isNew s.products)).map ProductUpsert.externalId) := by
    refine (List.perm_ext_iff_of_nodup (List.nodup_dedup _) ?_).mpr ?_
    · exact (firsts_nodup [] p.products).sublist (List.filter_sublist.map _)
    · intro id
      have hids := @mem_firsts_ids [] p.products id List.not_mem_nil
      rw [List.mem_dedup, List.mem_filter, ← hids]
      simp only [List.mem_map, List.mem_filter, isNew]
      grind
  rw [ProductBulkUpsertRequest.quantity, hperm.length_eq, List.length_map,
    List.countP_eq_length_filter]

/-! ## Events -/

/-- An event without the time it was stored. -/
def CustomerEvent.undated (e : CustomerEvent) : CustomerEvent := { e with createdAt := 0 }

/-- The event store without the times at which the events were stored. -/
def eventsOf (events : Table String CustomerEvent) : List (String × CustomerEvent) :=
  events.rows.map fun row => (row.1, row.2.undated)

/-- A tally at another time. -/
def EventTally.dated (t : EventTally) (now : Time) : EventTally :=
  { t with newEvents := t.newEvents.map fun row => (row.1, { row.2 with createdAt := now }) }

/-- Two tallies, one after the other. -/
def EventTally.append (t u : EventTally) : EventTally where
  accepted := t.accepted + u.accepted
  duplicates := t.duplicates + u.duplicates
  rejected := t.rejected + u.rejected
  outcomes := t.outcomes ++ u.outcomes
  newEvents := t.newEvents ++ u.newEvents
  customers := t.customers ++ u.customers

/-- The ids of the events that a tally adds. -/
def EventTally.newIds (t : EventTally) : List String := t.newEvents.map Prod.fst

/-- The reading of the clock is that of the rows and nothing else. -/
theorem tallyEvents_dated (known : List String) (now : Time) (seen : List String)
    (events : List EventSubmit) :
    tallyEvents known now seen events = (tallyEvents known 0 seen events).dated now := by
  induction events generalizing seen with
  | nil => rfl
  | cons p rest ih =>
      unfold tallyEvents
      split
      · rw [ih]
        rfl
      · split
        · rw [ih]
          rfl
        · rw [ih]
          rfl

/-- Only what is known of the events' own products and ids matters. -/
theorem tallyEvents_congr {known known' seen seen' : List String} {events : List EventSubmit}
    (hknown : ∀ p ∈ events, p.productKnown known = p.productKnown known')
    (hseen : ∀ p ∈ events, p.eventId ∈ seen ↔ p.eventId ∈ seen') (now : Time) :
    tallyEvents known now seen events = tallyEvents known' now seen' events := by
  induction events generalizing seen seen' with
  | nil => rfl
  | cons p rest ih =>
      have hknown' : ∀ q ∈ rest, q.productKnown known = q.productKnown known' :=
        fun q hq => hknown q (List.mem_cons_of_mem _ hq)
      have hseen' : ∀ q ∈ rest, q.eventId ∈ seen ↔ q.eventId ∈ seen' :=
        fun q hq => hseen q (List.mem_cons_of_mem _ hq)
      have hcons : ∀ q ∈ rest, q.eventId ∈ p.eventId :: seen ↔ q.eventId ∈ p.eventId :: seen' := by
        intro q hq
        rw [List.mem_cons, List.mem_cons, hseen' q hq]
      unfold tallyEvents
      simp only [hseen p List.mem_cons_self, hknown p List.mem_cons_self,
        ih hknown' hseen', ih hknown' hcons]

/-- **Tallies of parts.** -/
theorem tallyEvents_append (known : List String) (now : Time) (seen : List String)
    (xs ys : List EventSubmit) :
    tallyEvents known now seen (xs ++ ys) =
      (tallyEvents known now seen xs).append
        (tallyEvents known now ((tallyEvents known now seen xs).newIds ++ seen) ys) := by
  induction xs generalizing seen with
  | nil => simp [tallyEvents, EventTally.append, EventTally.newIds]
  | cons p rest ih =>
      have hseen : ∀ q ∈ ys,
          q.eventId ∈ (tallyEvents known now (p.eventId :: seen) rest).newIds ++ p.eventId :: seen ↔
            q.eventId ∈ p.eventId ::
              ((tallyEvents known now (p.eventId :: seen) rest).newIds ++ seen) := by
        intro q _
        simp only [List.mem_append, List.mem_cons]
        tauto
      by_cases hmem : p.eventId ∈ seen
      · simp only [List.cons_append, tallyEvents, hmem, if_true, ih, EventTally.append,
          EventTally.newIds, EventTally.mk.injEq, true_and, and_true]
        omega
      · by_cases hp : p.productKnown known = true
        · simp only [List.cons_append, tallyEvents, hmem, if_false, hp, if_true, ih,
            tallyEvents_congr (fun _ _ => rfl) hseen]
          simp only [EventTally.append, EventTally.newIds, List.map_cons, List.cons_append,
            List.append_assoc, EventTally.mk.injEq, and_true]
          omega
        · simp only [List.cons_append, tallyEvents, hmem, if_false, hp, ih, EventTally.append,
            EventTally.newIds, EventTally.mk.injEq, true_and, and_true, Bool.false_eq_true]
          omega

/-- The tally of events on a store, but for the time. -/
def Store.tallyOf (s : Store) (events : List EventSubmit) : EventTally :=
  tallyEvents (knownProducts s events) 0 (existingEventIds s events) events

theorem batchTally_eq (now : Time) (s : Store) (p : EventBatchSubmit) :
    batchTally now s p = (s.tallyOf p.events).dated now :=
  tallyEvents_dated _ now _ _

/-- Is the event's product stored, or none named? -/
def Store.productStored (s : Store) (p : EventSubmit) : Bool :=
  match p.externalProductId with
  | none => true
  | some id => decide (id ≠ "") && (s.products.get? id).isSome

theorem productKnown_knownProducts {p : EventSubmit} {events : List EventSubmit} (h : p ∈ events) :
    p.productKnown (knownProducts s events) = s.productStored p := by
  unfold EventSubmit.productKnown Store.productStored
  cases hid : p.externalProductId with
  | none => rfl
  | some id =>
      have hlooked : id ≠ "" → ∃ q ∈ events, truthy q.externalProductId = some id := by
        intro hne
        refine ⟨p, h, ?_⟩
        rw [hid]
        exact if_neg hne
      have hne : ∀ q : EventSubmit, truthy q.externalProductId = some id → id ≠ "" := by
        intro q hq
        unfold truthy at hq
        split at hq
        · split at hq
          · cases hq
          · next hne =>
              obtain rfl := Option.some.inj hq
              exact hne
        · cases hq
      rw [Bool.eq_iff_iff]
      simp only [knownProducts, List.mem_filter, List.mem_filterMap, decide_eq_true_eq,
        Bool.and_eq_true]
      refine and_congr_left fun _ => ⟨?_, hlooked⟩
      rintro ⟨q, -, hq⟩
      exact hne q hq

theorem mem_existingEventIds {p : EventSubmit} {events : List EventSubmit} (h : p ∈ events) :
    p.eventId ∈ existingEventIds s events ↔ (s.events.get? p.eventId).isSome = true := by
  rw [existingEventIds, List.mem_filter]
  exact and_iff_right (List.mem_map_of_mem h)

/-- What the tally of a batch that runs alone adds is new. -/
theorem tallyOf_fresh (s : Store) (events : List EventSubmit) :
    (s.tallyOf events).newIds.Nodup ∧
      ∀ id ∈ (s.tallyOf events).newIds, s.events.get? id = none :=
  ⟨tally_nodup _ _ _ _, tally_fresh ⟨none, events, "", noRequestId⟩ s _ 0⟩

/-- **Events in parts.**  The later part finds the products as they were and the events that the
earlier one added. -/
theorem tallyOf_append {xs : List EventSubmit} (hproducts : s'.products = s.products)
    (hevents : s'.events = s.events.insertAll ((s.tallyOf xs).dated now).newEvents)
    (ys : List EventSubmit) :
    s.tallyOf (xs ++ ys) = (s.tallyOf xs).append (s'.tallyOf ys) := by
  have hids : ((s.tallyOf xs).dated now).newEvents.map Prod.fst = (s.tallyOf xs).newIds := by
    simp only [EventTally.dated, EventTally.newIds, List.map_map, Function.comp_def]
  have hfirst : tallyEvents (knownProducts s (xs ++ ys)) 0 (existingEventIds s (xs ++ ys)) xs =
      s.tallyOf xs := by
    refine tallyEvents_congr ?_ ?_ 0
    · intro p hp
      rw [productKnown_knownProducts hp, productKnown_knownProducts (List.mem_append_left _ hp)]
    · intro p hp
      rw [mem_existingEventIds hp, mem_existingEventIds (List.mem_append_left _ hp)]
  rw [Store.tallyOf, tallyEvents_append, hfirst]
  congr 1
  refine tallyEvents_congr ?_ ?_ 0
  · intro p hp
    rw [productKnown_knownProducts hp, productKnown_knownProducts (List.mem_append_right _ hp)]
    simp only [Store.productStored, hproducts]
  · intro p hp
    rw [mem_existingEventIds hp, List.mem_append,
      mem_existingEventIds (List.mem_append_right _ hp), hevents, Table.isSome_get?_insertAll, hids]
    exact or_comm

/-- The event store after what a tally adds. -/
theorem eventsOf_insertAll (now : Time) (s : Store) (events : List EventSubmit) :
    eventsOf (s.events.insertAll ((s.tallyOf events).dated now).newEvents) =
      eventsOf s.events ++ (s.tallyOf events).newEvents := by
  have hids :
      ((s.tallyOf events).dated now).newEvents.map Prod.fst = (s.tallyOf events).newIds := by
    simp only [EventTally.dated, EventTally.newIds, List.map_map, Function.comp_def]
  obtain ⟨hnodup, hfresh⟩ := tallyOf_fresh s events
  rw [eventsOf, Table.rows_insertAll _ (hids ▸ hnodup) (hids ▸ hfresh), List.map_append]
  congr 1
  refine (List.map_map.trans (List.map_congr_left ?_)).trans (List.map_id _)
  intro row hrow
  obtain ⟨p, -, rfl, -⟩ := tally_rows _ 0 _ events row hrow
  rfl

/-- What the capacity of a batch is checked for. -/
theorem newCount_eq (p : EventBatchSubmit) (s : Store) :
    p.newCount s = (s.tallyOf p.events).accepted :=
  quantity_eq p s (knownProducts s p.events) 0

theorem batched_products (s : Store) (cfg : Config) (id : ℕ) (p : EventBatchSubmit) (now : Time) :
    (s.batched cfg id p now).products = s.products := rfl

theorem batched_events (s : Store) (cfg : Config) (id : ℕ) (p : EventBatchSubmit) (now : Time) :
    (s.batched cfg id p now).events =
      s.events.insertAll ((s.tallyOf p.events).dated now).newEvents :=
  congrArg (fun t : EventTally => s.events.insertAll t.newEvents) (batchTally_eq now s p)

/-- A batch adds to what is used in a period no more than it books. -/
theorem capacityUsed_batched (s : Store) (cfg : Config) (id : ℕ) (p : EventBatchSubmit)
    (now start reset : Time) :
    capacityUsed (s.batched cfg id p now) .acceptedEvents start reset ≤
      capacityUsed s .acceptedEvents start reset + (s.tallyOf p.events).accepted := by
  have haccepted : (batchTally now s p).accepted = (s.tallyOf p.events).accepted := by
    rw [batchTally_eq]
    rfl
  simp only [capacityUsed, ledgerUsage, Store.batched, haccepted]
  rw [List.filter_append, List.map_append, List.sum_append]
  refine Nat.add_le_add_left ?_ _
  unfold booked
  split
  · rw [List.filter_cons, List.filter_nil]
    split
    · exact (List.sum_singleton).le
    · exact Nat.zero_le _
  · exact Nat.zero_le _

end Ingestion
