import GraphRec.Ingestion.System

/-!
# How the requests end

For each request, every way in which its transaction can end, in terms of the store as it
was just before: what was found under the lock is still so.  `serializable` puts them
together: after any run the store is that of a serial history of requests that ended in
these ways.
-/

namespace Ingestion

open Transactions Transition

/-! ## Events -/

/-- How `submit_event` ends. -/
inductive SubmitEventEnds (cfg : Config) (p : EventSubmit) :
    List Note → Store → Time → Result → Store → Prop
  | duplicate {s : Store} {t now : Time} {row : CustomerEvent}
      (hstored : s.events.get? p.eventId = some row) :
      SubmitEventEnds cfg p [.reading now] s t
        (.ok (.event ⟨p.eventId, true, true, row.createdAt⟩)) s
  | unknownProduct {s : Store} {t now : Time} (hnew : s.events.get? p.eventId = none) :
      SubmitEventEnds cfg p [.reading now] s t (.ok (.error (apiError 422
        "invalid_product_reference"
        "The event product does not exist in this tenant catalog."))) s
  | refused {s : Store} {t now : Time} {e : ApiError} (hnew : s.events.get? p.eventId = none)
      (he : CapacityError .acceptedEvents 1 e) :
      SubmitEventEnds cfg p [.reading now] s t (.ok (.error e)) s
  | stored {checks : List Note} {s s' : Store} {t now : Time}
      (hnew : s.events.get? p.eventId = none)
      (hadmits : Admits cfg .acceptedEvents 1 s t checks) (htime : now ≤ t)
      (hwrite : writeEvent p now s = .ok s') :
      SubmitEventEnds cfg p (.reading now :: checks) s t
        (.ok (.event ⟨p.eventId, true, false, now⟩)) s'
  | rejected {notes : List Note} {s : Store} {t now : Time} {c : Constraint}
      (hnew : s.events.get? p.eventId = none) (hwrite : writeEvent p now s = .error c) :
      SubmitEventEnds cfg p notes s t (.error c) s

theorem submitEvent_ends (cfg : Config) (p : EventSubmit) (s : Store) (now : Time) :
    Ends (submitEvent cfg p) (SubmitEventEnds cfg p) [] [] s now := by
  intro s₁ t₁ h₁ s₂ t₂ h₂ s₃ t₃ h₃
  dsimp only
  cases hevent : s₃.events.get? p.eventId with
  | some row =>
      intro s₄ t₄ h₄
      have hkept := (h₄.kept _ List.mem_cons_self).1
      exact .duplicate (hkept ▸ hevent)
  | none =>
      have hcapacity : ∀ s₄ t₄, Since [.dimension .acceptedEvents] s₃ t₃ s₄ t₄ →
          Ends (requireCapacity cfg .acceptedEvents 1 (.commit (writeEvent p t₂)
            (.event ⟨p.eventId, true, false, t₂⟩))) (SubmitEventEnds cfg p)
            [.dimension .acceptedEvents] [.reading t₂] s₄ t₄ := by
        intro s₄ t₄ h₄
        have hnew : ∀ {s₅ t₅}, Since [.dimension .acceptedEvents] s₄ t₄ s₅ t₅ →
            s₅.events.get? p.eventId = none := by
          intro s₅ t₅ h₅
          have hkept := ((h₄.trans rules h₅).kept _ List.mem_cons_self).1
          rw [hkept]
          exact hevent
        refine requireCapacity_ends h₄.inv ?_ ?_
        · intro held notes s₅ t₅ hheld _ h₅ _ hadmits
          have hlocked := hheld _ List.mem_cons_self
          refine commit_ends ?_ ?_
          · intro s₆ t₆ after h₆ hwrite
            have hnew₆ := hnew (h₅.trans rules (since_of_subset hheld h₆))
            have hadmits₆ := hadmits.later (fun _ => h₆.kept _ hlocked) h₆.time
            have htime : t₂ ≤ t₆ :=
              Nat.le_trans h₃.time (Nat.le_trans h₄.time (Nat.le_trans h₅.time h₆.time))
            refine ⟨.stored hnew₆ hadmits₆ htime hwrite, ?_⟩
            rw [writeEvent_ok hwrite]
            refine ⟨dated_append h₆ rfl ?_, ?_⟩
            · intro row hrow
              obtain rfl := List.mem_singleton.mp hrow
              exact htime
            · exact keeps_frame (fun hfree => absurd hlocked hfree) (fun _ => ⟨rfl, rfl⟩)
                (fun _ => Nat.le_refl _) fun _ _ _ hrow => hrow
          · intro s₆ t₆ c h₆ hwrite
            exact .rejected (hnew (h₅.trans rules (since_of_subset hheld h₆))) hwrite
        · intro s₅ t₅ e h₅ he
          exact .refused (hnew h₅) he
      unfold validateProduct
      cases p.externalProductId with
      | none => exact hcapacity s₃ t₃ (Since.now _ h₃.inv)
      | some productId =>
          intro s₄ t₄ h₄
          dsimp only
          cases s₄.products.get? productId with
          | some row => exact hcapacity s₄ t₄ h₄
          | none =>
              intro s₅ t₅ h₅
              have hkept := ((h₄.trans rules h₅).kept _ List.mem_cons_self).1
              exact .unknownProduct (hkept ▸ hevent)

/-- The request id has no batch yet. -/
def EventBatchSubmit.Fresh (p : EventBatchSubmit) (s : Store) : Prop :=
  ∀ requestId, truthy p.requestId = some requestId → s.batch? requestId = none

/-- The tally of a batch on the store it is written to. -/
def EventBatchSubmit.tally (p : EventBatchSubmit) (s : Store) (known : List String)
    (now : Time) : EventTally :=
  tallyEvents known now (existingEventIds s p.events) p.events

/-- How many new events the capacity of a batch is checked for. -/
def EventBatchSubmit.quantity (p : EventBatchSubmit) (s : Store) (known : List String) : ℕ :=
  (validNewIds (existingEventIds s p.events) known p.events).length

/-- The row of a batch. -/
def EventBatchSubmit.row (cfg : Config) (id : ℕ) (p : EventBatchSubmit) (s : Store)
    (known : List String) (now : Time) : EventBatch :=
  batchRow id p (cfg.hash p.canonical) (p.tally s known now) now

/-- How `submit_batch` ends; `known` are the products it found. -/
inductive SubmitBatchEnds (cfg : Config) (id : ℕ) (p : EventBatchSubmit) :
    List Note → Store → Time → Result → Store → Prop
  | replayed {s : Store} {t : Time} {requestId : String} {previous : EventBatch}
      (hid : truthy p.requestId = some requestId) (hprevious : s.batch? requestId = some previous)
      (hhash : previous.payloadHash = some (cfg.hash p.canonical)) :
      SubmitBatchEnds cfg id p [] s t (.ok (.batch previous.response)) s
  | conflict {s : Store} {t : Time} {requestId : String} {previous : EventBatch}
      (hid : truthy p.requestId = some requestId) (hprevious : s.batch? requestId = some previous)
      (hhash : previous.payloadHash ≠ some (cfg.hash p.canonical)) :
      SubmitBatchEnds cfg id p [] s t (.ok (.error idempotencyConflict)) s
  | refused {s : Store} {t : Time} {known : List String} {e : ApiError} (hnew : p.Fresh s)
      (he : CapacityError .acceptedEvents (p.quantity s known) e) :
      SubmitBatchEnds cfg id p [] s t (.ok (.error e)) s
  | stored {notes : List Note} {s s' : Store} {t now : Time} {known : List String}
      (hnew : p.Fresh s) (hadmits : Admits cfg .acceptedEvents (p.quantity s known) s t notes)
      (hchecked : ∀ check, .check check ∈ notes → check.checkedAt ≤ now) (htime : now ≤ t)
      (hwrite : writeBatch (p.row cfg id s known now) (p.tally s known now) now s = .ok s') :
      SubmitBatchEnds cfg id p notes s t (.ok (.batch (p.row cfg id s known now).response)) s'
  | rejected {notes : List Note} {s : Store} {t now : Time} {known : List String} {c : Constraint}
      (hnew : p.Fresh s)
      (hwrite : writeBatch (p.row cfg id s known now) (p.tally s known now) now s = .error c) :
      SubmitBatchEnds cfg id p notes s t (.error c) s

/-- What is stored about events is kept under their lock. -/
theorem since_events {held : List LockKey} {s s' : Store} {t t' : Time}
    (hlock : .dimension .acceptedEvents ∈ held) (h : Since held s t s' t') :
    s'.events = s.events ∧ s'.batches = s.batches :=
  ⟨(h.kept _ hlock).1, (h.kept _ hlock).2.1⟩

theorem EventBatchSubmit.Fresh.since {p : EventBatchSubmit} {held : List LockKey} {s s' : Store}
    {t t' : Time} (hnew : p.Fresh s) (hlock : .dimension .acceptedEvents ∈ held)
    (h : Since held s t s' t') : p.Fresh s' := by
  intro requestId hid
  have hbatches := (since_events hlock h).2
  simpa [Store.batch?, hbatches] using hnew requestId hid

theorem existingEventIds_since {events : List EventSubmit} {held : List LockKey} {s s' : Store}
    {t t' : Time} (hlock : .dimension .acceptedEvents ∈ held) (h : Since held s t s' t') :
    existingEventIds s' events = existingEventIds s events := by
  simp only [existingEventIds, (since_events hlock h).1]

theorem submitNewBatch_ends (cfg : Config) (id : ℕ) (p : EventBatchSubmit) {s : Store}
    {now : Time} (hnew : p.Fresh s) :
    Ends (submitNewBatch cfg id p (cfg.hash p.canonical)) (SubmitBatchEnds cfg id p)
      [.dimension .acceptedEvents] [] s now := by
  intro s₁ t₁ h₁ s₂ t₂ h₂
  have hnew₂ := hnew.since List.mem_cons_self (h₁.trans rules h₂)
  dsimp only
  rw [← existingEventIds_since List.mem_cons_self h₂]
  refine requireCapacity_ends h₂.inv ?_ ?_
  · intro held notes s₃ t₃ hheld _ h₃ _ hadmits s₄ t₄ h₄
    have hlocked := hheld _ List.mem_cons_self
    have hchecked : ∀ check, .check check ∈ notes → check.checkedAt ≤ t₄ :=
      fun check hcheck => Nat.le_trans (hadmits.checked check hcheck) h₄.time
    -- What was found before the capacity check is still so when the batch is written.
    have hlast : ∀ {s₅ t₅}, Since held s₄ t₄ s₅ t₅ → p.Fresh s₅ ∧
        existingEventIds s₂ p.events = existingEventIds s₅ p.events ∧
        Admits cfg .acceptedEvents (validNewIds (existingEventIds s₂ p.events)
          (knownProducts s₂ p.events) p.events).length s₅ t₅ notes := by
      intro s₅ t₅ h₅
      have h₃₅ := h₄.trans rules h₅
      have h₂₅ := h₃.trans rules (since_of_subset hheld h₃₅)
      exact ⟨hnew₂.since List.mem_cons_self h₂₅,
        (existingEventIds_since List.mem_cons_self h₂₅).symm,
        hadmits.later (fun _ => h₃₅.kept _ hlocked) h₃₅.time⟩
    refine commit_ends ?_ ?_
    · intro s₅ t₅ after h₅ hwrite
      obtain ⟨hnew₅, hexisting, hadmits₅⟩ := hlast h₅
      rw [hexisting] at hwrite hadmits₅ ⊢
      refine ⟨.stored hnew₅ hadmits₅ hchecked h₅.time hwrite, ?_⟩
      rw [writeBatch_ok hwrite]
      refine ⟨dated_append h₅ rfl ?_, ?_⟩
      · intro row hrow
        rw [time_of_booked hrow]
        exact h₅.time
      · exact keeps_frame (fun hfree => absurd hlocked hfree) (fun _ => ⟨rfl, rfl⟩)
          (fun _ => Nat.le_refl _) fun _ _ _ hrow => hrow
    · intro s₅ t₅ c h₅ hwrite
      obtain ⟨hnew₅, hexisting, -⟩ := hlast h₅
      rw [hexisting] at hwrite
      exact .rejected hnew₅ hwrite
  · intro s₃ t₃ e h₃ he
    rw [← existingEventIds_since List.mem_cons_self h₃] at he
    exact .refused (hnew₂.since List.mem_cons_self h₃) he

theorem submitBatch_ends (cfg : Config) (id : ℕ) (p : EventBatchSubmit) (s : Store) (now : Time) :
    Ends (submitBatch cfg id p) (SubmitBatchEnds cfg id p) [] [] s now := by
  intro s₁ t₁ h₁
  dsimp only
  cases hid : truthy p.requestId with
  | none =>
      refine submitNewBatch_ends cfg id p ?_
      intro requestId h
      rw [hid] at h
      cases h
  | some requestId =>
      intro s₂ t₂ h₂
      dsimp only
      cases hprevious : s₂.batch? requestId with
      | none =>
          refine submitNewBatch_ends cfg id p ?_
          intro requestId' h
          rw [hid] at h
          obtain rfl := Option.some.inj h
          exact hprevious
      | some previous =>
          dsimp only
          have hstored : ∀ {s₃ t₃}, Since [.dimension .acceptedEvents] s₂ t₂ s₃ t₃ →
              s₃.batch? requestId = some previous := by
            intro s₃ t₃ h₃
            simpa [Store.batch?, (since_events List.mem_cons_self h₃).2] using hprevious
          split
          · next hhash =>
              intro s₃ t₃ h₃
              exact .replayed hid (hstored h₃) hhash
          · next hhash =>
              intro s₃ t₃ h₃
              exact .conflict hid (hstored h₃) hhash

/-! ## Interaction logs -/

/-- The products of a file, as they are inserted. -/
def logProducts (now : Time) (rows : List Interaction) : List (String × Product) :=
  (itemIds rows).map (logProduct now)

/-- What a load stores. -/
def loadAccepted (s : Store) (now : Time) (rows : List Interaction) : UploadResponse :=
  ⟨acceptedEvents s (eventRows now rows), acceptedProducts s (logProducts now rows)⟩

/-- What a load writes to a store. -/
def storeLoad (id : ℕ) (now : Time) (rows : List Interaction) (s : Store) :
    Except Constraint Store :=
  writeLoad id now (logProducts now rows) (eventRows now rows) (loadAccepted s now rows) s

/-- How `load_interaction_log` ends. -/
inductive LoadEnds (cfg : Config) (id : ℕ) (rows : List Interaction) :
    List Note → Store → Time → Result → Store → Prop
  | outOfRange {notes : List Note} {s : Store} {t : Time} {row : Interaction} (hrow : row ∈ rows)
      (hrange : timestampInRange row.time = false) :
      LoadEnds cfg id rows notes s t (.ok (.raised "ValueError: year is out of range")) s
  | productsRefused {s : Store} {t now : Time} {e : ApiError}
      (he : CapacityError .storedProducts (newItems s rows).length e) :
      LoadEnds cfg id rows [.reading now] s t (.ok (.error e)) s
  | eventsRefused {checks : List Note} {s : Store} {t now : Time} {e : ApiError}
      (hproducts : Admits cfg .storedProducts (newItems s rows).length s t checks)
      (he : CapacityError .acceptedEvents (newEventCount s (eventRows now rows)) e) :
      LoadEnds cfg id rows (.reading now :: checks) s t (.ok (.error e)) s
  | stored {productChecks eventChecks : List Note} {s s' : Store} {t now : Time}
      (hproducts : Admits cfg .storedProducts (newItems s rows).length s t productChecks)
      (hevents : Admits cfg .acceptedEvents (newEventCount s (eventRows now rows)) s t eventChecks)
      (htime : now ≤ t) (hwrite : storeLoad id now rows s = .ok s') :
      LoadEnds cfg id rows (.reading now :: (productChecks ++ eventChecks)) s t
        (.ok (.upload (loadAccepted s now rows))) s'
  | rejected {notes : List Note} {s : Store} {t now : Time} {c : Constraint}
      (hwrite : storeLoad id now rows s = .error c) :
      LoadEnds cfg id rows notes s t (.error c) s

/-- Which products are new depends on which there are. -/
theorem get?_eq_none_of_keys {s s' : Store} (h : s'.productKeys = s.productKeys) (id : String) :
    s'.products.get? id = none ↔ s.products.get? id = none := by
  rw [Table.get?_eq_none_iff, Table.get?_eq_none_iff]
  change id ∉ s'.productKeys ↔ id ∉ s.productKeys
  rw [h]

theorem newItems_of_keys {s s' : Store} (h : s'.productKeys = s.productKeys)
    (rows : List Interaction) : newItems s' rows = newItems s rows := by
  unfold newItems
  refine List.filter_congr ?_
  intro item _
  exact decide_eq_decide.mpr (get?_eq_none_of_keys h item)

theorem acceptedProducts_of_keys {s s' : Store} (h : s'.productKeys = s.productKeys)
    (rows : List (String × Product)) : acceptedProducts s' rows = acceptedProducts s rows := by
  have hcount : ∀ s : Store, acceptedProducts s rows =
      ((rows.map Prod.fst).dedup.filter fun id => (s.products.get? id).isNone).length := by
    intro s
    rw [acceptedProducts, Table.length_insertAll, Nat.add_sub_cancel_left]
  rw [hcount, hcount]
  congr 1
  refine List.filter_congr ?_
  intro id _
  rw [Bool.eq_iff_iff, Option.isNone_iff_eq_none, Option.isNone_iff_eq_none]
  exact get?_eq_none_of_keys h id

/-- The locks of a load. -/
def loadLocks : List LockKey := [.dimension .acceptedEvents, .dimension .storedProducts]

/-- What a load finds is kept under its locks. -/
theorem since_load {held : List LockKey} {s s' : Store} {t t' : Time}
    (hheld : ∀ key ∈ loadLocks, key ∈ held) (h : Since held s t s' t') :
    s'.events = s.events ∧ s'.productKeys = s.productKeys :=
  ⟨(h.kept _ (hheld _ List.mem_cons_self)).1,
    (h.kept _ (hheld _ (List.mem_cons_of_mem _ List.mem_cons_self))).1⟩

theorem newEventCount_of_events {s s' : Store} (h : s'.events = s.events)
    (rows : List (String × CustomerEvent)) : newEventCount s' rows = newEventCount s rows := by
  simp only [newEventCount, h]

theorem acceptedEvents_of_events {s s' : Store} (h : s'.events = s.events)
    (rows : List (String × CustomerEvent)) : acceptedEvents s' rows = acceptedEvents s rows := by
  simp only [acceptedEvents, h]

/-- The part of a load after its products. -/
theorem loadEvents_ends (cfg : Config) (id : ℕ) (rows : List Interaction) {held : List LockKey}
    {checks : List Note} {s : Store} {now t : Time} (hheld : ∀ key ∈ loadLocks, key ∈ held)
    (hproducts : Admits cfg .storedProducts (newItems s rows).length s t checks)
    (hnow : now ≤ t) :
    Ends (loadEvents cfg id now (logProducts now rows) (acceptedProducts s (logProducts now rows))
      rows) (LoadEnds cfg id rows) held (.reading now :: checks) s t := by
  have hproducts' : ∀ {s' t'}, Since held s t s' t' →
      Admits cfg .storedProducts (newItems s' rows).length s' t' checks := by
    intro s' t' h
    rw [newItems_of_keys (since_load hheld h).2]
    exact hproducts.later
      (fun _ => h.kept _ (hheld _ (List.mem_cons_of_mem _ List.mem_cons_self))) h.time
  unfold loadEvents
  split
  · next hrange =>
      intro s₁ t₁ h₁
      obtain ⟨row, hrow, hout⟩ := List.any_eq_true.mp hrange
      exact .outOfRange hrow (by simpa using hout)
  · intro s₁ t₁ h₁
    refine requireCapacity_ends h₁.inv ?_ ?_
    · intro held' eventChecks s₂ t₂ hheld' _ h₂ _ hevents s₃ t₃ h₃
      have hload : ∀ key ∈ loadLocks, key ∈ held' := fun key hkey => hheld' key (hheld key hkey)
      have hlast : ∀ {s₄ t₄}, Since held' s₃ t₃ s₄ t₄ →
          Admits cfg .storedProducts (newItems s₄ rows).length s₄ t₄ checks ∧
          Admits cfg .acceptedEvents (newEventCount s₄ (eventRows now rows)) s₄ t₄ eventChecks ∧
          (⟨acceptedEvents s₃ (eventRows now rows),
            acceptedProducts s (logProducts now rows)⟩ : UploadResponse) =
            loadAccepted s₄ now rows := by
        intro s₄ t₄ h₄
        have h₂₄ := h₃.trans rules h₄
        have h₁₄ := h₂.trans rules (since_of_subset hheld' h₂₄)
        have h₀₄ := h₁.trans rules h₁₄
        refine ⟨hproducts' h₀₄, ?_, ?_⟩
        · rw [newEventCount_of_events (since_load hheld h₁₄).1]
          exact hevents.later (fun _ => h₂₄.kept _ (hload _ List.mem_cons_self)) h₂₄.time
        · rw [loadAccepted, acceptedEvents_of_events (since_load hload h₄).1,
            acceptedProducts_of_keys (since_load hheld h₀₄).2]
      have htime : now ≤ t₃ :=
        Nat.le_trans hnow (Nat.le_trans h₁.time (Nat.le_trans h₂.time h₃.time))
      refine commit_ends ?_ ?_
      · intro s₄ t₄ after h₄ hwrite
        obtain ⟨hproducts₄, hevents₄, haccepted⟩ := hlast h₄
        rw [haccepted] at hwrite ⊢
        refine ⟨.stored hproducts₄ hevents₄ (Nat.le_trans htime h₄.time) hwrite, ?_⟩
        rw [writeLoad_ok hwrite]
        refine ⟨dated_append h₄ rfl ?_, ?_⟩
        · intro row hrow
          have hnow' : row.occurredAt = now := by
            rcases List.mem_append.mp hrow with hproduct | hevent
            · exact time_of_booked hproduct
            · exact time_of_booked hevent
          rw [hnow']
          exact Nat.le_trans htime h₄.time
        · exact keeps_frame (fun hfree => absurd (hload _ List.mem_cons_self) hfree)
            (fun hfree => absurd (hload _ (List.mem_cons_of_mem _ List.mem_cons_self)) hfree)
            (fun _ => Nat.le_refl _) fun _ _ _ hrow => hrow
      · intro s₄ t₄ c h₄ hwrite
        obtain ⟨-, -, haccepted⟩ := hlast h₄
        rw [haccepted] at hwrite
        exact .rejected hwrite
    · intro s₂ t₂ e h₂ he
      rw [← newEventCount_of_events (since_load hheld h₂).1] at he
      exact .eventsRefused (hproducts' (h₁.trans rules h₂)) he

theorem loadInteractionLog_ends (cfg : Config) (id : ℕ) (rows : List Interaction) (s : Store)
    (now : Time) :
    Ends (loadInteractionLog cfg id rows) (LoadEnds cfg id rows) [] [] s now := by
  intro s₁ t₁ h₁ s₂ t₂ h₂ s₃ t₃ h₃ s₄ t₄ h₄
  refine requireCapacity_ends h₄.inv ?_ ?_
  · intro held checks s₅ t₅ hheld _ h₅ _ hproducts s₆ t₆ h₆
    rw [← newItems_of_keys (since_load (fun _ hkey => hkey) h₅).2] at hproducts
    have hlock := hheld _ (List.mem_cons_of_mem _ List.mem_cons_self)
    have hproducts₆ := hproducts.later (fun _ => h₆.kept _ hlock) h₆.time
    rw [← newItems_of_keys (since_load hheld h₆).2] at hproducts₆
    have hnow : t₁ ≤ t₆ := Nat.le_trans h₂.time (Nat.le_trans h₃.time
      (Nat.le_trans h₄.time (Nat.le_trans h₅.time h₆.time)))
    exact loadEvents_ends cfg id rows hheld hproducts₆ hnow
  · intro s₅ t₅ e h₅ he
    rw [← newItems_of_keys (since_load (fun _ hkey => hkey) h₅).2] at he
    exact .productsRefused he

end Ingestion
