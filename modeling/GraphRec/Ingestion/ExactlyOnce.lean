import GraphRec.Ingestion.Accounting

/-!
# Events are ingested exactly once

For every run of the tenant's requests, in whatever order their statements come: the events
are those that were stored at first and those that the requests added, each under an id of
its own; a request answers what it added, was checked for as much, and the ledger of
accepted events grows by as much.
-/

namespace Ingestion

open Transactions Transition

/-- The events a request added. -/
def newEvents (entry : LogEntry) : List (String × CustomerEvent) :=
  entry.after.events.rows.drop entry.before.events.rows.length

/-- The quantity of a dimension that a request was checked for. -/
def checkedQuantity (d : Dimension) (notes : List Note) : ℕ :=
  (notes.map fun note =>
    match note with
    | .check passed => if passed.dimension = d then passed.quantity else 0
    | .reading _ => 0).sum

/-- What `submit_event` answers is what it did: the event is stored, and it was added now
unless it is a duplicate; the capacity was checked for what was added. -/
def EventAccounted (p : EventSubmit) (entry : LogEntry) : Prop :=
  match entry.result with
  | .ok (.event receipt) => receipt.eventId = p.eventId ∧ receipt.accepted = true ∧
      entry.after.events.get? p.eventId ≠ none ∧
      (newEvents entry).map Prod.fst = (if receipt.duplicate then [] else [p.eventId]) ∧
      checkedQuantity .acceptedEvents entry.notes = (newEvents entry).length
  | _ => entry.after = entry.before

/-- What `submit_batch` answers is what it did: it reports its events, and the capacity was
checked for those it added.  It has added those it accepted; or it is a repetition, adds
nothing, and has the answer of the batch with its request id. -/
def BatchAccounted (p : EventBatchSubmit) (entry : LogEntry) : Prop :=
  match entry.result with
  | .ok (.batch response) =>
      Reports p.events response ∧
      checkedQuantity .acceptedEvents entry.notes = (newEvents entry).length ∧
      ((newEvents entry).map Prod.fst = acceptedIds response.outcomes ∨
        (entry.after = entry.before ∧ ∃ previous ∈ entry.before.batches,
          previous.requestId = p.requestId ∧ previous.response = response))
  | _ => entry.after = entry.before

/-- The batches that are stored report the events of a payload with their hash. -/
def Recorded (cfg : Config) (s : Store) : Prop :=
  ∀ b ∈ s.batches, ∀ digest, b.payloadHash = some digest →
    ∃ p : EventBatchSubmit, cfg.hash p.canonical = digest ∧ Reports p.events b.response

/-- What holds after a run. -/
structure ExactlyOnce (s₀ : Store) (st : SystemState) : Prop where
  /-- Each event id is stored at most once. -/
  unique : (st.store.events.rows.map Prod.fst).Nodup
  /-- The events are those stored at first and those the requests added. -/
  stored : st.store.events.rows = s₀.events.rows ++ st.log.flatMap newEvents
  events : ∀ entry ∈ st.log, ∀ p, entry.op = .submitEvent p → EventAccounted p entry
  batches : ∀ entry ∈ st.log, ∀ id p, entry.op = .submitBatch id p → BatchAccounted p entry
  /-- The ledger grew by what was added. -/
  booked : st.store.total .acceptedEvents =
    s₀.total .acceptedEvents + (st.log.flatMap newEvents).length

theorem EventsGrow.newEvents {entry : LogEntry} {new : List (String × CustomerEvent)}
    (h : EventsGrow entry.before entry.after new) : newEvents entry = new := by
  rw [Ingestion.newEvents, h.rows, List.drop_left]

/-- What a passed check was for. -/
theorem checkedQuantity_of_admits {cfg : Config} {d : Dimension} {quantity : ℕ} {s : Store}
    {t : Time} {notes : List Note} (h : Admits cfg d quantity s t notes) :
    checkedQuantity d notes = quantity := by
  rcases h with ⟨rfl, rfl⟩ | ⟨check, rfl, -, hcheck⟩
  · rfl
  · simp [checkedQuantity, hcheck.dimension, hcheck.quantity]

theorem checkedQuantity_reading (d : Dimension) (now : Time) (notes : List Note) :
    checkedQuantity d (.reading now :: notes) = checkedQuantity d notes := by
  simp [checkedQuantity]

/-! ## One request -/

theorem newEvents_of_same {entry : LogEntry} (h : entry.after = entry.before) :
    newEvents entry = [] := by
  rw [newEvents, h, List.drop_length]

theorem event_accounted {cfg : Config} {p : EventSubmit} {entry : LogEntry}
    (h : SubmitEventEnds cfg p entry.notes entry.before entry.time entry.result entry.after) :
    EventAccounted p entry := by
  obtain ⟨op, notes, time, before, result, after⟩ := entry
  simp only at h
  cases h with
  | duplicate hstored =>
      refine ⟨rfl, rfl, ?_, ?_, ?_⟩
      · rw [hstored]
        exact Option.some_ne_none _
      · rw [newEvents_of_same rfl]
        rfl
      · rw [newEvents_of_same rfl]
        rfl
  | unknownProduct | refused | rejected => exact rfl
  | stored hnew hadmits _ hwrite =>
      have hgrow := writeEvent_grows hnew hwrite
      refine ⟨rfl, rfl, ?_, ?_, ?_⟩
      · rw [writeEvent_ok hwrite, Table.get?_insert _ hnew, if_pos rfl]
        exact Option.some_ne_none _
      · rw [EventsGrow.newEvents hgrow]
        rfl
      · rw [EventsGrow.newEvents hgrow, checkedQuantity_reading, checkedQuantity_of_admits hadmits]
        rfl

theorem batch_accounted {cfg : Config} {id : ℕ} {p : EventBatchSubmit} {entry : LogEntry}
    (hhash : Function.Injective cfg.hash) (hrecorded : Recorded cfg entry.before)
    (h : SubmitBatchEnds cfg id p entry.notes entry.before entry.time entry.result entry.after) :
    BatchAccounted p entry := by
  obtain ⟨op, notes, time, before, result, after⟩ := entry
  simp only at h hrecorded
  cases h with
  | @replayed _ _ requestId previous hid hprevious hdigest =>
      have hmem := List.mem_of_find?_eq_some hprevious
      obtain ⟨stored, hsame, hreports⟩ := hrecorded previous hmem _ hdigest
      refine ⟨hreports.of_ids (eventIds_of_canonical (hhash hsame)), ?_,
        Or.inr ⟨rfl, previous, hmem, ?_, rfl⟩⟩
      · rw [newEvents_of_same rfl]
        rfl
      · rw [truthy_of_ne p.requestId_nonempty] at hid
        rw [hid]
        have hfound := List.find?_some hprevious
        exact of_decide_eq_true hfound
  | conflict | refused | rejected => exact rfl
  | stored hnew hadmits _ _ hwrite =>
      have hgrow := writeBatch_grows hwrite
      refine ⟨row_reports cfg id p before _ _, ?_, Or.inl ?_⟩
      · rw [EventsGrow.newEvents hgrow, checkedQuantity_of_admits hadmits]
        exact (quantity_eq p before _ _).trans (tally_newEvents _ _ _ p.events).2.symm
      · rw [EventsGrow.newEvents hgrow]
        exact (tally_newEvents _ _ _ p.events).1

/-- A request keeps the batches recorded. -/
theorem recorded_step {cfg : Config} {op : Op} {notes : List Note} {s s' : Store} {t : Time}
    {result : Result} (h : OpEnds cfg op notes s t result s') (hs : Recorded cfg s) :
    Recorded cfg s' := by
  intro b hb digest hdigest
  rcases opEnds_batches h with hsame | ⟨id, accepted, total, now, hload⟩ |
    ⟨id, p, known, now, -, -, hbatch⟩
  · rw [hsame] at hb
    exact hs b hb digest hdigest
  · rw [hload, List.mem_append, List.mem_singleton] at hb
    rcases hb with hold | rfl
    · exact hs b hold digest hdigest
    · cases hdigest
  · rw [hbatch, List.mem_append, List.mem_singleton] at hb
    rcases hb with hold | rfl
    · exact hs b hold digest hdigest
    · exact ⟨p, Option.some.inj hdigest, row_reports cfg id p s known now⟩

/-! ## Every run -/

/-- The events and the ledger after a history. -/
theorem history_grows {cfg : Config} {first : Start} {s : Store} {t : Time} {log : List LogEntry}
    (h : SerialHistory cfg first log s t) : EventsGrow first.store s (log.flatMap newEvents) := by
  induction h with
  | nil => exact .refl first.store
  | snoc entry _ hbefore _ _ hgood ih =>
      obtain ⟨new, hgrow⟩ := opEnds_grow hgood
      rw [List.flatMap_append, List.flatMap_singleton, EventsGrow.newEvents hgrow]
      exact ih.trans (hbefore ▸ hgrow)

/-- **Exactly once.**  Whatever the interleaving of the requests. -/
theorem ingested_exactly_once {cfg : Config} {first : Start} {as : List (Action Op)}
    {st : SystemState} (hhash : Function.Injective cfg.hash) (hrecorded : Recorded cfg first.store)
    (h : Run (tenant cfg first) anyStep (tenant cfg first).init as st) :
    ExactlyOnce first.store st := by
  obtain ⟨t, -, hserial⟩ := serializable cfg h
  have hgrow := history_grows hserial
  refine ⟨st.store.events.nodup, hgrow.rows, ?_, ?_, hgrow.booked⟩
  · intro entry hentry p hop
    have hgood := (hserial.each hentry).2
    rw [hop] at hgood
    exact event_accounted hgood
  · intro entry hentry id p hop
    have hgood := (hserial.each hentry).2
    rw [hop] at hgood
    refine batch_accounted hhash ?_ hgood
    exact hserial.each_invariant (P := fun s _ => Recorded cfg s) hrecorded
      (fun _ _ _ hs _ => hs) (fun _ _ _ _ _ _ _ hs hgood => recorded_step hgood hs) hentry

/-! ## A small plan -/

/-- Months of a hundred microseconds. -/
def shortMonths : MonthCalendar where
  monthStart m := 100 * m
  increasing := fun _ _ h => Nat.mul_lt_mul_of_pos_left h (by decide)
  monthStart_zero := rfl

/-- A plan with the limits of events, products and versions; a text is its own hash. -/
def smallPlan (events products versions : ℕ) : Config where
  limits := some fun d =>
    match d with
    | .acceptedEvents => some events
    | .storedProducts => some products
    | .activeModelVersions => some versions
    | .trainingJobs | .trainingCpuSeconds | .artifactStorageBytes => some 100
  calendar := shortMonths
  hash := id

/-- A request id. -/
theorem someRequestId : some "r" ≠ some "" := by decide

/-- A product in the catalogue, and nothing else. -/
def oneProduct : Start where
  store := Store.empty.addProducts [logProduct 0 "lamp"]
  now := 0
  dated := by
    intro row hrow
    cases hrow

/-- An event with a user. -/
def someEvent (eventId productId : String) : EventSubmit where
  eventId := eventId
  eventType := "view"
  userId := some "ann"
  externalProductId := some productId
  context := "\x7b\x7d"
  occurredAt := 0
  user_nonempty := by decide

/-- A payload for a product. -/
def someProduct (externalId : String) : ProductUpsert where
  externalId := externalId
  title := externalId
  description := none
  price := 0
  category := none
  isActive := true
  availabilityStatus := "available"
  metadata := emptyMetadata

/-- A batch with a new event, its repetition and an unknown product, while the first event is
submitted on its own: it waits for the lock, and is a duplicate. -/
def overlappingRun : List (Action Op) :=
  [.start 0 (.submitBatch 7 ⟨some "r", [someEvent "e" "lamp", someEvent "e" "lamp",
      someEvent "f" "sofa"], "text", someRequestId⟩), .start 1 (.submitEvent (someEvent "e" "lamp"))] ++
    statements 0 10 ++ statements 1 5

/-- That run is one; one event is stored and booked. -/
theorem ingested_exactly_once_overlapping :
    ∃ st, Run (tenant (smallPlan 5 5 5) oneProduct) anyStep
        (tenant (smallPlan 5 5 5) oneProduct).init overlappingRun st ∧
      st.log.map Entry.result = [
        .ok (.batch ⟨7, "completed", some "r", 1, 1, 1,
          [⟨"e", .accepted, none⟩, ⟨"e", .duplicate, none⟩,
            ⟨"f", .rejected, some "unknown_product"⟩], 0⟩),
        .ok (.event ⟨"e", true, true, 0⟩)] ∧
      ExactlyOnce oneProduct.store st := by
  have hdone : (exec (tenant (smallPlan 5 5 5) oneProduct)
      (tenant (smallPlan 5 5 5) oneProduct).init overlappingRun).map
      (fun st => st.log.map Entry.result) = some [
        .ok (.batch ⟨7, "completed", some "r", 1, 1, 1,
          [⟨"e", .accepted, none⟩, ⟨"e", .duplicate, none⟩,
            ⟨"f", .rejected, some "unknown_product"⟩], 0⟩),
        .ok (.event ⟨"e", true, true, 0⟩)] := by
    decide +kernel
  obtain ⟨st, hexec, hlog⟩ := Option.map_eq_some_iff.mp hdone
  refine ⟨st, run_of_exec hexec, hlog,
    ingested_exactly_once Function.injective_id ?_ (run_of_exec hexec)⟩
  intro b hb
  cases hb

end Ingestion
