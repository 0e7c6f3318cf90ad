import GraphRec.Ingestion.Store
import GraphRec.Lib.Quoting
import Mathlib.Data.List.Dedup

/-!
# Event ingestion

`EventService.submit_event` and `submit_batch`, and `ensure_customers`.
-/

namespace Ingestion

open Transactions

/-- `EventSubmit`, validated: a user id is not blank. -/
structure EventSubmit where
  eventId : String
  eventType : String
  userId : Option String
  externalProductId : Option String
  context : String
  occurredAt : Moment
  user_nonempty : userId ≠ some ""
  deriving DecidableEq, Repr

/-- `EventBatchSubmit`.  `others` is the text of what the caller supplied besides the event
ids, which every event has, and the request id. -/
structure EventBatchSubmit where
  requestId : Option String
  events : List EventSubmit
  others : String
  requestId_nonempty : requestId ≠ some ""
  deriving DecidableEq, Repr

/-- A payload may come without a request id. -/
theorem noRequestId : none ≠ some "" := by decide

/-- The text that `payload_hash` hashes: all that the caller supplied, without the request
id.  The event ids stand before the rest here. -/
def EventBatchSubmit.canonical (p : EventBatchSubmit) : String :=
  String.ofList
    (Quoting.quoteAll (p.events.map fun e => e.eventId.toList) ++ p.others.toList)

/-- The text determines the event ids. -/
theorem eventIds_of_canonical {p q : EventBatchSubmit} (h : p.canonical = q.canonical) :
    p.events.map EventSubmit.eventId = q.events.map EventSubmit.eventId := by
  have hids := (Quoting.quoteAll_append_inj (String.ofList_injective h)).1
  have hread : Function.Injective String.toList := fun _ _ heq => String.toList_injective heq
  refine List.map_injective_iff.mpr hread ?_
  simpa only [List.map_map, Function.comp_def] using hids

/-! ## Inserts -/

/-- `ensure_customers`. -/
def Store.ensureCustomers (s : Store) (ids : List String) : Store :=
  { s with customers := ids.foldl (fun customers id => customers.insert id) s.customers }

/-- `fk_customer_event_customer`. -/
def Store.customerKnown (s : Store) (e : CustomerEvent) : Bool :=
  match e.userId with
  | some user => decide (user ∈ s.customers)
  | none => true

/-- `INSERT INTO customer_events`: rejected by the unique and the foreign key. -/
def Store.insertEvent (s : Store) (row : String × CustomerEvent) : Except Constraint Store :=
  match s.events.get? row.1 with
  | some _ => .error .eventKey
  | none =>
      if s.customerKnown row.2 then .ok { s with events := s.events.insert row.1 row.2 }
      else .error .customerForeignKey

/-- `INSERT INTO event_batches`: rejected by the unique key on request ids. -/
def Store.insertBatch (s : Store) (batch : EventBatch) : Except Constraint Store :=
  if batch.requestId.isSome ∧ ∃ old ∈ s.batches, old.requestId = batch.requestId then
    .error .batchRequestKey
  else .ok { s with batches := s.batches ++ [batch] }

/-! ## One event -/

/-- The row of a submitted event. -/
def EventSubmit.row (p : EventSubmit) (now : Time) : CustomerEvent where
  eventType := p.eventType
  userId := p.userId
  externalProductId := p.externalProductId
  context := p.context
  occurredAt := p.occurredAt
  createdAt := now

/-- `_validate_product`, in a transaction that goes on with `next`. -/
def validateProduct (externalId : Option String) (next : Transaction) : Transaction :=
  match externalId with
  | none => next
  | some id => .look fun s =>
      match s.products.get? id with
      | some _ => next
      | none => .done (.error (apiError 422 "invalid_product_reference"
          "The event product does not exist in this tenant catalog."))

/-- What an accepted event writes. -/
def writeEvent (p : EventSubmit) (now : Time) (s : Store) : Except Constraint Store := do
  let s := s.ensureCustomers (truthy p.userId).toList
  let s ← s.insertEvent (p.eventId, p.row now)
  s.insertUsage ⟨.acceptedEvents, 1, some ("event-usage-" ++ p.eventId), now⟩

/-- `submit_event`. -/
def submitEvent (cfg : Config) (p : EventSubmit) : Transaction :=
  .lock (.dimension .acceptedEvents) <| .clock fun now => .note (.reading now) <| .look fun s =>
    match s.events.get? p.eventId with
    | some existing => .done (.event ⟨p.eventId, true, true, existing.createdAt⟩)
    | none =>
        validateProduct p.externalProductId <|
          requireCapacity cfg .acceptedEvents 1 <|
            .commit (writeEvent p now) (.event ⟨p.eventId, true, false, now⟩)

/-! ## A batch -/

/-- What the loop over a batch accumulates. -/
structure EventTally where
  accepted : ℕ
  duplicates : ℕ
  rejected : ℕ
  outcomes : List EventOutcome
  newEvents : List (String × CustomerEvent)
  customers : List String
  deriving DecidableEq, Repr

/-- Is the event's product one that the catalogue has, or none? -/
def EventSubmit.productKnown (known : List String) (p : EventSubmit) : Bool :=
  match p.externalProductId with
  | some id => decide (id ∈ known)
  | none => true

/-- The loop over a batch; `seen` is `seen_ids`. -/
def tallyEvents (known : List String) (now : Time) : List String → List EventSubmit → EventTally
  | _, [] => ⟨0, 0, 0, [], [], []⟩
  | seen, p :: rest =>
      if p.eventId ∈ seen then
        let t := tallyEvents known now seen rest
        { t with
          duplicates := t.duplicates + 1
          outcomes := ⟨p.eventId, .duplicate, none⟩ :: t.outcomes }
      else if p.productKnown known then
        let t := tallyEvents known now (p.eventId :: seen) rest
        { t with
          accepted := t.accepted + 1
          outcomes := ⟨p.eventId, .accepted, none⟩ :: t.outcomes
          newEvents := (p.eventId, p.row now) :: t.newEvents
          customers := (truthy p.userId).toList ++ t.customers }
      else
        let t := tallyEvents known now seen rest
        { t with
          rejected := t.rejected + 1
          outcomes := ⟨p.eventId, .rejected, some "unknown_product"⟩ :: t.outcomes }

/-- `existing_ids`. -/
def existingEventIds (s : Store) (events : List EventSubmit) : List String :=
  (events.map EventSubmit.eventId).filter fun id => (s.events.get? id).isSome

/-- `known_products`: an empty id is not looked up. -/
def knownProducts (s : Store) (events : List EventSubmit) : List String :=
  (events.filterMap fun p => truthy p.externalProductId).filter fun id =>
    (s.products.get? id).isSome

/-- `valid_new_ids`, a set. -/
def validNewIds (existing known : List String) (events : List EventSubmit) : List String :=
  ((events.filter fun p => decide (p.eventId ∉ existing) && p.productKnown known).map
    EventSubmit.eventId).dedup

/-- The row of a batch. -/
def batchRow (id : ℕ) (p : EventBatchSubmit) (digest : String) (t : EventTally) (now : Time) :
    EventBatch where
  id := id
  status := "completed"
  requestId := p.requestId
  payloadHash := some digest
  outcomes := t.outcomes
  acceptedCount := t.accepted
  duplicateCount := t.duplicates
  rejectedCount := t.rejected
  createdAt := now

/-- `EventBatchResponse.model_validate`. -/
def EventBatch.response (b : EventBatch) : BatchResponse where
  id := b.id
  status := b.status
  requestId := b.requestId
  acceptedCount := b.acceptedCount
  duplicateCount := b.duplicateCount
  rejectedCount := b.rejectedCount
  outcomes := b.outcomes
  createdAt := b.createdAt

/-- What a batch writes. -/
def writeBatch (batch : EventBatch) (t : EventTally) (now : Time) (s : Store) :
    Except Constraint Store := do
  let s := s.ensureCustomers t.customers
  let s ← t.newEvents.foldlM Store.insertEvent s
  let s ← s.insertBatch batch
  s.bookUsage .acceptedEvents t.accepted now

/-- The batch of a request id. -/
def Store.batch? (s : Store) (requestId : String) : Option EventBatch :=
  s.batches.find? fun b => decide (b.requestId = some requestId)

/-- A request id was used with different content. -/
def idempotencyConflict : ApiError :=
  apiError 409 "idempotency_conflict" "Request ID was already used with different content."

/-- `submit_batch` of a request that is not a repetition; `id` is a fresh `uuid4`. -/
def submitNewBatch (cfg : Config) (id : ℕ) (p : EventBatchSubmit) (digest : String) :
    Transaction :=
  .look fun s =>
    let existing := existingEventIds s p.events
    .look fun s =>
      let known := knownProducts s p.events
      requireCapacity cfg .acceptedEvents (validNewIds existing known p.events).length <|
        .clock fun now =>
          let t := tallyEvents known now existing p.events
          let batch := batchRow id p digest t now
          .commit (writeBatch batch t now) (.batch batch.response)

/-- `submit_batch`. -/
def submitBatch (cfg : Config) (id : ℕ) (p : EventBatchSubmit) : Transaction :=
  .lock (.dimension .acceptedEvents) <|
    let digest := cfg.hash p.canonical
    match truthy p.requestId with
    | none => submitNewBatch cfg id p digest
    | some requestId => .look fun s =>
        match s.batch? requestId with
        | none => submitNewBatch cfg id p digest
        | some previous =>
            if previous.payloadHash = some digest then .done (.batch previous.response)
            else .done (.error idempotencyConflict)

end Ingestion
