import GraphRec.Ingestion.Catalog

/-!
# Interaction logs

`DatasetService.load_interaction_log`, which loads the rows of a `user_id,item_id,time`
file in bulk.  The clock is read once, before the locks are taken.
-/

namespace Ingestion

open Transactions

/-- A row of the file. -/
structure Interaction where
  user : String
  item : String
  /-- Seconds. -/
  time : ℤ
  deriving DecidableEq, Repr

/-- `BULK_CHUNK`. -/
def bulkChunk : ℕ := 2000

/-! ## Products -/

/-- The keys of a `dict.fromkeys`: distinct, in the order they came. -/
def fromKeys (keys : List String) : List String := keys.reverse.dedup.reverse

/-- `item_ids`. -/
def itemIds (rows : List Interaction) : List String := fromKeys (rows.map Interaction.item)

/-- A product of the file, as it is inserted. -/
def logProduct (now : Time) (item : String) : String × Product :=
  (item, {
    title := "Item " ++ item
    description := none
    price := 0
    category := none
    isActive := true
    availabilityStatus := "available"
    metadata := "\x7b\"source\": \"interaction_log\"\x7d"
    createdAt := now
    updatedAt := now })

/-- The products after the chunks, `ON CONFLICT DO NOTHING`. -/
def Store.addProducts (s : Store) (rows : List (String × Product)) : Store :=
  { s with products := s.products.insertAll rows }

/-- `set(item_ids) - existing_items`. -/
def newItems (s : Store) (rows : List Interaction) : List String :=
  (itemIds rows).filter fun item => decide (s.products.get? item = none)

/-! ## Events -/

/-- The rows with their ordinals: how often the same row came before. -/
def numberRows : List Interaction → List Interaction → List (Interaction × ℕ)
  | _, [] => []
  | before, row :: rest => (row, before.count row) :: numberRows (row :: before) rest

/-- `f"il:{user}:{item}:{moment}{suffix}"`. -/
def interactionId (row : Interaction) (ordinal : ℕ) : String :=
  "il:" ++ row.user ++ ":" ++ row.item ++ ":" ++ toString row.time ++
    if ordinal = 0 then "" else ":" ++ toString ordinal

/-- The seconds that `datetime.fromtimestamp` takes: of the years 1 to 9999. -/
def timestampInRange (seconds : ℤ) : Bool :=
  decide (-62135596800 ≤ seconds) && decide (seconds ≤ 253402300799)

/-- An event of the file, as it is inserted. -/
def logEvent (now : Time) (row : Interaction × ℕ) : String × CustomerEvent :=
  (interactionId row.1 row.2, {
    eventType := "purchase"
    userId := some row.1.user
    externalProductId := some row.1.item
    context := "\x7b\"source\": \"interaction_log\"\x7d"
    occurredAt := row.1.time * 1000000
    createdAt := now })

/-- `event_rows`. -/
def eventRows (now : Time) (rows : List Interaction) : List (String × CustomerEvent) :=
  (numberRows [] rows).map (logEvent now)

/-- `new_event_count`: the ids of each chunk that are not stored. -/
def newEventCount (s : Store) (rows : List (String × CustomerEvent)) : ℕ :=
  ((rows.toChunks bulkChunk).map fun chunk =>
    ((chunk.map Prod.fst).dedup.filter fun id => decide (s.events.get? id = none)).length).sum

/-- `INSERT ... ON CONFLICT DO NOTHING` of one row: the foreign key is checked when it is
inserted. -/
def Store.addEvent (s : Store) (row : String × CustomerEvent) : Except Constraint Store :=
  match s.events.get? row.1 with
  | some _ => .ok s
  | none => s.insertEvent row

/-- How many rows are stored that were not: by the counts before and after. -/
def acceptedEvents (s : Store) (rows : List (String × CustomerEvent)) : ℕ :=
  (s.events.insertAll rows).rows.length - s.events.rows.length

/-- How many products are stored that were not. -/
def acceptedProducts (s : Store) (rows : List (String × Product)) : ℕ :=
  (s.products.insertAll rows).rows.length - s.products.rows.length

/-! ## The load -/

/-- The batch of a load. -/
def loadBatch (id accepted total : ℕ) (now : Time) : EventBatch where
  id := id
  status := "completed"
  requestId := none
  payloadHash := none
  outcomes := []
  acceptedCount := accepted
  duplicateCount := total - accepted
  rejectedCount := 0
  createdAt := now

/-- What a load writes. -/
def writeLoad (id : ℕ) (now : Time) (products : List (String × Product))
    (events : List (String × CustomerEvent)) (accepted : UploadResponse) (s : Store) :
    Except Constraint Store := do
  let s ← events.foldlM Store.addEvent (s.addProducts products)
  let s ← s.bookUsage .storedProducts accepted.acceptedProducts now
  let s ← s.bookUsage .acceptedEvents accepted.acceptedEvents now
  s.insertBatch (loadBatch id accepted.acceptedEvents events.length now)

/-- The part of `load_interaction_log` after the products are inserted. -/
def loadEvents (cfg : Config) (id : ℕ) (now : Time) (products : List (String × Product))
    (newProducts : ℕ) (rows : List Interaction) : Transaction :=
  if rows.any fun row => !timestampInRange row.time then
    .done (.raised "ValueError: year is out of range")
  else
    let events := eventRows now rows
    .look fun s =>
      requireCapacity cfg .acceptedEvents (newEventCount s events) <|
        .look fun s =>
          let accepted := ⟨acceptedEvents s events, newProducts⟩
          .commit (writeLoad id now products events accepted) (.upload accepted)

/-- `load_interaction_log`, up to its commit; `id` is a fresh `uuid4`. -/
def loadInteractionLog (cfg : Config) (id : ℕ) (rows : List Interaction) : Transaction :=
  .clock fun now => .note (.reading now) <|
    .lock (.dimension .storedProducts) <| .lock (.dimension .acceptedEvents) <| .look fun s =>
      requireCapacity cfg .storedProducts (newItems s rows).length <|
        let products := (itemIds rows).map (logProduct now)
        .look fun s => loadEvents cfg id now products (acceptedProducts s products) rows

end Ingestion
