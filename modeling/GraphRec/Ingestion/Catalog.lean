import GraphRec.Ingestion.Events

/-!
# The catalogue

`CatalogService.bulk_upsert`, `update_product` and `disable_product`.  A row that a
transaction loads and changes is flushed column by column: `disable_product` takes no lock,
so that a row may have changed since it was loaded.
-/

namespace Ingestion

open Transactions

/-- `ProductUpsert`. -/
structure ProductUpsert where
  externalId : String
  title : String
  description : Option String
  price : ℕ
  category : Option String
  isActive : Bool
  availabilityStatus : String
  metadata : String
  deriving DecidableEq, Repr

/-- `ProductBulkUpsertRequest`, with the text that `payload_hash` hashes. -/
structure ProductBulkUpsertRequest where
  requestId : Option String
  products : List ProductUpsert
  canonical : String
  requestId_nonempty : requestId ≠ some ""
  deriving Repr

/-! ## Rows -/

/-- A new product. -/
def ProductUpsert.row (p : ProductUpsert) (now : Time) : Product where
  title := p.title
  description := p.description
  price := p.price
  category := p.category
  isActive := p.isActive
  availabilityStatus := p.availabilityStatus
  metadata := p.metadata
  createdAt := now
  updatedAt := now

/-- The assignments of `bulk_upsert` to a product that exists. -/
def ProductUpsert.assign (p : ProductUpsert) (now : Time) (existing : Product) : Product :=
  { p.row now with createdAt := existing.createdAt }

/-- An empty JSON object. -/
def emptyMetadata : String := "{}"

/-- The assignments of `update_product`, which keeps what the payload leaves out. -/
def ProductUpsert.merge (p : ProductUpsert) (now : Time) (existing : Product) : Product where
  title := p.title
  description := if p.description.isSome then p.description else existing.description
  price := p.price
  category := if p.category.isSome then p.category else existing.category
  isActive := p.isActive
  availabilityStatus := p.availabilityStatus
  metadata := if p.metadata = emptyMetadata then existing.metadata else p.metadata
  createdAt := existing.createdAt
  updatedAt := now

/-- The flush of a product that was loaded and assigned to. -/
def Product.flush (loaded assigned stored : Product) : Product where
  title := writeColumn loaded.title assigned.title stored.title
  description := writeColumn loaded.description assigned.description stored.description
  price := writeColumn loaded.price assigned.price stored.price
  category := writeColumn loaded.category assigned.category stored.category
  isActive := writeColumn loaded.isActive assigned.isActive stored.isActive
  availabilityStatus :=
    writeColumn loaded.availabilityStatus assigned.availabilityStatus stored.availabilityStatus
  metadata := writeColumn loaded.metadata assigned.metadata stored.metadata
  createdAt := writeColumn loaded.createdAt assigned.createdAt stored.createdAt
  updatedAt := writeColumn loaded.updatedAt assigned.updatedAt stored.updatedAt

/-- What a transaction does to a product. -/
inductive ProductWrite
  | create (externalId : String) (row : Product)
  | update (externalId : String) (loaded assigned : Product)
  deriving DecidableEq, Repr

/-- The write is flushed; a new product is rejected by the unique key. -/
def Store.writeProduct (s : Store) : ProductWrite → Except Constraint Store
  | .create id row =>
      match s.products.get? id with
      | some _ => .error .productKey
      | none => .ok { s with products := s.products.insert id row }
  | .update id loaded assigned =>
      .ok { s with products := s.products.update id (Product.flush loaded assigned) }

/-- `INSERT INTO catalog_syncs`: rejected by the unique key on request ids. -/
def Store.insertSync (s : Store) (sync : CatalogSync) : Except Constraint Store :=
  if sync.requestId.isSome ∧ ∃ old ∈ s.syncs, old.requestId = sync.requestId then
    .error .syncRequestKey
  else .ok { s with syncs := s.syncs ++ [sync] }

/-! ## A catalogue sync -/

/-- What the loop over a sync accumulates. -/
structure SyncTally where
  created : ℕ
  updated : ℕ
  rejected : ℕ
  failures : List BulkFailure
  outcomes : List SyncOutcome
  writes : List ProductWrite
  deriving DecidableEq, Repr

/-- Nothing yet. -/
def SyncTally.zero : SyncTally := ⟨0, 0, 0, [], [], []⟩

/-- The reason of a failure. -/
def duplicateInBatch : String := "Duplicate item external_id within batch"

/-- An item whose id came before. -/
def SyncTally.reject (t : SyncTally) (id : String) : SyncTally :=
  { t with
    rejected := t.rejected + 1
    failures := t.failures ++ [⟨id, duplicateInBatch⟩]
    outcomes := t.outcomes ++ [⟨id, .rejected, some "duplicate_in_batch"⟩] }

/-- An item that exists, or does not. -/
def SyncTally.upsert (t : SyncTally) (p : ProductUpsert) (now : Time) (existing : Option Product) :
    SyncTally :=
  match existing with
  | some row =>
      { t with
        updated := t.updated + 1
        outcomes := t.outcomes ++ [⟨p.externalId, .updated, none⟩]
        writes := t.writes ++ [.update p.externalId row (p.assign now row)] }
  | none =>
      { t with
        created := t.created + 1
        outcomes := t.outcomes ++ [⟨p.externalId, .created, none⟩]
        writes := t.writes ++ [.create p.externalId (p.row now)] }

/-- The loop over a sync, in a transaction that goes on with `next`. -/
def upsertItems (now : Time) (next : SyncTally → Transaction) :
    List String → SyncTally → List ProductUpsert → Transaction
  | _, t, [] => next t
  | seen, t, p :: rest =>
      if p.externalId ∈ seen then upsertItems now next seen (t.reject p.externalId) rest
      else .look fun s =>
        upsertItems now next (p.externalId :: seen)
          (t.upsert p now (s.products.get? p.externalId)) rest

/-- The row of a sync. -/
def syncRow (id : ℕ) (p : ProductBulkUpsertRequest) (digest : String) (t : SyncTally)
    (now : Time) : CatalogSync where
  id := id
  requestId := p.requestId
  payloadHash := some digest
  status := "completed"
  acceptedCount := t.created + t.updated
  createdCount := t.created
  updatedCount := t.updated
  skippedCount := 0
  rejectedCount := t.rejected
  outcomes := t.outcomes
  createdAt := now

/-- The response of a sync that was carried out. -/
def syncResult (sync : CatalogSync) (t : SyncTally) : SyncResponse where
  syncId := sync.id
  status := sync.status
  requestId := sync.requestId
  acceptedCount := t.created + t.updated
  createdCount := t.created
  updatedCount := t.updated
  skippedCount := 0
  rejectedCount := t.rejected
  failures := t.failures
  outcomes := t.outcomes

/-- `_sync_response`: the response of a stored sync. -/
def CatalogSync.response (sync : CatalogSync) : SyncResponse where
  syncId := sync.id
  status := sync.status
  requestId := sync.requestId
  acceptedCount := sync.acceptedCount
  createdCount := sync.createdCount
  updatedCount := sync.updatedCount
  skippedCount := sync.skippedCount
  rejectedCount := sync.rejectedCount
  failures := (sync.outcomes.filter fun o => decide (o.status = .rejected)).map fun o =>
    ⟨o.externalId, duplicateInBatch⟩
  outcomes := sync.outcomes

/-- What a sync writes. -/
def writeSync (sync : CatalogSync) (t : SyncTally) (now : Time) (s : Store) :
    Except Constraint Store := do
  let s ← t.writes.foldlM Store.writeProduct s
  let s ← s.bookUsage .storedProducts t.created now
  s.insertSync sync

/-- `identifiers - existing_ids`, a set. -/
def newProductIds (s : Store) (products : List ProductUpsert) : List String :=
  ((products.map ProductUpsert.externalId).filter fun id =>
    decide (s.products.get? id = none)).dedup

/-- `bulk_upsert` of a request that is not a repetition; `id` is a fresh `uuid4`. -/
def upsertNewSync (cfg : Config) (id : ℕ) (p : ProductBulkUpsertRequest) (digest : String) :
    Transaction :=
  .look fun s =>
    requireCapacity cfg .storedProducts (newProductIds s p.products).length <|
      .clock fun now =>
        upsertItems now (fun t =>
          let sync := syncRow id p digest t now
          .commit (writeSync sync t now) (.sync (syncResult sync t))) [] .zero p.products

/-- The sync of a request id. -/
def Store.sync? (s : Store) (requestId : String) : Option CatalogSync :=
  s.syncs.find? fun sync => decide (sync.requestId = some requestId)

/-- `bulk_upsert`. -/
def bulkUpsert (cfg : Config) (id : ℕ) (p : ProductBulkUpsertRequest) : Transaction :=
  .lock (.dimension .storedProducts) <|
    let digest := cfg.hash p.canonical
    match truthy p.requestId with
    | none => upsertNewSync cfg id p digest
    | some requestId => .look fun s =>
        match s.sync? requestId with
        | none => upsertNewSync cfg id p digest
        | some previous =>
            if previous.payloadHash = some digest then .done (.sync previous.response)
            else .done (.error idempotencyConflict)

/-! ## One product -/

/-- `update_product`; the id is that of the path, not of the payload. -/
def updateProduct (cfg : Config) (externalId : String) (p : ProductUpsert) : Transaction :=
  .lock (.dimension .storedProducts) <| .clock fun now => .look fun s =>
    match s.products.get? externalId with
    | none =>
        requireCapacity cfg .storedProducts 1 <|
          .commit (fun s => s.writeProduct (.create externalId (p.row now)))
            (.product externalId (p.row now))
    | some existing =>
        let assigned := p.merge now existing
        .commit (fun s => s.writeProduct (.update externalId existing assigned))
          (.product externalId assigned)

/-- A product that does not exist. -/
def productNotFound (externalId : String) : ApiError :=
  apiError 404 "resource_not_found" ("Product '" ++ externalId ++ "' not found.")

/-- `disable_product`. -/
def disableProduct (externalId : String) : Transaction :=
  .look fun s =>
    match s.products.get? externalId with
    | none => .done (.error (productNotFound externalId))
    | some existing => .clock fun now =>
        let assigned := { existing with isActive := false, updatedAt := now }
        .commit (fun s => s.writeProduct (.update externalId existing assigned))
          (.product externalId assigned)

end Ingestion
