import GraphRec.Ingestion.Chunks
import GraphRec.Lib.Text
import GraphRec.Sdk.Batching

/-!
# The bulk helpers of the SDK

`products.bulk_upsert` and `events.create_batch` against the operations of the server that they
call.  The products are rid of duplicates, either list is split, the requests are sent in order and
their results are merged; nobody else writes meanwhile.

* `Session.bulkUpsert`, `Session.createBatch` — the helpers;
* `sendAll_upserts`, `sendAll_batches` — what requests in order do, by induction on them with the
  store carried along;
* `chunking_transparent` — the helpers do what one request with the whole list does.
-/

namespace Sdk

open Ingestion (Answer BatchResponse BulkFailure Config Constraint EventBatchSubmit EventSubmit
  ProductBulkUpsertRequest ProductUpsert Store SyncOutcome SyncResponse Time capacityRefusal
  catalogueOf eventsOf firsts isNew laters)
open Packing (pack)
open Transactions (Ended Prog)

/-! ## Planning -/

/-- What is raised before anything is sent. -/
inductive PlanError
  | input (e : InputValidationError)
  /-- `... needs at least one ...`. -/
  | nothing (bulk : Bulk)

/-- `chunk_items` on items that are sent as `wire` says. -/
def planItems {α : Type} (bulk : Bulk) (limits : Limits) (wire : α → Json) (items : List α) :
    Except PlanError (List (List α)) :=
  if items = [] then .error (.nothing bulk)
  else
    match pack (size ∘ wire) (overhead bulk.key) limits.maxBodyBytes limits.maxBatchItems items with
    | .ok chunks => .ok chunks
    | .error item => .error (.input
        (.tooLarge bulk.describe (label (wire item)) (size (wire item)) limits.maxBodyBytes))

/-- They are the chunks of what is sent. -/
theorem chunkItems_map {α : Type} {bulk : Bulk} {limits : Limits} {wire : α → Json}
    {items : List α} {chunks : List (List α)} (h : planItems bulk limits wire items = .ok chunks) :
    chunkItems bulk limits (items.map wire) = .ok (chunks.map (List.map wire)) ∧
      chunks.flatten = items := by
  unfold planItems at h
  split at h
  next => cases h
  next =>
    split at h
    next hpack =>
      cases h
      rw [chunkItems, Packing.pack_map, hpack]
      exact ⟨rfl, (Packing.pack_ok limits.maxBatchItems_pos hpack).1⟩
    next => cases h

/-- `_DUPLICATE_REASON`. -/
def duplicateReason : String := "Duplicate item external_id within batch"

/-- The loop of `_plan_bulk`: the items to send, and the duplicates. -/
def splitDuplicates : List String → List ProductUpsert → List ProductUpsert × List BulkFailure
  | _, [] => ([], [])
  | seen, item :: rest =>
    if item.externalId ∈ seen then
      let split := splitDuplicates seen rest
      (split.1, ⟨item.externalId, duplicateReason⟩ :: split.2)
    else
      let split := splitDuplicates (item.externalId :: seen) rest
      (item :: split.1, split.2)

/-- The items that are sent are those the server would not reject as duplicates. -/
theorem splitDuplicates_eq (seen : List String) (items : List ProductUpsert) :
    splitDuplicates seen items =
      (firsts seen items, (laters seen items).map fun p => ⟨p.externalId, duplicateReason⟩) := by
  induction items generalizing seen with
  | nil => rfl
  | cons p rest ih =>
    by_cases hseen : p.externalId ∈ seen
    · simp [splitDuplicates, firsts, laters, hseen, ih]
    · simp [splitDuplicates, firsts, laters, hseen, ih]

/-! ## Requests -/

/-- A client, the server it talks to, and the readings of the server's clock. -/
structure Session where
  cfg : Config
  clock : ℕ → Time
  /-- The `uuid4` of a request, by the reading of the clock that is next. -/
  freshId : ℕ → ℕ
  limits : Limits
  wireProduct : ProductUpsert → Json
  wireEvent : EventSubmit → Json
  /-- The text that the server hashes; of events, what is supplied besides their ids. -/
  canonicalProducts : List ProductUpsert → String
  otherValues : List EventSubmit → String

theorem chunkRequestId_ne_empty (requestId : Option String) (index total : ℕ) :
    chunkRequestId requestId index total ≠ some "" := by
  unfold chunkRequestId
  split
  next => exact Option.some_ne_none "" |>.symm
  next base =>
    split
    next => exact Option.some_ne_none "" |>.symm
    next hbase =>
      split
      next =>
        intro h
        have hlength := congrArg String.length (Option.some.inj h)
        simp only [String.length_append] at hlength
        have hcolon : (":" : String).length = 1 := rfl
        have hnothing : ("" : String).length = 0 := rfl
        omega
      next =>
        intro h
        exact hbase (Option.some.inj h)

/-- The request of a chunk of products. -/
def Session.productRequest (session : Session) (requestId : Option String) (index total : ℕ)
    (chunk : List ProductUpsert) : ProductBulkUpsertRequest where
  requestId := chunkRequestId requestId index total
  products := chunk
  canonical := session.canonicalProducts chunk
  requestId_nonempty := chunkRequestId_ne_empty requestId index total

/-- The request of a chunk of events. -/
def Session.eventRequest (session : Session) (requestId : Option String) (index total : ℕ)
    (chunk : List EventSubmit) : EventBatchSubmit where
  requestId := chunkRequestId requestId index total
  events := chunk
  others := session.otherValues chunk
  requestId_nonempty := chunkRequestId_ne_empty requestId index total

/-- The requests of the chunks. -/
def Session.productRequests (session : Session) (requestId : Option String)
    (chunks : List (List ProductUpsert)) : List ProductBulkUpsertRequest :=
  chunks.mapIdx fun index chunk => session.productRequest requestId index chunks.length chunk

def Session.eventRequests (session : Session) (requestId : Option String)
    (chunks : List (List EventSubmit)) : List EventBatchSubmit :=
  chunks.mapIdx fun index chunk => session.eventRequest requestId index chunks.length chunk

/-- What the server does with a request for products. -/
def Session.upsert (session : Session) (request : ProductBulkUpsertRequest) (n : ℕ) (s : Store) :
    Ended Store Constraint Answer :=
  (Ingestion.bulkUpsert session.cfg (session.freshId n) request).alone session.clock n s

/-- What the server does with a batch of events. -/
def Session.submit (session : Session) (request : EventBatchSubmit) (n : ℕ) (s : Store) :
    Ended Store Constraint Answer :=
  (Ingestion.submitBatch session.cfg (session.freshId n) request).alone session.clock n s

/-- `APIError`, with its `partial_result`. -/
structure ApiFailure (β : Type) where
  answer : Except Constraint Answer
  applied : β

/-- Send requests one after another; the first that fails ends it. -/
def sendAll {χ ρ : Type} (send : χ → ℕ → Store → Ended Store Constraint Answer)
    (read : Answer → Option ρ) (done : List ρ) (n : ℕ) (s : Store) :
    List χ → Ended Store (ApiFailure (List ρ)) (List ρ)
  | [] => ⟨.ok done, s, n⟩
  | request :: rest =>
    let ended := send request n s
    match ended.result with
    | .error c => ⟨.error ⟨.error c, done⟩, ended.store, ended.next⟩
    | .ok answer =>
      match read answer with
      | none => ⟨.error ⟨.ok answer, done⟩, ended.store, ended.next⟩
      | some response => sendAll send read (done ++ [response]) ended.next ended.store rest

/-- The next request is answered. -/
theorem sendAll_cons {χ ρ : Type} {send : χ → ℕ → Store → Ended Store Constraint Answer}
    {read : Answer → Option ρ} {request : χ} {n m : ℕ} {s s' : Store} {answer : Answer}
    {response : ρ} (hsend : send request n s = ⟨.ok answer, s', m⟩)
    (hread : read answer = some response) (done : List ρ) (rest : List χ) :
    sendAll send read done n s (request :: rest) =
      sendAll send read (done ++ [response]) m s' rest := by
  rw [sendAll, hsend]
  dsimp only
  rw [hread]

/-- Change what a run of requests comes to. -/
def mergeResults {ρ β : Type} (merge : List ρ → β)
    (ended : Ended Store (ApiFailure (List ρ)) (List ρ)) : Ended Store (ApiFailure β) β where
  result :=
    match ended.result with
    | .ok results => .ok (merge results)
    | .error e => .error ⟨e.answer, merge e.applied⟩
  store := ended.store
  next := ended.next

/-! ## Results -/

/-- `ProductBulkUpsertResult`; the single sync id, when there is one, is that of the list. -/
structure BulkResult where
  syncIds : List ℕ
  status : String
  requestId : Option String
  acceptedCount : ℕ
  createdCount : ℕ
  updatedCount : ℕ
  skippedCount : ℕ
  rejectedCount : ℕ
  failures : List BulkFailure
  outcomes : List SyncOutcome
  requestCount : ℕ

/-- `ProductBulkUpsertResult.merge`. -/
def BulkResult.merge (results : List SyncResponse) : BulkResult where
  syncIds := results.map SyncResponse.syncId
  status := "completed"
  requestId :=
    match results with
    | [one] => one.requestId
    | _ => none
  acceptedCount := (results.map SyncResponse.acceptedCount).sum
  createdCount := (results.map SyncResponse.createdCount).sum
  updatedCount := (results.map SyncResponse.updatedCount).sum
  skippedCount := (results.map SyncResponse.skippedCount).sum
  rejectedCount := (results.map SyncResponse.rejectedCount).sum
  failures := results.flatMap SyncResponse.failures
  outcomes := results.flatMap SyncResponse.outcomes
  requestCount := results.length

/-- `_combine`. -/
def BulkResult.combine (duplicates : List BulkFailure) (results : List SyncResponse) : BulkResult :=
  let merged := BulkResult.merge results
  { merged with
    rejectedCount := merged.rejectedCount + duplicates.length
    failures := merged.failures ++ duplicates
    outcomes := merged.outcomes ++ duplicates.map fun failure =>
      ⟨failure.externalId, .rejected, some failure.reason⟩ }

/-- `EventBatchResult`. -/
structure EventBatchResult where
  batches : List BatchResponse
  acceptedCount : ℕ
  duplicateCount : ℕ
  rejectedCount : ℕ

/-- `EventBatchResult.from_batches`. -/
def EventBatchResult.fromBatches (batches : List BatchResponse) : EventBatchResult where
  batches := batches
  acceptedCount := (batches.map BatchResponse.acceptedCount).sum
  duplicateCount := (batches.map BatchResponse.duplicateCount).sum
  rejectedCount := (batches.map BatchResponse.rejectedCount).sum

/-! ## The helpers -/

/-- A response for products. -/
def readSync : Answer → Option SyncResponse
  | .sync response => some response
  | _ => none

/-- A response for events. -/
def readBatch : Answer → Option BatchResponse
  | .batch response => some response
  | _ => none

/-- `bulk_upsert` of the SDK. -/
def Session.bulkUpsert (session : Session) (requestId : Option String)
    (products : List ProductUpsert) (n : ℕ) (s : Store) :
    Except PlanError (Ended Store (ApiFailure BulkResult) BulkResult) := do
  let split := splitDuplicates [] products
  let chunks ← planItems .products session.limits session.wireProduct split.1
  return mergeResults (BulkResult.combine split.2)
    (sendAll session.upsert readSync [] n s (session.productRequests requestId chunks))

/-- `create_batch` of the SDK. -/
def Session.createBatch (session : Session) (requestId : Option String)
    (events : List EventSubmit) (n : ℕ) (s : Store) :
    Except PlanError (Ended Store (ApiFailure EventBatchResult) EventBatchResult) := do
  let chunks ← planItems .events session.limits session.wireEvent events
  return mergeResults EventBatchResult.fromBatches
    (sendAll session.submit readBatch [] n s (session.eventRequests requestId chunks))

/-! ## Products in order -/

variable {session : Session} {n : ℕ} {s : Store}

/-- What requests for items that were sent in order have done. -/
structure Upserted (s : Store) (items : List ProductUpsert) (responses : List SyncResponse)
    (after : Store) : Prop where
  catalogue : catalogueOf after.products = catalogueOf (Ingestion.upsertAll 0 s.products items)
  created : (responses.map SyncResponse.createdCount).sum = items.countP (isNew s.products)
  updated : (responses.map SyncResponse.updatedCount).sum =
    items.countP fun p => !isNew s.products p
  accepted : (responses.map SyncResponse.acceptedCount).sum =
    (responses.map SyncResponse.createdCount).sum + (responses.map SyncResponse.updatedCount).sum
  skipped : (responses.map SyncResponse.skippedCount).sum = 0
  rejected : (responses.map SyncResponse.rejectedCount).sum = 0
  failures : responses.flatMap SyncResponse.failures = []

/-- What one request for products answers and leaves. -/
structure Synced (s : Store) (items : List ProductUpsert) (response : SyncResponse) (now : Time)
    (after : Store) : Prop where
  products : after.products = Ingestion.upsertAll now s.products (firsts [] items)
  created : response.createdCount = (firsts [] items).countP (isNew s.products)
  updated : response.updatedCount = (firsts [] items).countP fun p => !isNew s.products p
  accepted : response.acceptedCount = response.createdCount + response.updatedCount
  skipped : response.skippedCount = 0
  rejected : response.rejectedCount = (laters [] items).length
  failures : response.failures =
    (laters [] items).map fun p => ⟨p.externalId, Ingestion.duplicateInBatch⟩

/-- A request within the capacity. -/
theorem upsert_synced {request : ProductBulkUpsertRequest} (hfresh : request.Fresh s)
    (hroom : capacityRefusal session.cfg .storedProducts (request.quantity s) (session.clock n) s
      = none) :
    ∃ response m now,
      session.upsert request n s =
        ⟨.ok (.sync response), s.synced session.cfg (session.freshId n) request now, m⟩ ∧
      Synced s request.products response now
        (s.synced session.cfg (session.freshId n) request now) := by
  refine ⟨_, _, _, Ingestion.alone_bulkUpsert hfresh hroom, ?_⟩
  obtain ⟨hcreated, hupdated, hrejected, hfailures⟩ := Ingestion.tallyItems_counts
    (session.clock (Ingestion.readAfter (request.quantity s) n)) s.products [] .zero
    request.products
  exact ⟨rfl, hcreated.trans (Nat.zero_add _), hupdated.trans (Nat.zero_add _), rfl, rfl,
    hrejected.trans (Nat.zero_add _), hfailures⟩

/-- A request id that is not the one of a sync is as fresh after it. -/
theorem fresh_synced {request other : ProductBulkUpsertRequest} {id : ℕ} {now : Time}
    (hfresh : other.Fresh s)
    (hne : ∀ rid, other.requestId = some rid → request.requestId ≠ some rid) :
    other.Fresh (s.synced session.cfg id request now) := by
  intro rid hrid
  have hnone := hfresh rid hrid
  rw [Ingestion.truthy_of_ne other.requestId_nonempty] at hrid
  simp only [Store.sync?, Store.synced] at hnone ⊢
  rw [List.find?_append, hnone, Option.none_or, List.find?_singleton, if_neg]
  rw [decide_eq_true_eq]
  exact hne rid hrid

/-- Items that no other id of a request is on are as new after the request as before it. -/
theorem countP_isNew_synced {xs ys : List ProductUpsert} {now : Time}
    (hdisjoint : ∀ q ∈ ys, q.externalId ∉ xs.map ProductUpsert.externalId) :
    ys.countP (isNew (Ingestion.upsertAll now s.products xs)) = ys.countP (isNew s.products) ∧
      (ys.countP fun p => !isNew (Ingestion.upsertAll now s.products xs) p) =
        ys.countP fun p => !isNew s.products p := by
  constructor
  · exact Ingestion.countP_isNew_upsertAll hdisjoint s.products
  · refine List.countP_congr ?_
    intro q hq
    rw [isNew, isNew, Ingestion.get?_upsertAll_of_notMem (hdisjoint q hq)]

/-- A request for distinct items, then the requests after it. -/
theorem Upserted.cons {xs ys : List ProductUpsert} {response : SyncResponse}
    {responses : List SyncResponse} {s' after : Store} {now : Time}
    (hown : (xs.map ProductUpsert.externalId).Nodup)
    (hdisjoint : ∀ q ∈ ys, q.externalId ∉ xs.map ProductUpsert.externalId)
    (hfirst : Synced s xs response now s') (hrest : Upserted s' ys responses after) :
    Upserted s (xs ++ ys) (response :: responses) after := by
  obtain ⟨hfirsts, hlaters⟩ : firsts [] xs = xs ∧ laters [] xs = [] :=
    Ingestion.firsts_eq_self hown fun _ _ => List.not_mem_nil
  obtain ⟨hproducts, hcreated, hupdated, haccepted, hskipped, hrejected, hfailures⟩ := hfirst
  rw [hfirsts] at hproducts hcreated hupdated
  rw [hlaters] at hrejected hfailures
  obtain ⟨hnew, hold⟩ := @countP_isNew_synced s xs ys now hdisjoint
  constructor
  · rw [hrest.catalogue, hproducts, Ingestion.upsertAll_append]
    exact Ingestion.catalogueOf_upsertAll (Ingestion.catalogueOf_upsertAll rfl _) _
  · rw [List.map_cons, List.sum_cons, hrest.created, hproducts, hnew, hcreated,
      List.countP_append]
  · rw [List.map_cons, List.sum_cons, hrest.updated, hproducts, hold, hupdated,
      List.countP_append]
  · simp only [List.map_cons, List.sum_cons, hrest.accepted, haccepted]
    omega
  · rw [List.map_cons, List.sum_cons, hrest.skipped, hskipped]
  · rw [List.map_cons, List.sum_cons, hrest.rejected, hrejected, List.length_nil]
  · rw [List.flatMap_cons, hrest.failures, hfailures, List.map_nil, List.append_nil]

/-- **Requests in order**, for items with distinct ids. -/
theorem sendAll_upserts {requests : List ProductBulkUpsertRequest} (done : List SyncResponse)
    (hnodup : ((requests.flatMap ProductBulkUpsertRequest.products).map
      ProductUpsert.externalId).Nodup)
    (hfresh : ∀ request ∈ requests, request.Fresh s)
    (hids : (requests.filterMap ProductBulkUpsertRequest.requestId).Nodup)
    (hroom : ∀ m, capacityRefusal session.cfg .storedProducts
      ((requests.flatMap ProductBulkUpsertRequest.products).countP (isNew s.products))
      (session.clock m) s = none) :
    ∃ responses after m, sendAll session.upsert readSync done n s requests =
        ⟨.ok (done ++ responses), after, m⟩ ∧
      Upserted s (requests.flatMap ProductBulkUpsertRequest.products) responses after := by
  induction requests generalizing n s done with
  | nil =>
    refine ⟨[], s, n, ?_, rfl, rfl, rfl, rfl, rfl, rfl, rfl⟩
    rw [sendAll, List.append_nil]
  | cons request rest ih =>
    rw [List.flatMap_cons] at hnodup hroom ⊢
    rw [List.map_append, List.nodup_append] at hnodup
    obtain ⟨hown, hlater, hdistinct⟩ := hnodup
    have hdisjoint : ∀ q ∈ rest.flatMap ProductBulkUpsertRequest.products,
        q.externalId ∉ request.products.map ProductUpsert.externalId := by
      intro q hq hmem
      exact hdistinct _ hmem _ (List.mem_map_of_mem hq) rfl
    have hself : firsts [] request.products = request.products ∧ laters [] request.products = [] :=
      Ingestion.firsts_eq_self hown fun _ _ => List.not_mem_nil
    have hquantity : request.quantity s = request.products.countP (isNew s.products) := by
      rw [Ingestion.quantity_eq_countP, hself.1]
    rw [List.countP_append] at hroom
    have hfirst : capacityRefusal session.cfg .storedProducts (request.quantity s)
        (session.clock n) s = none := by
      rw [hquantity]
      exact Ingestion.capacityRefusal_mono (hroom n) (Nat.le_add_right _ _) fun _ _ => by omega
    obtain ⟨response, m, now, hsend, hsynced⟩ := upsert_synced
      (hfresh request List.mem_cons_self) hfirst
    have hproducts := hsynced.products
    rw [hself.1] at hproducts
    have hids' : (rest.filterMap ProductBulkUpsertRequest.requestId).Nodup := by
      refine hids.sublist ?_
      exact (List.sublist_cons_self request rest).filterMap _
    obtain ⟨responses, after, m', hrest, hdone⟩ := ih (done ++ [response]) (n := m)
      (s := s.synced session.cfg (session.freshId n) request now) hlater
      (by
        intro other hother
        refine fresh_synced (hfresh other (List.mem_cons_of_mem _ hother)) ?_
        intro rid hrid hsame
        rw [List.filterMap_cons_some hsame, List.nodup_cons] at hids
        exact hids.1 (List.mem_filterMap.mpr ⟨other, hother, hrid⟩))
      hids'
      (by
        intro k
        rw [hproducts, (countP_isNew_synced hdisjoint).1]
        refine Ingestion.capacityRefusal_mono (hroom k) (Nat.le_add_left _ _) ?_
        intro start reset
        change (s.synced session.cfg (session.freshId n) request now).products.rows.length + _ ≤ _
        rw [hproducts, Ingestion.length_upsertAll hown]
        exact (Nat.add_assoc _ _ _).le)
    refine ⟨response :: responses, after, m', ?_, ?_⟩
    · have hread : readSync (.sync response) = some response := rfl
      rw [sendAll_cons hsend hread, hrest, List.append_assoc, List.singleton_append]
    · exact Upserted.cons hown hdisjoint hsynced hdone

/-! ## Events in order -/

/-- What requests for events that were sent in order have done. -/
structure Batched (s : Store) (events : List EventSubmit) (responses : List BatchResponse)
    (after : Store) : Prop where
  stored : eventsOf after.events = eventsOf s.events ++ (s.tallyOf events).newEvents
  customers : after.customers = (s.ensureCustomers (s.tallyOf events).customers).customers
  outcomes : responses.flatMap BatchResponse.outcomes = (s.tallyOf events).outcomes
  accepted : (responses.map BatchResponse.acceptedCount).sum = (s.tallyOf events).accepted
  duplicate : (responses.map BatchResponse.duplicateCount).sum = (s.tallyOf events).duplicates
  rejected : (responses.map BatchResponse.rejectedCount).sum = (s.tallyOf events).rejected

/-- One request, within the capacity. -/
theorem batched_one {request : EventBatchSubmit} (hfresh : request.Fresh s)
    (hroom : capacityRefusal session.cfg .acceptedEvents (s.tallyOf request.events).accepted
      (session.clock n) s = none) :
    ∃ response m now,
      session.submit request n s =
        ⟨.ok (.batch response), s.batched session.cfg (session.freshId n) request now, m⟩ ∧
      Batched s request.events [response]
        (s.batched session.cfg (session.freshId n) request now) := by
  rw [← Ingestion.newCount_eq] at hroom
  have htally : ∀ now, request.tally s (Ingestion.knownProducts s request.events) now =
      (s.tallyOf request.events).dated now := fun now => Ingestion.batchTally_eq now s request
  refine ⟨_, _, _, Ingestion.alone_submitBatch hfresh hroom, ?_⟩
  constructor
  · simp only [Store.batched, Ingestion.batchTally_eq]
    exact Ingestion.eventsOf_insertAll _ s request.events
  · simp only [Store.batched, Ingestion.batchTally_eq]
    rfl
  all_goals
    simp only [List.flatMap_singleton, List.map_singleton, List.sum_singleton,
      EventBatchSubmit.batch, EventBatchSubmit.row, htally]
    rfl

/-- The requests after one that was answered. -/
theorem Batched.cons {xs ys : List EventSubmit} {response : BatchResponse}
    {responses : List BatchResponse} {s' after : Store} {now : Time}
    (hproducts : s'.products = s.products)
    (hevents : s'.events = s.events.insertAll ((s.tallyOf xs).dated now).newEvents)
    (hfirst : Batched s xs [response] s') (hrest : Batched s' ys responses after) :
    Batched s (xs ++ ys) (response :: responses) after := by
  obtain ⟨hevents₁, hcustomers₁, houtcomes₁, haccepted₁, hduplicate₁, hrejected₁⟩ := hfirst
  simp only [List.flatMap_cons, List.flatMap_nil, List.append_nil, List.map_singleton,
    List.sum_singleton] at houtcomes₁ haccepted₁ hduplicate₁ hrejected₁
  have htally := Ingestion.tallyOf_append hproducts hevents ys
  constructor
  · rw [hrest.stored, hevents₁, htally, List.append_assoc]
    rfl
  · rw [hrest.customers, htally]
    simp only [Store.ensureCustomers, hcustomers₁, Ingestion.EventTally.append, List.foldl_append]
  · rw [List.flatMap_cons, houtcomes₁, hrest.outcomes, htally]
    rfl
  · rw [List.map_cons, List.sum_cons, haccepted₁, hrest.accepted, htally]
    rfl
  · rw [List.map_cons, List.sum_cons, hduplicate₁, hrest.duplicate, htally]
    rfl
  · rw [List.map_cons, List.sum_cons, hrejected₁, hrest.rejected, htally]
    rfl

/-- A request id that is not the one of a batch is as fresh after it. -/
theorem fresh_batched {request other : EventBatchSubmit} {id : ℕ} {now : Time}
    (hfresh : other.Fresh s)
    (hne : ∀ rid, other.requestId = some rid → request.requestId ≠ some rid) :
    other.Fresh (s.batched session.cfg id request now) := by
  intro rid hrid
  have hnone := hfresh rid hrid
  rw [Ingestion.truthy_of_ne other.requestId_nonempty] at hrid
  simp only [Store.batch?, Store.batched] at hnone ⊢
  rw [List.find?_append, hnone, Option.none_or, List.find?_singleton, if_neg]
  rw [decide_eq_true_eq]
  exact hne rid hrid

/-- **Requests in order**, for any events. -/
theorem sendAll_batches {requests : List EventBatchSubmit} (done : List BatchResponse)
    (hfresh : ∀ request ∈ requests, request.Fresh s)
    (hids : (requests.filterMap EventBatchSubmit.requestId).Nodup)
    (hroom : ∀ m, capacityRefusal session.cfg .acceptedEvents
      (s.tallyOf (requests.flatMap EventBatchSubmit.events)).accepted (session.clock m) s = none) :
    ∃ responses after m, sendAll session.submit readBatch done n s requests =
        ⟨.ok (done ++ responses), after, m⟩ ∧
      Batched s (requests.flatMap EventBatchSubmit.events) responses after := by
  induction requests generalizing n s done with
  | nil =>
    refine ⟨[], s, n, ?_, (List.append_nil _).symm, rfl, rfl, rfl, rfl, rfl⟩
    rw [sendAll, List.append_nil]
  | cons request rest ih =>
    rw [List.flatMap_cons] at hroom ⊢
    -- What the rest is counted for, whatever the first request is answered at.
    have hsplit : ∀ now, s.tallyOf (request.events ++ rest.flatMap EventBatchSubmit.events) =
        (s.tallyOf request.events).append
          ((s.batched session.cfg (session.freshId n) request now).tallyOf
            (rest.flatMap EventBatchSubmit.events)) := by
      intro now
      exact Ingestion.tallyOf_append (Ingestion.batched_products ..) (Ingestion.batched_events ..) _
    have haccepted : ∀ now,
        (s.tallyOf (request.events ++ rest.flatMap EventBatchSubmit.events)).accepted =
          (s.tallyOf request.events).accepted +
            ((s.batched session.cfg (session.freshId n) request now).tallyOf
              (rest.flatMap EventBatchSubmit.events)).accepted :=
      fun now => congrArg Ingestion.EventTally.accepted (hsplit now)
    have hfirst : capacityRefusal session.cfg .acceptedEvents
        (s.tallyOf request.events).accepted (session.clock n) s = none :=
      Ingestion.capacityRefusal_mono (hroom n) ((Nat.le_add_right _ _).trans (haccepted 0).ge)
        fun _ _ => Nat.add_le_add_left ((Nat.le_add_right _ _).trans (haccepted 0).ge) _
    obtain ⟨response, m, now, hsend, hbatched⟩ := batched_one (hfresh request List.mem_cons_self)
      hfirst
    have hids' : (rest.filterMap EventBatchSubmit.requestId).Nodup :=
      hids.sublist ((List.sublist_cons_self request rest).filterMap _)
    obtain ⟨responses, after, m', hrest, hdone⟩ := ih (done ++ [response]) (n := m)
      (s := s.batched session.cfg (session.freshId n) request now)
      (by
        intro other hother
        refine fresh_batched (hfresh other (List.mem_cons_of_mem _ hother)) ?_
        intro rid hrid hsame
        rw [List.filterMap_cons_some hsame, List.nodup_cons] at hids
        exact hids.1 (List.mem_filterMap.mpr ⟨other, hother, hrid⟩))
      hids'
      (by
        intro k
        refine Ingestion.capacityRefusal_mono (hroom k)
          ((Nat.le_add_left _ _).trans (haccepted now).ge) ?_
        intro start reset
        have hused := Ingestion.capacityUsed_batched s session.cfg (session.freshId n) request now
          start reset
        have htotal := haccepted now
        omega)
    refine ⟨response :: responses, after, m', ?_, ?_⟩
    · have hread : readBatch (.batch response) = some response := rfl
      rw [sendAll_cons hsend hread, hrest, List.append_assoc, List.singleton_append]
    · exact Batched.cons (Ingestion.batched_products ..) (Ingestion.batched_events ..) hbatched
        hdone

/-! ## Request ids -/

/-- The chunks of one list have request ids of their own. -/
theorem chunkRequestId_injective {requestId : Option String} {i j total : ℕ} (htotal : 1 < total)
    {rid : String} (hi : chunkRequestId requestId i total = some rid)
    (hj : chunkRequestId requestId j total = some rid) : i = j := by
  unfold chunkRequestId at hi hj
  split at hi
  next => cases hi
  next base =>
    split at hi
    next => cases hi
    next hbase =>
      simp only [if_neg hbase, if_pos htotal, Option.some.injEq] at hi hj
      have hsame := congrArg String.toList (hi.trans hj.symm)
      simp only [String.toList_append, List.append_assoc, List.append_cancel_left_eq] at hsame
      rw [← List.append_assoc, ← List.append_assoc] at hsame
      have hdigits := List.append_cancel_right (List.append_cancel_right hsame)
      have hdigits' : Nat.toDigits 10 (i + 1) = Nat.toDigits 10 (j + 1) := by
        rw [← Nat.toList_repr, ← Nat.toList_repr]
        exact hdigits
      exact Nat.succ.inj (Text.toDigits_injective hdigits')

/-- No two requests for the chunks of one list have the same request id. -/
theorem requestIds_nodup {χ α : Type} (requestId : Option String) (idOf : χ → Option String)
    (chunks : List (List α)) (request : ℕ → List α → χ)
    (hid : ∀ i chunk, idOf (request i chunk) = chunkRequestId requestId i chunks.length) :
    ((chunks.mapIdx request).filterMap idOf).Nodup := by
  have hids : (chunks.mapIdx request).filterMap idOf =
      (List.range chunks.length).filterMap fun i => chunkRequestId requestId i chunks.length := by
    have hrange : List.range chunks.length = chunks.zipIdx.map Prod.snd := by
      rw [List.zipIdx_map_snd, List.range_eq_range']
    rw [hrange, List.mapIdx_eq_zipIdx_map, List.filterMap_map, List.filterMap_map]
    refine List.filterMap_congr ?_
    intro entry _
    exact hid _ _
  rw [hids]
  by_cases htotal : 1 < chunks.length
  · refine List.Nodup.filterMap ?_ List.nodup_range
    intro i j rid hi hj
    exact chunkRequestId_injective htotal hi hj
  · have hlength : ((List.range chunks.length).filterMap fun i =>
        chunkRequestId requestId i chunks.length).length ≤ 1 := by
      refine (List.length_filterMap_le _ _).trans ?_
      rw [List.length_range]
      omega
    exact List.nodup_iff_getElem?_ne_getElem?.mpr fun i j hij hj => by omega

/-- Requests made for chunks carry the chunks. -/
theorem flatMap_mapIdx {χ α : Type} (chunks : List (List α)) (request : ℕ → List α → χ)
    (itemsOf : χ → List α) (hitems : ∀ i chunk, itemsOf (request i chunk) = chunk) :
    (chunks.mapIdx request).flatMap itemsOf = chunks.flatten := by
  rw [List.mapIdx_eq_zipIdx_map, List.flatMap_map, List.flatMap_def]
  simp only [hitems]
  rw [List.zipIdx_map_fst]

/-! ## Transparency -/

/-- No sync and no batch has the request id, or one that a chunk may get from it. -/
structure FreshIds (requestId : Option String) (s : Store) : Prop where
  syncs : ∀ i total rid, chunkRequestId requestId i total = some rid → s.sync? rid = none
  batches : ∀ i total rid, chunkRequestId requestId i total = some rid → s.batch? rid = none

theorem FreshIds.productRequest {requestId : Option String} (h : FreshIds requestId s)
    (session : Session) (index total : ℕ) (chunk : List ProductUpsert) :
    (session.productRequest requestId index total chunk).Fresh s := by
  intro rid hrid
  have hid := (Ingestion.truthy_of_ne (chunkRequestId_ne_empty requestId index total)).symm
  exact h.syncs index total rid (hid.trans hrid)

theorem FreshIds.eventRequest {requestId : Option String} (h : FreshIds requestId s)
    (session : Session) (index total : ℕ) (chunk : List EventSubmit) :
    (session.eventRequest requestId index total chunk).Fresh s := by
  intro rid hrid
  have hid := (Ingestion.truthy_of_ne (chunkRequestId_ne_empty requestId index total)).symm
  exact h.batches index total rid (hid.trans hrid)

/-- The helper and one request with the whole list leave the same catalogue, count alike and fail
for the same ids. -/
def UpsertsAlike (sdk : Ended Store (ApiFailure BulkResult) BulkResult)
    (whole : Ended Store Constraint Answer) : Prop :=
  ∃ merged response, sdk.result = .ok merged ∧ whole.result = .ok (.sync response) ∧
    catalogueOf sdk.store.products = catalogueOf whole.store.products ∧
    merged.acceptedCount = response.acceptedCount ∧
    merged.createdCount = response.createdCount ∧
    merged.updatedCount = response.updatedCount ∧
    merged.skippedCount = response.skippedCount ∧
    merged.rejectedCount = response.rejectedCount ∧
    (merged.failures.map BulkFailure.externalId).Perm
      (response.failures.map BulkFailure.externalId)

/-- The helper and one request with the whole list leave the same events and customers, count alike
and say the same of each event. -/
def BatchesAlike (sdk : Ended Store (ApiFailure EventBatchResult) EventBatchResult)
    (whole : Ended Store Constraint Answer) : Prop :=
  ∃ merged response, sdk.result = .ok merged ∧ whole.result = .ok (.batch response) ∧
    eventsOf sdk.store.events = eventsOf whole.store.events ∧
    sdk.store.customers = whole.store.customers ∧
    merged.acceptedCount = response.acceptedCount ∧
    merged.duplicateCount = response.duplicateCount ∧
    merged.rejectedCount = response.rejectedCount ∧
    merged.batches.flatMap BatchResponse.outcomes = response.outcomes

/-- **Products.** -/
theorem bulkUpsert_alike {requestId : Option String} {products : List ProductUpsert} {n m : ℕ}
    {sdk : Ended Store (ApiFailure BulkResult) BulkResult}
    (hsdk : session.bulkUpsert requestId products n s = .ok sdk) (hfresh : FreshIds requestId s)
    (hroom : ∀ k, capacityRefusal session.cfg .storedProducts
      ((session.productRequest requestId 0 1 products).quantity s) (session.clock k) s = none) :
    UpsertsAlike sdk (session.upsert (session.productRequest requestId 0 1 products) m s) := by
  -- what the server does with the whole list
  obtain ⟨response, k, now, hwhole, hsynced⟩ := upsert_synced
    (hfresh.productRequest session 0 1 products) (hroom m)
  change Synced s products response now _ at hsynced
  -- what the helper sends, and what becomes of it
  unfold Session.bulkUpsert at hsdk
  simp only [splitDuplicates_eq] at hsdk
  simp only [Ingestion.quantity_eq_countP] at hroom
  cases hplan : planItems .products session.limits session.wireProduct (firsts [] products) with
  | error e =>
    rw [hplan] at hsdk
    cases hsdk
  | ok chunks =>
    rw [hplan] at hsdk
    obtain rfl := Except.ok.inj hsdk
    have hitems : (session.productRequests requestId chunks).flatMap
        ProductBulkUpsertRequest.products = firsts [] products :=
      (flatMap_mapIdx chunks _ _ fun _ _ => rfl).trans (chunkItems_map hplan).2
    have hfresh' : ∀ request ∈ session.productRequests requestId chunks, request.Fresh s := by
      intro request hrequest
      obtain ⟨index, _, rfl⟩ := List.mem_mapIdx.mp hrequest
      exact hfresh.productRequest _ _ _ _
    obtain ⟨responses, after, k, hsend, hdone⟩ := @sendAll_upserts session n s
      (session.productRequests requestId chunks) [] (hitems ▸ Ingestion.firsts_nodup [] products)
      hfresh' (requestIds_nodup requestId _ chunks _ fun _ _ => rfl) (hitems ▸ hroom)
    rw [hitems] at hdone
    rw [hsend, hwhole]
    refine ⟨_, response, rfl, rfl, ?_, ?_, ?_, ?_, ?_, ?_, ?_⟩
    · refine hdone.catalogue.trans ?_
      rw [hsynced.products]
      exact Ingestion.catalogueOf_upsertAll rfl _
    · change (responses.map SyncResponse.acceptedCount).sum = _
      rw [hdone.accepted, hdone.created, hdone.updated, hsynced.accepted, hsynced.created,
        hsynced.updated]
    · exact hdone.created.trans hsynced.created.symm
    · exact hdone.updated.trans hsynced.updated.symm
    · exact hdone.skipped.trans hsynced.skipped.symm
    · change (responses.map SyncResponse.rejectedCount).sum + _ = _
      rw [hdone.rejected, hsynced.rejected, List.length_map, Nat.zero_add]
    · change List.Perm ((responses.flatMap SyncResponse.failures ++ _).map _) _
      rw [hdone.failures, hsynced.failures, List.nil_append, List.map_map, List.map_map]
      exact .refl _

/-- **Events.** -/
theorem createBatch_alike {requestId : Option String} {events : List EventSubmit} {n m : ℕ}
    {sdk : Ended Store (ApiFailure EventBatchResult) EventBatchResult}
    (hsdk : session.createBatch requestId events n s = .ok sdk) (hfresh : FreshIds requestId s)
    (hroom : ∀ k, capacityRefusal session.cfg .acceptedEvents
      ((session.eventRequest requestId 0 1 events).newCount s) (session.clock k) s = none) :
    BatchesAlike sdk (session.submit (session.eventRequest requestId 0 1 events) m s) := by
  simp only [Ingestion.newCount_eq] at hroom
  -- what the server does with the whole list
  obtain ⟨response, k, now, hwhole, hbatched⟩ := batched_one
    (hfresh.eventRequest session 0 1 events) (hroom m)
  change Batched s events [response] _ at hbatched
  -- what the helper sends, and what becomes of it
  unfold Session.createBatch at hsdk
  cases hplan : planItems .events session.limits session.wireEvent events with
  | error e =>
    rw [hplan] at hsdk
    cases hsdk
  | ok chunks =>
    rw [hplan] at hsdk
    obtain rfl := Except.ok.inj hsdk
    have hitems : (session.eventRequests requestId chunks).flatMap EventBatchSubmit.events =
        events := (flatMap_mapIdx chunks _ _ fun _ _ => rfl).trans (chunkItems_map hplan).2
    have hfresh' : ∀ request ∈ session.eventRequests requestId chunks, request.Fresh s := by
      intro request hrequest
      obtain ⟨index, _, rfl⟩ := List.mem_mapIdx.mp hrequest
      exact hfresh.eventRequest _ _ _ _
    obtain ⟨responses, after, k, hsend, hdone⟩ := @sendAll_batches session n s
      (session.eventRequests requestId chunks) [] hfresh'
      (requestIds_nodup requestId _ chunks _ fun _ _ => rfl) (hitems ▸ hroom)
    rw [hitems] at hdone
    rw [hsend, hwhole]
    obtain ⟨hstored, hcustomers, houtcomes, haccepted, hduplicate, hrejected⟩ := hbatched
    rw [List.map_singleton, List.sum_singleton] at haccepted hduplicate hrejected
    rw [List.flatMap_cons, List.flatMap_nil, List.append_nil] at houtcomes
    exact ⟨_, response, rfl, rfl, hdone.stored.trans hstored.symm,
      hdone.customers.trans hcustomers.symm, hdone.accepted.trans haccepted.symm,
      hdone.duplicate.trans hduplicate.symm, hdone.rejected.trans hrejected.symm,
      hdone.outcomes.trans houtcomes.symm⟩

/-- **Transparency.**  With room for the whole list and fresh request ids, either helper does to
the store what one request with the whole list does, and returns the same counts and failures. -/
theorem chunking_transparent (session : Session) {requestId : Option String} {s : Store}
    (hfresh : FreshIds requestId s) (n m : ℕ) :
    (∀ products sdk, session.bulkUpsert requestId products n s = .ok sdk →
      (∀ k, capacityRefusal session.cfg .storedProducts
        ((session.productRequest requestId 0 1 products).quantity s) (session.clock k) s = none) →
      UpsertsAlike sdk (session.upsert (session.productRequest requestId 0 1 products) m s)) ∧
    (∀ events sdk, session.createBatch requestId events n s = .ok sdk →
      (∀ k, capacityRefusal session.cfg .acceptedEvents
        ((session.eventRequest requestId 0 1 events).newCount s) (session.clock k) s = none) →
      BatchesAlike sdk (session.submit (session.eventRequest requestId 0 1 events) m s)) :=
  ⟨fun _ _ hsdk hroom => bulkUpsert_alike hsdk hfresh hroom,
    fun _ _ hsdk hroom => createBatch_alike hsdk hfresh hroom⟩

theorem pairLimits_bytes : 1024 ≤ 1024 := Nat.le_refl 1024

theorem pairLimits_items : 1 ≤ 2 := Nat.le_succ 1

/-- Two items at once. -/
def pairLimits : Limits := ⟨1024, 2, pairLimits_bytes, pairLimits_items⟩

/-- A client that sends at most two items at once, to a server with room for five. -/
def pairSession : Session where
  cfg := Ingestion.smallPlan 5 5 5
  clock k := k
  freshId k := k
  limits := pairLimits
  wireProduct p := .object [("external_id", .string p.externalId), ("title", .string p.title)]
  wireEvent p := .object [("event_id", .string p.eventId), ("event_type", .string p.eventType)]
  canonicalProducts _ := "text"
  otherValues _ := "text"

/-- Four products, one of them twice: two requests. -/
def fourProducts : List ProductUpsert :=
  ["lamp", "sofa", "lamp", "rug"].map Ingestion.someProduct

/-- Four events, one of them twice and one of a product that does not exist: two requests. -/
def fourEvents : List EventSubmit :=
  [Ingestion.someEvent "e" "lamp", Ingestion.someEvent "f" "desk", Ingestion.someEvent "e" "lamp",
    Ingestion.someEvent "g" "lamp"]

/-- A tenant with a lamp. -/
def withLamp : Store := Store.empty.addProducts [Ingestion.logProduct 0 "lamp"]

/-- The helpers on these. -/
theorem chunking_transparent_pairs :
    (∃ sdk, pairSession.bulkUpsert (some "r") fourProducts 0 withLamp = .ok sdk ∧
      UpsertsAlike sdk
        (pairSession.upsert (pairSession.productRequest (some "r") 0 1 fourProducts) 0 withLamp)) ∧
    ∃ sdk, pairSession.createBatch (some "r") fourEvents 0 withLamp = .ok sdk ∧
      BatchesAlike sdk
        (pairSession.submit (pairSession.eventRequest (some "r") 0 1 fourEvents) 0 withLamp) := by
  have hfresh : FreshIds (some "r") withLamp := ⟨fun _ _ _ _ => rfl, fun _ _ _ _ => rfl⟩
  obtain ⟨hproducts, hevents⟩ := chunking_transparent pairSession hfresh 0 0
  constructor
  · have hplan :
        (pairSession.bulkUpsert (some "r") fourProducts 0 withLamp).toOption.isSome = true := by
      decide +kernel
    cases hsdk : pairSession.bulkUpsert (some "r") fourProducts 0 withLamp with
    | error e =>
      rw [hsdk] at hplan
      cases hplan
    | ok sdk =>
      refine ⟨sdk, rfl, hproducts _ sdk hsdk ?_⟩
      have hquantity :
          (pairSession.productRequest (some "r") 0 1 fourProducts).quantity withLamp = 2 := by
        decide +kernel
      rw [hquantity]
      exact fun _ => rfl
  · have hplan :
        (pairSession.createBatch (some "r") fourEvents 0 withLamp).toOption.isSome = true := by
      decide +kernel
    cases hsdk : pairSession.createBatch (some "r") fourEvents 0 withLamp with
    | error e =>
      rw [hsdk] at hplan
      cases hplan
    | ok sdk =>
      refine ⟨sdk, rfl, hevents _ sdk hsdk ?_⟩
      have hcount : (pairSession.eventRequest (some "r") 0 1 fourEvents).newCount withLamp = 2 := by
        decide +kernel
      rw [hcount]
      exact fun _ => rfl

end Sdk
