import GraphRec.Dgsr.Export
import GraphRec.Ingestion.Alone
import GraphRec.Ingestion.LogParser
import GraphRec.Sdk.Batching

/-!
# Dataset uploads

`upload_dataset_content`.  An upload is an interaction log, which is loaded in one transaction, or
records of products and of events.  The products are stored in a transaction of their own; only
then are the events validated, checked against the capacity and stored.

* `uploadDatasetContent` — what an upload answers and leaves behind;
* `upload_atomic_iff` — when a refused upload changes nothing;
* `upload_not_atomic` — a product that stays although the upload is refused.
-/

namespace Ingestion

open Dgsr (Collation createSnapshot)
open Sdk (Json)
open Transactions

/-! ## Parsing -/

/-- What an upload holds. -/
inductive Content
  | log (rows : List Interaction)
  | records (products events : List Json)

def emptyFile : ApiError := apiError 422 "validation_failed" "The dataset file is empty"

def notJson : ApiError := apiError 422 "validation_failed" "The dataset file is not valid JSON"

def notArrays : ApiError :=
  apiError 422 "validation_failed" "'products' and 'events' must be arrays"

def notObjectOrArray : ApiError :=
  apiError 422 "validation_failed" "The dataset JSON must be an object or array"

def notObjects : ApiError := apiError 422 "validation_failed" "Dataset records must be objects"

def noIdentifier : ApiError :=
  apiError 422 "validation_failed"
    "Each record needs 'event_id' (event) or 'external_id' (product)"

def noRecords : ApiError :=
  apiError 422 "validation_failed" "The dataset contains no products or events"

def invalidRecords : ApiError :=
  apiError 422 "validation_failed" "The dataset contains invalid records"

/-- Assign to a key of a dict. -/
def setKey {α : Type} (fields : List (String × α)) (key : String) (value : α) :
    List (String × α) :=
  if key ∈ fields.map Prod.fst then
    fields.map fun field => if field.1 = key then (key, value) else field
  else fields ++ [(key, value)]

/-- `_split_records`: the products and the events. -/
def splitRecords : List Json → Except Answer (List Json × List Json)
  | [] => .ok ([], [])
  | .object fields :: rest =>
      if "event_id" ∈ fields.map Prod.fst then
        (splitRecords rest).map fun found => (found.1, .object fields :: found.2)
      else if "external_id" ∈ fields.map Prod.fst then
        (splitRecords rest).map fun found => (.object fields :: found.1, found.2)
      else .error (.error noIdentifier)
  | _ :: _ => .error (.error notObjects)

/-- `parsed.get(name) or []`, which must be an array. -/
def arrayOr (value : Option Json) : Option (List Json) :=
  match value with
  | none => some []
  | some (.array items) => some items
  | some other => if other.truthy then none else some []

/-- The records of a JSON text. -/
def parseJson (loads : String → Option Json) (content : String) :
    Except Answer (List Json × List Json) :=
  match loads content with
  | none => .error (.error notJson)
  | some (.object fields) =>
      match arrayOr (fields.lookup "products"), arrayOr (fields.lookup "events") with
      | some products, some events => .ok (products, events)
      | _, _ => .error (.error notArrays)
  | some (.array items) => splitRecords items
  | some _ => .error (.error notObjectOrArray)

/-- A row of `csv.DictReader`; a field that the row lacks is none, those it has beyond the header
are left out. -/
def dictRow (header : List String) (record : List Csv.Field) : List (String × Option String) :=
  header.zipIdx.foldl
    (fun row column => setKey row column.1 (record[column.2]?.map String.ofList)) []

/-- A value of a row. -/
def cleanValue (loads : String → Option Json) (key value : String) : Json :=
  if key = "context" ∨ key = "metadata" then (loads value).getD (.string value) else .string value

/-- `_clean_csv_row`. -/
def cleanCsvRow (loads : String → Option Json) (row : List (String × Option String)) : Json :=
  .object <| row.foldl (fun cleaned field =>
    match truthy field.2 with
    | none => cleaned
    | some value => setKey cleaned (Text.strip field.1) (cleanValue loads field.1 value)) []

/-- The records of a CSV text; blank lines are not rows. -/
def parseCsv (loads : String → Option Json) (content : String) :
    Except Answer (List Json × List Json) :=
  let reading := Csv.read false Csv.fieldSizeLimit content.toList
  match reading.error with
  | some e => .error (.raised (readErrorText e))
  | none =>
      match reading.records with
      | [] => .ok ([], [])
      | header :: records =>
          splitRecords <| (records.filter fun record => !record.isEmpty).map fun record =>
            cleanCsvRow loads (dictRow (header.map String.ofList) record)

/-- `_parse_dataset`; `loads` is `json.loads`. -/
def parseDataset (loads : String → Option Json) (rawContent : String) :
    Except Answer (List Json × List Json) :=
  let content := Text.strip rawContent
  match content.toList.head? with
  | none => .error (.error emptyFile)
  | some c => if c = '[' ∨ c = '\x7b' then parseJson loads content else parseCsv loads content

/-- What is uploaded. -/
def parseUpload (loads : String → Option Json) (rawContent : String) : Except Answer Content := do
  match ← parseInteractionLog rawContent with
  | some rows => return .log rows
  | none =>
      let (products, events) ← parseDataset loads rawContent
      if products = [] ∧ events = [] then .error (.error noRecords)
      else return .records products events

/-! ## Requests -/

/-- What the request models make of records; the text that is hashed is of the values supplied. -/
structure Schemas where
  product : Json → Option ProductUpsert
  event : Json → Option EventSubmit
  canonical : List Json → String

/-- The bound of the lists of the request models. -/
def maxItems : ℕ := 1000

/-- `ProductBulkUpsertRequest(products=products)`, unless the validation fails. -/
def Schemas.productRequest (schemas : Schemas) (records : List Json) :
    Option ProductBulkUpsertRequest :=
  if records = [] ∨ maxItems < records.length then none
  else (records.mapM schemas.product).map fun products =>
    ⟨none, products, schemas.canonical records, noRequestId⟩

/-- `EventBatchSubmit(events=events)`, unless the validation fails. -/
def Schemas.eventRequest (schemas : Schemas) (records : List Json) : Option EventBatchSubmit :=
  if records = [] ∨ maxItems < records.length then none
  else (records.mapM schemas.event).map fun events =>
    ⟨none, events, schemas.canonical records, noRequestId⟩

theorem productRequest_fresh {schemas : Schemas} {records : List Json}
    {p : ProductBulkUpsertRequest} (h : schemas.productRequest records = some p) (s : Store) :
    p.Fresh s := by
  unfold Schemas.productRequest at h
  split at h
  · cases h
  · obtain ⟨products, -, rfl⟩ := Option.map_eq_some_iff.mp h
    intro requestId hid
    cases hid

theorem eventRequest_fresh {schemas : Schemas} {records : List Json} {p : EventBatchSubmit}
    (h : schemas.eventRequest records = some p) (s : Store) : p.Fresh s := by
  unfold Schemas.eventRequest at h
  split at h
  · cases h
  · obtain ⟨events, -, rfl⟩ := Option.map_eq_some_iff.mp h
    intro requestId hid
    cases hid

/-! ## The upload -/

/-- A row of `dataset_snapshots`, with what it counts. -/
structure Snapshot where
  id : ℕ
  cutoffAt : Time
  events : List (String × CustomerEvent)
  products : List (String × Product)
  userCount : ℕ
  createdAt : Time

/-- The tables that an upload may change. -/
structure Datasets where
  store : Store
  snapshots : List Snapshot

/-- What an upload relies on: the plan, the order of texts, `json.loads`, the request models and
the ids that it draws. -/
structure Service where
  cfg : Config
  collation : Collation
  loads : String → Option Json
  schemas : Schemas
  syncId : ℕ
  batchId : ℕ
  snapshotId : ℕ

/-- The snapshot of `create_snapshot`, with the time as its cutoff. -/
def Service.snapshot (service : Service) (s : Store) (now : Time) : Snapshot :=
  let events := createSnapshot service.collation s now
  { id := service.snapshotId
    cutoffAt := now
    events := events
    products := (s.products.rows.filter fun row => row.2.isActive).insertionSort
      fun row row' => service.collation.le row.1 row'.1 = true
    userCount := (events.filterMap fun row => row.2.userId).dedup.length
    createdAt := now }

/-- What a part of an upload comes to: how many it accepted, or the answer that ends the upload. -/
abbrev Part := Ended Store Answer ℕ

/-- The part that a transaction makes. -/
def partOf (ended : Ended Store Constraint Answer) : Part where
  result :=
    match ended.result with
    | .ok (.sync response) => .ok response.acceptedCount
    | .ok (.batch response) => .ok response.acceptedCount
    | .ok answer => .error answer
    | .error _ => .error (.raised "IntegrityError")
  store := ended.store
  next := ended.next

/-- The products of an upload. -/
def Service.uploadProducts (service : Service) (clock : ℕ → Time) (n : ℕ) (records : List Json)
    (s : Store) : Part :=
  if records = [] then ⟨.ok 0, s, n⟩
  else
    match service.schemas.productRequest records with
    | none => ⟨.error (.error invalidRecords), s, n⟩
    | some p => partOf ((bulkUpsert service.cfg service.syncId p).alone clock n s)

/-- The events of an upload. -/
def Service.uploadEvents (service : Service) (clock : ℕ → Time) (n : ℕ) (records : List Json)
    (s : Store) : Part :=
  if records = [] then ⟨.ok 0, s, n⟩
  else
    match service.schemas.eventRequest records with
    | none => ⟨.error (.error invalidRecords), s, n⟩
    | some p => partOf ((submitBatch service.cfg service.batchId p).alone clock n s)

/-- What an upload answers and leaves behind. -/
structure Uploaded where
  answer : Answer
  datasets : Datasets

/-- The end of an upload: its snapshot. -/
def Service.finish (service : Service) (now : Time) (response : UploadResponse) (s : Store)
    (snapshots : List Snapshot) : Uploaded :=
  ⟨.upload response, ⟨s, snapshots ++ [service.snapshot s now]⟩⟩

/-- An upload of records. -/
def Service.uploadRecords (service : Service) (clock : ℕ → Time) (products events : List Json)
    (d : Datasets) : Uploaded :=
  let stored := service.uploadProducts clock 0 products d.store
  match stored.result with
  | .error answer => ⟨answer, { d with store := stored.store }⟩
  | .ok acceptedProducts =>
      let sent := service.uploadEvents clock stored.next events stored.store
      match sent.result with
      | .error answer => ⟨answer, { d with store := sent.store }⟩
      | .ok acceptedEvents =>
          service.finish (clock sent.next) ⟨acceptedEvents, acceptedProducts⟩ sent.store d.snapshots

/-- An upload of an interaction log. -/
def Service.uploadLog (service : Service) (clock : ℕ → Time) (rows : List Interaction)
    (d : Datasets) : Uploaded :=
  let loaded := (loadInteractionLog service.cfg service.batchId rows).alone clock 0 d.store
  match loaded.result with
  | .ok (.upload response) =>
      service.finish (clock loaded.next) response loaded.store d.snapshots
  | .ok answer => ⟨answer, { d with store := loaded.store }⟩
  | .error _ => ⟨.raised "IntegrityError", { d with store := loaded.store }⟩

/-- `upload_dataset_content`, with no other transaction at the same time. -/
def Service.uploadDatasetContent (service : Service) (clock : ℕ → Time) (rawContent : String)
    (d : Datasets) : Uploaded :=
  match parseUpload service.loads rawContent with
  | .error answer => ⟨answer, d⟩
  | .ok (.log rows) => service.uploadLog clock rows d
  | .ok (.records products events) => service.uploadRecords clock products events d

/-- Nothing is changed. -/
structure Unchanged (d d' : Datasets) : Prop where
  products : d'.store.products = d.store.products
  events : d'.store.events = d.store.events
  customers : d'.store.customers = d.store.customers
  usage : d'.store.usage = d.store.usage
  snapshots : d'.snapshots = d.snapshots

/-- A refused upload changes nothing. -/
def Service.Atomic (service : Service) (clock : ℕ → Time) (rawContent : String) (d : Datasets) :
    Prop :=
  ∀ e, (service.uploadDatasetContent clock rawContent d).answer = .error e →
    Unchanged d (service.uploadDatasetContent clock rawContent d).datasets

/-! ## The products -/

/-- The catalogue holds a product just as it would be written. -/
def Store.holdsProduct (s : Store) (now : Time) (p : ProductUpsert) : Prop :=
  ∃ row, s.products.get? p.externalId = some row ∧ p.assign now row = row

variable {service : Service} {clock : ℕ → Time} {n : ℕ} {s : Store}

/-- What items leave as it is. -/
theorem upsertAll_eq_self_iff {now : Time} {items : List ProductUpsert}
    (hnodup : (items.map ProductUpsert.externalId).Nodup) :
    upsertAll now s.products items = s.products ↔ ∀ p ∈ items, s.holdsProduct now p := by
  constructor
  · intro hsame p hp
    have hrow := get?_upsertAll_of_mem hnodup hp now s.products
    rw [hsame] at hrow
    cases hstored : s.products.get? p.externalId with
    | none =>
        rw [hstored] at hrow
        cases hrow
    | some row =>
        rw [hstored] at hrow
        exact ⟨row, hstored, (Option.some.inj hrow).symm⟩
  · intro hholds
    induction items with
    | nil => rfl
    | cons p rest ih =>
        obtain ⟨row, hrow, hassign⟩ := hholds p List.mem_cons_self
        have hone : upsertOne now s.products p = s.products := by
          simp only [upsertOne, hrow]
          refine Table.update_eq_self _ ?_
          intro stored hstored
          obtain rfl := Option.some.inj (hrow.symm.trans hstored)
          exact hassign
        rw [upsertAll, List.foldl_cons, hone]
        exact ih (List.nodup_cons.mp hnodup).2 fun q hq => hholds q (List.mem_cons_of_mem _ hq)

/-- The reading of the clock that dates the products. -/
def storedAt (p : ProductBulkUpsertRequest) (s : Store) (n : ℕ) : ℕ := readAfter (p.quantity s) n

/-- The store after the products of an upload. -/
def Service.afterProducts (service : Service) (clock : ℕ → Time) (n : ℕ)
    (p : ProductBulkUpsertRequest) (s : Store) : Store :=
  s.synced service.cfg service.syncId p (clock (storedAt p s n))

/-- How the products of an upload end. -/
inductive ProductsEnd (service : Service) (clock : ℕ → Time) (n : ℕ) (records : List Json)
    (s : Store) : Part → Prop
  | none (hnone : records = []) : ProductsEnd service clock n records s ⟨.ok 0, s, n⟩
  | invalid (hinvalid : service.schemas.productRequest records = none) :
      ProductsEnd service clock n records s ⟨.error (.error invalidRecords), s, n⟩
  | refused {p : ProductBulkUpsertRequest} {e : ApiError} {m : ℕ}
      (hp : service.schemas.productRequest records = some p)
      (he : capacityRefusal service.cfg .storedProducts (p.quantity s) (clock n) s = some e) :
      ProductsEnd service clock n records s ⟨.error (.error e), s, m⟩
  | stored {p : ProductBulkUpsertRequest} {accepted : ℕ}
      (hp : service.schemas.productRequest records = some p)
      (hroom : capacityRefusal service.cfg .storedProducts (p.quantity s) (clock n) s = .none) :
      ProductsEnd service clock n records s
        ⟨.ok accepted, service.afterProducts clock n p s, storedAt p s n + 1⟩

theorem uploadProducts_ends (service : Service) (clock : ℕ → Time) (n : ℕ) (records : List Json)
    (s : Store) :
    ProductsEnd service clock n records s (service.uploadProducts clock n records s) := by
  unfold Service.uploadProducts
  split
  · next hnone => exact .none hnone
  · cases hp : service.schemas.productRequest records with
    | none => exact .invalid hp
    | some p =>
        have hfresh := productRequest_fresh hp s
        cases he : capacityRefusal service.cfg .storedProducts (p.quantity s) (clock n) s with
        | none =>
            dsimp only
            rw [alone_bulkUpsert hfresh he]
            exact .stored hp he
        | some e =>
            obtain ⟨m, hend⟩ := alone_bulkUpsert_refused service.syncId hfresh he
            dsimp only
            rw [hend]
            exact .refused hp he

/-! ## The events -/

/-- The events of an upload are refused: they are invalid or beyond the capacity. -/
def Service.RefusesEvents (service : Service) (clock : ℕ → Time) (n : ℕ) (records : List Json)
    (s : Store) : Prop :=
  records ≠ [] ∧ ∀ q, service.schemas.eventRequest records = some q →
    capacityRefusal service.cfg .acceptedEvents (q.newCount s) (clock n) s ≠ none

/-- How the events of an upload end. -/
inductive EventsEnd (service : Service) (clock : ℕ → Time) (n : ℕ) (records : List Json)
    (s : Store) : Part → Prop
  | refused {e : ApiError} {m : ℕ} (hrefused : service.RefusesEvents clock n records s) :
      EventsEnd service clock n records s ⟨.error (.error e), s, m⟩
  | stored {accepted m : ℕ} {after : Store} (hnot : ¬ service.RefusesEvents clock n records s) :
      EventsEnd service clock n records s ⟨.ok accepted, after, m⟩

theorem uploadEvents_ends (service : Service) (clock : ℕ → Time) (n : ℕ) (records : List Json)
    (s : Store) : EventsEnd service clock n records s (service.uploadEvents clock n records s) := by
  unfold Service.uploadEvents
  split
  · next hnone => exact .stored fun h => h.1 hnone
  · next hsome =>
      cases hq : service.schemas.eventRequest records with
      | none =>
          refine .refused ⟨hsome, ?_⟩
          intro q hq'
          rw [hq] at hq'
          cases hq'
      | some q =>
          have hfresh := eventRequest_fresh hq s
          cases he : capacityRefusal service.cfg .acceptedEvents (q.newCount s) (clock n) s with
          | none =>
              dsimp only
              rw [alone_submitBatch hfresh he]
              exact .stored fun h => h.2 q hq he
          | some e =>
              obtain ⟨m, hend⟩ := alone_submitBatch_refused service.batchId hfresh he
              dsimp only
              rw [hend]
              refine .refused ⟨hsome, ?_⟩
              intro q' hq'
              obtain rfl := Option.some.inj (hq.symm.trans hq')
              rw [he]
              exact Option.some_ne_none e

/-! ## Half an upload -/

/-- The products that a batch finds when others are uploaded before it. -/
def knownWith (s : Store) (uploaded : List String) (events : List EventSubmit) : List String :=
  (events.filterMap fun p => truthy p.externalProductId).filter fun id =>
    (s.products.get? id).isSome || decide (id ∈ uploaded)

/-- The products `p` of an upload are valid and within the capacity, and the catalogue does not
hold them yet as they would be written; its events are invalid, or beyond the capacity when the
products are stored. -/
structure Service.HalfStored (service : Service) (clock : ℕ → Time)
    (p : ProductBulkUpsertRequest) (events : List Json) (s : Store) : Prop where
  room : capacityRefusal service.cfg .storedProducts (p.quantity s) (clock 0) s = none
  changes : ∃ item ∈ firsts [] p.products, ¬ s.holdsProduct (clock (storedAt p s 0)) item
  events_nonempty : events ≠ []
  refused : ∀ q, service.schemas.eventRequest events = some q →
    capacityRefusal service.cfg .acceptedEvents
      (validNewIds (existingEventIds s q.events)
        (knownWith s (p.products.map ProductUpsert.externalId) q.events) q.events).length
      (clock (storedAt p s 0 + 1)) s ≠ none

/-- The products that are found after those of an upload. -/
theorem knownProducts_afterProducts (p : ProductBulkUpsertRequest) (events : List EventSubmit) :
    knownProducts (service.afterProducts clock n p s) events =
      knownWith s (p.products.map ProductUpsert.externalId) events := by
  unfold knownProducts knownWith
  refine List.filter_congr ?_
  intro id _
  have hids := @mem_firsts_ids [] p.products id List.not_mem_nil
  change ((upsertAll _ s.products (firsts [] p.products)).get? id).isSome = _
  by_cases hmem : id ∈ (firsts [] p.products).map ProductUpsert.externalId
  · obtain ⟨item, hitem, rfl⟩ := List.mem_map.mp hmem
    rw [get?_upsertAll_of_mem (firsts_nodup [] p.products) hitem, decide_eq_true (hids.mp hmem),
      Bool.or_true, Option.isSome_some]
  · rw [get?_upsertAll_of_notMem hmem, decide_eq_false (fun h => hmem (hids.mpr h)),
      Bool.or_false]

/-- What the products book is not counted for events. -/
theorem capacityRefusal_afterProducts (p : ProductBulkUpsertRequest) (quantity : ℕ)
    (now : Time) :
    capacityRefusal service.cfg .acceptedEvents quantity now
        (service.afterProducts clock n p s) =
      capacityRefusal service.cfg .acceptedEvents quantity now s := by
  have hused : ∀ start reset,
      capacityUsed (service.afterProducts clock n p s) .acceptedEvents start reset =
        capacityUsed s .acceptedEvents start reset := by
    intro start reset
    have hnone : (booked .storedProducts (syncTally (clock (storedAt p s n)) s p).created
        (clock (storedAt p s n))).filter (fun row => decide (row.usageType = .acceptedEvents) &&
          decide (start ≤ row.occurredAt) && decide (row.occurredAt < reset)) = [] := by
      refine List.filter_eq_nil_iff.mpr ?_
      intro row hrow
      simp [usageType_of_booked hrow]
    simp only [capacityUsed, ledgerUsage, Service.afterProducts, Store.synced]
    rw [List.filter_append, hnone, List.append_nil]
  simp only [capacityRefusal, hused]

theorem refusesEvents_afterProducts_iff {p : ProductBulkUpsertRequest} {events : List Json}
    (m : ℕ) : service.RefusesEvents clock m events (service.afterProducts clock n p s) ↔
      events ≠ [] ∧ ∀ q, service.schemas.eventRequest events = some q →
        capacityRefusal service.cfg .acceptedEvents
          (validNewIds (existingEventIds s q.events)
            (knownWith s (p.products.map ProductUpsert.externalId) q.events) q.events).length
          (clock m) s ≠ none := by
  refine and_congr_right fun _ => forall₂_congr fun q _ => ?_
  rw [capacityRefusal_afterProducts, EventBatchSubmit.newCount, EventBatchSubmit.quantity,
    knownProducts_afterProducts]
  rfl

/-- What products change that are stored. -/
theorem unchanged_afterProducts_iff {p : ProductBulkUpsertRequest} {snapshots : List Snapshot} :
    Unchanged ⟨s, snapshots⟩ ⟨service.afterProducts clock n p s, snapshots⟩ ↔
      ∀ item ∈ firsts [] p.products, s.holdsProduct (clock (storedAt p s n)) item := by
  rw [← upsertAll_eq_self_iff (firsts_nodup [] p.products)]
  constructor
  · intro h
    exact h.products
  · intro hsame
    refine ⟨hsame, rfl, rfl, ?_, rfl⟩
    have hcreated : (syncTally (clock (storedAt p s n)) s p).created = 0 := by
      refine (tallyItems_counts _ s.products [] .zero p.products).1.trans ?_
      refine (Nat.zero_add _).trans (List.countP_eq_zero.mpr ?_)
      intro item hitem
      obtain ⟨row, hrow, -⟩ :=
        (upsertAll_eq_self_iff (firsts_nodup [] p.products)).mp hsame item hitem
      simp [isNew, hrow]
    simp [Service.afterProducts, Store.synced, hcreated, booked]

/-! ## Whole uploads -/

/-- A load that is refused writes nothing. -/
theorem alone_load_refused {cfg : Config} {id : ℕ} {rows : List Interaction} {e : ApiError}
    (h : ((loadInteractionLog cfg id rows).alone clock n s).result = .ok (.error e)) :
    ((loadInteractionLog cfg id rows).alone clock n s).store = s := by
  unfold loadInteractionLog at h ⊢
  simp only [alone_clock, alone_note, alone_lock, alone_look] at h ⊢
  cases hproducts : capacityRefusal cfg .storedProducts (newItems s rows).length
      (clock (n + 1)) s with
  | some e' =>
      obtain ⟨m, hend⟩ := alone_requireCapacity_refused _ hproducts
      rw [hend]
  | none =>
      rw [alone_requireCapacity _ hproducts, alone_look, loadEvents] at h ⊢
      split at h
      · next hrange => rw [if_pos hrange, alone_done]
      · next hrange =>
          rw [if_neg hrange]
          rw [alone_look] at h ⊢
          cases hevents : capacityRefusal cfg .acceptedEvents
              (newEventCount s (eventRows (clock n) rows))
              (clock (readAfter (newItems s rows).length (n + 1))) s with
          | some e' =>
              obtain ⟨m, hend⟩ := alone_requireCapacity_refused _ hevents
              rw [hend]
          | none =>
              rw [alone_requireCapacity _ hevents, alone_look, Prog.alone] at h ⊢
              split at h
              · cases h
              · cases h

/-- An upload of a log changes nothing when it is refused. -/
theorem uploadLog_atomic (clock : ℕ → Time) (rows : List Interaction) (d : Datasets) {e : ApiError}
    (h : (service.uploadLog clock rows d).answer = .error e) :
    Unchanged d (service.uploadLog clock rows d).datasets := by
  unfold Service.uploadLog at h ⊢
  dsimp only at h ⊢
  split at h
  · cases h
  · next answer _ hresult =>
      obtain rfl : answer = .error e := h
      rw [alone_load_refused hresult]
      exact ⟨rfl, rfl, rfl, rfl, rfl⟩
  · cases h

/-- What records leave behind. -/
theorem uploadRecords_atomic_iff (clock : ℕ → Time) (products events : List Json) (d : Datasets) :
    (∀ e, (service.uploadRecords clock products events d).answer = .error e →
      Unchanged d (service.uploadRecords clock products events d).datasets) ↔
      ∀ p, service.schemas.productRequest products = some p →
        ¬ service.HalfStored clock p events d.store := by
  have hproducts := uploadProducts_ends service clock 0 products d.store
  unfold Service.uploadRecords
  generalize service.uploadProducts clock 0 products d.store = stored at hproducts ⊢
  cases hproducts with
  | none hnone =>
      dsimp only
      have hevents := uploadEvents_ends service clock 0 events d.store
      generalize service.uploadEvents clock 0 events d.store = sent at hevents ⊢
      have hinvalid : service.schemas.productRequest products = none := by
        rw [hnone, Schemas.productRequest, if_pos (Or.inl rfl)]
      refine iff_of_true ?_ ?_
      · intro e he
        cases hevents with
        | refused => exact ⟨rfl, rfl, rfl, rfl, rfl⟩
        | stored => cases he
      · intro p hp
        rw [hinvalid] at hp
        cases hp
  | invalid hinvalid =>
      refine iff_of_true (fun _ _ => ⟨rfl, rfl, rfl, rfl, rfl⟩) ?_
      intro p hp
      rw [hinvalid] at hp
      cases hp
  | @refused p e m hp he =>
      refine iff_of_true (fun _ _ => ⟨rfl, rfl, rfl, rfl, rfl⟩) ?_
      intro p' hp' hhalf
      obtain rfl := Option.some.inj (hp.symm.trans hp')
      rw [hhalf.room] at he
      cases he
  | @stored p accepted hp hroom =>
      dsimp only
      have hevents := uploadEvents_ends service clock (storedAt p d.store 0 + 1) events
        (service.afterProducts clock 0 p d.store)
      generalize service.uploadEvents clock (storedAt p d.store 0 + 1) events
        (service.afterProducts clock 0 p d.store) = sent at hevents ⊢
      cases hevents with
      | @refused e m hrefused =>
          obtain ⟨hsome, hcapacity⟩ := (refusesEvents_afterProducts_iff _).mp hrefused
          dsimp only
          constructor
          · intro h p' hp' hhalf
            obtain rfl := Option.some.inj (hp.symm.trans hp')
            obtain ⟨item, hitem, hchanged⟩ := hhalf.changes
            exact hchanged (unchanged_afterProducts_iff.mp (h e rfl) item hitem)
          · intro h e' _
            refine unchanged_afterProducts_iff.mpr ?_
            by_contra hnot
            push Not at hnot
            exact h p hp ⟨hroom, hnot, hsome, hcapacity⟩
      | stored hnot =>
          refine iff_of_true ?_ ?_
          · intro e he
            cases he
          · intro p' hp' hhalf
            obtain rfl := Option.some.inj (hp.symm.trans hp')
            exact hnot ((refusesEvents_afterProducts_iff _).mpr
              ⟨hhalf.events_nonempty, hhalf.refused⟩)

/-- **Atomic uploads.**  A refused upload changes nothing, unless it holds products that are
stored before its events are refused. -/
theorem upload_atomic_iff (service : Service) (clock : ℕ → Time) (rawContent : String)
    (d : Datasets) :
    service.Atomic clock rawContent d ↔
      ∀ products events p, parseUpload service.loads rawContent = .ok (.records products events) →
        service.schemas.productRequest products = some p →
          ¬ service.HalfStored clock p events d.store := by
  unfold Service.Atomic Service.uploadDatasetContent
  cases parseUpload service.loads rawContent with
  | error answer =>
      refine iff_of_true (fun _ _ => ⟨rfl, rfl, rfl, rfl, rfl⟩) ?_
      intro products events p hparse
      cases hparse
  | ok content =>
      cases content with
      | log rows =>
          refine iff_of_true (fun e he => uploadLog_atomic clock rows d he) ?_
          intro products events p hparse
          cases hparse
      | records products events =>
          refine (uploadRecords_atomic_iff clock products events d).trans ?_
          constructor
          · intro h products' events' p hparse
            cases hparse
            exact h p
          · intro h p
            exact h products events p rfl

/-! ## A product that stays -/

/-- A text of a record. -/
def textOf (record : Json) (name : String) : Option String :=
  match record with
  | .object fields =>
      match fields.lookup name with
      | some (.string text) => some text
      | _ => none
  | _ => none

/-- `EVENT_TYPES`. -/
def eventTypes : List String :=
  ["view", "click", "add_to_cart", "remove_from_cart", "purchase", "rating", "search",
    "add_to_wishlist"]

/-- The request models on records that have no more than an id and a title, or an id and a type. -/
def plainSchemas : Schemas where
  product record := do
    let externalId ← textOf record "external_id"
    let title ← textOf record "title"
    some { someProduct externalId with title := title }
  event record := do
    let eventId ← textOf record "event_id"
    let eventType ← textOf record "event_type"
    if eventType ∈ eventTypes then
      some ⟨eventId, eventType, none, none, emptyMetadata, 0, noRequestId⟩
    else none
  canonical _ := "text"

/-- A product, and an event of a type that does not exist. -/
def mixedUpload : String := "external_id,title,event_id,event_type\nlamp,Lamp,,\n,,e,shrug\n"

/-- A service with room for products and events. -/
def plainService : Service where
  cfg := smallPlan 5 5 5
  collation := Dgsr.byCharacters
  loads _ := none
  schemas := plainSchemas
  syncId := 1
  batchId := 2
  snapshotId := 3

/-- The upload is refused, and the product is stored. -/
theorem upload_not_atomic :
    ¬ ∀ (service : Service) (clock : ℕ → Time) (rawContent : String) (d : Datasets),
      service.Atomic clock rawContent d := by
  intro h
  have hend : (plainService.uploadDatasetContent id mixedUpload ⟨.empty, []⟩).answer
        = .error invalidRecords ∧
      (plainService.uploadDatasetContent id mixedUpload ⟨.empty, []⟩).datasets.store.products.rows
        ≠ [] := by
    decide +kernel
  have hsame := (h plainService id mixedUpload ⟨.empty, []⟩ invalidRecords hend.1).products
  exact hend.2 (congrArg Table.rows hsame)

end Ingestion
