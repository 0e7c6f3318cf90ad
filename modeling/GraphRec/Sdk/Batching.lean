import GraphRec.Sdk.Serialization

/-!
# Byte budgets of the bulk helpers

`events.create_batch` and `products.bulk_upsert` split their items so that each request fits the
server's body limit.  The budget of a chunk counts the envelope with its items and nothing else;
a request id, which goes into the same body, is not in it.

* `chunkItems` — the planning helper;
* `requestBody`, `requests` — what is sent for the chunks;
* `batching_iff` — the requests fit for all items exactly when no request id is passed;
* `requestId_too_large` — an event that fits without its request id.
-/

namespace Sdk

open Packing (joined pack)

/-! ## Planning -/

/-- The limits of a client, as its configuration accepts them. -/
structure Limits where
  maxBodyBytes : ℕ
  maxBatchItems : ℕ
  maxBodyBytes_ge : 1024 ≤ maxBodyBytes
  maxBatchItems_pos : 1 ≤ maxBatchItems

/-- Which helper plans. -/
inductive Bulk
  | events
  | products
  deriving DecidableEq, Repr

/-- `envelope_key`. -/
def Bulk.key : Bulk → String
  | .events => "events"
  | .products => "products"

/-- `describe`. -/
def Bulk.describe : Bulk → String
  | .events => "Event"
  | .products => "Product"

/-- Whether Python takes the value for true. -/
def Json.truthy : Json → Bool
  | .null => false
  | .bool b => b
  | .number text => text.toList.any fun c => '1' ≤ c && c ≤ '9'
  | .string s => s ≠ ""
  | .array items => !items.isEmpty
  | .object fields => !fields.isEmpty

/-- `item.get("external_id") or item.get("event_id")`, for a dict. -/
def label : Json → Option Json
  | .object fields =>
    match (fields.lookup "external_id").filter Json.truthy with
    | some id => some id
    | none => fields.lookup "event_id"
  | _ => none

/-- `InputValidationError`, with what its message says. -/
inductive InputValidationError
  | tooLarge (describe : String) (label : Option Json) (size maxBytes : ℕ)

/-- `len(encode_json({envelope_key: []}))`. -/
def overhead (key : String) : ℕ := size (.object [(key, .array [])])

/-- `chunk_items`. -/
def chunkItems (bulk : Bulk) (limits : Limits) (items : List Json) :
    Except InputValidationError (List (List Json)) :=
  match pack size (overhead bulk.key) limits.maxBodyBytes limits.maxBatchItems items with
  | .ok chunks => .ok chunks
  | .error item =>
    .error (.tooLarge bulk.describe (label item) (size item) limits.maxBodyBytes)

/-! ## Sending -/

/-- The request id of a chunk; an empty one counts as none. -/
def chunkRequestId (requestId : Option String) (index total : ℕ) : Option String :=
  match requestId with
  | none => none
  | some base =>
    if base = "" then none
    else if 1 < total then some (base ++ ":" ++ toString (index + 1) ++ "/" ++ toString total)
    else some base

/-- The body of a request. -/
def requestBody (bulk : Bulk) (requestId : Option String) (chunk : List Json) : Json :=
  match requestId with
  | none => .object [(bulk.key, .array chunk)]
  | some id => .object [(bulk.key, .array chunk), ("request_id", .string id)]

/-- What `create_batch` and `bulk_upsert` send, once the chunks are planned. -/
def requests (bulk : Bulk) (requestId : Option String) (chunks : List (List Json)) : List Json :=
  chunks.mapIdx fun index chunk =>
    requestBody bulk (chunkRequestId requestId index chunks.length) chunk

/-- An item fits into a request on its own. -/
def FitsAlone (bulk : Bulk) (requestId : Option String) (limits : Limits) (item : Json) : Prop :=
  size (requestBody bulk (chunkRequestId requestId 0 1) [item]) ≤ limits.maxBodyBytes

/-- Chunks and what is sent for them: the items in order, in requests that are not empty, not too
long and not too large. -/
structure SentWell (bulk : Bulk) (requestId : Option String) (limits : Limits) (items : List Json)
    (chunks : List (List Json)) : Prop where
  flatten_eq : chunks.flatten = items
  nonempty : ∀ chunk ∈ chunks, chunk ≠ []
  length_le : ∀ chunk ∈ chunks, chunk.length ≤ limits.maxBatchItems
  size_le : ∀ body ∈ requests bulk requestId chunks, size body ≤ limits.maxBodyBytes

/-- The items are split and sent as they should be, if each of them fits into a request on its
own; otherwise an error is raised and there is nothing to send. -/
structure BatchesWell (bulk : Bulk) (requestId : Option String) (limits : Limits)
    (items : List Json) : Prop where
  sent : ∀ chunks, chunkItems bulk limits items = .ok chunks →
    SentWell bulk requestId limits items chunks
  raised_iff : (∃ e, chunkItems bulk limits items = .error e)
    ↔ ∃ item ∈ items, ¬ FitsAlone bulk requestId limits item

/-! ## Sizes -/

/-- The envelope with its items takes what the planning helper counts. -/
theorem size_body (bulk : Bulk) (chunk : List Json) :
    size (requestBody bulk none chunk) = overhead bulk.key + joined size chunk := by
  simp only [requestBody, overhead, size, encodeJson, encodeFields, String.utf8ByteSize_append,
    size_encodeItems]
  simp only [joined]
  omega

/-- A request id takes more. -/
theorem size_body_lt (bulk : Bulk) (id : String) (chunk : List Json) :
    size (requestBody bulk none chunk) < size (requestBody bulk (some id) chunk) := by
  have hcomma : ("," : String).utf8ByteSize = 1 := rfl
  simp only [requestBody, size, encodeJson, encodeFields, String.utf8ByteSize_append]
  omega

/-- Without a request id every body is the envelope with its items. -/
theorem mem_requests_none {bulk : Bulk} {requestId : Option String}
    (hnone : requestId = none ∨ requestId = some "") {chunks : List (List Json)} {body : Json}
    (h : body ∈ requests bulk requestId chunks) :
    ∃ chunk ∈ chunks, body = requestBody bulk none chunk := by
  obtain ⟨index, hindex, rfl⟩ := List.mem_mapIdx.mp h
  refine ⟨chunks[index], List.getElem_mem hindex, ?_⟩
  rcases hnone with rfl | rfl <;> rfl

/-! ## Without a request id -/

/-- A planned chunk fits without a request id. -/
theorem chunkItems_ok {bulk : Bulk} {limits : Limits} {items : List Json}
    {chunks : List (List Json)} (h : chunkItems bulk limits items = .ok chunks) :
    chunks.flatten = items ∧ ∀ chunk ∈ chunks,
      Packing.Fits size (overhead bulk.key) limits.maxBodyBytes limits.maxBatchItems chunk := by
  rw [chunkItems] at h
  split at h
  next hpack =>
    cases h
    exact Packing.pack_ok limits.maxBatchItems_pos hpack
  next => cases h

theorem fitsAlone_none_iff {bulk : Bulk} {requestId : Option String}
    (hnone : requestId = none ∨ requestId = some "") {limits : Limits} {item : Json} :
    FitsAlone bulk requestId limits item
      ↔ overhead bulk.key + size item ≤ limits.maxBodyBytes := by
  have hid : chunkRequestId requestId 0 1 = none := by
    rcases hnone with rfl | rfl <;> rfl
  rw [FitsAlone, hid, size_body]
  rfl

/-- **Without a request id** everything fits. -/
theorem batchesWell_none {bulk : Bulk} {requestId : Option String}
    (hnone : requestId = none ∨ requestId = some "") (limits : Limits) (items : List Json) :
    BatchesWell bulk requestId limits items := by
  have hfails : (∃ e, pack size (overhead bulk.key) limits.maxBodyBytes limits.maxBatchItems items
      = .error e) ↔ ∃ item ∈ items, limits.maxBodyBytes < overhead bulk.key + size item :=
    Packing.pack_isError_iff
  constructor
  · intro chunks hchunks
    obtain ⟨hflatten, hfits⟩ := chunkItems_ok hchunks
    refine ⟨hflatten, fun chunk h => (hfits chunk h).nonempty,
      fun chunk h => (hfits chunk h).length_le, ?_⟩
    intro body hbody
    obtain ⟨chunk, hchunk, rfl⟩ := mem_requests_none hnone hbody
    rw [size_body]
    exact (hfits chunk hchunk).weight_le
  · simp only [fitsAlone_none_iff hnone, Nat.not_le]
    rw [← hfails, chunkItems]
    cases pack size (overhead bulk.key) limits.maxBodyBytes limits.maxBatchItems items with
    | ok chunks => simp
    | error item => simp

/-! ## With a request id -/

/-- An item of a given size above the least: an event with that much context, or a product with
that much description. -/
def padded (bulk : Bulk) (pad : ℕ) : Json :=
  match bulk with
  | .events => .object [("event_id", .string "e-1"), ("event_type", .string "view"),
      ("context", .object [("page", .string (String.ofList (List.replicate pad 'x')))]),
      ("occurred_at", .string "2026-01-01T00:00:00+00:00")]
  | .products => .object [("external_id", .string "p-1"), ("title", .string "P"),
      ("description", .string (String.ofList (List.replicate pad 'x'))),
      ("price", .string "0.00"), ("is_active", .bool true),
      ("availability_status", .string "available"), ("metadata", .object [])]

theorem size_pad (pad : ℕ) :
    (encodeString (String.ofList (List.replicate pad 'x'))).utf8ByteSize = pad + 2 := by
  have hescape : (escape (List.replicate pad 'x')).utf8ByteSize = pad := by
    induction pad with
    | zero => rfl
    | succ pad ih =>
      rw [List.replicate_succ, escape, String.utf8ByteSize_append, ih]
      have hchar : (escapeChar 'x').utf8ByteSize = 1 := by decide
      omega
  have hquote : ("\"" : String).utf8ByteSize = 1 := rfl
  rw [encodeString, String.utf8ByteSize_append, String.utf8ByteSize_append, String.toList_ofList,
    hescape]
  omega

/-- Padding adds to the size of the item. -/
theorem size_padded (bulk : Bulk) (pad : ℕ) :
    size (padded bulk pad) = size (padded bulk 0) + pad := by
  cases bulk <;>
  · simp only [padded, size, encodeJson, encodeFields, String.utf8ByteSize_append, size_pad]
    omega

/-- An item that fits to the byte without a request id. -/
theorem exists_full (bulk : Bulk) (limits : Limits) :
    ∃ item, overhead bulk.key + size item = limits.maxBodyBytes := by
  have hleast : overhead bulk.key + size (padded bulk 0) ≤ 1024 := by
    cases bulk <;> decide +kernel
  refine ⟨padded bulk (limits.maxBodyBytes - (overhead bulk.key + size (padded bulk 0))), ?_⟩
  have hge := limits.maxBodyBytes_ge
  rw [size_padded]
  omega

/-- Sent with a request id, such an item makes a body that is too large. -/
theorem not_batchesWell {bulk : Bulk} {id : String} (hid : id ≠ "") {limits : Limits} {item : Json}
    (hfull : overhead bulk.key + size item = limits.maxBodyBytes) :
    ¬ BatchesWell bulk (some id) limits [item] := by
  have hpack : pack size (overhead bulk.key) limits.maxBodyBytes limits.maxBatchItems [item]
      = .ok [[item]] := Packing.pack_singleton hfull.le
  have hchunks : chunkItems bulk limits [item] = .ok [[item]] := by
    rw [chunkItems, hpack]
  have hsent : requestBody bulk (some id) [item] ∈ requests bulk (some id) [[item]] := by
    simp [requests, chunkRequestId, hid]
  intro h
  have hfits := (h.sent _ hchunks).size_le _ hsent
  have hlarger := size_body_lt bulk id [item]
  rw [size_body] at hlarger
  simp only [joined] at hlarger
  omega

/-- **Batching.**  All items are batched as they should be, within any limits, exactly when no
request id is passed. -/
theorem batching_iff (bulk : Bulk) (requestId : Option String) (limits : Limits) :
    (∀ items, BatchesWell bulk requestId limits items)
      ↔ requestId = none ∨ requestId = some "" := by
  constructor
  · intro h
    cases requestId with
    | none => exact .inl rfl
    | some id =>
      by_contra hid
      rw [not_or, Option.some.injEq] at hid
      obtain ⟨item, hfull⟩ := exists_full bulk limits
      exact not_batchesWell hid.2 hfull (h [item])
  · intro hnone items
    exact batchesWell_none hnone limits items

/-- The least limit that a client accepts. -/
def smallLimits : Limits := ⟨1024, 500, Nat.le_refl _, Nat.succ_pos _⟩

/-- An event of 1011 bytes. -/
def fullEvent : Json := padded .events 909

/-- The event fits into a request of 1024 bytes; with a request id its request has 1046. -/
theorem requestId_too_large :
    ¬ ∀ (bulk : Bulk) (requestId : Option String) (limits : Limits) (items : List Json),
      BatchesWell bulk requestId limits items := by
  intro h
  have hid : "sync-1" ≠ "" := by decide
  have hfull : overhead Bulk.events.key + size fullEvent = smallLimits.maxBodyBytes := by
    rw [fullEvent, size_padded]
    decide +kernel
  exact not_batchesWell hid hfull (h .events (some "sync-1") smallLimits [fullEvent])

end Sdk
