import GraphRec.Lib.Transactions
import GraphRec.Recommendations.Store

/-!
# Serving a recommendation and taking feedback

* `getRecommendations` — `get_recommendations` with `_serve_and_record`;
* `submitFeedback` — `submit_feedback`;
* `putProduct`, `addCustomer` — what the catalogue and the customers do meanwhile.

A recommendation is given the outcome of admission and of the pipeline, whatever they are; the
counters of admission are the matter of `Usage`.  The lock of a request identifier is the
advisory lock, that of an event the wait of `INSERT ... ON CONFLICT DO NOTHING` for another
insert of the same key.
-/

namespace Recommendations

open Api Transactions
open Serving (Product)

/-- What requests wait for. -/
inductive LockKey
  | request (tenant : TenantId) (id : RequestId)
  | event (tenant : TenantId) (id : EventId)
  deriving DecidableEq, Repr

/-- What a request has found out. -/
inductive Note
  /-- It was not served, and its locks are given up. -/
  | failed
  deriving DecidableEq, Repr

/-- Why the database fails a statement. -/
inductive Constraint
  | unique | foreignKey | rowSecurity
  deriving DecidableEq, Repr

/-- What a request answers. -/
inductive Answer
  | served (response : RecommendationResponse)
  | replayed (response : RecommendationResponse)
  | accepted (eventId : EventId) (feedbackType : FeedbackType) (duplicate : Bool)
      (receivedAt : Time)
  | done
  | error (e : ApiError)
  deriving DecidableEq, Repr

/-- The requests, as transactions. -/
abbrev Transaction := Prog LockKey Store Note Constraint Answer

/-! ## Recommendations -/

/-- A call of `get_recommendations`: the identifier it draws if it is given none, the error of
admission, and what the pipeline comes up with. -/
structure RecommendationCall where
  tenant : TenantId
  payload : RecommendationRequest
  drawn : RequestId
  admission : Option ApiError
  outcome : Except ApiError Outcome

def requestConflict : ApiError :=
  { statusCode := 409, code := "idempotency_conflict"
    message := "This request identifier was already used with different input." }

def recommendationExpired : ApiError :=
  { statusCode := 409, code := "recommendation_expired"
    message := "Catalog eligibility changed. Submit a new request identifier." }

def notRecorded : ApiError :=
  { statusCode := 503, code := "service_unavailable"
    message := "The recommendation could not be recorded. Retry with the same request identifier."
    retryable := true }

/-- The rows of `_record_serving_request`. -/
def Store.recordServing (s : Store) (row : ServingRequest) : Store :=
  { s with
    servingRequests := s.servingRequests ++ [row]
    usageEvents := s.usageEvents ++
      [⟨row.tenant, "recommendation_requests", 1, row.occurredAt⟩] }

/-- The row of a request that was not served. -/
def errorRow (tenant : TenantId) (now : Time) : ServingRequest :=
  ⟨tenant, none, "none", "error", false, 0, now⟩

/-- `_record_serving_request` after a rollback, which ends the tenant's setting as well: the
policies of both tables reject the rows. -/
def recordUnserved (_row : ServingRequest) (_s : Store) : Except Constraint Store :=
  .error .rowSecurity

/-- The row of a request that was served. -/
def servedRow (tenant : TenantId) (response : RecommendationResponse) (now : Time) :
    ServingRequest :=
  ⟨tenant, response.modelVersionId, response.strategy, "served", response.fallbackUsed,
    response.items.length, now⟩

/-- `candidate_source` of an item. -/
def candidateSource (response : RecommendationResponse) (item : RecommendationItem) : String :=
  (item.sources.head?.getD
    (if response.fallbackUsed then response.fallbackTier else "model_retrieval")).take 48 |>.toString

/-- The rows of the results of a response. -/
def resultRows (tenant : TenantId) (response : RecommendationResponse) (now : Time) :
    List (ResultId × RecommendationResult) :=
  response.items.map fun item =>
    (⟨tenant, response.requestId, item.position⟩,
      ⟨item.externalProductId, candidateSource response item, response.strategy, now⟩)

/-- The rows of a recommendation that was served; products are unique in it, and stored. -/
def writeRecommendation (tenant : TenantId) (payload : RecommendationRequest)
    (customer : Option String) (response : RecommendationResponse) (now : Time) (s : Store) :
    Except Constraint Store :=
  if (s.records.get? (tenant, response.requestId)).isSome
      || decide (¬ (response.items.map RecommendationItem.externalProductId).Nodup) then
    .error .unique
  else if response.items.any fun item =>
      (s.products.get? (tenant, item.externalProductId)).isNone then .error .foreignKey
  else .ok ({ s with
    records := s.records.insert (tenant, response.requestId) ⟨customer, payload, response, now⟩
    results := s.results.insertAll (resultRows tenant response now) }.recordServing
      (servedRow tenant response now))

/-- `_serve_and_record`. -/
def serveAndRecord (c : RecommendationCall) (id : RequestId) : Transaction :=
  match serve c.payload id c.outcome with
  | .error e => .note .failed <| .rollback <| .clock fun now =>
      -- what rejects the rows is logged, and not raised
      .attempt (recordUnserved (errorRow c.tenant now)) (.error e) fun _ => .done (.error e)
  | .ok response => .look fun s =>
      let customer := c.payload.userId.filter fun user => decide ((c.tenant, user) ∈ s.customers)
      .clock fun now =>
        .attempt (writeRecommendation c.tenant c.payload customer response now) (.served response)
          fun _ => .note .failed <| .done (.error notRecorded)

/-- Admission, then `_serve_and_record`. -/
def admitAndServe (c : RecommendationCall) (id : RequestId) : Transaction :=
  match c.admission with
  | some e => .done (.error e)
  | none => serveAndRecord c id

/-- The answer to a request whose identifier is used. -/
def replay (c : RecommendationCall) (row : RecommendationRecord) (s : Store) : Answer :=
  if row.request ≠ c.payload then .error requestConflict
  else if s.eligible c.tenant row.response then .replayed row.response
  else .error recommendationExpired

/-- `get_recommendations`. -/
def getRecommendations (c : RecommendationCall) : Transaction :=
  match c.payload.requestId with
  | some id => .lock (.request c.tenant id) <| .look fun s =>
      match s.records.get? (c.tenant, id) with
      | some row => .answer (replay c row)
      | none => admitAndServe c id
  -- no one else knows the identifier that is drawn, so its lock is free and takes nothing
  | none => .lock (.request c.tenant c.drawn) (admitAndServe c c.drawn)

/-! ## Feedback -/

/-- A call of `submit_feedback`, with the time for `occurred_at` when it was not sent. -/
structure FeedbackCall where
  tenant : TenantId
  submission : Feedback
  validatedAt : Time
  deriving DecidableEq, Repr

def feedbackConflict : ApiError :=
  { statusCode := 409, code := "idempotency_conflict"
    message := "This feedback identifier was already used for a different submission." }

def resultNotFound : ApiError :=
  { statusCode := 404, code := "resource_not_found"
    message := "Recommendation result not found." }

def productsNotInResult : ApiError :=
  { statusCode := 422, code := "invalid_feedback_reference"
    message := "Feedback products and positions must match the referenced recommendation." }

def impressionNotInResult : ApiError :=
  { statusCode := 422, code := "invalid_feedback_reference"
    message := "The impression does not belong to this recommendation." }

/-- The key of a submission. -/
def FeedbackCall.key (c : FeedbackCall) : TenantId × EventId := (c.tenant, c.submission.eventId)

/-- The answer to a submission whose event is stored. -/
def duplicateOf (c : FeedbackCall) (row : RecommendationFeedback) : Answer :=
  if row.submission ≠ c.submission then .error feedbackConflict
  else .accepted c.submission.eventId row.feedbackType true row.receivedAt

/-- Are the products that are named in the recorded result? -/
def allowed (submission : Feedback) (results : List (ResultId × RecommendationResult)) : Bool :=
  !submission.submitted.isEmpty &&
    submission.submitted.all fun named => results.any (matchesResult named)

/-- `selected_result`. -/
def selectedResult (submission : Feedback) (results : List (ResultId × RecommendationResult)) :
    Option ResultId :=
  if submission.kind = .impression then none
  else (results.find? fun row => submission.submitted.all fun named => matchesResult named row).map
    Prod.fst

/-- Does the linked impression belong to the same request? -/
def Store.linksImpression (s : Store) (c : FeedbackCall) (id : EventId) : Bool :=
  (s.feedback.get? (c.tenant, id)).any fun row =>
    decide (row.feedbackType = .impression) && decide (row.requestId = c.submission.requestId)

/-- The row of a submission. -/
def FeedbackCall.row (c : FeedbackCall) (result : Option ResultId) (now : Time) :
    RecommendationFeedback where
  requestId := c.submission.requestId
  recommendationResultId := result
  feedbackType := c.submission.kind
  submission := c.submission
  payload := c.submission.body c.validatedAt
  receivedAt := now

/-- `INSERT ... ON CONFLICT DO NOTHING`, and what follows. -/
def insertFeedback (c : FeedbackCall) (result : Option ResultId) : Transaction :=
  .clock fun now => .lock (.event c.tenant c.submission.eventId) <| .look fun s =>
    match s.feedback.get? c.key with
    | none => .commit (fun s => .ok { s with feedback := s.feedback.insert c.key (c.row result now) })
        (.accepted c.submission.eventId c.submission.kind false now)
    | some row =>
        if row.submission ≠ c.submission then .done (.error feedbackConflict)
        else .commit .ok (.accepted c.submission.eventId c.submission.kind true row.receivedAt)

/-- `submit_feedback`. -/
def submitFeedback (c : FeedbackCall) : Transaction :=
  .look fun s =>
    match s.feedback.get? c.key with
    | some row => .done (duplicateOf c row)
    | none => .look fun s =>
        match s.records.get? (c.tenant, c.submission.requestId) with
        | none => .done (.error resultNotFound)
        | some _ => .look fun s =>
            let results := s.resultsOf c.tenant c.submission.requestId
            if allowed c.submission results = false then .done (.error productsNotInResult)
            else
              let result := selectedResult c.submission results
              match c.submission.linked with
              | none => insertFeedback c result
              | some id => .look fun s =>
                  if s.linksImpression c id then insertFeedback c result
                  else .done (.error impressionNotInResult)

/-! ## The catalogue and the customers -/

/-- A product is stored, or changes. -/
def putProduct (tenant : TenantId) (id : ProductId) (row : Product) : Transaction :=
  .commit (fun s => .ok { s with
    products := (s.products.insert (tenant, id) row).update (tenant, id) fun _ => row }) .done

/-- A customer is stored. -/
def addCustomer (tenant : TenantId) (id : String) : Transaction :=
  .commit (fun s => .ok { s with customers := s.customers ++ [(tenant, id)] }) .done

end Recommendations
