import GraphRec.Api.Error
import GraphRec.Lib.Table
import GraphRec.Serving.Query

/-!
# Recommendations and the feedback on them

The rows that a recommendation leaves and that feedback refers to, and the payloads of both.

* `RecommendationResponse`, `serve` — what is served, from what the pipeline came up with;
* `ImpressionFeedback`, `ClickFeedback`, `ConversionFeedback` — a field that the client need not
  send is `none` when it was not sent;
* `Feedback.body`, `Feedback.submitted` — what is stored of a submission, and the products and
  positions it names.

The hashes of the source are taken as collision-free: a row holds what is hashed.
-/

namespace Recommendations

open Api
open Serving (Product)

abbrev TenantId := ℕ
abbrev ModelId := ℕ
abbrev Time := ℕ
abbrev RequestId := String
abbrev EventId := String
abbrev ProductId := String

/-! ## Serving -/

/-- `RecommendationRequest`; the context is its dump. -/
structure RecommendationRequest where
  requestId : Option RequestId
  userId : Option String
  topN : ℕ
  excludeProductIds : List ProductId
  context : String
  fallbackAllowed : Bool
  diversity : Option String
  explain : Bool
  deriving DecidableEq, Repr

/-- `RecommendationItem`, less the explanation. -/
structure RecommendationItem where
  externalProductId : ProductId
  position : ℤ
  sources : List String
  deriving DecidableEq, Repr

/-- `RecommendationResponse`, less the explanation. -/
structure RecommendationResponse where
  requestId : RequestId
  items : List RecommendationItem
  modelVersionId : Option ModelId
  activeModelVersionId : Option ModelId
  strategy : String
  fallbackUsed : Bool
  fallbackTier : String
  deriving DecidableEq, Repr

/-- What `glassbox.run` came up with: the products with their sources, and the active model. -/
structure Outcome where
  items : List (ProductId × List String)
  activeModel : Option ModelId
  modelServed : Bool
  strategy : String
  fallbackUsed : Bool
  fallbackTier : String
  deriving DecidableEq, Repr

def recommendationUnavailable : ApiError :=
  { statusCode := 503, code := "recommendation_unavailable"
    message := "Personalized recommendations are unavailable for this customer or session. " ++
      "Enable fallback or provide usable history." }

/-- The items of a response, from a position on. -/
def responseItems : ℤ → List (ProductId × List String) → List RecommendationItem
  | _, [] => []
  | position, (product, sources) :: items =>
      ⟨product, position, sources⟩ :: responseItems (position + 1) items

/-- `_serve`, of what the pipeline came up with or raised. -/
def serve (payload : RecommendationRequest) (id : RequestId) (outcome : Except ApiError Outcome) :
    Except ApiError RecommendationResponse :=
  match outcome with
  | .error e => .error e
  | .ok outcome =>
      if outcome.items = [] ∧ payload.fallbackAllowed = false then .error recommendationUnavailable
      else .ok
        { requestId := id
          items := responseItems 1 outcome.items
          modelVersionId := if outcome.modelServed then outcome.activeModel else none
          activeModelVersionId := outcome.activeModel
          strategy := outcome.strategy
          fallbackUsed := outcome.fallbackUsed
          fallbackTier := outcome.fallbackTier }

/-- What is served under an identifier. -/
theorem serve_ok {payload : RecommendationRequest} {id : RequestId}
    {outcome : Except ApiError Outcome} {response : RecommendationResponse}
    (h : serve payload id outcome = .ok response) :
    response.requestId = id ∧ ∃ items, response.items = responseItems 1 items := by
  unfold serve at h
  split at h
  · cases h
  · split at h
    · cases h
    · cases h
      exact ⟨rfl, _, rfl⟩

/-- The positions count up. -/
theorem position_responseItems {position : ℤ} {items : List (ProductId × List String)}
    {item : RecommendationItem} (h : item ∈ responseItems position items) :
    position ≤ item.position := by
  induction items generalizing position with
  | nil => cases h
  | cons head items ih =>
      rcases List.mem_cons.mp h with rfl | htail
      · exact le_refl position
      · have hnext := ih htail
        omega

/-- No two items have one position. -/
theorem positions_nodup (position : ℤ) (items : List (ProductId × List String)) :
    ((responseItems position items).map RecommendationItem.position).Nodup := by
  induction items generalizing position with
  | nil => exact List.nodup_nil
  | cons head items ih =>
      refine List.nodup_cons.mpr ⟨?_, ih (position + 1)⟩
      intro hmem
      obtain ⟨item, hitem, hsame⟩ := List.mem_map.mp hmem
      have hnext := position_responseItems hitem
      dsimp only at hsame
      omega

/-! ## Feedback -/

/-- `feedback_type`. -/
inductive FeedbackType
  | impression | click | conversion
  deriving DecidableEq, Repr

/-- `FeedbackItem`. -/
structure FeedbackItem where
  externalProductId : ProductId
  position : ℤ
  deriving DecidableEq, Repr

/-- `ImpressionFeedback`. -/
structure ImpressionFeedback where
  eventId : EventId
  requestId : RequestId
  items : List FeedbackItem
  occurredAt : Option Time
  context : Option String
  deriving DecidableEq, Repr

/-- `ClickFeedback`. -/
structure ClickFeedback where
  eventId : EventId
  requestId : RequestId
  impressionEventId : Option (Option EventId)
  externalProductId : ProductId
  position : ℤ
  occurredAt : Option Time
  context : Option String
  deriving DecidableEq, Repr

/-- `ConversionFeedback`; the value is a decimal numeral. -/
structure ConversionFeedback where
  eventId : EventId
  requestId : RequestId
  externalProductId : ProductId
  position : Option (Option ℤ)
  value : Option (Option String)
  occurredAt : Option Time
  context : Option String
  deriving DecidableEq, Repr

/-- A submission, with its kind; as sent, it is what is hashed. -/
inductive Feedback
  | impression (payload : ImpressionFeedback)
  | click (payload : ClickFeedback)
  | conversion (payload : ConversionFeedback)
  deriving DecidableEq, Repr

namespace Feedback

def kind : Feedback → FeedbackType
  | .impression _ => .impression
  | .click _ => .click
  | .conversion _ => .conversion

def eventId : Feedback → EventId
  | .impression payload => payload.eventId
  | .click payload => payload.eventId
  | .conversion payload => payload.eventId

def requestId : Feedback → RequestId
  | .impression payload => payload.requestId
  | .click payload => payload.requestId
  | .conversion payload => payload.requestId

/-- `model_dump`, with the defaults of the fields that were not sent. -/
def body (receivedAt : Time) : Feedback → Feedback
  | .impression payload => .impression
      { payload with
        occurredAt := some (payload.occurredAt.getD receivedAt)
        context := some (payload.context.getD "\x7b\x7d") }
  | .click payload => .click
      { payload with
        impressionEventId := some (payload.impressionEventId.getD none)
        occurredAt := some (payload.occurredAt.getD receivedAt)
        context := some (payload.context.getD "\x7b\x7d") }
  | .conversion payload => .conversion
      { payload with
        position := some (payload.position.getD none)
        value := some (payload.value.getD none)
        occurredAt := some (payload.occurredAt.getD receivedAt)
        context := some (payload.context.getD "\x7b\x7d") }

/-- `submitted`: the products, with the positions that are given. -/
def submitted : Feedback → List (ProductId × Option ℤ)
  | .impression payload =>
      payload.items.map fun item => (item.externalProductId, some item.position)
  | .click payload => [(payload.externalProductId, some payload.position)]
  | .conversion payload => [(payload.externalProductId, payload.position.getD none)]

/-- The impression that a click is linked to. -/
def linked : Feedback → Option EventId
  | .click payload => (payload.impressionEventId.getD none).filter fun id => decide (id ≠ "")
  | _ => none

@[simp] theorem submitted_body (t : Time) (f : Feedback) : (f.body t).submitted = f.submitted := by
  cases f <;> rfl

@[simp] theorem linked_body (t : Time) (f : Feedback) : (f.body t).linked = f.linked := by
  cases f <;> rfl

@[simp] theorem requestId_body (t : Time) (f : Feedback) : (f.body t).requestId = f.requestId := by
  cases f <;> rfl

@[simp] theorem kind_body (t : Time) (f : Feedback) : (f.body t).kind = f.kind := by
  cases f <;> rfl

end Feedback

/-! ## Rows -/

/-- A row of `recommendation_records`; `request` stands for its hash. -/
structure RecommendationRecord where
  externalCustomerId : Option String
  request : RecommendationRequest
  response : RecommendationResponse
  createdAt : Time
  deriving DecidableEq, Repr

/-- The place of a row of `recommendation_results`, for its identifier. -/
structure ResultId where
  tenant : TenantId
  requestId : RequestId
  rankPosition : ℤ
  deriving DecidableEq, Repr

/-- A row of `recommendation_results`. -/
structure RecommendationResult where
  externalProductId : ProductId
  candidateSource : String
  strategy : String
  createdAt : Time
  deriving DecidableEq, Repr

/-- A row of `recommendation_feedback`; `submission` stands for its hash. -/
structure RecommendationFeedback where
  requestId : RequestId
  recommendationResultId : Option ResultId
  feedbackType : FeedbackType
  submission : Feedback
  payload : Feedback
  receivedAt : Time
  deriving DecidableEq, Repr

/-- A row of `serving_requests`. -/
structure ServingRequest where
  tenant : TenantId
  modelVersionId : Option ModelId
  strategy : String
  outcome : String
  fallbackUsed : Bool
  itemCount : ℕ
  occurredAt : Time
  deriving DecidableEq, Repr

/-- A row of `usage_events`. -/
structure UsageEvent where
  tenant : TenantId
  usageType : String
  quantity : ℕ
  occurredAt : Time
  deriving DecidableEq, Repr

/-- The committed rows. -/
structure Store where
  products : Table (TenantId × ProductId) Product
  customers : List (TenantId × String)
  records : Table (TenantId × RequestId) RecommendationRecord
  results : Table ResultId RecommendationResult
  feedback : Table (TenantId × EventId) RecommendationFeedback
  servingRequests : List ServingRequest
  usageEvents : List UsageEvent

section Lookups

variable (s : Store)

/-- The recorded result of a request. -/
def Store.resultsOf (tenant : TenantId) (id : RequestId) :
    List (ResultId × RecommendationResult) :=
  s.results.rows.filter fun row => decide (row.1.tenant = tenant ∧ row.1.requestId = id)

/-- Does a result have the product, and the position if one is given? -/
def matchesResult (named : ProductId × Option ℤ) (row : ResultId × RecommendationResult) : Bool :=
  decide (row.2.externalProductId = named.1) &&
    named.2.all fun position => decide (row.1.rankPosition = position)

/-- Are all items of a response servable? -/
def Store.eligible (tenant : TenantId) (response : RecommendationResponse) : Bool :=
  response.items.all fun item =>
    (s.products.get? (tenant, item.externalProductId)).any Product.servable

end Lookups

end Recommendations
