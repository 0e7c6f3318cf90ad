import GraphRec.Dgsr.Export
import GraphRec.Dgsr.Positions
import GraphRec.Lib.Text
import GraphRec.Serving.Rules

/-!
# The request, the catalogue and the query

What a recommendation request reads: the tenant's products and events, the
active model, and the first stage of the pipeline, `buildQuery`, which turns a
shopper's stored and session history into a query of the model.

The weights of the network are not modelled: a `ServedModel` is an artifact with
the scores it gives for an encoded shopper, and the vectors of its items.
-/

namespace Serving

/-! ## The catalogue -/

/-- A row of `products`. -/
structure Product where
  externalId : String
  category : Option String
  createdAt : ℤ
  isActive : Bool
  availabilityStatus : String
  deriving DecidableEq, Repr

/-- `SERVABLE_AVAILABILITY`. -/
def servableAvailability : String := "available"

/-- `servable`. -/
def Product.servable (p : Product) : Bool :=
  p.isActive && decide (p.availabilityStatus = servableAvailability)

/-- A tenant's products; the external id is unique (`uq_products_tenant_external`). -/
structure Catalogue where
  products : List Product
  unique : (products.map Product.externalId).Nodup

/-- The product can be served. -/
def Catalogue.Servable (catalogue : Catalogue) (item : String) : Prop :=
  ∃ p ∈ catalogue.products, p.externalId = item ∧ p.servable = true

/-- `eligible_meta`: the category and age of the servable products among `items`. -/
def Catalogue.eligibleMeta (catalogue : Catalogue) (items : List String) (item : String) :
    Option ProductMeta :=
  (catalogue.products.find? fun p =>
    decide (p.externalId = item) && decide (p.externalId ∈ items) && p.servable).map
      fun p => ⟨p.category, p.createdAt⟩

theorem Catalogue.servable_of_eligibleMeta {catalogue : Catalogue} {items : List String}
    {item : String} (h : (catalogue.eligibleMeta items item).isSome) :
    catalogue.Servable item := by
  rw [eligibleMeta, Option.isSome_map] at h
  obtain ⟨p, hp⟩ := Option.isSome_iff_exists.mp h
  have hfound := List.find?_some hp
  simp only [Bool.and_eq_true, decide_eq_true_eq] at hfound
  exact ⟨p, List.mem_of_find?_eq_some hp, hfound.1.1, hfound.2⟩

/-! ## Events -/

/-- `event_type`; the types that carry no history are one. -/
inductive EventType
  | view | click | addToCart | purchase | rating | addToWishlist | other
  deriving DecidableEq, Repr

/-- `HISTORY_EVENT_TYPES`. -/
def historyEventTypes : List EventType :=
  [.view, .click, .addToCart, .purchase, .rating, .addToWishlist]

/-- A row of `customer_events`; times are in microseconds. -/
structure CustomerEvent where
  eventType : EventType
  userId : Option String
  externalProductId : Option String
  occurredAt : ℤ
  createdAt : ℤ
  deriving DecidableEq, Repr

/-- `HISTORY_LIMIT` and `SESSION_ITEMS_LIMIT`. -/
def historyLimit : ℕ := 1000
def sessionItemsLimit : ℕ := 50

/-- The order of `stored_history`'s query: the latest first. -/
def CustomerEvent.later (a b : CustomerEvent) : Prop :=
  b.occurredAt < a.occurredAt ∨ a.occurredAt = b.occurredAt ∧ b.createdAt ≤ a.createdAt

instance : DecidableRel CustomerEvent.later := fun a b =>
  inferInstanceAs (Decidable (b.occurredAt < a.occurredAt ∨
    a.occurredAt = b.occurredAt ∧ b.createdAt ≤ a.createdAt))

/-- `stored_history`: the latest history events of a user, oldest first. -/
def storedHistory (events : List CustomerEvent) (userId : String) : List (String × ℤ) :=
  let rows := (events.filter fun e =>
    decide (e.userId = some userId) && e.externalProductId.isSome &&
      decide (e.eventType ∈ historyEventTypes)).insertionSort CustomerEvent.later
  ((rows.take historyLimit).filterMap fun e =>
    e.externalProductId.map fun product => (product, e.occurredAt)).reverse

/-! ## The request -/

/-- The hints of `RecommendationContext` that the pipeline reads. -/
structure Context where
  sessionId : Option String
  recentProductIds : Option (List String)

/-- `RecommendationRequest`. -/
structure Request (R : Type) where
  userId : Option String
  topN : ℕ
  excludeProductIds : List String
  context : Context
  fallbackAllowed : Bool
  diversity : Option R

/-- A character that `str.strip` removes. -/
def isSpace (c : Char) : Bool := Text.isSpace c

/-- `session_items`: the last entries of the session that are not blank. -/
def sessionItems (context : Context) : List String :=
  (((context.recentProductIds.getD []).filter fun v => v.any fun c => !isSpace c)).rtake
    sessionItemsLimit

/-- A customer id that is given and not empty. -/
def Request.user {R : Type} (request : Request R) : Option String :=
  request.userId.filter (· ≠ "")

/-- The shopper's history: what is stored, then the session, at the time `now`. -/
def shopperHistory {R : Type} (events : List CustomerEvent) (request : Request R) (now : ℤ) :
    List (String × ℤ) :=
  (match request.user with
    | some user => storedHistory events user
    | none => []) ++ (sessionItems request.context).map fun item => (item, now)

/-- The products a shopper has seen. -/
def seenItems {R : Type} (events : List CustomerEvent) (request : Request R) (now : ℤ) :
    List String :=
  firstOccurrences ((shopperHistory events request now).map Prod.fst)

/-! ## The model and the query -/

/-- `strategy`. -/
inductive Strategy
  | popularFallback | personalized | session | developmentPlaceholder
  deriving DecidableEq, Repr

/-- `Encoded`: the sample the network encodes, and how it was taken. -/
structure Encoded where
  sample : Dgsr.GraphSample
  strategy : Strategy
  knownUser : Bool
  historyLength : ℕ

/-- Anything a source raises. -/
inductive SourceError
  | raised
  deriving DecidableEq, Repr

/-- A loaded artifact: `score` gives the scores of all items for an encoded
shopper, `unitItems` the rows of `unit_item_table`. -/
structure ServedModel (R : Type) where
  artifact : Dgsr.Artifact
  score : Encoded → Except SourceError (ℕ → R)
  unitItems : ℕ → List R

namespace ServedModel

variable {R : Type} (model : ServedModel R)

/-- `item_index` and `user_index`. -/
def itemIndex (item : String) : Option ℕ := model.artifact.data.itemIds.idxOf? item
def userIndex (user : String) : Option ℕ := model.artifact.data.userIds.idxOf? user

/-- `known_history`. -/
def knownHistory (user : ℕ) : List String :=
  (model.artifact.data.byUser user).map fun e =>
    (model.artifact.data.itemIds[model.artifact.data.item e]?).getD ""

end ServedModel

/-- What building a query raises. -/
inductive QueryError
  | artifact
  | encode (error : Dgsr.EncodeError)
  deriving DecidableEq, Repr

/-- `Query`. -/
structure Query (R : Type) where
  model : ServedModel R
  encoded : Option Encoded
  history : List String
  seen : List String

/-- The events of a shopper's history whose items the model knows, with their seconds. -/
def modelEvents {R : Type} (model : ServedModel R) (events : List CustomerEvent)
    (request : Request R) (now : ℤ) : List Dgsr.HistoryEvent :=
  (shopperHistory events request now).filterMap fun (item, time) =>
    (model.itemIndex item).map fun index => ⟨index, Dgsr.epochSeconds time⟩

/-- `build_query`, the artifact loaded.  A known user whose history is the one of
the training graph is encoded there, any other history as a virtual root. -/
def buildQuery {R : Type} (model : ServedModel R) (events : List CustomerEvent)
    (request : Request R) (now : ℤ) : Except QueryError (Query R) :=
  let history := shopperHistory events request now
  let items := history.map Prod.fst
  let seen := firstOccurrences items
  if history = [] then .ok ⟨model, none, items, seen⟩
  else
    let user := request.user.bind model.userIndex
    let known := user.filter fun user => sessionItems request.context = [] ∧
      seen.insertionSort (· ≤ ·) = (model.knownHistory user).dedup.insertionSort (· ≤ ·)
    match known with
    | some user =>
        match Dgsr.encodeKnown model.artifact user with
        | .error e => .error (.encode e)
        | .ok sample =>
            .ok ⟨model, some ⟨sample, .personalized, true,
              (model.artifact.data.byUser user).length⟩, items, seen⟩
    | none =>
        let known := modelEvents model events request now
        if known = [] then .ok ⟨model, none, items, seen⟩
        else
          match Dgsr.encodeHistory model.artifact known user with
          | .error e => .error (.encode e)
          | .ok sample =>
              .ok ⟨model, some ⟨sample, if user.isSome then .personalized else .session,
                user.isSome, known.length⟩, items, seen⟩

/-- A query knows what the shopper has seen, and its strategy is one of the two
personal ones. -/
theorem buildQuery_spec {R : Type} {model : ServedModel R} {events : List CustomerEvent}
    {request : Request R} {now : ℤ} {q : Query R}
    (h : buildQuery model events request now = .ok q) :
    q.seen = seenItems events request now ∧
      ∀ encoded, q.encoded = some encoded →
        encoded.strategy = .personalized ∨ encoded.strategy = .session := by
  unfold buildQuery at h
  dsimp only at h
  split at h
  · cases h
    exact ⟨rfl, fun encoded hencoded => by cases hencoded⟩
  · split at h
    · split at h
      · cases h
      · cases h
        exact ⟨rfl, fun encoded hencoded => .inl (by cases hencoded; rfl)⟩
    · split at h
      · cases h
        exact ⟨rfl, fun encoded hencoded => by cases hencoded⟩
      · split at h
        · cases h
        · cases h
          refine ⟨rfl, fun encoded hencoded => ?_⟩
          cases hencoded
          dsimp only
          split
          · exact .inl rfl
          · exact .inr rfl

end Serving
