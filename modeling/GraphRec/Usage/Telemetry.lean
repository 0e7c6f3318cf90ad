import GraphRec.Lib.Session
import GraphRec.Auth.Account
import Mathlib.Algebra.BigOperators.Group.List.Basic
import Mathlib.Algebra.GroupWithZero.Nat

/-!
# What a recommendation request leaves in the database

`_serve_and_record` serves an admitted request and records it: a row of
`serving_requests` and one of `usage_events`, the ledger from which the monthly counter
is seeded; a served request also leaves its response for replays.

The tenant of the session is set when the request is authenticated, for the transaction
that is open then.  A request whose serving step raises rolls that transaction back
before it records the error, so the policy of the tables rejects its rows, and the
rejection is logged and swallowed.
-/

namespace Usage

open Auth (TenantId Time)

/-! ## Rows -/

/-- `serving_requests.outcome`. -/
inductive Outcome
  | served | error
  deriving DecidableEq, Repr

/-- A row of `serving_requests`. -/
structure ServingRequest where
  id : Nat
  tenant : TenantId
  modelVersionId : Option Nat
  strategy : String
  outcome : Outcome
  fallbackUsed : Bool
  itemCount : Nat
  latencyMs : Nat
  occurredAt : Time
  deriving DecidableEq, Repr

/-- A row of `usage_events`. -/
structure UsageEvent where
  tenant : TenantId
  usageType : String
  quantity : Nat
  sourceId : Nat
  occurredAt : Time
  deriving DecidableEq, Repr

/-- A row of `recommendation_records`; its key is the tenant with the request id. -/
structure RecommendationRecord where
  tenant : TenantId
  requestId : String
  items : List String
  createdAt : Time
  deriving DecidableEq, Repr

/-- The rows a request adds. -/
inductive Row
  | servingRequest (row : ServingRequest)
  | usageEvent (row : UsageEvent)
  | recommendationRecord (row : RecommendationRecord)
  deriving DecidableEq, Repr

/-- `tenant_id` of a row. -/
def Row.tenant : Row → TenantId
  | .servingRequest row => row.tenant
  | .usageEvent row => row.tenant
  | .recommendationRecord row => row.tenant

/-- The tables, the latest row last. -/
structure Database where
  servingRequests : List ServingRequest
  usageEvents : List UsageEvent
  recommendationRecords : List RecommendationRecord
  deriving DecidableEq, Repr

/-- The record of a request id. -/
def Database.record? (db : Database) (tenant : TenantId) (requestId : String) :
    Option RecommendationRecord :=
  db.recommendationRecords.find? fun row =>
    decide (row.tenant = tenant) && decide (row.requestId = requestId)

/-- `INSERT`: a record of a request id in use is rejected. -/
def Database.insert (db : Database) : Row → Option Database
  | .servingRequest row => some { db with servingRequests := db.servingRequests ++ [row] }
  | .usageEvent row => some { db with usageEvents := db.usageEvents ++ [row] }
  | .recommendationRecord row =>
      match db.record? row.tenant row.requestId with
      | some _ => none
      | none => some { db with recommendationRecords := db.recommendationRecords ++ [row] }

/-- `recommendation_requests`. -/
def recommendationRequests : String := "recommendation_requests"

/-- `ledger_usage` of a dimension between two times. -/
def ledgerUsage (db : Database) (tenant : TenantId) (dimension : String) (start reset : Time) :
    Nat :=
  ((db.usageEvents.filter fun row =>
    decide (row.tenant = tenant) && decide (row.usageType = dimension) &&
      decide (start ≤ row.occurredAt) && decide (row.occurredAt < reset)).map
        UsageEvent.quantity).sum

/-! ## Serving and recording -/

/-- What `_serve` answers. -/
structure Served where
  requestId : String
  modelVersionId : Option Nat
  strategy : String
  fallbackUsed : Bool
  items : List String
  deriving DecidableEq, Repr

/-- The session of a request. -/
abbrev RequestSession := Session TenantId Row

/-- What a request draws and reads while it records: the identifier of its row, the clock,
and the latency. -/
structure Telemetry where
  id : Nat
  now : Time
  latencyMs : Nat
  deriving DecidableEq, Repr

/-- `_record_serving_request`: the database after it, and whether it was recorded. -/
def recordServingRequest (db : Database) (session : RequestSession) (tenant : TenantId)
    (telemetry : Telemetry) (modelVersionId : Option Nat) (strategy : String)
    (outcome : Outcome) (fallbackUsed : Bool) (itemCount : Nat) : Database × Bool :=
  let added := (session.add (.servingRequest
      { id := telemetry.id, tenant := tenant, modelVersionId := modelVersionId
        strategy := strategy, outcome := outcome, fallbackUsed := fallbackUsed
        itemCount := itemCount, latencyMs := telemetry.latencyMs
        occurredAt := telemetry.now })).add (.usageEvent
      { tenant := tenant, usageType := recommendationRequests, quantity := 1
        sourceId := telemetry.id, occurredAt := telemetry.now })
  match added.commit Row.tenant Database.insert db with
  | some (db', _) => (db', true)
  | none => (db, false)

/-- How `_serve_and_record` ends. -/
inductive Answer
  | response (served : Served)
  /-- `_serve` raised. -/
  | raised
  /-- 503: the recommendation could not be recorded. -/
  | notRecorded
  deriving DecidableEq, Repr

/-- `_serve_and_record`, with what `_serve` answers, or `none` where it raises. -/
def serveAndRecord (db : Database) (session : RequestSession) (tenant : TenantId)
    (telemetry : Telemetry) (serve : Option Served) : Database × Answer :=
  match serve with
  | none =>
      let (db', _) := recordServingRequest db session.rollback tenant telemetry none "none"
        .error false 0
      (db', .raised)
  | some response =>
      let added := session.add (.recommendationRecord
        { tenant := tenant, requestId := response.requestId, items := response.items
          createdAt := telemetry.now })
      match recordServingRequest db added tenant telemetry response.modelVersionId
          response.strategy .served response.fallbackUsed response.items.length with
      | (db', true) => (db', .response response)
      | (db', false) => (db', .notRecorded)

/-- The session of an authenticated request: `set_local_tenant` opened its transaction. -/
def authenticated (tenant : TenantId) : RequestSession := Session.start.setLocalTenant tenant

/-! ## What the two paths store -/

/-- The database after a served request. -/
def Database.recorded (db : Database) (tenant : TenantId) (telemetry : Telemetry)
    (response : Served) : Database where
  servingRequests := db.servingRequests ++
    [{ id := telemetry.id, tenant := tenant, modelVersionId := response.modelVersionId
       strategy := response.strategy, outcome := .served
       fallbackUsed := response.fallbackUsed, itemCount := response.items.length
       latencyMs := telemetry.latencyMs, occurredAt := telemetry.now }]
  usageEvents := db.usageEvents ++
    [{ tenant := tenant, usageType := recommendationRequests, quantity := 1
       sourceId := telemetry.id, occurredAt := telemetry.now }]
  recommendationRecords := db.recommendationRecords ++
    [{ tenant := tenant, requestId := response.requestId, items := response.items
       createdAt := telemetry.now }]

section Paths

variable {db : Database} {tenant : TenantId} {telemetry : Telemetry}

/-- After a rollback no tenant is set, and nothing is recorded. -/
theorem recordServingRequest_rollback (session : RequestSession) (modelVersionId : Option Nat)
    (strategy : String) (outcome : Outcome) (fallbackUsed : Bool) (itemCount : Nat) :
    recordServingRequest db session.rollback tenant telemetry modelVersionId strategy outcome
      fallbackUsed itemCount = (db, false) := by
  unfold recordServingRequest Session.commit
  dsimp only
  rw [Session.flush_of_foreign (List.mem_append_left _ (List.mem_append_right _
    (List.mem_singleton_self _))) (by intro h; cases h)]
  rfl

/-- A request whose serving step raises leaves nothing. -/
theorem serveAndRecord_raised (session : RequestSession) :
    serveAndRecord db session tenant telemetry none = (db, .raised) := by
  unfold serveAndRecord
  rw [recordServingRequest_rollback]

/-- The rows of a served request are its tenant's, so the policy lets them in; the request
id decides. -/
theorem serveAndRecord_served (response : Served) :
    serveAndRecord db (authenticated tenant) tenant telemetry (some response) =
      match db.record? tenant response.requestId with
      | none => (db.recorded tenant telemetry response, .response response)
      | some _ => (db, .notRecorded) := by
  unfold serveAndRecord recordServingRequest Session.commit
  dsimp only
  rw [Session.flush_of_current]
  · cases hrecord : db.record? tenant response.requestId with
    | none =>
        simp only [Session.add, authenticated, Session.setLocalTenant, Session.start,
          List.nil_append, List.cons_append, List.foldlM_cons, List.foldlM_nil,
          Database.insert, hrecord]
        rfl
    | some row =>
        simp only [Session.add, authenticated, Session.setLocalTenant, Session.start,
          List.nil_append, List.cons_append, List.foldlM_cons, List.foldlM_nil,
          Database.insert, hrecord]
        rfl
  · intro row hrow
    simp only [Session.add, authenticated, Session.setLocalTenant, Session.start,
      List.nil_append, List.cons_append, List.mem_cons, List.not_mem_nil, or_false] at hrow
    rcases hrow with rfl | rfl | rfl <;> rfl

end Paths

/-! ## The telemetry of a request -/

/-- The outcome that matches what `_serve` did. -/
def outcomeOf : Option Served → Outcome
  | some _ => .served
  | none => .error

/-- The request left exactly one row of `serving_requests`, of its tenant and with the
matching outcome. -/
def LeavesTelemetry (db db' : Database) (tenant : TenantId) (serve : Option Served) : Prop :=
  ∃ row, db'.servingRequests = db.servingRequests ++ [row] ∧ row.tenant = tenant ∧
    row.outcome = outcomeOf serve

/-- Is the request new?  A replay of a recorded request id is answered before admission. -/
def isNew (db : Database) (tenant : TenantId) (serve : Option Served) : Prop :=
  ∀ response, serve = some response → db.record? tenant response.requestId = none

/-- **Telemetry of an admitted request**: it leaves its row just when the serving step does
not raise. -/
theorem telemetry_iff_served {db : Database} {tenant : TenantId} {telemetry : Telemetry}
    {serve : Option Served} (hnew : isNew db tenant serve) :
    LeavesTelemetry db (serveAndRecord db (authenticated tenant) tenant telemetry serve).1
      tenant serve ↔ serve.isSome = true := by
  cases serve with
  | none =>
      rw [serveAndRecord_raised]
      constructor
      · intro h
        obtain ⟨row, hrows, _⟩ := h
        have hlength := congrArg List.length hrows
        dsimp only at hlength
        rw [List.length_append, List.length_singleton] at hlength
        omega
      · intro h
        cases h
  | some response =>
      rw [serveAndRecord_served, hnew response rfl]
      exact ⟨fun _ => rfl, fun _ => ⟨_, rfl, rfl, rfl⟩⟩

/-- No row yet. -/
def emptyDatabase : Database := ⟨[], [], []⟩

/-- A response with one item. -/
def oneItem : Served := ⟨"r-1", none, "popularity", true, ["p-1"]⟩

/-- A served request leaves its row. -/
theorem telemetry_iff_served_oneItem :
    LeavesTelemetry emptyDatabase (serveAndRecord emptyDatabase (authenticated 1) 1 ⟨1, 10, 5⟩
      (some oneItem)).1 1 (some oneItem) :=
  (telemetry_iff_served (by intro response h; cases h; rfl)).mpr rfl

/-- **An error leaves no telemetry**: its row is rejected after the rollback. -/
theorem error_leaves_no_telemetry :
    ¬ ∀ (db : Database) (tenant : TenantId) (telemetry : Telemetry) (serve : Option Served),
      isNew db tenant serve →
      LeavesTelemetry db (serveAndRecord db (authenticated tenant) tenant telemetry serve).1
        tenant serve := by
  intro hall
  obtain ⟨row, hrows, _⟩ := hall emptyDatabase 1 ⟨1, 10, 5⟩ none (by intro response h; cases h)
  rw [serveAndRecord_raised] at hrows
  cases hrows

end Usage
