import GraphRec.Lib.Transition
import GraphRec.Retraining.Policy
import Mathlib.Order.Lattice

/-!
# Evaluations, updates and jobs

`RetrainingService.evaluate` and `update_policy`, `ModelRegistryService.create_training_job`, and
what else moves the rows they read: events are accepted, jobs change their status, time passes.

The calls of a tenant are taken one after the other.  An evaluation commits up to twice, once in
the creation of the job and once for its outcome, and may raise before, between or after its
commits (`Ending`).

What a creation meets outside of these rows (the plan's capacity, the contents of a snapshot, a
checkpoint) is part of the call.
-/

namespace Retraining

open Api Transition
open Training (JobId TenantId Status)

/-! ## The rows -/

/-- A row of `training_jobs`, as far as a creation writes and reads it; `dgsr` says whether the
model type is `dgsr`. -/
structure Job where
  tenant : TenantId
  requestId : Option RequestId
  payloadHash : String
  dgsr : Bool
  status : Status
  createdAt : Time
  completedAt : Option Time
  deriving DecidableEq, Repr

/-- The tables: `events` has the `created_at` of a tenant's events. -/
structure Store where
  jobs : Table JobId Job
  policies : TenantId → Option RetrainingPolicy
  events : TenantId → List Time

namespace Store

variable (s : Store) (tenant : TenantId)

def setPolicy (p : RetrainingPolicy) : Store :=
  { s with policies := Function.update s.policies tenant (some p) }

def insertJob (id : JobId) (job : Job) : Store := { s with jobs := s.jobs.insert id job }

/-- The jobs of a tenant. -/
def tenantJobs : List (JobId × Job) := s.jobs.rows.filter fun row => row.2.tenant = tenant

/-- `_latest_job`, by its `created_at`. -/
def lastJobMarker : Option Time := ((s.tenantJobs tenant).map fun row => row.2.createdAt).max?

/-- `new_events_since_last_training`. -/
def newEvents : ℕ :=
  (s.events tenant).countP fun createdAt => (s.lastJobMarker tenant).all (· < createdAt)

/-- `_active_job`. -/
def activeJob : Bool := (s.tenantJobs tenant).any fun row => row.2.status.active

/-- The job of a request id. -/
def requestedJob (id : RequestId) : Option (JobId × Job) :=
  (s.tenantJobs tenant).find? fun row => row.2.requestId = some id

@[simp] theorem setPolicy_jobs (p : RetrainingPolicy) : (s.setPolicy tenant p).jobs = s.jobs := rfl
@[simp] theorem setPolicy_events (p : RetrainingPolicy) :
    (s.setPolicy tenant p).events = s.events := rfl
@[simp] theorem setPolicy_policies (p : RetrainingPolicy) :
    (s.setPolicy tenant p).policies = Function.update s.policies tenant (some p) := rfl
@[simp] theorem insertJob_jobs (id : JobId) (job : Job) :
    (s.insertJob id job).jobs = s.jobs.insert id job := rfl
@[simp] theorem insertJob_events (id : JobId) (job : Job) :
    (s.insertJob id job).events = s.events := rfl
@[simp] theorem insertJob_policies (id : JobId) (job : Job) :
    (s.insertJob id job).policies = s.policies := rfl

end Store

/-! ## Creating jobs -/

/-- A value of `configuration`, as far as it is told apart. -/
inductive ConfigValue
  | null
  | int (n : ℤ)
  | bool (b : Bool)
  | text (s : String)
  | other (json : String)
  deriving DecidableEq, Repr

/-- `TrainingJobCreate`. -/
structure TrainingJobCreate where
  requestId : Option RequestId
  modelType : String := "dgsr"
  datasetSnapshotId : Option ℕ := none
  configuration : List (String × ConfigValue)
  deriving DecidableEq, Repr

/-- The settings that are read, and the digest of a payload. -/
structure Settings where
  retrainingMinIntervalMinutes : Bounded 1 43200
  trainingCooldownSeconds : Bounded 0 86400
  isProduction : Bool
  payloadHash : TrainingJobCreate → String

/-- What a call of `create_training_job` meets outside of the rows. -/
structure CreationCall where
  /-- `uuid4()`. -/
  id : JobId
  /-- The time from the start of the call to the creation of the job. -/
  took : Time
  /-- Is there a snapshot of the tenant with the payload's identifier? -/
  snapshotKnown : Bool
  /-- The refusal of `require_capacity`. -/
  capacity : Option ApiError
  /-- The refusal of `_queue_training` over the snapshot's contents. -/
  dataset : Option ApiError
  /-- How an import ends: with an error, or with a job whose checkpoint was accepted or not. -/
  imported : Except ApiError Bool
  /-- The time an import takes. -/
  importTook : Time

/-- `create_training_job` refuses a request id that was used with another payload. -/
def idempotencyConflict : ApiError :=
  { statusCode := 409
    code := "idempotency_conflict"
    message := "This training identifier was already used with different input." }

def snapshotNotFound : ApiError :=
  { statusCode := 404, code := "resource_not_found", message := "Dataset snapshot not found." }

def trainingInProgress : ApiError :=
  { statusCode := 409
    code := "training_in_progress"
    message := "Wait for or cancel this tenant's current training job." }

def trainingCooldown (remaining : ℕ) : ApiError :=
  { statusCode := 409
    code := "training_cooldown"
    message := "Wait before starting another DGSR training job."
    retryable := true
    retryAfterSeconds := some remaining }

def unsupportedConfiguration : ApiError :=
  { statusCode := 422
    code := "validation_failed"
    message := "Local training configuration supports only mode and epochs." }

def epochsOutOfRange : ApiError :=
  { statusCode := 422
    code := "validation_failed"
    message := "Training epochs must be an integer from 1 to 10." }

def unknownMode : ApiError :=
  { statusCode := 422
    code := "validation_failed"
    message := "Choose train, a pretrained_artifact, or an explicit development placeholder." }

def placeholderInProduction : ApiError :=
  { statusCode := 422
    code := "validation_failed"
    message := "Placeholder training is available only in development."
    details := .fields [{ field := "configuration.mode"
                          message := "Use train or a pretrained_artifact" }] }

variable (settings : Settings)

/-- `_check_training_eligibility`. -/
def checkTrainingEligibility (s : Store) (tenant : TenantId) (cooldown : Bool) (now : Time) :
    Except ApiError Unit :=
  if s.activeJob tenant then .error trainingInProgress
  else
    let seconds := if cooldown then settings.trainingCooldownSeconds.val else 0
    let completed := (s.tenantJobs tenant).filterMap fun row =>
      if row.2.dgsr then row.2.completedAt else none
    match completed.max? with
    | none => .ok ()
    | some lastCompleted =>
        -- `math.ceil` of the seconds that are left.
        let remaining := (lastCompleted + seconds * second - now + (second - 1)) / second
        if seconds = 0 then .ok ()
        else if 0 < remaining then .error (trainingCooldown remaining)
        else .ok ()

/-- `payload.configuration.get(key)`; a null value reads as a missing one. -/
def TrainingJobCreate.get (payload : TrainingJobCreate) (key : String) : Option ConfigValue :=
  (payload.configuration.lookup key).filter (· ≠ .null)

/-- `payload.configuration.get("mode", "train")`. -/
def TrainingJobCreate.mode (payload : TrainingJobCreate) : ConfigValue :=
  (payload.configuration.lookup "mode").getD (.text "train")

/-- The row of a job that is created `now`. -/
def newJob (tenant : TenantId) (payload : TrainingJobCreate) (dgsr : Bool) (status : Status)
    (now : Time) (completedAt : Option Time) : Job where
  tenant := tenant
  requestId := payload.requestId
  payloadHash := settings.payloadHash payload
  dgsr := dgsr
  status := status
  createdAt := now
  completedAt := completedAt

/-- `_queue_training`: the job it adds. -/
def queueTraining (tenant : TenantId) (payload : TrainingJobCreate) (call : CreationCall)
    (now : Time) : Except ApiError Job :=
  if payload.configuration.any fun entry => entry.1 ≠ "mode" ∧ entry.1 ≠ "epochs" then
    .error unsupportedConfiguration
  else
    match (payload.configuration.lookup "epochs").getD (.int 3) with
    | .int epochs =>
        if 1 ≤ epochs ∧ epochs ≤ 10 then
          match call.dataset with
          | some refusal => .error refusal
          | none => .ok (newJob settings tenant payload true .queued now none)
        else .error epochsOutOfRange
    | _ => .error epochsOutOfRange

/-- The job that a creation adds once it passed its first checks. -/
def addedJob (tenant : TenantId) (payload : TrainingJobCreate) (call : CreationCall)
    (now : Time) : Except ApiError Job :=
  if (payload.get "pretrained_artifact").isSome then
    match call.imported with
    | .error refusal => .error refusal
    | .ok accepted =>
        .ok (newJob settings tenant payload true (if accepted then .succeeded else .failed) now
          (some (now + call.importTook)))
  else if payload.mode = .text "train" then queueTraining settings tenant payload call now
  else if payload.mode ≠ .text "placeholder" then .error unknownMode
  else if settings.isProduction then .error placeholderInProduction
  else .ok (newJob settings tenant payload false .succeeded now (some now))

/-- What `create_training_job` answers with: the job of the request id, or a new one that it
commits. -/
inductive Creation
  | replayed (id : JobId)
  | inserted (id : JobId) (job : Job)
  deriving DecidableEq, Repr

/-- `create_training_job`; the job is created `now`. -/
def createTrainingJob (tenant : TenantId) (payload : TrainingJobCreate) (call : CreationCall)
    (now : Time) (s : Store) : Except ApiError Creation :=
  match payload.requestId.bind (s.requestedJob tenant) with
  | some (id, previous) =>
      if previous.payloadHash ≠ settings.payloadHash payload then .error idempotencyConflict
      else .ok (.replayed id)
  | none =>
      if payload.datasetSnapshotId.isSome ∧ call.snapshotKnown = false then
        .error snapshotNotFound
      else
        match call.capacity with
        | some refusal => .error refusal
        | none =>
            let cooldown := (payload.get "pretrained_artifact").isSome
              || payload.mode = .text "train"
            match checkTrainingEligibility settings s tenant cooldown now with
            | .error refusal => .error refusal
            | .ok () =>
                match addedJob settings tenant payload call now with
                | .error refusal => .error refusal
                | .ok job => .ok (.inserted call.id job)

/-! ## Evaluating a policy -/

/-- A text cut to the width of its column. -/
def truncate (width : ℕ) (text : String) : String := String.ofList (text.toList.take width)

/-- What `decide` says about the policy of a tenant. -/
def Store.decision (s : Store) (tenant : TenantId) (p : RetrainingPolicy) (now : Time) :
    Decision :=
  decide p.scheduleEnabled p.nextRunAt p.eventTriggerEnabled p.eventThreshold.val
    (s.newEvents tenant) (s.lastJobMarker tenant) (s.activeJob tenant) now

/-- The policy an evaluation has in hand once it looked at the slot. -/
def RetrainingPolicy.evaluated (now : Time) (p : RetrainingPolicy) : RetrainingPolicy :=
  { (if p.slotDue now then p.passSlots now else p) with lastEvaluatedAt := some now }

/-- The outcome of an evaluation that starts nothing. -/
def RetrainingPolicy.skipped (now : Time) (reason : String) (p : RetrainingPolicy) :
    RetrainingPolicy :=
  if p.slotDue now then
    { p.evaluated now with
      lastTrigger := some .schedule
      lastOutcomeAt := some now
      lastOutcome := some (truncate 48 ("skipped:" ++ reason))
      lastOutcomeDetail := some "A scheduled slot passed while training was already in progress." }
  else p.evaluated now

/-- The outcome of an evaluation whose job is refused, over the row as it is after the rollback. -/
def RetrainingPolicy.blocked (now : Time) (trigger : Trigger) (refusal : ApiError)
    (p : RetrainingPolicy) : RetrainingPolicy :=
  { (if trigger = .schedule ∧ p.nextRunAt.any (· ≤ now) then p.passSlots now else p) with
    lastEvaluatedAt := some now
    lastTrigger := some trigger
    lastOutcomeAt := some now
    lastOutcome := some (truncate 48 ("blocked:" ++ refusal.code))
    lastOutcomeDetail := some (truncate 500 refusal.message) }

/-- What is flushed before the creation, and committed with the job. -/
def RetrainingPolicy.triggered (now : Time) (trigger : Trigger) (p : RetrainingPolicy) :
    RetrainingPolicy :=
  { p.evaluated now with lastTrigger := some trigger, lastOutcomeAt := some now }

/-- The outcome of an evaluation that has a job. -/
def RetrainingPolicy.requested (now : Time) (trigger : Trigger) (job : JobId)
    (p : RetrainingPolicy) : RetrainingPolicy :=
  { p.triggered now trigger with
    lastOutcome := some "training_requested"
    lastOutcomeDetail := none
    lastJobId := some job }

/-- The payload of the job an evaluation asks for. -/
def requestedTraining (requestId : Option RequestId) (epochs : Epochs) : TrainingJobCreate :=
  { requestId := requestId
    configuration := [("mode", .text "train"), ("epochs", .int epochs.val)] }

/-- What an evaluation commits, one store after the other, and what it returns. -/
structure Evaluation where
  commits : List Store
  decision : Decision

/-- `evaluate`. -/
def evaluate (tenant : TenantId) (call : CreationCall) (now : Time) (s : Store) : Evaluation :=
  match s.policies tenant with
  | none => ⟨[], { trigger := none, reason := "disabled" }⟩
  | some p =>
      if p.scheduleEnabled = false ∧ p.eventTriggerEnabled = false then
        ⟨[], { trigger := none, reason := "disabled" }⟩
      else
        let decision := s.decision tenant p now
        match decision.trigger with
        | none => ⟨[s.setPolicy tenant (p.skipped now decision.reason)], decision⟩
        | some trigger =>
            let flushed := s.setPolicy tenant (p.triggered now trigger)
            match createTrainingJob settings tenant
                (requestedTraining decision.requestId p.epochs) call (now + call.took)
                flushed with
            | .error refusal =>
                ⟨[s.setPolicy tenant (p.blocked now trigger refusal)],
                  { trigger := none, reason := refusal.code }⟩
            | .ok (.replayed id) =>
                ⟨[flushed.setPolicy tenant (p.requested now trigger id)], decision⟩
            | .ok (.inserted id job) =>
                let created := flushed.insertJob id job
                ⟨[created, created.setPolicy tenant (p.requested now trigger id)], decision⟩

/-- How an evaluation ends: it returns, or it raises an exception that is not an `ApiError`
after some of its commits. -/
inductive Ending
  | returns
  | raises (commits : ℕ)
  deriving DecidableEq, Repr

/-- The store an evaluation leaves. -/
def Evaluation.store (e : Evaluation) (s : Store) : Ending → Store
  | .returns => e.commits.getLast?.getD s
  | .raises n => (e.commits.take n).getLast?.getD s

/-! ## The system -/

/-- The rows and the clock. -/
structure State where
  store : Store
  now : Time

/-- No rows. -/
def initial : State := ⟨⟨.empty, fun _ => none, fun _ => []⟩, 0⟩

inductive Action
  | evaluate (tenant : TenantId) (call : CreationCall) (ending : Ending)
  | updatePolicy (tenant : TenantId) (payload : RetrainingPolicyUpdate)
  | createTrainingJob (tenant : TenantId) (payload : TrainingJobCreate) (call : CreationCall)
  /-- Events of the tenant are accepted. -/
  | acceptEvents (tenant : TenantId) (count : ℕ)
  /-- The worker, or `cancel_training`, changes the status of a job. -/
  | moveJob (id : JobId) (status : Status) (completedAt : Option Time)
  /-- Time passes. -/
  | wait (duration : Time)

/-- A call whose `uuid4()` is new, at the time it is over. -/
def CreationCall.after (call : CreationCall) (st : State) (s : Store) : Option State :=
  if (st.store.jobs.get? call.id).isSome then none
  else some ⟨s, st.now + call.took + call.importTook⟩

/-- The steps. -/
def step (st : State) : Action → Option State
  | .evaluate tenant call ending =>
      call.after st ((evaluate settings tenant call st.now st.store).store st.store ending)
  | .updatePolicy tenant payload =>
      match updatePolicy settings.retrainingMinIntervalMinutes.val payload st.now
          (st.store.policies tenant) with
      | .error _ => some st
      | .ok p => some { st with store := st.store.setPolicy tenant p }
  | .createTrainingJob tenant payload call =>
      match createTrainingJob settings tenant payload call (st.now + call.took) st.store with
      | .error _ | .ok (.replayed _) => call.after st st.store
      | .ok (.inserted id job) => call.after st (st.store.insertJob id job)
  | .acceptEvents tenant count =>
      some { st with
        store := { st.store with
          events := Function.update st.store.events tenant
            (List.replicate count st.now ++ st.store.events tenant) } }
  | .moveJob id status completedAt =>
      some { st with
        store := { st.store with
          jobs := st.store.jobs.update id fun job =>
            { job with status := status, completedAt := completedAt } } }
  | .wait duration => some { st with now := st.now + duration }

/-- Retraining as a transition system. -/
def system : System State Action := ⟨initial, step settings⟩

end Retraining
