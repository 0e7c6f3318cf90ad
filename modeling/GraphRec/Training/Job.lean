import GraphRec.Lib.Table

/-!
# Training jobs: the row and its writers

A row of `training_jobs` and every piece of code that changes one:

* `claimTrainingJob` — the SQL function of migration `0017_training_worker`,
  which first hands stale running jobs back and then claims the oldest queued
  one;
* `progressAssign` — `worker.progress`, which reads the row, raises when a
  cancellation was requested, and writes stage, progress and heartbeat;
* `finaliseAssign` — the last transaction of `worker.train_job`;
* `finishFailedAssign` — `worker.finish_failed_job`;
* `cancelTraining` — `ModelRegistryService.cancel_training`;
* `checkTrainingEligibility`, `newJob` — the creation path shared by the API
  and by automatic retraining.

`progress` and `finish_failed_job` load the row without a lock and write it in
a later statement.  What they write is what the mapper's flush sends: the
columns whose assigned value differs from the loaded one (`Job.flush`).
-/

namespace Training

abbrev JobId := Nat
abbrev TenantId := Nat
abbrev VersionId := Nat
/-- Seconds. -/
abbrev Time := Nat

/-- `training_jobs.status`. -/
inductive Status
  | queued | running | succeeded | failed | cancelled
  deriving DecidableEq, Repr

/-- A job that is waiting for a worker or held by one. -/
def Status.active : Status → Bool
  | .queued | .running => true
  | .succeeded | .failed | .cancelled => false

/-- A job that has ended. -/
def Status.terminal (s : Status) : Bool := !s.active

/-- `training_jobs.stage`: the values the code writes. -/
inductive Stage
  | queued | preparing | training | evaluatingValidation | evaluatingTest
  | validatingArtifact | comparingVersions | completed
  | cancelled | failed | requeuedOnShutdown | retryScheduled
  deriving DecidableEq, Repr

/-- `configuration->>'mode'`. -/
inductive Mode
  | train | pretrainedImport | placeholder
  deriving DecidableEq, Repr

/-- A row of `training_jobs`; its primary key is the key of the table. -/
structure Job where
  tenant : TenantId
  requestId : Option String
  payloadHash : String
  mode : Mode
  status : Status
  stage : Stage
  progress : Nat
  heartbeatAt : Option Time
  cancelRequested : Bool
  attempts : Nat
  modelVersionId : Option VersionId
  failureReason : Option String
  createdAt : Time
  completedAt : Option Time
  deriving DecidableEq, Repr

/-- The flush of a row that was loaded as `loaded` and now reads `assigned`,
over the row as it is `stored` at that moment. -/
def Job.flush (loaded assigned stored : Job) : Job where
  tenant := writeColumn loaded.tenant assigned.tenant stored.tenant
  requestId := writeColumn loaded.requestId assigned.requestId stored.requestId
  payloadHash := writeColumn loaded.payloadHash assigned.payloadHash stored.payloadHash
  mode := writeColumn loaded.mode assigned.mode stored.mode
  status := writeColumn loaded.status assigned.status stored.status
  stage := writeColumn loaded.stage assigned.stage stored.stage
  progress := writeColumn loaded.progress assigned.progress stored.progress
  heartbeatAt := writeColumn loaded.heartbeatAt assigned.heartbeatAt stored.heartbeatAt
  cancelRequested :=
    writeColumn loaded.cancelRequested assigned.cancelRequested stored.cancelRequested
  attempts := writeColumn loaded.attempts assigned.attempts stored.attempts
  modelVersionId :=
    writeColumn loaded.modelVersionId assigned.modelVersionId stored.modelVersionId
  failureReason :=
    writeColumn loaded.failureReason assigned.failureReason stored.failureReason
  createdAt := writeColumn loaded.createdAt assigned.createdAt stored.createdAt
  completedAt := writeColumn loaded.completedAt assigned.completedAt stored.completedAt

/-! ## Claiming -/

/-- `interval '5 minutes'`. -/
def staleWindow : Time := 300

/-- The attempts a job gets: `MAX_ATTEMPTS` in the worker, the literal 2 in the
claim function. -/
def maxAttempts : Nat := 2

/-- `heartbeat_at < now() - interval '5 minutes'`; false for a null heartbeat. -/
def Job.stale (now : Time) (j : Job) : Bool :=
  match j.heartbeatAt with
  | some beat => decide (beat + staleWindow < now)
  | none => false

/-- First statement of `claim_training_job`: a running job whose heartbeat is
stale goes back to the queue, or fails when its attempts are used up. -/
def reclaim (now : Time) (j : Job) : Job :=
  if j.status = .running ∧ j.mode = .train ∧ j.stale now = true then
    { j with
      status := if j.attempts < maxAttempts then .queued else .failed
      failureReason :=
        if j.attempts < maxAttempts then none
        else some "worker_interrupted: retry budget exhausted"
      completedAt := if j.attempts < maxAttempts then none else some now }
  else j

/-- The rows the second statement may pick: queued, to be trained, of an active
tenant, and not locked by another transaction (`SKIP LOCKED`). -/
def claimable (tenantActive : TenantId → Bool) (locked : JobId → Bool)
    (id : JobId) (j : Job) : Bool :=
  decide (j.status = .queued) && decide (j.mode = .train)
    && tenantActive j.tenant && !locked id

/-- What claiming does to the picked row. -/
def claim (now : Time) (j : Job) : Job :=
  { j with status := .running, stage := .preparing, heartbeatAt := some now,
           attempts := j.attempts + 1 }

/-- `public.claim_training_job()`. -/
def claimTrainingJob (now : Time) (tenantActive : TenantId → Bool)
    (locked : JobId → Bool) (jobs : Table JobId Job) :
    Table JobId Job × Option (JobId × TenantId) :=
  let reclaimed := jobs.updateWhere fun _ j => reclaim now j
  match reclaimed.first (claimable tenantActive locked) Job.createdAt with
  | none => (reclaimed, none)
  | some (id, j) => (reclaimed.update id (claim now), some (id, j.tenant))

/-! ## The worker's writes -/

/-- Exception classes `is_transient` tells apart. -/
inductive ExcClass
  | operationalError | connectionError | timeoutError
  | dbapiError (connectionInvalidated : Bool)
  | grpcError | qdrantResponseError
  | other
  deriving DecidableEq, Repr

/-- What can leave `train_job`: `Cancelled`, `ShuttingDown`, or any other
exception with its class, its type name and its text. -/
inductive Exc
  | cancelled
  | shuttingDown
  | error (cls : ExcClass) (name message : String)
  deriving DecidableEq, Repr

/-- `is_transient`: failures worth one more attempt. -/
def ExcClass.isTransient : ExcClass → Bool
  | .operationalError | .connectionError | .timeoutError => true
  | .dbapiError invalidated => invalidated
  | .grpcError | .qdrantResponseError => true
  | .other => false

/-- The assignments of `progress`, after the check for a cancellation. -/
def progressAssign (stage : Stage) (percent : Nat) (now : Time) (job : Job) : Job :=
  { job with stage := stage, progress := max job.progress percent,
             heartbeatAt := some now }

/-- The row assignments of the finalising transaction of `train_job`. -/
def finaliseAssign (version : VersionId) (now : Time) (job : Job) : Job :=
  { job with status := .succeeded, stage := .completed, progress := 100,
             modelVersionId := some version, completedAt := some now }

/-- The row assignments of `finish_failed_job`. -/
def finishFailedAssign (exc : Exc) (now : Time) (job : Job) : Job :=
  match exc with
  | .shuttingDown =>
      -- Not the job's fault: the attempt is given back.
      { job with status := .queued, stage := .requeuedOnShutdown,
                 attempts := job.attempts - 1, heartbeatAt := none }
  | .cancelled =>
      { job with status := .cancelled, stage := .cancelled, failureReason := none,
                 completedAt := some now }
  | .error cls name message =>
      if cls.isTransient = true ∧ job.attempts < maxAttempts then
        { job with status := .queued, stage := .retryScheduled,
                   failureReason := none, heartbeatAt := none }
      else
        { job with
          status := .failed
          stage := .failed
          failureReason := some (name ++ ": " ++ String.ofList (message.toList.take 450) ++ " ("
            ++ (if cls.isTransient then "transient failure, retry budget exhausted"
                else "deterministic failure") ++ ")")
          completedAt := some now }

/-- Does `finish_failed_job`, having read `job`, put it back to the queue? -/
def Exc.requeues (exc : Exc) (job : Job) : Bool :=
  match exc with
  | .shuttingDown => true
  | .cancelled => false
  | .error cls _ _ => cls.isTransient && decide (job.attempts < maxAttempts)

/-- The status `finish_failed_job` reports. -/
def Exc.outcome (exc : Exc) (job : Job) : Status :=
  if exc.requeues job then .queued else if exc = .cancelled then .cancelled else .failed

@[simp] theorem finishFailedAssign_status (exc : Exc) (now : Time) (job : Job) :
    (finishFailedAssign exc now job).status = exc.outcome job := by
  cases exc with
  | shuttingDown => rfl
  | cancelled => rfl
  | error cls name message =>
      by_cases h : cls.isTransient = true ∧ job.attempts < maxAttempts
      · simp [finishFailedAssign, Exc.outcome, Exc.requeues, h]
      · have hstay : ¬ (cls.isTransient && decide (job.attempts < maxAttempts)) = true := by
          simpa using h
        simp [finishFailedAssign, Exc.outcome, Exc.requeues, h, hstay]

/-- A shutdown gives the attempt back, everything else keeps it. -/
@[simp] theorem finishFailedAssign_attempts (exc : Exc) (now : Time) (job : Job) :
    (finishFailedAssign exc now job).attempts =
      if exc = .shuttingDown then job.attempts - 1 else job.attempts := by
  cases exc with
  | shuttingDown => rfl
  | cancelled => rfl
  | error cls name message => unfold finishFailedAssign; dsimp only; split <;> simp

/-- `finish_failed_job` never reports success, nor a job as running. -/
theorem Exc.outcome_ne (exc : Exc) (job : Job) :
    exc.outcome job ≠ .succeeded ∧ exc.outcome job ≠ .running := by
  unfold Exc.outcome
  split
  · simp
  · split <;> simp

/-! ## The API's writes -/

/-- Errors the training routes answer with. -/
inductive ApiError
  | trainingInProgress
  | trainingCooldown (retryAfterSeconds : Nat)
  | idempotencyConflict
  | jobTerminal
  | resourceNotFound
  deriving DecidableEq, Repr

/-- `cancel_training`, on the row it holds with `FOR UPDATE`. -/
def cancelTraining (now : Time) (job : Job) : Except ApiError Job :=
  if job.status.active then
    .ok (if job.status = .queued then
      { job with cancelRequested := true, status := .cancelled, stage := .cancelled,
                 completedAt := some now }
    else { job with cancelRequested := true })
  else .error .jobTerminal

/-- Does the tenant have a queued or running job? -/
def hasActiveJob (jobs : Table JobId Job) (tenant : TenantId) : Bool :=
  jobs.rows.any fun row => decide (row.2.tenant = tenant) && row.2.status.active

/-- `_check_training_eligibility`: no job of the tenant may be queued or
running, and the last `dgsr` job must have ended `cooldown` seconds ago. -/
def checkTrainingEligibility (jobs : Table JobId Job) (tenant : TenantId)
    (cooldown now : Nat) : Except ApiError Unit :=
  if hasActiveJob jobs tenant then .error .trainingInProgress
  else if cooldown = 0 then .ok ()
  else
    let completed := jobs.rows.filterMap fun row =>
      if row.2.tenant = tenant ∧ row.2.mode ≠ .placeholder then row.2.completedAt else none
    match completed.argmax id with
    | none => .ok ()
    | some last =>
        if now < last + cooldown then .error (.trainingCooldown (last + cooldown - now))
        else .ok ()

/-- How a creation that passed its checks ends. -/
inductive Creation
  /-- `_queue_training`. -/
  | queued
  /-- The development placeholder, registered in the same transaction. -/
  | placeholder (version : VersionId)
  /-- `import_pretrained_artifact`. -/
  | imported (version : VersionId)
  /-- An import whose checkpoint was rejected (`_fail_job`). -/
  | importFailed (reason : String)
  deriving DecidableEq, Repr

/-- The row that a creation inserts. -/
def newJob (tenant : TenantId) (requestId : Option String) (payloadHash : String)
    (now : Time) (c : Creation) : Job where
  tenant := tenant
  requestId := requestId
  payloadHash := payloadHash
  mode := match c with
    | .queued => .train
    | .placeholder _ => .placeholder
    | .imported _ | .importFailed _ => .pretrainedImport
  status := match c with
    | .queued => .queued
    | .placeholder _ | .imported _ => .succeeded
    | .importFailed _ => .failed
  stage := match c with
    | .queued => .queued
    | _ => .completed
  progress := match c with
    | .queued | .importFailed _ => 0
    | _ => 100
  heartbeatAt := none
  cancelRequested := false
  attempts := 0
  modelVersionId := match c with
    | .placeholder v | .imported v => some v
    | _ => none
  failureReason := match c with
    | .importFailed reason => some (String.ofList (reason.toList.take 1000))
    | _ => none
  createdAt := now
  completedAt := match c with
    | .queued => none
    | _ => some now

end Training
