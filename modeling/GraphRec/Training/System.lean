import GraphRec.Lib.Transition
import GraphRec.Training.Job
import Mathlib.Algebra.Group.Nat.Defs
import Mathlib.Logic.Function.Basic

/-!
# The training queue as a transition system

Any number of worker processes share the queue.  A worker polls, claims a job,
runs `train_job` and, when that raises, `finish_failed_job`.  The interleaving
is at the grain at which other processes can get in between:

* `claim_training_job`, the finalising transaction and `cancel_training` are
  one step each: they hold the row's lock from the read to the commit;
* `progress` and `finish_failed_job` are two steps each, a read without a lock
  and a later flush;
* every file of the job's directory is written, and removed, in a step of its
  own; the directory is named by the job, so all attempts of a job share it;
* creating a job is two steps, the check under the tenant's training lock and
  the commit that releases it.

A second worker may start as soon as the advisory lock of the first one's guard
connection is gone (`guardLost`); the first one does not notice while it is
inside `train_job`.  The clocks are not synchronised: every action carries the
time it reads.

`holder` records which worker claimed a job last.  No step reads it; it is
there to state conditions on runs.
-/

namespace Training

open Transition

/-- The files of an artifact directory. -/
inductive FileName
  | trainingCsv | interactionsNpz | idMapsJson | dataReportJson | configJson
  | bestPt | finalMetricsJson | tenantIdentityJson | commonEvaluationJson
  deriving DecidableEq, Repr

/-- The bytes of a file, up to equality. -/
abbrev Content := Nat

/-- What `train_job` writes before it loads the artifact, in order. -/
def preparedFiles : List FileName :=
  [.trainingCsv, .interactionsNpz, .idMapsJson, .dataReportJson, .configJson,
    .bestPt, .finalMetricsJson, .tenantIdentityJson]

/-- What it writes after loading it: the comparison and the metrics again. -/
def comparedFiles : List FileName := [.commonEvaluationJson, .finalMetricsJson]

/-- `serving.REQUIRED_FILES`: without these the artifact does not load. -/
def requiredFiles : List FileName := [.bestPt, .configJson, .idMapsJson, .interactionsNpz]

/-- What `shutil.rmtree` finds to remove. -/
def allFiles : List FileName :=
  [.trainingCsv, .interactionsNpz, .idMapsJson, .dataReportJson, .configJson,
    .bestPt, .finalMetricsJson, .tenantIdentityJson, .commonEvaluationJson]

/-- A `progress` call between its read and its flush. -/
structure Pulse where
  loaded : Job
  stage : Stage
  percent : Nat
  deriving DecidableEq, Repr

/-- Where a worker is inside `run_once`. -/
inductive Phase
  /-- `train_job`, with these files still to be written before the artifact is
  loaded. -/
  | writing (todo : List FileName)
  /-- `train_job` has loaded the artifact with this checkpoint. -/
  | comparing (checkpoint : Content) (todo : List FileName)
  /-- `finish_failed_job` is removing the directory. -/
  | cleaning (exc : Exc) (todo : List FileName)
  /-- `finish_failed_job` has read the row and not written it yet. -/
  | recording (exc : Exc) (loaded : Job)
  deriving DecidableEq, Repr

/-- One claimed job in the hands of a worker. -/
structure Attempt where
  job : JobId
  tenant : TenantId
  phase : Phase
  pulse : Option Pulse
  deriving DecidableEq, Repr

/-- A worker process. -/
inductive Worker
  | off
  | polling
  | busy (attempt : Attempt)
  deriving DecidableEq, Repr

abbrev WorkerId := Nat

/-- `version_tag`: `trained-` and the first 12 of the 32 hex digits of the job's
id, or a tag built from the version's own id. -/
inductive Tag
  | trained (jobPrefix : Nat)
  | own (version : VersionId)
  deriving DecidableEq, Repr

/-- `f'trained-{job_id.hex[:12]}'`. -/
def trainedTag (id : JobId) : Tag := .trained (id / 2 ^ 80)

/-- A row of `model_versions` as far as training writes it: the artifact
directory it points to (that of a job, when it was trained here) and the
checkpoint digest in `metrics['source']`. -/
structure Version where
  id : VersionId
  tenant : TenantId
  tag : Tag
  directory : Option JobId
  checkpoint : Option Content
  deriving DecidableEq, Repr

/-- A creation that passed its checks and still holds the tenant's training
lock. -/
structure CreateRequest where
  requestId : Option String
  payloadHash : String
  deriving DecidableEq, Repr

/-- The database, the artifact store, and the processes at work on them. -/
structure State where
  jobs : Table JobId Job
  versions : List Version
  files : JobId → FileName → Option Content
  workers : WorkerId → Worker
  guard : Option WorkerId
  creating : TenantId → Option CreateRequest
  holder : JobId → Option WorkerId

/-- No jobs, no versions, no worker. -/
def initial : State where
  jobs := .empty
  versions := []
  files := fun _ _ => none
  workers := fun _ => .off
  guard := none
  creating := fun _ => none
  holder := fun _ => none

/-- The steps of the workers, the API and the scheduler. -/
inductive Action
  /-- A worker process gets the guard lock and starts polling. -/
  | start (w : WorkerId)
  /-- The guard connection dies and its lock is released. -/
  | guardLost
  /-- A worker process ends, between jobs or in the middle of one. -/
  | leave (w : WorkerId)
  /-- `claim_training_job`. -/
  | claim (w : WorkerId) (now : Time) (tenantActive : TenantId → Bool)
      (locked : JobId → Bool)
  /-- `progress`: read the row. -/
  | readProgress (w : WorkerId) (stage : Stage) (percent : Nat)
  /-- `progress`: flush. -/
  | writeProgress (w : WorkerId) (now : Time)
  /-- Write the next file of the artifact directory. -/
  | write (w : WorkerId) (content : Content)
  /-- The comparison raised before it wrote its examples. -/
  | skipComparison (w : WorkerId)
  /-- `DGSRArtifact(directory)`. -/
  | load (w : WorkerId)
  /-- The finalising transaction. -/
  | finalise (w : WorkerId) (version : VersionId) (now : Time)
  /-- An exception other than `Cancelled` leaves `train_job`. -/
  | raise (w : WorkerId) (exc : Exc)
  /-- `shutil.rmtree` comes to the next file; errors are ignored. -/
  | removeFile (w : WorkerId) (removed : Bool)
  /-- `finish_failed_job`: read the row. -/
  | readFailed (w : WorkerId)
  /-- `finish_failed_job`: flush. -/
  | writeFailed (w : WorkerId) (now : Time)
  /-- `finish_failed_job` itself raises; `main` logs it and polls on. -/
  | abandon (w : WorkerId)
  /-- `cancel_training`. -/
  | cancel (job : JobId) (now : Time)
  /-- `create_training_job`, by the API or by `RetrainingService.evaluate`, up to
  and including the eligibility check. -/
  | createBegin (tenant : TenantId) (request : CreateRequest) (cooldown now : Time)
  /-- The creation commits. -/
  | createCommit (tenant : TenantId) (job : JobId) (now : Time) (creation : Creation)
  /-- The creation is refused by a later check, or rolled back. -/
  | createAbort (tenant : TenantId)

/-! ## State updates -/

namespace State

variable (s : State)

def setWorker (w : WorkerId) (x : Worker) : State :=
  { s with workers := Function.update s.workers w x }

/-- Move the attempt of a worker to another phase, no `progress` call open. -/
def setPhase (w : WorkerId) (a : Attempt) (phase : Phase) : State :=
  s.setWorker w (.busy { a with phase := phase, pulse := none })

def setFile (job : JobId) (name : FileName) (content : Option Content) : State :=
  { s with
    files := Function.update s.files job (Function.update (s.files job) name content) }

@[simp] theorem setWorker_jobs (w x) : (s.setWorker w x).jobs = s.jobs := rfl
@[simp] theorem setWorker_versions (w x) : (s.setWorker w x).versions = s.versions := rfl
@[simp] theorem setWorker_files (w x) : (s.setWorker w x).files = s.files := rfl
@[simp] theorem setWorker_guard (w x) : (s.setWorker w x).guard = s.guard := rfl
@[simp] theorem setWorker_creating (w x) : (s.setWorker w x).creating = s.creating := rfl
@[simp] theorem setWorker_holder (w x) : (s.setWorker w x).holder = s.holder := rfl
@[simp] theorem setWorker_workers (w x) :
    (s.setWorker w x).workers = Function.update s.workers w x := rfl
@[simp] theorem setPhase_jobs (w a p) : (s.setPhase w a p).jobs = s.jobs := rfl
@[simp] theorem setPhase_versions (w a p) : (s.setPhase w a p).versions = s.versions := rfl
@[simp] theorem setPhase_files (w a p) : (s.setPhase w a p).files = s.files := rfl
@[simp] theorem setPhase_creating (w a p) : (s.setPhase w a p).creating = s.creating := rfl
@[simp] theorem setPhase_holder (w a p) : (s.setPhase w a p).holder = s.holder := rfl
@[simp] theorem setPhase_workers (w a p) : (s.setPhase w a p).workers =
    Function.update s.workers w (.busy { a with phase := p, pulse := none }) := rfl
@[simp] theorem setFile_jobs (j n c) : (s.setFile j n c).jobs = s.jobs := rfl
@[simp] theorem setFile_versions (j n c) : (s.setFile j n c).versions = s.versions := rfl
@[simp] theorem setFile_creating (j n c) : (s.setFile j n c).creating = s.creating := rfl
@[simp] theorem setFile_holder (j n c) : (s.setFile j n c).holder = s.holder := rfl
@[simp] theorem setFile_workers (j n c) : (s.setFile j n c).workers = s.workers := rfl

/-- Run `f` on the attempt a worker is busy with. -/
def onAttempt (w : WorkerId) (f : Attempt → Option State) : Option State :=
  match s.workers w with
  | .busy a => f a
  | _ => none

variable {s}

theorem onAttempt_eq_some {w : WorkerId} {f : Attempt → Option State} {s' : State} :
    s.onAttempt w f = some s' ↔ ∃ a, s.workers w = .busy a ∧ f a = some s' := by
  unfold onAttempt
  cases s.workers w <;> simp

end State

/-- Is a version with this tag registered for the tenant
(`uq_model_versions_tenant_tag`)? -/
def tagTaken (versions : List Version) (tenant : TenantId) (tag : Tag) : Bool :=
  versions.any fun v => decide (v.tenant = tenant) && decide (v.tag = tag)

/-- The exception a duplicate version tag raises. -/
def integrityError : Exc :=
  .error .other "IntegrityError" "uq_model_versions_tenant_tag"

/-- The exception an incomplete artifact directory raises. -/
def artifactError : Exc := .error .other "ArtifactError" "is missing"

/-! ## The steps of one worker -/

/-- `claim_training_job` and the start of `train_job`. -/
def stepClaim (s : State) (w : WorkerId) (now : Time)
    (tenantActive : TenantId → Bool) (locked : JobId → Bool) : Option State :=
  if s.workers w = .polling then
    let result := claimTrainingJob now tenantActive locked s.jobs
    match result.2 with
    | none => some { s with jobs := result.1 }
    | some (id, tenant) =>
        some { s.setWorker w (.busy ⟨id, tenant, .writing preparedFiles, none⟩) with
          jobs := result.1
          holder := Function.update s.holder id (some w) }
  else none

/-- The read of `progress`, with its check for a cancellation. -/
def stepReadProgress (s : State) (w : WorkerId) (stage : Stage) (percent : Nat) :
    Option State :=
  s.onAttempt w fun a =>
    match a.phase, a.pulse, s.jobs.get? a.job with
    | .writing _, none, some job | .comparing _ _, none, some job =>
        if job.cancelRequested then some (s.setPhase w a (.cleaning .cancelled allFiles))
        else some (s.setWorker w (.busy { a with pulse := some ⟨job, stage, percent⟩ }))
    | _, _, _ => none

/-- The flush of `progress`. -/
def stepWriteProgress (s : State) (w : WorkerId) (now : Time) : Option State :=
  s.onAttempt w fun a =>
    match a.pulse with
    | some p =>
        some { s.setPhase w a a.phase with
          jobs := s.jobs.update a.job
            (Job.flush p.loaded (progressAssign p.stage p.percent now p.loaded)) }
    | none => none

/-- The next file is written. -/
def stepWrite (s : State) (w : WorkerId) (content : Content) : Option State :=
  s.onAttempt w fun a =>
    match a.phase, a.pulse with
    | .writing (name :: todo), none =>
        some ((s.setFile a.job name (some content)).setPhase w a (.writing todo))
    | .comparing checkpoint (name :: todo), none =>
        some ((s.setFile a.job name (some content)).setPhase w a (.comparing checkpoint todo))
    | _, _ => none

/-- The comparison is given up before it wrote anything. -/
def stepSkipComparison (s : State) (w : WorkerId) : Option State :=
  s.onAttempt w fun a =>
    match a.phase, a.pulse with
    | .comparing checkpoint (.commonEvaluationJson :: todo), none =>
        some (s.setPhase w a (.comparing checkpoint todo))
    | _, _ => none

/-- The artifact is loaded from the directory as it is now. -/
def stepLoad (s : State) (w : WorkerId) : Option State :=
  s.onAttempt w fun a =>
    match a.phase, a.pulse with
    | .writing [], none =>
        if requiredFiles.all fun name => (s.files a.job name).isSome then
          match s.files a.job .bestPt with
          | some checkpoint => some (s.setPhase w a (.comparing checkpoint comparedFiles))
          | none => none
        else some (s.setPhase w a (.cleaning artifactError allFiles))
    | _, _ => none

/-- The finalising transaction: lock the row, look at the cancellation flag
again, and record the version and the success together. -/
def stepFinalise (s : State) (w : WorkerId) (version : VersionId) (now : Time) :
    Option State :=
  s.onAttempt w fun a =>
    match a.phase, a.pulse, s.jobs.get? a.job with
    | .comparing checkpoint [], none, some job =>
        if job.cancelRequested then some (s.setPhase w a (.cleaning .cancelled allFiles))
        else if tagTaken s.versions a.tenant (trainedTag a.job) then
          some (s.setPhase w a (.cleaning integrityError allFiles))
        else if s.versions.all fun v => decide (v.id ≠ version) then
          some { s.setWorker w .polling with
            jobs := s.jobs.update a.job (finaliseAssign version now)
            versions := s.versions ++
              [⟨version, a.tenant, trainedTag a.job, some a.job, some checkpoint⟩] }
        else none
    | _, _, _ => none

/-- An exception reaches `run_once`. -/
def stepRaise (s : State) (w : WorkerId) (exc : Exc) : Option State :=
  s.onAttempt w fun a =>
    match a.phase with
    | .writing _ | .comparing _ _ =>
        if exc = .cancelled then none
        else some (s.setPhase w a (.cleaning exc allFiles))
    | _ => none

/-- `shutil.rmtree` handles one file. -/
def stepRemoveFile (s : State) (w : WorkerId) (removed : Bool) : Option State :=
  s.onAttempt w fun a =>
    match a.phase with
    | .cleaning exc (name :: todo) =>
        some ((if removed then s.setFile a.job name none else s).setPhase w a
          (.cleaning exc todo))
    | _ => none

/-- The read of `finish_failed_job`. -/
def stepReadFailed (s : State) (w : WorkerId) : Option State :=
  s.onAttempt w fun a =>
    match a.phase, s.jobs.get? a.job with
    | .cleaning exc [], some job => some (s.setPhase w a (.recording exc job))
    | _, _ => none

/-- The flush of `finish_failed_job`. -/
def stepWriteFailed (s : State) (w : WorkerId) (now : Time) : Option State :=
  s.onAttempt w fun a =>
    match a.phase with
    | .recording exc loaded =>
        some { s.setWorker w .polling with
          jobs := s.jobs.update a.job
            (Job.flush loaded (finishFailedAssign exc now loaded)) }
    | _ => none

/-- `finish_failed_job` raises. -/
def stepAbandon (s : State) (w : WorkerId) : Option State :=
  s.onAttempt w fun a =>
    match a.phase with
    | .cleaning _ _ | .recording _ _ => some (s.setWorker w .polling)
    | _ => none

/-! ## The steps of the API and the scheduler -/

/-- A cancellation that is accepted. -/
def stepCancel (s : State) (id : JobId) (now : Time) : Option State :=
  match s.jobs.get? id with
  | some job =>
      match cancelTraining now job with
      | .ok job' => some { s with jobs := s.jobs.update id fun _ => job' }
      | .error _ => none
  | none => none

/-- The tenant's training lock is free, the request id is new, and the tenant is
eligible. -/
def stepCreateBegin (s : State) (tenant : TenantId) (request : CreateRequest)
    (cooldown now : Time) : Option State :=
  if s.creating tenant = none ∧
      (s.jobs.rows.all fun row => !(decide (row.2.tenant = tenant) &&
        request.requestId.isSome && decide (row.2.requestId = request.requestId))) = true then
    match checkTrainingEligibility s.jobs tenant cooldown now with
    | .ok () => some { s with creating := Function.update s.creating tenant (some request) }
    | .error _ => none
  else none

/-- The version a creation registers in its own transaction. -/
def createdVersion (tenant : TenantId) : Creation → List Version
  | .placeholder v => [⟨v, tenant, .own v, none, none⟩]
  | .imported v => [⟨v, tenant, .own v, none, none⟩]
  | .queued | .importFailed _ => []

/-- The creation inserts its rows and releases the lock. -/
def stepCreateCommit (s : State) (tenant : TenantId) (id : JobId) (now : Time)
    (creation : Creation) : Option State :=
  match s.creating tenant, s.jobs.get? id with
  | some request, none =>
      some { s with
        jobs := s.jobs.insert id
          (newJob tenant request.requestId request.payloadHash now creation)
        versions := s.versions ++ createdVersion tenant creation
        creating := Function.update s.creating tenant none }
  | _, _ => none

/-- One step of the system. -/
def step (s : State) : Action → Option State
  | .start w =>
      if s.workers w = .off ∧ s.guard = none then
        some { s.setWorker w .polling with guard := some w }
      else none
  | .guardLost => some { s with guard := none }
  | .leave w =>
      some { s.setWorker w .off with
        guard := if s.guard = some w then none else s.guard }
  | .claim w now tenantActive locked => stepClaim s w now tenantActive locked
  | .readProgress w stage percent => stepReadProgress s w stage percent
  | .writeProgress w now => stepWriteProgress s w now
  | .write w content => stepWrite s w content
  | .skipComparison w => stepSkipComparison s w
  | .load w => stepLoad s w
  | .finalise w version now => stepFinalise s w version now
  | .raise w exc => stepRaise s w exc
  | .removeFile w removed => stepRemoveFile s w removed
  | .readFailed w => stepReadFailed s w
  | .writeFailed w now => stepWriteFailed s w now
  | .abandon w => stepAbandon s w
  | .cancel id now => stepCancel s id now
  | .createBegin tenant request cooldown now => stepCreateBegin s tenant request cooldown now
  | .createCommit tenant id now creation => stepCreateCommit s tenant id now creation
  | .createAbort tenant =>
      some { s with creating := Function.update s.creating tenant none }

/-- The training queue. -/
def system : System State Action where
  init := initial
  step := step

end Training
