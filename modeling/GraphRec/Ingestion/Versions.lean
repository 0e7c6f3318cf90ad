import GraphRec.Ingestion.InteractionLog

/-!
# Model versions, as far as they count against the plan

`register_model_version`, `create_training_job` with its three modes, the last transaction
of the worker's `train_job`, and the operations of the registry that change a status.
What these find outside the tables that are modelled (the artifact, the data of a snapshot,
the vector index) is a parameter of the request.
-/

namespace Ingestion

open Transactions

/-- `INSERT INTO model_versions`: rejected by the keys. -/
def Store.insertVersion (s : Store) (id : VersionId) (row : Registry.Version) (bytes : ℕ) :
    Except Constraint Store :=
  if (s.versions.get? id).isSome || Registry.tagTaken s.versions row.tag then .error .versionKey
  else .ok { s with
    versions := s.versions.insert id row
    artifactBytes := Function.update s.artifactBytes id bytes }

/-! ## Registration -/

/-- The text of a status. -/
def statusText : Registry.Status → String
  | .eligible => "eligible"
  | .active => "active"
  | .retired => "retired"
  | .archived => "archived"

/-- What the registry answers about a version. -/
def registryError (id : VersionId) : Registry.ApiError → ApiError
  | .resourceNotFound =>
      apiError 404 "resource_not_found" ("Model version '" ++ toString id ++ "' not found.")
  | .duplicateResource =>
      apiError 409 "duplicate_resource" "Model version tag already exists for this tenant."
  | .modelNotEligible required =>
      apiError 409 "model_not_eligible"
        ("The target must be " ++ statusText required ++ " for this operation.")
  | .modelNotReady =>
      apiError 422 "model_not_ready"
        ("Model readiness validation failed. Check its artifact and catalog; " ++
          "the current active version was preserved.")
  | .conflict =>
      apiError 409 "conflict"
        "Cannot archive currently active model version. Activate another version first."
  | .protectedRollbackTarget =>
      apiError 409 "protected_rollback_target"
        "This version is retained as the current rollback target."

/-- `register_model_version`; `bytes` is what the payload's metrics say. -/
def registerModelVersion (cfg : Config) (production : Bool) (id : VersionId)
    (new : Registry.NewVersion) (bytes : ℕ) : Transaction :=
  if production then
    .done (.error (apiError 404 "resource_not_found" "The requested resource was not found"))
  else .clock fun now => .look fun s =>
    if Registry.tagTaken s.versions new.tag then
      .done (.error (apiError 409 "duplicate_resource"
        ("Model version tag '" ++ new.tag ++ "' already exists for this tenant.")))
    else
      requireCapacity cfg .activeModelVersions 1 <|
        .commit (fun s => s.insertVersion id (new.row now) bytes) (.version id (new.row now))

/-! ## Training jobs -/

/-- What an import finds: an artifact that is refused, one that is invalid or does not fit
the tenant, or one to be registered. -/
inductive ImportEvidence
  | refused (e : ApiError)
  | invalid (reason : String)
  | loaded (version : Registry.NewVersion) (bytes : ℕ)
  deriving DecidableEq, Repr

/-- `configuration.mode`, with what the mode finds. -/
inductive TrainingMode
  | train (refusal : Option ApiError)
  | pretrained (evidence : ImportEvidence)
  | placeholder (production : Bool) (version : Registry.NewVersion)
  | other
  deriving DecidableEq, Repr

/-- `TrainingJobCreate`, with its fresh identifiers and the setting of the cooldown. -/
structure TrainingRequest where
  jobId : JobId
  versionId : VersionId
  requestId : Option String
  payloadHash : String
  snapshotMissing : Bool
  mode : TrainingMode
  cooldownSeconds : ℕ
  deriving DecidableEq, Repr

/-- `DGSR_MODEL_TYPE`. -/
def dgsrModelType : String := "dgsr"

/-- Does the cooldown apply to the mode? -/
def TrainingMode.coolsDown : TrainingMode → Bool
  | .train _ | .pretrained _ => true
  | .placeholder _ _ | .other => false

/-- The latest `completed_at` of a trained or imported job. -/
def lastCompleted (jobs : List TrainingJob) : Option Time :=
  ((jobs.filter fun job => decide (job.modelType = dgsrModelType)).filterMap
    TrainingJob.completedAt).max?

/-- `_check_training_eligibility`. -/
def trainingEligibility (s : Store) (cooldownSeconds : ℕ) (now : Time) : Option ApiError :=
  if s.jobs.any fun job => job.status.active then
    some (apiError 409 "training_in_progress"
      "Wait for or cancel this tenant's current training job.")
  else
    match lastCompleted s.jobs with
    | some completed =>
        if now < completed + cooldownSeconds * 1000000 then
          some ⟨409, "training_cooldown", "Wait before starting another DGSR training job.",
            true, none⟩
        else none
    | none => none

/-- The row of a job. -/
def TrainingRequest.row (r : TrainingRequest) (modelType : String) (status : Training.Status)
    (now : Time) : TrainingJob where
  id := r.jobId
  requestId := r.requestId
  payloadHash := r.payloadHash
  modelType := modelType
  status := status
  progress := if status = .succeeded then 100 else 0
  attempts := 0
  createdAt := now
  completedAt := if status.terminal then some now else none

/-- What a job writes that registers no version. -/
def writeJob (job : TrainingJob) (now : Time) (s : Store) : Except Constraint Store :=
  { s with jobs := s.jobs ++ [job] }.insertUsage ⟨.trainingJobs, 1, none, now⟩

/-- What a job writes that registers a version. -/
def writeJobVersion (job : TrainingJob) (id : VersionId) (row : Registry.Version) (bytes : ℕ)
    (now : Time) (s : Store) : Except Constraint Store := do
  let s ← writeJob job now s
  s.insertVersion id row bytes

/-- `import_pretrained_artifact`. -/
def importPretrainedArtifact (cfg : Config) (r : TrainingRequest) (evidence : ImportEvidence) :
    Transaction :=
  match evidence with
  | .refused e => .done (.error e)
  | .invalid _ => .clock fun now =>
      let job := r.row dgsrModelType .failed now
      .commit (writeJob job now) (.job job)
  | .loaded version bytes => .clock fun now =>
      let job := r.row dgsrModelType .succeeded now
      requireCapacity cfg .artifactStorageBytes bytes <|
        .commit (writeJobVersion job r.versionId (version.row now) bytes now) (.job job)

/-- What `create_training_job` does once its checks have passed. -/
def startTraining (cfg : Config) (r : TrainingRequest) : Transaction :=
  match r.mode with
  | .pretrained evidence => importPretrainedArtifact cfg r evidence
  | .train (some e) => .done (.error e)
  | .train none => .clock fun now =>
      let job := r.row dgsrModelType .queued now
      .commit (writeJob job now) (.job job)
  | .other => .done (.error (apiError 422 "validation_failed"
      "Choose train, a pretrained_artifact, or an explicit development placeholder."))
  | .placeholder true _ => .done (.error (apiError 422 "validation_failed"
      "Placeholder training is available only in development."))
  | .placeholder false version => .clock fun now =>
      let job := r.row "development_placeholder" .succeeded now
      .commit (writeJobVersion job r.versionId (version.row now) 0 now) (.job job)

/-- `create_training_job` of a request that is not a repetition. -/
def createNewTrainingJob (cfg : Config) (r : TrainingRequest) : Transaction :=
  .lock .trainingTenant <|
    if r.snapshotMissing then
      .done (.error (apiError 404 "resource_not_found" "Dataset snapshot not found."))
    else
      requireCapacity cfg .trainingJobs 1 <|
        requireCapacity cfg .activeModelVersions 1 <|
          .clock fun now => .look fun s =>
            match trainingEligibility s (if r.mode.coolsDown then r.cooldownSeconds else 0) now with
            | some e => .done (.error e)
            | none => startTraining cfg r

/-- `create_training_job`. -/
def createTrainingJob (cfg : Config) (r : TrainingRequest) : Transaction :=
  match truthy r.requestId with
  | none => createNewTrainingJob cfg r
  | some requestId => .lock (.trainingRequest requestId) <| .look fun s =>
      match s.jobs.find? fun job => decide (job.requestId = some requestId) with
      | none => createNewTrainingJob cfg r
      | some previous =>
          if previous.payloadHash = r.payloadHash then .done (.job previous)
          else .done (.error (apiError 409 "idempotency_conflict"
            "This training identifier was already used with different input."))

/-- A job whose version is trained. -/
def TrainingJob.succeed (job : TrainingJob) (now : Time) : TrainingJob :=
  { job with status := .succeeded, progress := 100, completedAt := some now }

/-- What the worker writes when it has trained a version. -/
def writeTrained (jobId : JobId) (versionId : VersionId) (row : Registry.Version)
    (bytes cpuSeconds : ℕ) (now : Time) (s : Store) : Except Constraint Store := do
  let s ← s.insertVersion versionId row bytes
  let jobs := s.jobs.map fun job => if job.id = jobId then job.succeed now else job
  let s := { s with jobs := jobs }
  let s ← s.insertUsage ⟨.trainingCpuSeconds, cpuSeconds,
    some ("training_cpu_seconds-" ++ toString jobId), now⟩
  s.insertUsage ⟨.artifactStorageBytes, bytes,
    some ("artifact_storage_bytes-" ++ toString jobId), now⟩

/-- The last transaction of `train_job`, of a job that is not cancelled. -/
def finishTraining (cfg : Config) (jobId : JobId) (versionId : VersionId)
    (new : Registry.NewVersion) (bytes cpuSeconds : ℕ) : Transaction :=
  .clock fun now =>
    requireCapacity cfg .artifactStorageBytes bytes <|
      requireCapacity cfg .activeModelVersions 1 <|
        .commit (writeTrained jobId versionId (new.row now) bytes cpuSeconds now)
          (.version versionId (new.row now))

/-! ## Statuses -/

/-- `activate_model_version` and `rollback_model`; `evidence` is what the validation
finds.  The row of the deployment is not modelled here. -/
def activateModelVersion (target : VersionId) (rollback : Bool) (evidence : Registry.Evidence) :
    Transaction :=
  .clock fun now => .lock .lifecycle <| .look fun s =>
    match s.versions.get? target with
    | none => .done (.error (registryError target .resourceNotFound))
    | some row =>
        match Registry.activationCheck rollback (some row) with
        | .refused e => .done (.error (registryError target e))
        | .alreadyActive => .done (.version target row)
        | .proceed =>
            match Registry.validateActivation evidence row with
            | .error e => .done (.error (registryError target e))
            | .ok () =>
                .commit
                  (fun s => .ok { s with
                    versions := s.versions.updateWhere (Registry.activate now target) })
                  (.version target (Registry.activate now target target row))

/-- `archive_model_version`. -/
def archiveModelVersion (target : VersionId) : Transaction :=
  .lock .lifecycle <| .look fun s =>
    match s.versions.get? target with
    | none => .done (.error (registryError target .resourceNotFound))
    | some row =>
        match Registry.archiveCheck s.versions target with
        | .error e => .done (.error (registryError target e))
        | .ok () =>
            .commit
              (fun s => .ok { s with
                versions := s.versions.update target fun v => { v with status := .archived } })
              (.version target { row with status := .archived })

end Ingestion
