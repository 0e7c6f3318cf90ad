import GraphRec.Lib.Table
import Mathlib.Data.Prod.Lex

/-!
# Model versions and the deployment row

The rows of `model_versions` and `model_deployments` of one tenant, and the
checks of `ModelRegistryService` that decide from them:

* `validateActivation` — `_validate_activation`, as a function of what the
  artifact store, the catalogue and the vector store answered;
* `activationCheck` — the status checks of `activate_model_version`;
* `archiveCheck` — those of `archive_model_version`, with the retained rollback
  target;
* `setDeployment` — `_set_deployment`.
-/

namespace Registry

abbrev VersionId := Nat
abbrev Time := Nat

/-- `model_versions.status`. -/
inductive Status
  | eligible | active | retired | archived
  deriving DecidableEq, Repr

/-- `DGSR_MODEL_TYPE`. -/
def dgsrModelType : String := "dgsr"

/-- A row of `model_versions`; `checkpoint` is the digest registered in
`metrics['source']`. -/
structure Version where
  tag : String
  modelType : String
  status : Status
  checkpoint : Option String
  createdAt : Time
  activatedAt : Option Time
  deriving DecidableEq, Repr

/-- `model_deployments.status`, the values that are written. -/
inductive DeploymentStatus
  | available | degraded
  deriving DecidableEq, Repr

/-- The row of `model_deployments`. -/
structure Deployment where
  desired : Option VersionId
  active : Option VersionId
  status : DeploymentStatus
  desiredCapacity : Nat
  readyCapacity : Nat
  failureReason : Option String
  lastTransitionAt : Time
  deriving DecidableEq, Repr

/-- Errors the registry routes answer with. -/
inductive ApiError
  | resourceNotFound
  | duplicateResource
  | modelNotEligible (required : Status)
  | modelNotReady
  | conflict
  | protectedRollbackTarget
  deriving DecidableEq, Repr

/-! ## Readiness of an artifact -/

/-- `tenant_identity.json`, read for one tenant; an empty digest counts as
none. -/
structure Identity where
  publicReference : Bool
  permitted : Bool
  checkpoint : Option String
  deriving DecidableEq, Repr

/-- A loaded `DGSRArtifact`: its digest, its items, and whether the query it
encodes for its first user is finite (`none` when encoding raises). -/
structure Artifact where
  checkpoint : String
  itemIds : List String
  probeFinite : Option Bool
  deriving DecidableEq, Repr

/-- What `_validate_activation` finds: the environment, the artifact directory
(is it there and inside a model store), what is in it, the active products, and
the size of the version's collection.  `none` is a read that raised. -/
structure Evidence where
  production : Bool
  insideStore : Bool
  identity : Option Identity
  artifact : Option Artifact
  catalog : List String
  points : Option Nat
  deriving DecidableEq, Repr

/-- `validate_artifact_binding`. -/
def validateArtifactBinding (identity : Option Identity) (checkpoint : Option String) : Bool :=
  match identity with
  | none => false
  | some identity =>
      (identity.publicReference || identity.permitted)
        && !(identity.publicReference && identity.checkpoint.isNone)
        && match checkpoint, identity.checkpoint with
          | some actual, some expected => decide (expected = actual)
          | _, _ => true

/-- Does the version's collection hold any point? -/
def Evidence.indexed (e : Evidence) : Bool :=
  match e.points with
  | some points => decide (points ≠ 0)
  | none => false

/-- The checks of a trained version whose registered digest is `expected`. -/
def Evidence.trainedReady (e : Evidence) (expected : Option String) : Bool :=
  e.insideStore && validateArtifactBinding e.identity none &&
    match e.artifact with
    | none => false
    | some artifact =>
        validateArtifactBinding e.identity (some artifact.checkpoint)
          && decide (expected = some artifact.checkpoint)
          && artifact.itemIds.any (fun item => e.catalog.contains item)
          && decide (artifact.probeFinite = some true)
          && e.indexed

/-- `_validate_activation`. -/
def validateActivation (e : Evidence) (target : Version) : Except ApiError Unit :=
  if target.modelType = dgsrModelType then
    if e.trainedReady target.checkpoint then .ok () else .error .modelNotReady
  else if e.production then .error .modelNotReady
  else if e.indexed then .ok () else .error .modelNotReady

/-! ## Decisions on statuses -/

/-- The status an activation, or a rollback, asks of its target. -/
def requiredStatus (rollback : Bool) : Status := if rollback then .retired else .eligible

/-- What `activate_model_version` does before it validates. -/
inductive ActivationCheck
  | refused (error : ApiError)
  | alreadyActive
  | proceed
  deriving DecidableEq, Repr

/-- The checks of `activate_model_version` on the row it read. -/
def activationCheck (rollback : Bool) (target : Option Version) : ActivationCheck :=
  match target with
  | none => .refused .resourceNotFound
  | some target =>
      if target.status = .active ∧ rollback = false then .alreadyActive
      else if target.status ≠ requiredStatus rollback then
        .refused (.modelNotEligible (requiredStatus rollback))
      else .proceed

/-- `select(ModelVersion).where(status == 'active')`, the first row. -/
def activeVersion (versions : Table VersionId Version) : Option VersionId :=
  (versions.rows.find? fun row => decide (row.2.status = .active)).map Prod.fst

/-- `ORDER BY activated_at DESC NULLS LAST, created_at DESC` picks the row where
this is greatest. -/
def Version.recency (v : Version) : Nat ×ₗ Nat :=
  match v.activatedAt with
  | some t => toLex (t + 1, v.createdAt)
  | none => toLex (0, v.createdAt)

/-- The retired version that is retained as the rollback target. -/
def protectedVersion (versions : Table VersionId Version) : Option VersionId :=
  ((versions.rows.filter fun row => decide (row.2.status = .retired)).argmax
    fun row => row.2.recency).map Prod.fst

/-- The checks of `archive_model_version`. -/
def archiveCheck (versions : Table VersionId Version) (id : VersionId) :
    Except ApiError Unit :=
  match versions.get? id with
  | none => .error .resourceNotFound
  | some target =>
      match target.status with
      | .active => .error .conflict
      | .retired =>
          if (activeVersion versions).isSome && decide (protectedVersion versions = some id)
          then .error .protectedRollbackTarget else .ok ()
      | .eligible | .archived => .ok ()

/-! ## Writes -/

/-- `_set_deployment`: capacity stays scaled and is bound to the active version. -/
def setDeployment (deployment : Option Deployment) (desired : VersionId)
    (active : Option VersionId) (status : DeploymentStatus) (failureReason : Option String)
    (now : Time) : Deployment :=
  let capacity := (deployment.map Deployment.desiredCapacity).getD 1
  { desired := some desired
    active := active
    status := status
    desiredCapacity := capacity
    readyCapacity := if active.isSome then capacity else 0
    failureReason := failureReason
    lastTransitionAt := now }

/-- The active version is retired, then the target becomes active. -/
def activate (now : Time) (target id : VersionId) (v : Version) : Version :=
  if id = target then { v with status := .active, activatedAt := some now }
  else if v.status = .active then { v with status := .retired }
  else v

/-- What a registration supplies. -/
structure NewVersion where
  tag : String
  modelType : String
  checkpoint : Option String
  deriving DecidableEq, Repr

/-- A registered row: eligible, never active yet. -/
def NewVersion.row (new : NewVersion) (now : Time) : Version where
  tag := new.tag
  modelType := new.modelType
  status := .eligible
  checkpoint := new.checkpoint
  createdAt := now
  activatedAt := none

/-- Is the tag registered already? -/
def tagTaken (versions : Table VersionId Version) (tag : String) : Bool :=
  versions.rows.any fun row => decide (row.2.tag = tag)

/-- `register_model_version`, which production does not have. -/
def registerModelVersion (production : Bool) (versions : Table VersionId Version)
    (id : VersionId) (new : NewVersion) (now : Time) :
    Except ApiError (Table VersionId Version) :=
  if production then .error .resourceNotFound
  else if tagTaken versions new.tag then .error .duplicateResource
  else .ok (versions.insert id (new.row now))

end Registry
