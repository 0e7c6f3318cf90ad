import GraphRec.Lib.Transition
import GraphRec.Registry.Version
import Mathlib.Logic.Function.Basic

/-!
# The model registry of one tenant as a transition system

Any number of lifecycle requests (activate, roll back, archive) run at once with
registrations by the API and by training.  A lifecycle request reads its clock,
waits for the tenant's advisory lock and holds it to the end of its
transaction; registrations take no lock.  A request is three steps, with other
transactions in between: it gets the lock and reads (`acquire`), an activation
validates its target (`validate`), and it writes and commits (`commit`).  A
validation that fails commits the degraded deployment at once.  A request may
end without a commit at any point (`abort`).
-/

namespace Registry

open Transition

/-- The three lifecycle operations. -/
inductive Operation
  | activate | rollback | archive
  deriving DecidableEq, Repr

/-- `activate_model_version`'s argument `rollback`. -/
def Operation.isRollback : Operation → Bool
  | .rollback => true
  | .activate | .archive => false

/-- Where a lifecycle request is. -/
inductive Phase
  | waiting
  /-- Holding the lock; the active version it read. -/
  | validating (previousActive : Option VersionId)
  /-- Holding the lock, target validated. -/
  | activating
  /-- Holding the lock, checks passed. -/
  | archiving
  | done (result : Except ApiError Unit)
  deriving DecidableEq

/-- The phases in which a request holds the lifecycle lock. -/
def Phase.holding : Phase → Bool
  | .validating _ | .activating | .archiving => true
  | .waiting | .done _ => false

/-- A lifecycle request; `now` was read before it waited for the lock. -/
structure Request where
  operation : Operation
  target : VersionId
  now : Time
  phase : Phase

abbrev RequestId := Nat

/-- The rows of the tenant, the lifecycle lock, the requests, and the last time
that was read from the clock. -/
structure State where
  versions : Table VersionId Version
  deployment : Option Deployment
  lock : Option RequestId
  requests : RequestId → Option Request
  clock : Time

/-- Nothing registered. -/
def initial : State where
  versions := .empty
  deployment := none
  lock := none
  requests := fun _ => none
  clock := 0

/-- The steps of the registry. -/
inductive Action
  /-- `register_model_version`. -/
  | register (production : Bool) (id : VersionId) (new : NewVersion) (now : Time)
  /-- A training run, an import or a placeholder registers its version. -/
  | train (id : VersionId) (new : NewVersion) (now : Time)
  /-- A lifecycle request arrives and reads the clock. -/
  | begin (r : RequestId) (operation : Operation) (target : VersionId) (now : Time)
  /-- It gets the lock, reads and checks. -/
  | acquire (r : RequestId)
  /-- `_validate_activation`. -/
  | validate (r : RequestId) (evidence : Evidence)
  /-- It writes and commits. -/
  | commit (r : RequestId)
  /-- Its transaction is rolled back. -/
  | abort (r : RequestId)

namespace State

variable (s : State)

/-- Move a request to another phase. -/
def setPhase (r : RequestId) (q : Request) (phase : Phase) : State :=
  { s with requests := Function.update s.requests r (some { q with phase := phase }) }

/-- A request ends and gives the lock back. -/
def finish (r : RequestId) (q : Request) (result : Except ApiError Unit) : State :=
  { s.setPhase r q (.done result) with lock := none }

@[simp] theorem setPhase_versions (r q p) : (s.setPhase r q p).versions = s.versions := rfl
@[simp] theorem setPhase_deployment (r q p) :
    (s.setPhase r q p).deployment = s.deployment := rfl
@[simp] theorem setPhase_lock (r q p) : (s.setPhase r q p).lock = s.lock := rfl
@[simp] theorem setPhase_requests (r q p) : (s.setPhase r q p).requests =
    Function.update s.requests r (some { q with phase := p }) := rfl
@[simp] theorem finish_versions (r q e) : (s.finish r q e).versions = s.versions := rfl
@[simp] theorem finish_deployment (r q e) : (s.finish r q e).deployment = s.deployment := rfl
@[simp] theorem finish_lock (r q e) : (s.finish r q e).lock = none := rfl
@[simp] theorem finish_requests (r q e) : (s.finish r q e).requests =
    Function.update s.requests r (some { q with phase := .done e }) := rfl

end State

/-- Under the lock: read, and refuse or go on. -/
def stepAcquire (s : State) (r : RequestId) : Option State :=
  match s.requests r, s.lock with
  | some q, none =>
      match q.phase with
      | .waiting =>
          match q.operation with
          | .archive =>
              match archiveCheck s.versions q.target with
              | .error e => some (s.finish r q (.error e))
              | .ok () => some { s.setPhase r q .archiving with lock := some r }
          | .activate | .rollback =>
              match activationCheck q.operation.isRollback (s.versions.get? q.target) with
              | .refused e => some (s.finish r q (.error e))
              | .alreadyActive => some (s.finish r q (.ok ()))
              | .proceed =>
                  some { s.setPhase r q (.validating (activeVersion s.versions)) with
                    lock := some r }
      | _ => none
  | _, _ => none

/-- `_validate_activation` and, when it fails, the degraded deployment. -/
def stepValidate (s : State) (r : RequestId) (evidence : Evidence) : Option State :=
  match s.requests r with
  | some q =>
      match q.phase, s.versions.get? q.target with
      | .validating previousActive, some target =>
          match validateActivation evidence target with
          | .ok () => some (s.setPhase r q .activating)
          | .error e =>
              some { s.finish r q (.error e) with
                deployment := some (setDeployment s.deployment q.target previousActive
                  .degraded (some "model_not_ready") q.now) }
      | _, _ => none
  | none => none

/-- The writes of an activation, a rollback or an archive, and the commit. -/
def stepCommit (s : State) (r : RequestId) : Option State :=
  match s.requests r with
  | some q =>
      match q.phase with
      | .activating =>
          some { s.finish r q (.ok ()) with
            versions := s.versions.updateWhere (activate q.now q.target)
            deployment := some (setDeployment s.deployment q.target (some q.target)
              .available none q.now) }
      | .archiving =>
          some { s.finish r q (.ok ()) with
            versions := s.versions.update q.target fun v => { v with status := .archived } }
      | _ => none
  | none => none

/-- The transaction of a request is rolled back; it holds the lock or waits. -/
def stepAbort (s : State) (r : RequestId) : Option State :=
  some { s with
    requests := Function.update s.requests r none
    lock := if s.lock = some r then none else s.lock }

/-- One step of the registry. -/
def step (s : State) : Action → Option State
  | .register production id new now =>
      if (s.versions.get? id).isSome then none
      else
        match registerModelVersion production s.versions id new now with
        | .ok versions => some { s with versions := versions }
        | .error _ => none
  | .train id new now =>
      if (s.versions.get? id).isSome || tagTaken s.versions new.tag then none
      else some { s with versions := s.versions.insert id (new.row now) }
  | .begin r operation target now =>
      match s.requests r with
      | none =>
          some { s with
            requests := Function.update s.requests r (some ⟨operation, target, now, .waiting⟩)
            clock := now }
      | some _ => none
  | .acquire r => stepAcquire s r
  | .validate r evidence => stepValidate s r evidence
  | .commit r => stepCommit s r
  | .abort r => stepAbort s r

/-- The registry. -/
def system : System State Action where
  init := initial
  step := step

/-- The successful steps from `s`, with what each one checked. -/
inductive StepCase (s : State) : Action → State → Prop
  | register {production : Bool} {id : VersionId} {new : NewVersion} {now : Time}
      (hfresh : s.versions.get? id = none) (htag : tagTaken s.versions new.tag = false) :
      StepCase s (.register production id new now)
        { s with versions := s.versions.insert id (new.row now) }
  | train {id : VersionId} {new : NewVersion} {now : Time}
      (hfresh : s.versions.get? id = none) (htag : tagTaken s.versions new.tag = false) :
      StepCase s (.train id new now)
        { s with versions := s.versions.insert id (new.row now) }
  | begin {r : RequestId} {operation : Operation} {target : VersionId} {now : Time}
      (hnew : s.requests r = none) :
      StepCase s (.begin r operation target now)
        { s with
          requests := Function.update s.requests r (some ⟨operation, target, now, .waiting⟩)
          clock := now }
  | archiving {r : RequestId} {q : Request} (hq : s.requests r = some q)
      (hlock : s.lock = none) (hphase : q.phase = .waiting) (hop : q.operation = .archive)
      (hcheck : archiveCheck s.versions q.target = .ok ()) :
      StepCase s (.acquire r) { s.setPhase r q .archiving with lock := some r }
  | validating {r : RequestId} {q : Request} (hq : s.requests r = some q)
      (hlock : s.lock = none) (hphase : q.phase = .waiting) (hop : q.operation ≠ .archive)
      (hcheck : activationCheck q.operation.isRollback (s.versions.get? q.target) = .proceed) :
      StepCase s (.acquire r)
        { s.setPhase r q (.validating (activeVersion s.versions)) with lock := some r }
  /-- The checks under the lock refused, or had nothing to do. -/
  | answered {r : RequestId} {q : Request} {result : Except ApiError Unit}
      (hq : s.requests r = some q) (hlock : s.lock = none) (hphase : q.phase = .waiting) :
      StepCase s (.acquire r) (s.finish r q result)
  | validated {r : RequestId} {evidence : Evidence} {q : Request}
      {previousActive : Option VersionId} {target : Version} (hq : s.requests r = some q)
      (hphase : q.phase = .validating previousActive)
      (htarget : s.versions.get? q.target = some target)
      (hok : validateActivation evidence target = .ok ()) :
      StepCase s (.validate r evidence) (s.setPhase r q .activating)
  | degraded {r : RequestId} {evidence : Evidence} {q : Request}
      {previousActive : Option VersionId} {target : Version} {e : ApiError}
      (hq : s.requests r = some q) (hphase : q.phase = .validating previousActive)
      (htarget : s.versions.get? q.target = some target)
      (herror : validateActivation evidence target = .error e) :
      StepCase s (.validate r evidence)
        { s.finish r q (.error e) with
          deployment := some (setDeployment s.deployment q.target previousActive
            .degraded (some "model_not_ready") q.now) }
  | activated {r : RequestId} {q : Request} (hq : s.requests r = some q)
      (hphase : q.phase = .activating) :
      StepCase s (.commit r)
        { s.finish r q (.ok ()) with
          versions := s.versions.updateWhere (activate q.now q.target)
          deployment := some (setDeployment s.deployment q.target (some q.target)
            .available none q.now) }
  | archived {r : RequestId} {q : Request} (hq : s.requests r = some q)
      (hphase : q.phase = .archiving) :
      StepCase s (.commit r)
        { s.finish r q (.ok ()) with
          versions := s.versions.update q.target fun v => { v with status := .archived } }
  | abort {r : RequestId} :
      StepCase s (.abort r)
        { s with
          requests := Function.update s.requests r none
          lock := if s.lock = some r then none else s.lock }

/-- **Inversion.**  A successful step is one of the listed cases. -/
theorem step_cases {s s' : State} {act : Action} (h : step s act = some s') :
    StepCase s act s' := by
  cases act with
  | register production id new now =>
      simp only [step] at h
      split at h
      · cases h
      · next hfresh =>
          unfold registerModelVersion at h
          split at h
          · next hok =>
              split at hok
              · cases hok
              · split at hok
                · cases hok
                · next htag =>
                    cases hok
                    cases h
                    exact .register (by simpa using hfresh) (by simpa using htag)
          · cases h
  | train id new now =>
      simp only [step] at h
      split at h
      · cases h
      · next hfresh =>
          rw [Bool.or_eq_true, not_or] at hfresh
          cases h
          exact .train (by simpa using hfresh.1) (by simpa using hfresh.2)
  | begin r operation target now =>
      simp only [step] at h
      split at h
      · next hnew => cases h; exact .begin hnew
      · cases h
  | acquire r =>
      simp only [step, stepAcquire] at h
      split at h
      · next q hq hlock =>
          split at h
          · next hphase =>
              split at h
              · next hop =>
                  split at h
                  · cases h; exact .answered hq hlock hphase
                  · next hcheck => cases h; exact .archiving hq hlock hphase hop hcheck
              · next hop =>
                  split at h
                  · cases h; exact .answered hq hlock hphase
                  · cases h; exact .answered hq hlock hphase
                  · next hcheck =>
                      cases h; exact .validating hq hlock hphase (by simp [hop]) hcheck
              · next hop =>
                  split at h
                  · cases h; exact .answered hq hlock hphase
                  · cases h; exact .answered hq hlock hphase
                  · next hcheck =>
                      cases h; exact .validating hq hlock hphase (by simp [hop]) hcheck
          · cases h
      · cases h
  | validate r evidence =>
      simp only [step, stepValidate] at h
      split at h
      · next q hq =>
          split at h
          · next hphase htarget =>
              split at h
              · next hok => cases h; exact .validated hq hphase htarget hok
              · next herror => cases h; exact .degraded hq hphase htarget herror
          · cases h
      · cases h
  | commit r =>
      simp only [step, stepCommit] at h
      split at h
      · next q hq =>
          split at h
          · next hphase => cases h; exact .activated hq hphase
          · next hphase => cases h; exact .archived hq hphase
          · cases h
      · cases h
  | abort r => cases h; exact .abort

end Registry
