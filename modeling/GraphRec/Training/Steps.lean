import GraphRec.Training.System

/-!
# What one step does

`step_cases` turns the executable step function into a relation, once: every
successful step is one of the cases of `StepCase`, with all that was checked
and the exact next state.  `step_row` reads off what happens to the row of one
job, `step_trainedVersions` what happens to the registered versions.  The invariants
of the later modules are case distinctions over these and do not unfold the
steps again.
-/

namespace Training

open Transition

/-- Is the worker inside `train_job`? -/
def Phase.training : Phase → Bool
  | .writing _ | .comparing _ _ => true
  | .cleaning _ _ | .recording _ _ => false

/-- Is the worker inside `finish_failed_job`? -/
def Phase.failing (p : Phase) : Bool := !p.training

/-- The successful steps from `s`, with what each one checked. -/
inductive StepCase (s : State) : Action → State → Prop
  | start {w : WorkerId} (hoff : s.workers w = .off) (hguard : s.guard = none) :
      StepCase s (.start w) { s.setWorker w .polling with guard := some w }
  | guardLost : StepCase s .guardLost { s with guard := none }
  | leave {w : WorkerId} :
      StepCase s (.leave w) { s.setWorker w .off with
        guard := if s.guard = some w then none else s.guard }
  | claimNone {w : WorkerId} {now : Time} {tenantActive : TenantId → Bool}
      {locked : JobId → Bool} (hpolling : s.workers w = .polling)
      (hpick : (claimTrainingJob now tenantActive locked s.jobs).2 = none) :
      StepCase s (.claim w now tenantActive locked)
        { s with jobs := (claimTrainingJob now tenantActive locked s.jobs).1 }
  | claim {w : WorkerId} {now : Time} {tenantActive : TenantId → Bool}
      {locked : JobId → Bool} {id : JobId} {tenant : TenantId}
      (hpolling : s.workers w = .polling)
      (hpick : (claimTrainingJob now tenantActive locked s.jobs).2 = some (id, tenant)) :
      StepCase s (.claim w now tenantActive locked)
        { s.setWorker w (.busy ⟨id, tenant, .writing preparedFiles, none⟩) with
          jobs := (claimTrainingJob now tenantActive locked s.jobs).1
          holder := Function.update s.holder id (some w) }
  | readProgress {w : WorkerId} {stage : Stage} {percent : Nat} {a : Attempt} {job : Job}
      (hbusy : s.workers w = .busy a) (hphase : a.phase.training = true)
      (hpulse : a.pulse = none) (hjob : s.jobs.get? a.job = some job)
      (hflag : job.cancelRequested = false) :
      StepCase s (.readProgress w stage percent)
        (s.setWorker w (.busy { a with pulse := some ⟨job, stage, percent⟩ }))
  | progressCancelled {w : WorkerId} {stage : Stage} {percent : Nat} {a : Attempt}
      {job : Job} (hbusy : s.workers w = .busy a) (hphase : a.phase.training = true)
      (hpulse : a.pulse = none) (hjob : s.jobs.get? a.job = some job)
      (hflag : job.cancelRequested = true) :
      StepCase s (.readProgress w stage percent)
        (s.setPhase w a (.cleaning .cancelled allFiles))
  | writeProgress {w : WorkerId} {now : Time} {a : Attempt} {p : Pulse}
      (hbusy : s.workers w = .busy a) (hpulse : a.pulse = some p) :
      StepCase s (.writeProgress w now)
        { s.setPhase w a a.phase with
          jobs := s.jobs.update a.job
            (Job.flush p.loaded (progressAssign p.stage p.percent now p.loaded)) }
  | writePrepared {w : WorkerId} {content : Content} {a : Attempt} {name : FileName}
      {todo : List FileName} (hbusy : s.workers w = .busy a)
      (hphase : a.phase = .writing (name :: todo)) (hpulse : a.pulse = none) :
      StepCase s (.write w content)
        ((s.setFile a.job name (some content)).setPhase w a (.writing todo))
  | writeCompared {w : WorkerId} {content checkpoint : Content} {a : Attempt}
      {name : FileName} {todo : List FileName} (hbusy : s.workers w = .busy a)
      (hphase : a.phase = .comparing checkpoint (name :: todo)) (hpulse : a.pulse = none) :
      StepCase s (.write w content)
        ((s.setFile a.job name (some content)).setPhase w a (.comparing checkpoint todo))
  | skipComparison {w : WorkerId} {checkpoint : Content} {a : Attempt}
      {todo : List FileName} (hbusy : s.workers w = .busy a)
      (hphase : a.phase = .comparing checkpoint (.commonEvaluationJson :: todo)) :
      StepCase s (.skipComparison w) (s.setPhase w a (.comparing checkpoint todo))
  | load {w : WorkerId} {checkpoint : Content} {a : Attempt}
      (hbusy : s.workers w = .busy a) (hphase : a.phase = .writing [])
      (hread : s.files a.job .bestPt = some checkpoint) :
      StepCase s (.load w) (s.setPhase w a (.comparing checkpoint comparedFiles))
  | loadFailed {w : WorkerId} {a : Attempt}
      (hbusy : s.workers w = .busy a) (hphase : a.phase = .writing []) :
      StepCase s (.load w) (s.setPhase w a (.cleaning artifactError allFiles))
  | finalise {w : WorkerId} {version : VersionId} {now : Time} {checkpoint : Content}
      {a : Attempt} {job : Job} (hbusy : s.workers w = .busy a)
      (hphase : a.phase = .comparing checkpoint [])
      (hjob : s.jobs.get? a.job = some job) (hflag : job.cancelRequested = false)
      (htag : tagTaken s.versions a.tenant (trainedTag a.job) = false) :
      StepCase s (.finalise w version now)
        { s.setWorker w .polling with
          jobs := s.jobs.update a.job (finaliseAssign version now)
          versions := s.versions ++
            [⟨version, a.tenant, trainedTag a.job, some a.job, some checkpoint⟩] }
  | finaliseRefused {w : WorkerId} {version : VersionId} {now : Time} {a : Attempt}
      {exc : Exc} (hbusy : s.workers w = .busy a) (hphase : a.phase.training = true) :
      StepCase s (.finalise w version now) (s.setPhase w a (.cleaning exc allFiles))
  | raise {w : WorkerId} {exc : Exc} {a : Attempt} (hbusy : s.workers w = .busy a)
      (hphase : a.phase.training = true) :
      StepCase s (.raise w exc) (s.setPhase w a (.cleaning exc allFiles))
  | removeFile {w : WorkerId} {exc : Exc} {a : Attempt} {name : FileName}
      {todo : List FileName} (hbusy : s.workers w = .busy a)
      (hphase : a.phase = .cleaning exc (name :: todo)) :
      StepCase s (.removeFile w true)
        ((s.setFile a.job name none).setPhase w a (.cleaning exc todo))
  | keepFile {w : WorkerId} {exc : Exc} {a : Attempt} {name : FileName}
      {todo : List FileName} (hbusy : s.workers w = .busy a)
      (hphase : a.phase = .cleaning exc (name :: todo)) :
      StepCase s (.removeFile w false) (s.setPhase w a (.cleaning exc todo))
  | readFailed {w : WorkerId} {exc : Exc} {a : Attempt} {job : Job}
      (hbusy : s.workers w = .busy a) (hphase : a.phase = .cleaning exc [])
      (hjob : s.jobs.get? a.job = some job) :
      StepCase s (.readFailed w) (s.setPhase w a (.recording exc job))
  | writeFailed {w : WorkerId} {now : Time} {exc : Exc} {loaded : Job} {a : Attempt}
      (hbusy : s.workers w = .busy a) (hphase : a.phase = .recording exc loaded) :
      StepCase s (.writeFailed w now)
        { s.setWorker w .polling with
          jobs := s.jobs.update a.job
            (Job.flush loaded (finishFailedAssign exc now loaded)) }
  | abandon {w : WorkerId} {a : Attempt} (hbusy : s.workers w = .busy a)
      (hphase : a.phase.failing = true) :
      StepCase s (.abandon w) (s.setWorker w .polling)
  | cancel {id : JobId} {now : Time} {job job' : Job}
      (hjob : s.jobs.get? id = some job) (hok : cancelTraining now job = .ok job') :
      StepCase s (.cancel id now) { s with jobs := s.jobs.update id fun _ => job' }
  | createBegin {tenant : TenantId} {request : CreateRequest} {cooldown now : Time}
      (hfree : s.creating tenant = none)
      (hok : checkTrainingEligibility s.jobs tenant cooldown now = .ok ()) :
      StepCase s (.createBegin tenant request cooldown now)
        { s with creating := Function.update s.creating tenant (some request) }
  | createCommit {tenant : TenantId} {id : JobId} {now : Time} {creation : Creation}
      {request : CreateRequest} (hlock : s.creating tenant = some request)
      (hfresh : s.jobs.get? id = none) :
      StepCase s (.createCommit tenant id now creation)
        { s with
          jobs := s.jobs.insert id
            (newJob tenant request.requestId request.payloadHash now creation)
          versions := s.versions ++ createdVersion tenant creation
          creating := Function.update s.creating tenant none }
  | createAbort {tenant : TenantId} :
      StepCase s (.createAbort tenant)
        { s with creating := Function.update s.creating tenant none }

/-- **Inversion.**  A successful step is one of the listed cases. -/
theorem step_cases {s s' : State} {act : Action} (h : step s act = some s') :
    StepCase s act s' := by
  cases act with
  | start w =>
      simp only [step] at h
      split at h
      · next hc => cases h; exact .start hc.1 hc.2
      · cases h
  | guardLost => cases h; exact .guardLost
  | leave w => cases h; exact .leave
  | claim w now tenantActive locked =>
      simp only [step, stepClaim] at h
      split at h
      · next hpolling =>
          split at h
          · next hpick => cases h; exact .claimNone hpolling hpick
          · next hpick => cases h; exact .claim hpolling hpick
      · cases h
  | readProgress w stage percent =>
      obtain ⟨a, hbusy, h⟩ := State.onAttempt_eq_some.mp h
      split at h
      · next hphase hpulse hjob =>
          split at h
          · next hflag =>
              cases h
              exact .progressCancelled hbusy (by simp [hphase, Phase.training]) hpulse hjob hflag
          · next hflag =>
              cases h
              exact .readProgress hbusy (by simp [hphase, Phase.training]) hpulse hjob
                (by simpa using hflag)
      · next hphase hpulse hjob =>
          split at h
          · next hflag =>
              cases h
              exact .progressCancelled hbusy (by simp [hphase, Phase.training]) hpulse hjob hflag
          · next hflag =>
              cases h
              exact .readProgress hbusy (by simp [hphase, Phase.training]) hpulse hjob
                (by simpa using hflag)
      · cases h
  | writeProgress w now =>
      obtain ⟨a, hbusy, h⟩ := State.onAttempt_eq_some.mp h
      split at h
      · next hpulse => cases h; exact .writeProgress hbusy hpulse
      · cases h
  | write w content =>
      obtain ⟨a, hbusy, h⟩ := State.onAttempt_eq_some.mp h
      split at h
      · next hphase hpulse => cases h; exact .writePrepared hbusy hphase hpulse
      · next hphase hpulse => cases h; exact .writeCompared hbusy hphase hpulse
      · cases h
  | skipComparison w =>
      obtain ⟨a, hbusy, h⟩ := State.onAttempt_eq_some.mp h
      split at h
      · next hphase _ => cases h; exact .skipComparison hbusy hphase
      · cases h
  | load w =>
      obtain ⟨a, hbusy, h⟩ := State.onAttempt_eq_some.mp h
      split at h
      · next hphase _ =>
          split at h
          · split at h
            · next hread => cases h; exact .load hbusy hphase hread
            · cases h
          · cases h; exact .loadFailed hbusy hphase
      · cases h
  | finalise w version now =>
      obtain ⟨a, hbusy, h⟩ := State.onAttempt_eq_some.mp h
      split at h
      · next hphase _ hjob =>
          have htraining : a.phase.training = true := by simp [hphase, Phase.training]
          split at h
          · cases h; exact .finaliseRefused hbusy htraining
          · next hflag =>
              split at h
              · cases h; exact .finaliseRefused hbusy htraining
              · next htag =>
                  split at h
                  · cases h
                    exact .finalise hbusy hphase hjob (by simpa using hflag)
                      (by simpa using htag)
                  · cases h
      · cases h
  | raise w exc =>
      obtain ⟨a, hbusy, h⟩ := State.onAttempt_eq_some.mp h
      split at h
      · next hphase =>
          split at h
          · cases h
          · cases h; exact .raise hbusy (by simp [hphase, Phase.training])
      · next hphase =>
          split at h
          · cases h
          · cases h; exact .raise hbusy (by simp [hphase, Phase.training])
      · cases h
  | removeFile w removed =>
      obtain ⟨a, hbusy, h⟩ := State.onAttempt_eq_some.mp h
      split at h
      · next hphase =>
          cases h
          cases removed
          · exact .keepFile hbusy hphase
          · exact .removeFile hbusy hphase
      · cases h
  | readFailed w =>
      obtain ⟨a, hbusy, h⟩ := State.onAttempt_eq_some.mp h
      split at h
      · next hphase hjob => cases h; exact .readFailed hbusy hphase hjob
      · cases h
  | writeFailed w now =>
      obtain ⟨a, hbusy, h⟩ := State.onAttempt_eq_some.mp h
      split at h
      · next hphase => cases h; exact .writeFailed hbusy hphase
      · cases h
  | abandon w =>
      obtain ⟨a, hbusy, h⟩ := State.onAttempt_eq_some.mp h
      split at h
      · next hphase =>
          cases h; exact .abandon hbusy (by simp [hphase, Phase.failing, Phase.training])
      · next hphase =>
          cases h; exact .abandon hbusy (by simp [hphase, Phase.failing, Phase.training])
      · cases h
  | cancel id now =>
      simp only [step, stepCancel] at h
      split at h
      · next hjob =>
          split at h
          · next hok => cases h; exact .cancel hjob hok
          · cases h
      · cases h
  | createBegin tenant request cooldown now =>
      simp only [step, stepCreateBegin] at h
      split at h
      · next hfree =>
          split at h
          · next hok => cases h; exact .createBegin hfree.1 hok
          · cases h
      · cases h
  | createCommit tenant id now creation =>
      simp only [step, stepCreateCommit] at h
      split at h
      · next hlock hfresh => cases h; exact .createCommit hlock hfresh
      · cases h
  | createAbort tenant => cases h; exact .createAbort

/-! ## One job -/

/-- How the action `act`, taken in state `s`, turns the row `r` of job `id` into
`r'`. -/
inductive RowStep (s : State) : Action → JobId → Option Job → Option Job → Prop
  | unchanged (act : Action) (id : JobId) (r : Option Job) : RowStep s act id r r
  /-- The first statement of `claim_training_job`. -/
  | reclaimed {w : WorkerId} {now : Time} {tenantActive : TenantId → Bool}
      {locked : JobId → Bool} {id : JobId} {j : Job} :
      RowStep s (.claim w now tenantActive locked) id (some j) (some (reclaim now j))
  /-- Its second statement picked this job. -/
  | claimed {w : WorkerId} {now : Time} {tenantActive : TenantId → Bool}
      {locked : JobId → Bool} {id : JobId} {j : Job}
      (hqueued : (reclaim now j).status = .queued) :
      RowStep s (.claim w now tenantActive locked) id (some j)
        (some (claim now (reclaim now j)))
  | progressed {w : WorkerId} {now : Time} {a : Attempt} {p : Pulse} {j : Job}
      (hbusy : s.workers w = .busy a) (hpulse : a.pulse = some p) :
      RowStep s (.writeProgress w now) a.job (some j)
        (some (Job.flush p.loaded (progressAssign p.stage p.percent now p.loaded) j))
  | finalised {w : WorkerId} {version : VersionId} {now : Time} {a : Attempt} {j : Job}
      (hbusy : s.workers w = .busy a) (hflag : j.cancelRequested = false)
      (htag : tagTaken s.versions a.tenant (trainedTag a.job) = false) :
      RowStep s (.finalise w version now) a.job (some j)
        (some (finaliseAssign version now j))
  | recorded {w : WorkerId} {now : Time} {a : Attempt} {exc : Exc} {loaded j : Job}
      (hbusy : s.workers w = .busy a) (hphase : a.phase = .recording exc loaded) :
      RowStep s (.writeFailed w now) a.job (some j)
        (some (Job.flush loaded (finishFailedAssign exc now loaded) j))
  | cancelled {id : JobId} {now : Time} {j j' : Job}
      (hok : cancelTraining now j = .ok j') :
      RowStep s (.cancel id now) id (some j) (some j')
  | created {tenant : TenantId} {id : JobId} {now : Time} {creation : Creation}
      {request : CreateRequest} (hlock : s.creating tenant = some request) :
      RowStep s (.createCommit tenant id now creation) id none
        (some (newJob tenant request.requestId request.payloadHash now creation))

/-- `reclaim` keeps the columns it does not write. -/
@[simp] theorem reclaim_tenant (now : Time) (j : Job) : (reclaim now j).tenant = j.tenant := by
  unfold reclaim; split <;> rfl

@[simp] theorem reclaim_attempts (now : Time) (j : Job) :
    (reclaim now j).attempts = j.attempts := by
  unfold reclaim; split <;> rfl

@[simp] theorem reclaim_cancelRequested (now : Time) (j : Job) :
    (reclaim now j).cancelRequested = j.cancelRequested := by
  unfold reclaim; split <;> rfl

@[simp] theorem reclaim_modelVersionId (now : Time) (j : Job) :
    (reclaim now j).modelVersionId = j.modelVersionId := by
  unfold reclaim; split <;> rfl

/-- Reclaiming only moves a running job: back to the queue or, with its attempts
used up, to failed. -/
theorem reclaim_status (now : Time) (j : Job) :
    (reclaim now j).status = j.status ∨
      (j.status = .running ∧ j.attempts < maxAttempts ∧ (reclaim now j).status = .queued) ∨
      (j.status = .running ∧ ¬ j.attempts < maxAttempts ∧ (reclaim now j).status = .failed) := by
  unfold reclaim
  split
  · next h =>
      by_cases hlt : j.attempts < maxAttempts <;> simp [h.1, hlt]
  · exact .inl rfl

/-- Reclaiming leaves an ended job alone. -/
theorem reclaim_of_terminal (now : Time) {j : Job} (h : j.status.terminal = true) :
    (reclaim now j).status = j.status := by
  rcases reclaim_status now j with hs | ⟨hrun, _⟩ | ⟨hrun, _⟩
  · exact hs
  · simp [hrun, Status.terminal, Status.active] at h
  · simp [hrun, Status.terminal, Status.active] at h

/-- What is active after reclaiming was active before. -/
theorem active_of_reclaim {now : Time} {j : Job} (h : (reclaim now j).status.active = true) :
    j.status.active = true := by
  by_contra hended
  rw [reclaim_of_terminal now (by simpa [Status.terminal] using hended)] at h
  exact hended h

/-- The picked row of `claim_training_job`: it was queued, perhaps only just by
the first statement, and is claimed now.  Every other row is at most
reclaimed. -/
theorem claimTrainingJob_get? (now : Time) (tenantActive : TenantId → Bool)
    (locked : JobId → Bool) (jobs : Table JobId Job) (id : JobId) :
    (¬ (∃ tenant, (claimTrainingJob now tenantActive locked jobs).2 = some (id, tenant)) ∧
        (claimTrainingJob now tenantActive locked jobs).1.get? id =
          (jobs.get? id).map (reclaim now)) ∨
      ∃ j, (claimTrainingJob now tenantActive locked jobs).2 = some (id, j.tenant) ∧
        jobs.get? id = some j ∧ (reclaim now j).status = .queued ∧
        (claimTrainingJob now tenantActive locked jobs).1.get? id =
          some (claim now (reclaim now j)) := by
  unfold claimTrainingJob
  cases hpick : (jobs.updateWhere fun _ j => reclaim now j).first
      (claimable tenantActive locked) Job.createdAt with
  | none => left; simp [hpick]
  | some row =>
      obtain ⟨picked, j⟩ := row
      have hspec := Table.first_spec _ hpick
      simp only [hpick, Table.get?_update, Table.get?_updateWhere]
      by_cases hid : id = picked
      · right
        subst hid
        rw [Table.get?_updateWhere] at hspec
        obtain ⟨old, hold, rfl⟩ := Option.map_eq_some_iff.mp hspec.1
        have hclaimable := hspec.2
        simp only [claimable, Bool.and_eq_true, decide_eq_true_eq] at hclaimable
        exact ⟨old, by rw [reclaim_tenant], hold, hclaimable.1.1.1, by simp [hold]⟩
      · left
        have hne : ¬ picked = id := fun h => hid h.symm
        simp [hid, hne]

/-- A call of `claim_training_job` reclaims or claims a row. -/
private theorem rowStep_claim {s : State} (w : WorkerId) (now : Time)
    (tenantActive : TenantId → Bool) (locked : JobId → Bool) (id : JobId) :
    RowStep s (.claim w now tenantActive locked) id (s.jobs.get? id)
      ((claimTrainingJob now tenantActive locked s.jobs).1.get? id) := by
  rcases claimTrainingJob_get? now tenantActive locked s.jobs id with
    ⟨_, hrow⟩ | ⟨j, _, hj, hqueued, hrow⟩
  · rw [hrow]
    cases s.jobs.get? id with
    | none => exact .unchanged _ _ _
    | some j => exact .reclaimed
  · rw [hrow, hj]
    exact .claimed hqueued

/-- An update of one row is a row step when it is one at its key. -/
private theorem rowStep_update {s : State} {act : Action} {key : JobId} {f : Job → Job}
    (id : JobId)
    (hkey : ∀ j, s.jobs.get? key = some j → RowStep s act key (some j) (some (f j))) :
    RowStep s act id (s.jobs.get? id) ((s.jobs.update key f).get? id) := by
  rw [Table.get?_update]
  by_cases hid : id = key
  · subst hid
    rw [if_pos rfl]
    cases hrow : s.jobs.get? id with
    | none => exact .unchanged _ _ _
    | some j => exact hkey j hrow
  · rw [if_neg hid]
    exact .unchanged _ _ _

/-- **Row inversion.**  Every step changes the row of a job in one of the ways
`RowStep` lists. -/
theorem step_row {s s' : State} {act : Action} (h : step s act = some s') (id : JobId) :
    RowStep s act id (s.jobs.get? id) (s'.jobs.get? id) := by
  cases step_cases h with
  | claimNone => exact rowStep_claim _ _ _ _ id
  | claim => exact rowStep_claim _ _ _ _ id
  | writeProgress hbusy hpulse =>
      exact rowStep_update id fun j _ => .progressed hbusy hpulse
  | @finalise _ _ _ _ _ job hbusy _ hjob hflag htag =>
      refine rowStep_update id fun j hj => ?_
      obtain rfl : job = j := Option.some.inj (hjob.symm.trans hj)
      exact .finalised hbusy hflag htag
  | writeFailed hbusy hphase =>
      exact rowStep_update id fun j _ => .recorded hbusy hphase
  | @cancel _ _ job _ hjob hok =>
      refine rowStep_update id fun j hj => ?_
      obtain rfl : job = j := Option.some.inj (hjob.symm.trans hj)
      exact .cancelled hok
  | @createCommit _ key _ _ _ hlock hfresh =>
      simp only [Table.get?_insert _ hfresh]
      by_cases hid : id = key
      · subst hid
        rw [if_pos rfl, hfresh]
        exact .created hlock
      · rw [if_neg hid]
        exact .unchanged _ _ _
  | _ => exact .unchanged _ _ _

/-- Check `p` on what the flush of `finish_failed_job` by worker `w` is about: the
exception, the row as it was read, and the row as it is stored now. -/
def State.recordCheck (s : State) (w : WorkerId) (p : Exc → Job → Job → Bool) : Bool :=
  match s.workers w with
  | .busy a =>
      match a.phase, s.jobs.get? a.job with
      | .recording exc loaded, some stored => p exc loaded stored
      | _, _ => true
  | _ => true

theorem State.recordCheck_eq {s : State} {w : WorkerId} {p : Exc → Job → Job → Bool}
    {a : Attempt} {exc : Exc} {loaded stored : Job} (hbusy : s.workers w = .busy a)
    (hphase : a.phase = .recording exc loaded) (hrow : s.jobs.get? a.job = some stored) :
    s.recordCheck w p = p exc loaded stored := by
  simp [State.recordCheck, hbusy, hphase, hrow]

/-! ## The registered versions -/

/-- The versions whose artifact directory is that of a job. -/
def trainedVersions (versions : List Version) (id : JobId) : List Version :=
  versions.filter fun v => decide (v.directory = some id)

/-- A step leaves the versions trained by a job alone, or is the finalising
transaction of that job, which saw no cancellation. -/
theorem step_trainedVersions {s s' : State} {act : Action} (h : step s act = some s')
    (id : JobId) :
    trainedVersions s'.versions id = trainedVersions s.versions id ∨
      ∃ job, s.jobs.get? id = some job ∧ job.cancelRequested = false := by
  cases step_cases h with
  | @finalise _ _ _ _ a job _ _ hjob hflag _ =>
      by_cases hid : a.job = id
      · subst hid
        exact .inr ⟨job, hjob, hflag⟩
      · left
        simp [trainedVersions, hid]
  | @createCommit _ _ _ creation _ _ _ =>
      left
      cases creation <;> simp [trainedVersions, createdVersion]
  | _ => exact .inl rfl

end Training
