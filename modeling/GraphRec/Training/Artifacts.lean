import GraphRec.Training.Queue

/-!
# The artifact directory of a job

All attempts of a job write to, and clean up, the directory named by the job.
`published_intact` shows that the directory of a registered version stays as it
was registered in every run in which files are touched, the version is
registered and ended jobs are put back by the job's last claimant only.  Nothing
in the code checks this: a worker that was overtaken cleans up the directory
of the version that the other one published (`not_published_intact`).

The induction carries three facts about the last claimant (`ArtifactInv`): it is
done with a job whose directory is registered, the checkpoint it has loaded is
the one in the directory, and it will not write that file again.
-/

namespace Training

open Transition

/-- Worker `w` is at work on job `id` and claimed it last. -/
def Holds (s : State) (w : WorkerId) (id : JobId) : Prop :=
  s.holder id = some w ∧ ∃ a, s.workers w = .busy a ∧ a.job = id

/-- Is this worker the last claimant of the job it is busy with? -/
def notOvertaken (s : State) (w : WorkerId) : Bool :=
  match s.workers w with
  | .busy a => decide (s.holder a.job = some w)
  | _ => true

/-- The condition on a step: whoever writes or removes a file, registers the
version, or puts an ended job back to the queue is the job's last claimant. -/
def byLastClaimant (s : State) : Action → Bool
  | .write w _ => notOvertaken s w
  | .removeFile w removed => !removed || notOvertaken s w
  | .finalise w _ _ => notOvertaken s w
  | .writeFailed w now => requeueWhileOpen s (.writeFailed w now) || notOvertaken s w
  | _ => true

/-- The artifact directory of a version registered in `s` has the same files in
`t`, a later state, and there its checkpoint is the recorded one. -/
def PublishedIntact (s t : State) : Prop :=
  ∀ v ∈ s.versions, ∀ id, v.directory = some id →
    t.files id = s.files id ∧ v.checkpoint.isSome = true ∧ t.files id .bestPt = v.checkpoint

/-! ## What one step does to files, claims and attempts -/

theorem notOvertaken_holds {s : State} {w : WorkerId} {a : Attempt}
    (hbusy : s.workers w = .busy a) (h : notOvertaken s w = true) : Holds s w a.job := by
  refine ⟨?_, a, hbusy, rfl⟩
  simpa [notOvertaken, hbusy] using h

/-- A step under the condition changes a directory only for the worker that holds
its job, and not the checkpoint that this worker has loaded. -/
theorem step_files {s s' : State} {act : Action} (h : step s act = some s')
    (hok : byLastClaimant s act = true) (id : JobId) :
    s'.files id = s.files id ∨
      ∃ w a name content, Holds s w id ∧ s.workers w = .busy a ∧ a.job = id ∧
        s'.files id = Function.update (s.files id) name content ∧
        ∀ checkpoint todo, a.phase = .comparing checkpoint todo → name ∈ todo := by
  -- Steps that do not touch a file are closed by `rfl`; the three that do name
  -- the worker and the file.
  cases step_cases h with
  | @writePrepared w content a name todo hbusy hphase hpulse =>
      by_cases hid : id = a.job
      · subst hid
        refine .inr ⟨w, a, name, some content, notOvertaken_holds hbusy hok, hbusy, rfl, ?_, ?_⟩
        · simp [State.setFile]
        · simp [hphase]
      · simp [State.setFile, hid]
  | @writeCompared w content checkpoint a name todo hbusy hphase hpulse =>
      by_cases hid : id = a.job
      · subst hid
        refine .inr ⟨w, a, name, some content, notOvertaken_holds hbusy hok, hbusy, rfl, ?_, ?_⟩
        · simp [State.setFile]
        · intro _ _ hcomparing
          rw [hphase] at hcomparing
          injection hcomparing with _ htodo
          exact htodo ▸ List.mem_cons_self
      · simp [State.setFile, hid]
  | @removeFile w exc a name todo hbusy hphase =>
      by_cases hid : id = a.job
      · subst hid
        have hholds : notOvertaken s w = true := by simpa [byLastClaimant] using hok
        refine .inr ⟨w, a, name, none, notOvertaken_holds hbusy hholds,
          hbusy, rfl, ?_, ?_⟩
        · simp [State.setFile]
        · simp [hphase]
      · simp [State.setFile, hid]
  | _ => exact .inl rfl

/-- What `claim_training_job` picks was queued or running. -/
theorem active_of_claimed {now : Time} {tenantActive : TenantId → Bool}
    {locked : JobId → Bool} {jobs : Table JobId Job} {id : JobId} {tenant : TenantId}
    (hpick : (claimTrainingJob now tenantActive locked jobs).2 = some (id, tenant)) :
    ∃ j, jobs.get? id = some j ∧ j.status.active = true := by
  rcases claimTrainingJob_get? now tenantActive locked jobs id with
    ⟨hnot, _⟩ | ⟨j, _, hj, hqueued, _⟩
  · exact absurd ⟨tenant, hpick⟩ hnot
  · exact ⟨j, hj, active_of_reclaim (by rw [hqueued]; rfl)⟩

/-- The last claimant changes by a claim only. -/
theorem step_holder {s s' : State} {act : Action} (h : step s act = some s') (id : JobId) :
    s'.holder id = s.holder id ∨
      ∃ w j, s.workers w = .polling ∧ s'.holder id = some w ∧
        s.jobs.get? id = some j ∧ j.status.active = true := by
  cases step_cases h with
  | @claim w now tenantActive locked picked tenant hpolling hpick =>
      by_cases hid : id = picked
      · subst hid
        obtain ⟨j, hj, hactive⟩ := active_of_claimed hpick
        exact .inr ⟨w, j, hpolling, by simp, hj, hactive⟩
      · simp [hid]
  | _ => exact .inl rfl

/-- Where an attempt comes from: a claim, an attempt of the worker at the same
job, or, once the artifact is loaded, the directory as it is. -/
inductive AttemptStep (s s' : State) (w : WorkerId) (a' : Attempt) : Prop
  | claimed (hphase : a'.phase = .writing preparedFiles)
      (hrow : ∃ j, s.jobs.get? a'.job = some j ∧ j.status.active = true)
  | kept (a : Attempt) (hbusy : s.workers w = .busy a) (hjob : a'.job = a.job)
      (hphase : ∀ checkpoint todo', a'.phase = .comparing checkpoint todo' →
        ∃ todo, a.phase = .comparing checkpoint todo ∧ ∀ name ∈ todo', name ∈ todo)
  | loaded (a : Attempt) (hbusy : s.workers w = .busy a) (hjob : a'.job = a.job)
      (checkpoint : Content) (hphase : a'.phase = .comparing checkpoint comparedFiles)
      (hread : s.files a.job .bestPt = some checkpoint) (hfiles : s'.files = s.files)

/-- A worker other than the acting one keeps its attempt. -/
private theorem attemptStep_of_update {s s' : State} {w w₀ : WorkerId} {x : Worker}
    {a' : Attempt} (h : Function.update s.workers w₀ x w = .busy a')
    (hacting : w = w₀ → x = .busy a' → AttemptStep s s' w a') : AttemptStep s s' w a' := by
  by_cases hw : w = w₀
  · subst hw
    exact hacting rfl (by simpa using h)
  · rw [Function.update_of_ne hw] at h
    exact .kept a' h rfl fun _ todo hphase => ⟨todo, hphase, fun _ hname => hname⟩

/-- An attempt that moved to a phase in which no checkpoint is loaded. -/
private theorem attemptStep_moved {s s' : State} {w : WorkerId} {a a' : Attempt}
    (hbusy : s.workers w = .busy a) (hjob : a'.job = a.job)
    (hphase : ∀ checkpoint todo, a'.phase ≠ .comparing checkpoint todo) :
    AttemptStep s s' w a' :=
  .kept a hbusy hjob fun checkpoint todo h => absurd h (hphase checkpoint todo)

/-- An attempt whose phase is what it was. -/
private theorem attemptStep_same {s s' : State} {w : WorkerId} {a a' : Attempt}
    (hbusy : s.workers w = .busy a) (hjob : a'.job = a.job) (hphase : a'.phase = a.phase) :
    AttemptStep s s' w a' :=
  .kept a hbusy hjob fun _ todo h => ⟨todo, hphase ▸ h, fun _ hname => hname⟩

theorem step_attempt {s s' : State} {act : Action} (h : step s act = some s')
    {w : WorkerId} {a' : Attempt} (hbusy' : s'.workers w = .busy a') :
    AttemptStep s s' w a' := by
  cases step_cases h with
  | start | leave | abandon | finalise | writeFailed =>
      exact attemptStep_of_update hbusy' fun _ hx => by cases hx
  | guardLost | claimNone | cancel | createBegin | createCommit | createAbort =>
      exact attemptStep_same hbusy' rfl rfl
  | claim _ hpick =>
      refine attemptStep_of_update hbusy' ?_
      intro heq hcase
      subst heq
      cases hcase
      exact .claimed rfl (active_of_claimed hpick)
  | readProgress hbusy | writeProgress hbusy =>
      refine attemptStep_of_update hbusy' ?_
      intro heq hcase
      subst heq
      cases hcase
      exact attemptStep_same hbusy rfl rfl
  | progressCancelled hbusy | writePrepared hbusy | loadFailed hbusy | finaliseRefused hbusy
  | raise hbusy | removeFile hbusy | keepFile hbusy | readFailed hbusy =>
      refine attemptStep_of_update hbusy' ?_
      intro heq hcase
      subst heq
      cases hcase
      exact attemptStep_moved hbusy rfl fun _ _ h => by cases h
  | writeCompared hbusy hphase | skipComparison hbusy hphase =>
      refine attemptStep_of_update hbusy' ?_
      intro heq hcase
      subst heq
      cases hcase
      refine .kept _ hbusy rfl fun _ _ h => ?_
      cases h
      exact ⟨_, hphase, fun _ hname => List.mem_cons_of_mem _ hname⟩
  | load hbusy _ hread =>
      refine attemptStep_of_update hbusy' ?_
      intro heq hcase
      subst heq
      cases hcase
      exact .loaded _ hbusy rfl _ rfl hread rfl

/-- Versions are only added, and one with a directory by the finalising
transaction of its job. -/
theorem step_versions {s s' : State} {act : Action} (h : step s act = some s') :
    (∀ v ∈ s.versions, v ∈ s'.versions) ∧
      ∀ v ∈ s'.versions, ∀ id, v.directory = some id → v ∈ s.versions ∨
        ∃ w version now a checkpoint j, act = .finalise w version now ∧
          s.workers w = .busy a ∧ a.job = id ∧ a.phase = .comparing checkpoint [] ∧
          v.checkpoint = some checkpoint ∧ s'.workers w = .polling ∧
          s'.files = s.files ∧ s'.holder = s.holder ∧
          s'.jobs.get? id = some j ∧ j.status.terminal = true := by
  cases step_cases h with
  | @finalise w version now checkpoint a job hbusy hphase hjob =>
      refine ⟨fun v hv => List.mem_append_left _ hv, fun v hv id hdir => ?_⟩
      rcases List.mem_append.mp hv with hold | hnew
      · exact .inl hold
      · right
        obtain rfl := List.mem_singleton.mp hnew
        obtain rfl := Option.some.inj hdir
        refine ⟨w, version, now, a, checkpoint, finaliseAssign version now job, rfl, hbusy, rfl,
          hphase, rfl, by simp, rfl, rfl, ?_, rfl⟩
        simp [Table.get?_update, hjob]
  | @createCommit _ _ _ creation =>
      refine ⟨fun v hv => List.mem_append_left _ hv, fun v hv id hdir => ?_⟩
      rcases List.mem_append.mp hv with hold | hnew
      · exact .inl hold
      · cases creation <;> simp [createdVersion] at hnew
        all_goals
          subst hnew
          cases hdir
  | _ => exact ⟨fun _ hv => hv, fun _ hv _ _ => .inl hv⟩

/-! ## The invariant -/

structure ArtifactInv (s : State) : Prop where
  /-- A job whose directory is registered has ended, and its last claimant is
  done with it. -/
  ended : ∀ v ∈ s.versions, ∀ id, v.directory = some id →
    (∃ j, s.jobs.get? id = some j ∧ j.status.terminal = true) ∧ ∀ w, ¬ Holds s w id
  /-- The checkpoint in a registered directory is the recorded one. -/
  recorded : ∀ v ∈ s.versions, ∀ id, v.directory = some id →
    v.checkpoint.isSome = true ∧ s.files id .bestPt = v.checkpoint
  /-- The last claimant has loaded the checkpoint that is in the directory. -/
  loaded : ∀ w a checkpoint todo, s.workers w = .busy a →
    a.phase = .comparing checkpoint todo → s.holder a.job = some w →
    s.files a.job .bestPt = some checkpoint
  /-- No worker that has loaded a checkpoint writes one. -/
  written : ∀ w a checkpoint todo, s.workers w = .busy a →
    a.phase = .comparing checkpoint todo → FileName.bestPt ∉ todo

section Step

variable {s s' : State} {act : Action}

/-- A step under the condition leaves a directory that nobody holds alone. -/
theorem files_of_not_holds (h : step s act = some s') (hok : byLastClaimant s act = true)
    {id : JobId} (hfree : ∀ w, ¬ Holds s w id) : s'.files id = s.files id := by
  rcases step_files h hok id with hsame | ⟨w, _, _, _, hholds, _⟩
  · exact hsame
  · exact absurd hholds (hfree w)

/-- A worker that holds an ended job after a step held it before. -/
theorem holds_of_step (h : step s act = some s') {id : JobId} {j : Job}
    (hj : s.jobs.get? id = some j) (hterm : j.status.terminal = true) {w : WorkerId}
    (hholds : Holds s' w id) : Holds s w id := by
  have hnot : ∀ j', s.jobs.get? id = some j' → j'.status.active = true → False := by
    intro j' hj' hactive
    obtain rfl : j = j' := Option.some.inj (hj.symm.trans hj')
    simp [Status.terminal, hactive] at hterm
  obtain ⟨hholder, a', hbusy', rfl⟩ := hholds
  have hsame : s.holder a'.job = some w := by
    rcases step_holder h a'.job with hsame | ⟨_, j', _, _, hj', hactive⟩
    · rw [← hsame]; exact hholder
    · exact (hnot j' hj' hactive).elim
  cases step_attempt h hbusy' with
  | claimed _ hrow =>
      obtain ⟨j', hj', hactive⟩ := hrow
      exact (hnot j' hj' hactive).elim
  | kept a hbusy hjob => exact ⟨hsame, a, hbusy, hjob.symm⟩
  | loaded a hbusy hjob => exact ⟨hsame, a, hbusy, hjob.symm⟩

/-- A job that has ended and that nobody holds stays so under the condition. -/
theorem ended_step (h : step s act = some s') (hok : byLastClaimant s act = true)
    {id : JobId} (hended : (∃ j, s.jobs.get? id = some j ∧ j.status.terminal = true) ∧
      ∀ w, ¬ Holds s w id) :
    (∃ j, s'.jobs.get? id = some j ∧ j.status.terminal = true) ∧ ∀ w, ¬ Holds s' w id := by
  obtain ⟨⟨j, hj, hterm⟩, hfree⟩ := hended
  refine ⟨?_, fun w hholds => hfree w (holds_of_step h hj hterm hholds)⟩
  have hrow := step_row h id
  rw [hj] at hrow
  obtain ⟨j', hj'⟩ := hrow.persists
  refine ⟨j', hj', ?_⟩
  rw [hj'] at hrow
  by_contra hopen
  have hactive : j'.status.active = true := by simpa [Status.terminal] using hopen
  have hwake : requeueWhileOpen s act = true → False := by
    intro hrequeue
    have := (hrow.active_of hrequeue hj hactive).1
    simp [Status.terminal, this] at hterm
  -- The one step that may wake an ended job is the flush by its last claimant.
  cases act with
  | writeFailed w now =>
      rcases Bool.or_eq_true_iff.mp hok with hrequeue | hown
      · exact hwake hrequeue
      · cases hrow with
        | unchanged => simp [Status.terminal, hactive] at hterm
        | recorded hbusy _ => exact hfree w (notOvertaken_holds hbusy hown)
  | _ => exact hwake rfl

/-- The checkpoint that the last claimant has loaded stays the one in the
directory. -/
theorem loaded_step (hinv : ArtifactInv s) (h : step s act = some s')
    (hok : byLastClaimant s act = true) {w : WorkerId} {a' : Attempt} {checkpoint : Content}
    {todo' : List FileName} (hbusy' : s'.workers w = .busy a')
    (hphase' : a'.phase = .comparing checkpoint todo') (hholder' : s'.holder a'.job = some w) :
    s'.files a'.job .bestPt = some checkpoint := by
  cases step_attempt h hbusy' with
  | claimed hphase _ => rw [hphase] at hphase'; cases hphase'
  | loaded a hbusy hjob c hphase hread hfiles =>
      rw [hphase] at hphase'
      injection hphase' with hcheckpoint _
      rw [hfiles, hjob, hread, hcheckpoint]
  | kept a hbusy hjob hphase =>
      obtain ⟨todo, hphase, _⟩ := hphase checkpoint todo' hphase'
      rw [hjob] at hholder' ⊢
      have hholder : s.holder a.job = some w := by
        rcases step_holder h a.job with hsame | ⟨w₁, _, hpolling, hclaim, _, _⟩
        · rw [← hsame]; exact hholder'
        · rw [hclaim, Option.some.injEq] at hholder'
          rw [hholder', hbusy] at hpolling
          cases hpolling
      have hread := hinv.loaded w a checkpoint todo hbusy hphase hholder
      rcases step_files h hok a.job with hsame | ⟨w₁, a₁, name, content, hholds, hbusy₁, _,
        hfiles, hname⟩
      · rw [hsame]; exact hread
      · -- The writer is this very worker, and it does not write the checkpoint.
        obtain rfl : w = w₁ := Option.some.inj (hholder.symm.trans hholds.1)
        obtain rfl : a = a₁ := by
          rw [hbusy] at hbusy₁
          injection hbusy₁
        have hne : FileName.bestPt ≠ name := by
          intro heq
          subst heq
          exact hinv.written w a checkpoint todo hbusy hphase (hname checkpoint todo hphase)
        rw [hfiles, Function.update_of_ne hne]
        exact hread

/-- A worker that has loaded a checkpoint has none left to write. -/
theorem written_step (hinv : ArtifactInv s) (h : step s act = some s') {w : WorkerId}
    {a' : Attempt} {checkpoint : Content} {todo' : List FileName}
    (hbusy' : s'.workers w = .busy a') (hphase' : a'.phase = .comparing checkpoint todo') :
    FileName.bestPt ∉ todo' := by
  cases step_attempt h hbusy' with
  | claimed hphase _ => rw [hphase] at hphase'; cases hphase'
  | loaded a hbusy hjob c hphase _ _ =>
      rw [hphase] at hphase'
      injection hphase' with _ htodo
      subst htodo
      decide
  | kept a hbusy _ hphase =>
      obtain ⟨todo, hphase, hsub⟩ := hphase checkpoint todo' hphase'
      intro hmem
      exact hinv.written w a checkpoint todo hbusy hphase (hsub _ hmem)

/-- **Step lemma.**  A step under the condition keeps the invariant. -/
theorem artifactInv_step (hinv : ArtifactInv s) (h : step s act = some s')
    (hok : byLastClaimant s act = true) : ArtifactInv s' := by
  have hversions := (step_versions h).2
  constructor
  · intro v hv id hdir
    rcases hversions v hv id hdir with hold | ⟨w, version, now, a, checkpoint, j, rfl, hbusy,
      rfl, _, _, hpolling, _, hholder, hj, hterm⟩
    · exact ended_step h hok (hinv.ended v hold id hdir)
    · refine ⟨⟨j, hj, hterm⟩, ?_⟩
      -- The worker that registered the version was the last claimant, and polls on.
      intro w' hcase
      obtain ⟨hlast, a', hbusy', _⟩ := hcase
      have hw : w = w' := by
        have hholds := (notOvertaken_holds hbusy hok).1
        rw [hholder, hholds] at hlast
        exact Option.some.inj hlast
      rw [← hw, hpolling] at hbusy'
      cases hbusy'
  · intro v hv id hdir
    rcases hversions v hv id hdir with hold | ⟨w, version, now, a, checkpoint, j, rfl, hbusy,
      rfl, hphase, hcheckpoint, _, hfiles, _, _, _⟩
    · rw [files_of_not_holds h hok (hinv.ended v hold id hdir).2]
      exact hinv.recorded v hold id hdir
    · rw [hcheckpoint, hfiles]
      have hholds := (notOvertaken_holds hbusy hok).1
      exact ⟨rfl, hinv.loaded w a checkpoint [] hbusy hphase hholds⟩
  · intro w a' checkpoint todo' hbusy' hphase' hholder'
    exact loaded_step hinv h hok hbusy' hphase' hholder'
  · intro w a' checkpoint todo' hbusy' hphase'
    exact written_step hinv h hbusy' hphase'

end Step

/-- **Published artifacts stay intact** in every run in which only the last
claimant of a job touches its files, registers its version and puts it back. -/
theorem published_intact {s t : State} {as : List Action}
    (hs : Reachable system (fun s act => byLastClaimant s act = true) s)
    (hrun : Run system (fun s act => byLastClaimant s act = true) s as t) :
    PublishedIntact s t := by
  intro v hv id hdir
  have hinv : ArtifactInv s := by
    refine Reachable.invariant (P := ArtifactInv) ?_ ?_ hs
    · constructor
      · intro v hv; simp [system, initial] at hv
      · intro v hv; simp [system, initial] at hv
      · intro w a _ _ hbusy; simp [system, initial] at hbusy
      · intro w a _ _ hbusy; simp [system, initial] at hbusy
    · exact fun s act s' hinv hok hstep => artifactInv_step hinv hstep hok
  have hend : ArtifactInv t ∧ v ∈ t.versions ∧ t.files id = s.files id := by
    refine Run.invariant
      (P := fun u => ArtifactInv u ∧ v ∈ u.versions ∧ u.files id = s.files id)
      ?_ hrun ⟨hinv, hv, rfl⟩
    intro u act u' hnow hok hstep
    obtain ⟨hinv, hv, hfiles⟩ := hnow
    have hfree := (hinv.ended v hv id hdir).2
    exact ⟨artifactInv_step hinv hstep hok, (step_versions hstep).1 v hv,
      (files_of_not_holds hstep hok hfree).trans hfiles⟩
  obtain ⟨hinv', hv', hfiles⟩ := hend
  exact ⟨hfiles, hinv'.recorded v hv' id hdir⟩

/-- **Not in general.**  Worker 1, overtaken by worker 2, fails after worker 2
published its model, and removes the directory. -/
theorem not_published_intact :
    ¬ ∀ s t as, Reachable system anyStep s → Run system anyStep s as t → PublishedIntact s t := by
  intro hintact
  have hdone : (exec system initial takeoverRun).map (fun s =>
      (s.versions.map Version.directory, s.files 1 .bestPt)) =
      some ([some 1], some 5) := by decide
  have hlate : ((exec system initial takeoverRun).bind fun s =>
      exec system s (failureRun 1 budgetError 600)).map (fun t => t.files 1 .bestPt) =
      some none := by decide
  obtain ⟨t, ht, hgone⟩ := Option.map_eq_some_iff.mp hlate
  obtain ⟨s, hexec, hrest⟩ := Option.bind_eq_some_iff.mp ht
  rw [hexec, Option.map_some, Option.some.injEq, Prod.mk.injEq] at hdone
  obtain ⟨v, hv, hdir⟩ := List.map_eq_singleton_iff.mp hdone.1
  have hkept := (hintact s t _ ⟨_, run_of_exec hexec⟩ (run_of_exec hrest) v (by simp [hv]) 1 hdir).1
  rw [hkept, hdone.2] at hgone
  cases hgone

/-- A takeover after which the overtaken worker leaves: the version keeps its
checkpoint. -/
theorem published_intact_takeover :
    ∃ s t, Reachable system (fun s act => byLastClaimant s act = true) s ∧
      (∃ v ∈ s.versions, v.directory = some 1) ∧ step s (.leave 1) = some t ∧
      t.files 1 .bestPt = some 5 ∧ t.files 1 = s.files 1 := by
  have hdone : (execWhile system byLastClaimant initial takeoverRun).map (fun s =>
      (s.versions.map fun v => (v.directory, v.checkpoint), (step s (.leave 1)).isSome)) =
      some ([(some 1, some 5)], true) := by decide
  obtain ⟨s, hexec, hs⟩ := Option.map_eq_some_iff.mp hdone
  rw [Prod.mk.injEq] at hs
  obtain ⟨t, hleave⟩ := Option.isSome_iff_exists.mp hs.2
  obtain ⟨v, hv, hcols⟩ := List.map_eq_singleton_iff.mp hs.1
  rw [Prod.mk.injEq] at hcols
  have hreach : Reachable system (fun s act => byLastClaimant s act = true) s :=
    ⟨_, run_of_execWhile hexec⟩
  have hmem : v ∈ s.versions := by simp [hv]
  have hrun : Run system (fun s act => byLastClaimant s act = true) s [.leave 1] t :=
    .cons rfl hleave (.nil t)
  obtain ⟨hkept, _, hbest⟩ := published_intact hreach hrun v hmem 1 hcols.1
  exact ⟨s, t, hreach, ⟨v, hmem, hcols.1⟩, hleave, hbest.trans hcols.2, hkept⟩

end Training
