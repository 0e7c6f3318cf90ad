import GraphRec.Training.Steps

/-!
# The life of a job

Two laws of the training queue, over all interleavings of any number of
workers with the API and the scheduler:

* **terminal states are final** (`terminalFinal_of_outcomeWhileOpen`) — not in
  general: `finish_failed_job` writes its outcome without looking at the row
  again and the finalising transaction looks at the cancellation flag only, so
  a worker whose job was reclaimed can overwrite an outcome
  (`not_terminalFinal`).  It holds in every run in which outcomes are recorded
  for open jobs only;
* **an accepted cancellation is never lost** (`cancel_never_lost`) — the flag
  is never cleared and is read again under the row lock at the one point that
  publishes a model.
-/

namespace Training

open Transition

/-! ## What a flush leaves alone -/

section Columns

variable (loaded stored : Job) (exc : Exc) (now : Time) (stage : Stage) (percent : Nat)

@[simp] theorem flush_status (assigned : Job) :
    (Job.flush loaded assigned stored).status =
      writeColumn loaded.status assigned.status stored.status := rfl

@[simp] theorem flush_attempts (assigned : Job) :
    (Job.flush loaded assigned stored).attempts =
      writeColumn loaded.attempts assigned.attempts stored.attempts := rfl

@[simp] theorem finishFailedAssign_tenant :
    (finishFailedAssign exc now loaded).tenant = loaded.tenant := by
  unfold finishFailedAssign; split
  · rfl
  · rfl
  · split <;> rfl

@[simp] theorem finishFailedAssign_cancelRequested :
    (finishFailedAssign exc now loaded).cancelRequested = loaded.cancelRequested := by
  unfold finishFailedAssign; split
  · rfl
  · rfl
  · split <;> rfl

@[simp] theorem finishFailedAssign_modelVersionId :
    (finishFailedAssign exc now loaded).modelVersionId = loaded.modelVersionId := by
  unfold finishFailedAssign; split
  · rfl
  · rfl
  · split <;> rfl

/-- A failure record can change status, attempts and the like; the tenant, the
cancellation flag and the version stay as stored. -/
theorem recorded_kept :
    (Job.flush loaded (finishFailedAssign exc now loaded) stored).tenant = stored.tenant ∧
      (Job.flush loaded (finishFailedAssign exc now loaded) stored).cancelRequested =
        stored.cancelRequested ∧
      (Job.flush loaded (finishFailedAssign exc now loaded) stored).modelVersionId =
        stored.modelVersionId := by
  simp [Job.flush]

/-- The status after a failure record: the stored one when the outcome repeats the
status that was read, else the outcome. -/
theorem recorded_status :
    (exc.outcome loaded = loaded.status ∧
        (Job.flush loaded (finishFailedAssign exc now loaded) stored).status = stored.status) ∨
      (exc.outcome loaded ≠ loaded.status ∧
        (Job.flush loaded (finishFailedAssign exc now loaded) stored).status =
          exc.outcome loaded) := by
  rw [flush_status, finishFailedAssign_status]
  exact writeColumn_cases loaded.status (exc.outcome loaded) stored.status

/-- A progress record leaves everything that decides the job's fate alone. -/
theorem progressed_kept :
    (Job.flush loaded (progressAssign stage percent now loaded) stored).tenant =
        stored.tenant ∧
      (Job.flush loaded (progressAssign stage percent now loaded) stored).cancelRequested =
        stored.cancelRequested ∧
      (Job.flush loaded (progressAssign stage percent now loaded) stored).modelVersionId =
        stored.modelVersionId ∧
      (Job.flush loaded (progressAssign stage percent now loaded) stored).status =
        stored.status ∧
      (Job.flush loaded (progressAssign stage percent now loaded) stored).attempts =
        stored.attempts := by
  simp [Job.flush, progressAssign]

end Columns

/-- An accepted cancellation flags the job; a queued one ends, a running one
runs on. -/
theorem cancelTraining_ok {now : Time} {j j' : Job} (h : cancelTraining now j = .ok j') :
    j'.cancelRequested = true ∧ j'.tenant = j.tenant ∧ j'.attempts = j.attempts ∧
      j'.modelVersionId = j.modelVersionId ∧
      ((j.status = .queued ∧ j'.status = .cancelled) ∨
        (j.status = .running ∧ j'.status = .running)) := by
  unfold cancelTraining at h
  cases hs : j.status <;> simp [Status.active, hs] at h <;> subst h <;> simp

/-- A row, once inserted, stays. -/
theorem RowStep.persists {s : State} {act : Action} {id : JobId} {j : Job}
    {r : Option Job} (h : RowStep s act id (some j) r) : ∃ j', r = some j' := by
  cases h <;> exact ⟨_, rfl⟩

/-! ## Terminal states -/

/-- The condition on a step that records an outcome: the job has not ended, or
nothing will come of the record.  The finalising transaction refuses a flagged
job and a tag that is taken; the flush of `finish_failed_job` leaves the status
alone when it repeats the one loaded or the one stored. -/
def outcomeWhileOpen (s : State) : Action → Bool
  | .finalise w _ _ =>
      match s.workers w with
      | .busy a =>
          match s.jobs.get? a.job with
          | some j =>
              !j.status.terminal || j.cancelRequested ||
                tagTaken s.versions a.tenant (trainedTag a.job)
          | none => true
      | _ => true
  | .writeFailed w _ =>
      s.recordCheck w fun exc loaded stored =>
        !stored.status.terminal || decide (exc.outcome loaded = loaded.status) ||
          decide (exc.outcome loaded = stored.status)
  | _ => true

/-- In `s` a version is recorded exactly for the jobs that succeeded, and `t`, a
later state, has the terminal statuses of `s` unchanged. -/
def TerminalFinal (s t : State) : Prop :=
  ∀ ⦃id : JobId⦄ ⦃j : Job⦄, s.jobs.get? id = some j →
    (j.modelVersionId.isSome = true ↔ j.status = .succeeded) ∧
      (j.status.terminal = true → ∃ j', t.jobs.get? id = some j' ∧ j'.status = j.status)

/-- A version is recorded exactly when the job succeeded. -/
def VersionIffSucceeded (r : Option Job) : Prop :=
  ∀ j, r = some j → (j.modelVersionId.isSome = true ↔ j.status = .succeeded)

/-- Reclaiming keeps versions and successes apart from the rest. -/
private theorem reclaim_versionIff (now : Time) {j : Job}
    (hj : j.modelVersionId.isSome = true ↔ j.status = .succeeded) :
    (reclaim now j).modelVersionId.isSome = true ↔ (reclaim now j).status = .succeeded := by
  rw [reclaim_modelVersionId]
  rcases reclaim_status now j with h | ⟨hrun, _, h⟩ | ⟨hrun, _, h⟩
  · rw [h]; exact hj
  · simpa [h, hrun] using hj
  · simpa [h, hrun] using hj

/-- The flush of `finish_failed_job` under the condition leaves the status of an
ended job alone. -/
private theorem recorded_terminal {exc : Exc} {now : Time} {loaded j : Job}
    (hok : (!j.status.terminal || decide (exc.outcome loaded = loaded.status) ||
      decide (exc.outcome loaded = j.status)) = true) (hterm : j.status.terminal = true) :
    (Job.flush loaded (finishFailedAssign exc now loaded) j).status = j.status := by
  rcases recorded_status loaded j exc now with ⟨_, hkept⟩ | ⟨hmoved, hnew⟩
  · exact hkept
  · have hsame : exc.outcome loaded = j.status := by simpa [hterm, hmoved] using hok
    rw [hnew, hsame]

/-- **Step lemma.**  A step that records outcomes for open jobs only leaves the
status of an ended job alone. -/
theorem RowStep.terminal {s : State} {act : Action} {id : JobId} {j : Job} {r : Option Job}
    (hok : outcomeWhileOpen s act = true) (hr : s.jobs.get? id = some j)
    (h : RowStep s act id (some j) r) (hterm : j.status.terminal = true) :
    ∃ j', r = some j' ∧ j'.status = j.status := by
  cases h with
  | unchanged => exact ⟨j, rfl, rfl⟩
  | @reclaimed _ now => exact ⟨_, rfl, reclaim_of_terminal now hterm⟩
  | @claimed _ now _ _ _ _ hqueued =>
      rw [← reclaim_of_terminal now hterm, hqueued] at hterm
      simp [Status.terminal, Status.active] at hterm
  | @progressed _ now _ p =>
      obtain ⟨_, _, _, hstatus, _⟩ := progressed_kept p.loaded j now p.stage p.percent
      exact ⟨_, rfl, hstatus⟩
  | finalised hbusy hflag htag =>
      simp [outcomeWhileOpen, hbusy, hr, hterm, hflag, htag] at hok
  | recorded hbusy hphase =>
      rw [outcomeWhileOpen, State.recordCheck_eq hbusy hphase hr] at hok
      exact ⟨_, rfl, recorded_terminal hok hterm⟩
  | cancelled hcancel =>
      obtain ⟨_, _, _, _, hstatus⟩ := cancelTraining_ok hcancel
      rcases hstatus with ⟨hold, _⟩ | ⟨hold, _⟩ <;>
        simp [hold, Status.terminal, Status.active] at hterm

/-- **Step lemma.**  Such a step keeps versions and successes together. -/
theorem RowStep.versionIff {s : State} {act : Action} {id : JobId} {r r' : Option Job}
    (hok : outcomeWhileOpen s act = true) (hr : s.jobs.get? id = r)
    (h : RowStep s act id r r') (hinv : VersionIffSucceeded r) : VersionIffSucceeded r' := by
  cases h with
  | unchanged => exact hinv
  | @reclaimed _ now _ _ _ j =>
      intro _ hcase
      cases hcase
      exact reclaim_versionIff now (hinv j rfl)
  | @claimed _ now _ _ _ j hqueued =>
      intro _ hcase
      cases hcase
      simpa [claim, hqueued] using reclaim_versionIff now (hinv j rfl)
  | @progressed _ now _ p j =>
      obtain ⟨_, _, hversion, hstatus, _⟩ :=
        progressed_kept p.loaded j now p.stage p.percent
      intro _ hcase
      cases hcase
      rw [hversion, hstatus]
      exact hinv j rfl
  | finalised =>
      intro _ hcase
      cases hcase
      simp [finaliseAssign]
  | @recorded _ now a exc loaded j hbusy hphase =>
      obtain ⟨_, _, hversion⟩ := recorded_kept loaded j exc now
      intro _ hcase
      cases hcase
      rw [hversion, hinv j rfl]
      constructor
      · intro hsucc
        rw [outcomeWhileOpen, State.recordCheck_eq hbusy hphase hr] at hok
        rw [recorded_terminal hok (by rw [hsucc]; rfl), hsucc]
      · -- No exception records a success, so the status is the stored one.
        intro hsucc
        rcases recorded_status loaded j exc now with ⟨_, hkept⟩ | ⟨_, hnew⟩
        · exact hkept.symm.trans hsucc
        · exact absurd (hnew.symm.trans hsucc) (exc.outcome_ne loaded).1
  | @cancelled _ _ j j' hcancel =>
      obtain ⟨_, _, _, hversion, hstatus⟩ := cancelTraining_ok hcancel
      have hj := hinv j rfl
      intro _ hcase
      cases hcase
      rw [hversion]
      rcases hstatus with ⟨hold, hnew⟩ | ⟨hold, hnew⟩ <;> simpa [hold, hnew] using hj
  | @created _ _ _ creation _ _ =>
      intro _ hcase
      cases hcase
      cases creation <;> simp [newJob]

/-- **Terminal states are final** in every run that records outcomes for open
jobs only. -/
theorem terminalFinal_of_outcomeWhileOpen {s t : State} {as : List Action}
    (hs : Reachable system (fun s act => outcomeWhileOpen s act = true) s)
    (hrun : Run system (fun s act => outcomeWhileOpen s act = true) s as t) :
    TerminalFinal s t := by
  intro id j hj
  have hinv : VersionIffSucceeded (s.jobs.get? id) := by
    refine Reachable.invariant (P := fun s => VersionIffSucceeded (s.jobs.get? id))
      ?_ ?_ hs
    · intro j hj
      simp [system, initial] at hj
    · intro s act s' hinv hok hstep
      exact (step_row hstep id).versionIff hok rfl hinv
  refine ⟨hinv j hj, fun hterm => ?_⟩
  -- Carried along the run: the status and the link between version and success.
  have hend : VersionIffSucceeded (t.jobs.get? id) ∧
      ∃ j', t.jobs.get? id = some j' ∧ j'.status = j.status := by
    refine Run.invariant
      (P := fun s => VersionIffSucceeded (s.jobs.get? id) ∧
        ∃ j', s.jobs.get? id = some j' ∧ j'.status = j.status)
      ?_ hrun ⟨hinv, j, hj, rfl⟩
    intro s act s' hnow hok hstep
    obtain ⟨hver, j₁, hj₁, hst₁⟩ := hnow
    have hrow := step_row hstep id
    have hver' := hrow.versionIff hok rfl hver
    rw [hj₁] at hrow
    obtain ⟨j₂, hj₂, hst₂⟩ := hrow.terminal hok hj₁ (by rw [hst₁]; exact hterm)
    exact ⟨hver', j₂, hj₂, hst₂.trans hst₁⟩
  exact hend.2

/-- The files of one training attempt, with the artifact loaded between the two
groups. -/
def artifactRun (w : WorkerId) (content : Content) : List Action :=
  preparedFiles.map (fun _ => .write w content) ++
    .load w :: comparedFiles.map fun _ => .write w content

/-- Worker 1 claims a job and stalls; its guard connection dies, worker 2 starts,
reclaims the job after the stale window and completes it. -/
def takeoverRun : List Action :=
  [.createBegin 0 ⟨none, "payload"⟩ 0 0, .createCommit 0 1 0 .queued, .start 1,
    .claim 1 0 (fun _ => true) (fun _ => false), .guardLost, .start 2,
    .claim 2 400 (fun _ => true) (fun _ => false)] ++
    artifactRun 2 5 ++ [.finalise 2 7 500]

/-- Worker `w` fails with `exc`, cleans up and records its outcome. -/
def failureRun (w : WorkerId) (exc : Exc) (now : Time) : List Action :=
  .raise w exc :: allFiles.map (fun _ => .removeFile w true) ++
    [.readFailed w, .writeFailed w now]

/-- The budget error of a training attempt that took too long. -/
def budgetError : Exc := .error .other "ValueError" "Training exceeded its processing budget"

/-- What an execution left in a job's row. -/
def jobAfter (as : List Action) (id : JobId) : Option Job :=
  (exec system initial as).bind fun s => s.jobs.get? id

/-- An execution that left a row behind is a run to a state with that row. -/
theorem run_of_jobAfter {as : List Action} {id : JobId} {j : Job}
    (h : jobAfter as id = some j) :
    ∃ s, exec system initial as = some s ∧ Run system anyStep initial as s ∧
      s.jobs.get? id = some j := by
  obtain ⟨s, hexec, hj⟩ := Option.bind_eq_some_iff.mp h
  exact ⟨s, hexec, run_of_exec hexec, hj⟩

/-- **Not in general.**  Worker 1, late, records its failure over the success of
worker 2: the job is failed and still has its version. -/
theorem not_terminalFinal :
    ¬ ∀ s t as, Reachable system anyStep s → Run system anyStep s as t → TerminalFinal s t := by
  intro hfinal
  have hdone : (jobAfter takeoverRun 1).map Job.status = some .succeeded := by decide
  have hlate : (jobAfter (takeoverRun ++ failureRun 1 budgetError 600) 1).map Job.status =
      some .failed := by decide
  obtain ⟨j, hj, hsucc⟩ := Option.map_eq_some_iff.mp hdone
  obtain ⟨j', hj', hfail⟩ := Option.map_eq_some_iff.mp hlate
  obtain ⟨s, hexec, hrun, hrow⟩ := run_of_jobAfter hj
  obtain ⟨t, hexec', _, hrow'⟩ := run_of_jobAfter hj'
  rw [exec_append, hexec] at hexec'
  obtain ⟨_, hkeep⟩ := hfinal s t _ ⟨_, hrun⟩ (run_of_exec hexec') hrow
  obtain ⟨j₂, hj₂, hstatus⟩ := hkeep (by rw [hsucc]; rfl)
  obtain rfl : j' = j₂ := Option.some.inj (hrow'.symm.trans hj₂)
  rw [hsucc, hfail] at hstatus
  cases hstatus

/-- Worker 1, late, trains on and comes to the finalising transaction. -/
def lateRun : List Action := artifactRun 1 6 ++ [.finalise 1 8 600]

/-- A run that meets the condition: a worker is overtaken by a second one, which
publishes its model, and then comes to its own finalising transaction.  The tag is
taken, so the job keeps its success. -/
theorem terminalFinal_takeover :
    ∃ s t j j', Reachable system (fun s act => outcomeWhileOpen s act = true) s ∧
      Run system (fun s act => outcomeWhileOpen s act = true) s lateRun t ∧
      s.jobs.get? 1 = some j ∧ j.status = .succeeded ∧ j.modelVersionId.isSome = true ∧
      t.jobs.get? 1 = some j' ∧ j'.status = .succeeded := by
  have hdone : ((execWhile system outcomeWhileOpen initial takeoverRun).bind fun s =>
      (execWhile system outcomeWhileOpen s lateRun).bind fun _ =>
        (s.jobs.get? 1).map Job.status) = some .succeeded := by decide
  obtain ⟨s, hexec, hdone⟩ := Option.bind_eq_some_iff.mp hdone
  obtain ⟨t, hlate, hrow⟩ := Option.bind_eq_some_iff.mp hdone
  obtain ⟨j, hj, hsucc⟩ := Option.map_eq_some_iff.mp hrow
  have hreach := run_of_execWhile hexec
  have hlater := run_of_execWhile hlate
  obtain ⟨hversion, hkeep⟩ := terminalFinal_of_outcomeWhileOpen ⟨_, hreach⟩ hlater hj
  obtain ⟨j', hj', hstatus⟩ := hkeep (by rw [hsucc]; rfl)
  exact ⟨s, t, j, j', ⟨_, hreach⟩, hlater, hj, hsucc, hversion.mpr hsucc, hj',
    hstatus.trans hsucc⟩

/-! ## Cancellation -/

/-- **Step lemma.**  A flagged job keeps its flag and its version, and does not
become a success. -/
theorem RowStep.flagged {s : State} {act : Action} {id : JobId} {j : Job}
    {r : Option Job} (h : RowStep s act id (some j) r) (hflag : j.cancelRequested = true) :
    ∃ j', r = some j' ∧ j'.cancelRequested = true ∧
      j'.modelVersionId = j.modelVersionId ∧
      (j'.status = .succeeded → j.status = .succeeded) := by
  cases h with
  | unchanged => exact ⟨j, rfl, hflag, rfl, fun hsucc => hsucc⟩
  | @reclaimed _ now =>
      refine ⟨_, rfl, by simpa using hflag, by simp, fun hsucc => ?_⟩
      rcases reclaim_status now j with hs | ⟨_, _, hs⟩ | ⟨_, _, hs⟩
      · rw [← hs]; exact hsucc
      · simp [hs] at hsucc
      · simp [hs] at hsucc
  | claimed => exact ⟨_, rfl, by simpa [claim] using hflag, by simp [claim], by simp [claim]⟩
  | @progressed _ now _ p =>
      obtain ⟨_, hcancel, hversion, hstatus, _⟩ :=
        progressed_kept p.loaded j now p.stage p.percent
      exact ⟨_, rfl, hcancel.trans hflag, hversion, fun hsucc => hstatus ▸ hsucc⟩
  | finalised hbusy hfalse _ =>
      rw [hflag] at hfalse
      cases hfalse
  | @recorded _ now _ exc loaded _ hbusy hphase =>
      obtain ⟨_, hcancel, hversion⟩ := recorded_kept loaded j exc now
      refine ⟨_, rfl, hcancel.trans hflag, hversion, fun hsucc => ?_⟩
      rcases recorded_status loaded j exc now with ⟨_, hkept⟩ | ⟨_, hnew⟩
      · exact hkept.symm.trans hsucc
      · exact absurd (hnew.symm.trans hsucc) (exc.outcome_ne loaded).1
  | cancelled hok =>
      obtain ⟨hcancel, _, _, hversion, hstatus⟩ := cancelTraining_ok hok
      refine ⟨_, rfl, hcancel, hversion, fun hsucc => ?_⟩
      rcases hstatus with ⟨_, hnew⟩ | ⟨_, hnew⟩ <;> simp [hnew] at hsucc

/-- **An accepted cancellation is never lost.**  Whatever workers, API and
scheduler do afterwards, the job does not succeed and no version is recorded
for it, neither in its row nor among the registered versions. -/
theorem cancel_never_lost {s s₁ t : State} {id : JobId} {now : Time} {as : List Action}
    (hcancel : step s (.cancel id now) = some s₁)
    (hrun : Run system anyStep s₁ as t) :
    ∃ j₁ j, s₁.jobs.get? id = some j₁ ∧ t.jobs.get? id = some j ∧
      j.status ≠ .succeeded ∧ j.modelVersionId = j₁.modelVersionId ∧
      trainedVersions t.versions id = trainedVersions s₁.versions id := by
  obtain ⟨j₁, hj₁, hflag₁, hopen₁⟩ : ∃ j₁, s₁.jobs.get? id = some j₁ ∧
      j₁.cancelRequested = true ∧ j₁.status ≠ .succeeded := by
    cases step_cases hcancel with
    | @cancel _ _ job job' hjob hok =>
        obtain ⟨hflag, _, _, _, hstatus⟩ := cancelTraining_ok hok
        refine ⟨job', by simp [Table.get?_update, hjob], hflag, ?_⟩
        rcases hstatus with ⟨_, hnew⟩ | ⟨_, hnew⟩ <;> simp [hnew]
  have hend : ∃ j, t.jobs.get? id = some j ∧ j.cancelRequested = true ∧
      j.status ≠ .succeeded ∧ j.modelVersionId = j₁.modelVersionId ∧
      trainedVersions t.versions id = trainedVersions s₁.versions id := by
    refine Run.invariant
      (P := fun s => ∃ j, s.jobs.get? id = some j ∧ j.cancelRequested = true ∧
        j.status ≠ .succeeded ∧ j.modelVersionId = j₁.modelVersionId ∧
        trainedVersions s.versions id = trainedVersions s₁.versions id)
      ?_ hrun ⟨j₁, hj₁, hflag₁, hopen₁, rfl, rfl⟩
    intro u act u' hnow _ hstep
    obtain ⟨j, hj, hflag, hopen, hversion, htrained⟩ := hnow
    have hrow := step_row hstep id
    rw [hj] at hrow
    obtain ⟨j', hj', hflag', hversion', hsucc⟩ := hrow.flagged hflag
    refine ⟨j', hj', hflag', fun h => hopen (hsucc h), hversion'.trans hversion, ?_⟩
    rcases step_trainedVersions hstep id with hsame | ⟨job, hjob, hfalse⟩
    · exact hsame.trans htrained
    · obtain rfl : j = job := Option.some.inj (hj.symm.trans hjob)
      rw [hflag] at hfalse
      cases hfalse
  obtain ⟨j, hj, _, hopen, hversion, htrained⟩ := hend
  exact ⟨j₁, j, hj₁, hj, hopen, hversion, htrained⟩

/-- A cancellation between the last progress check and the finalising
transaction: the worker finds the flag under the lock. -/
theorem cancel_never_lost_at_finalise :
    ∃ s s₁ t j, step s (.cancel 1 450) = some s₁ ∧
      Run system anyStep s₁ [.finalise 1 7 500] t ∧ t.jobs.get? 1 = some j ∧
      j.status ≠ .succeeded := by
  have hexec : ((exec system initial ([.createBegin 0 ⟨none, "payload"⟩ 0 0,
      .createCommit 0 1 0 .queued, .start 1,
      .claim 1 0 (fun _ => true) (fun _ => false)] ++ artifactRun 1 5)).bind fun s =>
        (step s (.cancel 1 450)).bind fun s₁ =>
          exec system s₁ [.finalise 1 7 500]).isSome = true := by decide
  obtain ⟨t, ht⟩ := Option.isSome_iff_exists.mp hexec
  obtain ⟨s, _, ht⟩ := Option.bind_eq_some_iff.mp ht
  obtain ⟨s₁, hcancel, ht⟩ := Option.bind_eq_some_iff.mp ht
  obtain ⟨_, j, _, hj, hopen, _⟩ := cancel_never_lost hcancel (run_of_exec ht)
  exact ⟨s, s₁, t, j, hcancel, run_of_exec ht, hj, hopen⟩

end Training
