import GraphRec.Training.Lifecycle

/-!
# The queue as a whole

Two laws about how many jobs and how many attempts there are:

* **one active job per tenant** (`oneActive_of_requeueWhileOpen`) — the check is
  made at creation, under the tenant's training lock; the writer that does not
  make it is `finish_failed_job`, which can put a job back to the queue after it
  ended and another one was created (`not_oneActive`);
* **bounded retries** (`retryBound_of_requeueWithinBudget`) — every claim uses up
  an attempt, a shutdown gives one back; a `finish_failed_job` that decides from
  a row read before another worker's claim breaks the bound
  (`not_retryBound`).
-/

namespace Training

open Transition

/-! ## One active job per tenant -/

/-- At most one job of a tenant is queued or running. -/
def OneActive (s : State) : Prop :=
  ∀ ⦃i k : JobId⦄ ⦃ji jk : Job⦄, s.jobs.get? i = some ji → s.jobs.get? k = some jk →
    ji.tenant = jk.tenant → ji.status.active = true → jk.status.active = true → i = k

/-- The condition on the flush of `finish_failed_job`: it moves a job to the
queue only while the job has not ended. -/
def requeueWhileOpen (s : State) : Action → Bool
  | .writeFailed w _ =>
      s.recordCheck w fun exc loaded stored =>
        !(exc.requeues loaded && decide (loaded.status ≠ .queued)) || !stored.status.terminal
  | _ => true

/-- The outcome is `queued` exactly when the job is put back. -/
theorem Exc.outcome_eq_queued {exc : Exc} {job : Job} :
    exc.outcome job = .queued ↔ exc.requeues job = true := by
  unfold Exc.outcome
  by_cases h : exc.requeues job = true
  · simp [h]
  · by_cases hc : exc = .cancelled <;> simp [h, hc]

/-- **Step lemma.**  A step under the condition wakes no job that has ended. -/
theorem RowStep.active_of {s : State} {act : Action} {id : JobId} {j j' : Job}
    (hok : requeueWhileOpen s act = true) (hr : s.jobs.get? id = some j)
    (h : RowStep s act id (some j) (some j')) (hactive : j'.status.active = true) :
    j.status.active = true ∧ j'.tenant = j.tenant := by
  cases h with
  | unchanged => exact ⟨hactive, rfl⟩
  | @reclaimed _ now => exact ⟨active_of_reclaim hactive, reclaim_tenant now j⟩
  | @claimed _ now _ _ _ _ hqueued =>
      exact ⟨active_of_reclaim (by rw [hqueued]; rfl), by simp [claim]⟩
  | @progressed _ now _ p =>
      obtain ⟨htenant, _, _, hstatus, _⟩ := progressed_kept p.loaded j now p.stage p.percent
      exact ⟨hstatus ▸ hactive, htenant⟩
  | finalised => simp [finaliseAssign, Status.active] at hactive
  | @recorded _ now _ exc loaded _ hbusy hphase =>
      refine ⟨?_, (recorded_kept loaded j exc now).1⟩
      rw [requeueWhileOpen, State.recordCheck_eq hbusy hphase hr] at hok
      rcases recorded_status loaded j exc now with ⟨_, hkept⟩ | ⟨hmoved, hnew⟩
      · rwa [hkept] at hactive
      · -- The flush wrote an active status, which can only be `queued`.
        rw [hnew] at hactive
        have hqueued : exc.outcome loaded = .queued := by
          have hne := (exc.outcome_ne loaded).2
          cases hout : exc.outcome loaded <;> simp_all [Status.active]
        have hrequeues := Exc.outcome_eq_queued.mp hqueued
        have hread : loaded.status ≠ .queued := fun h => hmoved (hqueued.trans h.symm)
        simpa [hrequeues, hread, Status.terminal] using hok
  | cancelled hcancel =>
      obtain ⟨_, htenant, _, _, hstatus⟩ := cancelTraining_ok hcancel
      refine ⟨?_, htenant⟩
      rcases hstatus with ⟨hold, _⟩ | ⟨hold, _⟩ <;> simp [hold, Status.active]

/-- A new row is the row of a creation that held the tenant's training lock and
gives it back. -/
theorem step_created {s s' : State} {act : Action} {id : JobId} {j : Job}
    (h : step s act = some s') (hnone : s.jobs.get? id = none)
    (hj : s'.jobs.get? id = some j) :
    ∃ now creation, act = .createCommit j.tenant id now creation ∧
      s.creating j.tenant ≠ none ∧ s'.creating j.tenant = none := by
  have hrow := step_row h id
  rw [hnone, hj] at hrow
  cases hrow with
  | @created tenant _ now creation request hlock =>
      refine ⟨now, creation, rfl, ?_, ?_⟩
      · simp [newJob, hlock]
      · cases step_cases h with
        | createCommit => simp [newJob]

/-- The training lock of a tenant is taken only after the check that no job of
the tenant is active. -/
theorem step_creating {s s' : State} {act : Action} (h : step s act = some s')
    (tenant : TenantId) :
    s'.creating tenant = s.creating tenant ∨ s'.creating tenant = none ∨
      (s'.jobs = s.jobs ∧ hasActiveJob s.jobs tenant = false) := by
  cases step_cases h with
  | @createBegin owner request cooldown now hfree hok =>
      by_cases ht : tenant = owner
      · subst ht
        have hidle : hasActiveJob s.jobs tenant = false := by
          by_contra hactive
          rw [checkTrainingEligibility, if_pos (Bool.not_eq_false _ ▸ hactive)] at hok
          cases hok
        exact .inr (.inr ⟨rfl, hidle⟩)
      · simp [ht]
  | @createCommit owner => by_cases ht : tenant = owner <;> simp [ht]
  | @createAbort owner => by_cases ht : tenant = owner <;> simp [ht]
  | _ => exact .inl rfl

/-- `hasActiveJob` looks at every row. -/
theorem not_active_of_hasActiveJob {jobs : Table JobId Job} {tenant : TenantId}
    (h : hasActiveJob jobs tenant = false) {id : JobId} {j : Job}
    (hj : jobs.get? id = some j) (ht : j.tenant = tenant) : j.status.active = false := by
  have hmem := (Table.mem_rows_iff jobs).mpr hj
  have hall := List.any_eq_false.mp h (id, j) hmem
  simpa [ht] using hall

/-- The invariant of the queue: one active job per tenant, and none at all while
a creation holds the tenant's training lock. -/
structure QueueInv (s : State) : Prop where
  oneActive : OneActive s
  idleWhileCreating : ∀ ⦃tenant⦄, s.creating tenant ≠ none →
    ∀ ⦃id j⦄, s.jobs.get? id = some j → j.tenant = tenant → j.status.active = false

/-- **Step lemma.**  A step under the condition keeps the invariant. -/
theorem queueInv_step {s s' : State} {act : Action} (hinv : QueueInv s)
    (hok : requeueWhileOpen s act = true) (h : step s act = some s') : QueueInv s' := by
  -- An active row was active before, or is new and belongs to a lock holder.
  have horigin : ∀ {id j'}, s'.jobs.get? id = some j' → j'.status.active = true →
      (∃ j, s.jobs.get? id = some j ∧ j.status.active = true ∧ j'.tenant = j.tenant) ∨
      ((∃ now creation, act = .createCommit j'.tenant id now creation) ∧
        s.creating j'.tenant ≠ none ∧ s'.creating j'.tenant = none) := by
    intro id j' hj' hactive
    cases hr : s.jobs.get? id with
    | none =>
        obtain ⟨now, creation, hact, hlock⟩ := step_created h hr hj'
        exact .inr ⟨⟨now, creation, hact⟩, hlock⟩
    | some j =>
        have hrow := step_row h id
        rw [hr, hj'] at hrow
        exact .inl ⟨j, rfl, hrow.active_of hok hr hactive⟩
  constructor
  · intro i k ji' jk' hi hk htenant hai hak
    rcases horigin hi hai with ⟨ji, hji, hai₀, hti⟩ | ⟨⟨_, _, hacti⟩, hlocki, _⟩ <;>
      rcases horigin hk hak with ⟨jk, hjk, hak₀, htk⟩ | ⟨⟨_, _, hactk⟩, hlockk, _⟩
    · exact hinv.oneActive hji hjk (by rw [← hti, ← htk, htenant]) hai₀ hak₀
    · have hidle := hinv.idleWhileCreating hlockk hji (by rw [← hti, htenant])
      rw [hidle] at hai₀
      cases hai₀
    · have hidle := hinv.idleWhileCreating hlocki hjk (by rw [← htk, htenant])
      rw [hidle] at hak₀
      cases hak₀
    · rw [hacti] at hactk
      injection hactk
  · intro tenant hlock id j' hj' ht
    by_contra hactive
    rw [Bool.not_eq_false] at hactive
    rcases horigin hj' hactive with ⟨j, hj, hactive₀, htj⟩ | ⟨_, _, hfree⟩
    · have hidle : j.status.active = false := by
        rcases step_creating h tenant with hsame | hfree | ⟨_, hnone⟩
        · rw [hsame] at hlock
          exact hinv.idleWhileCreating hlock hj (by rw [← htj, ht])
        · exact absurd hfree hlock
        · exact not_active_of_hasActiveJob hnone hj (by rw [← htj, ht])
      rw [hidle] at hactive₀
      cases hactive₀
    · rw [ht] at hfree
      exact hlock hfree

/-- **One active job per tenant** in every run in which `finish_failed_job` moves
a job to the queue only while it has not ended. -/
theorem oneActive_of_requeueWhileOpen {s : State}
    (h : Reachable system (fun s act => requeueWhileOpen s act = true) s) : OneActive s := by
  refine (Reachable.invariant (P := QueueInv) ?_ ?_ h).oneActive
  · constructor
    · intro i k ji jk hi
      simp [system, initial] at hi
    · intro tenant hlock
      exact absurd rfl hlock
  · exact fun s act s' hinv hok hstep => queueInv_step hinv hok hstep

/-- Job 1 is overtaken and completed by worker 2; job 2 is created; then worker 1
shuts down and hands job 1 back. -/
def wakingRun : List Action :=
  takeoverRun ++ [.createBegin 0 ⟨none, "payload"⟩ 0 550, .createCommit 0 2 550 .queued] ++
    failureRun 1 .shuttingDown 600

/-- **Not in general.**  After `wakingRun` two jobs of the tenant are queued. -/
theorem not_oneActive : ¬ ∀ s, Reachable system anyStep s → OneActive s := by
  intro hone
  have hfirst : (jobAfter wakingRun 1).map (fun j => (j.tenant, j.status)) =
      some (0, .queued) := by decide
  have hsecond : (jobAfter wakingRun 2).map (fun j => (j.tenant, j.status)) =
      some (0, .queued) := by decide
  obtain ⟨j₁, hj₁, h₁⟩ := Option.map_eq_some_iff.mp hfirst
  obtain ⟨j₂, hj₂, h₂⟩ := Option.map_eq_some_iff.mp hsecond
  obtain ⟨s, hexec, hrun, hrow₁⟩ := run_of_jobAfter hj₁
  obtain ⟨t, hexec', _, hrow₂⟩ := run_of_jobAfter hj₂
  obtain rfl : s = t := Option.some.inj (hexec.symm.trans hexec')
  rw [Prod.mk.injEq] at h₁ h₂
  have hsame : (1 : JobId) = 2 :=
    hone s ⟨_, hrun⟩ hrow₁ hrow₂ (h₁.1.trans h₂.1.symm) (by rw [h₁.2]; rfl) (by rw [h₂.2]; rfl)
  exact absurd hsame (by decide)

/-- A worker that shuts down hands its job back: it stays the only one. -/
theorem oneActive_shutdown :
    ∃ s j, Reachable system (fun s act => requeueWhileOpen s act = true) s ∧
      s.jobs.get? 1 = some j ∧ j.status = .queued ∧ OneActive s := by
  have hdone : ((execWhile system requeueWhileOpen initial
      ([.createBegin 0 ⟨none, "payload"⟩ 0 0, .createCommit 0 1 0 .queued, .start 1,
        .claim 1 0 (fun _ => true) (fun _ => false)] ++
        failureRun 1 .shuttingDown 100)).bind fun s =>
      (s.jobs.get? 1).map Job.status) = some .queued := by decide
  obtain ⟨s, hexec, hrow⟩ := Option.bind_eq_some_iff.mp hdone
  obtain ⟨j, hj, hqueued⟩ := Option.map_eq_some_iff.mp hrow
  have hreach : Reachable system (fun s act => requeueWhileOpen s act = true) s :=
    ⟨_, run_of_execWhile hexec⟩
  exact ⟨s, j, hreach, hj, hqueued, oneActive_of_requeueWhileOpen hreach⟩

/-! ## Bounded retries -/

/-- The claim picks this job. -/
def claimsJob (id : JobId) (s : State) : Action → Bool
  | .claim w now tenantActive locked =>
      decide (s.workers w = .polling) &&
        ((claimTrainingJob now tenantActive locked s.jobs).2.map Prod.fst == some id)
  | _ => false

/-- The flush of `finish_failed_job` after a shutdown: the one write that gives an
attempt back. -/
def givesBack (id : JobId) (s : State) : Action → Bool
  | .writeFailed w _ =>
      match s.workers w with
      | .busy a =>
          decide (a.job = id) &&
            match a.phase with
            | .recording exc _ => decide (exc = .shuttingDown)
            | _ => false
      | _ => false
  | _ => false

/-- The condition on the flush of `finish_failed_job`: a retry is scheduled only
while the stored row has an attempt left, and a shutdown gives the attempt back
to the row it read, not to one that was claimed meanwhile. -/
def requeueWithinBudget (s : State) : Action → Bool
  | .writeFailed w _ =>
      s.recordCheck w fun exc loaded stored =>
        if exc = .shuttingDown then
          decide (stored.attempts = loaded.attempts) &&
            !(decide (loaded.status = .queued) && decide (stored.status = .running))
        else
          !exc.requeues loaded || decide (loaded.status = .queued) ||
            decide (stored.attempts < maxAttempts)
  | _ => true

/-- The attempts of a row fit its status. -/
structure WithinBudget (j : Job) : Prop where
  le_max : j.attempts ≤ maxAttempts
  of_queued : j.status = .queued → j.attempts < maxAttempts
  of_running : j.status = .running → 1 ≤ j.attempts

/-- At the end `t` of the run `as` every row is within its budget, and the claims
of a job are paid for by its attempts and by the shutdowns that gave one back. -/
def RetryBound (as : List Action) (t : State) : Prop :=
  ∀ ⦃id : JobId⦄ ⦃j : Job⦄, t.jobs.get? id = some j → WithinBudget j ∧
    countSteps system (claimsJob id) initial as ≤
      j.attempts + countSteps system (givesBack id) initial as

/-- Reclaiming keeps a row within its budget. -/
theorem reclaim_withinBudget {now : Time} {j : Job} (hj : WithinBudget j) :
    WithinBudget (reclaim now j) := by
  constructor
  · rw [reclaim_attempts]; exact hj.le_max
  · intro hqueued
    rw [reclaim_attempts]
    rcases reclaim_status now j with hs | ⟨_, hlt, _⟩ | ⟨_, _, hs⟩
    · exact hj.of_queued (hs ▸ hqueued)
    · exact hlt
    · rw [hs] at hqueued; cases hqueued
  · intro hrunning
    rw [reclaim_attempts]
    rcases reclaim_status now j with hs | ⟨_, _, hs⟩ | ⟨_, _, hs⟩
    · exact hj.of_running (hs ▸ hrunning)
    · rw [hs] at hrunning; cases hrunning
    · rw [hs] at hrunning; cases hrunning

/-- A claim uses up one of the attempts that a queued row has left. -/
theorem claim_withinBudget {now : Time} {j : Job} (hj : WithinBudget j)
    (hqueued : j.status = .queued) : WithinBudget (claim now j) := by
  have hlt := hj.of_queued hqueued
  constructor
  · simp only [claim]; omega
  · intro h; simp [claim] at h
  · intro _; simp [claim]

/-- The flush of `finish_failed_job` under the condition keeps a row within its
budget. -/
theorem recorded_withinBudget {exc : Exc} {now : Time} {loaded j : Job}
    (hj : WithinBudget j)
    (hok : (if exc = .shuttingDown then
          decide (j.attempts = loaded.attempts) &&
            !(decide (loaded.status = .queued) && decide (j.status = .running))
        else
          !exc.requeues loaded || decide (loaded.status = .queued) ||
            decide (j.attempts < maxAttempts)) = true) :
    WithinBudget (Job.flush loaded (finishFailedAssign exc now loaded) j) := by
  have hmax := hj.le_max
  have hstatus := recorded_status loaded j exc now
  have hne := (exc.outcome_ne loaded).2
  by_cases hdown : exc = .shuttingDown
  · -- A shutdown: the attempts are those read, less one.
    subst hdown
    rw [if_pos rfl] at hok
    simp only [Bool.and_eq_true, decide_eq_true_eq, Bool.not_eq_true',
      Bool.and_eq_false_imp, decide_eq_false_iff_not] at hok
    obtain ⟨hsame, hunclaimed⟩ := hok
    have hattempts : (Job.flush loaded (finishFailedAssign .shuttingDown now loaded) j).attempts
        = j.attempts - 1 := by
      rw [flush_attempts, finishFailedAssign_attempts, if_pos rfl, hsame, writeColumn_current]
    have hout : Exc.shuttingDown.outcome loaded = .queued := rfl
    constructor
    · omega
    · intro _
      rw [hattempts]
      have : 0 < maxAttempts := by decide
      omega
    · intro hrunning
      rcases hstatus with ⟨hread, hkept⟩ | ⟨_, hnew⟩
      · rw [hkept] at hrunning
        exact absurd hrunning (hunclaimed (hread ▸ hout))
      · exact absurd (hnew.symm.trans hrunning) hne
  · -- Any other exception leaves the attempts as stored.
    rw [if_neg hdown] at hok
    have hattempts : (Job.flush loaded (finishFailedAssign exc now loaded) j).attempts
        = j.attempts := by
      rw [flush_attempts, finishFailedAssign_attempts, if_neg hdown, writeColumn_unchanged]
    constructor
    · omega
    · intro hqueued
      rw [hattempts]
      rcases hstatus with ⟨_, hkept⟩ | ⟨hmoved, hnew⟩
      · exact hj.of_queued (hkept ▸ hqueued)
      · have hout : exc.outcome loaded = .queued := hnew.symm.trans hqueued
        have hread : loaded.status ≠ .queued := fun h => hmoved (hout.trans h.symm)
        simpa [Exc.outcome_eq_queued.mp hout, hread] using hok
    · intro hrunning
      rw [hattempts]
      rcases hstatus with ⟨_, hkept⟩ | ⟨_, hnew⟩
      · exact hj.of_running (hkept ▸ hrunning)
      · exact absurd (hnew.symm.trans hrunning) hne

/-- **Step lemma.**  A step under the condition keeps every row within its
budget. -/
theorem withinBudget_step {s s' : State} {act : Action} {id : JobId}
    (hinv : ∀ j, s.jobs.get? id = some j → WithinBudget j)
    (hok : requeueWithinBudget s act = true) (h : step s act = some s') :
    ∀ j, s'.jobs.get? id = some j → WithinBudget j := by
  have hrow := step_row h id
  generalize hr : s.jobs.get? id = r at hrow hinv
  generalize s'.jobs.get? id = r' at hrow ⊢
  cases hrow with
  | unchanged => exact hinv
  | reclaimed =>
      intro _ hcase
      cases hcase
      exact reclaim_withinBudget (hinv _ rfl)
  | claimed hqueued =>
      intro _ hcase
      cases hcase
      exact claim_withinBudget (reclaim_withinBudget (hinv _ rfl)) hqueued
  | @progressed _ now _ p j =>
      intro _ hcase
      cases hcase
      obtain ⟨_, _, _, hstatus, hattempts⟩ :=
        progressed_kept p.loaded j now p.stage p.percent
      have hj := hinv j rfl
      exact ⟨by rw [hattempts]; exact hj.le_max, by rw [hattempts, hstatus]; exact hj.of_queued,
        by rw [hattempts, hstatus]; exact hj.of_running⟩
  | @finalised _ _ _ _ j =>
      intro _ hcase
      cases hcase
      exact ⟨(hinv j rfl).le_max, by simp [finaliseAssign], by simp [finaliseAssign]⟩
  | @recorded _ _ _ _ _ j hbusy hphase =>
      intro _ hcase
      cases hcase
      rw [requeueWithinBudget, State.recordCheck_eq hbusy hphase hr] at hok
      exact recorded_withinBudget (hinv j rfl) hok
  | @cancelled _ _ j j' hcancel =>
      intro _ hcase
      cases hcase
      obtain ⟨_, _, hattempts, _, hstatus⟩ := cancelTraining_ok hcancel
      have hj := hinv j rfl
      rcases hstatus with ⟨_, hnew⟩ | ⟨hold, hnew⟩
      · exact ⟨hattempts ▸ hj.le_max, by simp [hnew], by simp [hnew]⟩
      · exact ⟨hattempts ▸ hj.le_max, by simp [hnew],
          fun _ => hattempts ▸ hj.of_running hold⟩
  | created =>
      intro _ hcase
      cases hcase
      refine ⟨by simp [newJob], fun _ => by simp [newJob, maxAttempts], fun hrunning => ?_⟩
      simp only [newJob] at hrunning
      split at hrunning <;> cases hrunning

/-- The attempts used by a job; none before it exists. -/
def attemptsOf (id : JobId) (s : State) : Nat := ((s.jobs.get? id).map Job.attempts).getD 0

/-- A claim of the job uses up an attempt. -/
theorem attemptsOf_of_claimsJob {s s' : State} {act : Action} {id : JobId}
    (hclaim : claimsJob id s act = true) (h : step s act = some s') :
    attemptsOf id s' = attemptsOf id s + 1 := by
  cases step_cases h with
  | @claimNone w now tenantActive locked _ hpick => simp [claimsJob, hpick] at hclaim
  | @claim w now tenantActive locked picked tenant _ hpick =>
      obtain rfl : picked = id := by
        simp only [claimsJob, hpick, Option.map_some, Bool.and_eq_true, beq_iff_eq,
          Option.some.injEq] at hclaim
        exact hclaim.2
      rcases claimTrainingJob_get? now tenantActive locked s.jobs picked with
        ⟨hnot, _⟩ | ⟨j, _, hj, _, hrow⟩
      · exact absurd ⟨tenant, hpick⟩ hnot
      · simp [attemptsOf, hj, hrow, claim]
  | _ => simp [claimsJob] at hclaim

/-- A step under the condition takes an attempt back only for a shutdown, and
then one. -/
theorem attemptsOf_le {s s' : State} {act : Action} {id : JobId}
    (hok : requeueWithinBudget s act = true) (h : step s act = some s') :
    attemptsOf id s ≤ attemptsOf id s' + (if givesBack id s act = true then 1 else 0) := by
  have hrow := step_row h id
  unfold attemptsOf
  generalize hr : s.jobs.get? id = r at hrow
  generalize s'.jobs.get? id = r' at hrow ⊢
  cases hrow with
  | unchanged => simp
  | reclaimed => simp
  | claimed => simp only [Option.map_some, Option.getD_some, claim, reclaim_attempts]; omega
  | @progressed _ now _ p j =>
      obtain ⟨_, _, _, _, hattempts⟩ := progressed_kept p.loaded j now p.stage p.percent
      simp only [Option.map_some, Option.getD_some, hattempts]
      omega
  | finalised => simp [finaliseAssign]
  | @recorded w now a exc loaded j hbusy hphase =>
      simp only [Option.map_some, Option.getD_some, flush_attempts,
        finishFailedAssign_attempts]
      by_cases hdown : exc = .shuttingDown
      · have hgives : givesBack a.job s (.writeFailed w now) = true := by
          simp [givesBack, hbusy, hphase, hdown]
        rw [requeueWithinBudget, State.recordCheck_eq hbusy hphase hr, if_pos hdown,
          Bool.and_eq_true, decide_eq_true_eq] at hok
        rw [if_pos hdown, if_pos hgives, hok.1, writeColumn_current]
        omega
      · rw [if_neg hdown, writeColumn_unchanged]
        omega
  | @cancelled _ _ j j' hcancel =>
      obtain ⟨_, _, hattempts, _⟩ := cancelTraining_ok hcancel
      simp [hattempts]
  | created => simp

/-- **Bounded retries** in every run in which `finish_failed_job` requeues within
the budget of the stored row. -/
theorem retryBound_of_requeueWithinBudget {as : List Action} {t : State}
    (hrun : Run system (fun s act => requeueWithinBudget s act = true) initial as t) :
    RetryBound as t := by
  intro id j hj
  have hbudget : ∀ j, t.jobs.get? id = some j → WithinBudget j := by
    refine Run.invariant (P := fun s => ∀ j, s.jobs.get? id = some j → WithinBudget j)
      ?_ hrun ?_
    · exact fun s act s' hinv hok hstep => withinBudget_step hinv hok hstep
    · intro j hj
      simp [initial] at hj
  have hcount := Run.potential (P := fun _ => True) (attemptsOf id) (claimsJob id)
    (givesBack id) (fun _ _ _ _ _ _ => trivial) ?_ hrun trivial
  · have hstart : attemptsOf id initial = 0 := rfl
    have hend : attemptsOf id t = j.attempts := by simp [attemptsOf, hj]
    exact ⟨hbudget j hj, by omega⟩
  · intro s act s' _ hok hstep
    by_cases hclaim : claimsJob id s act = true
    · rw [if_pos hclaim, attemptsOf_of_claimsJob hclaim hstep]
      omega
    · rw [if_neg hclaim]
      exact attemptsOf_le hok hstep

/-- Worker 1 fails for a reason that may pass and reads the row; the job is
reclaimed and claimed by worker 2; then worker 1 schedules the retry. -/
def lostUpdateRun : List Action :=
  [.createBegin 0 ⟨none, "payload"⟩ 0 0, .createCommit 0 1 0 .queued, .start 1,
    .claim 1 0 (fun _ => true) (fun _ => false),
    .raise 1 (.error .operationalError "OperationalError" "server closed the connection")] ++
    allFiles.map (fun _ => .removeFile 1 true) ++
    [.readFailed 1, .guardLost, .start 2, .claim 2 400 (fun _ => true) (fun _ => false),
      .writeFailed 1 410]

/-- **Not in general.**  After `lostUpdateRun` the job is queued with its attempts
used up. -/
theorem not_retryBound : ¬ ∀ as t, Run system anyStep initial as t → RetryBound as t := by
  intro hbound
  have hlost : (jobAfter lostUpdateRun 1).map (fun j => (j.status, j.attempts)) =
      some (.queued, maxAttempts) := by decide
  obtain ⟨j, hj, hcols⟩ := Option.map_eq_some_iff.mp hlost
  obtain ⟨_, _, hrun, hrow⟩ := run_of_jobAfter hj
  rw [Prod.mk.injEq] at hcols
  have hlt := (hbound _ _ hrun hrow).1.of_queued hcols.1
  rw [hcols.2] at hlt
  exact absurd hlt (lt_irrefl _)

/-- A transient failure is retried by the same worker. -/
def retryRun : List Action :=
  [.createBegin 0 ⟨none, "payload"⟩ 0 0, .createCommit 0 1 0 .queued, .start 1,
    .claim 1 0 (fun _ => true) (fun _ => false)] ++
    failureRun 1 (.error .timeoutError "TimeoutError" "timed out") 100 ++
    [.claim 1 110 (fun _ => true) (fun _ => false)]

/-- Two claims, two attempts. -/
theorem retryBound_retry :
    ∃ t j as, Run system (fun s act => requeueWithinBudget s act = true) initial as t ∧
      t.jobs.get? 1 = some j ∧ j.attempts = maxAttempts ∧
      countSteps system (claimsJob 1) initial as ≤
        j.attempts + countSteps system (givesBack 1) initial as := by
  have hdone : ((execWhile system requeueWithinBudget initial retryRun).bind fun s =>
      (s.jobs.get? 1).map Job.attempts) = some maxAttempts := by decide
  obtain ⟨t, hexec, hrow⟩ := Option.bind_eq_some_iff.mp hdone
  obtain ⟨j, hj, hattempts⟩ := Option.map_eq_some_iff.mp hrow
  have hrun := run_of_execWhile hexec
  exact ⟨t, j, retryRun, hrun, hj, hattempts, (retryBound_of_requeueWithinBudget hrun hj).2⟩

end Training
