import GraphRec.Retraining.Evaluation

/-!
# The retraining schedule

What holds over every sequence of evaluations, updates, creations, accepted events and moves of
jobs, however the calls end.

* `Effect` — what no step does to the rows; `step_effect` says that none does;
* `Spent` — a slot or a condition that can start nothing any more; it stays so
  (`Spent.step`), and a job that is started for it makes it so (`firesFor_spends`);
* `retraining_schedule` — the grid of an enabled schedule, at most one job for a slot and for a
  condition, and none while a job is active.
-/

namespace Retraining

open Api Transition
open Training (JobId TenantId Status)

variable {settings : Settings} {s c : Store} {tenant : TenantId} {call : CreationCall}
  {now : Time} {p : RetrainingPolicy} {st st' : State} {act : Action}

/-! ## Steps -/

/-- What a job keeps for good. -/
def SameJob (job job' : Job) : Prop :=
  job'.tenant = job.tenant ∧ job'.requestId = job.requestId ∧ job'.createdAt = job.createdAt

theorem SameJob.refl (job : Job) : SameJob job job := ⟨rfl, rfl, rfl⟩

/-- What every step does to the rows. -/
structure Effect (st st' : State) : Prop where
  now : st.now ≤ st'.now
  jobs : st.store.jobs.Stays SameJob st'.store.jobs
  events : ∀ tenant createdAt, createdAt ∈ st'.store.events tenant →
    createdAt ∈ st.store.events tenant ∨ createdAt = st.now
  scheduled : (∀ tenant p, st.store.policies tenant = some p → p.Scheduled) →
    ∀ tenant p, st'.store.policies tenant = some p → p.Scheduled
  slots : ∀ tenant p' slot, st'.store.policies tenant = some p' → p'.nextRunAt = some slot →
    st.now < slot ∨ ∃ p, st.store.policies tenant = some p ∧ p.nextRunAt = some slot

/-- The slot after an evaluation lies in the future, or it is the one there was. -/
theorem evaluated_slot {slot : Time} (h : (p.evaluated now).nextRunAt = some slot) :
    now < slot ∨ p.nextRunAt = some slot := by
  unfold RetrainingPolicy.evaluated at h
  split at h
  · obtain ⟨slot₀, -, rfl⟩ := Option.map_eq_some_iff.mp h
    exact Or.inl (Schedule.lt_advance _)
  · exact Or.inr h

theorem evaluated_scheduled (h : p.Scheduled) (now : Time) : (p.evaluated now).Scheduled := by
  unfold RetrainingPolicy.evaluated
  split
  · exact h.passSlots now
  · exact h

theorem SameSchedule.scheduled {p' : RetrainingPolicy} (hsame : SameSchedule p p')
    (h : p.Scheduled) : p'.Scheduled := by
  rw [RetrainingPolicy.Scheduled, hsame.nextRunAt, hsame.scheduleEnabled]
  exact h

/-- A store that differs from the one before in one policy and perhaps a new job. -/
theorem effect_of_policy {later : Time} {p' : RetrainingPolicy} (hnow : st.now ≤ later)
    (hpolicies : c.policies = Function.update st.store.policies tenant (some p'))
    (hevents : c.events = st.store.events)
    (hjobs : c.jobs = st.store.jobs ∨ ∃ id job, c.jobs = st.store.jobs.insert id job)
    (hscheduled : (∀ p, st.store.policies tenant = some p → p.Scheduled) → p'.Scheduled)
    (hslot : ∀ slot, p'.nextRunAt = some slot → st.now < slot ∨
      ∃ p, st.store.policies tenant = some p ∧ p.nextRunAt = some slot) :
    Effect st ⟨c, later⟩ := by
  refine ⟨hnow, ?_, ?_, ?_, ?_⟩
  · rcases hjobs with hjobs | ⟨id, job, hjobs⟩
    · rw [hjobs]
      exact .refl SameJob.refl _
    · rw [hjobs]
      exact Table.stays_insert SameJob.refl id job
  · intro tenant' createdAt hmem
    rw [hevents] at hmem
    exact Or.inl hmem
  · intro hall tenant' q hq
    rw [hpolicies] at hq
    rcases stored_cases hq with ⟨-, rfl⟩ | ⟨-, hold⟩
    · exact hscheduled fun p hp => hall tenant p hp
    · exact hall tenant' q hold
  · intro tenant' q slot hq hnext
    rw [hpolicies] at hq
    rcases stored_cases hq with ⟨rfl, rfl⟩ | ⟨-, hold⟩
    · exact hslot slot hnext
    · exact Or.inr ⟨q, hold, hnext⟩

/-- A step that leaves policies and events alone. -/
theorem effect_of_jobs {later : Time} (hnow : st.now ≤ later)
    (hpolicies : c.policies = st.store.policies) (hevents : c.events = st.store.events)
    (hjobs : st.store.jobs.Stays SameJob c.jobs) : Effect st ⟨c, later⟩ := by
  refine ⟨hnow, hjobs, ?_, ?_, ?_⟩
  · intro tenant createdAt hmem
    rw [hevents] at hmem
    exact Or.inl hmem
  · intro hall tenant q hq
    rw [hpolicies] at hq
    exact hall tenant q hq
  · intro tenant q slot hq hnext
    rw [hpolicies] at hq
    exact Or.inr ⟨q, hq, hnext⟩

/-- A call is over no sooner than it began. -/
theorem CreationCall.le_over (call : CreationCall) (now : Time) :
    now ≤ now + call.took + call.importTook :=
  (Nat.le_add_right _ _).trans (Nat.le_add_right _ _)

theorem after_eq_some (h : call.after st c = some st') :
    st.store.jobs.get? call.id = none ∧ st' = ⟨c, st.now + call.took + call.importTook⟩ := by
  unfold CreationCall.after at h
  split at h
  · cases h
  · next hfresh => exact ⟨Option.not_isSome_iff_eq_none.mp hfresh, (Option.some.inj h).symm⟩

/-- **Steps.**  Whatever a step does, jobs keep their date, events are dated by the clock, and a
slot is moved into the future if it is moved at all. -/
theorem step_effect (h : step settings st act = some st') : Effect st st' := by
  cases act with
  | evaluate tenant call ending =>
      obtain ⟨-, rfl⟩ := after_eq_some h
      have hnow := call.le_over st.now
      rcases evaluation_store (evaluate settings tenant call st.now st.store) st.store ending with
        hsame | hcommit
      · rw [hsame]
        exact effect_of_jobs hnow rfl rfl (.refl SameJob.refl _)
      · obtain ⟨p, hpolicy, hwritten⟩ := evaluate_commit hcommit
        obtain ⟨p', hschedule, hpolicies⟩ := hwritten.policy
        refine effect_of_policy hnow hpolicies hwritten.events ?_ ?_ ?_
        · rcases hwritten.jobs with hjobs | ⟨job, -, hjobs⟩
          · exact Or.inl hjobs
          · exact Or.inr ⟨call.id, job, hjobs⟩
        · exact fun hall => hschedule.scheduled (evaluated_scheduled (hall p hpolicy) _)
        · intro slot hslot
          rw [hschedule.nextRunAt] at hslot
          exact (evaluated_slot hslot).imp id fun hold => ⟨p, hpolicy, hold⟩
  | updatePolicy tenant payload =>
      dsimp only [step] at h
      split at h
      · cases h
        exact effect_of_jobs le_rfl rfl rfl (.refl SameJob.refl _)
      · next p hwritten =>
          cases h
          unfold updatePolicy at hwritten
          split at hwritten
          · cases hwritten
          · cases hwritten
            refine effect_of_policy le_rfl rfl rfl (Or.inl rfl)
              (fun _ => writtenPolicy_scheduled payload st.now _) ?_
            intro slot hslot
            rcases writtenPolicy_nextRunAt hslot with hnew | hold
            · have hlater := Nat.lt_add_of_pos_right (n := st.now)
                payload.intervalMinutes.duration_pos
              exact Or.inl (hnew ▸ hlater)
            · exact Or.inr hold
  | createTrainingJob tenant payload call =>
      have hnow := call.le_over st.now
      dsimp only [step] at h
      split at h
      · obtain ⟨-, rfl⟩ := after_eq_some h
        exact effect_of_jobs hnow rfl rfl (.refl SameJob.refl _)
      · obtain ⟨-, rfl⟩ := after_eq_some h
        exact effect_of_jobs hnow rfl rfl (.refl SameJob.refl _)
      · next id job _ =>
          obtain ⟨-, rfl⟩ := after_eq_some h
          exact effect_of_jobs hnow rfl rfl (Table.stays_insert SameJob.refl id job)
  | acceptEvents tenant count =>
      cases h
      refine ⟨le_rfl, .refl SameJob.refl _, ?_, fun hall => hall, ?_⟩
      · intro tenant' createdAt hmem
        dsimp only at hmem
        by_cases htenant : tenant' = tenant
        · rw [htenant, Function.update_self, List.mem_append, List.mem_replicate] at hmem
          rw [htenant]
          exact hmem.symm.imp id And.right
        · rw [Function.update_of_ne htenant] at hmem
          exact Or.inl hmem
      · exact fun tenant' q slot hq hnext => Or.inr ⟨q, hq, hnext⟩
  | moveJob id status completedAt =>
      cases h
      exact effect_of_jobs le_rfl rfl rfl
        (Table.stays_update SameJob.refl fun job _ => SameJob.refl job)
  | wait duration =>
      cases h
      exact effect_of_jobs (Nat.le_add_right _ _) rfl rfl (.refl SameJob.refl _)

/-! ## What holds of the rows -/

/-- An enabled schedule has a slot, and no event is dated in the future. -/
structure Valid (st : State) : Prop where
  scheduled : ∀ tenant p, st.store.policies tenant = some p → p.Scheduled
  events : ∀ tenant createdAt, createdAt ∈ st.store.events tenant → createdAt ≤ st.now

theorem valid_initial : Valid initial := by
  constructor
  · intro tenant p h
    cases h
  · intro tenant createdAt h
    cases h

theorem Valid.step (hvalid : Valid st) (h : step settings st act = some st') : Valid st' := by
  have heffect := step_effect h
  refine ⟨heffect.scheduled hvalid.scheduled, ?_⟩
  intro tenant createdAt hmem
  rcases heffect.events tenant createdAt hmem with hold | rfl
  · exact (hvalid.events tenant createdAt hold).trans heffect.now
  · exact heffect.now

theorem valid_of_run {as : List Action} (h : Run (system settings) anyStep initial as st) :
    Valid st :=
  h.invariant (fun _ _ _ hvalid _ hstep => hvalid.step hstep) valid_initial

/-! ## What is spent stays spent -/

/-- What a job is started for: a slot, or the events since the latest job. -/
inductive Cause
  | slot (at_ : Time)
  | condition (lastJobMarker : Option Time)
  deriving DecidableEq, Repr

/-- The cause of the job that an evaluation of the tenant's policy asks for. -/
def State.cause (st : State) (tenant : TenantId) : Option Cause :=
  (st.store.policies tenant).bind fun p =>
    match (st.store.decision tenant p st.now).trigger with
    | some .schedule => p.nextRunAt.map Cause.slot
    | some .events => some (.condition (st.store.lastJobMarker tenant))
    | none => none

/-- The slot has passed and the policy's slot is a later one; a later job than the marked one
was created. -/
def Spent (tenant : TenantId) (st : State) : Cause → Prop
  | .slot slot => slot ≤ st.now ∧ ∀ p next, st.store.policies tenant = some p →
      p.nextRunAt = some next → slot < next
  | .condition marker => ∃ id job, st.store.jobs.get? id = some job ∧ job.tenant = tenant ∧
      ∀ last, marker = some last → last < job.createdAt

theorem Spent.step {cause : Cause} (hspent : Spent tenant st cause) (heffect : Effect st st') :
    Spent tenant st' cause := by
  cases cause with
  | slot slot =>
      obtain ⟨hpast, hlater⟩ := hspent
      refine ⟨hpast.trans heffect.now, ?_⟩
      intro p' next hp' hnext
      rcases heffect.slots tenant p' next hp' hnext with hfuture | ⟨p, hp, hold⟩
      · exact hpast.trans_lt hfuture
      · exact hlater p next hp hold
  | condition marker =>
      obtain ⟨id, job, hstored, htenant, hlate⟩ := hspent
      obtain ⟨job', hstored', hsame⟩ := heffect.jobs id job hstored
      refine ⟨id, job', hstored', hsame.1.trans htenant, ?_⟩
      rw [hsame.2.2]
      exact hlate

/-- What the next evaluation asks for is not spent. -/
theorem not_spent_of_cause {cause : Cause} (hcause : st.cause tenant = some cause) :
    ¬ Spent tenant st cause := by
  obtain ⟨p, hpolicy, hcause⟩ := Option.bind_eq_some_iff.mp hcause
  intro hspent
  split at hcause
  · obtain ⟨slot, hslot, rfl⟩ := Option.map_eq_some_iff.mp hcause
    exact (hspent.2 p slot hpolicy hslot).false
  · cases hcause
    obtain ⟨id, job, hstored, htenant, hlate⟩ := hspent
    cases hmarker : st.store.lastJobMarker tenant with
    | none => exact lastJobMarker_eq_none hmarker hstored htenant
    | some marker =>
        have hle := (lastJobMarker_eq_some hmarker).2 id job hstored htenant
        exact absurd (hlate marker hmarker) (Nat.not_lt.mpr hle)
  · cases hcause

/-! ## Firing -/

/-- The step adds a job. -/
def createsJob (settings : Settings) (st : State) (act : Action) : Bool :=
  (step settings st act).any fun st' => st.store.jobs.rows.length < st'.store.jobs.rows.length

/-- The step is an evaluation of the tenant's policy that adds a job for this cause. -/
def firesFor (settings : Settings) (tenant : TenantId) (cause : Cause) (st : State)
    (act : Action) : Bool :=
  match act with
  | .evaluate tenant' _ _ =>
      tenant' == tenant && st.cause tenant == some cause && createsJob settings st act
  | _ => false

/-- A step that adds a job for a cause is an evaluation, and what it leaves is one of its commits,
with the job its decision started. -/
theorem firesFor_started {cause : Cause} (hfires : firesFor settings tenant cause st act = true)
    (h : step settings st act = some st') :
    st.cause tenant = some cause ∧ ∃ call p p' job,
      st.store.policies tenant = some p ∧ SameSchedule (p.evaluated st.now) p' ∧
      st'.store.policies tenant = some p' ∧ Started tenant call st.now p st.store job ∧
      st'.store.jobs.get? call.id = some job := by
  unfold firesFor at hfires
  split at hfires
  · next tenant' call ending =>
      simp only [Bool.and_eq_true, beq_iff_eq] at hfires
      obtain ⟨⟨rfl, hcause⟩, hcreates⟩ := hfires
      rw [createsJob, h, Option.any_some, decide_eq_true_iff] at hcreates
      obtain ⟨hfresh, rfl⟩ := after_eq_some h
      dsimp only at hcreates
      refine ⟨hcause, call, ?_⟩
      rcases evaluation_store (evaluate settings tenant' call st.now st.store) st.store ending with
        hsame | hcommit
      · rw [hsame] at hcreates
        exact absurd hcreates (Nat.lt_irrefl _)
      · obtain ⟨p, hpolicy, hwritten⟩ := evaluate_commit hcommit
        obtain ⟨p', hschedule, hpolicies⟩ := hwritten.policy
        rcases hwritten.jobs with hjobs | ⟨job, hstarted, hjobs⟩
        · rw [hjobs] at hcreates
          exact absurd hcreates (Nat.lt_irrefl _)
        · refine ⟨p, p', job, hpolicy, hschedule, ?_, hstarted, ?_⟩
          · dsimp only
            rw [hpolicies, Function.update_self]
          · dsimp only
            rw [hjobs, Table.get?_insert _ hfresh, if_pos rfl]
  · cases hfires

/-- **Firing.**  A job that is started for a cause makes it spent. -/
theorem firesFor_spends {cause : Cause} (hvalid : Valid st)
    (hfires : firesFor settings tenant cause st act = true)
    (h : step settings st act = some st') : Spent tenant st' cause := by
  have hnow := (step_effect h).now
  obtain ⟨hcause, call, p, p', job, hpolicy, hschedule, hpolicy', hstarted, hjob⟩ :=
    firesFor_started hfires h
  obtain ⟨q, hq, hcause⟩ := Option.bind_eq_some_iff.mp hcause
  obtain rfl : p = q := Option.some.inj (hpolicy.symm.trans hq)
  split at hcause
  · next htrigger =>
      -- A slot: the evaluation moved it past its own time.
      obtain ⟨slot, hslot, rfl⟩ := Option.map_eq_some_iff.mp hcause
      rcases (decision_trigger htrigger).2 with ⟨-, hdue⟩ | ⟨hevents, -⟩
      · obtain ⟨henabled, slot', hslot', hpast⟩ := isDue_eq_true.mp hdue
        obtain rfl : slot = slot' := Option.some.inj (hslot.symm.trans hslot')
        refine ⟨hpast.trans hnow, ?_⟩
        intro q' next hq' hnext
        obtain rfl : p' = q' := Option.some.inj (hpolicy'.symm.trans hq')
        rw [hschedule.nextRunAt, evaluated_nextRunAt henabled hslot] at hnext
        obtain rfl := Option.some.inj hnext
        exact hpast.trans_lt (Schedule.lt_advance _)
      · cases hevents
  · next htrigger =>
      -- A condition: an event came after the latest job, and the new job after the event.
      cases hcause
      refine ⟨call.id, job, hjob, hstarted.owner, ?_⟩
      intro last hlast
      rcases (decision_trigger htrigger).2 with ⟨hschedule, -⟩ | ⟨-, -, hthreshold⟩
      · cases hschedule
      · obtain ⟨createdAt, hmem, hlate⟩ :=
          exists_newEvent (p.eventThreshold.property.1.trans hthreshold)
        calc last < createdAt := hlate last hlast
          _ ≤ st.now := hvalid.events tenant createdAt hmem
          _ ≤ st.now + call.took := Nat.le_add_right _ _
          _ = job.createdAt := hstarted.createdAt.symm
  · cases hcause

/-- Over a run, a cause starts at most one job: it is not spent before, and spent from then on. -/
theorem countSteps_firesFor (settings : Settings) (tenant : TenantId) (cause : Cause)
    {as : List Action} (h : Run (system settings) anyStep initial as st) :
    countSteps (system settings) (firesFor settings tenant cause) initial as ≤ 1 := by
  classical
  have hpotential := h.potential (P := Valid) (fun u => if Spent tenant u cause then 1 else 0)
    (firesFor settings tenant cause) (fun _ _ => false)
    (fun _ _ _ hvalid _ hstep => hvalid.step hstep) ?_ valid_initial
  · have hnone : countSteps (system settings) (fun _ _ => false) initial as = 0 := by
      simp [countSteps]
    rw [hnone] at hpotential
    split at hpotential <;> split at hpotential <;> omega
  · intro u act u' hvalid _ hstep
    by_cases hfires : firesFor settings tenant cause u act = true
    · have hfresh := not_spent_of_cause (firesFor_started hfires hstep).1
      rw [if_neg hfresh, if_pos hfires, if_pos (firesFor_spends hvalid hfires hstep)]
      decide
    · rw [if_neg hfires]
      by_cases hspent : Spent tenant u cause
      · rw [if_pos hspent, if_pos (hspent.step (step_effect hstep))]
        exact le_rfl
      · rw [if_neg hspent]
        exact Nat.zero_le _

/-! ## The schedule -/

/-- The slot of a tenant's policy. -/
def State.nextRunAt (st : State) (tenant : TenantId) : Option Time :=
  (st.store.policies tenant).bind RetrainingPolicy.nextRunAt

/-- `next` is the slot of `p` and the least of these multiples of the interval that is later than
`now`. -/
def OnGrid (multiples : Set ℕ) (p : RetrainingPolicy) (now : Time) (next : Option Time) : Prop :=
  ∃ slot k, p.nextRunAt = some slot ∧ next = some (slot + k * p.intervalMinutes.duration) ∧
    IsLeast {k | k ∈ multiples ∧ now < slot + k * p.intervalMinutes.duration} k

/-- An evaluation that returns leaves an enabled schedule on its grid, past the time of the
evaluation. -/
theorem onGrid_of_evaluate {st' : State} (hvalid : Valid st)
    (h : step settings st (.evaluate tenant call .returns) = some st')
    (hpolicy : st.store.policies tenant = some p) (henabled : p.scheduleEnabled = true) :
    OnGrid Set.univ p st.now (st'.nextRunAt tenant) := by
  obtain ⟨-, rfl⟩ := after_eq_some h
  obtain ⟨slot, hslot⟩ := Option.isSome_iff_exists.mp
    ((hvalid.scheduled tenant p hpolicy).trans henabled)
  have hcommit : _ ∈ (evaluate settings tenant call st.now st.store).commits :=
    evaluation_returns (evaluate_of_enabled hpolicy (Or.inl henabled)) st.store
  obtain ⟨q, hq, hwritten⟩ := evaluate_commit hcommit
  obtain rfl : p = q := Option.some.inj (hpolicy.symm.trans hq)
  obtain ⟨p', hschedule, hpolicies⟩ := hwritten.policy
  obtain ⟨k, hleast, hk⟩ :=
    @Schedule.exists_advance _ st.now slot p.intervalMinutes.duration_pos
  refine ⟨slot, k, hslot, ?_, by simpa using hleast⟩
  rw [State.nextRunAt, hpolicies, Function.update_self, Option.bind_some, hschedule.nextRunAt,
    evaluated_nextRunAt henabled hslot, hk]

/-- An evaluation adds no job while one of the tenant is active. -/
theorem evaluate_of_active {ending : Ending} {st' : State}
    (h : step settings st (.evaluate tenant call ending) = some st')
    (hactive : st.store.activeJob tenant = true) : st'.store.jobs = st.store.jobs := by
  obtain ⟨-, rfl⟩ := after_eq_some h
  rcases evaluation_store (evaluate settings tenant call st.now st.store) st.store ending with
    hsame | hcommit
  · rw [hsame]
  · obtain ⟨p, -, hwritten⟩ := evaluate_commit hcommit
    rcases hwritten.jobs with hjobs | ⟨job, hstarted, -⟩
    · exact hjobs
    · exact absurd (hactive.symm.trans hstarted.idle) (by simp)

/-- **Automatic retraining.**  After every run, an evaluation that returns leaves the slot of an
enabled schedule at the previous one plus the least multiple of the interval that is later than
the evaluation, and no evaluation adds a job while one is active; over the run, every slot and
every condition started at most one job. -/
theorem retraining_schedule {as : List Action}
    (h : Run (system settings) anyStep initial as st) :
    (∀ tenant call st' p, step settings st (.evaluate tenant call .returns) = some st' →
      st.store.policies tenant = some p → p.scheduleEnabled = true →
      OnGrid Set.univ p st.now (st'.nextRunAt tenant)) ∧
    (∀ tenant call ending st', step settings st (.evaluate tenant call ending) = some st' →
      st.store.activeJob tenant = true → st'.store.jobs = st.store.jobs) ∧
    (∀ tenant slot,
      countSteps (system settings) (firesFor settings tenant (.slot slot)) initial as ≤ 1) ∧
    ∀ tenant marker,
      countSteps (system settings) (firesFor settings tenant (.condition marker)) initial as ≤ 1 :=
  ⟨fun _ _ _ _ hstep hpolicy henabled => onGrid_of_evaluate (valid_of_run h) hstep hpolicy henabled,
    fun _ _ _ _ hstep hactive => evaluate_of_active hstep hactive,
    fun tenant slot => countSteps_firesFor settings tenant (.slot slot) h,
    fun tenant marker => countSteps_firesFor settings tenant (.condition marker) h⟩

/-- Settings of a development deployment; the printed payload stands for its digest. -/
def developmentSettings : Settings where
  retrainingMinIntervalMinutes := ⟨60, by decide⟩
  trainingCooldownSeconds := ⟨60, by decide⟩
  isProduction := false
  payloadHash payload := reprStr payload

/-- An hourly schedule, and training after two new events. -/
def hourly : RetrainingPolicyUpdate :=
  { scheduleEnabled := true
    intervalMinutes := ⟨60, by decide⟩
    eventTriggerEnabled := true
    eventThreshold := ⟨2, by decide⟩ }

/-- A call that meets no obstacle. -/
def plainCall (id : JobId) : CreationCall where
  id := id
  took := 0
  snapshotKnown := false
  capacity := none
  dataset := none
  imported := .ok true
  importTook := 0

/-- A slot fires, its job succeeds, and three later events start the next one. -/
def hourlyRun : List Action :=
  [.updatePolicy 1 hourly, .wait (61 * minute), .evaluate 1 (plainCall 7) .returns,
    .moveJob 7 .succeeded (some (62 * minute)), .wait (2 * minute), .acceptEvents 1 3,
    .wait (2 * minute), .evaluate 1 (plainCall 8) .returns]

/-- `retraining_schedule` after this run, in which a slot and a condition each started a job. -/
theorem retraining_schedule_hourly :
    countSteps (system developmentSettings)
      (firesFor developmentSettings 1 (.slot (60 * minute))) initial hourlyRun = 1 ∧
    countSteps (system developmentSettings)
      (firesFor developmentSettings 1 (.condition (some (61 * minute)))) initial hourlyRun = 1 ∧
    ∃ st, Run (system developmentSettings) anyStep initial hourlyRun st ∧
      ∀ tenant call st' p,
        step developmentSettings st (.evaluate tenant call .returns) = some st' →
        st.store.policies tenant = some p → p.scheduleEnabled = true →
        OnGrid Set.univ p st.now (st'.nextRunAt tenant) := by
  refine ⟨by decide +kernel, by decide +kernel, ?_⟩
  have hexec : (exec (system developmentSettings) initial hourlyRun).isSome = true := by
    decide +kernel
  obtain ⟨st, hst⟩ := Option.isSome_iff_exists.mp hexec
  exact ⟨st, run_of_exec hst, (retraining_schedule (run_of_exec hst)).1⟩

/-- A slot that has not come yet is left alone, so an evaluation does not always add a positive
multiple of the interval. -/
theorem not_retraining_schedule_positive :
    ¬ ∀ (settings : Settings) (as : List Action) (st : State),
      Run (system settings) anyStep initial as st →
      ∀ tenant call st' p, step settings st (.evaluate tenant call .returns) = some st' →
        st.store.policies tenant = some p → p.scheduleEnabled = true →
        OnGrid {k | 0 < k} p st.now (st'.nextRunAt tenant) := by
  intro h
  have hrun : Run (system developmentSettings) anyStep initial [.updatePolicy 1 hourly]
      ⟨initial.store.setPolicy 1 (writtenPolicy hourly 0 none), 0⟩ := .single trivial rfl
  obtain ⟨slot, k, hslot, hnext, hk, -⟩ :=
    h _ _ _ hrun 1 (plainCall 7) _ (writtenPolicy hourly 0 none) rfl rfl rfl
  obtain rfl : 60 * minute = slot := Option.some.inj hslot
  have hstays : 60 * minute = 60 * minute + k * (60 * minute) := Option.some.inj hnext
  have hpositive : 0 < k * (60 * minute) := Nat.mul_pos hk.1 (by decide)
  exact absurd hstays (Nat.ne_of_lt (Nat.lt_add_of_pos_right hpositive))

end Retraining
