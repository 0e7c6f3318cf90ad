import GraphRec.Retraining.System

/-!
# What the calls do to the rows

One lemma for each call: what `create_training_job` adds, and what every commit of an evaluation
writes.

* `createTrainingJob_inserted` — a new job has the call's identifier, is dated by the call, and
  no job of the tenant was active;
* `Commit` — what a commit of an evaluation writes; `evaluate_commit` says that each of its
  commits is one.
-/

namespace Retraining

open Api Transition
open Training (JobId TenantId Status)

variable {settings : Settings} {s c : Store} {tenant : TenantId} {call : CreationCall}
  {now : Time} {p : RetrainingPolicy}

/-! ## Jobs of a tenant -/

theorem mem_tenantJobs {id : JobId} {job : Job} :
    (id, job) ∈ s.tenantJobs tenant ↔ s.jobs.get? id = some job ∧ job.tenant = tenant := by
  rw [Store.tenantJobs, List.mem_filter, s.jobs.mem_rows_iff, decide_eq_true_iff]

/-- The latest job is one of the tenant's jobs, and none of them is later. -/
theorem lastJobMarker_eq_some {marker : Time} (h : s.lastJobMarker tenant = some marker) :
    (∃ id job, s.jobs.get? id = some job ∧ job.tenant = tenant ∧ job.createdAt = marker) ∧
      ∀ id job, s.jobs.get? id = some job → job.tenant = tenant → job.createdAt ≤ marker := by
  obtain ⟨hmem, hmax⟩ := List.max?_eq_some_iff.mp h
  constructor
  · obtain ⟨⟨id, job⟩, hrow, hcreated⟩ := List.mem_map.mp hmem
    obtain ⟨hstored, htenant⟩ := mem_tenantJobs.mp hrow
    exact ⟨id, job, hstored, htenant, hcreated⟩
  · intro id job hstored htenant
    exact hmax _ (List.mem_map.mpr ⟨(id, job), mem_tenantJobs.mpr ⟨hstored, htenant⟩, rfl⟩)

/-- Without a latest job the tenant has none. -/
theorem lastJobMarker_eq_none (h : s.lastJobMarker tenant = none) {id : JobId} {job : Job}
    (hstored : s.jobs.get? id = some job) : job.tenant ≠ tenant := by
  intro htenant
  have hempty := List.map_eq_nil_iff.mp (List.max?_eq_none_iff.mp h)
  have hrow := mem_tenantJobs.mpr ⟨hstored, htenant⟩
  rw [hempty] at hrow
  cases hrow

/-- New events are later than the latest job. -/
theorem exists_newEvent (hnew : 0 < s.newEvents tenant) :
    ∃ createdAt ∈ s.events tenant, ∀ marker, s.lastJobMarker tenant = some marker →
      marker < createdAt := by
  obtain ⟨createdAt, hmem, hlate⟩ := List.countP_pos_iff.mp hnew
  refine ⟨createdAt, hmem, ?_⟩
  intro marker hmarker
  rw [hmarker] at hlate
  simpa using hlate

/-! ## Creating jobs -/

theorem addedJob_ok {payload : TrainingJobCreate} {job : Job}
    (h : addedJob settings tenant payload call now = .ok job) :
    job.tenant = tenant ∧ job.requestId = payload.requestId ∧ job.createdAt = now := by
  unfold addedJob at h
  split at h
  · split at h
    · cases h
    · cases h
      exact ⟨rfl, rfl, rfl⟩
  · split at h
    · unfold queueTraining at h
      split at h
      · cases h
      · split at h
        · split at h
          · split at h
            · cases h
            · cases h
              exact ⟨rfl, rfl, rfl⟩
          · cases h
        · cases h
    · split at h
      · cases h
      · split at h
        · cases h
        · cases h
          exact ⟨rfl, rfl, rfl⟩

theorem checkTrainingEligibility_ok {cooldown : Bool}
    (h : checkTrainingEligibility settings s tenant cooldown now = .ok ()) :
    s.activeJob tenant = false := by
  unfold checkTrainingEligibility at h
  split at h
  · cases h
  · next hidle => exact Bool.eq_false_iff.mpr hidle

/-- What a creation adds: a job of the call that no other job of the tenant is in the way of. -/
theorem createTrainingJob_inserted {payload : TrainingJobCreate} {id : JobId} {job : Job}
    (h : createTrainingJob settings tenant payload call now s = .ok (.inserted id job)) :
    id = call.id ∧ job.tenant = tenant ∧ job.requestId = payload.requestId ∧
      job.createdAt = now ∧ s.activeJob tenant = false ∧
      payload.requestId.bind (s.requestedJob tenant) = none := by
  unfold createTrainingJob at h
  split at h
  · split at h <;> cases h
  · next hnew =>
      split at h
      · cases h
      · split at h
        · cases h
        · dsimp only at h
          split at h
          · cases h
          · next heligible =>
              split at h
              · cases h
              · next job' hadded =>
                  cases h
                  obtain ⟨htenant, hid, hcreated⟩ := addedJob_ok hadded
                  exact ⟨rfl, htenant, hid, hcreated, checkTrainingEligibility_ok heligible, hnew⟩

/-! ## Decisions -/

/-- A decision that starts something was taken with no active job. -/
theorem decision_trigger {trigger : Trigger}
    (h : (s.decision tenant p now).trigger = some trigger) :
    s.activeJob tenant = false ∧
      ((trigger = .schedule ∧ p.slotDue now = true) ∨
        (trigger = .events ∧ p.slotDue now = false ∧
          p.eventThreshold.val ≤ s.newEvents tenant)) := by
  unfold Store.decision Retraining.decide at h
  split at h
  · cases h
  · next hidle =>
      refine ⟨Bool.eq_false_iff.mpr hidle, ?_⟩
      split at h
      · next hdue =>
          cases h
          exact Or.inl ⟨rfl, hdue⟩
      · next hnotdue =>
          split at h
          · next hevents =>
              cases h
              rw [Bool.and_eq_true, decide_eq_true_iff] at hevents
              exact Or.inr ⟨rfl, Bool.eq_false_iff.mpr hnotdue, hevents.2⟩
          · cases h

/-! ## The slot in an evaluation -/

/-- The slot an evaluation leaves an enabled schedule with. -/
theorem evaluated_nextRunAt {slot : Time} (henabled : p.scheduleEnabled = true)
    (hslot : p.nextRunAt = some slot) :
    (p.evaluated now).nextRunAt = some
      (Schedule.advance p.intervalMinutes.duration p.intervalMinutes.duration_pos now slot) := by
  unfold RetrainingPolicy.evaluated RetrainingPolicy.slotDue
  by_cases hdue : slot ≤ now
  · have : isDue p.scheduleEnabled p.nextRunAt now = true :=
      isDue_eq_true.mpr ⟨henabled, slot, hslot, hdue⟩
    rw [this]
    simp [RetrainingPolicy.passSlots, hslot]
  · have : isDue p.scheduleEnabled p.nextRunAt now = false := by
      simp [isDue, hslot, hdue]
    rw [this, Schedule.advance_of_lt _ (Nat.lt_of_not_le hdue)]
    exact hslot

/-- The same schedule with the same slot. -/
structure SameSchedule (p p' : RetrainingPolicy) : Prop where
  scheduleEnabled : p'.scheduleEnabled = p.scheduleEnabled
  intervalMinutes : p'.intervalMinutes = p.intervalMinutes
  nextRunAt : p'.nextRunAt = p.nextRunAt

theorem skipped_sameSchedule (now : Time) (reason : String) (p : RetrainingPolicy) :
    SameSchedule (p.evaluated now) (p.skipped now reason) := by
  unfold RetrainingPolicy.skipped
  split <;> exact ⟨rfl, rfl, rfl⟩

/-- After a rollback the slot is moved on just when the first part of the evaluation did. -/
theorem blocked_sameSchedule {trigger : Trigger} (refusal : ApiError)
    (h : (s.decision tenant p now).trigger = some trigger) :
    SameSchedule (p.evaluated now) (p.blocked now trigger refusal) := by
  unfold RetrainingPolicy.evaluated RetrainingPolicy.blocked
  rcases (decision_trigger h).2 with ⟨rfl, hdue⟩ | ⟨rfl, hnotdue, -⟩
  · obtain ⟨-, slot, hslot, hle⟩ := isDue_eq_true.mp hdue
    have hany : p.nextRunAt.any (· ≤ now) = true := by simp [hslot, hle]
    rw [if_pos hdue, if_pos ⟨rfl, hany⟩]
    exact ⟨rfl, rfl, rfl⟩
  · rw [if_neg (Bool.eq_false_iff.mp hnotdue), if_neg (fun h => Trigger.noConfusion h.1)]
    exact ⟨rfl, rfl, rfl⟩

/-! ## Commits -/

/-- A job that a decision started. -/
structure Started (tenant : TenantId) (call : CreationCall) (now : Time) (p : RetrainingPolicy)
    (s : Store) (job : Job) : Prop where
  owner : job.tenant = tenant
  requestId : job.requestId = (s.decision tenant p now).requestId
  createdAt : job.createdAt = now + call.took
  idle : s.activeJob tenant = false
  trigger : (s.decision tenant p now).trigger ≠ none

/-- What a commit of an evaluation writes: the policy with its slot moved on, and a job if the
decision started one. -/
structure Commit (tenant : TenantId) (call : CreationCall) (now : Time) (p : RetrainingPolicy)
    (s c : Store) : Prop where
  policy : ∃ p', SameSchedule (p.evaluated now) p' ∧
    c.policies = Function.update s.policies tenant (some p')
  events : c.events = s.events
  jobs : c.jobs = s.jobs ∨
    ∃ job, Started tenant call now p s job ∧ c.jobs = s.jobs.insert call.id job

/-- Only a policy with a trigger is evaluated. -/
theorem evaluate_of_enabled (hpolicy : s.policies tenant = some p)
    (henabled : p.scheduleEnabled = true ∨ p.eventTriggerEnabled = true) :
    (evaluate settings tenant call now s).commits ≠ [] := by
  unfold evaluate
  rw [hpolicy]
  dsimp only
  rw [if_neg (by rintro ⟨hs, he⟩; rw [hs, he] at henabled; simp at henabled)]
  split
  · simp
  · split <;> simp

/-- **Evaluations.**  Whatever an evaluation commits is the policy with its slot moved on, and at
most the job its decision asked for. -/
theorem evaluate_commit (hc : c ∈ (evaluate settings tenant call now s).commits) :
    ∃ p, s.policies tenant = some p ∧ Commit tenant call now p s c := by
  unfold evaluate at hc
  split at hc
  · cases hc
  · next p hpolicy =>
      refine ⟨p, hpolicy, ?_⟩
      split at hc
      · cases hc
      · dsimp only at hc
        split at hc
        · obtain rfl := List.mem_singleton.mp hc
          exact ⟨⟨_, skipped_sameSchedule now _ p, rfl⟩, rfl, Or.inl rfl⟩
        · next trigger htrigger =>
            split at hc
            · obtain rfl := List.mem_singleton.mp hc
              exact ⟨⟨_, blocked_sameSchedule _ htrigger, rfl⟩, rfl, Or.inl rfl⟩
            · next id hreplayed =>
                obtain rfl := List.mem_singleton.mp hc
                refine ⟨⟨p.requested now trigger id, ⟨rfl, rfl, rfl⟩, ?_⟩, rfl, Or.inl rfl⟩
                simp
            · next id job hcreated =>
                obtain ⟨rfl, htenant, hid, hat, hidle, -⟩ := createTrainingJob_inserted hcreated
                have hstarted : Started tenant call now p s job :=
                  ⟨htenant, hid, hat, hidle, by simp [htrigger]⟩
                rcases List.mem_cons.mp hc with rfl | hc
                · exact ⟨⟨p.triggered now trigger, ⟨rfl, rfl, rfl⟩, rfl⟩, rfl,
                    Or.inr ⟨job, hstarted, rfl⟩⟩
                · obtain rfl := List.mem_singleton.mp hc
                  refine ⟨⟨p.requested now trigger call.id, ⟨rfl, rfl, rfl⟩, ?_⟩, rfl,
                    Or.inr ⟨job, hstarted, rfl⟩⟩
                  simp

/-- The store after an evaluation is one of its commits, or the one before. -/
theorem evaluation_store (e : Evaluation) (s : Store) (ending : Ending) :
    e.store s ending = s ∨ e.store s ending ∈ e.commits := by
  have hlast (commits : List Store) (hsub : ∀ c ∈ commits, c ∈ e.commits) :
      commits.getLast?.getD s = s ∨ commits.getLast?.getD s ∈ e.commits := by
    cases hl : commits.getLast? with
    | none => exact Or.inl rfl
    | some c => exact Or.inr (hsub c (List.mem_of_getLast? hl))
  cases ending with
  | returns => exact hlast e.commits fun _ h => h
  | raises n => exact hlast _ fun _ h => List.mem_of_mem_take h

/-- An evaluation that returns leaves its last commit. -/
theorem evaluation_returns {e : Evaluation} (h : e.commits ≠ []) (s : Store) :
    e.store s .returns ∈ e.commits := by
  rw [Evaluation.store, List.getLast?_eq_some_getLast h]
  exact List.getLast_mem h

end Retraining
