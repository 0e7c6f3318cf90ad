import GraphRec.Capacity.Controller

/-!
# Capacity follows the requests

In any run of served requests, changes of limits and steps of the controller:

* after a step of the controller the capacity is between one and the maximum of the plan, and no
  less than the requests of the last minute need;
* but for a clamp to a lower maximum it falls only when no change is more recent than the
  stabilization time, and never below what the last minute or a calendar minute inside the
  stabilization window needed.

The tables store at most 100 units and 32-bit numbers.  A step that has to raise or to clamp the
capacity and cannot store the result raises and leaves the capacity as it was.  `controller_iff` —
the above holds of a run exactly when no step of it is such a step.
-/

namespace Capacity

open Buckets

section Meaning

/-- The most units that the plan of a tenant allows. -/
def Store.maximum (s : Store) (tenant : TenantId) : ℕ := maxReplicas (s.effectiveLimits tenant)

/-- The tenant's requests of the last minute. -/
def Store.lastMinute (s : Store) (tenant : TenantId) (now : Time) : ℕ :=
  s.servingRequests.countP fun r =>
    decide (r.tenantId = tenant ∧ now - 60 * second ≤ r.occurredAt ∧ r.occurredAt ≤ now)

/-- The tenant's requests of the minute that starts at a time, from another time on. -/
def Store.inMinute (s : Store) (tenant : TenantId) (since m : Time) : ℕ :=
  s.servingRequests.countP fun r => decide (r.tenantId = tenant ∧ since ≤ r.occurredAt ∧
    m ≤ r.occurredAt ∧ r.occurredAt < m + 60 * second)

/-- The units that a number of requests in a minute needs. -/
def Settings.need (settings : Settings) (requests : ℕ) : ℕ :=
  requests ⌈/⌉ settings.capacityTargetRpmPerReplica

/-- The stabilization time. -/
def Settings.stabilization (settings : Settings) : Time :=
  settings.capacityScaleDownStabilizationSeconds * second

/-- The capacity of a tenant. -/
def Store.capacity (s : Store) (tenant : TenantId) : Option ℕ :=
  (s.deployments tenant).map ModelDeployment.desiredCapacity

/-- When the capacity of a tenant changed: the last change before a run, and those of the run. -/
def changes (s : Store) (earlier : List Entry) (tenant : TenantId) : List Time :=
  ((s.deployments tenant).bind ModelDeployment.lastScaledAt).toList ++
    earlier.filterMap fun e =>
      if e.before.capacity tenant = e.after.capacity tenant then none else some e.action.now

variable (settings : Settings)

/-- The capacity may fall to a target. -/
structure MayFall (s : Store) (tenant : TenantId) (now : Time) (changes : List Time)
    (target : ℕ) : Prop where
  stable : ∀ c ∈ changes, c + settings.stabilization ≤ now
  lastMinute : min (settings.need (s.lastMinute tenant now)) (s.maximum tenant) ≤ target
  minutes : ∀ m, 60 * second ∣ m → now - settings.stabilization ≤ m → m + 60 * second ≤ now →
    min (settings.need (s.inMinute tenant m m)) (s.maximum tenant) ≤ target

/-- What a step of the controller makes of a capacity. -/
structure Controls (s : Store) (tenant : TenantId) (now : Time) (changes : List Time)
    (current next : ℕ) : Prop where
  one_le : 1 ≤ next
  le_maximum : next ≤ s.maximum tenant
  served : min (settings.need (s.lastMinute tenant now)) (s.maximum tenant) ≤ next
  falls : next < current → (s.maximum tenant < current ∧ next = s.maximum tenant) ∨
    MayFall settings s tenant now changes next

/-- No count of the measured requests exceeds a column. -/
structure CountsFit (s : Store) (tenant : TenantId) (now : Time) : Prop where
  lastMinute : s.lastMinute tenant now ≤ maxInteger
  minutes : ∀ m, 60 * second ∣ m →
    s.inMinute tenant (now - max settings.stabilization (60 * second)) m ≤ maxInteger

/-- Nothing has to be raised or clamped, or the tables can store it. -/
def Storable (s : Store) (tenant : TenantId) (now : Time) (current : ℕ) : Prop :=
  (current ≤ s.maximum tenant ∧ (s.lastMinute tenant now ≤
      settings.capacityTargetRpmPerReplica * current ∨ s.maximum tenant ≤ current)) ∨
    ((s.maximum tenant ≤ 100 ∨
        s.lastMinute tenant now ≤ settings.capacityTargetRpmPerReplica * 100) ∧
      s.maximum tenant ≤ maxInteger ∧ CountsFit settings s tenant now)

/-- A step of the controller for a tenant with an active deployment is as it should be. -/
def Entry.Controlled (e : Entry) (changes : TenantId → List Time) : Prop :=
  ∀ tenant d, e.action.op = .evaluate tenant → e.before.deployments tenant = some d →
    d.activeModelVersionId.isSome = true → ∃ next, e.after.capacity tenant = some next ∧
      Controls settings e.before tenant e.action.now (changes tenant) d.desiredCapacity next

/-- A step of the controller for a tenant with an active deployment can store its result. -/
def Entry.Storable (e : Entry) : Prop :=
  ∀ tenant d, e.action.op = .evaluate tenant → e.before.deployments tenant = some d →
    d.activeModelVersionId.isSome = true →
      Capacity.Storable settings e.before tenant e.action.now d.desiredCapacity

/-- What the tables and the clock promise of the rows at a time. -/
structure Store.Sound (s : Store) (now : Time) : Prop where
  served : ∀ r ∈ s.servingRequests, r.occurredAt ≤ now
  capacity : ∀ tenant d, s.deployments tenant = some d →
    1 ≤ d.desiredCapacity ∧ d.desiredCapacity ≤ 100
  scaled : ∀ tenant d last, s.deployments tenant = some d → d.lastScaledAt = some last →
    last ≤ now

/-- The clock does not go back. -/
def InOrder : Time → List Timed → Prop
  | _, [] => True
  | start, a :: rest => start ≤ a.now ∧ InOrder a.now rest

end Meaning

/-! ## The measurement -/

section Measurement

variable {s : Store} {tenant : TenantId} {now : Time} {settings : Settings}

theorem minute_pos : (0 : Time) < 60 * second := by decide

/-- The first measured count. -/
theorem measure_lastMinute (h : ∀ r ∈ s.servingRequests, r.occurredAt ≤ now) (window : ℕ) :
    (measure s tenant now window).1 = s.lastMinute tenant now := by
  simp only [measure, Store.lastMinute, Store.requestsSince, ← List.countP_eq_length_filter]
  refine List.countP_congr fun r hr => ?_
  simp [h r hr]

/-- The requests of a minute that the query groups. -/
theorem length_minute (since m : Time) (hm : 60 * second ∣ m) :
    ((s.requestsSince tenant since).filter fun r => decide (minuteOf r.occurredAt = m)).length =
      s.inMinute tenant since m := by
  rw [Store.requestsSince, List.filter_filter, ← List.countP_eq_length_filter, Store.inMinute]
  refine List.countP_congr fun r _ => ?_
  simp only [minuteOf, floorTo_eq_iff minute_pos, Bool.and_eq_true, decide_eq_true_eq]
  tauto

/-- A start of the window, in both spellings. -/
theorem window_eq (now : Time) : now - (max settings.capacityScaleDownStabilizationSeconds 60 : ℕ) *
    second = now - max settings.stabilization (60 * second) := by
  unfold Settings.stabilization
  push_cast
  rw [max_mul_of_nonneg _ _ (by decide : (0 : ℤ) ≤ second)]

/-- The peak is at least the last minute and every minute of the window. -/
theorem measure_le_iff (h : ∀ r ∈ s.servingRequests, r.occurredAt ≤ now) (bound : ℕ) :
    (measure s tenant now settings.capacityScaleDownStabilizationSeconds).2 ≤ bound ↔
      s.lastMinute tenant now ≤ bound ∧ ∀ m, 60 * second ∣ m →
        s.inMinute tenant (now - max settings.stabilization (60 * second)) m ≤ bound := by
  have hpeak : (measure s tenant now settings.capacityScaleDownStabilizationSeconds).2 ≤ bound ↔
      (s.requestsSince tenant (now - 60 * second)).length ≤ bound ∧
        ∀ n ∈ (groupBy (fun r => minuteOf r.occurredAt) List.length (s.requestsSince tenant
          (now - (max settings.capacityScaleDownStabilizationSeconds 60 : ℕ) * second))).map
            Prod.snd, n ≤ bound := by
    simp only [measure, List.max_le_iff, List.forall_mem_append, List.forall_mem_singleton]
    exact and_comm
  rw [hpeak, length_groups_le_iff, window_eq, ← measure_lastMinute h 0, measure]
  refine and_congr_right fun _ => ⟨fun hall m hm => ?_, fun hall m => ?_⟩
  · rw [← length_minute _ m hm]
    exact hall m
  · by_cases hm : 60 * second ∣ m
    · rw [length_minute _ m hm]
      exact hall m hm
    · -- A minute starts on the minute.
      have hnone : ((s.requestsSince tenant (now - max settings.stabilization (60 * second))).filter
          fun r => decide (minuteOf r.occurredAt = m)) = [] := by
        refine List.filter_eq_nil_iff.mpr fun r _ => ?_
        rw [decide_eq_true_eq]
        rintro rfl
        exact hm (dvd_floorTo _ _)
      rw [hnone]
      exact Nat.zero_le bound

end Measurement

/-! ## One step -/

section Step

variable {settings : Settings} {s : Store} {tenant : TenantId} {now : Time}

/-- The four outcomes of a decision. -/
theorem decideCapacity_cases {current maximum rpm peak target : ℕ} (hcurrent : 1 ≤ current)
    (hmaximum : 1 ≤ maximum) (since : Option ℚ) (stabilization : ℕ) {decision : CapacityDecision}
    (h : decideCapacity current maximum rpm peak target since stabilization = decision) :
    (maximum < current ∧ decision = ⟨maximum, some .limitClamp⟩) ∨
    (current < min (rpm ⌈/⌉ target) maximum ∧
      decision = ⟨min (rpm ⌈/⌉ target) maximum, some .scaleUp⟩) ∨
    (current ≤ maximum ∧ min (rpm ⌈/⌉ target) maximum ≤ current ∧
      min (max 1 (peak ⌈/⌉ target)) maximum < current ∧
      (∀ seconds ∈ since, (stabilization : ℚ) ≤ seconds) ∧
      decision = ⟨min (max 1 (peak ⌈/⌉ target)) maximum, some .scaleDown⟩) ∨
    (current ≤ maximum ∧ min (rpm ⌈/⌉ target) maximum ≤ current ∧ decision = ⟨current, none⟩) := by
  have hmax : max 1 maximum = maximum := max_eq_right hmaximum
  simp only [decideCapacity, hmax, Option.all_eq_true, decide_eq_true_eq] at h
  split at h
  · next hclamp => exact .inl ⟨hclamp, h.symm⟩
  · next hclamp =>
      rw [not_lt] at hclamp
      split at h
      · next hup =>
          have hneed : max 1 (rpm ⌈/⌉ target) = rpm ⌈/⌉ target := by omega
          rw [hneed] at hup h
          exact .inr (.inl ⟨hup, h.symm⟩)
      · next hup =>
          have hserved : min (rpm ⌈/⌉ target) maximum ≤ current := by omega
          split at h
          · next hdown =>
              exact .inr (.inr (.inl ⟨hclamp, hserved, hdown.1, hdown.2, h.symm⟩))
          · exact .inr (.inr (.inr ⟨hclamp, hserved, h.symm⟩))

/-- What the controller decides for a deployment. -/
def decision (settings : Settings) (s : Store) (tenant : TenantId) (now : Time)
    (d : ModelDeployment) : CapacityDecision :=
  let (rpm, peak) := measure s tenant now settings.capacityScaleDownStabilizationSeconds
  decideCapacity d.desiredCapacity (s.maximum tenant) rpm peak settings.capacityTargetRpmPerReplica
    (d.lastScaledAt.map fun last => totalSeconds last now)
    settings.capacityScaleDownStabilizationSeconds

/-- The rows after a change is stored. -/
def Store.scaled (s : Store) (tenant : TenantId) (now : Time) (d : ModelDeployment)
    (target : ℕ) (event : CapacityEvent) : Store :=
  { s with
    deployments := Function.update s.deployments tenant (some (d.scaled now target))
    capacityEvents := s.capacityEvents ++ [event] }

/-- The event of a decision. -/
def eventOf (settings : Settings) (s : Store) (tenant : TenantId) (now : Time)
    (d : ModelDeployment) (version : VersionId) (reason : Reason) : CapacityEvent where
  tenantId := tenant
  modelVersionId := version
  fromCapacity := d.desiredCapacity
  toCapacity := (decision settings s tenant now d).target
  reason := reason
  measuredRpm := (measure s tenant now settings.capacityScaleDownStabilizationSeconds).1
  peakRpm := (measure s tenant now settings.capacityScaleDownStabilizationSeconds).2
  maxCapacity := s.maximum tenant
  occurredAt := now

/-- A step of the controller, for an active deployment. -/
theorem step_evaluate {d : ModelDeployment} {version : VersionId}
    (hd : s.deployments tenant = some d) (hversion : d.activeModelVersionId = some version) :
    step settings s ⟨now, .evaluate tenant⟩ =
      match (decision settings s tenant now d).reason with
      | none => s
      | some reason =>
          if (d.scaled now (decision settings s tenant now d).target).checked &&
              (eventOf settings s tenant now d version reason).fits
          then s.scaled tenant now d (decision settings s tenant now d).target
            (eventOf settings s tenant now d version reason)
          else s := by
  have hdecision : decision settings s tenant now d =
      decideCapacity d.desiredCapacity (maxReplicas (s.effectiveLimits tenant))
        (measure s tenant now settings.capacityScaleDownStabilizationSeconds).1
        (measure s tenant now settings.capacityScaleDownStabilizationSeconds).2
        settings.capacityTargetRpmPerReplica
        (d.lastScaledAt.map fun last => totalSeconds last now)
        settings.capacityScaleDownStabilizationSeconds := rfl
  simp only [step, evaluateCapacity, hd, hversion, ← hdecision]
  cases (decision settings s tenant now d).reason with
  | none => rfl
  | some reason =>
      by_cases h : ((d.scaled now (decision settings s tenant now d).target).checked &&
          (eventOf settings s tenant now d version reason).fits) = true
      · simp only [if_pos h]
        rw [eventOf, Store.maximum] at h
        simp only [if_pos h]
        rfl
      · simp only [if_neg h]
        rw [eventOf, Store.maximum] at h
        simp only [if_neg h]

theorem ModelDeployment.checked_iff (d : ModelDeployment) : d.checked = true ↔
    1 ≤ d.desiredCapacity ∧ d.desiredCapacity ≤ 100 ∧ d.readyCapacity ≤ d.desiredCapacity :=
  decide_eq_true_iff

theorem CapacityEvent.fits_iff (e : CapacityEvent) : e.fits = true ↔
    e.fromCapacity ≤ maxInteger ∧ e.toCapacity ≤ maxInteger ∧ e.measuredRpm ≤ maxInteger ∧
      e.peakRpm ≤ maxInteger ∧ e.maxCapacity ≤ maxInteger := by
  simp [CapacityEvent.fits]

/-- What the tables take. -/
theorem taken_iff {d : ModelDeployment} (version : VersionId) (reason : Reason)
    (hhigh : d.desiredCapacity ≤ 100) (htarget : 1 ≤ (decision settings s tenant now d).target) :
    ((d.scaled now (decision settings s tenant now d).target).checked &&
        (eventOf settings s tenant now d version reason).fits) = true ↔
      (decision settings s tenant now d).target ≤ 100 ∧ s.maximum tenant ≤ maxInteger ∧
        (measure s tenant now settings.capacityScaleDownStabilizationSeconds).2 ≤ maxInteger := by
  have hmeasure : (measure s tenant now settings.capacityScaleDownStabilizationSeconds).1 ≤
      (measure s tenant now settings.capacityScaleDownStabilizationSeconds).2 :=
    List.le_max_of_mem (List.mem_append_right _ (List.mem_singleton.mpr rfl))
  rw [Bool.and_eq_true, ModelDeployment.checked_iff, CapacityEvent.fits_iff]
  simp only [ModelDeployment.scaled, eventOf, maxInteger]
  omega

/-- The units that a number of requests needs are few enough. -/
theorem need_le_iff {requests n : ℕ} :
    settings.need requests ≤ n ↔ requests ≤ settings.capacityTargetRpmPerReplica * n :=
  ceilDiv_le_iff_le_mul settings.target_pos

theorem need_mono {a b : ℕ} (h : a ≤ b) : settings.need a ≤ settings.need b :=
  need_le_iff.mpr (h.trans (need_le_iff.mp (le_refl (settings.need b))))

/-- A pause in seconds covers the stabilization time. -/
theorem le_totalSeconds_iff {last : Time} :
    (settings.capacityScaleDownStabilizationSeconds : ℚ) ≤ totalSeconds last now ↔
      last + settings.stabilization ≤ now := by
  have hsecond : (0 : ℚ) < (second : ℚ) := by norm_num [second]
  rw [totalSeconds, le_div_iff₀ hsecond, Settings.stabilization, ← le_sub_iff_add_le']
  exact_mod_cast Iff.rfl

/-- The counts fit when the peak does. -/
theorem countsFit_iff (h : ∀ r ∈ s.servingRequests, r.occurredAt ≤ now) :
    (measure s tenant now settings.capacityScaleDownStabilizationSeconds).2 ≤ maxInteger ↔
      CountsFit settings s tenant now := by
  rw [measure_le_iff h]
  exact ⟨fun hfit => ⟨hfit.1, hfit.2⟩, fun hfit => ⟨hfit.lastMinute, hfit.minutes⟩⟩

/-- What the peak of the window needs is enough to fall to. -/
theorem mayFall_of_peak {changes : List Time} {target : ℕ}
    (h : ∀ r ∈ s.servingRequests, r.occurredAt ≤ now)
    (hstable : ∀ c ∈ changes, c + settings.stabilization ≤ now)
    (htarget : min (settings.need (measure s tenant now
      settings.capacityScaleDownStabilizationSeconds).2) (s.maximum tenant) ≤ target) :
    MayFall settings s tenant now changes target := by
  obtain ⟨hlast, hminutes⟩ := (measure_le_iff h _).mp (le_refl (measure s tenant now
    settings.capacityScaleDownStabilizationSeconds).2)
  refine ⟨hstable, ?_, fun m hm hstart _ => ?_⟩
  · exact (min_le_min_right _ (need_mono hlast)).trans htarget
  · have hwindow : s.inMinute tenant m m ≤
        s.inMinute tenant (now - max settings.stabilization (60 * second)) m := by
      refine List.countP_mono_left fun r _ hr => ?_
      simp only [decide_eq_true_eq] at hr ⊢
      have hmax := le_max_left settings.stabilization (60 * second)
      exact ⟨hr.1, (sub_le_sub_left hmax now).trans (hstart.trans hr.2.1), hr.2.2⟩
    exact (min_le_min_right _ (need_mono (hwindow.trans (hminutes m hm)))).trans htarget

/-- The cases of a decision for a deployment. -/
theorem decision_cases {d : ModelDeployment} (h : ∀ r ∈ s.servingRequests, r.occurredAt ≤ now)
    (hlow : 1 ≤ d.desiredCapacity) :
    (s.maximum tenant < d.desiredCapacity ∧
      decision settings s tenant now d = ⟨s.maximum tenant, some .limitClamp⟩) ∨
    (d.desiredCapacity < min (settings.need (s.lastMinute tenant now)) (s.maximum tenant) ∧
      decision settings s tenant now d =
        ⟨min (settings.need (s.lastMinute tenant now)) (s.maximum tenant), some .scaleUp⟩) ∨
    (d.desiredCapacity ≤ s.maximum tenant ∧
      min (settings.need (s.lastMinute tenant now)) (s.maximum tenant) ≤ d.desiredCapacity ∧
      ∃ target < d.desiredCapacity, target = min (max 1 (settings.need (measure s tenant now
          settings.capacityScaleDownStabilizationSeconds).2)) (s.maximum tenant) ∧
        (∀ last, d.lastScaledAt = some last → last + settings.stabilization ≤ now) ∧
        decision settings s tenant now d = ⟨target, some .scaleDown⟩) ∨
    (d.desiredCapacity ≤ s.maximum tenant ∧
      min (settings.need (s.lastMinute tenant now)) (s.maximum tenant) ≤ d.desiredCapacity ∧
      decision settings s tenant now d = ⟨d.desiredCapacity, none⟩) := by
  rw [← measure_lastMinute h settings.capacityScaleDownStabilizationSeconds]
  obtain hclamp | hup | ⟨hle, hserved, hlt, hstable, hdown⟩ | hnone :=
    decideCapacity_cases hlow (le_max_left _ _ : 1 ≤ s.maximum tenant)
      (d.lastScaledAt.map fun last => totalSeconds last now)
      settings.capacityScaleDownStabilizationSeconds (rfl : _ = decision settings s tenant now d)
  · exact .inl hclamp
  · exact .inr (.inl hup)
  · refine .inr (.inr (.inl ⟨hle, hserved, _, hlt, rfl, fun last hlast => ?_, hdown⟩))
    exact le_totalSeconds_iff.mp (hstable _ (by rw [hlast]; rfl))
  · exact .inr (.inr (.inr hnone))

/-- The capacity after a step of the controller. -/
theorem capacity_step {d : ModelDeployment} (h : ∀ r ∈ s.servingRequests, r.occurredAt ≤ now)
    (hd : s.deployments tenant = some d) (hactive : d.activeModelVersionId.isSome = true)
    (hlow : 1 ≤ d.desiredCapacity) (hhigh : d.desiredCapacity ≤ 100) :
    (step settings s ⟨now, .evaluate tenant⟩).capacity tenant =
      some (if (decision settings s tenant now d).target ≤ 100 ∧ s.maximum tenant ≤ maxInteger ∧
          (measure s tenant now settings.capacityScaleDownStabilizationSeconds).2 ≤ maxInteger
        then (decision settings s tenant now d).target else d.desiredCapacity) := by
  obtain ⟨version, hversion⟩ := Option.isSome_iff_exists.mp hactive
  have hbefore : s.capacity tenant = some d.desiredCapacity := by rw [Store.capacity, hd]; rfl
  have hone : 1 ≤ s.maximum tenant := le_max_left _ _
  have hcases := @decision_cases settings s tenant now d h hlow
  have htarget : 1 ≤ (decision settings s tenant now d).target := by
    obtain ⟨-, hd⟩ | ⟨hlt, hd⟩ | ⟨-, -, _, -, rfl, -, hd⟩ | ⟨-, -, hd⟩ := hcases
    · rw [hd]
      exact hone
    · rw [hd]
      exact hlow.trans hlt.le
    · rw [hd]
      exact le_min (le_max_left _ _) hone
    · rw [hd]
      exact hlow
  rw [step_evaluate hd hversion]
  cases hreason : (decision settings s tenant now d).reason with
  | none =>
      have hkeep : (decision settings s tenant now d).target = d.desiredCapacity := by
        obtain ⟨-, hd⟩ | ⟨-, hd⟩ | ⟨-, -, _, -, -, -, hd⟩ | ⟨-, -, hd⟩ := hcases
        iterate 3
          · rw [hd] at hreason
            cases hreason
        · rw [hd]
      rw [hkeep, ite_self]
      exact hbefore
  | some reason =>
      simp only [taken_iff version reason hhigh htarget]
      split
      · simp [Store.capacity, Store.scaled, ModelDeployment.scaled]
      · exact hbefore

/-- **One step.**  A step of the controller does what it should exactly when it can store its
result. -/
theorem controls_step {d : ModelDeployment} {changes : List Time}
    (h : ∀ r ∈ s.servingRequests, r.occurredAt ≤ now) (hd : s.deployments tenant = some d)
    (hactive : d.activeModelVersionId.isSome = true) (hlow : 1 ≤ d.desiredCapacity)
    (hhigh : d.desiredCapacity ≤ 100)
    (hchanges : ∀ c ∈ changes, ∃ last, d.lastScaledAt = some last ∧ c ≤ last) :
    ∃ next, (step settings s ⟨now, .evaluate tenant⟩).capacity tenant = some next ∧
      (Controls settings s tenant now changes d.desiredCapacity next ↔
        Storable settings s tenant now d.desiredCapacity) := by
  have hone : 1 ≤ s.maximum tenant := le_max_left _ _
  refine ⟨_, capacity_step h hd hactive hlow hhigh, ?_⟩
  simp only [Storable, ← countsFit_iff h, ← need_le_iff]
  obtain ⟨hclamp, hdecision⟩ | ⟨hup, hdecision⟩ |
    ⟨hle, hserved, target, hlt, htarget, hstable, hdecision⟩ | ⟨hle, hserved, hdecision⟩ :=
    @decision_cases settings s tenant now d h hlow
  · -- A clamp.
    rw [hdecision]
    dsimp only
    split
    · next hstored =>
        refine iff_of_true ⟨hone, le_refl _, min_le_right _ _, fun _ => .inl ⟨hclamp, rfl⟩⟩ ?_
        exact .inr ⟨.inl hstored.1, hstored.2⟩
    · next hstored =>
        refine iff_of_false (fun hcontrols => absurd hcontrols.le_maximum (not_le.mpr hclamp)) ?_
        rintro (⟨hle, -⟩ | hfits)
        · exact absurd hle (not_le.mpr hclamp)
        · exact hstored ⟨hclamp.le.trans hhigh, hfits.2⟩
  · -- A rise.
    rw [hdecision]
    dsimp only
    rw [lt_min_iff] at hup
    split
    · next hstored =>
        have hrise : d.desiredCapacity <
            min (settings.need (s.lastMinute tenant now)) (s.maximum tenant) := lt_min hup.1 hup.2
        refine iff_of_true ⟨hlow.trans hrise.le, min_le_right _ _, le_refl _, fun hfall =>
          absurd hfall (not_lt.mpr hrise.le)⟩ (.inr ⟨?_, hstored.2⟩)
        exact (min_le_iff.mp hstored.1).symm
    · next hstored =>
        refine iff_of_false (fun hcontrols => ?_) ?_
        · exact absurd hcontrols.served (not_le.mpr (lt_min hup.1 hup.2))
        · rintro (⟨-, hneed | hmax⟩ | hfits)
          · exact absurd hneed (not_le.mpr hup.1)
          · exact absurd hmax (not_le.mpr hup.2)
          · exact hstored ⟨min_le_iff.mpr hfits.1.symm, hfits.2⟩
  · -- A fall.
    have hpause : ∀ c ∈ changes, c + settings.stabilization ≤ now := by
      intro c hc
      obtain ⟨last, hlast, hcl⟩ := hchanges c hc
      exact (add_le_add_left hcl _).trans (hstable last hlast)
    have hpeak : min (settings.need (measure s tenant now
        settings.capacityScaleDownStabilizationSeconds).2) (s.maximum tenant) ≤ target := by
      rw [htarget]
      exact min_le_min_right _ (le_max_right _ _)
    have hfall := mayFall_of_peak h hpause hpeak
    refine iff_of_true ?_ (.inl ⟨hle, min_le_iff.mp hserved⟩)
    rw [hdecision]
    dsimp only
    split
    · refine ⟨?_, ?_, hfall.lastMinute, fun _ => .inr hfall⟩
      · rw [htarget]
        exact le_min (le_max_left _ _) hone
      · rw [htarget]
        exact min_le_right _ _
    · exact ⟨hlow, hle, hserved, fun hfall => absurd hfall (lt_irrefl _)⟩
  · -- No change.
    refine iff_of_true ?_ (.inl ⟨hle, min_le_iff.mp hserved⟩)
    rw [hdecision]
    dsimp only
    rw [ite_self]
    exact ⟨hlow, hle, hserved, fun hfall => absurd hfall (lt_irrefl _)⟩

end Step

/-! ## Runs -/

section Runs

variable {settings : Settings} {s : Store} {tenant : TenantId} {now start : Time}

/-- What any operation does to the deployments: nothing, or it stores a change of one. -/
theorem deployments_step (settings : Settings) (s : Store) (a : Timed) :
    (step settings s a).deployments = s.deployments ∨
      ∃ tenant d target, s.deployments tenant = some d ∧ 1 ≤ target ∧ target ≤ 100 ∧
        (step settings s a).deployments =
          Function.update s.deployments tenant (some (d.scaled a.now target)) := by
  obtain ⟨now, op⟩ := a
  cases op with
  | serve tenant => exact .inl rfl
  | setLimits tenant found => exact .inl rfl
  | evaluate tenant =>
      cases hd : s.deployments tenant with
      | none => exact .inl (by simp [step, evaluateCapacity, hd])
      | some d =>
          cases hversion : d.activeModelVersionId with
          | none => exact .inl (by simp [step, evaluateCapacity, hd, hversion])
          | some version =>
              rw [step_evaluate hd hversion]
              cases (decision settings s tenant now d).reason with
              | none => exact .inl rfl
              | some reason =>
                  dsimp only
                  split
                  · next hstored =>
                      rw [Bool.and_eq_true, ModelDeployment.checked_iff] at hstored
                      exact .inr ⟨tenant, d, _, hd, hstored.1.1, hstored.1.2.1, rfl⟩
                  · exact .inl rfl

/-- The rows stay sound. -/
theorem Store.Sound.step (h : s.Sound start) {a : Timed} (hstart : start ≤ a.now) :
    (step settings s a).Sound a.now := by
  have hserved : ∀ r ∈ (Capacity.step settings s a).servingRequests, r.occurredAt ≤ a.now := by
    have hold : ∀ r ∈ s.servingRequests, r.occurredAt ≤ a.now := fun r hr =>
      (h.served r hr).trans hstart
    obtain ⟨now, op⟩ := a
    cases op with
    | serve tenant =>
        intro r hr
        rcases List.mem_append.mp hr with hr | hr
        · exact hold r hr
        · rw [List.mem_singleton.mp hr]
    | setLimits tenant found => exact hold
    | evaluate tenant =>
        have hsame : (Capacity.step settings s ⟨now, .evaluate tenant⟩).servingRequests =
            s.servingRequests := by
          cases hd : s.deployments tenant with
          | none => simp [Capacity.step, evaluateCapacity, hd]
          | some d =>
              cases hversion : d.activeModelVersionId with
              | none => simp [Capacity.step, evaluateCapacity, hd, hversion]
              | some version =>
                  rw [step_evaluate hd hversion]
                  split
                  · rfl
                  · split <;> rfl
        rw [hsame]
        exact hold
  rcases deployments_step settings s a with hsame | ⟨changed, d, target, hd, hone, hle, hnew⟩
  · refine ⟨hserved, ?_, ?_⟩
    · rw [hsame]
      exact h.capacity
    · rw [hsame]
      exact fun tenant d last hd hlast => (h.scaled tenant d last hd hlast).trans hstart
  · refine ⟨hserved, fun tenant d' hd' => ?_, fun tenant d' last hd' hlast => ?_⟩
    · rw [hnew] at hd'
      by_cases htenant : tenant = changed
      · subst htenant
        rw [Function.update_self] at hd'
        cases hd'
        exact ⟨hone, hle⟩
      · rw [Function.update_of_ne htenant] at hd'
        exact h.capacity tenant d' hd'
    · rw [hnew] at hd'
      by_cases htenant : tenant = changed
      · subst htenant
        rw [Function.update_self] at hd'
        cases hd'
        cases hlast
        exact le_refl _
      · rw [Function.update_of_ne htenant] at hd'
        exact (h.scaled tenant d' last hd' hlast).trans hstart

/-- The last change of a tenant's capacity is no earlier than a time. -/
def Store.ScaledSince (s : Store) (tenant : TenantId) (c : Time) : Prop :=
  ∃ d last, s.deployments tenant = some d ∧ d.lastScaledAt = some last ∧ c ≤ last

theorem Store.ScaledSince.step {c : Time} (h : s.ScaledSince tenant c) (hsound : s.Sound start)
    {a : Timed} (hstart : start ≤ a.now) : (step settings s a).ScaledSince tenant c := by
  obtain ⟨d, last, hd, hlast, hc⟩ := h
  rcases deployments_step settings s a with hsame | ⟨changed, d', target, hd', -, -, hnew⟩
  · exact ⟨d, last, hsame ▸ hd, hlast, hc⟩
  · by_cases htenant : tenant = changed
    · subst htenant
      refine ⟨d'.scaled a.now target, a.now, by rw [hnew, Function.update_self], rfl, ?_⟩
      exact hc.trans ((hsound.scaled tenant d last hd hlast).trans hstart)
    · exact ⟨d, last, by rw [hnew, Function.update_of_ne htenant, hd], hlast, hc⟩

/-- A change is the last one. -/
theorem scaledSince_of_changed {a : Timed}
    (h : s.capacity tenant ≠ (step settings s a).capacity tenant) :
    (step settings s a).ScaledSince tenant a.now := by
  rcases deployments_step settings s a with hsame | ⟨changed, d, target, hd, -, -, hnew⟩
  · exact absurd (by rw [Store.capacity, Store.capacity, hsame]) h
  · by_cases htenant : tenant = changed
    · subst htenant
      exact ⟨d.scaled a.now target, a.now, by rw [hnew, Function.update_self], rfl, le_refl _⟩
    · exact absurd (by rw [Store.capacity, Store.capacity, hnew, Function.update_of_ne htenant]) h

/-- What holds before an entry of a run: its rows are sound at its time, and every change so far is
no later than the one that the rows remember. -/
theorem before_entry {actions : List Timed} {earlier later : List Entry} {e : Entry}
    (hsound : s.Sound start) (hclock : InOrder start actions)
    (hsplit : history settings s actions = earlier ++ e :: later) :
    (∃ t ≤ e.action.now, e.before.Sound t) ∧ e.after = step settings e.before e.action ∧
      ∀ tenant, ∀ c ∈ changes s earlier tenant, e.before.ScaledSince tenant c := by
  induction earlier generalizing s start actions with
  | nil =>
      cases actions with
      | nil => cases hsplit
      | cons a rest =>
          cases hsplit
          refine ⟨⟨start, hclock.1, hsound⟩, rfl, fun tenant c hc => ?_⟩
          rw [changes, List.filterMap_nil, List.append_nil, Option.mem_toList,
            Option.bind_eq_some_iff] at hc
          obtain ⟨d, hd, hlast⟩ := hc
          exact ⟨d, c, hd, hlast, le_refl c⟩
  | cons first earlier ih =>
      cases actions with
      | nil => cases hsplit
      | cons a rest =>
          rw [history, List.cons_append, List.cons.injEq] at hsplit
          obtain ⟨rfl, hsplit⟩ := hsplit
          obtain ⟨hbefore, hafter, hscaled⟩ := ih (hsound.step hclock.1) hclock.2 hsplit
          refine ⟨hbefore, hafter, fun tenant c hc => ?_⟩
          -- A change before the rest of the run is no later than the one its rows remember.
          have hold : (step settings s a).ScaledSince tenant c → e.before.ScaledSince tenant c := by
            rintro ⟨d, last, hd, hlast, hcl⟩
            have hmem : last ∈ changes (step settings s a) earlier tenant := by
              refine List.mem_append_left _ (Option.mem_toList.mpr ?_)
              rw [hd]
              exact hlast
            obtain ⟨d', last', hd', hlast', hle⟩ := hscaled tenant last hmem
            exact ⟨d', last', hd', hlast', hcl.trans hle⟩
          rcases List.mem_append.mp hc with hc | hc
          · rw [Option.mem_toList, Option.bind_eq_some_iff] at hc
            obtain ⟨d, hd, hlast⟩ := hc
            exact hold (Store.ScaledSince.step ⟨d, c, hd, hlast, le_refl c⟩ hsound hclock.1)
          · rw [List.filterMap_cons] at hc
            split at hc
            · exact hscaled tenant c (List.mem_append_right _ hc)
            · next hchange =>
                split at hchange
                · cases hchange
                · next hne =>
                    cases hchange
                    rcases List.mem_cons.mp hc with rfl | hc
                    · exact hold (scaledSince_of_changed hne)
                    · exact hscaled tenant c (List.mem_append_right _ hc)

/-- **Capacity follows the requests.**  In a run in which the clock does not go back, every step of
the controller does what it should exactly when every one can store its result. -/
theorem controller_iff (settings : Settings) {actions : List Timed} (hsound : s.Sound start)
    (hclock : InOrder start actions) :
    (∀ earlier e later, history settings s actions = earlier ++ e :: later →
      e.Controlled settings (changes s earlier)) ↔
    ∀ earlier e later, history settings s actions = earlier ++ e :: later →
      e.Storable settings := by
  refine forall_congr' fun earlier => forall_congr' fun e => forall_congr' fun later =>
    forall_congr' fun hsplit => ?_
  obtain ⟨⟨t, ht, hbefore⟩, hafter, hscaled⟩ := before_entry hsound hclock hsplit
  refine forall_congr' fun tenant => forall_congr' fun d => forall_congr' fun hop =>
    forall_congr' fun hd => forall_congr' fun hactive => ?_
  obtain ⟨hlow, hhigh⟩ := hbefore.capacity tenant d hd
  have hserved : ∀ r ∈ e.before.servingRequests, r.occurredAt ≤ e.action.now := fun r hr =>
    (hbefore.served r hr).trans ht
  obtain ⟨next, hnext, hiff⟩ := controls_step hserved hd hactive hlow hhigh fun c hc => by
    obtain ⟨d', last, hd', hlast, hle⟩ := hscaled tenant c hc
    rw [hd] at hd'
    cases hd'
    exact ⟨last, hlast, hle⟩
  have haction : e.action = ⟨e.action.now, .evaluate tenant⟩ := by rw [← hop]
  rw [hafter, haction, ← hiff]
  constructor
  · rintro ⟨next', hnext', hcontrols⟩
    rw [hnext] at hnext'
    cases hnext'
    exact hcontrols
  · exact fun hcontrols => ⟨next, hnext, hcontrols⟩

/-- A tenant with an active deployment of one unit, whose plan allows a number of units. -/
def oneUnit (maximum : ℕ) (requests : List ServingRequest) : Store where
  limits := fun _ => some
    ⟨⟨[("maximum_inference_replicas", maximum)], List.nodup_singleton _⟩, .empty, .empty⟩
  deployments := fun tenant => if tenant = 0 then some ⟨some 0, 1, 1, none⟩ else none
  servingRequests := requests
  capacityEvents := []

/-- One request per minute for each unit. -/
def oneRpm : Settings := { capacityTargetRpmPerReplica := 1, target_pos := Nat.one_pos }

theorem oneUnit_sound {maximum : ℕ} {requests : List ServingRequest}
    (h : ∀ r ∈ requests, r.occurredAt ≤ start) : (oneUnit maximum requests).Sound start := by
  have hd : ∀ tenant d, (oneUnit maximum requests).deployments tenant = some d →
      d = ⟨some 0, 1, 1, none⟩ := by
    intro tenant d hd
    simp only [oneUnit] at hd
    split at hd
    · exact (Option.some.inj hd).symm
    · cases hd
  refine ⟨h, fun tenant d hsome => ?_, fun tenant d last hsome hlast => ?_⟩
  · rw [hd tenant d hsome]
    exact ⟨le_refl 1, by decide⟩
  · rw [hd tenant d hsome] at hlast
    cases hlast

/-- Three requests, and a pause. -/
def threeRequests : List Timed :=
  [⟨0, .serve 0⟩, ⟨0, .serve 0⟩, ⟨0, .serve 0⟩, ⟨0, .evaluate 0⟩, ⟨200 * second, .evaluate 0⟩]

/-- Rows that no table refuses. -/
theorem storable_of_small {e : Entry}
    (hmaximum : ∀ tenant, e.action.op = .evaluate tenant → e.before.maximum tenant ≤ 100)
    (hrequests : e.before.servingRequests.length ≤ maxInteger) : e.Storable settings := by
  intro tenant d hop _ _
  have hmax := hmaximum tenant hop
  refine .inr ⟨.inl hmax, hmax.trans (by decide), ?_, fun m _ => ?_⟩
  · exact List.countP_le_length.trans hrequests
  · exact List.countP_le_length.trans hrequests

/-- Three requests raise the capacity to three units, and the pause lets it fall again. -/
theorem controller_iff_threeRequests : ∃ earlier e,
    history oneRpm (oneUnit 3 []) threeRequests = earlier ++ [e] ∧
      e.before.capacity 0 = some 3 ∧ e.after.capacity 0 = some 1 ∧
      e.Controlled oneRpm (changes (oneUnit 3 []) earlier) := by
  have hclock : InOrder 0 threeRequests := by simp [InOrder, threeRequests, second]
  have hrows : ∀ e ∈ history oneRpm (oneUnit 3 []) threeRequests,
      e.before.servingRequests.length ≤ 3 ∧ e.before.maximum 0 = 3 := by decide +kernel
  have hops : ∀ e ∈ history oneRpm (oneUnit 3 []) threeRequests, ∀ tenant,
      e.action.op = .evaluate tenant → tenant = 0 := by
    simp [history, threeRequests]
  have hstorable : ∀ earlier e later,
      history oneRpm (oneUnit 3 []) threeRequests = earlier ++ e :: later → e.Storable oneRpm := by
    intro earlier e later hsplit
    have hmem : e ∈ history oneRpm (oneUnit 3 []) threeRequests := by
      rw [hsplit]
      exact List.mem_append_right _ List.mem_cons_self
    obtain ⟨hlength, hmaximum⟩ := hrows e hmem
    refine storable_of_small (fun tenant hop => ?_) (hlength.trans (by decide))
    rw [hops e hmem tenant hop, hmaximum]
    decide
  have hcontrolled := (controller_iff oneRpm (oneUnit_sound (by simp)) hclock).mpr hstorable
  refine ⟨[_, _, _, _], _, rfl, ?_, ?_, hcontrolled [_, _, _, _] _ [] rfl⟩
  · decide +kernel
  · decide +kernel

/-- A plan for 500 units, and 101 requests in a minute.  The step raises, and one unit stays. -/
theorem not_controlled :
    (oneUnit 500 (List.replicate 101 ⟨0, 0⟩)).Sound 0 ∧ InOrder 0 [⟨0, .evaluate 0⟩] ∧
      ¬ ∀ earlier e later,
        history oneRpm (oneUnit 500 (List.replicate 101 ⟨0, 0⟩)) [⟨0, .evaluate 0⟩] =
          earlier ++ e :: later →
        e.Controlled oneRpm (changes (oneUnit 500 (List.replicate 101 ⟨0, 0⟩)) earlier) := by
  have hserved : ∀ r ∈ List.replicate 101 (⟨0, 0⟩ : ServingRequest), r.occurredAt ≤ 0 := by
    intro r hr
    rw [List.eq_of_mem_replicate hr]
  refine ⟨oneUnit_sound hserved, ⟨le_refl 0, trivial⟩, fun hall => ?_⟩
  obtain ⟨next, hnext, hcontrols⟩ := hall [] _ [] rfl 0 ⟨some 0, 1, 1, none⟩ rfl rfl rfl
  have hkept : (step oneRpm (oneUnit 500 (List.replicate 101 ⟨0, 0⟩)) ⟨0, .evaluate 0⟩).capacity 0 =
      some 1 := by decide +kernel
  have hone : next = 1 := Option.some.inj (hnext.symm.trans hkept)
  rw [hone] at hcontrols
  exact absurd hcontrols.served (by decide +kernel)

end Runs

end Capacity
