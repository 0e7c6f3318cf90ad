import GraphRec.Api.Error
import GraphRec.Capacity.Controller
import GraphRec.Lib.Binary64

/-!
# Serving slots

The requests of a tenant that may run at a time.  Without an active deployment they are those of
the plan; with one, `serving_slots` gives each of its serving units an equal part of them.

`slots_follow_iff` — the slots follow the plan exactly when the plan has some and the part of a unit
is not rounded down.
-/

namespace Capacity

open Api (ApiError)
open Binary64 (overflow divide)
open Tenants (Limits)

/-- What `serving_slots` comes to. -/
inductive ServingSlots
  /-- No plan limit. -/
  | none
  | slots (n : ℕ)
  | overflowError
  deriving DecidableEq, Repr

/-- `serving_slots`. -/
def servingSlots (limits : Limits) (readyCapacity : ℕ) : ServingSlots :=
  match limits.get? "concurrent_recommendation_requests" with
  | .none => .none
  | some planSlots =>
      match divide planSlots (maxReplicas limits) with
      | .none => .overflowError
      | some quotient =>
          let perReplica := ⌈quotient⌉.toNat
          .slots (max 1 (min planSlots (perReplica * max 1 readyCapacity)))

/-- The limits without which nothing is served. -/
def servingLimits : List String :=
  ["concurrent_recommendation_requests", "requests_per_minute", "recommendation_requests"]

/-- The error without them. -/
def quotaUnavailable : ApiError where
  statusCode := 503
  code := "quota_unavailable"
  message := "Usage limits are temporarily unavailable."
  retryable := true

/-- What `get_recommendations` raises before it asks for a slot. -/
inductive SlotsError
  | api (e : ApiError)
  | overflowError
  deriving DecidableEq, Repr

/-- `slots`, by the limits of the tenant and the `ready_capacity` of its active deployment. -/
def slots (limits : Limits) (ready : Option ℕ) : Except SlotsError ℕ :=
  if servingLimits.any fun name => (limits.get? name).isNone then .error (.api quotaUnavailable)
  else
    let planSlots := (limits.get? "concurrent_recommendation_requests").getD 0
    -- No deployment and a capacity of zero both count as false.
    let provided := if ready.getD 0 = 0 then ServingSlots.none
      else servingSlots limits (ready.getD 0)
    match provided with
    | .overflowError => .error .overflowError
    | .none => .ok planSlots
    | .slots n => .ok (if n = 0 then planSlots else n)

/-- The `ready_capacity` of the active deployment. -/
def Store.readyCapacity (s : Store) (tenant : TenantId) : Option ℕ :=
  (s.deployments tenant).bind fun d =>
    if d.activeModelVersionId.isSome then some d.readyCapacity else none

/-- The slots of a request of a tenant. -/
def Store.slots (s : Store) (tenant : TenantId) : Except SlotsError ℕ :=
  Capacity.slots (s.effectiveLimits tenant) (s.readyCapacity tenant)

/-- The slots of a tenant follow its plan: never more, never fewer with more units, and all of them
with all units. -/
structure FollowPlan (limits : Limits) (plan : ℕ) : Prop where
  le : ∀ ready, 1 ≤ ready → ∃ n, slots limits (some ready) = .ok n ∧ n ≤ plan
  mono : ∀ ready ready' n n', 1 ≤ ready → ready ≤ ready' → slots limits (some ready) = .ok n →
    slots limits (some ready') = .ok n' → n ≤ n'
  all : ∀ ready, maxReplicas limits ≤ ready → slots limits (some ready) = .ok plan

/-- The part of a unit: the division gives a double, and is not rounded down to a whole number or
past one. -/
structure Divides (plan replicas : ℕ) : Prop where
  finite : Binary64.nearest ((plan : ℚ) / replicas) < overflow
  up : ∀ n : ℕ, Binary64.nearest ((plan : ℚ) / replicas) ≤ n → (plan : ℚ) / replicas ≤ n

/-- Plans of this size divide. -/
theorem divides_of_lt {plan replicas : ℕ} (hreplicas : 0 < replicas) (hplan : plan < 2 ^ 53)
    (hmany : replicas ≤ Binary64.normalParts) : Divides plan replicas where
  finite := Binary64.nearest_div_lt_overflow hreplicas hplan
  up := fun _ => Binary64.le_of_nearest_div_le hreplicas hplan hmany

section Slots

variable {limits : Limits} {plan ready : ℕ}

theorem maxReplicas_pos (limits : Limits) : 1 ≤ maxReplicas limits := le_max_left 1 _

/-- The limits of a tenant that can be served. -/
structure Serves (limits : Limits) (plan : ℕ) : Prop where
  slots : limits.get? "concurrent_recommendation_requests" = some plan
  rate : limits.get? "requests_per_minute" ≠ none
  quota : limits.get? "recommendation_requests" ≠ none

/-- No limit is missing. -/
theorem Serves.any_isNone (h : Serves limits plan) :
    (servingLimits.any fun name => (limits.get? name).isNone) = false := by
  have hrate := h.rate
  have hquota := h.quota
  simp only [servingLimits, List.any_cons, List.any_nil, h.slots, Bool.or_eq_false_iff,
    Option.isNone_eq_false_iff, Option.isSome_iff_ne_none, Option.isNone_some]
  tauto

/-- Without units the plan applies. -/
theorem Serves.slots_unready (h : Serves limits plan) {ready : Option ℕ}
    (hready : ready.getD 0 = 0) : Capacity.slots limits ready = .ok plan := by
  rw [Capacity.slots, h.any_isNone, if_neg Bool.false_ne_true]
  dsimp only
  rw [if_pos hready, h.slots, Option.getD_some]

/-- The slots of a deployment. -/
theorem Serves.slots_eq (h : Serves limits plan) (hready : 1 ≤ ready) :
    Capacity.slots limits (some ready) =
      match divide plan (maxReplicas limits) with
      | none => .error .overflowError
      | some quotient => .ok (max 1 (min plan (⌈quotient⌉.toNat * ready))) := by
  rw [Capacity.slots, h.any_isNone, if_neg Bool.false_ne_true]
  dsimp only
  rw [Option.getD_some, if_neg (by omega), servingSlots, h.slots]
  dsimp only
  cases divide plan (maxReplicas limits) with
  | none => rfl
  | some quotient =>
      dsimp only
      rw [if_neg (by omega), max_eq_right hready]

/-- A part rounded up is enough for all units exactly when no whole number was lost. -/
theorem le_ceil_mul_iff {replicas : ℕ} (hreplicas : 0 < replicas) {quotient : ℚ} :
    plan ≤ ⌈quotient⌉.toNat * replicas ↔
      ∀ n : ℕ, quotient ≤ n → (plan : ℚ) / replicas ≤ n := by
  have hpos : (0 : ℚ) < replicas := by exact_mod_cast hreplicas
  have hceil : ∀ n : ℕ, quotient ≤ n ↔ ⌈quotient⌉.toNat ≤ n := by
    intro n
    have hle : quotient ≤ ((n : ℤ) : ℚ) ↔ ⌈quotient⌉ ≤ (n : ℤ) := Int.ceil_le.symm
    rw [Int.cast_natCast] at hle
    rw [hle]
    omega
  constructor
  · intro h n hn
    rw [div_le_iff₀ hpos]
    exact_mod_cast h.trans (Nat.mul_le_mul_right replicas ((hceil n).mp hn))
  · intro h
    have hle := h _ ((hceil _).mpr le_rfl)
    rw [div_le_iff₀ hpos] at hle
    exact_mod_cast hle

/-- A single request fits the one slot that there always is. -/
theorem Serves.slots_one (h : Serves limits 1) (hready : 1 ≤ ready) :
    Capacity.slots limits (some ready) = .ok 1 := by
  have hfinite := Binary64.nearest_div_lt_overflow (a := 1) (maxReplicas_pos limits) (by decide)
  rw [h.slots_eq hready, divide, if_neg (not_le.mpr hfinite)]
  exact congrArg Except.ok (max_eq_left (min_le_left _ _))

/-- The slots of a plan that divides. -/
theorem Serves.slots_of_divides (h : Serves limits plan) (hplan : 1 ≤ plan)
    (hdivides : Divides plan (maxReplicas limits)) (hready : 1 ≤ ready) :
    Capacity.slots limits (some ready) = .ok (min plan
      (⌈Binary64.nearest ((plan : ℚ) / maxReplicas limits)⌉.toNat * ready)) := by
  have hall := (le_ceil_mul_iff (maxReplicas_pos limits)).mpr hdivides.up
  have hpart : 1 ≤ ⌈Binary64.nearest ((plan : ℚ) / maxReplicas limits)⌉.toNat :=
    Nat.pos_of_ne_zero fun hzero => by
      rw [hzero, Nat.zero_mul] at hall
      omega
  rw [h.slots_eq hready, divide, if_neg (not_le.mpr hdivides.finite)]
  exact congrArg Except.ok (max_eq_right (le_min hplan (Nat.mul_pos hpart hready)))

/-- Slots that follow the plan are those of a plan that divides. -/
theorem FollowPlan.divides (h : Serves limits plan) (hfollow : FollowPlan limits plan) :
    1 ≤ plan ∧ (plan = 1 ∨ Divides plan (maxReplicas limits)) := by
  have hreplicas := maxReplicas_pos limits
  obtain ⟨n, hn, hle⟩ := hfollow.le 1 le_rfl
  have hall := hfollow.all _ le_rfl
  rw [h.slots_eq le_rfl] at hn
  rw [h.slots_eq hreplicas] at hall
  unfold divide at hn hall
  by_cases hbig : overflow ≤ Binary64.nearest ((plan : ℚ) / maxReplicas limits)
  · rw [if_pos hbig] at hn
    cases hn
  · rw [if_neg hbig] at hn hall
    have hone := Except.ok.inj hn
    have hslots := Except.ok.inj hall
    refine ⟨by omega, ?_⟩
    by_cases hplan : plan = 1
    · exact .inl hplan
    · refine .inr ⟨not_le.mp hbig, (le_ceil_mul_iff hreplicas).mp ?_⟩
      -- More than one slot comes from the units and not from the lower clamp.
      omega

/-- **The slots follow the plan**, exactly when it has some and, with more than one, divides. -/
theorem slots_follow_iff (h : Serves limits plan) :
    FollowPlan limits plan ↔ 1 ≤ plan ∧ (plan = 1 ∨ Divides plan (maxReplicas limits)) := by
  refine ⟨fun hfollow => hfollow.divides h, ?_⟩
  rintro ⟨hplan, rfl | hdivides⟩
  · refine ⟨fun ready hready => ⟨1, h.slots_one hready, le_rfl⟩, ?_, ?_⟩
    · intro ready ready' n n' hready hle hn hn'
      rw [h.slots_one hready] at hn
      rw [h.slots_one (hready.trans hle)] at hn'
      exact (Except.ok.inj hn).symm.trans (Except.ok.inj hn') |>.le
    · exact fun ready hready => h.slots_one ((maxReplicas_pos limits).trans hready)
  · refine ⟨fun ready hready => ⟨_, h.slots_of_divides hplan hdivides hready, min_le_left _ _⟩,
      ?_, ?_⟩
    · intro ready ready' n n' hready hle hn hn'
      rw [h.slots_of_divides hplan hdivides hready] at hn
      rw [h.slots_of_divides hplan hdivides (hready.trans hle)] at hn'
      cases hn
      cases hn'
      exact min_le_min le_rfl (Nat.mul_le_mul_left _ hle)
    · intro ready hready
      have hall := (le_ceil_mul_iff (maxReplicas_pos limits)).mpr hdivides.up
      rw [h.slots_of_divides hplan hdivides ((maxReplicas_pos limits).trans hready)]
      exact congrArg Except.ok (min_eq_left (hall.trans (Nat.mul_le_mul_left _ hready)))

/-- A tenant gets slots, and no more than its plan has. -/
theorem Store.slots_le (s : Store) {tenant : TenantId} (h : Serves (s.effectiveLimits tenant) plan)
    (hplan : 1 ≤ plan) (hdivides : Divides plan (maxReplicas (s.effectiveLimits tenant))) :
    ∃ n, s.slots tenant = .ok n ∧ n ≤ plan := by
  unfold Store.slots
  by_cases hready : (s.readyCapacity tenant).getD 0 = 0
  · exact ⟨plan, h.slots_unready hready, le_rfl⟩
  · cases hcapacity : s.readyCapacity tenant with
    | none => exact absurd (by rw [hcapacity]; rfl) hready
    | some ready =>
        rw [hcapacity, Option.getD_some] at hready
        exact ((slots_follow_iff h).mpr ⟨hplan, .inr hdivides⟩).le ready
          (Nat.one_le_iff_ne_zero.mpr hready)

/-- The limits of a plan with four units. -/
def fourUnits (plan : ℕ) : Limits :=
  (((Table.empty.insert "concurrent_recommendation_requests" plan).insert
    "maximum_inference_replicas" 4).insert "requests_per_minute" 120).insert
    "recommendation_requests" 1000

theorem fourUnits_serves (plan : ℕ) : Serves (fourUnits plan) plan :=
  ⟨rfl, nofun, nofun⟩

/-- Ten slots on four units follow the plan. -/
theorem slots_follow_iff_ten : FollowPlan (fourUnits 10) 10 := by
  have hunits : maxReplicas (fourUnits 10) = 4 := by decide
  refine (slots_follow_iff (fourUnits_serves 10)).mpr ⟨by decide, Or.inr ?_⟩
  have hmany : Binary64.parts 2 ≤ Binary64.normalParts := Binary64.parts_mono (by decide)
  rw [hunits]
  exact divides_of_lt (by decide) (by decide) hmany

/-- A plan of no slots keeps one. -/
theorem exceeds_no_slots : ¬ ∀ (limits : Limits) (plan : ℕ), Serves limits plan →
    FollowPlan limits plan := by
  intro hall
  have hfollow := hall _ 0 (fourUnits_serves 0)
  exact absurd (hfollow.divides (fourUnits_serves 0)).1 (by decide)

end Slots

end Capacity
