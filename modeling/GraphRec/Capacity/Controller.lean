import GraphRec.Lib.Buckets
import GraphRec.Tenants.Store
import Mathlib.Algebra.Order.Floor.Div
import Mathlib.Data.Rat.Defs

/-!
# The capacity controller

`evaluate_capacity` measures the requests of a tenant, decides how many serving units the tenant
should have, and stores the change with an event.  The tables refuse what their columns and the
check of `model_deployments` do not allow; then nothing is stored.

Points in time are whole microseconds.
-/

namespace Capacity

open Buckets (floorTo groupBy)
open Tenants (Limits effectiveLimits)

abbrev TenantId := ℕ
abbrev VersionId := ℕ
abbrev Time := ℤ

/-- A second of a clock in microseconds. -/
def second : Time := 1000000

/-- The two settings of the controller, with their bounds. -/
structure Settings where
  capacityTargetRpmPerReplica : ℕ := 120
  capacityScaleDownStabilizationSeconds : ℕ := 120
  target_pos : 1 ≤ capacityTargetRpmPerReplica := by decide
  target_le : capacityTargetRpmPerReplica ≤ 1000000 := by decide
  stabilization_le : capacityScaleDownStabilizationSeconds ≤ 86400 := by decide

/-- A row of `serving_requests`. -/
structure ServingRequest where
  tenantId : TenantId
  occurredAt : Time
  deriving DecidableEq, Repr

/-- A row of `model_deployments`. -/
structure ModelDeployment where
  activeModelVersionId : Option VersionId
  desiredCapacity : ℕ
  readyCapacity : ℕ
  lastScaledAt : Option Time
  deriving DecidableEq, Repr

/-- `CapacityDecision.reason`. -/
inductive Reason
  | scaleUp | scaleDown | limitClamp
  deriving DecidableEq, Repr

/-- A row of `capacity_events`. -/
structure CapacityEvent where
  tenantId : TenantId
  modelVersionId : VersionId
  fromCapacity : ℕ
  toCapacity : ℕ
  reason : Reason
  measuredRpm : ℕ
  peakRpm : ℕ
  maxCapacity : ℕ
  occurredAt : Time
  deriving DecidableEq, Repr

/-- What `effective_limits` finds: the limits of the plan, those of the quota, the overrides. -/
structure FoundLimits where
  plan : Limits
  quota : Limits
  overrides : Limits

/-- The committed rows. -/
structure Store where
  limits : TenantId → Option FoundLimits
  deployments : TenantId → Option ModelDeployment
  servingRequests : List ServingRequest
  capacityEvents : List CapacityEvent

/-! ## The decision -/

/-- `CapacityDecision`. -/
structure CapacityDecision where
  target : ℕ
  reason : Option Reason
  deriving DecidableEq, Repr

/-- `decide_capacity`. -/
def decideCapacity (current maxCapacity rpmLastMinute peakRpmWindow targetRpmPerReplica : ℕ)
    (secondsSinceLastChange : Option ℚ) (stabilizationSeconds : ℕ) : CapacityDecision :=
  let maxCapacity := max 1 maxCapacity
  let up := min (max 1 (rpmLastMinute ⌈/⌉ targetRpmPerReplica)) maxCapacity
  let down := min (max 1 (peakRpmWindow ⌈/⌉ targetRpmPerReplica)) maxCapacity
  if maxCapacity < current then ⟨maxCapacity, some .limitClamp⟩
  else if current < up then ⟨up, some .scaleUp⟩
  else
    let stable := secondsSinceLastChange.all fun seconds =>
      decide ((stabilizationSeconds : ℚ) ≤ seconds)
    if down < current ∧ stable = true then ⟨down, some .scaleDown⟩ else ⟨current, none⟩

/-- `effective_limits`. -/
def Store.effectiveLimits (s : Store) (tenant : TenantId) : Limits :=
  match s.limits tenant with
  | none => .empty
  | some found => Tenants.effectiveLimits found.plan found.quota found.overrides

/-- `max_replicas`. -/
def maxReplicas (limits : Limits) : ℕ :=
  let value := (limits.get? "maximum_inference_replicas").getD 0
  max 1 (if value = 0 then 1 else value)

/-! ## The measurement -/

/-- `date_trunc('minute', ...)`. -/
def minuteOf (t : Time) : Time := floorTo (60 * second) t

/-- The tenant's requests from a time on. -/
def Store.requestsSince (s : Store) (tenant : TenantId) (since : Time) : List ServingRequest :=
  s.servingRequests.filter fun r => decide (r.tenantId = tenant ∧ since ≤ r.occurredAt)

/-- `measure`: the requests of the last minute, and the peak of the window. -/
def measure (s : Store) (tenant : TenantId) (now : Time) (windowSeconds : ℕ) : ℕ × ℕ :=
  let lastMinute := (s.requestsSince tenant (now - 60 * second)).length
  let window := max windowSeconds 60
  let perMinute := groupBy (fun r => minuteOf r.occurredAt) List.length
    (s.requestsSince tenant (now - window * second))
  let peak := (perMinute.map Prod.snd ++ [lastMinute]).max (by simp)
  (lastMinute, peak)

/-! ## A step of the controller -/

/-- The largest value of an `integer` column. -/
def maxInteger : ℕ := 2147483647

/-- `ck_deployment_capacity`. -/
def ModelDeployment.checked (d : ModelDeployment) : Bool :=
  decide (1 ≤ d.desiredCapacity ∧ d.desiredCapacity ≤ 100 ∧ d.readyCapacity ≤ d.desiredCapacity)

/-- The numbers of an event fit their columns. -/
def CapacityEvent.fits (e : CapacityEvent) : Bool :=
  [e.fromCapacity, e.toCapacity, e.measuredRpm, e.peakRpm, e.maxCapacity].all
    fun n => decide (n ≤ maxInteger)

/-- What the database raises. -/
inductive StoreError
  | refused
  deriving DecidableEq, Repr

/-- `(b - a).total_seconds()`. -/
def totalSeconds (a b : Time) : ℚ := (b - a : ℤ) / (second : ℚ)

/-- A deployment with another capacity.  Serving units are ready as soon as they are allocated. -/
def ModelDeployment.scaled (d : ModelDeployment) (now : Time) (target : ℕ) : ModelDeployment :=
  { d with desiredCapacity := target, readyCapacity := target, lastScaledAt := some now }

/-- `evaluate_capacity`, with the rows it commits. -/
def evaluateCapacity (settings : Settings) (s : Store) (tenant : TenantId) (now : Time) :
    Except StoreError (Option CapacityDecision × Store) :=
  match s.deployments tenant with
  | none => .ok (none, s)
  | some deployment => match deployment.activeModelVersionId with
    | none => .ok (none, s)
    | some version =>
        let maximum := maxReplicas (s.effectiveLimits tenant)
        let (rpm, peak) := measure s tenant now settings.capacityScaleDownStabilizationSeconds
        let since := deployment.lastScaledAt.map fun last => totalSeconds last now
        let decision := decideCapacity deployment.desiredCapacity maximum rpm peak
          settings.capacityTargetRpmPerReplica since
          settings.capacityScaleDownStabilizationSeconds
        match decision.reason with
        | none => .ok (some decision, s)
        | some reason =>
            let deployment' := deployment.scaled now decision.target
            let event : CapacityEvent :=
              ⟨tenant, version, deployment.desiredCapacity, decision.target, reason, rpm, peak,
                maximum, now⟩
            if deployment'.checked && event.fits then
              .ok (some decision, { s with
                deployments := Function.update s.deployments tenant (some deployment')
                capacityEvents := s.capacityEvents ++ [event] })
            else .error .refused

/-! ## Runs -/

/-- What happens to the rows: a request is served, limits change, the controller runs. -/
inductive Op
  | serve (tenant : TenantId)
  | setLimits (tenant : TenantId) (found : Option FoundLimits)
  | evaluate (tenant : TenantId)

/-- An operation at its time. -/
structure Timed where
  now : Time
  op : Op

/-- One operation; a step of the controller that raises leaves everything as it was. -/
def step (settings : Settings) (s : Store) (a : Timed) : Store :=
  match a.op with
  | .serve tenant => { s with servingRequests := s.servingRequests ++ [⟨tenant, a.now⟩] }
  | .setLimits tenant found => { s with limits := Function.update s.limits tenant found }
  | .evaluate tenant => match evaluateCapacity settings s tenant a.now with
    | .ok (_, s') => s'
    | .error _ => s

/-- An operation with the rows before and after it. -/
structure Entry where
  action : Timed
  before : Store
  after : Store

/-- A run, step by step. -/
def history (settings : Settings) (s : Store) : List Timed → List Entry
  | [] => []
  | a :: rest => ⟨a, s, step settings s a⟩ :: history settings (step settings s a) rest

end Capacity
