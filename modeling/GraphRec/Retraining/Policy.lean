import GraphRec.Api.Error
import GraphRec.Lib.Schedule
import GraphRec.Training.Job
import Mathlib.Algebra.Group.Nat.Defs

/-!
# Retraining policies

A tenant has at most one row of `retraining_policies`.  `decide` says what an evaluation starts,
`updatePolicy` what an administrator's update makes of the row, and `passSlots` how the slot of a
schedule is moved on.

The bounds of the columns (`ck_retraining_interval`, `ck_retraining_threshold`,
`ck_retraining_epochs`) are those of the update's fields, and part of their types.
-/

namespace Retraining

open Api
open Training (JobId TenantId)

/-- Microseconds, as PostgreSQL keeps them. -/
abbrev Time := ℕ

/-- A second. -/
def second : Time := 1000000

/-- A minute. -/
def minute : Time := 60 * second

/-- A column with a CHECK, a field with `ge` and `le`. -/
abbrev Bounded (low high : ℕ) := {n : ℕ // low ≤ n ∧ n ≤ high}

abbrev IntervalMinutes := Bounded 1 43200
abbrev EventThreshold := Bounded 1 10000000
abbrev Epochs := Bounded 1 10

/-- `timedelta(minutes=interval_minutes)`. -/
def IntervalMinutes.duration (interval : IntervalMinutes) : Time := interval.val * minute

theorem IntervalMinutes.duration_pos (interval : IntervalMinutes) : 0 < interval.duration :=
  Nat.mul_pos interval.property.1 (by decide)

/-- A request id by what it reads as: the id of a slot, which has the slot's second, the id of a
condition, which has the time of the latest job and the threshold, or another text.  A client
may send any of them. -/
inductive RequestId
  | schedule (slotSecond : ℕ)
  | events (marker : Option Time) (threshold : ℕ)
  | other (text : String)
  deriving DecidableEq, Repr

/-- `last_trigger`. -/
inductive Trigger
  | schedule | events
  deriving DecidableEq, Repr

/-- `Decision`. -/
structure Decision where
  trigger : Option Trigger
  requestId : Option RequestId := none
  reason : String := ""
  deriving DecidableEq, Repr

/-- `f"retrain-schedule-{next_run_at.strftime('%Y%m%dT%H%M%S')}"`. -/
def slotRequestId (nextRunAt : Time) : RequestId := .schedule (nextRunAt / second)

/-- `f"retrain-events-{last_job_marker}-{event_threshold}"`. -/
def eventsRequestId (lastJobMarker : Option Time) (threshold : ℕ) : RequestId :=
  .events lastJobMarker threshold

/-- Has the slot of an enabled schedule come? -/
def isDue (scheduleEnabled : Bool) (nextRunAt : Option Time) (now : Time) : Bool :=
  scheduleEnabled && nextRunAt.any fun slot => slot ≤ now

/-- `decide`. -/
def decide (scheduleEnabled : Bool) (nextRunAt : Option Time) (eventTriggerEnabled : Bool)
    (eventThreshold newEvents : ℕ) (lastJobMarker : Option Time) (activeJob : Bool)
    (now : Time) : Decision :=
  if activeJob then { trigger := none, reason := "training_in_progress" }
  else if isDue scheduleEnabled nextRunAt now then
    { trigger := some .schedule, requestId := nextRunAt.map slotRequestId }
  else if eventTriggerEnabled && eventThreshold ≤ newEvents then
    { trigger := some .events, requestId := some (eventsRequestId lastJobMarker eventThreshold) }
  else { trigger := none, reason := "not_due" }

/-! ## The row -/

/-- A row of `retraining_policies`. -/
structure RetrainingPolicy where
  scheduleEnabled : Bool
  intervalMinutes : IntervalMinutes
  nextRunAt : Option Time
  eventTriggerEnabled : Bool
  eventThreshold : EventThreshold
  epochs : Epochs
  lastEvaluatedAt : Option Time
  lastTrigger : Option Trigger
  lastOutcome : Option String
  lastOutcomeDetail : Option String
  lastOutcomeAt : Option Time
  lastJobId : Option JobId
  updatedAt : Time
  deriving DecidableEq, Repr

/-- The loop over the slots of a policy: `next_run_at` is moved past `now`. -/
def RetrainingPolicy.passSlots (now : Time) (p : RetrainingPolicy) : RetrainingPolicy :=
  { p with
    nextRunAt := p.nextRunAt.map
      (Schedule.advance p.intervalMinutes.duration p.intervalMinutes.duration_pos now) }

/-- `slot_due`. -/
def RetrainingPolicy.slotDue (now : Time) (p : RetrainingPolicy) : Bool :=
  isDue p.scheduleEnabled p.nextRunAt now

/-- An enabled schedule has a slot, a disabled one has none. -/
def RetrainingPolicy.Scheduled (p : RetrainingPolicy) : Prop :=
  p.nextRunAt.isSome = p.scheduleEnabled

theorem isDue_eq_true {enabled : Bool} {nextRunAt : Option Time} {now : Time} :
    isDue enabled nextRunAt now = true ↔
      enabled = true ∧ ∃ slot, nextRunAt = some slot ∧ slot ≤ now := by
  simp [isDue, Option.any_eq_true]

@[simp] theorem passSlots_scheduleEnabled (now : Time) (p : RetrainingPolicy) :
    (p.passSlots now).scheduleEnabled = p.scheduleEnabled := rfl

@[simp] theorem passSlots_intervalMinutes (now : Time) (p : RetrainingPolicy) :
    (p.passSlots now).intervalMinutes = p.intervalMinutes := rfl

theorem RetrainingPolicy.Scheduled.passSlots {p : RetrainingPolicy} (h : p.Scheduled) (now : Time) :
    (p.passSlots now).Scheduled := by
  rw [RetrainingPolicy.Scheduled, passSlots_scheduleEnabled, ← h]
  exact Option.isSome_map

/-! ## Updates -/

/-- `RetrainingPolicyUpdate`. -/
structure RetrainingPolicyUpdate where
  scheduleEnabled : Bool := false
  intervalMinutes : IntervalMinutes := ⟨1440, by decide⟩
  eventTriggerEnabled : Bool := false
  eventThreshold : EventThreshold := ⟨1000, by decide⟩
  epochs : Epochs := ⟨3, by decide⟩
  deriving DecidableEq, Repr

/-- The interval is below `retraining_min_interval_minutes`. -/
def intervalTooShort (minimum : ℕ) : ApiError :=
  { statusCode := 422
    code := "validation_failed"
    message := "The retraining interval is below the configured minimum."
    details := .fields [{ field := "interval_minutes",
                          message := "Must be at least " ++ toString minimum ++ " minutes." }] }

/-- The row `update_policy` writes over the one it holds with `FOR UPDATE`, if there is one. -/
def writtenPolicy (payload : RetrainingPolicyUpdate) (now : Time)
    (policy : Option RetrainingPolicy) : RetrainingPolicy where
  scheduleEnabled := payload.scheduleEnabled
  intervalMinutes := payload.intervalMinutes
  nextRunAt :=
    let previous := policy.map fun p => (p.scheduleEnabled, p.intervalMinutes)
    let slot := policy.bind RetrainingPolicy.nextRunAt
    if payload.scheduleEnabled then
      -- Newly enabled or re-timed schedules start one interval from now.
      if previous ≠ some (true, payload.intervalMinutes) ∨ slot = none then
        some (now + payload.intervalMinutes.duration)
      else slot
    else none
  eventTriggerEnabled := payload.eventTriggerEnabled
  eventThreshold := payload.eventThreshold
  epochs := payload.epochs
  lastEvaluatedAt := policy.bind RetrainingPolicy.lastEvaluatedAt
  lastTrigger := policy.bind RetrainingPolicy.lastTrigger
  lastOutcome := policy.bind RetrainingPolicy.lastOutcome
  lastOutcomeDetail := policy.bind RetrainingPolicy.lastOutcomeDetail
  lastOutcomeAt := policy.bind RetrainingPolicy.lastOutcomeAt
  lastJobId := policy.bind RetrainingPolicy.lastJobId
  updatedAt := now

/-- `update_policy` up to its commit. -/
def updatePolicy (minimum : ℕ) (payload : RetrainingPolicyUpdate) (now : Time)
    (policy : Option RetrainingPolicy) : Except ApiError RetrainingPolicy :=
  if payload.intervalMinutes.val < minimum then .error (intervalTooShort minimum)
  else .ok (writtenPolicy payload now policy)

/-- An update leaves an enabled schedule with a slot and a disabled one without. -/
theorem writtenPolicy_scheduled (payload : RetrainingPolicyUpdate) (now : Time)
    (policy : Option RetrainingPolicy) : (writtenPolicy payload now policy).Scheduled := by
  unfold RetrainingPolicy.Scheduled writtenPolicy
  dsimp only
  split
  · next henabled =>
      rw [henabled]
      split
      · rfl
      · next hkept => exact Option.isSome_iff_ne_none.mpr fun hnone => hkept (Or.inr hnone)
  · next hdisabled => exact (Bool.eq_false_iff.mpr hdisabled).symm

/-- The slot after an update: none, a whole interval from now, or the one there was. -/
theorem writtenPolicy_nextRunAt {payload : RetrainingPolicyUpdate} {now slot : Time}
    {policy : Option RetrainingPolicy}
    (h : (writtenPolicy payload now policy).nextRunAt = some slot) :
    slot = now + payload.intervalMinutes.duration ∨
      ∃ p, policy = some p ∧ p.nextRunAt = some slot := by
  unfold writtenPolicy at h
  dsimp only at h
  split at h
  · split at h
    · exact Or.inl (Option.some.inj h).symm
    · exact Or.inr (Option.bind_eq_some_iff.mp h)
  · cases h

end Retraining
