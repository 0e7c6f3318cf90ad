import GraphRec.Usage.Telemetry
import Mathlib.Order.Monotone.Basic

/-!
# The monthly quota

The counter of a tenant and month in Redis, the script that checks and charges it, and
the counter that a process keeps of its own while Redis does not answer.

A `Counter` also remembers where its value comes from: the seed it was set with, and the
admissions that were charged in it and not refunded.  The code reads only the value.
-/

namespace Usage

open Auth (TenantId Time)

abbrev CallId := Nat
abbrev ProcessId := Nat
abbrev Month := Nat

/-- The first instant of every month; `month_bounds` gives that of a month and of the
next. -/
structure Calendar where
  monthStart : Month → Time
  increasing : StrictMono monthStart

/-- Does the time lie in the month? -/
def Calendar.contains (cal : Calendar) (month : Month) (t : Time) : Bool :=
  decide (cal.monthStart month ≤ t) && decide (t < cal.monthStart (month + 1))

/-- A time lies in one month. -/
theorem Calendar.contains_unique (cal : Calendar) {m m' : Month} {t : Time}
    (h : cal.contains m t = true) (h' : cal.contains m' t = true) : m = m' := by
  simp only [contains, Bool.and_eq_true, decide_eq_true_eq] at h h'
  have hle : ∀ {a b : Month}, cal.monthStart a ≤ t → t < cal.monthStart (b + 1) → a ≤ b := by
    intro a b ha hb
    exact Nat.lt_succ_iff.mp (cal.increasing.lt_iff_lt.mp (Nat.lt_of_le_of_lt ha hb))
  exact Nat.le_antisymm (hle h.1 h'.2) (hle h'.1 h.2)

/-- The key of a monthly counter, for `recommendation_requests`. -/
structure QuotaKey where
  tenant : TenantId
  month : Month
  deriving DecidableEq, Repr

/-- The ledger's sum for a counter. -/
def monthUsage (cal : Calendar) (db : Database) (key : QuotaKey) : Nat :=
  ledgerUsage db key.tenant recommendationRequests (cal.monthStart key.month)
    (cal.monthStart (key.month + 1))

/-! ## The script -/

/-- What `_QUOTA_LUA` answers. -/
inductive QuotaReply
  | missing
  | exhausted (used : Int)
  | charged (used : Int)
  deriving DecidableEq, Repr

/-- `_QUOTA_LUA`, on the value under the key. -/
def quotaScript (value : Option Int) (limit quantity : Nat) : QuotaReply :=
  match value with
  | none => .missing
  | some current =>
      if (limit : Int) < current + quantity then .exhausted current
      else .charged (current + quantity)

/-- A counter in Redis, with what it was made of. -/
structure Counter where
  value : Int
  /-- None when a refund created the key. -/
  seed : Option Nat
  /-- The calls charged and not refunded, with their quantities. -/
  charged : List (CallId × Nat)
  deriving DecidableEq, Repr

/-- `SET key seed NX`, on a missing key. -/
def Counter.seeded (seed : Nat) : Counter := ⟨seed, some seed, []⟩

/-- `INCRBY`, for an admission that is told so. -/
def Counter.charge (k : Counter) (c : CallId) (quantity : Nat) : Counter :=
  { k with value := k.value + quantity, charged := (c, quantity) :: k.charged }

/-- `INCRBY`, whose reply is lost. -/
def Counter.add (k : Counter) (quantity : Nat) : Counter :=
  { k with value := k.value + quantity }

/-- `DECRBY`: a missing key counts as zero, and is created. -/
def refundCounter (k : Option Counter) (c : CallId) (quantity : Nat) : Counter :=
  match k with
  | none => ⟨-(quantity : Int), none, []⟩
  | some k =>
      { k with value := k.value - quantity, charged := k.charged.erase (c, quantity) }

/-- What the charges of a counter add up to. -/
def Counter.charges (k : Counter) : Nat := (k.charged.map Prod.snd).sum

@[simp] theorem Counter.seeded_charges (seed : Nat) : (Counter.seeded seed).charges = 0 := rfl

@[simp] theorem Counter.charge_charges (k : Counter) (c : CallId) (quantity : Nat) :
    (k.charge c quantity).charges = quantity + k.charges := by
  simp [charge, charges]

@[simp] theorem Counter.add_charges (k : Counter) (quantity : Nat) :
    (k.add quantity).charges = k.charges := rfl

/-- The refund of a charge takes it off the value and off the charges. -/
theorem refundCounter_charges {k : Counter} {c : CallId} {quantity : Nat}
    (h : (c, quantity) ∈ k.charged) :
    quantity + (refundCounter (some k) c quantity).charges = k.charges := by
  have hperm := (List.perm_cons_erase h).map Prod.snd
  have hsum := hperm.sum_eq
  rw [List.map_cons, List.sum_cons] at hsum
  exact hsum.symm

/-! ## The counter of a process -/

/-- `_LocalFallback.quota`, on the value it remembers. -/
def localQuota (stored : Option Nat) (limit quantity seed : Nat) : Bool × Nat :=
  let current := max (stored.getD 0) seed
  if limit < current + quantity then (false, current) else (true, current + quantity)

/-- `_LocalFallback.refund`. -/
def localRefund (stored : Option Nat) (quantity : Nat) : Option Nat :=
  stored.map fun current => current - quantity

/-! ## A request on its own -/

/-- The value under the key after the script. -/
def afterScript (value : Option Int) (limit quantity : Nat) : Option Int :=
  match quotaScript value limit quantity with
  | .charged used => some used
  | .missing | .exhausted _ => value

/-- `consume_quota` when nothing interferes: the last reply, and the value under the key
afterwards. -/
def consumeQuota (value : Option Int) (seed limit quantity : Nat) :
    QuotaReply × Option Int :=
  let key := match quotaScript value limit quantity with
    | .missing => some (seed : Int)
    | .exhausted _ | .charged _ => value
  (quotaScript key limit quantity, afterScript key limit quantity)

/-- A key that holds the ledger's sum and a missing one are consumed alike. -/
theorem consumeQuota_missing (seed limit quantity : Nat) :
    consumeQuota none seed limit quantity = consumeQuota (some seed) seed limit quantity := by
  have hpresent : ∀ reply, quotaScript (some (seed : Int)) limit quantity = reply →
      reply ≠ .missing := by
    intro reply h hmissing
    subst hmissing
    unfold quotaScript at h
    dsimp only at h
    split at h <;> cases h
  unfold consumeQuota
  cases h : quotaScript (some (seed : Int)) limit quantity with
  | missing => exact absurd rfl (hpresent _ h)
  | exhausted used => rw [show quotaScript none limit quantity = .missing from rfl]
  | charged used => rw [show quotaScript none limit quantity = .missing from rfl]

end Usage
