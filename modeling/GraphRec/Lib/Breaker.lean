import Mathlib.Order.Lattice

/-!
# Circuit breakers

A breaker remembers one point in time, until which it is open.  A call is let through unless the
breaker is open when it is submitted; a call that was let through and failed opens it for `period`
from when the failure is noticed.  Times are in any linear order with an addition.

`after_le_iff` — after calls one after the other the breaker lets a call through just when the
period has passed since every failure of a call that it let through.
-/

namespace Breaker

variable {T : Type} [LinearOrder T] [Add T]

/-- A call: when it is submitted, when its end is noticed, and whether it fails if it is let
through. -/
structure Call (T : Type) where
  submitAt : T
  finishAt : T
  fails : Bool

/-- The breaker after a call. -/
def next (period openUntil : T) (c : Call T) : T :=
  if openUntil ≤ c.submitAt ∧ c.fails = true then c.finishAt + period else openUntil

/-- The breaker after some calls. -/
def after (period : T) : T → List (Call T) → T
  | openUntil, [] => openUntil
  | openUntil, c :: calls => after period (next period openUntil c) calls

/-- From the first time to the second, one call after the other. -/
def InOrder : T → List (Call T) → T → Prop
  | start, [], now => start ≤ now
  | start, c :: calls, now =>
      start ≤ c.submitAt ∧ c.submitAt ≤ c.finishAt ∧ InOrder c.finishAt calls now

omit [Add T] in
theorem InOrder.le {start now : T} {calls : List (Call T)} (h : InOrder start calls now) :
    start ≤ now := by
  induction calls generalizing start with
  | nil => exact h
  | cons c calls ih => exact h.1.trans (h.2.1.trans (ih h.2.2))

omit [Add T] in
theorem inOrder_append {start now : T} {calls calls' : List (Call T)} :
    InOrder start (calls ++ calls') now ↔
      ∃ between, InOrder start calls between ∧ InOrder between calls' now := by
  induction calls generalizing start with
  | nil =>
      constructor
      · exact fun h => ⟨start, le_refl start, h⟩
      · rintro ⟨between, hle, h⟩
        cases calls' with
        | nil => exact hle.trans h
        | cons c calls' => exact ⟨hle.trans h.1, h.2⟩
  | cons c calls ih =>
      simp only [List.cons_append, InOrder, ih]
      constructor
      · rintro ⟨hstart, hcall, between, h, h'⟩
        exact ⟨between, ⟨hstart, hcall, h⟩, h'⟩
      · rintro ⟨between, ⟨hstart, hcall, h⟩, h'⟩
        exact ⟨hstart, hcall, between, h, h'⟩

theorem after_concat (period openUntil : T) (calls : List (Call T)) (c : Call T) :
    after period openUntil (calls ++ [c]) = next period (after period openUntil calls) c := by
  induction calls generalizing openUntil with
  | nil => rfl
  | cons c' calls ih => exact ih _

/-- **The breaker.**  It lets a call through just when it would have at the beginning and the period
has passed since every failure that it let through. -/
theorem after_le_iff {period openUntil start now : T} {calls : List (Call T)}
    (h : InOrder start calls now) : after period openUntil calls ≤ now ↔
      openUntil ≤ now ∧ ∀ earlier c later, calls = earlier ++ c :: later →
        after period openUntil earlier ≤ c.submitAt → c.fails = true →
        c.finishAt + period ≤ now := by
  induction calls generalizing openUntil start with
  | nil => simp [after]
  | cons c calls ih =>
      obtain ⟨hstart, hcall, hrest⟩ := h
      rw [after, ih hrest]
      constructor
      · rintro ⟨hnext, hlater⟩
        constructor
        · -- A call that was let through came after the opening.
          rw [next] at hnext
          split at hnext
          · next htrip => exact htrip.1.trans (hcall.trans hrest.le)
          · exact hnext
        · intro earlier c' later heq hthrough hfails
          cases earlier with
          | nil =>
              obtain ⟨rfl, rfl⟩ := List.cons.inj heq
              rwa [next, if_pos ⟨hthrough, hfails⟩] at hnext
          | cons c'' earlier =>
              obtain ⟨rfl, hrest'⟩ := List.cons.inj heq
              exact hlater earlier c' later hrest' hthrough hfails
      · rintro ⟨hopen, hall⟩
        constructor
        · rw [next]
          split
          · next htrip => exact hall [] c calls rfl htrip.1 htrip.2
          · exact hopen
        · intro earlier c' later heq
          exact hall (c :: earlier) c' later (by rw [heq, List.cons_append])

end Breaker
