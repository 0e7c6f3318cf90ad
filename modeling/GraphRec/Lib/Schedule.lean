import Mathlib.Data.Nat.Notation
import Mathlib.Order.Bounds.Basic

/-!
# Slots on a grid

A periodic schedule stores the time of its next slot.  Once that time has come, the slot is
moved on by whole intervals until it lies in the future, so a schedule that was not looked at
for a while skips the slots it missed and keeps its phase.

* `advance` — the loop that moves the slot on; it ends because the interval is positive;
* `exists_advance` — where it ends: at the least multiple of the interval that is late enough.
-/

namespace Schedule

/-- Move `slot` on by whole intervals until it is later than `now`. -/
def advance (interval : ℕ) (hpos : 0 < interval) (now slot : ℕ) : ℕ :=
  if slot ≤ now then advance interval hpos now (slot + interval) else slot
termination_by now + 1 - slot

variable {interval now slot : ℕ} (hpos : 0 < interval)

/-- The loop ends in the future. -/
theorem lt_advance : now < advance interval hpos now slot := by
  fun_induction advance interval hpos now slot with
  | case1 slot hdue ih => exact ih
  | case2 slot hdue => omega

/-- A slot that lies in the future stays where it is. -/
theorem advance_of_lt (hfuture : now < slot) : advance interval hpos now slot = slot := by
  rw [advance]
  exact if_neg (by omega)

/-- **The grid.**  The loop adds the least multiple of the interval that takes the slot past
`now`. -/
theorem exists_advance :
    ∃ k, IsLeast {k | now < slot + k * interval} k ∧
      advance interval hpos now slot = slot + k * interval := by
  fun_induction advance interval hpos now slot with
  | case1 slot hdue ih =>
      obtain ⟨k, ⟨hlate, hleast⟩, hk⟩ := ih
      have hshift (j : ℕ) : slot + (j + 1) * interval = slot + interval + j * interval := by
        rw [Nat.succ_mul]
        omega
      refine ⟨k + 1, ⟨?_, ?_⟩, ?_⟩
      · rw [Set.mem_ofPred_eq, hshift]
        exact hlate
      · intro j hj
        cases j with
        | zero =>
            rw [Set.mem_ofPred_eq] at hj
            omega
        | succ j =>
            rw [Set.mem_ofPred_eq, hshift] at hj
            have := hleast hj
            omega
      · rw [hk, hshift]
  | case2 slot hfuture =>
      refine ⟨0, ⟨?_, ?_⟩, ?_⟩
      · rw [Set.mem_ofPred_eq]
        omega
      · intro j _
        exact Nat.zero_le j
      · omega

end Schedule
