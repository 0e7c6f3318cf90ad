import Mathlib.Data.List.DropRight

/-!
# The newest elements of a list

`List.rtake n` is the suffix of at most `n` elements, `List.rdrop n` what comes before it.  A buffer
of `n` places that gives up its oldest element for a new one holds such a suffix, of whatever was
put into it.

* `rdrop_append_rtake` — what is given up and what is kept;
* `rtake_rtake_append`, `rtake_append_rtake` — what was given up does not matter later.
-/

namespace Newest

variable {α : Type} (n : ℕ) (l m : List α)

theorem rdrop_append_rtake : l.rdrop n ++ l.rtake n = l := by
  rw [List.rdrop, List.rtake, List.take_append_drop]

variable {n l}

/-- A list that is not too long is kept. -/
theorem rtake_of_length_le (h : l.length ≤ n) : l.rtake n = l := by
  rw [List.rtake, Nat.sub_eq_zero_of_le h, List.drop_zero]

theorem rdrop_of_length_le (h : l.length ≤ n) : l.rdrop n = [] := by
  rw [List.rdrop, Nat.sub_eq_zero_of_le h, List.take_zero]

variable (n l)

/-- New elements after some were given up. -/
theorem rtake_rtake_append : (l.rtake n ++ m).rtake n = (l ++ m).rtake n := by
  rcases Nat.le_total l.length n with hle | hle
  · rw [rtake_of_length_le hle]
  · simp only [List.rtake, List.length_append, List.length_drop]
    rw [List.drop_append, List.drop_append, List.drop_drop, List.length_drop]
    congr 2
    · omega
    · omega

/-- Older elements before a suffix. -/
theorem rtake_append_rtake : (m ++ l.rtake n).rtake n = (m ++ l).rtake n := by
  rcases Nat.le_total l.length n with hle | hle
  · rw [rtake_of_length_le hle]
  · -- the suffix fills the places, before and after
    have hfull : (l.rtake n).length = n := by
      rw [List.rtake, List.length_drop]
      omega
    have hself : (m ++ l.rtake n).rtake n = l.rtake n := by
      rw [List.rtake, List.length_append, hfull, Nat.add_sub_cancel, List.drop_left]
    have hmore : m.length + l.length - n = m.length + (l.length - n) := by omega
    rw [hself, List.rtake, List.rtake, List.length_append, hmore, List.drop_length_add_append]

end Newest
