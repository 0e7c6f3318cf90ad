import Mathlib.Data.Int.Log
import Mathlib.Algebra.Order.Round
import Mathlib.Data.Rat.Floor
import Mathlib.Tactic.Linarith
import Mathlib.Tactic.FieldSimp

/-!
# Rounding to binary64

`Binary64.round` rounds a rational to the nearest number with a significand of 53 bits,
ties to the even significand, as the operations of IEEE 754 doubles do within the range
of their normal numbers: no overflow, no underflow.

* `round_error` — the relative error is at most `2⁻⁵³`;
* `round_mono` — rounding keeps the order;
* `IsDouble.sub_natCast` — a whole number that is no larger is subtracted exactly.
-/

namespace Binary64

/-- The nearest integer, ties to even. -/
def nearestEven (q : ℚ) : ℤ :=
  if q - ⌊q⌋ < 1 / 2 then ⌊q⌋
  else if 1 / 2 < q - ⌊q⌋ then ⌊q⌋ + 1
  else if ⌊q⌋ % 2 = 0 then ⌊q⌋ else ⌊q⌋ + 1

/-- The nearest integer is at most one half away. -/
theorem nearestEven_error (q : ℚ) : |(nearestEven q : ℚ) - q| ≤ 1 / 2 := by
  have hfloor := Int.floor_le q
  have hlt := Int.lt_floor_add_one q
  unfold nearestEven
  rw [abs_le]
  split
  · next hlow => constructor <;> linarith
  · next hlow =>
      split
      · next hhigh =>
          push_cast
          constructor <;> linarith
      · next hhigh =>
          have htie : q - ⌊q⌋ = 1 / 2 := le_antisymm (not_lt.mp hhigh) (not_lt.mp hlow)
          split
          · constructor <;> linarith
          · push_cast
            constructor <;> linarith

/-- The unit in the last place of a number. -/
def unit (x : ℚ) : ℚ := (2 : ℚ) ^ (Int.log 2 |x| - 52)

theorem unit_pos (x : ℚ) : 0 < unit x := zpow_pos (by norm_num) _

/-- Round to a significand of 53 bits. -/
def round (x : ℚ) : ℚ := nearestEven (x / unit x) * unit x

/-- The integer part, towards zero. -/
def truncate (x : ℚ) : ℤ := if 0 ≤ x then ⌊x⌋ else ⌈x⌉

/-- The numbers of this size and more have no double. -/
def overflow : ℚ := 2 ^ 1024

/-- A number is at least `2⁵²` units. -/
theorem unit_le {x : ℚ} (hx : x ≠ 0) : unit x ≤ |x| / 2 ^ 52 := by
  have hpos : 0 < |x| := abs_pos.mpr hx
  have hlog : ((2 : ℕ) : ℚ) ^ Int.log 2 |x| ≤ |x| := Int.zpow_log_le_self (by norm_num) hpos
  unfold unit
  rw [zpow_sub₀ (by norm_num)]
  have hsame : (2 : ℚ) ^ (52 : ℤ) = 2 ^ 52 := by norm_num
  rw [hsame]
  exact div_le_div_of_nonneg_right (by exact_mod_cast hlog) (by positivity)

/-- Zero is exact. -/
theorem round_zero : round 0 = 0 := by
  simp [round, nearestEven]

/-- **Relative error.** -/
theorem round_error (x : ℚ) : |round x - x| ≤ |x| / 2 ^ 53 := by
  by_cases hx : x = 0
  · subst hx
    simp [round_zero]
  · have hunit := unit_pos x
    have hsplit : round x - x = ((nearestEven (x / unit x) : ℚ) - x / unit x) * unit x := by
      unfold round
      field_simp
    rw [hsplit, abs_mul, abs_of_pos hunit]
    calc |((nearestEven (x / unit x) : ℚ)) - x / unit x| * unit x
        ≤ 1 / 2 * unit x :=
          mul_le_mul_of_nonneg_right (nearestEven_error _) (le_of_lt hunit)
      _ ≤ 1 / 2 * (|x| / 2 ^ 52) :=
          mul_le_mul_of_nonneg_left (unit_le hx) (by norm_num)
      _ = |x| / 2 ^ 53 := by ring

/-! ## Whole numbers -/

@[simp] theorem nearestEven_intCast (z : ℤ) : nearestEven z = z := by
  simp [nearestEven]

/-- The nearest integer is not below the floor and not above the next. -/
theorem nearestEven_bounds (q : ℚ) : ⌊q⌋ ≤ nearestEven q ∧ nearestEven q ≤ ⌊q⌋ + 1 := by
  unfold nearestEven
  split
  · omega
  · split
    · omega
    · split <;> omega

theorem nearestEven_mono {p q : ℚ} (h : p ≤ q) : nearestEven p ≤ nearestEven q := by
  have hp := nearestEven_bounds p
  have hq := nearestEven_bounds q
  rcases lt_or_eq_of_le (Int.floor_le_floor h) with hlt | heq
  · omega
  · unfold nearestEven
    rw [← heq]
    have hdiff : p - (⌊p⌋ : ℤ) ≤ q - (⌊p⌋ : ℤ) := sub_le_sub_right h _
    split_ifs <;> first | omega | (exfalso; linarith)

/-- Rounding does not depend on the sign. -/
theorem nearestEven_neg (q : ℚ) : nearestEven (-q) = -nearestEven q := by
  rcases eq_or_ne q ⌊q⌋ with hint | hfrac
  · rw [hint, ← Int.cast_neg, nearestEven_intCast, nearestEven_intCast]
  · have hlt : (⌊q⌋ : ℚ) < q := lt_of_le_of_ne (Int.floor_le q) (Ne.symm hfrac)
    have hfloor : ⌊-q⌋ = -⌊q⌋ - 1 := by
      rw [Int.floor_eq_iff]
      push_cast
      have := Int.lt_floor_add_one q
      constructor <;> linarith
    unfold nearestEven
    rw [hfloor]
    push_cast
    split_ifs <;> first | omega | (exfalso; linarith)

theorem unit_neg (x : ℚ) : unit (-x) = unit x := by rw [unit, unit, abs_neg]

theorem round_neg (x : ℚ) : round (-x) = -round x := by
  rw [round, round, unit_neg, neg_div, nearestEven_neg]
  push_cast
  ring

/-- Truncation loses less than one. -/
theorem lt_truncate (x : ℚ) : x < truncate x + 1 := by
  unfold truncate
  split
  · exact Int.lt_floor_add_one x
  · have hceil := Int.le_ceil x
    linarith

theorem truncate_neg (x : ℚ) : truncate (-x) = -truncate x := by
  unfold truncate
  rcases lt_trichotomy x 0 with hneg | rfl | hpos
  · rw [if_pos (by linarith), if_neg (not_le.mpr hneg), Int.floor_neg]
  · simp
  · rw [if_neg (by linarith), if_pos hpos.le, Int.ceil_neg]

theorem unit_mono {x y : ℚ} (hx : 0 < x) (h : x ≤ y) : unit x ≤ unit y := by
  unfold unit
  rw [abs_of_pos hx, abs_of_pos (lt_of_lt_of_le hx h)]
  exact zpow_le_zpow_right₀ (by norm_num) (by have := Int.log_mono_right (b := 2) hx h; omega)

/-- Below `2⁵¹` a whole number is an even number of units. -/
theorem whole_eq_units {x : ℚ} (hx : 0 < x) (hlt : x < 2 ^ 51) (k : ℤ) :
    ∃ n : ℤ, (k : ℚ) = (2 * n : ℤ) * unit x := by
  have hlog : Int.log 2 |x| < 51 := by
    rw [abs_of_pos hx, ← Int.lt_zpow_iff_log_lt (by norm_num) hx]
    exact_mod_cast hlt
  obtain ⟨j, hj⟩ : ∃ j : ℕ, Int.log 2 |x| - 52 = -(j + 1 : ℕ) :=
    ⟨(51 - Int.log 2 |x|).toNat, by omega⟩
  refine ⟨k * 2 ^ j, ?_⟩
  rw [unit, hj, zpow_neg, zpow_natCast, pow_succ]
  push_cast
  field_simp

/-- Below an even integer. -/
theorem nearestEven_lt_iff {q : ℚ} {n : ℤ} : nearestEven q < 2 * n ↔ q + 1 / 2 < (2 * n : ℤ) := by
  constructor
  · intro h
    by_contra hge
    have hhalf : nearestEven (((2 * n : ℤ) : ℚ) - 1 / 2) = 2 * n := by
      have hfloor : ⌊((2 * n : ℤ) : ℚ) - 1 / 2⌋ = 2 * n - 1 := by
        rw [Int.floor_eq_iff]
        push_cast
        constructor <;> linarith
      have hfrac : ((2 * n : ℤ) : ℚ) - 1 / 2 - ((2 * n - 1 : ℤ) : ℚ) = 1 / 2 := by
        push_cast
        ring
      unfold nearestEven
      rw [hfloor, hfrac, if_neg (lt_irrefl _), if_neg (lt_irrefl _), if_neg (by omega)]
      omega
    have hmono := nearestEven_mono (p := ((2 * n : ℤ) : ℚ) - 1 / 2) (q := q) (by linarith)
    omega
  · intro h
    have herror := abs_le.mp (nearestEven_error q)
    have hlt : (nearestEven q : ℚ) < (2 * n : ℤ) := by linarith
    exact_mod_cast hlt

section Truncate

variable {x y : ℚ}

/-- A rounded number lies between the whole numbers around it. -/
theorem truncate_round_bounds (hx : 0 < x) (hlt : x < 2 ^ 51) :
    (⌊x⌋ : ℚ) ≤ round x ∧ round x ≤ (⌊x⌋ + 1 : ℤ) ∧
      (round x < (⌊x⌋ + 1 : ℤ) ↔ unit x / 2 < (⌊x⌋ + 1 : ℤ) - x) := by
  have hunit := unit_pos x
  obtain ⟨n, hn⟩ := whole_eq_units hx hlt ⌊x⌋
  obtain ⟨m, hm⟩ := whole_eq_units hx hlt (⌊x⌋ + 1)
  have hbelow : ((2 * n : ℤ) : ℚ) ≤ x / unit x := by
    rw [le_div_iff₀ hunit, ← hn]
    exact Int.floor_le x
  have habove : x / unit x ≤ ((2 * m : ℤ) : ℚ) := by
    rw [div_le_iff₀ hunit, ← hm]
    exact_mod_cast (Int.lt_floor_add_one x).le
  refine ⟨?_, ?_, ?_⟩
  · rw [hn, round]
    refine mul_le_mul_of_nonneg_right ?_ hunit.le
    exact_mod_cast (nearestEven_intCast (2 * n)) ▸ nearestEven_mono hbelow
  · rw [hm, round]
    refine mul_le_mul_of_nonneg_right ?_ hunit.le
    exact_mod_cast (nearestEven_intCast (2 * m)) ▸ nearestEven_mono habove
  · rw [hm, round, mul_lt_mul_iff_left₀ hunit, Int.cast_lt, nearestEven_lt_iff]
    constructor
    · intro h
      have hmul := mul_lt_mul_of_pos_right h hunit
      rw [add_mul, div_mul_cancel₀ _ hunit.ne'] at hmul
      linarith
    · intro h
      rw [← sub_pos]
      have hpos : 0 < ((2 * m : ℤ) * unit x - x - unit x / 2) / unit x :=
        div_pos (by linarith) hunit
      have hsplit : ((2 * m : ℤ) * unit x - x - unit x / 2) / unit x =
          ((2 * m : ℤ) : ℚ) - (x / unit x + 1 / 2) := by
        field_simp
        ring
      rwa [hsplit] at hpos

/-- **When rounding keeps the whole number.**  Just when more than half a unit is left to the
next. -/
theorem truncate_round_iff (hx : 0 < x) (hlt : x < 2 ^ 51) :
    truncate (round x) = ⌊x⌋ ↔ unit x / 2 < (⌊x⌋ + 1 : ℤ) - x := by
  obtain ⟨hbelow, habove, hiff⟩ := truncate_round_bounds hx hlt
  have hnonneg : 0 ≤ round x := le_trans (by exact_mod_cast Int.floor_nonneg.mpr hx.le) hbelow
  rw [← hiff, truncate, if_pos hnonneg, Int.floor_eq_iff]
  push_cast
  exact ⟨fun h => h.2, fun h => ⟨hbelow, h⟩⟩

/-- The whole number of a rounded number is that of the number or the next. -/
theorem truncate_round_cases (hx : 0 < x) (hlt : x < 2 ^ 51) :
    truncate (round x) = ⌊x⌋ ∨ truncate (round x) = ⌊x⌋ + 1 := by
  obtain ⟨hbelow, habove, -⟩ := truncate_round_bounds hx hlt
  have hnonneg : 0 ≤ round x := le_trans (by exact_mod_cast Int.floor_nonneg.mpr hx.le) hbelow
  rw [truncate, if_pos hnonneg]
  have hlow := Int.le_floor.mpr hbelow
  have hhigh : ⌊round x⌋ ≤ ⌊x⌋ + 1 := by
    have := Int.floor_le_floor habove
    rwa [Int.floor_intCast] at this
  omega

theorem truncate_round_nonneg (hx : 0 ≤ x) (hlt : x < 2 ^ 51) : 0 ≤ truncate (round x) := by
  rcases hx.eq_or_lt with rfl | hpos
  · simp [round_zero, truncate]
  · have hfloor := Int.floor_nonneg.mpr hx
    rcases truncate_round_cases hpos hlt with h | h <;> omega

/-- Rounding and cutting off keep the order. -/
theorem truncate_round_mono (hx : 0 ≤ x) (h : x ≤ y) (hlt : y < 2 ^ 51) :
    truncate (round x) ≤ truncate (round y) := by
  rcases hx.eq_or_lt with rfl | hpos
  · have hzero : truncate (round 0) = 0 := by simp [round_zero, truncate]
    rw [hzero]
    exact truncate_round_nonneg h hlt
  · have hxlt := lt_of_le_of_lt h hlt
    have hypos := lt_of_lt_of_le hpos h
    rcases lt_or_eq_of_le (Int.floor_le_floor h) with hfloor | hfloor
    · rcases truncate_round_cases hpos hxlt with hx' | hx' <;>
        rcases truncate_round_cases hypos hlt with hy' | hy' <;> omega
    · rcases truncate_round_cases hypos hlt with hy' | hy'
      · -- What keeps the whole number of the larger keeps that of the smaller.
        have hroom := (truncate_round_iff hypos hlt).mp hy'
        rw [← hfloor] at hroom
        have hkeep := (truncate_round_iff hpos hxlt).mpr (by
          have := unit_mono hpos h
          linarith)
        omega
      · rcases truncate_round_cases hpos hxlt with hx' | hx' <;> omega

end Truncate

/-! ## Doubles -/

section Doubles

variable {x y : ℚ}

theorem unit_mul (x : ℚ) : 2 ^ 52 * unit x = (2 : ℚ) ^ Int.log 2 |x| := by
  rw [unit, zpow_sub₀ (by norm_num)]
  field_simp

/-- A rounded number stays within the powers of two around it. -/
theorem round_bounds (hx : 0 < x) :
    (2 : ℚ) ^ Int.log 2 |x| ≤ round x ∧ round x ≤ (2 : ℚ) ^ (Int.log 2 |x| + 1) := by
  have hunit := unit_pos x
  have hsucc : (2 : ℚ) ^ (Int.log 2 |x| + 1) = 2 ^ 53 * unit x := by
    rw [zpow_add₀ (by norm_num), ← unit_mul]
    ring
  have hlow : ((2 ^ 52 : ℤ) : ℚ) ≤ x / unit x := by
    rw [le_div_iff₀ hunit, Int.cast_pow, Int.cast_ofNat, unit_mul, abs_of_pos hx]
    exact_mod_cast Int.zpow_log_le_self (by norm_num) hx
  have hhigh : x / unit x ≤ ((2 ^ 53 : ℤ) : ℚ) := by
    rw [div_le_iff₀ hunit, Int.cast_pow, Int.cast_ofNat, ← hsucc, abs_of_pos hx]
    exact_mod_cast (Int.lt_zpow_succ_log_self (by norm_num) x).le
  constructor
  · rw [← unit_mul, round]
    refine mul_le_mul_of_nonneg_right ?_ hunit.le
    exact_mod_cast nearestEven_intCast (2 ^ 52) ▸ nearestEven_mono hlow
  · rw [hsucc, round]
    refine mul_le_mul_of_nonneg_right ?_ hunit.le
    exact_mod_cast nearestEven_intCast (2 ^ 53) ▸ nearestEven_mono hhigh

theorem round_pos (hx : 0 < x) : 0 < round x :=
  (zpow_pos (by norm_num) _).trans_le (round_bounds hx).1

/-- **Rounding keeps the order.** -/
theorem round_mono (hx : 0 ≤ x) (h : x ≤ y) : round x ≤ round y := by
  rcases hx.eq_or_lt with rfl | hpos
  · rw [round_zero]
    rcases h.eq_or_lt with rfl | hy
    · exact round_zero.ge
    · exact (round_pos hy).le
  · have hy := hpos.trans_le h
    have hlog : Int.log 2 |x| ≤ Int.log 2 |y| := by
      rw [abs_of_pos hpos, abs_of_pos hy]
      exact Int.log_mono_right hpos h
    rcases hlog.eq_or_lt with heq | hlt
    · have hunit : unit x = unit y := by rw [unit, unit, heq]
      rw [round, round, hunit]
      refine mul_le_mul_of_nonneg_right ?_ (unit_pos y).le
      exact_mod_cast nearestEven_mono (div_le_div_of_nonneg_right h (unit_pos y).le)
    · calc round x ≤ (2 : ℚ) ^ (Int.log 2 |x| + 1) := (round_bounds hpos).2
        _ ≤ (2 : ℚ) ^ Int.log 2 |y| := zpow_le_zpow_right₀ (by norm_num) (by omega)
        _ ≤ round y := (round_bounds hy).1

/-- A double is its own rounding. -/
def IsDouble (x : ℚ) : Prop := round x = x

instance (x : ℚ) : Decidable (IsDouble x) := inferInstanceAs (Decidable (round x = x))

/-- What is not larger than a number and a multiple of its unit. -/
theorem isDouble_of_units (hy : 0 < y) (h : y ≤ x) {m : ℤ} (hm : y = m * unit x) :
    IsDouble y := by
  have hlog : Int.log 2 |y| ≤ Int.log 2 |x| := by
    rw [abs_of_pos hy, abs_of_pos (hy.trans_le h)]
    exact Int.log_mono_right hy h
  obtain ⟨i, hi⟩ : ∃ i : ℕ, Int.log 2 |x| = Int.log 2 |y| + i :=
    ⟨(Int.log 2 |x| - Int.log 2 |y|).toNat, by omega⟩
  have hunit : unit x = ((2 ^ i : ℤ) : ℚ) * unit y := by
    rw [unit, unit, hi, add_sub_right_comm, zpow_add₀ (by norm_num), mul_comm]
    push_cast
    rfl
  have hwhole : y / unit y = ((m * 2 ^ i : ℤ) : ℚ) := by
    rw [div_eq_iff (unit_pos y).ne', Int.cast_mul, mul_assoc, ← hunit]
    exact hm
  rw [IsDouble, round, hwhole, nearestEven_intCast, ← hwhole]
  exact div_mul_cancel₀ y (unit_pos y).ne'

/-- Small whole numbers are doubles. -/
theorem isDouble_natCast {k : ℕ} (h : (k : ℚ) < 2 ^ 51) : IsDouble k := by
  rcases Nat.eq_zero_or_pos k with rfl | hpos
  · exact_mod_cast round_zero
  · have hk : (0 : ℚ) < k := by exact_mod_cast hpos
    obtain ⟨n, hn⟩ := whole_eq_units hk h k
    exact isDouble_of_units hk le_rfl (by exact_mod_cast hn)

/-- A whole number that is no larger is subtracted exactly. -/
theorem IsDouble.sub_natCast (hx : IsDouble x) (hlt : x < 2 ^ 51) {k : ℕ} (h : (k : ℚ) ≤ x) :
    IsDouble (x - k) := by
  rcases h.eq_or_lt with heq | hkx
  · rw [← heq, sub_self]
    exact round_zero
  · have hpos : 0 < x := (Nat.cast_nonneg k).trans_lt hkx
    obtain ⟨n, hn⟩ := whole_eq_units hpos hlt k
    refine isDouble_of_units (sub_pos.mpr hkx) (sub_le_self x (Nat.cast_nonneg k))
      (m := nearestEven (x / unit x) - 2 * n) ?_
    have hwhole : x = nearestEven (x / unit x) * unit x := hx.symm
    push_cast at hn ⊢
    rw [sub_mul, ← hwhole, ← hn]

/-! ## Quotients of whole numbers -/

/-- The parts of one, each half a part of those before. -/
def parts (n : ℕ) : ℕ := 2 ^ n

theorem parts_pos (n : ℕ) : 0 < parts n := Nat.two_pow_pos n

theorem parts_mono {m n : ℕ} (h : m ≤ n) : parts m ≤ parts n := Nat.pow_le_pow_right two_pos h

/-- The smallest normal number is one over this. -/
def normalParts : ℕ := parts 1022

/-- The smallest number at all is one over this. -/
def smallestParts : ℕ := parts 1074

/-- The nearest double of a number that is not too large: below the normal numbers the unit does
not shrink any further. -/
def nearest (x : ℚ) : ℚ :=
  if |x| < 1 / normalParts then nearestEven (x * smallestParts) / smallestParts else round x

/-- The quotient of two whole numbers; none when it is too large for a double. -/
def divide (a b : ℕ) : Option ℚ :=
  let quotient := nearest ((a : ℚ) / b)
  if overflow ≤ quotient then none else some quotient

/-- Below `2⁵³` a quotient is not rounded down to a whole number or past one. -/
theorem le_of_round_div_le {a b n : ℕ} (hb : 0 < b) (ha : a < 2 ^ 53)
    (h : round ((a : ℚ) / b) ≤ n) : (a : ℚ) / b ≤ n := by
  have hpos : (0 : ℚ) < b := by exact_mod_cast hb
  have herror := (abs_le.mp (round_error ((a : ℚ) / b))).1
  rw [abs_of_nonneg (by positivity)] at herror
  have hless : (a : ℚ) / b / 2 ^ 53 < 1 / b := by
    rw [div_div, mul_comm, ← div_div]
    refine div_lt_div_of_pos_right ?_ hpos
    rw [div_lt_one (by norm_num)]
    exact_mod_cast ha
  have hgap : (a : ℚ) / b < n + 1 / b := by linarith
  rw [div_lt_iff₀ hpos, add_mul, one_div_mul_cancel hpos.ne'] at hgap
  have hint : a < n * b + 1 := by exact_mod_cast hgap
  rw [div_le_iff₀ hpos]
  exact_mod_cast Nat.lt_succ_iff.mp hint

/-- Nor is it rounded down to zero, unless there are very many parts. -/
theorem le_of_nearest_div_le {a b n : ℕ} (hb : 0 < b) (ha : a < 2 ^ 53) (hparts : b ≤ normalParts)
    (h : nearest ((a : ℚ) / b) ≤ n) : (a : ℚ) / b ≤ n := by
  rcases Nat.eq_zero_or_pos a with rfl | hapos
  · rw [Nat.cast_zero, zero_div]
    exact Nat.cast_nonneg n
  · have hpos : (0 : ℚ) < b := Nat.cast_pos.mpr hb
    have hone : (1 : ℚ) ≤ a := Nat.one_le_cast.mpr hapos
    have hnormal : (1 : ℚ) / normalParts ≤ (a : ℚ) / b :=
      div_le_div₀ (Nat.cast_nonneg a) hone hpos (Nat.cast_le.mpr hparts)
    have hnonneg : (0 : ℚ) ≤ (a : ℚ) / b := div_nonneg (Nat.cast_nonneg a) (Nat.cast_nonneg b)
    rw [nearest, abs_of_nonneg hnonneg, if_neg (not_lt.mpr hnormal)] at h
    exact le_of_round_div_le hb ha h

/-- Nor is it too large. -/
theorem nearest_div_lt_overflow {a b : ℕ} (hb : 0 < b) (ha : a < 2 ^ 53) :
    nearest ((a : ℚ) / b) < overflow := by
  have hle : (a : ℚ) / b ≤ a := div_le_self (Nat.cast_nonneg a) (Nat.one_le_cast.mpr hb)
  have hbig : (2 : ℚ) ^ 54 < overflow := pow_lt_pow_right₀ (by norm_num) (by norm_num)
  have hpow : (2 : ℚ) ^ 54 = 2 * 2 ^ 53 := by ring
  have hlt : (a : ℚ) < 2 ^ 53 := by exact_mod_cast ha
  rw [hpow] at hbig
  unfold nearest
  split
  · have hscale : (0 : ℚ) < smallestParts := Nat.cast_pos.mpr (parts_pos 1074)
    have hwhole : (((a * smallestParts : ℕ) : ℤ) : ℚ) = (a : ℚ) * smallestParts := by push_cast; rfl
    have hless := nearestEven_mono (mul_le_mul_of_nonneg_right hle hscale.le)
    rw [← hwhole, nearestEven_intCast] at hless
    have hcast := (Int.cast_le (R := ℚ)).mpr hless
    rw [hwhole, ← div_le_iff₀ hscale] at hcast
    linarith
  · have hnonneg : (0 : ℚ) ≤ (a : ℚ) / b := div_nonneg (Nat.cast_nonneg a) (Nat.cast_nonneg b)
    have herror := (abs_le.mp (round_error ((a : ℚ) / b))).2
    rw [abs_of_nonneg hnonneg] at herror
    linarith

end Doubles

end Binary64
