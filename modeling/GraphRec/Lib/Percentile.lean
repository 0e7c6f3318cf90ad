import Mathlib.Algebra.Order.Field.Basic
import Mathlib.Data.Finset.Card
import Mathlib.Data.Finset.Filter
import Mathlib.Data.List.Sort
import Mathlib.Data.Nat.Cast.Order.Field
import Mathlib.Order.Monotone.Defs

/-!
# Percentile ranks and medians

`standing values v` is the part of the other distinct values that are smaller than `v`.  Main
results:

* `idxOf_distinct` — the place among the distinct values in ascending order counts the smaller ones;
* `strictMonoOn_standing`, `standing_le_one`, `standing_max` — the standing is strictly monotone on
  the values, with values in `[0, 1]`, and 1 for the largest value;
* `lowerMedian_map`, `upperMedian_map` — a strictly monotone map commutes with both middle values.
-/

namespace Percentile

section Rank

variable {α : Type} [LinearOrder α]

/-- The number of distinct values that are smaller. -/
def below (values : List α) (v : α) : ℕ := (values.toFinset.filter fun x => x < v).card

/-- The distinct values in ascending order. -/
def distinct (values : List α) : List α := values.dedup.insertionSort (· ≤ ·)

variable {values : List α} {v v' : α}

theorem nodup_distinct (values : List α) : (distinct values).Nodup :=
  (List.perm_insertionSort _ _).nodup_iff.mpr (List.nodup_dedup _)

theorem toFinset_distinct (values : List α) : (distinct values).toFinset = values.toFinset := by
  ext x
  rw [distinct, List.mem_toFinset, List.mem_insertionSort, List.mem_dedup, List.mem_toFinset]

theorem length_distinct (values : List α) : (distinct values).length = values.toFinset.card := by
  rw [← toFinset_distinct, List.toFinset_card_of_nodup (nodup_distinct values)]

theorem distinct_increasing (values : List α) : (distinct values).Pairwise (· < ·) :=
  (List.pairwise_insertionSort (· ≤ ·) values.dedup).imp₂
    (fun _ _ hle hne => lt_of_le_of_ne hle hne) (nodup_distinct values)

/-- **The place of a value.** -/
theorem idxOf_distinct (h : v ∈ values) : (distinct values).idxOf v = below values v := by
  have hmem : v ∈ distinct values := by
    rw [← List.mem_toFinset, toFinset_distinct, List.mem_toFinset]
    exact h
  obtain ⟨before, after, hsplit, hnot⟩ := List.eq_append_cons_of_mem hmem
  have hincreasing := distinct_increasing values
  rw [hsplit] at hincreasing
  obtain ⟨_, hafter, hbefore⟩ := List.pairwise_append.mp hincreasing
  have hset : values.toFinset.filter (fun x => x < v) = before.toFinset := by
    ext x
    rw [Finset.mem_filter, ← toFinset_distinct, List.mem_toFinset, List.mem_toFinset, hsplit]
    constructor
    · rintro ⟨hx, hlt⟩
      rcases List.mem_append.mp hx with hx | hx
      · exact hx
      · rcases List.mem_cons.mp hx with rfl | hx
        · exact absurd hlt (lt_irrefl _)
        · exact absurd hlt (lt_asymm ((List.pairwise_cons.mp hafter).1 x hx))
    · intro hx
      exact ⟨List.mem_append_left _ hx, hbefore x hx v List.mem_cons_self⟩
  have hnodup : before.Nodup := by
    have hall := nodup_distinct values
    rw [hsplit] at hall
    exact (List.nodup_append.mp hall).1
  rw [below, hset, List.toFinset_card_of_nodup hnodup, hsplit, List.idxOf_append_of_notMem hnot,
    List.idxOf_cons_self, Nat.add_zero]

theorem below_lt (hv : v ∈ values) (h : v < v') : below values v < below values v' := by
  refine Finset.card_lt_card (Finset.ssubset_iff_of_subset ?_ |>.mpr ⟨v, ?_, ?_⟩)
  · intro x hx
    rw [Finset.mem_filter] at hx ⊢
    exact ⟨hx.1, hx.2.trans h⟩
  · exact Finset.mem_filter.mpr ⟨List.mem_toFinset.mpr hv, h⟩
  · intro hself
    exact lt_irrefl _ (Finset.mem_filter.mp hself).2

/-- A value is not below itself. -/
theorem below_lt_card (hv : v ∈ values) : below values v < values.toFinset.card := by
  refine Finset.card_lt_card (Finset.filter_ssubset.mpr ⟨v, List.mem_toFinset.mpr hv, ?_⟩)
  exact lt_irrefl v

/-- All other values are below the largest one. -/
theorem below_max (hv : v ∈ values) (hmax : ∀ x ∈ values, x ≤ v) :
    below values v + 1 = values.toFinset.card := by
  have herase : values.toFinset.filter (fun x => x < v) = values.toFinset.erase v := by
    ext x
    rw [Finset.mem_filter, Finset.mem_erase, List.mem_toFinset]
    constructor
    · rintro ⟨hx, hlt⟩
      exact ⟨hlt.ne, hx⟩
    · rintro ⟨hne, hx⟩
      exact ⟨hx, lt_of_le_of_ne (hmax x hx) hne⟩
  rw [below, herase, Finset.card_erase_add_one (List.mem_toFinset.mpr hv)]

end Rank

section Standing

variable {R : Type} [Field R] [LinearOrder R]

/-- The part of the other distinct values that are smaller, 1 for a single value. -/
def standing (values : List R) (v : R) : R :=
  if values.toFinset.card = 1 then 1
  else (below values v : R) / ((values.toFinset.card - 1 : ℕ) : R)

variable [IsStrictOrderedRing R] {values : List R} {v v' : R}

theorem standing_nonneg (values : List R) (v : R) : 0 ≤ standing values v := by
  unfold standing
  split
  · exact zero_le_one
  · exact div_nonneg (Nat.cast_nonneg _) (Nat.cast_nonneg _)

theorem standing_le_one (hv : v ∈ values) : standing values v ≤ 1 := by
  unfold standing
  split
  · exact le_rfl
  · have hlt := below_lt_card hv
    exact div_le_one_of_le₀ (Nat.cast_le.mpr (by omega)) (Nat.cast_nonneg _)

/-- **Strictly monotone.** -/
theorem strictMonoOn_standing (values : List R) :
    StrictMonoOn (standing values) { v | v ∈ values } := by
  intro v hv v' hv' h
  have hlt := below_lt hv h
  have hlt' := below_lt_card hv'
  have hcard : values.toFinset.card ≠ 1 := by omega
  have hpos : 0 < values.toFinset.card - 1 := by omega
  rw [standing, standing, if_neg hcard, if_neg hcard]
  exact div_lt_div_of_pos_right (Nat.cast_lt.mpr hlt) (Nat.cast_pos.mpr hpos)

theorem standing_le_standing (hv : v ∈ values) (hv' : v' ∈ values) (h : v ≤ v') :
    standing values v ≤ standing values v' := by
  rcases h.lt_or_eq with hlt | rfl
  · exact (strictMonoOn_standing values hv hv' hlt).le
  · exact le_rfl

/-- **The largest value.** -/
theorem standing_max (hv : v ∈ values) (hmax : ∀ x ∈ values, x ≤ v) : standing values v = 1 := by
  unfold standing
  split
  · rfl
  · next hcard =>
      have hbelow := below_max hv hmax
      have hne : values.toFinset.card - 1 ≠ 0 := by omega
      rw [show below values v = values.toFinset.card - 1 by omega]
      exact div_self (Nat.cast_ne_zero.mpr hne)

/-- **A standing against two others**, without fractions. -/
theorem standing_le_add_iff {values' : List R} {l u : R} (hv : v ∈ values)
    (hl : l ∈ values') : standing values v ≤ standing values' l + standing values' u ↔
      values'.toFinset.card - 1 = 0 ∨
        if values.toFinset.card - 1 = 0 then
          values'.toFinset.card - 1 ≤ below values' l + below values' u
        else
          below values v * (values'.toFinset.card - 1) ≤
            (below values' l + below values' u) * (values.toFinset.card - 1) := by
  have hcard : 0 < values.toFinset.card := Finset.card_pos.mpr ⟨v, List.mem_toFinset.mpr hv⟩
  have hcard' : 0 < values'.toFinset.card := Finset.card_pos.mpr ⟨l, List.mem_toFinset.mpr hl⟩
  by_cases hsingle : values'.toFinset.card = 1
  · have htwo : standing values' l + standing values' u = 1 + 1 := by
      rw [standing, standing, if_pos hsingle, if_pos hsingle]
    have hle := (standing_le_one hv).trans (le_add_of_nonneg_right (zero_le_one (α := R)))
    rw [htwo]
    exact iff_of_true hle (.inl (by omega))
  · have hpos' : (0 : R) < ((values'.toFinset.card - 1 : ℕ) : R) := Nat.cast_pos.mpr (by omega)
    have hsum : standing values' l + standing values' u =
        ((below values' l + below values' u : ℕ) : R) / ((values'.toFinset.card - 1 : ℕ) : R) := by
      rw [standing, standing, if_neg hsingle, if_neg hsingle, ← add_div, Nat.cast_add]
    rw [hsum, or_iff_right (by omega)]
    by_cases hone : values.toFinset.card = 1
    · rw [standing, if_pos hone, if_pos (by omega), le_div_iff₀ hpos', one_mul, Nat.cast_le]
    · have hpos : (0 : R) < ((values.toFinset.card - 1 : ℕ) : R) := Nat.cast_pos.mpr (by omega)
      rw [standing, if_neg hone, if_neg (by omega), div_le_div_iff₀ hpos hpos', ← Nat.cast_mul,
        ← Nat.cast_mul, Nat.cast_le]

end Standing

/-! ## Medians -/

section Median

variable {R : Type} [Field R] [LinearOrder R]

/-- The two middle values, which are the same for an odd number of values. -/
def lowerMedian (values : List R) : R :=
  (values.insertionSort (· ≤ ·)).getD ((values.length - 1) / 2) 0

def upperMedian (values : List R) : R :=
  (values.insertionSort (· ≤ ·)).getD (values.length / 2) 0

/-- The median: the mean of the two middle values. -/
def median (values : List R) : R := (lowerMedian values + upperMedian values) / (2 : ℕ)

variable {values : List R} {f : R → R}

theorem getD_insertionSort_mem {i : ℕ} (hi : i < values.length) :
    (values.insertionSort (· ≤ ·)).getD i 0 ∈ values := by
  have hlt : i < (values.insertionSort (· ≤ ·)).length := by rwa [List.length_insertionSort]
  rw [List.getD_eq_getElem?_getD, List.getElem?_eq_getElem hlt, Option.getD_some]
  exact (List.mem_insertionSort _).mp (List.getElem_mem hlt)

theorem lowerMedian_mem (hne : values ≠ []) : lowerMedian values ∈ values := by
  have hpos := List.length_pos_of_ne_nil hne
  exact getD_insertionSort_mem (by omega)

/-- Sorting after a strictly monotone map. -/
theorem getD_insertionSort_map (hf : StrictMonoOn f { v | v ∈ values }) {i : ℕ}
    (hi : i < values.length) :
    ((values.map f).insertionSort (· ≤ ·)).getD i 0 =
      f ((values.insertionSort (· ≤ ·)).getD i 0) := by
  have hmap := List.map_insertionSort (· ≤ ·) (· ≤ ·) f values
    fun a ha b hb => (hf.le_iff_le ha hb).symm
  have hlt : i < (values.insertionSort (· ≤ ·)).length := by rwa [List.length_insertionSort]
  rw [← hmap, List.getD_eq_getElem?_getD, List.getD_eq_getElem?_getD, List.getElem?_map,
    List.getElem?_eq_getElem hlt, Option.map_some, Option.getD_some, Option.getD_some]

theorem lowerMedian_map (hf : StrictMonoOn f { v | v ∈ values }) (hne : values ≠ []) :
    lowerMedian (values.map f) = f (lowerMedian values) := by
  have hpos := List.length_pos_of_ne_nil hne
  rw [lowerMedian, List.length_map]
  exact getD_insertionSort_map hf (by omega)

theorem upperMedian_map (hf : StrictMonoOn f { v | v ∈ values }) (hne : values ≠ []) :
    upperMedian (values.map f) = f (upperMedian values) := by
  have hpos := List.length_pos_of_ne_nil hne
  rw [upperMedian, List.length_map]
  exact getD_insertionSort_map hf (by omega)

end Median

end Percentile
