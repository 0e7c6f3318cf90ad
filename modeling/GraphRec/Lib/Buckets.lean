import Mathlib.Algebra.BigOperators.Group.List.Basic
import Mathlib.Algebra.Order.Group.Int
import Mathlib.Data.Int.ModEq
import Mathlib.Data.List.Dedup
import Mathlib.Tactic.Ring

/-!
# Buckets

Points in time are counted from an origin, and the buckets of one width follow each other from
there.  `floorTo` is the start of the bucket of a point.

`groupBy` collects rows by a key and aggregates each group.

* `floorTo_eq_iff` — a bucket's start is the only multiple of the width that a point lies within
  one width of;
* `floorTo_mem_starts` — buckets in a row leave no gap;
* `mem_groupBy`, `length_groups_le_iff` — the groups, and how large they are;
* `sum_groups` — the sums over the groups add up to the sum over all rows.
-/

namespace Buckets

section Floor

variable {width t b : ℤ}

/-- The start of the bucket of a point. -/
def floorTo (width t : ℤ) : ℤ := t - t % width

theorem floorTo_le (h : 0 < width) (t : ℤ) : floorTo width t ≤ t :=
  sub_le_self t (Int.emod_nonneg t (ne_of_gt h))

theorem lt_floorTo_add (h : 0 < width) (t : ℤ) : t < floorTo width t + width := by
  have hlt := Int.emod_lt_of_pos t h
  unfold floorTo
  omega

theorem dvd_floorTo (width t : ℤ) : width ∣ floorTo width t := Int.dvd_self_sub_emod

/-- Two multiples less than a width apart are one. -/
theorem eq_of_dvd_of_lt {a : ℤ} (ha : width ∣ a) (hb : width ∣ b) (hab : a < b + width)
    (hba : b < a + width) : a = b := by
  obtain ⟨i, rfl⟩ := ha
  obtain ⟨j, rfl⟩ := hb
  have hpos : 0 < width := by omega
  have hi : i < j + 1 := Int.lt_of_mul_lt_mul_left (by rwa [mul_add, mul_one]) hpos.le
  have hj : j < i + 1 := Int.lt_of_mul_lt_mul_left (by rwa [mul_add, mul_one]) hpos.le
  rw [le_antisymm (Int.lt_add_one_iff.mp hi) (Int.lt_add_one_iff.mp hj)]

/-- **The bucket of a point.** -/
theorem floorTo_eq_iff (h : 0 < width) :
    floorTo width t = b ↔ width ∣ b ∧ b ≤ t ∧ t < b + width := by
  constructor
  · rintro rfl
    exact ⟨dvd_floorTo width t, floorTo_le h t, lt_floorTo_add h t⟩
  · rintro ⟨hdvd, hle, hlt⟩
    exact eq_of_dvd_of_lt (dvd_floorTo width t) hdvd ((floorTo_le h t).trans_lt hlt)
      (hle.trans_lt (lt_floorTo_add h t))

/-- The start of the first bucket from a point on. -/
def ceilTo (width t : ℤ) : ℤ := -floorTo width (-t)

theorem dvd_ceilTo (width t : ℤ) : width ∣ ceilTo width t := Int.dvd_neg.mpr (dvd_floorTo width (-t))

theorem le_ceilTo (h : 0 < width) (t : ℤ) : t ≤ ceilTo width t := by
  have hle := floorTo_le h (-t)
  unfold ceilTo
  omega

theorem ceilTo_lt_add (h : 0 < width) (t : ℤ) : ceilTo width t < t + width := by
  have hlt := lt_floorTo_add h (-t)
  unfold ceilTo
  omega

/-- From one start of a bucket to a later one. -/
theorem exists_steps (h : 0 < width) {a : ℤ} (ha : width ∣ a) (hb : width ∣ b) (hab : a ≤ b) :
    ∃ n : ℕ, a + n * width = b := by
  obtain ⟨i, rfl⟩ := ha
  obtain ⟨j, rfl⟩ := hb
  have hij : i ≤ j := Int.le_of_mul_le_mul_left hab h
  refine ⟨(j - i).toNat, ?_⟩
  rw [Int.toNat_of_nonneg (by omega)]
  ring

/-- The starts of some buckets in a row. -/
def starts (width first : ℤ) (n : ℕ) : List ℤ :=
  (List.range n).map fun i : ℕ => first + i * width

theorem starts_succ (width first : ℤ) (n : ℕ) :
    starts width first (n + 1) = first :: starts width (first + width) n := by
  rw [starts, List.range_succ_eq_map, List.map_cons, List.map_map]
  congr 1
  · simp
  · refine List.map_congr_left fun i _ => ?_
    simp only [Function.comp_apply, Nat.cast_succ]
    ring

theorem mem_starts {first s : ℤ} {n : ℕ} :
    s ∈ starts width first n ↔ ∃ i < n, s = first + i * width := by
  simp [starts, eq_comm]

theorem isChain_starts (width first : ℤ) (n : ℕ) :
    (starts width first n).IsChain fun a b => b = a + width := by
  induction n generalizing first with
  | zero => exact List.IsChain.nil
  | succ n ih =>
      rw [starts_succ]
      cases n with
      | zero => exact List.IsChain.singleton _
      | succ n =>
          have hrest := ih (first + width)
          rw [starts_succ] at hrest ⊢
          exact List.IsChain.cons_cons rfl hrest

theorem nodup_starts (h : 0 < width) (first : ℤ) (n : ℕ) : (starts width first n).Nodup := by
  refine List.Nodup.map (fun i j hij => ?_) List.nodup_range
  exact_mod_cast mul_right_cancel₀ h.ne' (add_left_cancel hij)

/-- The bucket of a point among buckets in a row. -/
theorem floorTo_mem_starts (h : 0 < width) {first : ℤ} {n : ℕ} (hfirst : width ∣ first)
    (hle : first ≤ t) (hlt : t < first + n * width) : floorTo width t ∈ starts width first n := by
  obtain ⟨j, rfl⟩ := hfirst
  obtain ⟨i, hi⟩ := dvd_floorTo width t
  have hfloor := floorTo_le h t
  have hceil := lt_floorTo_add h t
  rw [hi] at hfloor hceil ⊢
  have hji : j < i + 1 := Int.lt_of_mul_lt_mul_left (by rw [mul_add, mul_one]; omega) h.le
  have hin : i < j + n := by
    refine Int.lt_of_mul_lt_mul_left ?_ h.le
    rw [mul_add, mul_comm width (n : ℤ)]
    omega
  refine mem_starts.mpr ⟨(i - j).toNat, by omega, ?_⟩
  rw [Int.toNat_of_nonneg (by omega)]
  ring

end Floor

section Groups

variable {α β κ : Type} [DecidableEq κ] (key : α → κ) (aggregate : List α → β)

/-- The rows of each key, aggregated. -/
def groupBy (l : List α) : List (κ × β) :=
  (l.map key).dedup.map fun k => (k, aggregate (l.filter fun a => decide (key a = k)))

variable {key aggregate} {l : List α} {k : κ} {x : β}

theorem mem_groupBy : (k, x) ∈ groupBy key aggregate l ↔
    (∃ a ∈ l, key a = k) ∧ x = aggregate (l.filter fun a => decide (key a = k)) := by
  rw [groupBy, List.mem_map]
  constructor
  · rintro ⟨k', hk', heq⟩
    cases heq
    rw [List.mem_dedup, List.mem_map] at hk'
    exact ⟨hk', rfl⟩
  · rintro ⟨hk, rfl⟩
    exact ⟨k, List.mem_dedup.mpr (List.mem_map.mpr hk), rfl⟩

/-- No group is larger than a bound. -/
theorem length_groups_le_iff (bound : ℕ) :
    (∀ n ∈ (groupBy key List.length l).map Prod.snd, n ≤ bound) ↔
      ∀ k, (l.filter fun a => decide (key a = k)).length ≤ bound := by
  constructor
  · intro hall k
    by_cases hk : ∃ a ∈ l, key a = k
    · exact hall _ (List.mem_map.mpr ⟨(k, _), mem_groupBy.mpr ⟨hk, rfl⟩, rfl⟩)
    · have hnone : (l.filter fun a => decide (key a = k)) = [] := by
        refine List.filter_eq_nil_iff.mpr fun a ha => ?_
        rw [decide_eq_true_eq]
        exact fun hak => hk ⟨a, ha, hak⟩
      rw [hnone]
      exact Nat.zero_le bound
  · intro hall n hn
    obtain ⟨⟨k, _⟩, hgroup, rfl⟩ := List.mem_map.mp hn
    obtain ⟨_, rfl⟩ := mem_groupBy.mp hgroup
    exact hall k

variable {M : Type} [AddCommMonoid M] (f : α → M)

/-- The sum of one group. -/
theorem sum_group (k : κ) (l : List α) :
    (((groupBy key (fun group => (group.map f).sum) l).filter fun e => decide (e.1 = k)).map
      Prod.snd).sum = ((l.filter fun a => decide (key a = k)).map f).sum := by
  rw [groupBy, List.filter_map, List.map_map]
  have hkeys : (l.map key).dedup.filter ((fun e : κ × M => decide (e.1 = k)) ∘ fun k =>
      (k, ((l.filter fun a => decide (key a = k)).map f).sum)) =
      List.replicate ((l.map key).dedup.count k) k := List.filter_eq k
  rw [hkeys, List.map_replicate]
  by_cases hk : k ∈ l.map key
  · rw [List.count_dedup, if_pos hk]
    simp
  · have hnone : (l.filter fun a => decide (key a = k)) = [] := by
      refine List.filter_eq_nil_iff.mpr fun a ha => ?_
      rw [decide_eq_true_eq]
      exact fun hak => hk (List.mem_map.mpr ⟨a, ha, hak⟩)
    rw [List.count_dedup, if_neg hk, hnone]
    simp

/-- **Sums over groups.**  They add up to the sum over all rows. -/
theorem sum_groups {keys : List κ} (hnodup : keys.Nodup) (hkeys : ∀ a ∈ l, key a ∈ keys) :
    (keys.map fun k => ((l.filter fun a => decide (key a = k)).map f).sum).sum =
      (l.map f).sum := by
  induction l with
  | nil => simp
  | cons a l ih =>
      have hsplit : ∀ k, (((a :: l).filter fun a => decide (key a = k)).map f).sum =
          (if k = key a then f a else 0) +
            ((l.filter fun a => decide (key a = k)).map f).sum := by
        intro k
        by_cases hk : key a = k
        · rw [List.filter_cons_of_pos (by simp [hk]), List.map_cons, List.sum_cons, if_pos hk.symm]
        · rw [List.filter_cons_of_neg (by simp [hk]), if_neg (Ne.symm hk), zero_add]
      have hone : (keys.map fun k => if k = key a then f a else 0).sum = f a := by
        rw [List.sum_map_eq_nsmul_single (key a) _ fun k hk _ => if_neg hk, if_pos rfl,
          List.count_eq_one_of_mem hnodup (hkeys a List.mem_cons_self), one_nsmul]
      simp only [hsplit, List.sum_map_add, hone]
      rw [ih fun b hb => hkeys b (List.mem_cons_of_mem a hb), List.map_cons, List.sum_cons]

end Groups

end Buckets
