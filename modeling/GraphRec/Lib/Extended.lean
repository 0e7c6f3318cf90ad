import GraphRec.Lib.TopK
import Mathlib.Data.List.Range
import Mathlib.Order.OrderDual
import Mathlib.Order.WithBot

/-!
# Numbers with infinities and NaN

`Extended R` are the values of a floating-point array in exact arithmetic.  `Extended.key` is the
order in which arrays are sorted, NaN last; comparisons and the minimum treat NaN as IEEE 754 does.

`IsArgpartition` is what a partial selection promises: the entry at the place `kth` is the one
that sorting would put there, nothing before it is larger, nothing after it is smaller.
`exists_threshold` is how it is used: the smallest of the `k` best finite entries is a threshold
that they pass.
-/

/-- A number, an infinity or NaN. -/
inductive Extended (R : Type)
  | finite (x : R)
  | posInf
  | negInf
  | nan
  deriving DecidableEq, Repr

namespace Extended

variable {R : Type}

/-- `isfinite`. -/
def isFinite : Extended R → Bool
  | finite _ => true
  | _ => false

/-- `-x`. -/
def neg [Neg R] : Extended R → Extended R
  | finite x => finite (-x)
  | posInf => negInf
  | negInf => posInf
  | nan => nan

/-- A number, or minus infinity for `⊥`. -/
def ofBot (x : WithBot R) : Extended R := WithBot.recBotCoe negInf finite x

/-- The place of a value in a sorted array. -/
def key : Extended R → WithTop (WithTop (WithBot R))
  | finite x => (((x : WithBot R) : WithTop (WithBot R)) : WithTop (WithTop (WithBot R)))
  | posInf => ((⊤ : WithTop (WithBot R)) : WithTop (WithTop (WithBot R)))
  | negInf => (((⊥ : WithBot R) : WithTop (WithBot R)) : WithTop (WithTop (WithBot R)))
  | nan => ⊤

section Order

variable [LinearOrder R]

/-- `a >= b`; no comparison with NaN holds. -/
def ge (a b : Extended R) : Bool :=
  match a, b with
  | nan, _ => false
  | _, nan => false
  | a, b => decide (b.key ≤ a.key)

/-- `a > b`. -/
def gt (a b : Extended R) : Bool := a.ge b && !b.ge a

/-- The smaller one, NaN if there is one. -/
def min (a b : Extended R) : Extended R :=
  match a, b with
  | nan, _ => nan
  | _, nan => nan
  | a, b => if a.key ≤ b.key then a else b

/-- `values.min()`. -/
def minimum (values : List (Extended R)) : Extended R := values.foldr min posInf

/-- `lexsort`: by ascending keys, ties by ascending index. -/
abbrev LexLe (values : ℕ → Extended R) : ℕ → ℕ → Prop :=
  TopK.Better (fun i => OrderDual.toDual (values i).key) id

/-- What `argpartition(values, kth)` promises of the array of the first `n` values. -/
structure IsArgpartition (argpartition : (ℕ → Extended R) → ℕ → ℕ → List ℕ) : Prop where
  perm : ∀ values n kth, kth < n → (argpartition values n kth).Perm (List.range n)
  split : ∀ values n kth, kth < n → ∀ i ∈ (argpartition values n kth).take (kth + 1),
    ∀ j ∈ (argpartition values n kth).drop kth, (values i).key ≤ (values j).key

/-- A partial selection that sorts. -/
def argsort (values : ℕ → Extended R) (n _kth : ℕ) : List ℕ :=
  (List.range n).insertionSort (LexLe values)

end Order

section Facts

variable {a b : Extended R}

theorem isFinite_iff : a.isFinite = true ↔ ∃ x, a = finite x := by
  cases a <;> simp [isFinite]

variable [LinearOrder R]

@[simp] theorem key_finite_le {x y : R} : (finite x).key ≤ (finite y).key ↔ x ≤ y := by
  simp [key]

@[simp] theorem key_finite_lt {x y : R} : (finite x).key < (finite y).key ↔ x < y := by
  simp [key]

/-- What is not finite, minus infinity apart, comes after what is. -/
theorem key_finite_lt_of_not {x : R} (h : b.isFinite = false) (hne : b ≠ negInf) :
    (finite x).key < b.key := by
  cases b with
  | finite y => cases h
  | posInf => simp [key]
  | negInf => exact absurd rfl hne
  | nan => simp [key]

@[simp] theorem isFinite_ofBot {x : WithBot R} : (ofBot x).isFinite = decide (x ≠ ⊥) := by
  induction x using WithBot.recBotCoe with
  | bot => simp [ofBot, isFinite]
  | coe x => simp [ofBot, isFinite]

@[simp] theorem ge_finite {x y : R} : (finite x).ge (finite y) = decide (y ≤ x) := by
  simp [ge]

theorem gt_finite_iff {y : R} : a.gt (finite y) = true ↔ a ≠ nan ∧ (finite y).key < a.key := by
  cases a with
  | finite x => simpa [gt] using fun h : y < x => h.le
  | posInf => simp [gt, ge, key]
  | negInf => simp [gt, ge, key]
  | nan => simp [gt, ge]

/-- Negated keys are in the opposite order, NaN apart. -/
theorem key_neg_lt_iff [AddCommGroup R] [IsOrderedAddMonoid R] {y : R} :
    a.neg.key < (finite y).neg.key ↔ a.gt (finite y) = true := by
  rw [gt_finite_iff]
  cases a with
  | finite x => simp [neg]
  | posInf =>
      have hlt : negInf.key < (finite (-y)).key :=
        WithTop.coe_lt_coe.mpr (WithTop.coe_lt_coe.mpr (WithBot.bot_lt_coe _))
      exact iff_of_true hlt ⟨by simp, by simp [key]⟩
  | negInf => simp [neg, key]
  | nan => simp [neg, key]

omit [LinearOrder R] in
theorem key_neg_eq_iff [AddCommGroup R] {y : R} :
    a.neg.key = (finite y).neg.key ↔ a = finite y := by
  cases a <;> simp [neg, key]

/-- The minimum of finite values is one of them. -/
theorem minimum_finite {values : List (Extended R)} (hfinite : ∀ a ∈ values, a.isFinite = true)
    (hne : values ≠ []) :
    ∃ t, minimum values = finite t ∧ ∀ x, finite x ∈ values → t ≤ x := by
  induction values with
  | nil => exact absurd rfl hne
  | cons a values ih =>
      obtain ⟨x, rfl⟩ := isFinite_iff.mp (hfinite a List.mem_cons_self)
      have hcons : minimum (finite x :: values) = min (finite x) (minimum values) := rfl
      by_cases hnil : values = []
      · subst hnil
        refine ⟨x, ?_, ?_⟩
        · rw [hcons]
          simp [minimum, min, key]
        · intro y hy
          obtain ⟨rfl⟩ := List.mem_singleton.mp hy
          exact le_rfl
      · obtain ⟨t, ht, hle⟩ := ih (fun b hb => hfinite b (List.mem_cons_of_mem _ hb)) hnil
        rw [hcons, ht]
        by_cases hxt : x ≤ t
        · refine ⟨x, by simp [min, hxt], fun y hy => ?_⟩
          rcases List.mem_cons.mp hy with heq | hy
          · cases heq
            exact le_rfl
          · exact hxt.trans (hle y hy)
        · refine ⟨t, by simp [min, hxt], fun y hy => ?_⟩
          rcases List.mem_cons.mp hy with heq | hy
          · cases heq
            exact le_of_not_ge hxt
          · exact hle y hy

/-- Sorting is a partial selection. -/
theorem isArgpartition_argsort : IsArgpartition (R := R) argsort where
  perm values n kth _ := List.perm_insertionSort _ _
  split values n kth hkth i hi j hj := by
    have hsorted := List.pairwise_insertionSort (LexLe values) (List.range n)
    have hlength : kth < ((List.range n).insertionSort (LexLe values)).length := by
      rw [List.length_insertionSort, List.length_range]
      exact hkth
    rw [argsort, ← List.take_append_getElem hlength, List.mem_append] at hi
    rw [argsort, List.drop_eq_getElem_cons hlength] at hj
    have hle : ∀ {a b : ℕ}, LexLe values a b → (values a).key ≤ (values b).key := fun h => h.le
    -- `i` is not after the entry at `kth`, `j` is not before it.
    have hsplit := hsorted
    rw [← List.take_append_drop kth ((List.range n).insertionSort (LexLe values)),
      List.drop_eq_getElem_cons hlength, List.pairwise_append, List.pairwise_cons] at hsplit
    obtain ⟨_, ⟨hafter, _⟩, hbefore⟩ := hsplit
    have hmid : (values i).key ≤
        (values ((List.range n).insertionSort (LexLe values))[kth]).key := by
      rcases hi with hi | hi
      · exact hle (hbefore i hi _ List.mem_cons_self)
      · rw [List.mem_singleton.mp hi]
    refine hmid.trans ?_
    rcases List.mem_cons.mp hj with heq | hj
    · rw [heq]
    · exact hle (hafter j hj)

end Facts

/-! ## Selecting the best finite entries -/

section Select

variable [AddCommGroup R] [LinearOrder R] {scores : ℕ → Extended R} {n k : ℕ}
  {argpartition : (ℕ → Extended R) → ℕ → ℕ → List ℕ}

/-- The first `k` places of a partial selection of the negated scores hold finite scores, when
there are as many. -/
theorem finite_of_mem_argpartition (h : IsArgpartition argpartition) (hpos : 0 < k) (hkn : k < n)
    (hk : k ≤ (List.range n).countP fun i => (scores i).isFinite) {c : ℕ}
    (hc : c ∈ (argpartition (fun i =>
      (if (scores i).isFinite then scores i else negInf).neg) n (k - 1)).take k) :
    (scores c).isFinite = true := by
  set values := fun i => (if (scores i).isFinite then scores i else negInf).neg with hvalues
  set picked := argpartition values n (k - 1) with hpicked
  have hperm := h.perm values n (k - 1) (by omega)
  have hsplit := h.split values n (k - 1) (by omega)
  rw [← hpicked, Nat.sub_add_cancel hpos] at hsplit
  by_contra hnot
  rw [Bool.not_eq_true] at hnot
  -- Then nothing behind is finite, and the first `k` places have one finite score too few.
  have hbehind : ∀ j ∈ picked.drop k, (scores j).isFinite = false := by
    intro j hj
    by_contra hfinite
    rw [Bool.not_eq_false] at hfinite
    obtain ⟨x, hx⟩ := isFinite_iff.mp hfinite
    have hle := hsplit c hc j (List.drop_subset_drop_left picked (Nat.sub_le k 1) hj)
    have hj' : values j = finite (-x) := by simp [hvalues, hx, isFinite, neg]
    have hc' : values c = posInf := by simp [hvalues, hnot, neg]
    rw [hj', hc'] at hle
    exact absurd hle (not_le.mpr (key_finite_lt_of_not rfl (by simp)))
  have hcount : picked.countP (fun i => (scores i).isFinite) =
      (List.range n).countP fun i => (scores i).isFinite := hperm.countP_eq _
  have hnone : (picked.drop k).countP (fun i => (scores i).isFinite) = 0 :=
    List.countP_eq_zero.mpr fun j hj => by simp [hbehind j hj]
  rw [← List.take_append_drop k picked, List.countP_append, hnone, Nat.add_zero] at hcount
  have hlt : (picked.take k).countP (fun i => (scores i).isFinite) < (picked.take k).length := by
    refine lt_of_le_of_ne List.countP_le_length fun heq => ?_
    have hall := List.countP_eq_length.mp heq c hc
    rw [hnot] at hall
    cases hall
  have hlength : (picked.take k).length ≤ k := List.length_take_le _ _
  omega

end Select

end Extended
