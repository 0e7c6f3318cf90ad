import Mathlib.Data.List.Sort
import Mathlib.LinearAlgebra.Matrix.DotProduct
import Mathlib.Tactic.LinearCombination

/-!
# Ranked selections

The best `k` entries of a list by a score, best first.  When no two entries score the same there
is one such selection, however it is computed (`IsTopK.unique`), and two scores that order the
entries alike select alike (`IsTopK.congr`).

For scores that are inner products with a query, `exists_dotProduct_eq` finds a query that gives
two vectors any two scores, unless one of them is a multiple of the other.
-/

namespace TopK

/-! ## Selections -/

section Selection

variable {α β R R' : Type} [LinearOrder R] [LinearOrder R'] {score : α → R} {score' : α → R'}
  {k : ℕ} {l out out' : List α}

/-- `out` is the best `k` entries of `l`, best first, and all others score less. -/
def IsTopK (score : α → R) (k : ℕ) (l out : List α) : Prop :=
  ∃ rest, (out ++ rest).Perm l ∧ (out ++ rest).Pairwise (fun a b => score b < score a) ∧
    out.length = min k l.length

/-- No two entries score the same. -/
def Distinct (score : α → R) (l : List α) : Prop := l.Pairwise fun a b => score a ≠ score b

omit [LinearOrder R] in
theorem Distinct.of_perm {l' : List α} (h : Distinct score l) (hperm : l.Perm l') :
    Distinct score l' :=
  (hperm.pairwise_iff (fun h => Ne.symm h)).mp h

omit [LinearOrder R] in
theorem Distinct.ne {a b : α} (h : Distinct score l) (ha : a ∈ l) (hb : b ∈ l) (hab : a ≠ b) :
    score a ≠ score b := by
  have : Std.Symm fun a b => score a ≠ score b := ⟨fun _ _ hne => hne.symm⟩
  exact List.Pairwise.forall h ha hb hab

/-- The order of a selection has no two places for an entry. -/
theorem pairwise_lt_unique (hperm : out.Perm out')
    (h : out.Pairwise fun a b => score b < score a)
    (h' : out'.Pairwise fun a b => score b < score a) : out = out' :=
  hperm.eq_of_pairwise (fun _ _ _ _ hab hba => absurd (hab.trans hba) (lt_irrefl _)) h h'

/-- **Uniqueness.**  There is one selection. -/
theorem IsTopK.unique (h : IsTopK score k l out) (h' : IsTopK score k l out') : out = out' := by
  obtain ⟨rest, hperm, hsorted, hlength⟩ := h
  obtain ⟨rest', hperm', hsorted', hlength'⟩ := h'
  have hall : out ++ rest = out' ++ rest' :=
    pairwise_lt_unique (hperm.trans hperm'.symm) hsorted hsorted'
  exact List.append_inj_left hall (hlength.trans hlength'.symm)

theorem IsTopK.of_perm {l' : List α} (h : IsTopK score k l out) (hperm : l.Perm l') :
    IsTopK score k l' out := by
  obtain ⟨rest, hrest, hsorted, hlength⟩ := h
  exact ⟨rest, hrest.trans hperm, hsorted, hlength.trans (by rw [hperm.length_eq])⟩

/-- **Agreement.**  A score that orders the entries alike selects the same ones. -/
theorem IsTopK.congr (h : IsTopK score k l out)
    (hagree : ∀ a ∈ l, ∀ b ∈ l, score b < score a → score' b < score' a) :
    IsTopK score' k l out := by
  obtain ⟨rest, hrest, hsorted, hlength⟩ := h
  refine ⟨rest, hrest, ?_, hlength⟩
  refine hsorted.imp_of_mem ?_
  intro a b ha hb hlt
  exact hagree a (hrest.subset ha) b (hrest.subset hb) hlt

/-- Selecting the images by a score is selecting the entries by the score of their images. -/
theorem IsTopK.map {score : β → R} {f : α → β} (h : IsTopK (fun a => score (f a)) k l out) :
    IsTopK score k (l.map f) (out.map f) := by
  obtain ⟨rest, hrest, hsorted, hlength⟩ := h
  refine ⟨rest.map f, ?_, ?_, ?_⟩
  · rw [← List.map_append]
    exact hrest.map f
  · rw [← List.map_append]
    exact List.pairwise_map.mpr hsorted
  · rw [List.length_map, List.length_map, hlength]

/-- The better one of two entries. -/
theorem isTopK_pair {a b : α} (h : score b < score a) : IsTopK score 1 [a, b] [a] :=
  ⟨[b], .refl _, by simpa using h, rfl⟩

theorem IsTopK.pairwise (h : IsTopK score k l out) :
    out.Pairwise fun a b => score b < score a := by
  obtain ⟨rest, -, hsorted, -⟩ := h
  exact (List.pairwise_append.mp hsorted).1

/-- Better scores first, equal ones by a key. -/
def Better {κ : Type} [LinearOrder κ] (score : α → R) (key : α → κ) (a b : α) : Prop :=
  score b < score a ∨ score a = score b ∧ key a ≤ key b

section Better

variable {κ : Type} [LinearOrder κ] (score : α → R) (key : α → κ)

instance : DecidableRel (Better score key) := fun a b =>
  inferInstanceAs (Decidable (score b < score a ∨ score a = score b ∧ key a ≤ key b))

instance : Std.Total (Better score key) where
  total a b := by
    unfold Better
    rcases lt_trichotomy (score a) (score b) with h | h | h
    · exact Or.inr (Or.inl h)
    · exact (le_total (key a) (key b)).imp (fun hk => Or.inr ⟨h, hk⟩) (fun hk => Or.inr ⟨h.symm, hk⟩)
    · exact Or.inl (Or.inl h)

instance : IsTrans α (Better score key) where
  trans a b c := by
    rintro (hab | ⟨hab, hkab⟩) (hbc | ⟨hbc, hkbc⟩)
    · exact Or.inl (hbc.trans hab)
    · exact Or.inl (hbc ▸ hab)
    · exact Or.inl (hab ▸ hbc)
    · exact Or.inr ⟨hab.trans hbc, hkab.trans hkbc⟩

variable {score key}

theorem Better.le {a b : α} (h : Better score key a b) : score b ≤ score a :=
  h.elim le_of_lt fun heq => heq.1.ge

theorem Better.of_lt {a b : α} (h : score b < score a) : Better score key a b := Or.inl h

/-- Sorting the better scores first and taking `k` selects. -/
theorem isTopK_insertionSort (key : α → κ) (hdistinct : Distinct score l) (k : ℕ) :
    IsTopK score k l ((l.insertionSort (Better score key)).take k) := by
  have hperm := List.perm_insertionSort (Better score key) l
  refine ⟨(l.insertionSort (Better score key)).drop k, ?_, ?_, ?_⟩
  · rw [List.take_append_drop]
    exact hperm
  · rw [List.take_append_drop]
    have hne := hdistinct.of_perm hperm.symm
    exact (List.pairwise_insertionSort (Better score key) l).imp₂
      (fun a b hab hne => lt_of_le_of_ne hab.le (Ne.symm hne)) hne
  · rw [List.length_take, List.length_insertionSort]

/-- Keys that tell entries apart decide every tie. -/
theorem antisymm_better (hkey : Function.Injective key) : Std.Antisymm (Better score key) where
  antisymm a b := by
    rintro (hab | ⟨hab, hkab⟩) (hba | ⟨hba, hkba⟩)
    · exact absurd (hab.trans hba) (lt_irrefl _)
    · exact absurd hba hab.ne
    · exact absurd hab hba.ne
    · exact hkey (le_antisymm hkab hkba)

end Better

section Apart

variable (r : α → α → Prop) [DecidableRel r] [Std.Total r] [IsTrans α r] [Std.Antisymm r]
  (p : α → Bool)

/-- When the entries that satisfy `p` come before those that do not, sorting keeps the two
apart. -/
theorem insertionSort_eq_append_of_mem (l : List α)
    (hp : ∀ a ∈ l, ∀ b ∈ l, p a = true → p b = false → r a b) :
    l.insertionSort r =
      (l.filter p).insertionSort r ++ (l.filter fun a => !p a).insertionSort r := by
  refine List.Perm.eq_of_pairwise' ?_ ?_ ?_ (r := r)
  · exact List.pairwise_insertionSort r l
  · refine List.pairwise_append.mpr
      ⟨List.pairwise_insertionSort r _, List.pairwise_insertionSort r _, ?_⟩
    intro a ha b hb
    rw [List.mem_insertionSort, List.mem_filter] at ha hb
    exact hp a ha.1 b hb.1 ha.2 (by simpa using hb.2)
  · refine (List.perm_insertionSort r l).trans ?_
    refine (List.filter_append_perm p l).symm.trans ?_
    exact ((List.perm_insertionSort r _).append (List.perm_insertionSort r _)).symm

/-- When all that satisfy `p` come before all that do not, sorting keeps the two apart. -/
theorem insertionSort_eq_append (hp : ∀ a b, p a = true → p b = false → r a b) (l : List α) :
    l.insertionSort r =
      (l.filter p).insertionSort r ++ (l.filter fun a => !p a).insertionSort r :=
  insertionSort_eq_append_of_mem r p l fun a _ b _ => hp a b

/-- The first entries of a sorted list are those of its sorted front. -/
theorem take_insertionSort_of_mem (l : List α)
    (hp : ∀ a ∈ l, ∀ b ∈ l, p a = true → p b = false → r a b) {k : ℕ}
    (hk : k ≤ (l.filter p).length) :
    (l.insertionSort r).take k = ((l.filter p).insertionSort r).take k := by
  rw [insertionSort_eq_append_of_mem r p l hp]
  exact List.take_append_of_le_length (by rwa [List.length_insertionSort])

end Apart

end Selection

/-! ## Inner products -/

section Vectors

variable {R : Type} {dim : ℕ} [Field R] [LinearOrder R] [IsStrictOrderedRing R]

/-- One of the vectors is a multiple of the other. -/
def Parallel (a b : Fin dim → R) : Prop := ∃ c : R, a = c • b ∨ b = c • a

/-- A query with any two inner products, for vectors that are not parallel. -/
theorem exists_dotProduct_eq {a b : Fin dim → R} (h : ¬ Parallel a b) (x y : R) :
    ∃ q, q ⬝ᵥ a = x ∧ q ⬝ᵥ b = y := by
  have ha : a ⬝ᵥ a ≠ 0 := by
    intro hzero
    refine h ⟨0, Or.inl ?_⟩
    rw [zero_smul]
    exact dotProduct_self_eq_zero.mp hzero
  have hba : b ⬝ᵥ a = a ⬝ᵥ b := dotProduct_comm b a
  have hgram : (a ⬝ᵥ a) * (b ⬝ᵥ b) - (a ⬝ᵥ b) * (a ⬝ᵥ b) ≠ 0 := by
    intro hzero
    -- Then the part of `b` that is orthogonal to `a` has no length.
    have hpart : (a ⬝ᵥ a) • b - (a ⬝ᵥ b) • a = 0 := by
      rw [← dotProduct_self_eq_zero]
      simp only [sub_dotProduct, dotProduct_sub, smul_dotProduct, dotProduct_smul, smul_eq_mul,
        hba]
      linear_combination (a ⬝ᵥ a) * hzero
    refine h ⟨(a ⬝ᵥ a)⁻¹ * (a ⬝ᵥ b), Or.inr ?_⟩
    rw [mul_smul, ← sub_eq_zero.mp hpart, smul_smul, inv_mul_cancel₀ ha, one_smul]
  refine ⟨((a ⬝ᵥ a) * (b ⬝ᵥ b) - (a ⬝ᵥ b) * (a ⬝ᵥ b))⁻¹ •
    ((x * (b ⬝ᵥ b) - y * (a ⬝ᵥ b)) • a + (y * (a ⬝ᵥ a) - x * (a ⬝ᵥ b)) • b), ?_, ?_⟩
  · rw [smul_dotProduct, smul_eq_mul, inv_mul_eq_iff_eq_mul₀ hgram]
    simp only [add_dotProduct, smul_dotProduct, smul_eq_mul, hba]
    ring
  · rw [smul_dotProduct, smul_eq_mul, inv_mul_eq_iff_eq_mul₀ hgram]
    simp only [add_dotProduct, smul_dotProduct, smul_eq_mul]
    ring

end Vectors

end TopK
