import GraphRec.Lib.Extended
import GraphRec.Serving.VectorIndex
import Mathlib.Algebra.Order.Group.Unbundled.Basic
import Mathlib.Data.Int.Notation
import Mathlib.Data.Rat.Defs

/-!
# The Top-K shortcut

The artifact's `top_k` sorts all scores; `fast_top_k` of the pipeline selects partially, takes the
smallest selected score as a threshold and sorts only what passes it.  Scores are `Extended`: masked
items score minus infinity, and a score may be NaN.  `argpartition` of the array library is a
parameter of which only its promise is used.

`fastTopK_eq` — both give the same indices, unless a score is plus infinity, which `top_k` counts as
missing but sorts first.
-/

namespace Serving

open Extended TopK

variable {R : Type} [AddCommGroup R] [LinearOrder R]

/-- The indices that `top_k` of the artifact returns the items of. -/
def topKIndices (n : ℕ) (scores : ℕ → Extended R) (k : ℤ) : List ℕ :=
  let finite := (List.range n).countP fun i => (scores i).isFinite
  let count := min k (finite : ℤ)
  if count ≤ 0 then []
  else ((List.range n).insertionSort (LexLe fun i => (scores i).neg)).take count.toNat

/-- `top_k`. -/
def topK (itemIds : ℕ → String) (n : ℕ) (scores : ℕ → Extended R) (k : ℤ) :
    List (String × Extended R) :=
  (topKIndices n scores k).map fun i => (itemIds i, scores i)

/-- The candidates of `fast_top_k`. -/
def candidates (argpartition : (ℕ → Extended R) → ℕ → ℕ → List ℕ) (n : ℕ)
    (scores : ℕ → Extended R) (k : ℕ) : List ℕ :=
  if k < n then
    (argpartition (fun i => (if (scores i).isFinite then scores i else .negInf).neg) n
      (k - 1)).take k
  else List.range n

/-- `fast_top_k`. -/
def fastTopK (argpartition : (ℕ → Extended R) → ℕ → ℕ → List ℕ) (n : ℕ)
    (scores : ℕ → Extended R) (k : ℤ) : List ℕ :=
  let finite := fun i => (scores i).isFinite
  let k := min k ((List.range n).countP finite : ℤ)
  if k ≤ 0 then []
  else
    let k := k.toNat
    let threshold := minimum ((candidates argpartition n scores k).map scores)
    let pool := (List.range n).filter fun i => finite i && (scores i).ge threshold
    (pool.insertionSort (LexLe fun i => (scores i).neg)).take k

/-- Negated scores sort the other way round. -/
theorem key_neg_ofBot [IsOrderedAddMonoid R] {x y : WithBot R} :
    (ofBot y).neg.key < (ofBot x).neg.key ↔ x < y := by
  induction x using WithBot.recBotCoe with
  | bot => induction y using WithBot.recBotCoe <;> simp [ofBot, neg, key]
  | coe x => induction y using WithBot.recBotCoe <;> simp [ofBot, neg, key]

section Artifact

variable {R : Type} [Field R] [LinearOrder R] [IsStrictOrderedRing R] {dim : ℕ}

/-- The `top_k` of the vector index, whose scores are numbers or minus infinity, is this one. -/
theorem artifact_topK_eq (artifact : VectorIndex.Artifact R dim)
    (scores : Fin artifact.numItems → WithBot R) (k : ℕ) :
    ∃ out : List (Fin artifact.numItems),
      artifact.topK scores k = out.map (fun i => (artifact.itemIds i, scores i)) ∧
      topKIndices artifact.numItems (fun i => if h : i < artifact.numItems then
        ofBot (scores ⟨i, h⟩) else .nan) k = out.map Fin.val := by
  refine ⟨_, rfl, ?_⟩
  set extended : ℕ → Extended R := fun i =>
    if h : i < artifact.numItems then ofBot (scores ⟨i, h⟩) else .nan with hextended
  have hat : ∀ i : Fin artifact.numItems, extended i = ofBot (scores i) := by
    intro i
    rw [hextended]
    simp
  have hrange : List.range artifact.numItems = artifact.indices.map Fin.val := by
    refine List.ext_getElem (by simp [VectorIndex.Artifact.indices]) fun i hi _ => ?_
    simp [VectorIndex.Artifact.indices]
  have hcount : (List.range artifact.numItems).countP (fun i => (extended i).isFinite) =
      artifact.indices.countP fun i => scores i ≠ ⊥ := by
    rw [hrange, List.countP_map]
    refine List.countP_congr fun i _ => ?_
    simp [hat]
  have hsort : (List.range artifact.numItems).insertionSort (LexLe fun i => (extended i).neg) =
      (artifact.indices.insertionSort (Better scores id)).map Fin.val := by
    rw [hrange]
    refine (List.map_insertionSort _ _ _ _ fun i _ j _ => ?_).symm
    have heq : scores i = scores j ↔
        (extended i).neg.key = (extended j).neg.key := by
      rw [hat, hat, le_antisymm_iff, le_antisymm_iff, ← not_lt, ← not_lt, ← not_lt, ← not_lt,
        key_neg_ofBot, key_neg_ofBot]
      exact and_comm
    simp only [Better, LexLe, OrderDual.toDual_lt_toDual, OrderDual.toDual_inj, id_eq, heq]
    rw [hat, hat, key_neg_ofBot, Fin.le_def]
  unfold topKIndices
  dsimp only
  rw [hcount, hsort]
  split
  · next hzero =>
      have hnone : min k (artifact.indices.countP fun i => scores i ≠ ⊥) = 0 := by omega
      rw [hnone, List.take_zero, List.map_nil]
  · have htake : (min (k : ℤ) ((artifact.indices.countP fun i => scores i ≠ ⊥ : ℕ) : ℤ)).toNat =
        min k (artifact.indices.countP fun i => scores i ≠ ⊥) := by omega
    rw [htake, List.map_take]

end Artifact

section Candidates

variable {argpartition : (ℕ → Extended R) → ℕ → ℕ → List ℕ} {n k : ℕ} {scores : ℕ → Extended R}

/-- The candidates are as many different indices as are wanted, with finite scores. -/
theorem candidates_spec (h : IsArgpartition argpartition) (hpos : 0 < k)
    (hk : k ≤ (List.range n).countP fun i => (scores i).isFinite) :
    (candidates argpartition n scores k).Nodup ∧ (candidates argpartition n scores k).length = k ∧
      ∀ c ∈ candidates argpartition n scores k, c < n ∧ (scores c).isFinite = true := by
  have hkn : k ≤ n := by
    have hle := List.countP_le_length (p := fun i => (scores i).isFinite) (l := List.range n)
    rw [List.length_range] at hle
    exact hk.trans hle
  unfold candidates
  split
  · next hlt =>
      have hperm := h.perm
        (fun i => (if (scores i).isFinite then scores i else .negInf).neg) n (k - 1) (by omega)
      refine ⟨(hperm.nodup_iff.mpr List.nodup_range).sublist (List.take_sublist _ _), ?_, ?_⟩
      · rw [List.length_take, hperm.length_eq, List.length_range]
        omega
      · intro c hc
        exact ⟨List.mem_range.mp (hperm.subset (List.mem_of_mem_take hc)),
          finite_of_mem_argpartition h hpos hlt hk hc⟩
  · next hge =>
      have hall : (List.range n).countP (fun i => (scores i).isFinite) = (List.range n).length := by
        refine le_antisymm List.countP_le_length ?_
        rw [List.length_range]
        omega
      refine ⟨List.nodup_range, by rw [List.length_range]; omega, fun c hc => ?_⟩
      exact ⟨List.mem_range.mp hc, List.countP_eq_length.mp hall c hc⟩

variable [IsOrderedAddMonoid R]

/-- What passes a threshold is sorted before what does not. -/
theorem lexLe_of_threshold (hfinite : ∀ i < n, scores i ≠ .posInf) {t : R} {a b : ℕ} (hb : b < n)
    (hpass : ((scores a).isFinite && (scores a).ge (.finite t)) = true)
    (hfail : ((scores b).isFinite && (scores b).ge (.finite t)) = false) :
    LexLe (fun i => (scores i).neg) a b := by
  rw [Bool.and_eq_true] at hpass
  obtain ⟨x, hx⟩ := isFinite_iff.mp hpass.1
  have hxt : t ≤ x := by simpa [hx] using hpass.2
  refine Better.of_lt (OrderDual.toDual_lt_toDual.mpr ?_)
  dsimp only
  rw [hx]
  cases hb' : scores b with
  | finite y =>
      have hyt : y < t := by simpa [hb', isFinite] using hfail
      exact key_finite_lt.mpr (neg_lt_neg (hyt.trans_le hxt))
  | posInf => exact absurd hb' (hfinite b hb)
  | negInf => exact key_finite_lt_of_not rfl (by simp [neg])
  | nan => exact key_finite_lt_of_not rfl (by simp [neg])

/-- **The shortcut is exact**, for any number of wanted entries. -/
theorem fastTopK_eq_topKIndices (h : IsArgpartition argpartition)
    (hfinite : ∀ i < n, scores i ≠ .posInf) (k : ℤ) :
    fastTopK argpartition n scores k = topKIndices n scores k := by
  unfold fastTopK topKIndices
  extract_lets finite count m threshold pool
  split
  · rfl
  · next hpos =>
      have hm : m = count.toNat := rfl
      have hmpos : 0 < m := by omega
      have hm' : m ≤ (List.range n).countP fun i => (scores i).isFinite := by
        have hle : count ≤ ((List.range n).countP finite : ℤ) := min_le_right _ _
        have hsame : (List.range n).countP finite =
            (List.range n).countP fun i => (scores i).isFinite := rfl
        omega
      obtain ⟨hnodup, hlength, hmem⟩ := candidates_spec h hmpos hm'
      have hvalues : ∀ a ∈ (candidates argpartition n scores m).map scores,
          a.isFinite = true := by
        intro a ha
        obtain ⟨c, hc, rfl⟩ := List.mem_map.mp ha
        exact (hmem c hc).2
      have hsome : (candidates argpartition n scores m).map scores ≠ [] := by
        rw [ne_eq, List.map_eq_nil_iff, ← List.length_eq_zero_iff]
        omega
      obtain ⟨t, ht, hle⟩ := minimum_finite hvalues hsome
      have hpool : pool = (List.range n).filter fun i => finite i && (scores i).ge (.finite t) := by
        rw [← ht]
      rw [hpool]
      have hanti : Std.Antisymm (LexLe fun i => (scores i).neg) :=
        antisymm_better Function.injective_id
      refine (take_insertionSort_of_mem _ (fun i => finite i && (scores i).ge (.finite t)) _ ?_
        ?_).symm
      · intro a _ b hb hpass hfail
        exact lexLe_of_threshold hfinite (List.mem_range.mp hb) hpass hfail
      · -- All candidates pass the threshold.
        rw [← hlength]
        refine (hnodup.subperm fun c hc => ?_).length_le
        obtain ⟨hlt, hc'⟩ := hmem c hc
        obtain ⟨x, hx⟩ := isFinite_iff.mp hc'
        refine List.mem_filter.mpr ⟨List.mem_range.mpr hlt, ?_⟩
        have hxt : t ≤ x := hle x (hx ▸ List.mem_map_of_mem hc)
        simp [finite, hx, isFinite, hxt]

/-- With scores that are finite exactly on `p`, the best of those indices are returned. -/
theorem topKIndices_masked (n : ℕ) (p : ℕ → Bool) (x : ℕ → R) (k : ℕ) :
    topKIndices n (fun i => if p i then .finite (x i) else .negInf) k =
      (((List.range n).filter p).insertionSort (Better x id)).take k := by
  have hisFinite : (fun i => (if p i then .finite (x i) else .negInf : Extended R).isFinite) = p := by
    funext i
    by_cases hp : p i = true <;> simp [hp, isFinite]
  unfold topKIndices
  dsimp only
  rw [hisFinite, List.countP_eq_length_filter]
  have hanti : Std.Antisymm (LexLe fun i =>
      (if p i then .finite (x i) else .negInf : Extended R).neg) :=
    antisymm_better Function.injective_id
  -- Among the finite scores both orders agree.
  have hsort : ((List.range n).filter p).insertionSort
      (LexLe fun i => (if p i then .finite (x i) else .negInf : Extended R).neg) =
      ((List.range n).filter p).insertionSort (Better x id) := by
    have hmap := List.map_insertionSort (r := LexLe fun i =>
      (if p i then .finite (x i) else .negInf : Extended R).neg) (s := Better x id) id
      ((List.range n).filter p) (by
        intro a ha b hb
        have hpa := (List.mem_filter.mp ha).2
        have hpb := (List.mem_filter.mp hb).2
        simp [LexLe, Better, hpa, hpb, neg, key])
    simpa using hmap
  have hapart : ∀ a ∈ List.range n, ∀ b ∈ List.range n, p a = true → p b = false →
      LexLe (fun i => (if p i then .finite (x i) else .negInf : Extended R).neg) a b := by
    intro a _ b _ ha hb
    refine Better.of_lt (OrderDual.toDual_lt_toDual.mpr ?_)
    simp [ha, hb, neg, key]
  split
  · next hzero =>
      have hnone : min k ((List.range n).filter p).length = 0 := by omega
      rw [List.take_eq_take_min, List.length_insertionSort, hnone, List.take_zero]
  · have hcount : (min (k : ℤ) (((List.range n).filter p).length : ℤ)).toNat =
        min k ((List.range n).filter p).length := by omega
    rw [hcount, take_insertionSort_of_mem _ p _ hapart (min_le_right _ _), hsort]
    conv_rhs => rw [List.take_eq_take_min, List.length_insertionSort]

/-- **The Top-K shortcut equals the plain one.**  For every score vector without plus infinities
and every `k`, `fast_top_k` gives the indices of `top_k`, in its order. -/
theorem fastTopK_eq (argpartition : (ℕ → Extended R) → ℕ → ℕ → List ℕ)
    (hargpartition : IsArgpartition argpartition) (n : ℕ) (scores : ℕ → Extended R)
    (hscores : ∀ i < n, scores i ≠ .posInf) (k : ℤ) :
    fastTopK argpartition n scores k = topKIndices n scores k ∧
      ∀ itemIds : ℕ → String, topK itemIds n scores k =
        (fastTopK argpartition n scores k).map fun i => (itemIds i, scores i) := by
  have heq := fastTopK_eq_topKIndices hargpartition hscores k
  refine ⟨heq, fun itemIds => ?_⟩
  rw [heq, topK]

/-- A tie at the cut, a masked item and a NaN. -/
theorem fastTopK_eq_tie :
    fastTopK argsort 6
        (fun i => [.finite (1 : ℤ), .nan, .finite 3, .negInf, .finite 3, .finite 3].getD i .nan) 2 =
      [2, 4] := by
  obtain ⟨heq, _⟩ := fastTopK_eq argsort isArgpartition_argsort 6
    (fun i => [.finite (1 : ℤ), .nan, .finite 3, .negInf, .finite 3, .finite 3].getD i .nan)
    (by decide) 2
  rw [heq]
  decide +kernel

end Candidates

end Serving
