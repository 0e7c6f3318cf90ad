import GraphRec.Lib.Greedy
import GraphRec.Serving.Ranking
import Mathlib.Algebra.Field.Rat
import Mathlib.Algebra.Order.Ring.Rat
import Mathlib.Data.List.Induction

/-!
# Maximal marginal relevance

`mmr_order` picks greedily by relevance minus similarity to what is already picked.  It keeps the
similarities as running maxima and it returns the pool as it is when the diversity is 0, when no
item has a vector and when there is nothing to choose.

`mmrObjective` is the score as it is meant, with the maximum over all picks; `mmrLoop_isGreedy`
says that the loop selects greedily by it, and `mmrOrder_eq_loop` that the shortcuts return what
the loop would.
-/

namespace Serving

open Greedy

variable {R : Type} [Field R] [LinearOrder R]

/-! ## The objective -/

/-- The argument `vectors`: ids with their vectors, all of one dimension. -/
abbrev VectorTable (R : Type) := List (String × Option (List R))

/-- `vectors.get(item)`. -/
def VectorTable.vector (vectors : VectorTable R) (item : String) : Option (List R) :=
  (vectors.lookup item).join

/-- There is a `first` vector. -/
def VectorTable.hasVectors (vectors : VectorTable R) : Bool :=
  vectors.any fun (_, vector) => vector.isSome

/-- `relevance[i]`. -/
def relevanceAt (pool : List (Candidate R)) (i : ℕ) : R := ((pool[i]?).map Candidate.final).getD 0

/-- The similarity of two items of the pool, zero for one without a vector. -/
def similarityAt (norm : List R → R) (vectors : VectorTable R) (pool : List (Candidate R))
    (i best : ℕ) : R :=
  dot (((pool.map fun c => unitVector norm (vectors.vector c.externalId))[i]?).getD [])
    (((pool.map fun c => unitVector norm (vectors.vector c.externalId))[best]?).getD [])

/-- The largest similarity to a picked item, at least 0. -/
def maxSimilarity (similarity : ℕ → ℕ → R) (picked : List ℕ) (i : ℕ) : R :=
  (picked.map (similarity i)).foldl max 0

/-- The score of an index after some picks. -/
def mmrObjective (relevance : ℕ → R) (similarity : ℕ → ℕ → R) (diversity : R) (picked : List ℕ)
    (i : ℕ) : R :=
  (1 - diversity) * relevance i - diversity * maxSimilarity similarity picked i

/-! ## The loop -/

section Loop

variable (relevance : ℕ → R) (similarity : ℕ → ℕ → R) (diversity : R) (n : ℕ)

/-- The loop from the state that the picks so far have left: all but them are available, and the
similarities are the largest ones to them. -/
def loopAfter (rounds : ℕ) (picked : List ℕ) : List ℕ :=
  mmrLoop relevance similarity diversity n rounds (fun i => decide (i ∉ picked))
    (maxSimilarity similarity picked)

/-- `picks` of the whole loop. -/
def mmrPicks (rounds : ℕ) : List ℕ :=
  mmrLoop relevance similarity diversity n rounds (fun _ => true) fun _ => 0

variable {relevance similarity diversity n} {rounds : ℕ} {picked : List ℕ}

/-- The running maximum. -/
theorem maxSimilarity_concat (best i : ℕ) : maxSimilarity similarity (picked ++ [best]) i =
    max (maxSimilarity similarity picked i) (similarity i best) := by
  rw [maxSimilarity, List.map_append, List.foldl_append]
  rfl

theorem mmrPicks_eq_loopAfter :
    mmrPicks relevance similarity diversity n rounds =
      loopAfter relevance similarity diversity n rounds [] := by
  have havailable : (fun i : ℕ => decide (i ∉ ([] : List ℕ))) = fun _ => true := by
    funext i
    simp
  rw [loopAfter, havailable]
  rfl

variable (relevance similarity diversity rounds) in
/-- A round: the best index is picked, and the state is the one that it leaves. -/
theorem loopAfter_succ (hleft : ∃ i < n, i ∉ picked) :
    ∃ best, IsBest (mmrObjective relevance similarity diversity picked) n picked best ∧
      loopAfter relevance similarity diversity n (rounds + 1) picked =
        best :: loopAfter relevance similarity diversity n rounds (picked ++ [best]) := by
  obtain ⟨best, hmax, hbest⟩ :=
    argmax_isBest (mmrObjective relevance similarity diversity picked) hleft
  refine ⟨best, hbest, ?_⟩
  have havailable : Function.update (fun i : ℕ => decide (i ∉ picked)) best false =
      fun i => decide (i ∉ picked ++ [best]) := by
    funext i
    by_cases hi : i = best
    · subst hi
      simp
    · simp [hi]
  have hsimilar : (fun i => max (maxSimilarity similarity picked i) (similarity i best)) =
      maxSimilarity similarity (picked ++ [best]) := by
    funext i
    exact (maxSimilarity_concat best i).symm
  have hscore : (fun i : ℕ => if decide (i ∉ picked) = true then
        (((1 - diversity) * relevance i - diversity * maxSimilarity similarity picked i : R) :
          WithBot R) else ⊥) =
      fun i => if i ∉ picked then
        ((mmrObjective relevance similarity diversity picked i : R) : WithBot R) else ⊥ := by
    funext i
    simp only [decide_eq_true_eq]
    rfl
  rw [loopAfter, mmrLoop, hscore, hmax]
  dsimp only
  rw [havailable, hsimilar]
  rfl

/-- **The loop is greedy.**  Continued from a greedy selection it is one, of full length. -/
theorem loopAfter_isGreedy
    (h : IsGreedy (mmrObjective relevance similarity diversity) n picked)
    (hrounds : picked.length + rounds ≤ n) :
    IsGreedy (mmrObjective relevance similarity diversity) n
        (picked ++ loopAfter relevance similarity diversity n rounds picked) ∧
      (loopAfter relevance similarity diversity n rounds picked).length = rounds := by
  induction rounds generalizing picked with
  | zero =>
      rw [loopAfter, mmrLoop, List.append_nil]
      exact ⟨h, rfl⟩
  | succ rounds ih =>
      have hleft := exists_left (n := n) picked (by omega)
      obtain ⟨best, hbest, hloop⟩ := loopAfter_succ relevance similarity diversity rounds hleft
      have hlength : (picked ++ [best]).length + rounds ≤ n := by
        rw [List.length_append, List.length_singleton]
        omega
      obtain ⟨hgreedy, hlen⟩ := ih (h.concat hbest) hlength
      rw [hloop]
      refine ⟨?_, by rw [List.length_cons, hlen]⟩
      rwa [List.append_assoc, List.singleton_append] at hgreedy

/-- After some rounds the loop is the loop after their picks. -/
theorem loopAfter_resume (hrounds : picked.length + rounds ≤ n) {k : ℕ} (hk : k ≤ rounds) :
    loopAfter relevance similarity diversity n rounds picked =
      (loopAfter relevance similarity diversity n rounds picked).take k ++
        loopAfter relevance similarity diversity n (rounds - k)
          (picked ++ (loopAfter relevance similarity diversity n rounds picked).take k) := by
  induction k generalizing picked rounds with
  | zero => rw [List.take_zero, List.nil_append, List.append_nil, Nat.sub_zero]
  | succ k ih =>
      obtain ⟨rounds, rfl⟩ : ∃ r, rounds = r + 1 := ⟨rounds - 1, by omega⟩
      have hleft := exists_left (n := n) picked (by omega)
      obtain ⟨best, _, hloop⟩ := loopAfter_succ relevance similarity diversity rounds hleft
      have hlength : (picked ++ [best]).length + rounds ≤ n := by
        rw [List.length_append, List.length_singleton]
        omega
      have hrest := ih hlength (Nat.le_of_succ_le_succ hk)
      rw [List.append_assoc, List.singleton_append] at hrest
      rw [hloop, List.take_succ_cons, List.cons_append, Nat.succ_sub_succ, ← hrest]

end Loop

/-! ## The order -/

section Order

/-- The indices that the loop picks from a pool. -/
def poolPicks (norm : List R → R) (pool : List (Candidate R)) (vectors : VectorTable R)
    (diversity : R) (limit : ℕ) : List ℕ :=
  mmrPicks (relevanceAt pool) (similarityAt norm vectors pool) diversity pool.length
    (min limit pool.length)

variable {norm : List R → R} {pool : List (Candidate R)} {vectors : VectorTable R} {diversity : R}
  {limit : ℕ}

variable (norm pool vectors diversity limit) in
theorem poolPicks_isGreedy :
    IsGreedy (mmrObjective (relevanceAt pool) (similarityAt norm vectors pool) diversity)
        pool.length (poolPicks norm pool vectors diversity limit) ∧
      (poolPicks norm pool vectors diversity limit).length = min limit pool.length := by
  rw [poolPicks, mmrPicks_eq_loopAfter]
  have hrounds : ([] : List ℕ).length + min limit pool.length ≤ pool.length := by
    rw [List.length_nil, Nat.zero_add]
    exact min_le_right _ _
  exact loopAfter_isGreedy isGreedy_nil hrounds

/-- After `k` rounds the loop is in the state of the picks that it has made. -/
theorem poolPicks_resume {k : ℕ} (hk : k ≤ min limit pool.length) :
    poolPicks norm pool vectors diversity limit =
      (poolPicks norm pool vectors diversity limit).take k ++
        loopAfter (relevanceAt pool) (similarityAt norm vectors pool) diversity pool.length
          (min limit pool.length - k) ((poolPicks norm pool vectors diversity limit).take k) := by
  rw [poolPicks, mmrPicks_eq_loopAfter]
  have hrounds : ([] : List ℕ).length + min limit pool.length ≤ pool.length := by
    rw [List.length_nil, Nat.zero_add]
    exact min_le_right _ _
  exact loopAfter_resume hrounds hk

/-- In a sorted pool relevance does not grow with the index. -/
theorem relevanceAt_le (hsorted : pool.Pairwise fun a b => b.final ≤ a.final) {k i : ℕ}
    (hki : k ≤ i) (hi : i < pool.length) : relevanceAt pool i ≤ relevanceAt pool k := by
  have hk : k < pool.length := hki.trans_lt hi
  simp only [relevanceAt, List.getElem?_eq_getElem hi, List.getElem?_eq_getElem hk,
    Option.map_some, Option.getD_some]
  rcases hki.lt_or_eq with hlt | rfl
  · exact List.pairwise_iff_getElem.mp hsorted k i hk hi hlt
  · exact le_rfl

omit [LinearOrder R] in
@[simp] theorem dot_nil (v : List R) : dot [] v = 0 := by
  rw [dot, List.zipWith_nil_left, List.sum_nil]

variable (norm pool) in
/-- Without vectors nothing is similar. -/
theorem similarityAt_eq_zero (hnone : vectors.hasVectors = false) (i best : ℕ) :
    similarityAt norm vectors pool i best = 0 := by
  have hvector : ∀ item, vectors.vector item = none := by
    intro item
    rw [VectorTable.vector]
    cases hlookup : vectors.lookup item with
    | none => rfl
    | some vector =>
        obtain ⟨before, after, hsplit, _⟩ := List.lookup_eq_some_iff.mp hlookup
        have hall := List.any_eq_false.mp hnone (item, vector) (by rw [hsplit]; simp)
        simpa using hall
  have hunit : ((pool.map fun c => unitVector norm (vectors.vector c.externalId))[i]?).getD [] =
      [] := by
    simp only [hvector, unitVector, List.getElem?_map]
    cases pool[i]? <;> rfl
  rw [similarityAt, hunit, dot_nil]

theorem maxSimilarity_eq_zero {similarity : ℕ → ℕ → R} (h : ∀ i best, similarity i best = 0)
    (picked : List ℕ) (i : ℕ) : maxSimilarity similarity picked i = 0 := by
  induction picked using List.reverseRecOn with
  | nil => rfl
  | append_singleton picked best ih => rw [maxSimilarity_concat, ih, h, max_self]

variable [IsStrictOrderedRing R]

/-- **The shortcuts.**  Where they are taken, picking in order is greedy. -/
theorem isGreedy_range_of_shortcut (hsorted : pool.Pairwise fun a b => b.final ≤ a.final)
    (hzero : 0 ≤ diversity) (hone : diversity ≤ 1)
    (hshort : diversity ≤ 0 ∨ pool.length ≤ 1 ∨ vectors.hasVectors = false) :
    IsGreedy (mmrObjective (relevanceAt pool) (similarityAt norm vectors pool) diversity)
      pool.length (List.range (min limit pool.length)) := by
  refine isGreedy_range (min_le_right _ _) fun k i hki hi => ?_
  have hrelevance : (1 - diversity) * relevanceAt pool i ≤ (1 - diversity) * relevanceAt pool k :=
    mul_le_mul_of_nonneg_left (relevanceAt_le hsorted hki hi) (sub_nonneg.mpr hone)
  unfold mmrObjective
  rcases hshort with hle | hsmall | hnone
  · have hdiversity : diversity = 0 := le_antisymm hle hzero
    rw [hdiversity] at hrelevance ⊢
    simpa using hrelevance
  · obtain rfl : i = k := by omega
    exact le_rfl
  · have hsimilar := fun j => maxSimilarity_eq_zero
      (similarityAt_eq_zero norm pool hnone) (List.range k) j
    rw [hsimilar i, hsimilar k]
    exact sub_le_sub_right hrelevance _

omit [Field R] [LinearOrder R] [IsStrictOrderedRing R] in
theorem entries_range {m : ℕ} (hm : m ≤ pool.length) :
    (List.range m).filterMap (fun i => pool[i]?) = pool.take m := by
  induction m with
  | zero => rfl
  | succ m ih =>
      have hlt : m < pool.length := hm
      rw [List.range_succ, List.filterMap_append, ih hlt.le, List.take_add_one,
        List.filterMap_cons_some (List.getElem?_eq_getElem hlt), List.filterMap_nil,
        List.getElem?_eq_getElem hlt, Option.toList_some]

/-- **The order is the loop's**, also where a shortcut is taken. -/
theorem mmrOrder_eq_loop (hsorted : pool.Pairwise fun a b => b.final ≤ a.final)
    (hzero : 0 ≤ diversity) (hone : diversity ≤ 1) :
    mmrOrder norm pool vectors.vector vectors.hasVectors diversity limit =
      (poolPicks norm pool vectors diversity limit).filterMap fun i => pool[i]? := by
  obtain ⟨hgreedy, hlength⟩ := poolPicks_isGreedy norm pool vectors diversity limit
  by_cases hshort : diversity ≤ 0 ∨ pool.length ≤ 1 ∨ vectors.hasVectors = false
  · have hrange := hgreedy.eq_of_length_eq
      (isGreedy_range_of_shortcut hsorted hzero hone hshort)
      (by rw [hlength, List.length_range])
    rw [hrange, entries_range (min_le_right _ _), mmrOrder, if_pos hshort]
    rcases le_total limit pool.length with hle | hle
    · rw [min_eq_left hle]
    · rw [min_eq_right hle, List.take_length, List.take_of_length_le hle]
  · rw [mmrOrder, if_neg hshort]
    dsimp only
    rw [min_eq_left hone]
    rfl

variable (norm vectors) in
/-- The first item of a sorted pool is the first pick. -/
theorem head_poolPicks (hsorted : pool.Pairwise fun a b => b.final ≤ a.final)
    (hone : diversity ≤ 1) (hpos : 0 < min limit pool.length) :
    (poolPicks norm pool vectors diversity limit).head? = some 0 := by
  obtain ⟨hgreedy, hlength⟩ := poolPicks_isGreedy norm pool vectors diversity limit
  have hk : 0 < (poolPicks norm pool vectors diversity limit).length := by rwa [hlength]
  have hbest : IsBest (mmrObjective (relevanceAt pool) (similarityAt norm vectors pool)
      diversity []) pool.length [] 0 := by
    refine ⟨by omega, List.not_mem_nil, fun i hi _ => ?_⟩
    have hle : mmrObjective (relevanceAt pool) (similarityAt norm vectors pool) diversity [] i ≤
        mmrObjective (relevanceAt pool) (similarityAt norm vectors pool) diversity [] 0 :=
      sub_le_sub_right (mul_le_mul_of_nonneg_left
        (relevanceAt_le hsorted (Nat.zero_le i) hi) (sub_nonneg.mpr hone)) _
    rcases hle.lt_or_eq with hlt | heq
    · exact .inl hlt
    · exact .inr ⟨heq, Nat.zero_le i⟩
  have hfirst := hgreedy 0 hk
  rw [List.take_zero] at hfirst
  rw [List.head?_eq_getElem?, List.getElem?_eq_getElem hk, hfirst.unique hbest]

/-- **Maximal marginal relevance.**  The items returned are those at distinct places of the pool,
`min limit n` of them, the first one first; every pick is the first of the best by
`mmrObjective`; after any number of rounds the loop has the true maxima of the similarities; and
all this holds also where the loop is not run. -/
theorem mmrOrder_spec (norm : List R → R) (pool : List (Candidate R))
    (hsorted : pool.Pairwise fun a b => b.final ≤ a.final) (vectors : VectorTable R)
    (diversity : R) (hzero : 0 ≤ diversity) (hone : diversity ≤ 1) (limit : ℕ) :
    let out := mmrOrder norm pool vectors.vector vectors.hasVectors diversity limit
    let picks := poolPicks norm pool vectors diversity limit
    out = picks.filterMap (fun i => pool[i]?) ∧
      out.length = min limit pool.length ∧
      picks.length = min limit pool.length ∧
      picks.Nodup ∧
      (∀ i ∈ picks, i < pool.length) ∧
      out.head? = (if limit = 0 then none else pool.head?) ∧
      (∀ (k : ℕ) (hk : k < picks.length),
        IsBest (mmrObjective (relevanceAt pool) (similarityAt norm vectors pool) diversity
          (picks.take k)) pool.length (picks.take k) picks[k]) ∧
      ∀ k ≤ min limit pool.length, picks = picks.take k ++
        mmrLoop (relevanceAt pool) (similarityAt norm vectors pool) diversity pool.length
          (min limit pool.length - k) (fun i => decide (i ∉ picks.take k))
          (maxSimilarity (similarityAt norm vectors pool) (picks.take k)) := by
  intro out picks
  obtain ⟨hgreedy, hlength⟩ := poolPicks_isGreedy norm pool vectors diversity limit
  have hout : out = picks.filterMap fun i => pool[i]? := mmrOrder_eq_loop hsorted hzero hone
  have houtLength : out.length = picks.length := by
    rw [hout, List.length_filterMap_eq_countP, List.countP_eq_length]
    intro i hi
    rw [List.getElem?_eq_getElem (hgreedy.lt hi)]
    rfl
  refine ⟨hout, houtLength.trans hlength, hlength, hgreedy.nodup, fun i hi => hgreedy.lt hi, ?_,
    hgreedy, fun k hk => poolPicks_resume hk⟩
  by_cases hpos : 0 < min limit pool.length
  · have hhead := head_poolPicks norm vectors hsorted hone hpos
    obtain ⟨rest, hpicks⟩ := List.head?_eq_some_iff.mp hhead
    have hzeroPool : 0 < pool.length := hpos.trans_le (min_le_right _ _)
    have hlimit : limit ≠ 0 := by
      rintro rfl
      simp at hpos
    have hpicks : picks = 0 :: rest := hpicks
    rw [hout, hpicks, if_neg hlimit,
      List.filterMap_cons_some (List.getElem?_eq_getElem hzeroPool), List.head?_cons,
      List.head?_eq_getElem?, List.getElem?_eq_getElem hzeroPool]
  · have hnil : out = [] := by
      have hnone : out.length = min limit pool.length := houtLength.trans hlength
      exact List.length_eq_zero_iff.mp (by omega)
    rw [hnil]
    by_cases hlimit : limit = 0
    · rw [if_pos hlimit, List.head?_nil]
    · have hempty : pool = [] := List.length_eq_zero_iff.mp (by omega)
      rw [if_neg hlimit, hempty]

end Order

/-! ## Two alike -/

def smallPool : List (Candidate ℚ) :=
  [{ Candidate.new "a" with final := 9 / 10 }, { Candidate.new "b" with final := 8 / 10 },
    { Candidate.new "c" with final := 5 / 10 }]

def smallVectors : VectorTable ℚ := [("a", some [1, 0]), ("b", some [1, 0]), ("c", none)]

/-- The second item is too similar to the first, and the third is picked. -/
theorem mmrOrder_spec_small :
    (smallPool.Pairwise fun a b => b.final ≤ a.final) ∧
      ids (mmrOrder List.sum smallPool smallVectors.vector smallVectors.hasVectors (1 / 2) 2) =
        ["a", "c"] := by
  have hsorted : smallPool.Pairwise fun a b => b.final ≤ a.final := by decide +kernel
  obtain ⟨hout, _⟩ := mmrOrder_spec List.sum smallPool hsorted smallVectors (1 / 2)
    (by decide +kernel) (by decide +kernel) 2
  refine ⟨hsorted, ?_⟩
  rw [hout]
  decide +kernel

end Serving
