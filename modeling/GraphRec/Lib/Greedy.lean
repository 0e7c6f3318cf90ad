import Mathlib.Data.List.MinMax
import Mathlib.Data.List.Nodup
import Mathlib.Data.List.Pairwise
import Mathlib.Data.List.Perm.Subperm
import Mathlib.Order.WithBot

/-!
# Greedy selections

A greedy selection of indices below `n` picks, again and again, the first of those that score best
among the ones it has not picked; the score may depend on what has been picked.  Main results:

* `argmax_isBest` — the first maximum over all indices, where picked ones score `⊥`, is such a pick;
* `IsGreedy.concat` — picking goes on;
* `IsGreedy.eq_of_length_eq` — a greedy selection is determined by its length;
* `isGreedy_range` — when the indices stand in the order of their scores, they are picked in order.
-/

namespace Greedy

variable {R : Type} [LinearOrder R]

/-- The first of the indices that score best and are not picked. -/
structure IsBest (score : ℕ → R) (n : ℕ) (picked : List ℕ) (best : ℕ) : Prop where
  lt : best < n
  not_mem : best ∉ picked
  first : ∀ i < n, i ∉ picked → score i < score best ∨ score i = score best ∧ best ≤ i

/-- Every pick is the best one after the picks before it. -/
def IsGreedy (score : List ℕ → ℕ → R) (n : ℕ) (picks : List ℕ) : Prop :=
  ∀ (k : ℕ) (hk : k < picks.length), IsBest (score (picks.take k)) n (picks.take k) picks[k]

/-! ## One pick -/

section Pick

variable {score : ℕ → R} {n : ℕ} {picked : List ℕ} {best best' : ℕ}

theorem IsBest.unique (h : IsBest score n picked best) (h' : IsBest score n picked best') :
    best = best' := by
  rcases h.first best' h'.lt h'.not_mem with hlt | ⟨_, hle⟩
  · rcases h'.first best h.lt h.not_mem with hlt' | ⟨heq, _⟩
    · exact absurd hlt' (lt_asymm hlt)
    · exact absurd heq hlt.ne'
  · rcases h'.first best h.lt h.not_mem with hlt' | ⟨_, hle'⟩
    · rcases h.first best' h'.lt h'.not_mem with hlt | ⟨heq, _⟩
      · exact absurd hlt (lt_asymm hlt')
      · exact absurd heq hlt'.ne'
    · exact le_antisymm hle hle'

theorem idxOf_range {i : ℕ} (hi : i < n) : (List.range n).idxOf i = i := by
  have hlength : i < (List.range n).length := by rwa [List.length_range]
  have h := List.nodup_range.idxOf_getElem i hlength
  rwa [List.getElem_range] at h

variable (score) in
/-- While something is left there is a maximum, and it is not picked. -/
theorem argmax_isBest (hleft : ∃ i < n, i ∉ picked) :
    ∃ best, (List.range n).argmax (fun i => if i ∉ picked then (score i : WithBot R) else ⊥) =
      some best ∧ IsBest score n picked best := by
  obtain ⟨i, hi, hnot⟩ := hleft
  cases hmax : (List.range n).argmax (fun i => if i ∉ picked then (score i : WithBot R) else ⊥) with
  | none =>
      rw [List.argmax_eq_none, List.range_eq_nil] at hmax
      omega
  | some best =>
      obtain ⟨hmem, hle, hfirst⟩ := List.argmax_eq_some_iff.mp hmax
      have hnotBest : best ∉ picked := by
        intro hbest
        have h := hle i (List.mem_range.mpr hi)
        rw [if_pos hnot, if_neg (not_not.mpr hbest), le_bot_iff] at h
        exact WithBot.coe_ne_bot h
      refine ⟨best, rfl, List.mem_range.mp hmem, hnotBest, fun j hj hjnot => ?_⟩
      have hj' := List.mem_range.mpr hj
      have hle := hle j hj'
      rw [if_pos hjnot, if_pos hnotBest, WithBot.coe_le_coe] at hle
      rcases hle.lt_or_eq with hlt | heq
      · exact .inl hlt
      · refine .inr ⟨heq, ?_⟩
        have h := hfirst j hj' (by rw [if_pos hjnot, if_pos hnotBest, heq])
        rwa [idxOf_range (List.mem_range.mp hmem), idxOf_range hj] at h

end Pick

/-! ## Selections -/

section Selection

variable {score : List ℕ → ℕ → R} {n : ℕ} {picks picks' : List ℕ}

theorem IsGreedy.nodup (h : IsGreedy score n picks) : picks.Nodup := by
  refine List.pairwise_iff_getElem.mpr fun i j hi hj hij heq => ?_
  refine (h j hj).not_mem ?_
  rw [← heq]
  exact List.mem_take_iff_getElem.mpr ⟨i, by omega, rfl⟩

theorem IsGreedy.lt (h : IsGreedy score n picks) {i : ℕ} (hi : i ∈ picks) : i < n := by
  obtain ⟨k, hk, rfl⟩ := List.getElem_of_mem hi
  exact (h k hk).lt

/-- While there are fewer picks than indices, some index is left. -/
theorem exists_left (picks : List ℕ) (hlength : picks.length < n) :
    ∃ i < n, i ∉ picks := by
  by_contra hnone
  have hsub : (List.range n).Subperm picks := List.nodup_range.subperm fun i hi => by
    by_contra hnot
    exact hnone ⟨i, List.mem_range.mp hi, hnot⟩
  have hle := hsub.length_le
  rw [List.length_range] at hle
  omega

theorem isGreedy_nil : IsGreedy score n [] := fun _ hk => absurd hk (Nat.not_lt_zero _)

/-- One more pick. -/
theorem IsGreedy.concat (h : IsGreedy score n picks) {best : ℕ}
    (hbest : IsBest (score picks) n picks best) : IsGreedy score n (picks ++ [best]) := by
  intro k hk
  rw [List.length_append, List.length_singleton] at hk
  rcases Nat.lt_succ_iff_lt_or_eq.mp hk with hlt | rfl
  · rw [List.take_append_of_le_length hlt.le, List.getElem_append_left hlt]
    exact h k hlt
  · simpa using hbest

/-- **Uniqueness.**  Two greedy selections of the same length are the same. -/
theorem IsGreedy.eq_of_length_eq (h : IsGreedy score n picks) (h' : IsGreedy score n picks')
    (hlength : picks.length = picks'.length) : picks = picks' := by
  have hprefix : ∀ k ≤ picks.length, picks.take k = picks'.take k := by
    intro k hk
    induction k with
    | zero => rw [List.take_zero, List.take_zero]
    | succ k ih =>
        have hlt : k < picks.length := hk
        have hlt' : k < picks'.length := hlength ▸ hlt
        have hsame := ih hlt.le
        have hpick : picks[k] = picks'[k] := by
          have hbest := h k hlt
          rw [hsame] at hbest
          exact hbest.unique (h' k hlt')
        rw [List.take_add_one, List.take_add_one, hsame, List.getElem?_eq_getElem hlt,
          List.getElem?_eq_getElem hlt', hpick]
  have hall := hprefix picks.length le_rfl
  rwa [List.take_length, hlength, List.take_length] at hall

/-- **Sorted indices.**  Picking is counting when no later index ever scores better. -/
theorem isGreedy_range {m : ℕ} (hm : m ≤ n)
    (hscore : ∀ k i, k ≤ i → i < n → score (List.range k) i ≤ score (List.range k) k) :
    IsGreedy score n (List.range m) := by
  intro k hk
  rw [List.length_range] at hk
  have htake : (List.range m).take k = List.range k := by
    rw [List.take_range, min_eq_left hk.le]
  rw [htake, List.getElem_range]
  refine ⟨by omega, by simp, fun i hi hnot => ?_⟩
  rw [List.mem_range, not_lt] at hnot
  rcases (hscore k i hnot hi).lt_or_eq with hlt | heq
  · exact .inl hlt
  · exact .inr ⟨heq, hnot⟩

end Selection

end Greedy
