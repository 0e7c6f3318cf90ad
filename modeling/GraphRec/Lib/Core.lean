import Mathlib.Data.List.Perm.Subperm

/-!
# Cores

Entries of a list are removed, round after round, as long as a rule that looks at the whole list
does not keep them.  If the rule is monotone (what it keeps in a list it keeps in every larger
one) the rounds end at the greatest part of the list in which every entry is kept.

* `prune`, `pruneRounds` — a round, and the loop;
* `stable_pruneRounds` — as many rounds as there are entries are enough;
* `Stable.subperm_pruneRounds` — the result is the greatest stable part;
* `pruneRounds_perm` — and so does not depend on the order of the entries.
-/

namespace Core

variable {α : Type} (keep : List α → α → Bool)

/-- One round: the entries that the rule keeps. -/
def prune (l : List α) : List α := l.filter (keep l)

/-- The loop, for at most `n` rounds; it ends with the first round that removes nothing. -/
def pruneRounds : ℕ → List α → List α
  | 0, l => l
  | n + 1, l => if (prune keep l).length = l.length then l else pruneRounds n (prune keep l)

/-- Every entry is kept. -/
def Stable (l : List α) : Prop := ∀ a ∈ l, keep l a = true

/-- What is kept in a list is kept in every larger one. -/
def Monotone : Prop := ∀ ⦃s t : List α⦄, s.Subperm t → ∀ a, keep s a = true → keep t a = true

variable {keep} {l l' s : List α} {n m : ℕ}

theorem prune_sublist (l : List α) : (prune keep l).Sublist l := List.filter_sublist

/-- A round that does not shorten the list removes nothing. -/
theorem length_prune_eq_iff : (prune keep l).length = l.length ↔ Stable keep l := by
  rw [prune, List.length_filter_eq_length_iff]
  rfl

theorem prune_of_stable (h : Stable keep l) : prune keep l = l := List.filter_eq_self.mpr h

/-- **Termination.**  As many rounds as there are entries end in a list without more to remove. -/
theorem stable_pruneRounds (h : l.length ≤ n) : Stable keep (pruneRounds keep n l) := by
  induction n generalizing l with
  | zero =>
      have hnil : l = [] := List.length_eq_zero_iff.mp (by omega)
      intro a ha
      rw [pruneRounds, hnil] at ha
      cases ha
  | succ n ih =>
      rw [pruneRounds]
      split
      · next hsame => exact length_prune_eq_iff.mp hsame
      · next hshorter =>
          have hle : (prune keep l).length ≤ l.length := (prune_sublist l).length_le
          exact ih (by omega)

theorem pruneRounds_of_stable (h : Stable keep l) : pruneRounds keep n l = l := by
  cases n with
  | zero => rfl
  | succ n => rw [pruneRounds, if_pos (length_prune_eq_iff.mpr h)]

theorem pruneRounds_sublist (n : ℕ) (l : List α) : (pruneRounds keep n l).Sublist l := by
  induction n generalizing l with
  | zero => exact .refl l
  | succ n ih =>
      rw [pruneRounds]
      split
      · exact .refl l
      · exact (ih _).trans (prune_sublist l)

/-- More rounds than there are entries change nothing. -/
theorem pruneRounds_eq (hn : l.length ≤ n) (hm : l.length ≤ m) :
    pruneRounds keep n l = pruneRounds keep m l := by
  induction n generalizing l m with
  | zero =>
      have hnil : l = [] := List.length_eq_zero_iff.mp (by omega)
      subst hnil
      exact (pruneRounds_of_stable (by intro a ha; cases ha)).symm
  | succ n ih =>
      by_cases hstable : Stable keep l
      · rw [pruneRounds_of_stable hstable, pruneRounds_of_stable hstable]
      · have hshorter := mt length_prune_eq_iff.mp hstable
        have hle : (prune keep l).length ≤ l.length := (prune_sublist l).length_le
        cases m with
        | zero => omega
        | succ m =>
            rw [pruneRounds, pruneRounds, if_neg hshorter, if_neg hshorter]
            exact ih (by omega) (by omega)

section Monotone

variable (hmono : Monotone keep)
include hmono

/-- A stable part survives a round. -/
theorem Stable.subperm_prune (hs : Stable keep s) (hsub : s.Subperm l) :
    s.Subperm (prune keep l) := by
  have hkept : s.filter (keep l) = s :=
    List.filter_eq_self.mpr fun a ha => hmono hsub a (hs a ha)
  rw [← hkept]
  exact hsub.filter (keep l)

/-- **The greatest core.**  A stable part of the list is part of what the rounds leave. -/
theorem Stable.subperm_pruneRounds (hs : Stable keep s) (hsub : s.Subperm l) (n : ℕ) :
    s.Subperm (pruneRounds keep n l) := by
  induction n generalizing l with
  | zero => exact hsub
  | succ n ih =>
      rw [pruneRounds]
      split
      · exact hsub
      · exact ih (hs.subperm_prune hmono hsub)

/-- The order of the entries does not matter. -/
theorem pruneRounds_perm (hperm : l.Perm l') (hn : l.length ≤ n) (hm : l'.length ≤ m) :
    (pruneRounds keep n l).Perm (pruneRounds keep m l') := by
  have hle : (pruneRounds keep n l).Subperm l' :=
    (pruneRounds_sublist n l).subperm.trans hperm.subperm
  have hge : (pruneRounds keep m l').Subperm l :=
    (pruneRounds_sublist m l').subperm.trans hperm.symm.subperm
  exact ((stable_pruneRounds hn).subperm_pruneRounds hmono hle m).antisymm
    ((stable_pruneRounds hm).subperm_pruneRounds hmono hge n)

end Monotone

end Core
