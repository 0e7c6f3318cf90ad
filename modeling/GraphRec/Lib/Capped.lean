import Mathlib.Data.List.Induction
import Mathlib.Data.List.Nodup
import Mathlib.Data.List.Pairwise

/-!
# A cap on the entries with a key

Some entries of a list have a key.  `kept` are the entries without a key and, for every key, the
first `cap` entries with it; `deferred` are the others.  A greedy pass that counts what it has kept
decides by `hasPlace` over the kept entries, which is the same as over all entries before
(`hasPlace_kept`).  Main results:

* `kept_concat`, `deferred_concat` — what one more entry does;
* `countP_kept` — how many entries with a key are kept;
* `kept_append_deferred_perm` — nothing is lost.
-/

namespace Capped

variable {α κ : Type} [DecidableEq α] [DecidableEq κ]

/-- After some entries there is a place for one more: it has no key, or fewer than `cap` entries
have its key. -/
def hasPlace (key : α → Option κ) (cap : ℕ) (before : List α) (a : α) : Bool :=
  match key a with
  | none => true
  | some k => decide (before.countP (fun b => decide (key b = some k)) < cap)

/-- There is a place for an entry of a list after the entries before it. -/
def within (key : α → Option κ) (cap : ℕ) (l : List α) (a : α) : Bool :=
  hasPlace key cap (l.takeWhile fun b => decide (b ≠ a)) a

def kept (key : α → Option κ) (cap : ℕ) (l : List α) : List α := l.filter (within key cap l)

def deferred (key : α → Option κ) (cap : ℕ) (l : List α) : List α :=
  l.filter fun a => !within key cap l a

variable {key : α → Option κ} {cap : ℕ} {l l' : List α} {a : α}

/-! ## Prefixes -/

theorem takeWhile_ne_of_not_mem (h : a ∉ l) :
    (l ++ a :: l').takeWhile (fun b => decide (b ≠ a)) = l := by
  rw [List.takeWhile_append_of_pos, List.takeWhile_cons_of_neg (by simp), List.append_nil]
  intro b hb
  exact decide_eq_true fun heq => h (heq ▸ hb)

/-- What comes after an entry does not matter to it. -/
theorem within_append_of_mem (h : a ∈ l) :
    within key cap (l ++ l') a = within key cap l a := by
  obtain ⟨before, after, rfl, hnot⟩ := List.eq_append_cons_of_mem h
  rw [within, within, List.append_assoc, List.cons_append, takeWhile_ne_of_not_mem hnot,
    takeWhile_ne_of_not_mem hnot]

/-- What is kept of the first entries is kept first. -/
theorem kept_append : kept key cap (l ++ l') =
    kept key cap l ++ l'.filter (within key cap (l ++ l')) := by
  rw [kept, List.filter_append, kept]
  congr 1
  exact List.filter_congr fun a ha => within_append_of_mem ha

theorem deferred_append : deferred key cap (l ++ l') =
    deferred key cap l ++ l'.filter fun a => !within key cap (l ++ l') a := by
  rw [deferred, List.filter_append, deferred]
  congr 1
  exact List.filter_congr fun a ha => by rw [within_append_of_mem ha]

theorem within_concat (h : a ∉ l) : within key cap (l ++ [a]) a = hasPlace key cap l a := by
  rw [within, takeWhile_ne_of_not_mem h]

variable (key cap) in
/-- One more entry is kept where it has a place. -/
theorem kept_concat (h : a ∉ l) : kept key cap (l ++ [a]) =
    if hasPlace key cap l a then kept key cap l ++ [a] else kept key cap l := by
  rw [kept_append, List.filter_singleton, within_concat h]
  cases hasPlace key cap l a
  · simp
  · simp

variable (key cap) in
/-- Elsewhere it is deferred. -/
theorem deferred_concat (h : a ∉ l) : deferred key cap (l ++ [a]) =
    if hasPlace key cap l a then deferred key cap l else deferred key cap l ++ [a] := by
  rw [deferred_append, List.filter_singleton, within_concat h]
  cases hasPlace key cap l a
  · simp
  · simp

/-! ## Counting -/

/-- **How many are kept.**  Of the entries with a key, as many as there are up to the cap. -/
theorem countP_kept (hnodup : l.Nodup) (k : κ) :
    (kept key cap l).countP (fun b => decide (key b = some k)) =
      min cap (l.countP fun b => decide (key b = some k)) := by
  induction l using List.reverseRecOn with
  | nil => simp [kept]
  | append_singleton l a ih =>
      have hnot : a ∉ l := fun ha => (List.nodup_append.mp hnodup).2.2 a ha a (by simp) rfl
      have hcount := ih (List.nodup_append.mp hnodup).1
      have hentry : [a].countP (fun b => decide (key b = some k)) =
          if key a = some k then 1 else 0 := by
        simp [List.countP_singleton]
      rw [kept_concat key cap hnot, List.countP_append, hentry]
      by_cases hkey : key a = some k
      · have hplace : hasPlace key cap l a =
            decide (l.countP (fun b => decide (key b = some k)) < cap) := by
          rw [hasPlace, hkey]
        rw [hplace, if_pos hkey]
        split
        · next hlt =>
            have hlt := of_decide_eq_true hlt
            rw [List.countP_append, hentry, if_pos hkey, hcount]
            omega
        · next hfull =>
            have hfull : ¬ l.countP (fun b => decide (key b = some k)) < cap := fun hlt =>
              hfull (decide_eq_true hlt)
            rw [hcount]
            omega
      · rw [if_neg hkey, Nat.add_zero, ← hcount]
        split
        · rw [List.countP_append, hentry, if_neg hkey, Nat.add_zero]
        · rfl

/-- The entries kept decide like all entries. -/
theorem hasPlace_kept (hnodup : l.Nodup) (a : α) :
    hasPlace key cap (kept key cap l) a = hasPlace key cap l a := by
  unfold hasPlace
  cases key a with
  | none => rfl
  | some k =>
      dsimp only
      rw [countP_kept hnodup, decide_eq_decide]
      omega

/-- **Nothing is lost.** -/
theorem kept_append_deferred_perm : (kept key cap l ++ deferred key cap l).Perm l :=
  List.filter_append_perm _ _

end Capped
