import GraphRec.Lib.Dict
import Mathlib.Algebra.BigOperators.Group.List.Basic
import Mathlib.Algebra.GroupWithZero.Nat

/-!
# Counters

A table of numbers that are counted up.  The keys stand in the order in which they were first
counted, and a table may be sent to another one entry by entry.

* `value_bump`, `keys_bump` — counting up;
* `sumAt_take_le` — where a key was counted before another one and at least as often, the same
  holds of every part of the table that was sent.
-/

namespace Table

variable {κ : Type} [DecidableEq κ]

/-- The number under a key. -/
def value (t : Table κ ℕ) (k : κ) : ℕ := (t.get? k).getD 0

/-- Count up. -/
def bump (t : Table κ ℕ) (k : κ) (n : ℕ) : Table κ ℕ := t.put k (t.value k + n)

variable {t : Table κ ℕ} {a b k : κ}

@[simp] theorem value_empty (k : κ) : (empty : Table κ ℕ).value k = 0 := rfl

theorem value_bump (t : Table κ ℕ) (k : κ) (n : ℕ) (k' : κ) :
    (t.bump k n).value k' = t.value k' + if k' = k then n else 0 := by
  rw [value, bump, get?_put]
  by_cases hk : k' = k
  · rw [if_pos hk, if_pos hk, Option.getD_some, hk]
  · rw [if_neg hk, if_neg hk, Nat.add_zero, value]

/-- A new key is the last one. -/
theorem keys_bump (t : Table κ ℕ) (k : κ) (n : ℕ) : (t.bump k n).rows.map Prod.fst =
    if k ∈ t.rows.map Prod.fst then t.rows.map Prod.fst else t.rows.map Prod.fst ++ [k] := by
  unfold bump
  split
  · next hmem =>
    obtain ⟨old, hold⟩ :=
      Option.ne_none_iff_exists'.mp (mt (get?_eq_none_iff t).mp (not_not.mpr hmem))
    rw [put, insert_of_some t hold, update, updateWhere, List.map_map]
    rfl
  · next hnew => rw [rows_put ((get?_eq_none_iff t).mpr hnew), List.map_append]; rfl

/-! ## Parts of a table -/

/-- What entries count under a key. -/
def sumAt (rows : List (κ × ℕ)) (k : κ) : ℕ :=
  (rows.map fun row => if row.1 = k then row.2 else 0).sum

@[simp] theorem sumAt_nil (k : κ) : sumAt ([] : List (κ × ℕ)) k = 0 := rfl

@[simp] theorem sumAt_cons (row : κ × ℕ) (rows : List (κ × ℕ)) (k : κ) :
    sumAt (row :: rows) k = (if row.1 = k then row.2 else 0) + sumAt rows k := List.sum_cons

theorem sumAt_append (rows rows' : List (κ × ℕ)) (k : κ) :
    sumAt (rows ++ rows') k = sumAt rows k + sumAt rows' k := by
  rw [sumAt, List.map_append, List.sum_append, ← sumAt, ← sumAt]

/-- A part counts no more than all of it. -/
theorem sumAt_take_le_sumAt (rows : List (κ × ℕ)) (n : ℕ) (k : κ) :
    sumAt (rows.take n) k ≤ sumAt rows k := by
  have hsplit := sumAt_append (rows.take n) (rows.drop n) k
  rw [List.take_append_drop] at hsplit
  omega

theorem sumAt_of_notMem {rows : List (κ × ℕ)} (h : k ∉ rows.map Prod.fst) : sumAt rows k = 0 := by
  induction rows with
  | nil => rfl
  | cons row rows ih =>
    rw [List.map_cons, List.mem_cons, not_or] at h
    rw [sumAt_cons, ih h.2, if_neg fun heq => h.1 heq.symm]

/-- The entries of a table count its numbers. -/
theorem sumAt_rows (t : Table κ ℕ) (k : κ) : sumAt t.rows k = t.value k := by
  obtain ⟨rows, hnodup⟩ := t
  induction rows with
  | nil => rfl
  | cons row rows ih =>
    rw [List.map_cons, List.nodup_cons] at hnodup
    have hrest := ih hnodup.2
    rw [sumAt_cons]
    by_cases hk : row.1 = k
    · subst hk
      rw [if_pos rfl, sumAt_of_notMem hnodup.1]
      simp [value, get?]
    · rw [if_neg hk, hrest, Nat.zero_add]
      simp [value, get?, hk]

/-! ## The order of the keys -/

/-- A key comes before another one, if that is there. -/
def Precedes (ks : List κ) (a b : κ) : Prop := ∀ pre post, ks = pre ++ b :: post → a ∈ pre

omit [DecidableEq κ] in
theorem Precedes.concat {ks : List κ} (h : Precedes ks a b) (hlast : k = b → a ∈ ks) :
    Precedes (ks ++ [k]) a b := by
  intro pre post heq
  rcases List.eq_nil_or_concat post with hnil | ⟨post', last, hconcat⟩
  · subst hnil
    obtain ⟨rfl, hone⟩ := List.append_inj' heq rfl
    exact hlast (by simpa using hone)
  · subst hconcat
    have hsplit : ks ++ [k] = (pre ++ b :: post') ++ [last] := by
      rw [heq]
      simp
    obtain ⟨hks, -⟩ := List.append_inj' hsplit rfl
    exact h pre post' hks

/-- Counting up keeps the order: the earlier key is counted first. -/
theorem Precedes.bump (h : Precedes (t.rows.map Prod.fst) a b)
    (hfirst : k = b → a ∈ t.rows.map Prod.fst) (n : ℕ) :
    Precedes ((t.bump k n).rows.map Prod.fst) a b := by
  rw [keys_bump]
  split
  · exact h
  · exact h.concat hfirst

theorem mem_keys_bump (t : Table κ ℕ) (k : κ) (n : ℕ) {k' : κ} :
    k' ∈ (t.bump k n).rows.map Prod.fst ↔ k' = k ∨ k' ∈ t.rows.map Prod.fst := by
  rw [keys_bump]
  split
  · next hk => exact ⟨.inr, fun h => h.elim (fun heq => heq ▸ hk) id⟩
  · rw [List.mem_append, List.mem_singleton, or_comm]

/-- Count up entry by entry. -/
def bumpAll (t : Table κ ℕ) (rows : List (κ × ℕ)) : Table κ ℕ :=
  rows.foldl (fun t row => t.bump row.1 row.2) t

theorem value_bumpAll (t : Table κ ℕ) (rows : List (κ × ℕ)) (k : κ) :
    (t.bumpAll rows).value k = t.value k + sumAt rows k := by
  induction rows generalizing t with
  | nil => rfl
  | cons row rows ih =>
    rw [bumpAll, List.foldl_cons, ← bumpAll, ih, value_bump, sumAt_cons, Nat.add_assoc]
    simp only [eq_comm]

/-- The earlier key is there before entries count the later one. -/
theorem Precedes.bumpAll {rows : List (κ × ℕ)} (h : Precedes (t.rows.map Prod.fst) a b)
    (hfirst : b ∈ rows.map Prod.fst → a ∈ t.rows.map Prod.fst) :
    Precedes ((t.bumpAll rows).rows.map Prod.fst) a b := by
  induction rows generalizing t with
  | nil => exact h
  | cons row rows ih =>
    refine ih (h.bump ?_ row.2) ?_
    · intro hb
      exact hfirst (hb ▸ List.mem_cons_self)
    · intro hb
      exact (mem_keys_bump t row.1 row.2).mpr (.inr (hfirst (List.mem_cons_of_mem _ hb)))

/-- **Parts of a table.**  A key that comes before another one and counts as much does so in every
part that was sent. -/
theorem sumAt_take_le (horder : Precedes (t.rows.map Prod.fst) a b) (hle : t.value b ≤ t.value a)
    (n : ℕ) : sumAt (t.rows.take n) b ≤ sumAt (t.rows.take n) a := by
  by_cases hb : b ∈ (t.rows.take n).map Prod.fst
  · -- both entries are in the part
    have hkeys : (t.rows.take n).map Prod.fst ++ (t.rows.drop n).map Prod.fst =
        t.rows.map Prod.fst := by
      rw [← List.map_append, List.take_append_drop]
    obtain ⟨pre, post, hpre⟩ := List.append_of_mem hb
    have ha : a ∈ (t.rows.take n).map Prod.fst := by
      rw [hpre]
      refine List.mem_append_left _ (horder pre (post ++ (t.rows.drop n).map Prod.fst) ?_)
      rw [← hkeys, hpre, List.append_assoc, List.cons_append]
    have hwhole : ∀ k ∈ (t.rows.take n).map Prod.fst, sumAt (t.rows.take n) k = t.value k := by
      intro k hk
      have hnodup := t.nodup
      rw [← hkeys, List.nodup_append] at hnodup
      have hrest : k ∉ (t.rows.drop n).map Prod.fst := fun hmem => hnodup.2.2 k hk k hmem rfl
      have hsplit := sumAt_append (t.rows.take n) (t.rows.drop n) k
      rw [List.take_append_drop, sumAt_rows, sumAt_of_notMem hrest] at hsplit
      omega
    rw [hwhole a ha, hwhole b hb]
    exact hle
  · rw [sumAt_of_notMem hb]
    exact Nat.zero_le _

end Table
