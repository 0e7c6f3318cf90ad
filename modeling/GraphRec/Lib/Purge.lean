import Mathlib.Order.Monotone.Defs
import Mathlib.Data.Nat.Find
import Mathlib.Data.List.Basic

/-!
# Purging a table in batches

Rows that are due are deleted a batch at a time, until a batch is not full.  Which of the due
rows a batch takes is up to the scan, and the clock goes on between two batches, so that more
rows may be due to the later one.  The database refuses a batch with a row that something else
still refers to, and the purge ends there.

* `split`, `purge` — one batch, and the loop over batches;
* `endsAt` — which batch is the last, read off the rows and the clock alone;
* `purge_done`, `purge_refused` — the purge deletes exactly the rows that are due to the last
  batch, or one of these is referred to and the purge is refused.
-/

namespace Purge

/-- What the purge meets: the clock at each batch, which does not go back, and the order in
which the scan of each batch comes across the rows. -/
structure Passes (τ : Type) [Preorder τ] where
  now : ℕ → τ
  later : Monotone now
  scan : ∀ {α : Type}, ℕ → List α → List α
  perm : ∀ {α : Type} (n : ℕ) (rows : List α), (scan n rows).Perm rows

section Batch

variable {α : Type} (due : α → Bool)

/-- The first `limit` rows that are due, and all other rows. -/
def split : ℕ → List α → List α × List α
  | _, [] => ([], [])
  | limit, a :: rows =>
    if due a = true ∧ 0 < limit then
      (a :: (split (limit - 1) rows).1, (split (limit - 1) rows).2)
    else ((split limit rows).1, a :: (split limit rows).2)

theorem split_perm (limit : ℕ) (rows : List α) :
    ((split due limit rows).1 ++ (split due limit rows).2).Perm rows := by
  induction rows generalizing limit with
  | nil => exact .refl _
  | cons a rows ih =>
    unfold split
    split
    · exact (ih _).cons a
    · exact List.perm_middle.trans ((ih limit).cons a)

theorem due_of_mem_split {limit : ℕ} {rows : List α} {a : α} (h : a ∈ (split due limit rows).1) :
    due a = true := by
  induction rows generalizing limit with
  | nil => cases h
  | cons b rows ih =>
    unfold split at h
    split at h
    next htake =>
      rcases List.mem_cons.mp h with rfl | h
      · exact htake.1
      · exact ih h
    next => exact ih h

/-- A batch takes what is due, up to its size. -/
theorem length_split (limit : ℕ) (rows : List α) :
    (split due limit rows).1.length = min limit (rows.countP due) := by
  induction rows generalizing limit with
  | nil => simp [split]
  | cons a rows ih =>
    unfold split
    split
    next htake =>
      rw [List.length_cons, ih, List.countP_cons_of_pos htake.1]
      omega
    next hleave =>
      rw [ih]
      by_cases hdue : due a = true
      · have : limit = 0 := by
          by_contra hpos
          exact hleave ⟨hdue, Nat.pos_of_ne_zero hpos⟩
        omega
      · rw [List.countP_cons_of_neg hdue]

end Batch

section Loop

variable {α τ : Type} [Preorder τ] (passes : Passes τ) (limit : ℕ) (due : τ → α → Bool)

/-- The `n`-th batch: what it deletes and what it leaves. -/
def batch (n : ℕ) (rows : List α) : List α × List α :=
  split (due (passes.now n)) limit (passes.scan n rows)

theorem batch_perm (n : ℕ) (rows : List α) :
    ((batch passes limit due n rows).1 ++ (batch passes limit due n rows).2).Perm rows :=
  (split_perm _ _ _).trans (passes.perm n rows)

theorem length_batch (n : ℕ) (rows : List α) :
    (batch passes limit due n rows).1.length = min limit (rows.countP (due (passes.now n))) := by
  rw [batch, length_split, (passes.perm n rows).countP_eq]

/-- The loop over batches, from the `n`-th on: the rows deleted, the number of the next batch
and the rows left; `none` when a batch is refused. -/
def purge (hlimit : 0 < limit) (refused : α → Bool) (n : ℕ) (rows : List α) :
    Option (List α × ℕ × List α) :=
  if (batch passes limit due n rows).1.any refused then none
  else if hfull : (batch passes limit due n rows).1.length < limit then
    some ((batch passes limit due n rows).1, n + 1, (batch passes limit due n rows).2)
  else
    (purge hlimit refused (n + 1) (batch passes limit due n rows).2).map
      fun (deleted, next, kept) => ((batch passes limit due n rows).1 ++ deleted, next, kept)
termination_by rows.length
decreasing_by
  have hlength := (batch_perm passes limit due n rows).length_eq
  rw [List.length_append] at hlength
  omega

/-- The first batch after which fewer rows than a full batch can be due. -/
theorem exists_last (hlimit : 0 < limit) (n : ℕ) (rows : List α) :
    ∃ k, rows.countP (due (passes.now (n + k))) < limit * (k + 1) := by
  refine ⟨rows.length, Nat.lt_of_le_of_lt List.countP_le_length ?_⟩
  exact Nat.le_mul_of_pos_left _ hlimit

/-- The number of the last batch, from the `n`-th on: batches are full until the rows that are
due do not fill as many. -/
def endsAt (hlimit : 0 < limit) (n : ℕ) (rows : List α) : ℕ :=
  n + Nat.find (exists_last passes limit due hlimit n rows)

variable {passes limit due} (hlimit : 0 < limit) {n : ℕ} {rows : List α}

/-! ## Which batch is the last -/

/-- A batch that is not full leaves nothing that is due. -/
theorem countP_kept_of_lt (h : (batch passes limit due n rows).1.length < limit) :
    (batch passes limit due n rows).2.countP (due (passes.now n)) = 0 := by
  have hcount := (batch_perm passes limit due n rows).countP_eq (due (passes.now n))
  have hdeleted : (batch passes limit due n rows).1.countP (due (passes.now n))
      = (batch passes limit due n rows).1.length :=
    List.countP_eq_length.mpr fun _ => due_of_mem_split _
  rw [List.countP_append, hdeleted, length_batch] at hcount
  rw [length_batch] at h
  omega

/-- A batch that is not full is the last. -/
theorem endsAt_of_lt (h : (batch passes limit due n rows).1.length < limit) :
    endsAt passes limit due hlimit n rows = n := by
  have hfind : Nat.find (exists_last passes limit due hlimit n rows) = 0 := by
    rw [Nat.find_eq_zero, Nat.add_zero]
    rw [length_batch] at h
    omega
  rw [endsAt, hfind, Nat.add_zero]

variable (hkeep : ∀ a t t', t ≤ t' → due t a = true → due t' a = true)

include hkeep in
/-- What a full batch deleted would have been due to every later batch as well. -/
theorem countP_kept_of_full (h : ¬ (batch passes limit due n rows).1.length < limit) {m : ℕ}
    (hm : n ≤ m) :
    rows.countP (due (passes.now m))
      = limit + (batch passes limit due n rows).2.countP (due (passes.now m)) := by
  have hdeleted : (batch passes limit due n rows).1.countP (due (passes.now m))
      = (batch passes limit due n rows).1.length :=
    List.countP_eq_length.mpr fun a ha =>
      hkeep a _ _ (passes.later hm) (due_of_mem_split _ ha)
  have hfull : (batch passes limit due n rows).1.length = limit := by
    rw [length_batch] at h ⊢
    omega
  rw [← (batch_perm passes limit due n rows).countP_eq, List.countP_append, hdeleted, hfull]

include hkeep in
/-- After a full batch the count starts again with the rows it left. -/
theorem endsAt_of_full (h : ¬ (batch passes limit due n rows).1.length < limit) :
    endsAt passes limit due hlimit n rows
      = endsAt passes limit due hlimit (n + 1) (batch passes limit due n rows).2 := by
  have hstep (k : ℕ) : rows.countP (due (passes.now (n + (k + 1)))) < limit * (k + 1 + 1)
      ↔ (batch passes limit due n rows).2.countP (due (passes.now (n + 1 + k)))
          < limit * (k + 1) := by
    have hindex : n + (k + 1) = n + 1 + k := by omega
    rw [countP_kept_of_full hkeep h (show n ≤ n + (k + 1) by omega), hindex,
      Nat.mul_succ limit (k + 1)]
    omega
  have hfirst : ¬ rows.countP (due (passes.now (n + 0))) < limit * (0 + 1) := by
    rw [length_batch] at h
    rw [Nat.add_zero, Nat.zero_add, Nat.mul_one]
    omega
  have hfind : Nat.find (exists_last passes limit due hlimit n rows)
      = Nat.find (exists_last passes limit due hlimit (n + 1)
          (batch passes limit due n rows).2) + 1 := by
    rw [Nat.find_eq_iff]
    refine ⟨(hstep _).mpr (Nat.find_spec (exists_last passes limit due hlimit (n + 1) _)), ?_⟩
    intro k hk
    cases k with
    | zero => exact hfirst
    | succ k =>
      rw [hstep]
      exact Nat.find_min (exists_last passes limit due hlimit (n + 1) _) (by omega)
  rw [endsAt, endsAt, hfind]
  omega

theorem le_endsAt : n ≤ endsAt passes limit due hlimit n rows := Nat.le_add_right _ _

/-! ## What is deleted -/

/-- The rows that are due to the last batch. -/
abbrev dueRows (passes : Passes τ) (limit : ℕ) (due : τ → α → Bool) (hlimit : 0 < limit) (n : ℕ)
    (rows : List α) : List α :=
  rows.filter (due (passes.now (endsAt passes limit due hlimit n rows)))

/-- The rows that are not due to the last batch. -/
abbrev keptRows (passes : Passes τ) (limit : ℕ) (due : τ → α → Bool) (hlimit : 0 < limit) (n : ℕ)
    (rows : List α) : List α :=
  rows.filter fun a => !due (passes.now (endsAt passes limit due hlimit n rows)) a

include hkeep in
/-- What a batch deletes is due to the last. -/
theorem due_last {a : α} (h : a ∈ (batch passes limit due n rows).1) :
    due (passes.now (endsAt passes limit due hlimit n rows)) a = true :=
  hkeep a _ _ (passes.later (le_endsAt hlimit)) (due_of_mem_split _ h)

variable (passes n rows) in
include hkeep in
/-- The rows due to the last batch are those of this batch and those left for later ones. -/
theorem dueRows_perm : (dueRows passes limit due hlimit n rows).Perm
    ((batch passes limit due n rows).1 ++ (batch passes limit due n rows).2.filter
      (due (passes.now (endsAt passes limit due hlimit n rows)))) := by
  have hsplit := (batch_perm passes limit due n rows).symm.filter
    (due (passes.now (endsAt passes limit due hlimit n rows)))
  rwa [List.filter_append, List.filter_eq_self.mpr fun a => due_last hlimit hkeep] at hsplit

variable (passes n rows) in
include hkeep in
theorem keptRows_perm : (keptRows passes limit due hlimit n rows).Perm
    ((batch passes limit due n rows).2.filter fun a =>
      !due (passes.now (endsAt passes limit due hlimit n rows)) a) := by
  have hsplit := (batch_perm passes limit due n rows).symm.filter
    fun a => !due (passes.now (endsAt passes limit due hlimit n rows)) a
  have hnone : ((batch passes limit due n rows).1.filter fun a =>
      !due (passes.now (endsAt passes limit due hlimit n rows)) a) = [] := by
    rw [List.filter_eq_nil_iff]
    intro a ha
    simp [due_last hlimit hkeep ha]
  rwa [List.filter_append, hnone, List.nil_append] at hsplit

variable {refused : α → Bool}

include hkeep in
/-- **The purge is done.**  If nothing refers to the rows that are due to the last batch, these
are deleted and the others stay. -/
theorem purge_done
    (hfree : ∀ a ∈ dueRows passes limit due hlimit n rows, refused a = false) :
    ∃ deleted kept,
      purge passes limit due hlimit refused n rows
        = some (deleted, endsAt passes limit due hlimit n rows + 1, kept) ∧
      deleted.Perm (dueRows passes limit due hlimit n rows) ∧
      kept.Perm (keptRows passes limit due hlimit n rows) := by
  fun_induction purge passes limit due hlimit refused n rows with
  | case1 n rows hrefused =>
    -- the refused row is due to the last batch too
    obtain ⟨a, ha, hrefused⟩ := List.any_eq_true.mp hrefused
    have hmem := (dueRows_perm passes hlimit n rows hkeep).symm.subset (List.mem_append_left _ ha)
    rw [hfree a hmem] at hrefused
    cases hrefused
  | case2 n rows _ hlast =>
    have hends : endsAt passes limit due hlimit n rows = n := endsAt_of_lt hlimit hlast
    have hnone := countP_kept_of_lt hlast
    rw [List.countP_eq_zero] at hnone
    refine ⟨_, _, by rw [hends], ?_, ?_⟩
    · have hdue := dueRows_perm passes hlimit n rows hkeep
      rw [hends, List.filter_eq_nil_iff.mpr hnone, List.append_nil] at hdue
      exact hdue.symm
    · have hkept := keptRows_perm passes hlimit n rows hkeep
      rw [hends, List.filter_eq_self.mpr fun a ha => by simpa using hnone a ha] at hkept
      exact hkept.symm
  | case3 n rows _ hfull ih =>
    have hends := endsAt_of_full hlimit hkeep hfull
    have hdue := dueRows_perm passes hlimit n rows hkeep
    have hkept := keptRows_perm passes hlimit n rows hkeep
    rw [hends] at hdue hkept ⊢
    obtain ⟨deleted, kept, hrest, hdeleted, hkeptRest⟩ := ih fun a ha =>
      hfree a ((dueRows_perm passes hlimit n rows hkeep).symm.subset
        (List.mem_append_right _ (by rwa [hends])))
    refine ⟨_, kept, by rw [hrest]; rfl, ?_, hkeptRest.trans hkept.symm⟩
    exact (hdeleted.append_left _).trans hdue.symm

include hkeep in
/-- **The purge is refused**, if something refers to a row that is due to the last batch. -/
theorem purge_refused {a : α} (ha : a ∈ dueRows passes limit due hlimit n rows)
    (hrefused : refused a = true) : purge passes limit due hlimit refused n rows = none := by
  fun_induction purge passes limit due hlimit refused n rows with
  | case1 n rows => rfl
  | case2 n rows hnone hlast =>
    have hempty := countP_kept_of_lt hlast
    rw [List.countP_eq_zero] at hempty
    have hdue := dueRows_perm passes hlimit n rows hkeep
    rw [endsAt_of_lt hlimit hlast, List.filter_eq_nil_iff.mpr hempty, List.append_nil] at hdue
    exact absurd (List.any_eq_true.mpr ⟨a, hdue.subset ha, hrefused⟩) hnone
  | case3 n rows hnone hfull ih =>
    rcases List.mem_append.mp ((dueRows_perm passes hlimit n rows hkeep).subset ha) with hbatch | hlater
    · exact absurd (List.any_eq_true.mpr ⟨a, hbatch, hrefused⟩) hnone
    · rw [endsAt_of_full hlimit hkeep hfull] at hlater
      rw [ih hlater, Option.map_none]

end Loop

end Purge
