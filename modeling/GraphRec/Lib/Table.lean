import Mathlib.Data.List.MinMax
import Mathlib.Data.List.Dedup
import Mathlib.Tactic.Tauto

/-!
# Tables with a primary key, and a mapper's write-back

A `Table κ ρ` holds rows of type `ρ` under keys of type `κ`; that a key occurs
at most once is a field of the structure.  `insert` refuses a key that is
present, `updateWhere` is an `UPDATE` over all rows, `update` one by key, and
`first` is a `SELECT ... ORDER BY ... LIMIT 1`.

`writeColumn` is what an object-relational mapper's flush does to one column:
the value assigned to an attribute is sent to the database only when it differs
from the value the mapper loaded, otherwise the stored column is left as some
other transaction may have changed it meanwhile.
-/

/-- Rows under a primary key. -/
structure Table (κ ρ : Type) where
  rows : List (κ × ρ)
  nodup : (rows.map Prod.fst).Nodup

namespace Table

variable {κ ρ : Type}

instance [DecidableEq κ] [DecidableEq ρ] : DecidableEq (Table κ ρ) := fun t t' =>
  decidable_of_iff (t.rows = t'.rows) ⟨fun h => by cases t; cases t'; simp_all, congrArg rows⟩

/-- The table without rows. -/
def empty : Table κ ρ := ⟨[], List.nodup_nil⟩

variable [DecidableEq κ] (t : Table κ ρ)

/-- The row stored under a key. -/
def get? (k : κ) : Option ρ :=
  (t.rows.find? fun row => decide (row.1 = k)).map Prod.snd

/-- A key that is not in use has no row. -/
theorem get?_eq_none_iff {k : κ} : t.get? k = none ↔ k ∉ t.rows.map Prod.fst := by
  simp only [get?, Option.map_eq_none_iff, List.find?_eq_none, decide_eq_true_eq,
    List.mem_map, not_exists, not_and]

/-- A stored row is the row found under its key. -/
theorem mem_rows_iff {k : κ} {r : ρ} : (k, r) ∈ t.rows ↔ t.get? k = some r := by
  obtain ⟨rows, hnodup⟩ := t
  simp only [get?, Option.map_eq_some_iff]
  induction rows with
  | nil => simp
  | cons row rows ih =>
      rw [List.map_cons, List.nodup_cons] at hnodup
      by_cases hk : row.1 = k
      · have habsent : (k, r) ∉ rows := by
          intro hmem
          exact hnodup.1 (hk ▸ List.mem_map_of_mem (f := Prod.fst) hmem)
        have hfind : (row :: rows).find? (fun row => decide (row.1 = k)) = some row := by
          simp [hk]
        rw [hfind, List.mem_cons]
        constructor
        · intro hcase
          rcases hcase with rfl | hmem
          · exact ⟨_, rfl, rfl⟩
          · exact absurd hmem habsent
        · intro hcase
          obtain ⟨_, hrow, rfl⟩ := hcase
          obtain rfl := Option.some.inj hrow
          exact Or.inl (by rw [← hk])
      · have hfind : (row :: rows).find? (fun row => decide (row.1 = k)) =
            rows.find? fun row => decide (row.1 = k) := by
          simp [hk]
        rw [hfind, List.mem_cons, ← ih hnodup.2]
        constructor
        · intro hcase
          rcases hcase with rfl | hmem
          · exact absurd rfl hk
          · exact hmem
        · exact Or.inr

@[simp] theorem get?_empty (k : κ) : (empty : Table κ ρ).get? k = none := rfl

/-- Insert a row under a fresh key; a key in use keeps its row. -/
def insert (k : κ) (r : ρ) : Table κ ρ :=
  if h : k ∈ t.rows.map Prod.fst then t
  else ⟨t.rows ++ [(k, r)], by
    rw [List.map_append, List.nodup_append]
    refine ⟨t.nodup, by simp, ?_⟩
    intro a ha b hb hab
    obtain rfl : b = k := by simpa using hb
    exact h (hab ▸ ha)⟩

/-- Inserting under a fresh key adds exactly that row. -/
theorem get?_insert {k : κ} (hfresh : t.get? k = none) (r : ρ) (k' : κ) :
    (t.insert k r).get? k' = if k' = k then some r else t.get? k' := by
  have hnot := (get?_eq_none_iff t).mp hfresh
  have hmiss : t.rows.find? (fun row => decide (row.1 = k)) = none := by
    simpa [get?] using hfresh
  simp only [insert, dif_neg hnot, get?, List.find?_append]
  by_cases hk : k' = k
  · subst hk
    simp [hmiss]
  · rw [if_neg hk]
    have hne : ¬ k = k' := fun h => hk h.symm
    simp [hne]

/-- Insert rows one after the other; a key in use keeps its row. -/
def insertAll (rows : List (κ × ρ)) : Table κ ρ :=
  rows.foldl (fun t row => t.insert row.1 row.2) t

@[simp] theorem insertAll_nil : t.insertAll [] = t := rfl

theorem insertAll_cons (row : κ × ρ) (rows : List (κ × ρ)) :
    t.insertAll (row :: rows) = (t.insert row.1 row.2).insertAll rows := rfl

/-- A key in use keeps its row. -/
theorem insert_of_some {k : κ} {r : ρ} (h : t.get? k = some r) (r' : ρ) : t.insert k r' = t := by
  have hmem : k ∈ t.rows.map Prod.fst :=
    List.mem_map_of_mem (f := Prod.fst) ((mem_rows_iff t).mpr h)
  simp [insert, hmem]

/-- The rows after a fresh insert. -/
theorem rows_insert {k : κ} (hfresh : t.get? k = none) (r : ρ) :
    (t.insert k r).rows = t.rows ++ [(k, r)] := by
  simp [insert, (get?_eq_none_iff t).mp hfresh]

/-- The row under a key after an insert. -/
theorem get?_insert_cases (k : κ) (r : ρ) (k' : κ) :
    (t.insert k r).get? k' = if k' = k then some ((t.get? k).getD r) else t.get? k' := by
  cases h : t.get? k with
  | none => exact get?_insert t h r k'
  | some old =>
      rw [insert_of_some t h]
      split
      · next hk => rw [hk, h, Option.getD_some]
      · rfl

/-- Inserts keep the rows that are stored. -/
theorem get?_insertAll_of_some {k : κ} {r : ρ} (h : t.get? k = some r) (rows : List (κ × ρ)) :
    (t.insertAll rows).get? k = some r := by
  induction rows generalizing t with
  | nil => exact h
  | cons row rows ih =>
      refine ih (t.insert row.1 row.2) ?_
      rw [get?_insert_cases]
      split
      · next hk => rw [← hk, h, Option.getD_some]
      · exact h

/-- The row under a key after inserts: the stored one, or the first that was inserted. -/
theorem get?_insertAll (rows : List (κ × ρ)) (k : κ) :
    (t.insertAll rows).get? k =
      (t.get? k).or ((rows.find? fun row => decide (row.1 = k)).map Prod.snd) := by
  induction rows generalizing t with
  | nil => simp
  | cons row rows ih =>
      rw [insertAll_cons, ih, get?_insert_cases]
      by_cases hk : k = row.1
      · subst hk
        cases h : t.get? row.1 <;> simp
      · have hne : ¬ row.1 = k := fun h => hk h.symm
        simp [hk, hne]

/-- Which keys are in use after inserts. -/
theorem isSome_get?_insertAll (rows : List (κ × ρ)) (k : κ) :
    ((t.insertAll rows).get? k).isSome = true ↔
      (t.get? k).isSome = true ∨ k ∈ rows.map Prod.fst := by
  rw [get?_insertAll]
  cases h : t.get? k with
  | some r => simp
  | none =>
      simp only [Option.none_or, Option.isSome_map, List.find?_isSome, decide_eq_true_eq,
        Option.isSome_none, Bool.false_eq_true, false_or, List.mem_map]

/-- Rows under keys that are in use change nothing. -/
theorem insertAll_of_stored {rows : List (κ × ρ)} (h : ∀ k ∈ rows.map Prod.fst, t.get? k ≠ none) :
    t.insertAll rows = t := by
  induction rows with
  | nil => rfl
  | cons row rows ih =>
      obtain ⟨r, hr⟩ := Option.ne_none_iff_exists'.mp (h row.1 List.mem_cons_self)
      rw [insertAll_cons, insert_of_some t hr]
      exact ih fun k hk => h k (List.mem_cons_of_mem _ hk)

/-- Inserts leave the rows that are stored where they are. -/
theorem prefix_insertAll (rows : List (κ × ρ)) : t.rows <+: (t.insertAll rows).rows := by
  induction rows generalizing t with
  | nil => exact List.prefix_refl _
  | cons row rows ih =>
      refine List.IsPrefix.trans ?_ (ih (t.insert row.1 row.2))
      cases h : t.get? row.1 with
      | some r => simp [insert_of_some t h]
      | none => simp [rows_insert t h]

/-- Rows under fresh and distinct keys are all inserted. -/
theorem rows_insertAll {rows : List (κ × ρ)} (hnodup : (rows.map Prod.fst).Nodup)
    (hfresh : ∀ k ∈ rows.map Prod.fst, t.get? k = none) :
    (t.insertAll rows).rows = t.rows ++ rows := by
  induction rows generalizing t with
  | nil => simp
  | cons row rows ih =>
      rw [List.map_cons, List.nodup_cons] at hnodup
      have hrow := hfresh row.1 List.mem_cons_self
      have hrest : ∀ k ∈ rows.map Prod.fst, (t.insert row.1 row.2).get? k = none := by
        intro k hk
        rw [get?_insert t hrow, if_neg]
        · exact hfresh k (List.mem_cons_of_mem _ hk)
        · rintro rfl
          exact hnodup.1 hk
      rw [insertAll_cons, ih _ hnodup.2 hrest, rows_insert t hrow, List.append_assoc,
        List.singleton_append]

/-- The number of rows that inserts add: the distinct fresh keys. -/
theorem length_insertAll (rows : List (κ × ρ)) :
    (t.insertAll rows).rows.length =
      t.rows.length + ((rows.map Prod.fst).dedup.filter fun k => (t.get? k).isNone).length := by
  have hkeys : List.Perm ((t.insertAll rows).rows.map Prod.fst)
      (t.rows.map Prod.fst ++ (rows.map Prod.fst).dedup.filter fun k => (t.get? k).isNone) := by
    rw [List.perm_ext_iff_of_nodup (t.insertAll rows).nodup]
    · intro k
      have hinserted := isSome_get?_insertAll t rows k
      rw [Option.isSome_iff_ne_none, Ne, get?_eq_none_iff, not_not, Option.isSome_iff_ne_none,
        Ne, get?_eq_none_iff, not_not] at hinserted
      rw [hinserted, List.mem_append, List.mem_filter, List.mem_dedup, Option.isNone_iff_eq_none,
        get?_eq_none_iff]
      tauto
    · refine List.Nodup.append t.nodup ((List.nodup_dedup _).filter _) ?_
      intro k hstored hnew
      rw [List.mem_filter, Option.isNone_iff_eq_none, get?_eq_none_iff] at hnew
      exact hnew.2 hstored
  simpa using hkeys.length_eq

/-- Recompute every row, keys unchanged. -/
def updateWhere (f : κ → ρ → ρ) : Table κ ρ :=
  ⟨t.rows.map fun row => (row.1, f row.1 row.2), by
    rw [List.map_map]
    exact t.nodup⟩

@[simp] theorem get?_updateWhere (f : κ → ρ → ρ) (k : κ) :
    (t.updateWhere f).get? k = (t.get? k).map (f k) := by
  simp only [get?, updateWhere, List.find?_map, Function.comp_def, Option.map_map]
  cases h : t.rows.find? fun row => decide (row.1 = k) with
  | none => rfl
  | some row =>
      have hk : row.1 = k := by simpa using List.find?_some h
      simp [hk]

/-- Recompute the row stored under one key. -/
def update (k : κ) (f : ρ → ρ) : Table κ ρ :=
  t.updateWhere fun k' r => if k' = k then f r else r

theorem get?_update (k : κ) (f : ρ → ρ) (k' : κ) :
    (t.update k f).get? k' = if k' = k then (t.get? k').map f else t.get? k' := by
  by_cases hk : k' = k <;> simp [update, hk]

/-- Recomputations that agree on the stored row. -/
theorem update_congr {k : κ} {f g : ρ → ρ} (h : ∀ r, t.get? k = some r → f r = g r) :
    t.update k f = t.update k g := by
  have hrows : ∀ row ∈ t.rows, (row.1, if row.1 = k then f row.2 else row.2) =
      (row.1, if row.1 = k then g row.2 else row.2) := by
    intro row hrow
    by_cases hk : row.1 = k
    · rw [if_pos hk, if_pos hk, h row.2 (hk ▸ (mem_rows_iff t).mp hrow)]
    · rw [if_neg hk, if_neg hk]
  simp only [update, updateWhere, List.map_congr_left hrows]

/-- A recomputation that leaves the stored row as it is. -/
theorem update_eq_self {k : κ} {f : ρ → ρ} (h : ∀ r, t.get? k = some r → f r = r) :
    t.update k f = t := by
  rw [update_congr t h]
  simp [update, updateWhere]

/-- Every row satisfies `P`. -/
def All (P : κ → ρ → Prop) : Prop := ∀ k r, t.get? k = some r → P k r

section All

variable {t} {P Q : κ → ρ → Prop} {k : κ} {r : ρ}

theorem All.empty (P : κ → ρ → Prop) : (empty : Table κ ρ).All P := by
  intro k r h
  cases h

theorem All.mono (h : t.All P) (hle : ∀ k r, P k r → Q k r) : t.All Q :=
  fun k r hr => hle k r (h k r hr)

theorem All.insert (h : t.All P) (hfresh : t.get? k = none) (hnew : P k r) :
    (t.insert k r).All P := by
  intro k' r' hr'
  rw [get?_insert t hfresh] at hr'
  split at hr'
  · next hk =>
      obtain rfl := Option.some.inj hr'
      exact hk ▸ hnew
  · exact h k' r' hr'

theorem All.updateWhere {f : κ → ρ → ρ} (h : t.All fun k r => Q k (f k r)) :
    (t.updateWhere f).All Q := by
  intro k r hr
  rw [get?_updateWhere] at hr
  obtain ⟨r₀, hr₀, rfl⟩ := Option.map_eq_some_iff.mp hr
  exact h k r₀ hr₀

theorem All.update {f : ρ → ρ} (h : t.All P) (hr : t.get? k = some r) (hnew : P k (f r)) :
    (t.update k f).All P := by
  intro k' r' hr'
  rw [get?_update] at hr'
  split at hr'
  · next hk =>
      rw [hk, hr] at hr'
      obtain rfl := Option.some.inj hr'
      exact hk ▸ hnew
  · exact h k' r' hr'

end All

/-- The row stored under a key, if any, is still stored. -/
def KeepsRow (k : κ) (t' : Table κ ρ) : Prop := ∀ r, t.get? k = some r → t'.get? k = some r

section KeepsRow

variable {t} {t' t'' : Table κ ρ} {k k' : κ}

theorem KeepsRow.refl (k : κ) (t : Table κ ρ) : t.KeepsRow k t := fun _ h => h

theorem KeepsRow.trans (h : t.KeepsRow k t') (h' : t'.KeepsRow k t'') : t.KeepsRow k t'' :=
  fun r hr => h' r (h r hr)

/-- An insert keeps every row. -/
theorem keepsRow_insert (k' : κ) (r : ρ) (k : κ) : t.KeepsRow k (t.insert k' r) := by
  intro old hold
  rw [get?_insert_cases]
  split
  · next hk => rw [← hk, hold, Option.getD_some]
  · exact hold

/-- An update keeps the other rows. -/
theorem keepsRow_update (h : k ≠ k') (f : ρ → ρ) : t.KeepsRow k (t.update k' f) := by
  intro old hold
  rw [get?_update, if_neg h, hold]

/-- A recomputation keeps the rows it leaves as they are. -/
theorem keepsRow_updateWhere {f : κ → ρ → ρ} (h : ∀ r, t.get? k = some r → f k r = r) :
    t.KeepsRow k (t.updateWhere f) := by
  intro old hold
  rw [get?_updateWhere, hold, Option.map_some, h old hold]

end KeepsRow

/-- Every row stays, related to what it was. -/
def Stays (same : ρ → ρ → Prop) (t' : Table κ ρ) : Prop :=
  ∀ k r, t.get? k = some r → ∃ r', t'.get? k = some r' ∧ same r r'

section Stays

variable {t} {t' t'' : Table κ ρ} {same : ρ → ρ → Prop}

theorem Stays.refl (hrefl : ∀ r, same r r) (t : Table κ ρ) : t.Stays same t :=
  fun _ r h => ⟨r, h, hrefl r⟩

theorem Stays.trans (htrans : ∀ r r' r'', same r r' → same r' r'' → same r r'')
    (h : t.Stays same t') (h' : t'.Stays same t'') : t.Stays same t'' := by
  intro k r hr
  obtain ⟨r', hr', hsame⟩ := h k r hr
  obtain ⟨r'', hr'', hsame'⟩ := h' k r' hr'
  exact ⟨r'', hr'', htrans r r' r'' hsame hsame'⟩

/-- An insert leaves every row as it is. -/
theorem stays_insert (hrefl : ∀ r, same r r) (k : κ) (r : ρ) : t.Stays same (t.insert k r) :=
  fun k' old hold => ⟨old, keepsRow_insert k r k' old hold, hrefl old⟩

/-- A recomputation that relates each row to what it was. -/
theorem stays_updateWhere {f : κ → ρ → ρ} (h : ∀ k r, t.get? k = some r → same r (f k r)) :
    t.Stays same (t.updateWhere f) := by
  intro k r hr
  refine ⟨f k r, ?_, h k r hr⟩
  rw [get?_updateWhere, hr, Option.map_some]

/-- A recomputation of one row. -/
theorem stays_update (hrefl : ∀ r, same r r) {k : κ} {f : ρ → ρ}
    (h : ∀ r, t.get? k = some r → same r (f r)) : t.Stays same (t.update k f) := by
  refine stays_updateWhere ?_
  intro k' r hr
  split
  · next hk => exact h r (hk ▸ hr)
  · exact hrefl r

end Stays

/-- How many rows satisfy `p`. -/
def count (p : ρ → Bool) : ℕ := t.rows.countP fun row => p row.2

omit [DecidableEq κ] in
@[simp] theorem count_empty (p : ρ → Bool) : (empty : Table κ ρ).count p = 0 := rfl

omit [DecidableEq κ] in
/-- The rows that are counted have distinct keys. -/
theorem count_eq_length (p : ρ → Bool) :
    ∃ keys : List κ, keys.Nodup ∧ keys.length = t.count p ∧
      ∀ k ∈ keys, ∃ r, (k, r) ∈ t.rows ∧ p r = true := by
  refine ⟨(t.rows.filter fun row => p row.2).map Prod.fst,
    t.nodup.sublist (List.filter_sublist.map Prod.fst), ?_, ?_⟩
  · rw [List.length_map, count, List.countP_eq_length_filter]
  · intro k hk
    obtain ⟨row, hrow, rfl⟩ := List.mem_map.mp hk
    obtain ⟨hmem, hp⟩ := List.mem_filter.mp hrow
    exact ⟨row.2, hmem, hp⟩

/-- A new row counts when it satisfies `p`. -/
theorem count_insert {k : κ} (hfresh : t.get? k = none) (r : ρ) (p : ρ → Bool) :
    (t.insert k r).count p = t.count p + if p r then 1 else 0 := by
  have hnot := (get?_eq_none_iff t).mp hfresh
  simp [insert, dif_neg hnot, count, List.countP_append, List.countP_singleton]

/-- Rows that are counted before and after a recomputation count alike. -/
theorem count_updateWhere {f : κ → ρ → ρ} {p q : ρ → Bool}
    (h : ∀ k r, t.get? k = some r → p (f k r) = q r) : (t.updateWhere f).count p = t.count q := by
  simp only [count, updateWhere, List.countP_map, Function.comp_def]
  refine List.countP_congr ?_
  intro row hrow
  rw [h row.1 row.2 ((mem_rows_iff t).mp hrow)]

/-- Recomputing one row changes the count by that row. -/
theorem count_update {k : κ} {r : ρ} (h : t.get? k = some r) (f : ρ → ρ) (p : ρ → Bool) :
    (t.update k f).count p + (if p r then 1 else 0) =
      t.count p + if p (f r) then 1 else 0 := by
  obtain ⟨rows, hnodup⟩ := t
  rw [← mem_rows_iff] at h
  simp only [update, updateWhere, count]
  induction rows with
  | nil => cases h
  | cons row rows ih =>
      rw [List.map_cons, List.nodup_cons] at hnodup
      simp only [List.map_cons, List.countP_cons]
      rcases List.mem_cons.mp h with rfl | hmem
      · have hrest : rows.map (fun row => (row.1, if row.1 = k then f row.2 else row.2)) = rows := by
          refine (List.map_congr_left ?_).trans (List.map_id rows)
          intro row hrow
          have hne : row.1 ≠ k := by
            intro hk
            have hmem := List.mem_map_of_mem (f := Prod.fst) hrow
            rw [hk] at hmem
            exact hnodup.1 hmem
          rw [if_neg hne, id_eq]
        rw [hrest]
        simp only [if_true]
        omega
      · have hne : row.1 ≠ k := by
          intro hk
          exact hnodup.1 (hk ▸ List.mem_map_of_mem (f := Prod.fst) hmem)
        have hih := ih hnodup.2 hmem
        rw [if_neg hne]
        omega

/-- The row with the least sort key among those that satisfy `p`. -/
def first {δ : Type} [LinearOrder δ] (p : κ → ρ → Bool) (sortKey : ρ → δ) :
    Option (κ × ρ) :=
  (t.rows.filter fun row => p row.1 row.2).argmin fun row => sortKey row.2

/-- What `first` returns is stored and satisfies the condition. -/
theorem first_spec {δ : Type} [LinearOrder δ] {p : κ → ρ → Bool} {sortKey : ρ → δ}
    {k : κ} {r : ρ} (h : t.first p sortKey = some (k, r)) :
    t.get? k = some r ∧ p k r = true := by
  have hmem : (k, r) ∈ t.rows.filter fun row => p row.1 row.2 := List.argmin_mem h
  rw [List.mem_filter] at hmem
  exact ⟨(mem_rows_iff t).mp hmem.1, hmem.2⟩

end Table

section WriteBack

variable {β : Type} [DecidableEq β]

/-- One column of a mapper's flush: `assigned` is written when it differs from
`loaded`, otherwise the column keeps its `stored` value. -/
def writeColumn (loaded assigned stored : β) : β :=
  if assigned = loaded then stored else assigned

/-- An attribute that was not changed leaves the column alone. -/
@[simp] theorem writeColumn_unchanged (loaded stored : β) :
    writeColumn loaded loaded stored = stored := by
  simp [writeColumn]

/-- When the row has not moved since it was loaded, a flush stores exactly what
was assigned. -/
@[simp] theorem writeColumn_current (loaded assigned : β) :
    writeColumn loaded assigned loaded = assigned := by
  by_cases h : assigned = loaded <;> simp [writeColumn, h]

/-- A flushed column holds the assigned or the stored value. -/
theorem writeColumn_cases (loaded assigned stored : β) :
    (assigned = loaded ∧ writeColumn loaded assigned stored = stored) ∨
      (assigned ≠ loaded ∧ writeColumn loaded assigned stored = assigned) := by
  by_cases h : assigned = loaded <;> simp [writeColumn, h]

end WriteBack
