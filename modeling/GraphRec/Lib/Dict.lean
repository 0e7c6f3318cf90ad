import GraphRec.Lib.Table

/-!
# Dictionaries

A dictionary is a table that can also be assigned to and deleted from.

* `get?_put`, `length_put` — an assignment replaces the entry under the key, or adds one;
* `get?_deleteWhere` — a deletion leaves the other entries.
-/

namespace Table

variable {κ ρ : Type} [DecidableEq κ] (t : Table κ ρ)

/-- The entry under a key becomes another one. -/
def put (k : κ) (r : ρ) : Table κ ρ := (t.insert k r).update k fun _ => r

/-- Delete entries. -/
def deleteWhere (p : κ → ρ → Bool) : Table κ ρ :=
  ⟨t.rows.filter fun row => !p row.1 row.2, t.nodup.sublist (List.filter_sublist.map Prod.fst)⟩

variable {t}

theorem get?_put (k : κ) (r : ρ) (k' : κ) :
    (t.put k r).get? k' = if k' = k then some r else t.get? k' := by
  rw [put, get?_update]
  by_cases hk : k' = k
  · rw [if_pos hk, if_pos hk, get?_insert_cases, if_pos hk]
    rfl
  · rw [if_neg hk, if_neg hk, get?_insert_cases, if_neg hk]

theorem length_update (k : κ) (f : ρ → ρ) : (t.update k f).rows.length = t.rows.length := by
  simp [update, updateWhere]

theorem length_put (k : κ) (r : ρ) :
    (t.put k r).rows.length = t.rows.length + if t.get? k = none then 1 else 0 := by
  rw [put, length_update]
  split
  · next hfresh => rw [rows_insert t hfresh, List.length_append, List.length_singleton]
  · next hused =>
      obtain ⟨old, hold⟩ := Option.ne_none_iff_exists'.mp hused
      rw [insert_of_some t hold, Nat.add_zero]

/-- An assignment under a fresh key adds the entry at the end. -/
theorem rows_put {k : κ} (h : t.get? k = none) (r : ρ) : (t.put k r).rows = t.rows ++ [(k, r)] := by
  have hstored : (t.insert k r).get? k = some r := by rw [get?_insert t h, if_pos rfl]
  have hsame : (t.insert k r).update k (fun _ => r) = t.insert k r :=
    update_eq_self _ fun old hold => Option.some.inj (hstored.symm.trans hold)
  rw [put, hsame, rows_insert t h]

/-- A recomputation of an entry is lost when the entry is replaced. -/
theorem put_update (k : κ) (f : ρ → ρ) (r : ρ) : (t.update k f).put k r = t.put k r := by
  cases h : t.get? k with
  | none =>
      have hsame : t.update k f = t := by
        refine update_eq_self t fun old hold => ?_
        rw [h] at hold
        cases hold
      rw [hsame]
  | some old =>
      have hupdated : (t.update k f).get? k = some (f old) := by
        rw [get?_update, if_pos rfl, h]
        rfl
      rw [put, put, insert_of_some t h, insert_of_some _ hupdated]
      unfold update updateWhere
      simp only [List.map_map]
      congr 2
      funext row
      by_cases hk : row.1 = k <;> simp [hk]

theorem get?_deleteWhere (p : κ → ρ → Bool) (k : κ) :
    (t.deleteWhere p).get? k = (t.get? k).filter fun r => !p k r := by
  ext r
  rw [← mem_rows_iff, deleteWhere, List.mem_filter, mem_rows_iff, Option.filter_eq_some_iff]

end Table
