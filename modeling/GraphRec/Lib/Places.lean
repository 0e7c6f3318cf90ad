import Mathlib.Data.List.Basic
import Mathlib.Data.List.Nodup
import Mathlib.Data.List.Pairwise

/-!
# Places in a list

`idxOf` is the place of the first occurrence.  Main results:

* `idxOf_lt_idxOf_of_pairwise` — in a sorted list an entry that is not related back stands first;
* `idxOf_filter_lt_iff` — filtering keeps the order of what is left;
* `idxOf_eq_countP` — a place is the number of the entries before it;
* `map_zipIdx_eq` — the rows of a table with keys, read by key and place.
-/

namespace Places

variable {α : Type} [DecidableEq α] {l : List α} {a b : α}

/-- **Sorted lists.** -/
theorem idxOf_lt_idxOf_of_pairwise {r : α → α → Prop} (hsorted : l.Pairwise r) (ha : a ∈ l)
    (hb : b ∈ l) (hne : a ≠ b) (hnot : ¬ r b a) : l.idxOf a < l.idxOf b := by
  have hla := List.idxOf_lt_length_iff.mpr ha
  have hlb := List.idxOf_lt_length_iff.mpr hb
  rcases Nat.lt_trichotomy (l.idxOf a) (l.idxOf b) with hlt | heq | hgt
  · exact hlt
  · exact absurd ((List.idxOf_inj ha).mp heq) hne
  · have hr := List.pairwise_iff_getElem.mp hsorted _ _ hlb hla hgt
    rw [List.getElem_idxOf, List.getElem_idxOf] at hr
    exact absurd hr hnot

/-- In a list sorted by an order whose ties are settled, the places are the order. -/
theorem idxOf_lt_idxOf_iff_of_pairwise {r : α → α → Prop} (hsorted : l.Pairwise r) (ha : a ∈ l)
    (hb : b ∈ l) (hne : a ≠ b) (hasymm : r a b → ¬ r b a) : l.idxOf a < l.idxOf b ↔ r a b := by
  constructor
  · intro hlt
    have hr := List.pairwise_iff_getElem.mp hsorted _ _ (List.idxOf_lt_length_iff.mpr ha)
      (List.idxOf_lt_length_iff.mpr hb) hlt
    rwa [List.getElem_idxOf, List.getElem_idxOf] at hr
  · intro hr
    exact idxOf_lt_idxOf_of_pairwise hsorted ha hb hne (hasymm hr)

/-- **Filtered lists.** -/
theorem idxOf_filter_lt_iff (p : α → Bool) (ha : p a = true) (hb : p b = true) :
    (l.filter p).idxOf a < (l.filter p).idxOf b ↔ l.idxOf a < l.idxOf b := by
  induction l with
  | nil => rfl
  | cons x l ih =>
      by_cases hxa : x = a
      · subst hxa
        by_cases hxb : x = b
        · subst hxb
          simp
        · rw [List.filter_cons_of_pos ha]
          simp [hxb]
      · by_cases hxb : x = b
        · subst hxb
          rw [List.filter_cons_of_pos hb]
          simp [hxa]
        · cases hp : p x
          · rw [List.filter_cons_of_neg (by simp [hp]), ih]
            simp [hxa, hxb]
          · rw [List.filter_cons_of_pos hp]
            simp [hxa, hxb, ih]

/-- **Places are counts.**  In a sorted list of distinct entries whose ties are settled the place
of an entry is the number of the entries that come before it. -/
theorem idxOf_eq_countP {r : α → α → Prop} [DecidableRel r] (hsorted : l.Pairwise r)
    (hnodup : l.Nodup) (ha : a ∈ l) (hasymm : ∀ b ∈ l, b ≠ a → r a b → ¬ r b a) :
    l.idxOf a = l.countP fun b => decide (b ≠ a ∧ r b a) := by
  obtain ⟨before, after, rfl⟩ := List.append_of_mem ha
  rw [List.nodup_middle, List.nodup_cons, List.mem_append, not_or] at hnodup
  obtain ⟨⟨hbefore, hafter⟩, -⟩ := hnodup
  rw [List.pairwise_append, List.pairwise_cons] at hsorted
  obtain ⟨-, ⟨hlater, -⟩, hearlier⟩ := hsorted
  have hall : before.countP (fun b => decide (b ≠ a ∧ r b a)) = before.length := by
    refine List.countP_eq_length.mpr fun b hb => decide_eq_true ⟨?_, ?_⟩
    · rintro rfl
      exact hbefore hb
    · exact hearlier b hb a List.mem_cons_self
  have hnone : after.countP (fun b => decide (b ≠ a ∧ r b a)) = 0 := by
    refine List.countP_eq_zero.mpr fun b hb => ?_
    rw [decide_eq_true_eq]
    rintro ⟨hne, hr⟩
    exact hasymm b (List.mem_append_right _ (List.mem_cons_of_mem _ hb)) hne (hlater b hb) hr
  rw [List.idxOf_append_of_notMem hbefore, List.idxOf_cons_self, List.countP_append, hall,
    List.countP_cons_of_neg (by simp), hnone]

/-! ## Tables -/

variable {κ β γ : Type} [DecidableEq κ]

/-- With distinct keys every row is found. -/
theorem lookup_of_mem {table : List (κ × β)} (hnodup : (table.map Prod.fst).Nodup) {k : κ} {v : β}
    (h : (k, v) ∈ table) : table.lookup k = some v := by
  obtain ⟨before, after, rfl⟩ := List.append_of_mem h
  rw [List.map_append, List.map_cons] at hnodup
  have hnot := (List.nodup_append.mp hnodup).2.2
  refine List.lookup_eq_some_iff.mpr ⟨before, after, rfl, fun row hrow => ?_⟩
  have hne := hnot row.1 (List.mem_map_of_mem hrow) k List.mem_cons_self
  simpa using fun heq => hne heq.symm

/-- The numbered rows of a table with distinct keys, read by the key. -/
theorem map_zipIdx_eq [Inhabited β] {table : List (κ × β)} (hnodup : (table.map Prod.fst).Nodup)
    (f : κ → β → ℕ → γ) :
    (table.zipIdx.map fun (row, index) => f row.1 row.2 index) =
      (table.map Prod.fst).map fun k =>
        f k ((table.lookup k).getD default) ((table.map Prod.fst).idxOf k) := by
  refine List.ext_getElem (by simp) fun i hi hi' => ?_
  have hlt : i < table.length := by simpa using hi
  have hlookup : table.lookup table[i].1 = some table[i].2 :=
    lookup_of_mem hnodup (List.getElem_mem hlt)
  have hplace : (table.map Prod.fst).idxOf table[i].1 = i := by
    have hlt' : i < (table.map Prod.fst).length := by rwa [List.length_map]
    have h := hnodup.idxOf_getElem i hlt'
    rwa [List.getElem_map] at h
  simp only [List.getElem_map, List.getElem_zipIdx, Nat.zero_add, hlookup, Option.getD_some,
    hplace]

end Places
