import Mathlib.Data.List.Basic
import Mathlib.Data.List.Induction
import Mathlib.Data.List.Nodup
import Mathlib.Data.List.Pairwise
import Mathlib.Data.Prod.Lex

/-!
# Merging ranked lists round-robin

`merge` takes the first entry of every list, then the second of every list, and so on for a number
of rounds, and leaves out an entry whose key it has taken before.  A place is a rank and the index
of a list, in lexicographic order.  Main results:

* `nodup_merge`, `mem_keys_merge` — the keys of the merge are those of the lists, each once;
* `mem_merge_iff` — the entry that stands for a key is the one at the first place with that key;
* `length_merge_le` — there are at most as many entries as places.
-/

namespace RoundRobin

variable {α κ : Type} [DecidableEq κ] {key : α → κ}

/-- Take an entry unless its key was taken; the keys taken so far are kept beside the entries. -/
def add (key : α → κ) (acc : List α × List κ) (x : α) : List α × List κ :=
  if key x ∈ acc.2 then acc else (acc.1 ++ [x], acc.2 ++ [key x])

/-- The merge of `lists`, `rounds` entries of each. -/
def merge (key : α → κ) (lists : List (List α)) (rounds : ℕ) : List α :=
  ((List.range rounds).foldl (fun acc rank => lists.foldl (fun acc l =>
    match l[rank]? with
    | some x => add key acc x
    | none => acc) acc) ([], [])).1

/-! ## First entries -/

variable (key) in
/-- **Taking one by one.**  The entries taken are the first ones with their keys. -/
theorem foldl_add_spec (l : List α) :
    let acc := l.foldl (add key) ([], [])
    acc.2 = acc.1.map key ∧ acc.2.Nodup ∧
      ∀ x, x ∈ acc.1 ↔ l.find? (fun y => decide (key y = key x)) = some x := by
  induction l using List.reverseRecOn with
  | nil => simp
  | append_singleton l x ih =>
      obtain ⟨hkeys, hnodup, hmem⟩ := ih
      rw [List.foldl_append, List.foldl_cons, List.foldl_nil]
      generalize l.foldl (add key) ([], []) = acc at hkeys hnodup hmem ⊢
      -- A key is taken exactly when some entry has it.
      have htaken : ∀ z, key z ∈ acc.2 ↔
          (l.find? fun y => decide (key y = key z)).isSome := by
        intro z
        rw [hkeys, List.mem_map]
        constructor
        · intro hcase
          obtain ⟨y, hy, heq⟩ := hcase
          rw [← heq, (hmem y).mp hy]
          rfl
        · intro hsome
          obtain ⟨y, hy⟩ := Option.isSome_iff_exists.mp hsome
          have heq : key y = key z := of_decide_eq_true (List.find?_some (p := fun y =>
            decide (key y = key z)) hy)
          exact ⟨y, (hmem y).mpr (by rw [heq]; exact hy), heq⟩
      rw [add]
      split
      · next hx =>
          refine ⟨hkeys, hnodup, fun z => ?_⟩
          rw [hmem, List.find?_append]
          by_cases hz : (l.find? fun y => decide (key y = key z)).isSome
          · rw [Option.or_of_isSome hz]
          · have hnone : l.find? (fun y => decide (key y = key z)) = none := by simpa using hz
            have hne : key x ≠ key z := fun heq => hz ((htaken z).mp (heq ▸ hx))
            simp [hnone, hne]
      · next hx =>
          refine ⟨by simp [hkeys], ?_, fun z => ?_⟩
          · exact hnodup.append (List.nodup_singleton _) (by simpa using hx)
          · have hxnone : l.find? (fun y => decide (key y = key x)) = none := by
              rw [← Option.not_isSome_iff_eq_none, ← htaken]
              exact hx
            rw [List.mem_append, List.mem_singleton, hmem, List.find?_append]
            by_cases hz : (l.find? fun y => decide (key y = key z)).isSome
            · rw [Option.or_of_isSome hz, or_iff_left_iff_imp]
              intro heq
              rw [heq, hxnone] at hz
              cases hz
            · have hnone : l.find? (fun y => decide (key y = key z)) = none := by simpa using hz
              rw [hnone]
              constructor
              · intro hcase
                rcases hcase with h | rfl
                · cases h
                · simp
              · intro h
                right
                by_cases heq : key x = key z
                · simpa [heq, eq_comm] using h
                · simp [heq] at h

/-! ## Places -/

/-- The entry at a place. -/
def entryAt (lists : List (List α)) (place : ℕ ×ₗ ℕ) : Option α :=
  (lists[(ofLex place).2]?).bind fun l => l[(ofLex place).1]?

/-- The places, in the order of the rounds. -/
def places (rounds width : ℕ) : List (ℕ ×ₗ ℕ) :=
  (List.range rounds).flatMap fun rank => (List.range width).map fun i => toLex (rank, i)

@[simp] theorem mem_places {rounds width : ℕ} {place : ℕ ×ₗ ℕ} : place ∈ places rounds width ↔
    (ofLex place).1 < rounds ∧ (ofLex place).2 < width := by
  rw [places, List.mem_flatMap]
  constructor
  · intro hcase
    obtain ⟨rank, hrank, hmem⟩ := hcase
    obtain ⟨i, hi, rfl⟩ := List.mem_map.mp hmem
    exact ⟨List.mem_range.mp hrank, List.mem_range.mp hi⟩
  · intro hcase
    exact ⟨_, List.mem_range.mpr hcase.1, List.mem_map.mpr ⟨_, List.mem_range.mpr hcase.2, rfl⟩⟩

theorem length_places (rounds width : ℕ) : (places rounds width).length = rounds * width := by
  induction rounds with
  | zero => simp [places]
  | succ rounds ih =>
      rw [places] at ih ⊢
      rw [List.range_succ, List.flatMap_append, List.length_append, ih, List.flatMap_singleton,
        List.length_map, List.length_range, Nat.succ_mul]

theorem places_increasing (rounds width : ℕ) : (places rounds width).Pairwise (· < ·) := by
  rw [places, List.pairwise_flatMap]
  constructor
  · intro rank _
    rw [List.pairwise_map]
    refine List.pairwise_lt_range.imp fun {i j} hij => ?_
    exact Prod.Lex.toLex_lt_toLex.mpr (.inr ⟨rfl, hij⟩)
  · refine List.pairwise_lt_range.imp fun {r r'} hlt x hx y hy => ?_
    obtain ⟨i, _, rfl⟩ := List.mem_map.mp hx
    obtain ⟨j, _, rfl⟩ := List.mem_map.mp hy
    exact Prod.Lex.toLex_lt_toLex.mpr (.inl hlt)

/-- In an increasing list the first hit is the least one. -/
theorem find?_eq_some_of_increasing {β : Type} [LinearOrder β] {l : List β} {p : β → Bool} {b : β}
    (h : l.Pairwise (· < ·)) : l.find? p = some b ↔
      b ∈ l ∧ p b = true ∧ ∀ b' ∈ l, p b' = true → b ≤ b' := by
  induction l with
  | nil => simp
  | cons a l ih =>
      rw [List.pairwise_cons] at h
      by_cases ha : p a = true
      · rw [List.find?_cons_of_pos ha, Option.some.injEq]
        constructor
        · intro heq
          subst heq
          refine ⟨List.mem_cons_self, ha, fun b' hb' _ => ?_⟩
          rcases List.mem_cons.mp hb' with rfl | hb'
          · exact le_rfl
          · exact (h.1 b' hb').le
        · intro hcase
          obtain ⟨hmem, _, hle⟩ := hcase
          rcases List.mem_cons.mp hmem with rfl | hmem
          · rfl
          · exact absurd (h.1 b hmem) (not_lt.mpr (hle a List.mem_cons_self ha))
      · rw [List.find?_cons_of_neg ha, ih h.2]
        simp only [List.mem_cons]
        constructor
        · intro hcase
          obtain ⟨hmem, hb, hle⟩ := hcase
          refine ⟨.inr hmem, hb, fun b' hb' hpb' => ?_⟩
          rcases hb' with rfl | hb'
          · exact absurd hpb' ha
          · exact hle b' hb' hpb'
        · intro hcase
          obtain ⟨hmem, hb, hle⟩ := hcase
          refine ⟨?_, hb, fun b' hb' => hle b' (.inr hb')⟩
          rcases hmem with rfl | hmem
          · exact absurd hb ha
          · exact hmem

/-! ## The merge -/

variable {lists : List (List α)} {rounds : ℕ}

/-- The loop runs through the places. -/
theorem merge_eq_foldl (key : α → κ) (lists : List (List α)) (rounds : ℕ) :
    merge key lists rounds =
      (((places rounds lists.length).filterMap (entryAt lists)).foldl (add key) ([], [])).1 := by
  have hrow : ∀ rank, lists.filterMap (fun l => l[rank]?) =
      ((List.range lists.length).map fun i => toLex (rank, i)).filterMap (entryAt lists) := by
    intro rank
    rw [List.filterMap_map]
    have hlists : lists.map some = (List.range lists.length).map fun i => lists[i]? := by
      refine List.ext_getElem (by simp) fun i hi _ => ?_
      simp at hi
      simp [hi]
    have hbind : (lists.map some).filterMap (fun l => l.bind fun l => l[rank]?) =
        lists.filterMap fun l => l[rank]? := by
      rw [List.filterMap_map]
      rfl
    rw [← hbind, hlists, List.filterMap_map]
    rfl
  have hall : (places rounds lists.length).filterMap (entryAt lists) =
      (List.range rounds).flatMap fun rank => lists.filterMap fun l => l[rank]? := by
    rw [places, List.filterMap_flatMap]
    exact List.flatMap_congr fun rank _ => (hrow rank).symm
  rw [hall, List.foldl_flatMap, merge]
  congr 2
  funext acc rank
  rw [List.foldl_filterMap]
  rfl

/-- **Attribution.**  The entry that stands for its key is the one at the first place with that
key. -/
theorem mem_merge_iff {x : α} : x ∈ merge key lists rounds ↔
    ∃ place ∈ places rounds lists.length, entryAt lists place = some x ∧
      ∀ place' ∈ places rounds lists.length, ∀ y, entryAt lists place' = some y →
        key y = key x → place ≤ place' := by
  rw [merge_eq_foldl, (foldl_add_spec _ _).2.2 x, List.find?_filterMap, Option.bind_eq_some_iff]
  refine exists_congr fun place => ?_
  rw [find?_eq_some_of_increasing (places_increasing _ _)]
  constructor
  · intro hcase
    obtain ⟨⟨hmem, _, hle⟩, hx⟩ := hcase
    refine ⟨hmem, hx, fun place' hplace' y hy heq => hle place' hplace' ?_⟩
    rw [hy]
    exact decide_eq_true heq
  · intro hcase
    obtain ⟨hmem, hx, hle⟩ := hcase
    refine ⟨⟨hmem, by rw [hx]; exact decide_eq_true rfl, fun place' hplace' hany => ?_⟩, hx⟩
    obtain ⟨y, hy, heq⟩ := (Option.any_eq_true _ _).mp hany
    exact hle place' hplace' y hy (of_decide_eq_true heq)

/-- No key is taken twice. -/
theorem nodup_merge (key : α → κ) (lists : List (List α)) (rounds : ℕ) :
    ((merge key lists rounds).map key).Nodup := by
  obtain ⟨hkeys, hnodup, _⟩ :=
    foldl_add_spec key ((places rounds lists.length).filterMap (entryAt lists))
  rw [merge_eq_foldl, ← hkeys]
  exact hnodup

/-- **Nothing is lost.**  The keys of the merge are those of the lists, up to the last round. -/
theorem mem_keys_merge {k : κ} : k ∈ (merge key lists rounds).map key ↔
    ∃ l ∈ lists, ∃ x ∈ l.take rounds, key x = k := by
  rw [List.mem_map]
  constructor
  · intro hcase
    obtain ⟨x, hx, rfl⟩ := hcase
    obtain ⟨place, hplace, hentry, _⟩ := mem_merge_iff.mp hx
    obtain ⟨l, hl, hget⟩ := Option.bind_eq_some_iff.mp hentry
    refine ⟨l, List.mem_of_getElem? hl, x, ?_, rfl⟩
    exact List.mem_of_getElem? (i := (ofLex place).1) (by
      rw [List.getElem?_take, if_pos (mem_places.mp hplace).1, hget])
  · intro hcase
    obtain ⟨l, hl, x, hx, rfl⟩ := hcase
    obtain ⟨i, hi⟩ := List.mem_iff_getElem?.mp hl
    obtain ⟨rank, hrank⟩ := List.mem_iff_getElem?.mp hx
    rw [List.getElem?_take] at hrank
    split at hrank
    · next hlt =>
        have hplace : toLex (rank, i) ∈ places rounds lists.length :=
          mem_places.mpr ⟨hlt, (List.getElem?_eq_some_iff.mp hi).1⟩
        have hentry : entryAt lists (toLex (rank, i)) = some x := by
          simp [entryAt, hi, hrank]
        -- The first place with the key holds the entry that was taken.
        have hfound : (((places rounds lists.length).filterMap (entryAt lists)).find?
            fun y => decide (key y = key x)).isSome := by
          rw [List.find?_isSome]
          exact ⟨x, List.mem_filterMap.mpr ⟨_, hplace, hentry⟩, decide_eq_true rfl⟩
        obtain ⟨y, hy⟩ := Option.isSome_iff_exists.mp hfound
        have hkey : key y = key x :=
          of_decide_eq_true (List.find?_some (p := fun y => decide (key y = key x)) hy)
        refine ⟨y, ?_, hkey⟩
        rw [merge_eq_foldl, (foldl_add_spec _ _).2.2 y, hkey]
        exact hy
    · cases hrank

/-- **The merge is bounded** by the number of places. -/
theorem length_merge_le (key : α → κ) (lists : List (List α)) (rounds : ℕ) :
    (merge key lists rounds).length ≤ rounds * lists.length := by
  have hadd : ∀ (l : List α) (acc : List α × List κ),
      (l.foldl (add key) acc).1.length ≤ acc.1.length + l.length := by
    intro l
    induction l with
    | nil => exact fun acc => le_rfl
    | cons x l ih =>
        intro acc
        refine (ih (add key acc x)).trans ?_
        rw [List.length_cons]
        unfold add
        split
        · omega
        · rw [List.length_append, List.length_singleton]
          omega
  rw [merge_eq_foldl]
  refine (hadd _ _).trans ?_
  rw [List.length_nil, Nat.zero_add, ← length_places]
  exact List.length_filterMap_le _ _

end RoundRobin
