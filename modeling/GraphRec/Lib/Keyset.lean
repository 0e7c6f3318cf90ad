import Mathlib.Data.List.Sort

/-!
# Keyset pagination

A table is read page by page, newest first: a page holds the rows whose key lies strictly before
a cursor, and the cursor of the next page is the key of the last row shown.  Nothing says that
the key is unique, and nothing says in which order the table gives rows of the same key; both
may change from page to page.

* `page` — one page: a query for `fetch` rows, of which `size` are shown, and the next cursor if
  more rows came than are shown;
* `follow` — the pages from a cursor to the last, one after another; `walk` for a table;
* `walk_isSome` — the walk ends, since every page moves the cursor past what it shows;
* `walk_spec` — what it saw, in order, and that it saw everything exactly when no group of equal
  keys lies across the end of a page (`Separated`).
-/

namespace Keyset

/-- One page: what is shown, and the cursor of the next page, if there is one. -/
structure Page (β κ : Type) where
  items : List β
  next : Option κ

/-- The page with its rows shown as `f` shows them. -/
def Page.map {β γ κ : Type} (f : β → γ) (p : Page β κ) : Page γ κ := ⟨p.items.map f, p.next⟩

/-- Everything that is seen from a cursor on, the `n`-th page being `fetch n`; `none` when
`fuel` pages are not enough. -/
def follow {β κ : Type} (fetch : ℕ → Option κ → Page β κ) :
    ℕ → ℕ → Option κ → Option (List β)
  | 0, _, _ => none
  | fuel + 1, n, before =>
    match (fetch n before).next with
    | none => some (fetch n before).items
    | some cursor =>
      (follow fetch fuel (n + 1) (some cursor)).map fun rest => (fetch n before).items ++ rest

theorem follow_map {β γ κ : Type} (f : β → γ) (fetch : ℕ → Option κ → Page β κ) (fuel n : ℕ)
    (before : Option κ) :
    follow (fun n before => (fetch n before).map f) fuel n before
      = (follow fetch fuel n before).map (List.map f) := by
  induction fuel generalizing n before with
  | zero => rfl
  | succ fuel ih =>
    have hnext : ((fetch n before).map f).next = (fetch n before).next := rfl
    have hitems : ((fetch n before).map f).items = (fetch n before).items.map f := rfl
    simp only [follow, hnext, hitems]
    cases (fetch n before).next with
    | none => rfl
    | some cursor =>
      simp only [ih]
      cases follow fetch fuel (n + 1) (some cursor) with
      | none => rfl
      | some rest => simp

section Rows

variable {α κ : Type} [LinearOrder κ] (key : α → κ)

/-- The rows before the cursor. -/
def select (before : Option κ) (rows : List α) : List α :=
  rows.filter fun a => ∀ cursor ∈ before, key a < cursor

/-- The rows by descending key, those of one key as the table gave them. -/
def newestFirst (rows : List α) : List α := rows.insertionSort fun a b => key b ≤ key a

/-- One page of the rows that the query matches. -/
def page (fetch size : ℕ) (rows : List α) : Page α κ :=
  let fetched := (newestFirst key rows).take fetch
  let items := fetched.take size
  { items := items, next := if size < fetched.length then items.getLast?.map key else none }

/-- The keys of the rows, newest first. -/
def keys (rows : List α) : List κ := (rows.map key).insertionSort fun a b => b ≤ a

/-- No group of equal keys lies across the end of a page: wherever a page of `size` rows is full
and more rows follow, the next one is older. -/
def Separated (size : ℕ) (ks : List κ) : Prop :=
  ∀ i, 0 < i → size ∣ i → ∀ h : i < ks.length, ks[i] < ks[i - 1]

/-! ## The order of a page -/

theorem newestFirst_perm (rows : List α) : (newestFirst key rows).Perm rows :=
  List.perm_insertionSort _ _

theorem pairwise_newestFirst (rows : List α) :
    (newestFirst key rows).Pairwise fun a b => key b ≤ key a := by
  have htotal : Std.Total fun a b : α => key b ≤ key a := ⟨fun a b => le_total _ _⟩
  have htrans : IsTrans α fun a b => key b ≤ key a := ⟨fun _ _ _ hab hbc => hbc.trans hab⟩
  exact List.pairwise_insertionSort _ _

theorem map_newestFirst (rows : List α) : (newestFirst key rows).map key = keys key rows :=
  List.map_insertionSort _ _ _ _ fun _ _ _ _ => Iff.rfl

theorem length_keys (rows : List α) : (keys key rows).length = rows.length := by
  simp [keys]

/-- A list that is in order lists its own keys. -/
theorem keys_of_pairwise {rows : List α} (h : rows.Pairwise fun a b => key b ≤ key a) :
    keys key rows = rows.map key :=
  List.Pairwise.insertionSort_eq (List.pairwise_map.mpr h)

theorem keys_perm {rows rows' : List α} (h : rows.Perm rows') : keys key rows = keys key rows' := by
  have hsorted (l : List α) : (keys key l).Pairwise fun a b => b ≤ a := by
    rw [← map_newestFirst]
    exact List.pairwise_map.mpr (pairwise_newestFirst key l)
  refine List.Perm.eq_of_pairwise (fun a b _ _ hab hba => le_antisymm hba hab) (hsorted _)
    (hsorted _) ?_
  exact (List.perm_insertionSort _ _).trans
    ((h.map key).trans (List.perm_insertionSort _ _).symm)

/-! ## Boundaries -/

omit key in
theorem separated_of_length_le {size : ℕ} {ks : List κ} (h : ks.length ≤ size) :
    Separated size ks := by
  intro i hpos hdvd hi
  have := Nat.le_of_dvd hpos hdvd
  omega

omit key in
/-- The first boundary and the ones after it. -/
theorem separated_iff {size : ℕ} {ks : List κ} (hsize : 0 < size) (h : size < ks.length) :
    Separated size ks ↔ ks[size] < ks[size - 1] ∧ Separated size (ks.drop size) := by
  constructor
  · intro hsep
    refine ⟨hsep size hsize (Nat.dvd_refl _) h, ?_⟩
    intro i hpos hdvd hi
    rw [List.length_drop] at hi
    have hnext := hsep (size + i) (by omega) ((Nat.dvd_add_right (Nat.dvd_refl _)).mpr hdvd) (by omega)
    simpa only [List.getElem_drop, Nat.add_sub_assoc (Nat.one_le_of_lt hpos)] using hnext
  · rintro ⟨hfirst, hrest⟩ i hpos hdvd hi
    obtain rfl | hne := eq_or_ne i size
    · exact hfirst
    · have hle := Nat.le_of_dvd hpos hdvd
      have hnext := hrest (i - size) (by omega) (Nat.dvd_sub hdvd (Nat.dvd_refl _))
        (by rw [List.length_drop]; omega)
      have h₁ : size + (i - size) = i := by omega
      have h₂ : size + (i - size - 1) = i - 1 := by omega
      simpa only [List.getElem_drop, h₁, h₂] using hnext

end Rows

section Walk

variable {α κ : Type} [LinearOrder κ] {key : α → κ} {table : List α} {scan : ℕ → List α}
  {fetch size : ℕ}

/-! ## One page -/

omit [LinearOrder κ] in
/-- The `size`-th key of a page is that of the last row shown. -/
theorem getLast?_take (hsize : 0 < size) {rows : List α} (h : size < rows.length) :
    (rows.take size).getLast? = some (rows[size - 1]) := by
  rw [List.getLast?_eq_getElem?, List.length_take, Nat.min_eq_left h.le,
    List.getElem?_take_of_lt (by omega), List.getElem?_eq_getElem]

theorem page_items (hfetch : size ≤ fetch) (rows : List α) :
    (page key fetch size rows).items = (newestFirst key rows).take size := by
  rw [page, List.take_take, Nat.min_eq_left hfetch]

/-- No further page, when all rows are shown. -/
theorem page_next_none {rows : List α} (h : min fetch rows.length ≤ size) :
    (page key fetch size rows).next = none := by
  have hlength := (newestFirst_perm key rows).length_eq
  refine if_neg ?_
  rw [List.length_take, hlength]
  omega

/-- The next cursor is the key of the last row shown. -/
theorem page_next_some (hsize : 0 < size) (hfetch : size < fetch) {rows : List α}
    (h : size < (newestFirst key rows).length) :
    (page key fetch size rows).next = some (key (newestFirst key rows)[size - 1]) := by
  have hmore : size < ((newestFirst key rows).take fetch).length := by
    rw [List.length_take]
    omega
  rw [page, if_pos hmore, List.take_take, Nat.min_eq_left hfetch.le, getLast?_take hsize h]
  rfl

/-! ## What is left after a page -/

/-- The rows from a cursor on are the table's, in whatever order it gives them. -/
theorem select_perm (key : α → κ) (hscan : ∀ n, (scan n).Perm table) (n : ℕ) (before : Option κ) :
    (select key before (scan n)).Perm (select key before table) :=
  (hscan n).filter _

theorem select_none (rows : List α) : select key none rows = rows :=
  List.filter_eq_self.mpr fun _ _ => by simp

/-- An earlier cursor only leaves rows out. -/
theorem select_later {before : Option κ} {cursor : κ} (h : ∀ c ∈ before, cursor ≤ c)
    (rows : List α) :
    select key (some cursor) rows = (select key before rows).filter fun a => key a < cursor := by
  rw [select, select, List.filter_filter]
  refine List.filter_congr fun a _ => ?_
  rw [← Bool.decide_and, decide_eq_decide]
  constructor
  · intro ha
    have hlt : key a < cursor := ha cursor rfl
    exact ⟨hlt, fun c hc => hlt.trans_le (h c hc)⟩
  · rintro ⟨hlt, -⟩ c hc
    rwa [← Option.some.inj hc]

variable {sorted : List α}

/-- Nothing that was shown lies before the next cursor. -/
theorem le_of_mem_take (hsorted : sorted.Pairwise fun a b => key b ≤ key a) (hsize : 0 < size)
    (h : size < sorted.length) : ∀ a ∈ sorted.take size, key sorted[size - 1] ≤ key a := by
  intro a ha
  obtain ⟨i, hi, rfl⟩ := List.mem_iff_getElem.mp ha
  rw [List.length_take] at hi
  rw [List.getElem_take]
  obtain heq | hlt := Nat.eq_or_lt_of_le (show i ≤ size - 1 by omega)
  · simp only [heq, le_refl]
  · exact List.pairwise_iff_getElem.mp hsorted i (size - 1) (by omega) (by omega) hlt

/-- What lies before the next cursor was not shown. -/
theorem filter_eq_drop_filter {cursor : κ} (hshown : ∀ a ∈ sorted.take size, cursor ≤ key a) :
    (sorted.filter fun a => key a < cursor)
      = (sorted.drop size).filter fun a => key a < cursor := by
  have hnone : ((sorted.take size).filter fun a => key a < cursor) = [] := by
    rw [List.filter_eq_nil_iff]
    intro a ha
    simpa using hshown a ha
  conv_lhs => rw [← List.take_append_drop size sorted]
  rw [List.filter_append, hnone, List.nil_append]

/-- The next page goes on where this one ended exactly when the next row is older. -/
theorem drop_filter_eq_iff (hsorted : sorted.Pairwise fun a b => key b ≤ key a)
    (h : size < sorted.length) {cursor : κ} :
    (sorted.drop size).filter (fun a => key a < cursor) = sorted.drop size
      ↔ key sorted[size] < cursor := by
  rw [List.filter_eq_self]
  have hhead : sorted[size] ∈ sorted.drop size :=
    List.mem_iff_getElem.mpr ⟨0, by rw [List.length_drop]; omega, by simp [List.getElem_drop]⟩
  constructor
  · intro hall
    simpa using hall _ hhead
  · intro hlt a ha
    obtain ⟨i, hi, rfl⟩ := List.mem_iff_getElem.mp ha
    rw [List.length_drop] at hi
    rw [List.getElem_drop, decide_eq_true_iff]
    refine lt_of_le_of_lt ?_ hlt
    obtain heq | hpos := Nat.eq_zero_or_pos i
    · simp only [heq, Nat.add_zero, le_refl]
    · exact List.pairwise_iff_getElem.mp hsorted size (size + i) h (by omega) (by omega)

/-! ## The walk -/

/-- What a walk saw of the rows it could see: no row twice, newest first, and all of them exactly
when no page ends within a group of equal keys. -/
structure Saw (key : α → κ) (size : ℕ) (rows visited : List α) : Prop where
  subperm : visited.Subperm rows
  newest : visited.Pairwise fun a b => key b ≤ key a
  all_iff : visited.length = rows.length ↔ Separated size (keys key rows)

/-- The last page. -/
theorem saw_last {rows : List α} (hperm : sorted.Perm rows)
    (hsorted : sorted.Pairwise fun a b => key b ≤ key a) (hlast : rows.length ≤ size) :
    Saw key size rows (sorted.take size) := by
  have hlength := hperm.length_eq
  rw [List.take_of_length_le (by omega)]
  refine ⟨hperm.subperm, hsorted, iff_of_true hlength (separated_of_length_le ?_)⟩
  rwa [length_keys]

/-- A page, and what was seen from its cursor on. -/
theorem saw_page {rows later rest : List α} (hsize : 0 < size) (hperm : sorted.Perm rows)
    (hsorted : sorted.Pairwise fun a b => key b ≤ key a) (h : size < sorted.length)
    (hlater : later.Perm (sorted.filter fun a => key a < key sorted[size - 1]))
    (hrest : Saw key size later rest) : Saw key size rows (sorted.take size ++ rest) := by
  have hshown := le_of_mem_take hsorted hsize h
  have hkeys : keys key rows = sorted.map key := by
    rw [← keys_perm key hperm, keys_of_pairwise key hsorted]
  rw [filter_eq_drop_filter hshown] at hlater
  have hsub : later.Subperm (sorted.drop size) :=
    hlater.subperm.trans List.filter_sublist.subperm
  refine ⟨?_, ?_, ?_⟩
  · have happend := (List.subperm_append_left (sorted.take size)).mpr (hrest.subperm.trans hsub)
    rw [List.take_append_drop] at happend
    exact happend.trans hperm.subperm
  · refine List.pairwise_append.mpr ⟨hsorted.sublist (List.take_sublist _ _), hrest.newest, ?_⟩
    intro a ha b hb
    have hold := hlater.subset (hrest.subperm.subset hb)
    have hlt : key b < key sorted[size - 1] := by simpa using (List.mem_filter.mp hold).2
    exact hlt.le.trans (hshown a ha)
  · have hboundary : _ ↔ key sorted[size] < key sorted[size - 1] := drop_filter_eq_iff hsorted h
    have hle := hrest.subperm.length_le
    have hlength := hperm.length_eq
    have hdrop := hsub.length_le
    rw [List.length_drop] at hdrop
    rw [hkeys, separated_iff hsize (by rwa [List.length_map]), List.getElem_map, List.getElem_map,
      ← hboundary, ← List.map_drop, List.length_append, List.length_take, Nat.min_eq_left h.le]
    constructor
    · intro hall
      have hrestAll : rest.length = later.length := by omega
      have hnext : (sorted.drop size).filter (fun a => key a < key sorted[size - 1])
          = sorted.drop size := by
        rw [List.filter_eq_self, ← List.length_filter_eq_length_iff, ← hlater.length_eq,
          List.length_drop]
        omega
      refine ⟨hnext, ?_⟩
      rw [hnext] at hlater
      rw [← keys_of_pairwise key (hsorted.sublist (List.drop_sublist _ _)),
        ← keys_perm key hlater]
      exact hrest.all_iff.mp hrestAll
    · rintro ⟨hnext, hsep⟩
      rw [hnext] at hlater
      rw [← keys_of_pairwise key (hsorted.sublist (List.drop_sublist _ _)),
        ← keys_perm key hlater] at hsep
      have hrestAll := hrest.all_iff.mpr hsep
      have := hlater.length_eq
      rw [List.length_drop] at this
      omega

/-- The walk over the table: each page asks for `fetch` rows and shows `size` of them. -/
def walk (key : α → κ) (fetch size : ℕ) (scan : ℕ → List α) :
    ℕ → ℕ → Option κ → Option (List α) :=
  follow fun n before => page key fetch size (select key before (scan n))

/-- The cursor of a page lies behind the one the page was asked with. -/
theorem cursor_le {rows : List α} {before : Option κ}
    (hperm : sorted.Perm (select key before rows)) (hsize : 0 < size) (h : size < sorted.length) :
    ∀ c ∈ before, key sorted[size - 1] ≤ c := by
  intro c hc
  have hmem := hperm.subset (List.getElem_mem (show size - 1 < sorted.length by omega))
  rw [select, List.mem_filter, decide_eq_true_iff] at hmem
  exact (hmem.2 c hc).le

/-- **What a walk sees.**  Whatever walk comes to an end saw the rows newest first, none twice,
and missed none exactly when no page ends within a group of equal keys. -/
theorem walk_spec (hscan : ∀ n, (scan n).Perm table) (hsize : 0 < size) (hfetch : size < fetch)
    {fuel n : ℕ} {before : Option κ} {visited : List α}
    (h : walk key fetch size scan fuel n before = some visited) :
    Saw key size (select key before table) visited := by
  induction fuel generalizing n before visited with
  | zero => exact absurd h nofun
  | succ fuel ih =>
    have hperm := (newestFirst_perm key _).trans (select_perm key hscan n before)
    have hsorted := pairwise_newestFirst key (select key before (scan n))
    rw [walk, follow, ← walk] at h
    by_cases hmore : size < (newestFirst key (select key before (scan n))).length
    · rw [page_next_some hsize hfetch hmore, page_items hfetch.le] at h
      obtain ⟨rest, hrest, rfl⟩ := Option.map_eq_some_iff.mp h
      refine saw_page hsize hperm hsorted hmore ?_ (ih hrest)
      rw [select_later (cursor_le hperm hsize hmore)]
      exact hperm.symm.filter _
    · have hlength := (newestFirst_perm key (select key before (scan n))).length_eq
      rw [page_next_none (by omega), page_items hfetch.le] at h
      rw [← Option.some.inj h]
      exact saw_last hperm hsorted (by rw [← hperm.length_eq]; omega)

/-- **The walk ends.**  Every page that is not the last moves the cursor past what it shows. -/
theorem walk_isSome (hscan : ∀ n, (scan n).Perm table) (hsize : 0 < size) (hfetch : size < fetch)
    {fuel n : ℕ} {before : Option κ} (h : (select key before table).length < fuel) :
    (walk key fetch size scan fuel n before).isSome := by
  induction fuel generalizing n before with
  | zero => exact absurd h (Nat.not_lt_zero _)
  | succ fuel ih =>
    have hperm := (newestFirst_perm key _).trans (select_perm key hscan n before)
    have hsorted := pairwise_newestFirst key (select key before (scan n))
    rw [walk, follow, ← walk]
    by_cases hmore : size < (newestFirst key (select key before (scan n))).length
    · rw [page_next_some hsize hfetch hmore, Option.isSome_map]
      refine ih ?_
      have hlater := hperm.symm.filter
        fun a => key a < key (newestFirst key (select key before (scan n)))[size - 1]
      rw [filter_eq_drop_filter (le_of_mem_take hsorted hsize hmore)] at hlater
      rw [select_later (cursor_le hperm hsize hmore), hlater.length_eq]
      have hfilter := List.length_filter_le
        (fun a => decide (key a < key (newestFirst key (select key before (scan n)))[size - 1]))
        ((newestFirst key (select key before (scan n))).drop size)
      rw [List.length_drop] at hfilter
      have := hperm.length_eq
      omega
    · have hlength := (newestFirst_perm key (select key before (scan n))).length_eq
      rw [page_next_none (by omega)]
      rfl

/-- A table that gives no more rows than a page shows ends the walk with that page. -/
theorem walk_single (fuel n : ℕ) (before : Option κ) :
    walk key size size scan (fuel + 1) n before
      = some ((newestFirst key (select key before (scan n))).take size) := by
  rw [walk, follow, page_next_none (by omega), page_items le_rfl]

end Walk

end Keyset
