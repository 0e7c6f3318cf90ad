import Mathlib.Data.List.Sort
import Mathlib.Data.List.Perm.Subperm
import Mathlib.Tactic.Tauto

/-!
# Offset pagination

A table is read page by page: a page holds the `limit` rows from the place `offset` on in the order
of their keys, which are unique.  The table may have grown since the page before.

* `rank` — the place of a key: the keys before it;
* `mem_keys_page` — a page holds the keys whose place it covers;
* `rank_mono` — rows that are added move a key back, never forward, so that a key that no page has
  held lies at the next offset or later;
* `fold_page` — rows that are changed one by one, each under its key, leave the pages to come as
  they are.
-/

namespace Paging

variable {α κ : Type} (r : κ → κ → Prop) [DecidableRel r] (key : α → κ)

/-- The rows from the place `offset` on, `limit` of them. -/
def page (rows : List α) (offset limit : ℕ) : List α :=
  ((rows.insertionSort fun a b => r (key a) (key b)).drop offset).take limit

/-- How many keys come before a key. -/
def rank [DecidableEq κ] (ks : List κ) (k : κ) : ℕ := ks.countP fun k' => decide (r k' k ∧ k' ≠ k)

theorem length_page (rows : List α) (offset limit : ℕ) :
    (page r key rows offset limit).length = min limit (rows.length - offset) := by
  rw [page, List.length_take, List.length_drop, List.length_insertionSort]

/-- The keys of a page are a page of the keys. -/
theorem keys_page (rows : List α) (offset limit : ℕ) : (page r key rows offset limit).map key =
    (((rows.map key).insertionSort r).drop offset).take limit := by
  rw [page, List.map_take, List.map_drop, List.map_insertionSort _ r key rows
    fun _ _ _ _ => Iff.rfl]

variable {r} {ks ks' : List κ} {k : κ}

/-- The order does not depend on where the rows stand. -/
theorem insertionSort_eq_of_perm [Std.Total r] [IsTrans κ r] [Std.Antisymm r] (h : ks.Perm ks') :
    ks.insertionSort r = ks'.insertionSort r :=
  List.Perm.eq_of_pairwise (fun _ _ _ _ => Std.Antisymm.antisymm _ _)
    (List.pairwise_insertionSort r ks) (List.pairwise_insertionSort r ks')
    ((List.perm_insertionSort r ks).trans (h.trans (List.perm_insertionSort r ks').symm))

variable [DecidableEq κ]

/-- A key comes before the end. -/
theorem rank_lt (h : k ∈ ks) : rank r ks k < ks.length := by
  refine Nat.lt_of_le_of_ne List.countP_le_length fun heq => ?_
  have hall := List.countP_eq_length.mp heq k h
  simp at hall

/-- **Added keys move a key back.** -/
theorem rank_mono (hnodup : ks.Nodup) (hsub : ∀ k ∈ ks, k ∈ ks') :
    rank r ks k ≤ rank r ks' k :=
  (List.Nodup.subperm hnodup hsub).countP_le _

variable [Std.Antisymm r]

/-- In their order, a key is at its place. -/
theorem getElem?_eq_some_iff (hsorted : ks.Pairwise r) (hnodup : ks.Nodup) {i : ℕ} :
    ks[i]? = some k ↔ k ∈ ks ∧ rank r ks k = i := by
  induction ks generalizing i with
  | nil => simp
  | cons first ks ih =>
      rw [List.pairwise_cons] at hsorted
      rw [List.nodup_cons] at hnodup
      have hrank : rank r (first :: ks) k = rank r ks k + if r first k ∧ first ≠ k then 1 else 0 := by
        simp [rank, List.countP_cons]
      have hfirst : rank r (first :: ks) first = 0 := by
        refine List.countP_eq_zero.mpr fun k' hk' => ?_
        rw [decide_eq_true_eq]
        rintro ⟨hle, hne⟩
        rcases List.mem_cons.mp hk' with rfl | hk'
        · exact hne rfl
        · exact hne (Std.Antisymm.antisymm _ _ hle (hsorted.1 k' hk'))
      cases i with
      | zero =>
          rw [List.getElem?_cons_zero, Option.some.injEq]
          constructor
          · rintro rfl
            exact ⟨List.mem_cons_self, hfirst⟩
          · rintro ⟨hmem, hzero⟩
            rcases List.mem_cons.mp hmem with rfl | hmem
            · rfl
            · by_contra hne
              rw [hrank, if_pos ⟨hsorted.1 k hmem, hne⟩] at hzero
              omega
      | succ i =>
          rw [List.getElem?_cons_succ, ih hsorted.2 hnodup.2]
          constructor
          · rintro ⟨hmem, hplace⟩
            have hne : first ≠ k := fun heq => hnodup.1 (heq ▸ hmem)
            refine ⟨List.mem_cons_of_mem _ hmem, ?_⟩
            rw [hrank, if_pos ⟨hsorted.1 k hmem, hne⟩, hplace]
          · rintro ⟨hmem, hplace⟩
            rcases List.mem_cons.mp hmem with rfl | hmem
            · omega
            · have hne : first ≠ k := fun heq => hnodup.1 (heq ▸ hmem)
              rw [hrank, if_pos ⟨hsorted.1 k hmem, hne⟩] at hplace
              exact ⟨hmem, by omega⟩

/-- **A page holds the keys whose place it covers.** -/
theorem mem_keys_page [Std.Total r] [IsTrans κ r] {rows : List α} (hnodup : (rows.map key).Nodup) {offset limit : ℕ} :
    k ∈ (page r key rows offset limit).map key ↔ k ∈ rows.map key ∧
      offset ≤ rank r (rows.map key) k ∧ rank r (rows.map key) k < offset + limit := by
  have hperm := List.perm_insertionSort r (rows.map key)
  have hrank : rank r ((rows.map key).insertionSort r) k = rank r (rows.map key) k :=
    hperm.countP_eq _
  have hplace := fun i => getElem?_eq_some_iff (k := k) (i := i)
    (List.pairwise_insertionSort r (rows.map key)) (hperm.nodup_iff.mpr hnodup)
  rw [hrank, hperm.mem_iff] at hplace
  rw [keys_page, List.mem_iff_getElem?]
  simp only [List.getElem?_take, List.getElem?_drop]
  constructor
  · rintro ⟨i, hi⟩
    split at hi
    · next hlt =>
        obtain ⟨hmem, hat⟩ := (hplace _).mp hi
        exact ⟨hmem, by omega, by omega⟩
    · cases hi
  · rintro ⟨hmem, hle, hlt⟩
    refine ⟨rank r (rows.map key) k - offset, ?_⟩
    rw [if_pos (by omega)]
    exact (hplace _).mpr ⟨hmem, by omega⟩

/-! ## Changing the rows of a page -/

section Changing

variable {σ : Type} {key : α → κ} {listed : σ → List α} {deal : σ → α → σ}

/-- What is done with a listed row changes that row at most, and no key. -/
def ChangesOwnRow (key : α → κ) (listed : σ → List α) (deal : σ → α → σ) : Prop :=
  ∀ s, ∀ row ∈ listed s, ∃ f : α → α, (∀ r ∈ listed s, key r ≠ key row → f r = r) ∧
    (∀ r, key (f r) = key r) ∧ listed (deal s row) = (listed s).map f

omit [DecidableEq κ] in
/-- **The rows after a page stay.** -/
theorem fold_page (hdeal : ChangesOwnRow key listed deal) {s : σ} {before items after : List α}
    (hnodup : ((listed s).map key).Nodup) (hlisted : listed s = before ++ items ++ after) :
    ∃ before', before'.length = (before ++ items).length ∧
      listed (items.foldl deal s) = before' ++ after ∧
      (listed (items.foldl deal s)).map key = (listed s).map key := by
  induction items generalizing s before with
  | nil => exact ⟨before, by rw [List.append_nil], by simpa using hlisted, rfl⟩
  | cons row items ih =>
      have hrow : row ∈ listed s := by simp [hlisted]
      obtain ⟨f, hsame, hkeys, hdealt⟩ := hdeal s row hrow
      have hkeep : (listed (deal s row)).map key = (listed s).map key := by
        rw [hdealt, List.map_map]
        exact List.map_congr_left fun r _ => hkeys r
      -- the rows that come later have other keys
      have hlater : ∀ r ∈ items ++ after, f r = r := by
        intro r hr
        refine hsame r ?_ ?_
        · rw [hlisted]
          simp only [List.append_assoc, List.cons_append, List.mem_append, List.mem_cons] at hr ⊢
          tauto
        · rw [hlisted, List.append_assoc, List.map_append, List.nodup_append] at hnodup
          intro heq
          have hown := hnodup.2.1
          rw [List.cons_append, List.map_cons, List.nodup_cons] at hown
          exact hown.1 (heq ▸ List.mem_map_of_mem hr)
      have hmap : listed (deal s row) = (before.map f ++ [f row]) ++ items ++ after := by
        rw [hdealt, hlisted, List.append_assoc, List.map_append, List.cons_append, List.map_cons,
          List.map_congr_left hlater, List.map_id']
        simp
      obtain ⟨before', hlength, hrest, hfinal⟩ := ih (hkeep ▸ hnodup) hmap
      refine ⟨before', ?_, hrest, hfinal.trans hkeep⟩
      simp only [hlength, List.length_append, List.length_map, List.length_cons, List.length_nil]
      omega

end Changing

end Paging
