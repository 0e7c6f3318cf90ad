import Mathlib.Data.List.DropRight
import Mathlib.Data.List.Sort
import Mathlib.Data.List.SplitBy

/-!
# Keeping the end of a list, and grouping by a stable sort

`keepLast limit l` is the Python slice `l[-limit:] if limit else l`.

A vectorised program groups records by a key that is an array index: it sorts
stably by the key, cuts where the key changes, and writes one result per group
into an array.  `groups_eq` says that the groups are the records of
each key in their old order, by ascending key; `foldl_set_groups` says what the
array holds afterwards.
-/

namespace Grouping

variable {α β : Type}

/-! ## The end of a list -/

/-- The last `limit` elements; all of them when the limit is zero. -/
def keepLast (limit : ℕ) (l : List α) : List α := if limit = 0 then l else l.rtake limit

@[simp] theorem keepLast_zero (l : List α) : keepLast 0 l = l := by simp [keepLast]

@[simp] theorem keepLast_nil (limit : ℕ) : keepLast limit ([] : List α) = [] := by
  simp [keepLast]

theorem keepLast_map (limit : ℕ) (f : α → β) (l : List α) :
    keepLast limit (l.map f) = (keepLast limit l).map f := by
  unfold keepLast
  split
  · rfl
  · simp [List.rtake, List.map_drop]

theorem keepLast_sublist (limit : ℕ) (l : List α) : (keepLast limit l).Sublist l := by
  unfold keepLast
  split
  · exact List.Sublist.refl l
  · exact List.drop_sublist _ _

theorem length_keepLast (limit : ℕ) (l : List α) :
    (keepLast limit l).length = if limit = 0 then l.length else min limit l.length := by
  unfold keepLast
  split
  · rfl
  · simp only [List.rtake, List.length_drop]
    omega

/-- Something remains of a list that is not empty. -/
theorem keepLast_eq_nil {limit : ℕ} {l : List α} : keepLast limit l = [] ↔ l = [] := by
  rw [← List.length_eq_zero_iff, ← List.length_eq_zero_iff, length_keepLast]
  split
  · rfl
  · omega

/-! ## Increasing lists -/

/-- An increasing list of numbers is determined by its elements. -/
theorem eq_of_increasing {l l' : List ℕ} (hl : l.Pairwise (· < ·)) (hl' : l'.Pairwise (· < ·))
    (h : ∀ a, a ∈ l ↔ a ∈ l') : l = l' :=
  List.Pairwise.eq_of_mem_iff hl hl' h

/-- Sorting a permutation of a strictly sorted list gives that list. -/
theorem insertionSort_eq_of_strict {r : α → α → Prop} [DecidableRel r] [Std.Total r]
    [IsTrans α r] {l l' : List α} (hl : l.Pairwise fun a b => r a b ∧ ¬ r b a)
    (h : l'.Perm l) : l'.insertionSort r = l := by
  have hperm : (l'.insertionSort r).Perm l := (List.perm_insertionSort r l').trans h
  -- Two elements that are below each other are one element of the strict list.
  have hsymm : Std.Symm fun a b : α => ¬ (r a b ∧ r b a) ∨ a = b := ⟨fun a b hab => by
    rcases hab with hab | hab
    · exact .inl fun hboth => hab ⟨hboth.2, hboth.1⟩
    · exact .inr hab.symm⟩
  have hanti : ∀ a ∈ l, ∀ b ∈ l, ¬ (r a b ∧ r b a) ∨ a = b :=
    List.Pairwise.forall_of_forall (fun a _ => .inr rfl)
      (hl.imp fun h => .inl fun hboth => h.2 hboth.2)
  have heq : ∀ a b, a ∈ l'.insertionSort r → b ∈ l → r a b → r b a → a = b := by
    intro a b ha hb hab hba
    rcases hanti a (hperm.subset ha) b hb with hnot | heq
    · exact absurd ⟨hab, hba⟩ hnot
    · exact heq
  exact List.Perm.eq_of_pairwise heq (List.pairwise_insertionSort r l')
    (hl.imp fun h => h.1) hperm

/-- Sorting a permutation of an increasing list gives that list. -/
theorem insertionSort_eq_of_perm {l l' : List ℕ} (hl : l.Pairwise (· < ·)) (h : l'.Perm l) :
    l'.insertionSort (· ≤ ·) = l :=
  insertionSort_eq_of_strict (hl.imp fun h => ⟨le_of_lt h, not_le_of_gt h⟩) h

/-- The position of a record in a list without duplicates. -/
theorem idxOf_eq_iff [DecidableEq α] {l : List α} (hnodup : l.Nodup) {a : α} {d : ℕ}
    (hd : d < l.length) : l.idxOf a = d ↔ a = l[d] := by
  constructor
  · intro heq
    subst heq
    exact (List.getElem_idxOf hd).symm
  · intro heq
    rw [heq]
    exact hnodup.idxOf_getElem d hd

/-! ## Grouping by a key -/

section Groups

variable (key : α → ℕ)

/-- The records with key `k`, in order. -/
def group (l : List α) (k : ℕ) : List α := l.filter fun a => decide (key a = k)

/-- Sort stably by the key and cut where it changes. -/
def groups (l : List α) : List (List α) :=
  (l.insertionSort fun a b => key a ≤ key b).splitBy fun a b => key a == key b

variable {key}

theorem mem_group {l : List α} {k : ℕ} {a : α} : a ∈ group key l k ↔ a ∈ l ∧ key a = k := by
  simp [group]

/-- Sorting by the key is stable. -/
theorem group_insertionSort (l : List α) (k : ℕ) :
    group key (l.insertionSort fun a b => key a ≤ key b) k = group key l k := by
  have hpair : (group key l k).Pairwise fun a b => key a ≤ key b := by
    rw [List.pairwise_iff_forall_sublist]
    intro a b hab
    have ha := mem_group.mp (hab.subset (List.mem_cons_self))
    have hb := mem_group.mp (hab.subset (List.mem_cons_of_mem _ List.mem_cons_self))
    omega
  have hsub : (group key l k).Sublist (l.insertionSort fun a b => key a ≤ key b) :=
    List.sublist_insertionSort hpair List.filter_sublist
  have hfilter : (group key l k).Sublist
      (group key (l.insertionSort fun a b => key a ≤ key b) k) := by
    have hkept := hsub.filter fun a => decide (key a = k)
    rwa [show (group key l k).filter (fun a => decide (key a = k)) = group key l k from by
      simp [group]] at hkept
  have hlength : (group key l k).length =
      (group key (l.insertionSort fun a b => key a ≤ key b) k).length :=
    ((List.perm_insertionSort _ l).filter _).length_eq.symm
  exact (hfilter.eq_of_length hlength).symm

/-- A sorted list falls into what is below a bound and what is not. -/
theorem filter_append_of_sorted (key : α → ℕ) {l : List α}
    (h : l.Pairwise fun a b => key a ≤ key b) (n : ℕ) :
    (l.filter fun a => decide (key a < n)) ++ (l.filter fun a => decide (n ≤ key a)) = l := by
  induction l with
  | nil => rfl
  | cons a l ih =>
      rw [List.pairwise_cons] at h
      by_cases ha : key a < n
      · have hnot : ¬ n ≤ key a := by omega
        simp [ha, hnot, ih h.2]
      · have hall : ∀ b ∈ l, ¬ key b < n := fun b hb => by
          have := h.1 b hb
          omega
        have hnone : l.filter (fun a => decide (key a < n)) = [] := by
          rw [List.filter_eq_nil_iff]
          simpa using hall
        have hevery : l.filter (fun a => decide (n ≤ key a)) = l := by
          rw [List.filter_eq_self]
          intro b hb
          have := hall b hb
          simpa using Nat.le_of_not_lt this
        have hge : n ≤ key a := by omega
        simp [ha, hge, hnone, hevery]

/-- A sorted list is the concatenation of its groups. -/
theorem flatMap_group_of_sorted {n : ℕ} {l : List α}
    (hsorted : l.Pairwise fun a b => key a ≤ key b) (hlt : ∀ a ∈ l, key a < n) :
    (List.range n).flatMap (group key l) = l := by
  induction n generalizing l with
  | zero =>
      cases l with
      | nil => rfl
      | cons a l => exact absurd (hlt a List.mem_cons_self) (Nat.not_lt_zero _)
  | succ n ih =>
      have hlow := ih (l := l.filter fun a => decide (key a < n)) (hsorted.filter _)
        fun a ha => by simpa using (List.mem_filter.mp ha).2
      have hgroup : ∀ k ∈ List.range n,
          group key (l.filter fun a => decide (key a < n)) k = group key l k := by
        intro k hk
        rw [List.mem_range] at hk
        rw [group, group, List.filter_filter]
        refine List.filter_congr fun a _ => ?_
        by_cases ha : key a = k
        · simp [ha, hk]
        · simp [ha]
      have hlast : group key l n = l.filter fun a => decide (n ≤ key a) := by
        refine List.filter_congr fun a ha => ?_
        have := hlt a ha
        rw [decide_eq_decide]
        omega
      have hsame : (List.range n).flatMap (group key l) =
          (List.range n).flatMap (group key (l.filter fun a => decide (key a < n))) :=
        List.flatMap_congr fun k hk => (hgroup k hk).symm
      rw [List.range_succ, List.flatMap_append, hsame, hlow]
      simpa [hlast] using filter_append_of_sorted key hsorted n

/-- **Grouping is stable.**  Sorting by the key and cutting where it changes gives
the records of each key that occurs, by ascending key. -/
theorem groups_eq {n : ℕ} {l : List α} (hlt : ∀ a ∈ l, key a < n) :
    groups key l = ((List.range n).map (group key l)).filter fun g => !g.isEmpty := by
  have hsorted : (l.insertionSort fun a b => key a ≤ key b).Pairwise
      fun a b => key a ≤ key b := by
    have : Std.Total fun a b : α => key a ≤ key b := ⟨fun a b => Nat.le_total _ _⟩
    have : IsTrans α fun a b => key a ≤ key b := ⟨fun a b c => Nat.le_trans⟩
    exact List.pairwise_insertionSort _ l
  have hflat : l.insertionSort (fun a b => key a ≤ key b) =
      (((List.range n).map (group key l)).filter fun g => !g.isEmpty).flatten := by
    rw [List.flatten_filter_not_isEmpty, ← List.flatMap_def]
    have hgroups := flatMap_group_of_sorted (n := n) hsorted
      fun a ha => hlt a ((List.mem_insertionSort _).mp ha)
    exact hgroups.symm.trans (List.flatMap_congr fun k _ => group_insertionSort l k)
  rw [groups, List.splitBy_eq_iff]
  refine ⟨hflat, by simp, ?_, ?_⟩
  · intro g hg
    obtain ⟨k, _, rfl⟩ := List.mem_map.mp (List.mem_filter.mp hg).1
    refine List.Pairwise.isChain (List.pairwise_iff_forall_sublist.mpr fun {a b} hab => ?_)
    have ha := mem_group.mp (hab.subset List.mem_cons_self)
    have hb := mem_group.mp (hab.subset (List.mem_cons_of_mem _ List.mem_cons_self))
    simp [ha.2, hb.2]
  · -- Neighbouring groups have different keys.
    refine List.Pairwise.isChain ?_
    rw [List.pairwise_filter, List.pairwise_map]
    refine List.pairwise_lt_range.imp fun {i k} hik hi hk => ?_
    have hi : group key l i ≠ [] := by simpa using hi
    have hk : group key l k ≠ [] := by simpa using hk
    refine ⟨hi, hk, ?_⟩
    have hlast := (mem_group.mp (List.getLast_mem hi)).2
    have hhead := (mem_group.mp (List.head_mem hk)).2
    simp only [hlast, hhead, beq_eq_false_iff_ne]
    omega

/-- An array into which every group wrote its result: the positions of the keys
that occur hold the results, the others are as before. -/
theorem getElem?_foldl_set {ks : List ℕ} (hnodup : ks.Nodup) (f : ℕ → List α)
    (position : List α → ℕ) (value : List α → β)
    (hposition : ∀ k ∈ ks, f k ≠ [] → position (f k) = k) (array : List β) {i : ℕ}
    (hi : i < array.length) :
    (((ks.map f).filter fun g => !g.isEmpty).foldl
        (fun array g => array.set (position g) (value g)) array)[i]? =
      if i ∈ ks ∧ f i ≠ [] then some (value (f i)) else array[i]? := by
  induction ks generalizing array with
  | nil => simp
  | cons k ks ih =>
      rw [List.nodup_cons] at hnodup
      have hrest := fun array => ih hnodup.2 (fun k hk => hposition k (List.mem_cons_of_mem _ hk))
        array
      by_cases hk : f k = []
      · have hskip : ((k :: ks).map f).filter (fun g => !g.isEmpty) =
            (ks.map f).filter fun g => !g.isEmpty := by simp [hk]
        rw [hskip, hrest array hi]
        by_cases hik : i = k
        · subst hik
          simp [hnodup.1, hk]
        · simp [hik]
      · have hcons : ((k :: ks).map f).filter (fun g => !g.isEmpty) =
            f k :: (ks.map f).filter fun g => !g.isEmpty := by simp [hk]
        rw [hcons, List.foldl_cons, hrest _ (by simpa using hi),
          hposition k List.mem_cons_self hk]
        by_cases hik : i = k
        · subst hik
          simp [hnodup.1, hk, hi]
        · have hne : ¬ k = i := fun h => hik h.symm
          simp [hik, hne]

/-- **One result per group.**  Writing the result of every group at its key into
an array of defaults gives the array of results. -/
theorem foldl_set_groups {n : ℕ} {l : List α} (hlt : ∀ a ∈ l, key a < n)
    (position : List α → ℕ) (value : List α → β) (default : β)
    (hposition : ∀ k < n, group key l k ≠ [] → position (group key l k) = k) :
    (groups key l).foldl (fun array g => array.set (position g) (value g))
        (List.replicate n default) =
      (List.range n).map fun k =>
        if group key l k = [] then default else value (group key l k) := by
  rw [groups_eq hlt]
  have hlength : ∀ (gs : List (List α)) (array : List β),
      (gs.foldl (fun array g => array.set (position g) (value g)) array).length =
        array.length := by
    intro gs
    induction gs with
    | nil => exact fun _ => rfl
    | cons g gs ih => exact fun array => by rw [List.foldl_cons, ih, List.length_set]
  apply List.ext_getElem?
  intro i
  by_cases hi : i < n
  · rw [getElem?_foldl_set List.nodup_range (group key l) position value
      (fun k hk => hposition k (List.mem_range.mp hk)) _ (by simpa using hi)]
    by_cases hnil : group key l i = [] <;> simp [hi, hnil]
  · rw [List.getElem?_eq_none (by rw [hlength]; simpa using hi),
      List.getElem?_eq_none (by simpa using hi)]

end Groups

end Grouping
