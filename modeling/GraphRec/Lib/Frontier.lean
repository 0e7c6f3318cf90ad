import Mathlib.Data.Finset.Union
import Mathlib.Logic.Function.Iterate

/-!
# Alternating frontier expansion in a bipartite graph

`expand` is the loop of a breadth-first expansion that alternates between the
two sides of a bipartite graph: the neighbours of the last right frontier join
the left side, the right neighbours of those that are new join the right side
and are the next frontier.  Only new nodes are expanded, the loop stops early
when nothing is new, and a check on the sizes may abort it.

`hop` is the mathematical step, which expands everything reached so far.  Main
results:

* `expand_eq` — a loop that is not aborted computes the iterate of `hop`;
* `expand_isOk` — it is not aborted when the check passes for all subsets of
  the two node sets;
* `hop_iterate_insert` — starting with a left node whose neighbours are all
  there is the same as leaving that node out and adding it at the end;
* `mem_hop_iterate_iff` — hops from a root reach what alternating walks reach.
-/

namespace Frontier

/-- The neighbourhoods of a bipartite graph, limited as the application likes;
they need not be symmetric. -/
structure Neighbours (α β : Type) where
  left : β → Finset α
  right : α → Finset β

variable {α β ε : Type} [DecidableEq α] [DecidableEq β] (g : Neighbours α β)

/-- One expansion of everything reached, `skip` left out. -/
def hop (skip : α → Bool) (reached : Finset α × Finset β) : Finset α × Finset β :=
  let left := reached.1 ∪ (reached.2.biUnion g.left).filter fun a => skip a = false
  (left, reached.2 ∪ left.biUnion g.right)

/-- The expansion loop with at most `rounds` rounds. -/
def expand (skip : α → Bool) (check : Finset α → Finset β → Except ε Unit) :
    ℕ → Finset α → Finset β → Finset β → Except ε (Finset α × Finset β)
  | 0, left, right, _ => .ok (left, right)
  | rounds + 1, left, right, frontier =>
      let newLeft := (frontier.biUnion g.left \ left).filter fun a => skip a = false
      if newLeft = ∅ then .ok (left, right)
      else
        match check (left ∪ newLeft) right with
        | .error e => .error e
        | .ok () =>
            let newRight := newLeft.biUnion g.right \ right
            if newRight = ∅ then .ok (left ∪ newLeft, right)
            else
              match check (left ∪ newLeft) (right ∪ newRight) with
              | .error e => .error e
              | .ok () => expand skip check rounds (left ∪ newLeft) (right ∪ newRight) newRight

variable {g} {skip : α → Bool} {check : Finset α → Finset β → Except ε Unit}
  {left : Finset α} {right frontier : Finset β}

/-- Everything but the frontier has been expanded. -/
structure Settled (g : Neighbours α β) (skip : α → Bool) (left : Finset α)
    (right frontier : Finset β) : Prop where
  frontier_subset : frontier ⊆ right
  right_closed : left.biUnion g.right ⊆ right
  left_closed : ∀ b ∈ right, b ∉ frontier → ∀ a ∈ g.left b, skip a = false → a ∈ left

/-- The new left nodes of the frontier complete a hop. -/
theorem Settled.hop_left (h : Settled g skip left right frontier) :
    left ∪ (frontier.biUnion g.left \ left).filter (fun a => skip a = false) =
      (hop g skip (left, right)).1 := by
  ext a
  simp only [hop, Finset.mem_union, Finset.mem_filter, Finset.mem_sdiff, Finset.mem_biUnion]
  constructor
  · intro hcase
    rcases hcase with ha | ⟨⟨⟨b, hb, hab⟩, _⟩, hskip⟩
    · exact .inl ha
    · exact .inr ⟨⟨b, h.frontier_subset hb, hab⟩, hskip⟩
  · intro hcase
    rcases hcase with ha | ⟨⟨b, hb, hab⟩, hskip⟩
    · exact .inl ha
    · by_cases hfront : b ∈ frontier
      · by_cases ha : a ∈ left
        · exact .inl ha
        · exact .inr ⟨⟨⟨b, hfront, hab⟩, ha⟩, hskip⟩
      · exact .inl (h.left_closed b hb hfront a hab hskip)

/-- The right neighbours of the new left nodes complete a hop. -/
theorem Settled.hop_right (h : Settled g skip left right frontier) :
    right ∪ (((frontier.biUnion g.left \ left).filter fun a => skip a = false).biUnion
        g.right \ right) = (hop g skip (left, right)).2 := by
  have hleft := h.hop_left
  ext b
  simp only [hop] at hleft ⊢
  rw [← hleft, Finset.union_biUnion]
  simp only [Finset.mem_union, Finset.mem_sdiff]
  constructor
  · intro hcase
    rcases hcase with hb | ⟨hb, _⟩
    · exact .inl hb
    · exact .inr (.inr hb)
  · intro hcase
    rcases hcase with hb | hb | hb
    · exact .inl hb
    · exact .inl (h.right_closed hb)
    · by_cases hright : b ∈ right
      · exact .inl hright
      · exact .inr ⟨hb, hright⟩

/-- After a hop only the new right nodes are left to expand. -/
theorem Settled.hop (h : Settled g skip left right frontier) :
    Settled g skip (hop g skip (left, right)).1 (hop g skip (left, right)).2
      (((frontier.biUnion g.left \ left).filter fun a => skip a = false).biUnion
        g.right \ right) where
  frontier_subset := by
    rw [← h.hop_right]
    exact Finset.subset_union_right
  right_closed := Finset.subset_union_right
  left_closed := by
    intro b hb hnew a hab hskip
    rw [← h.hop_right] at hb
    rcases Finset.mem_union.mp hb with hb | hb
    · simp only [Frontier.hop, Finset.mem_union, Finset.mem_filter, Finset.mem_biUnion]
      exact .inr ⟨⟨b, hb, hab⟩, hskip⟩
    · exact absurd hb hnew

/-- A hop that adds no right node is the last one that changes anything. -/
theorem hop_hop (h : (hop g skip (left, right)).2 = right) :
    hop g skip (hop g skip (left, right)) = hop g skip (left, right) := by
  have hstay : ∀ reached : Finset α × Finset β, reached.2 = right →
      (left ∪ (right.biUnion g.left).filter fun a => skip a = false) = reached.1 →
      (hop g skip reached).1 = reached.1 := by
    intro hcase hr hl
    obtain ⟨l, r⟩ := hcase
    dsimp only at hr hl
    subst hr
    rw [← hl]
    simp only [hop, Finset.union_assoc, Finset.union_self]
  have hfst := hstay (hop g skip (left, right)) h rfl
  refine Prod.ext hfst ?_
  have hsnd : (hop g skip (hop g skip (left, right))).2 =
      (hop g skip (left, right)).2 ∪
        (hop g skip (hop g skip (left, right))).1.biUnion g.right := rfl
  rw [hsnd, hfst]
  exact Finset.union_eq_left.mpr Finset.subset_union_right

/-- **The loop computes the hops.**  Unless it is aborted, `rounds` rounds reach
what `rounds` hops reach. -/
theorem expand_eq {rounds : ℕ} {result : Finset α × Finset β}
    (hsettled : Settled g skip left right frontier)
    (h : expand g skip check rounds left right frontier = .ok result) :
    result = (hop g skip)^[rounds] (left, right) := by
  induction rounds generalizing left right frontier with
  | zero =>
      cases h
      rfl
  | succ rounds ih =>
      have hleft := hsettled.hop_left
      have hright := hsettled.hop_right
      have hnext := hsettled.hop
      simp only [expand] at h
      rw [Function.iterate_succ_apply]
      split at h
      · next hnone =>
          -- Nothing new on the left: a hop changes nothing any more.
          cases h
          have hfix : hop g skip (left, right) = (left, right) := by
            rw [hnone, Finset.union_empty] at hleft
            rw [hnone, Finset.biUnion_empty, Finset.empty_sdiff, Finset.union_empty] at hright
            exact Prod.ext hleft.symm hright.symm
          rw [hfix, Function.iterate_fixed hfix]
      · split at h
        · cases h
        · split at h
          · next hnone =>
              cases h
              rw [hnone, Finset.union_empty] at hright
              rw [Function.iterate_fixed (hop_hop hright.symm)]
              exact Prod.ext hleft hright
          · split at h
            · cases h
            · rw [hleft, hright] at h
              exact ih hnext h

/-- **The loop is not aborted** when the check passes for all sets of nodes. -/
theorem expand_isOk {lefts : Finset α} {rights : Finset β}
    (hcheck : ∀ l r, l ⊆ lefts → r ⊆ rights → check l r = .ok ())
    (hlefts : ∀ b, g.left b ⊆ lefts) (hrights : ∀ a, g.right a ⊆ rights)
    (rounds : ℕ) (hl : left ⊆ lefts) (hr : right ⊆ rights) (frontier : Finset β) :
    ∃ result, expand g skip check rounds left right frontier = .ok result := by
  induction rounds generalizing left right frontier with
  | zero => exact ⟨_, rfl⟩
  | succ rounds ih =>
      have hnewLeft : left ∪ (frontier.biUnion g.left \ left).filter (fun a => skip a = false)
          ⊆ lefts := by
        refine Finset.union_subset hl (Finset.Subset.trans (Finset.filter_subset _ _) ?_)
        refine Finset.Subset.trans Finset.sdiff_subset ?_
        exact Finset.biUnion_subset.mpr fun b _ => hlefts b
      have hnewRight : ∀ new : Finset α, right ∪ (new.biUnion g.right \ right) ⊆ rights := by
        intro new
        refine Finset.union_subset hr (Finset.Subset.trans Finset.sdiff_subset ?_)
        exact Finset.biUnion_subset.mpr fun a _ => hrights a
      simp only [expand]
      split
      · exact ⟨_, rfl⟩
      · rw [hcheck _ _ hnewLeft hr]
        dsimp only
        split
        · exact ⟨_, rfl⟩
        · rw [hcheck _ _ hnewLeft (hnewRight _)]
          exact ih hnewLeft (hnewRight _) _

/-- What is reached stays reached. -/
theorem subset_hop_iterate (g : Neighbours α β) (skip : α → Bool) (rounds : ℕ)
    (left : Finset α) (right : Finset β) :
    left ⊆ ((hop g skip)^[rounds] (left, right)).1 ∧
      right ⊆ ((hop g skip)^[rounds] (left, right)).2 := by
  induction rounds generalizing left right with
  | zero => exact ⟨Finset.Subset.refl _, Finset.Subset.refl _⟩
  | succ rounds ih =>
      rw [Function.iterate_succ_apply]
      have hrest := ih (hop g skip (left, right)).1 (hop g skip (left, right)).2
      exact ⟨Finset.Subset.trans Finset.subset_union_left hrest.1,
        Finset.Subset.trans Finset.subset_union_left hrest.2⟩

/-- A skipped node is not reached. -/
theorem not_mem_hop_iterate {a : α} (hskip : skip a = true) (rounds : ℕ) (hl : a ∉ left) :
    a ∉ ((hop g skip)^[rounds] (left, right)).1 := by
  induction rounds generalizing left right with
  | zero => exact hl
  | succ rounds ih =>
      rw [Function.iterate_succ_apply]
      refine ih ?_
      simp [hl, hskip]

/-- **A root can be left out.**  Hops that start with the left node `a`, all of
whose right neighbours are there, reach what the hops without `a` reach, and
`a`. -/
theorem hop_iterate_insert {a : α} (left : Finset α) (hclosed : g.right a ⊆ right) (rounds : ℕ) :
    (hop g fun _ => false)^[rounds] (insert a left, right) =
      (insert a ((hop g fun x => decide (x = a))^[rounds] (left, right)).1,
        ((hop g fun x => decide (x = a))^[rounds] (left, right)).2) := by
  induction rounds generalizing left right with
  | zero => rfl
  | succ rounds ih =>
      rw [Function.iterate_succ_apply, Function.iterate_succ_apply]
      have hstep : hop g (fun _ => false) (insert a left, right) =
          (insert a (hop g (fun x => decide (x = a)) (left, right)).1,
            (hop g (fun x => decide (x = a)) (left, right)).2) := by
        have hfst : (hop g (fun _ => false) (insert a left, right)).1 =
            insert a (hop g (fun x => decide (x = a)) (left, right)).1 := by
          ext x
          simp only [hop, Finset.mem_union, Finset.mem_insert, Finset.mem_filter,
            decide_eq_false_iff_not]
          by_cases hx : x = a <;> simp [hx]
        refine Prod.ext hfst ?_
        have hsnd : (hop g (fun _ => false) (insert a left, right)).2 =
            right ∪ (hop g (fun _ => false) (insert a left, right)).1.biUnion g.right := rfl
        rw [hsnd, hfst, Finset.biUnion_insert, ← Finset.union_assoc,
          Finset.union_eq_left.mpr hclosed]
        rfl
      rw [hstep]
      refine ih _ ?_
      exact Finset.Subset.trans hclosed Finset.subset_union_left

/-! ## Walks -/

/-- An alternating walk from the root, that goes back to the left side `k` times. -/
inductive Walk (g : Neighbours α β) (root : α) : ℕ → α ⊕ β → Prop
  | root : Walk g root 0 (.inl root)
  | right {k : ℕ} {a : α} {b : β} : Walk g root k (.inl a) → b ∈ g.right a →
      Walk g root k (.inr b)
  | left {k : ℕ} {a : α} {b : β} : Walk g root k (.inr b) → a ∈ g.left b →
      Walk g root (k + 1) (.inl a)

section Walk

variable {root : α}

omit [DecidableEq α] [DecidableEq β] in
theorem walk_zero_left {a : α} : Walk g root 0 (.inl a) ↔ a = root := by
  constructor
  · intro h
    cases h
    rfl
  · intro h
    rw [h]
    exact .root

omit [DecidableEq α] [DecidableEq β] in
/-- The right end of a walk is a neighbour of a left end. -/
theorem walk_right {k : ℕ} {b : β} :
    Walk g root k (.inr b) ↔ ∃ a, Walk g root k (.inl a) ∧ b ∈ g.right a := by
  constructor
  · intro h
    cases h with
    | right ha hb => exact ⟨_, ha, hb⟩
  · intro hcase
    obtain ⟨a, ha, hb⟩ := hcase
    exact ha.right hb

omit [DecidableEq α] [DecidableEq β] in
theorem walk_succ_left {k : ℕ} {a : α} :
    Walk g root (k + 1) (.inl a) ↔ ∃ b, Walk g root k (.inr b) ∧ a ∈ g.left b := by
  constructor
  · intro h
    cases h with
    | left hb ha => exact ⟨_, hb, ha⟩
  · intro hcase
    obtain ⟨b, hb, ha⟩ := hcase
    exact hb.left ha

/-- **Hops walk.**  After `k` hops from a root and its neighbours the reached nodes are the ends of
the walks that go back at most `k` times. -/
theorem mem_hop_iterate_iff (g : Neighbours α β) (root : α) (k : ℕ) :
    (∀ a, a ∈ ((hop g fun _ => false)^[k] ({root}, g.right root)).1 ↔
      ∃ j ≤ k, Walk g root j (.inl a)) ∧
    ∀ b, b ∈ ((hop g fun _ => false)^[k] ({root}, g.right root)).2 ↔
      ∃ j ≤ k, Walk g root j (.inr b) := by
  induction k with
  | zero =>
      simp only [Function.iterate_zero, id_eq, Finset.mem_singleton, Nat.le_zero, exists_eq_left,
        walk_right, walk_zero_left, implies_true, true_and]
  | succ k ih =>
      obtain ⟨ihleft, ihright⟩ := ih
      rw [Function.iterate_succ_apply']
      generalize (hop g fun _ => false)^[k] ({root}, g.right root) = reached at ihleft ihright ⊢
      have hleft : ∀ a, a ∈ (hop g (fun _ => false) reached).1 ↔
          ∃ j ≤ k + 1, Walk g root j (.inl a) := by
        intro a
        simp only [hop, Finset.mem_union, Finset.mem_filter, Finset.mem_biUnion, and_true, ihleft,
          ihright]
        constructor
        · intro hcase
          rcases hcase with ⟨j, hj, ha⟩ | ⟨b, ⟨j, hj, hb⟩, ha⟩
          · exact ⟨j, Nat.le_succ_of_le hj, ha⟩
          · exact ⟨j + 1, Nat.succ_le_succ hj, hb.left ha⟩
        · intro hcase
          obtain ⟨j, hj, ha⟩ := hcase
          cases j with
          | zero => exact .inl ⟨0, Nat.zero_le k, ha⟩
          | succ j =>
              obtain ⟨b, hb, ha⟩ := walk_succ_left.mp ha
              exact .inr ⟨b, ⟨j, Nat.le_of_succ_le_succ hj, hb⟩, ha⟩
      refine ⟨hleft, fun b => ?_⟩
      have hsnd : (hop g (fun _ => false) reached).2 =
          reached.2 ∪ (hop g (fun _ => false) reached).1.biUnion g.right := rfl
      rw [hsnd, Finset.mem_union, Finset.mem_biUnion, ihright]
      constructor
      · intro hcase
        rcases hcase with ⟨j, hj, hb⟩ | ⟨a, ha, hb⟩
        · exact ⟨j, Nat.le_succ_of_le hj, hb⟩
        · obtain ⟨j, hj, ha⟩ := (hleft a).mp ha
          exact ⟨j, hj, ha.right hb⟩
      · intro hcase
        obtain ⟨j, hj, hb⟩ := hcase
        obtain ⟨a, ha, hb⟩ := walk_right.mp hb
        exact .inr ⟨a, (hleft a).mpr ⟨j, hj, ha⟩, hb⟩

end Walk

end Frontier
