import GraphRec.Dgsr.Positions
import GraphRec.Dgsr.VirtualRoot

/-!
# A virtual sample has no other events of its shopper

The messages of a virtual sample come from its edge table: each is a real event of a sampled user,
or an edge of the root, which is a supplied event.  The user that the root replaces is not
sampled.  So the sample has no event of the shopper but the supplied ones (`ownOnly_of_encode`).
-/

namespace Dgsr

open Grouping

/-- A sample for a shopper has no event of that shopper but the supplied ones, and these only at
its root. -/
structure OwnOnly (data : InteractionData) (shopper : String) (history : List HistoryEvent)
    (s : GraphSample) : Prop where
  /-- The other local users are other shoppers. -/
  users : ∀ u ∈ s.users.take s.root, data.userIds[u]? ≠ some shopper
  /-- The events in the sample are events of others. -/
  induced : ∀ e ∈ s.inducedEvents, data.userIds[data.user e]? ≠ some shopper
  events : ∀ m ∈ s.toUsers.messages ++ s.toItems.messages, ∀ e, m.event = some e →
    data.userIds[data.user e]? ≠ some shopper
  /-- The edges at the root have no event in the graph, and no other edges are such. -/
  toRoot : ∀ m ∈ s.toUsers.messages, m.event = none ↔ m.dst = s.root
  fromRoot : ∀ m ∈ s.toItems.messages, m.event = none ↔ m.src = s.root
  /-- They are supplied. -/
  supplied : ∀ m ∈ s.toUsers.messages, m.dst = s.root →
    ∃ x ∈ history, s.items[m.src]? = some x.item
  supplying : ∀ m ∈ s.toItems.messages, m.src = s.root →
    ∃ x ∈ history, s.items[m.dst]? = some x.item

section Table

variable {art : Artifact} {history : List HistoryEvent} {rootUser : Option ℕ}
  {users items : Finset ℕ}

/-- A message stands for an edge. -/
theorem exists_edge_of_mem_groupMessages {edges : List Edge} {dst src : Edge → ℕ}
    {size limit : ℕ} (hlt : ∀ e ∈ edges, dst e < size) {m : Message}
    (hm : m ∈ (groupMessages edges dst src size limit).messages) :
    ∃ e ∈ edges, m.event = e.event ∧ m.src = src e ∧ m.dst = dst e := by
  rw [groupMessages_eq hlt] at hm
  obtain ⟨d, -, hm⟩ := List.mem_flatMap.mp hm
  obtain ⟨e, he, hevent, hsrc, hdst⟩ := mem_row hm
  obtain ⟨hmem, hkey⟩ := mem_group.mp ((keepLast_sublist _ _).subset he)
  exact ⟨e, hmem, hevent, hsrc, hdst.trans hkey.symm⟩

/-- An edge of the table is an event of a sampled user, or a supplied one at the root. -/
theorem mem_edgeTable (hitems : ∀ x ∈ history, x.item < art.data.numItems) {x : Edge}
    (hx : x ∈ (edgeTable art history users items).insertionSort Edge.le) :
    (∃ e, x.event = some e ∧ art.data.user e ∈ users ∧
        x.user < (ascending art.data.numUsers users).length) ∨
      (x.event = none ∧ x.user = (ascending art.data.numUsers users).length ∧
        ∃ h ∈ history, (ascending art.data.numItems items)[x.item]? = some h.item) := by
  rcases List.mem_append.mp ((List.mem_insertionSort _).mp hx) with hx | hx
  · obtain ⟨e, he, rfl⟩ := List.mem_map.mp hx
    obtain ⟨huser, -⟩ := ends_of_mem_inducedEdges (mem_collected.mp he)
    exact .inl ⟨e, rfl, (mem_ascending.mp huser).2, List.idxOf_lt_length_of_mem huser⟩
  · obtain ⟨⟨event, k⟩, hmem, rfl⟩ := List.mem_map.mp hx
    obtain ⟨hevent, hitem⟩ := List.mem_filter.mp (List.fst_mem_of_mem_zipIdx hmem)
    exact .inr ⟨rfl, rfl, event, hevent, List.getElem?_idxOf
      (mem_ascending.mpr ⟨hitems event hevent, by simpa using hitem⟩)⟩

/-- An edge has no event just when it ends at the root. -/
theorem event_eq_none_iff (hitems : ∀ x ∈ history, x.item < art.data.numItems) {x : Edge}
    (hx : x ∈ (edgeTable art history users items).insertionSort Edge.le) :
    x.event = none ↔ x.user = (ascending art.data.numUsers users).length := by
  rcases mem_edgeTable hitems hx with ⟨e, hevent, -, hlt⟩ | ⟨hevent, heq, -⟩
  · rw [hevent]
    exact iff_of_false (by simp) hlt.ne
  · exact iff_of_true hevent heq

/-- An edge at the root is that of a supplied event. -/
theorem supplied_of_root (hitems : ∀ x ∈ history, x.item < art.data.numItems) {x : Edge}
    (hx : x ∈ (edgeTable art history users items).insertionSort Edge.le)
    (hroot : x.user = (ascending art.data.numUsers users).length) :
    ∃ h ∈ history, (ascending art.data.numItems items)[x.item]? = some h.item := by
  rcases mem_edgeTable hitems hx with ⟨e, -, -, hlt⟩ | ⟨-, -, hhistory⟩
  · exact absurd hroot hlt.ne
  · exact hhistory

/-- **The sample over some nodes.**  Without the shopper among the users, the shopper's events in
it are the supplied ones. -/
theorem ownOnly_virtualSample {shopper : String}
    (hitems : ∀ x ∈ history, x.item < art.data.numItems)
    (hothers : ∀ u ∈ users, art.data.userIds[u]? ≠ some shopper) :
    OwnOnly art.data shopper history (virtualSample art history rootUser users items) := by
  have huser : ∀ m ∈ (virtualSample art history rootUser users items).toUsers.messages,
      ∃ e ∈ (edgeTable art history users items).insertionSort Edge.le,
        m.event = e.event ∧ m.src = e.item ∧ m.dst = e.user := fun m hm =>
    exists_edge_of_mem_groupMessages (fun x hx => (edgeTable_lt hitems hx).1) hm
  have hitem : ∀ m ∈ (virtualSample art history rootUser users items).toItems.messages,
      ∃ e ∈ (edgeTable art history users items).insertionSort Edge.le,
        m.event = e.event ∧ m.src = e.user ∧ m.dst = e.item := fun m hm =>
    exists_edge_of_mem_groupMessages (fun x hx => (edgeTable_lt hitems hx).2) hm
  constructor
  · intro u hu
    have htake : (virtualSample art history rootUser users items).users.take
        (virtualSample art history rootUser users items).root =
          ascending art.data.numUsers users := List.take_left' rfl
    rw [htake] at hu
    exact hothers u (mem_ascending.mp hu).2
  · intro e he
    obtain ⟨huser, -⟩ := ends_of_mem_inducedEdges
      (mem_collected.mp ((List.mem_insertionSort _).mp he))
    exact hothers _ (mem_ascending.mp huser).2
  · intro m hm e hevent
    have hedge : ∃ x ∈ (edgeTable art history users items).insertionSort Edge.le,
        m.event = x.event := by
      rcases List.mem_append.mp hm with hm | hm
      · exact (huser m hm).imp fun x hx => ⟨hx.1, hx.2.1⟩
      · exact (hitem m hm).imp fun x hx => ⟨hx.1, hx.2.1⟩
    obtain ⟨x, hx, heq⟩ := hedge
    rcases mem_edgeTable hitems hx with ⟨e', hevent', hmem, -⟩ | ⟨hnone, -, -⟩
    · obtain rfl := Option.some.inj (hevent.symm.trans (heq.trans hevent'))
      exact hothers _ hmem
    · rw [heq, hnone] at hevent
      cases hevent
  · intro m hm
    obtain ⟨x, hx, hevent, -, hdst⟩ := huser m hm
    rw [hevent, hdst]
    exact event_eq_none_iff hitems hx
  · intro m hm
    obtain ⟨x, hx, hevent, hsrc, -⟩ := hitem m hm
    rw [hevent, hsrc]
    exact event_eq_none_iff hitems hx
  · intro m hm hdst
    obtain ⟨x, hx, -, hsrc, hdst'⟩ := huser m hm
    rw [hsrc]
    exact supplied_of_root hitems hx (hdst'.symm.trans hdst)
  · intro m hm hsrc
    obtain ⟨x, hx, -, hsrc', hdst⟩ := hitem m hm
    rw [hdst]
    exact supplied_of_root hitems hx (hsrc'.symm.trans hsrc)

end Table

/-- What encoding looks up does not change the sample. -/
theorem eq_of_encodePositions {cfg : Config} {rows : ℕ} {s s' : GraphSample}
    (h : encodePositions cfg rows s = .ok s') : s' = s := by
  unfold encodePositions at h
  split at h
  · cases h
  · split at h
    · cases h
    · cases h
      rfl

/-- **The shopper's own events.**  A history encoded for a shopper, whom the data name at most
once, gives a sample with no event of the shopper but the supplied ones. -/
theorem ownOnly_of_encode {art : Artifact} {history : List HistoryEvent} {shopper : String}
    (hnodup : art.data.userIds.Nodup) (hitems : ∀ x ∈ history, x.item < art.data.numItems)
    {s : GraphSample}
    (h : encodeHistory art history (art.data.userIds.idxOf? shopper) = .ok s) :
    OwnOnly art.data shopper history s := by
  unfold encodeHistory at h
  split at h
  · cases h
  · split at h
    · cases h
    · next sample root hsample =>
        obtain rfl := eq_of_encodePositions h
        cases eq_virtualSample hsample
        refine ownOnly_virtualSample hitems fun u hu huser => ?_
        -- The shopper's own index is not reached.
        have hindex : art.data.userIds.idxOf? shopper = some u := by
          obtain ⟨hlt, heq⟩ := List.getElem?_eq_some_iff.mp huser
          rw [List.idxOf?_eq_some_iff]
          refine ⟨hlt, by simpa using heq, fun k hk => ?_⟩
          intro hkey
          have := hnodup.getElem_inj_iff.mp (hkey.trans heq.symm)
          omega
        rw [hindex] at hu
        exact notMem_virtualReached history hu

end Dgsr
