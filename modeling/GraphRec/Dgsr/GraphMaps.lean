import GraphRec.Dgsr.NodeStates
import GraphRec.Dgsr.OwnEvents
import GraphRec.Dgsr.Subgraph

/-!
# Maps between graphs

A map of one batch into another moves the local users and items such that every node has the same
incoming messages in the same order, up to the move of their sources (`GraphMap`).  The network
cannot tell a node from its image (`encodeFrom_map`): a relabelling of a graph is such a map, and so
is the place of a graph in a batch of several.

`MessageEdges.InBounds` says that the indices of a graph are indices; both samplers return such
graphs.
-/

namespace Dgsr

open Grouping Scatter

/-! ## Indices in bounds -/

/-- The messages run between `n` destinations and `k` sources. -/
structure MessageEdges.InBounds (e : MessageEdges) (n k : ℕ) : Prop where
  dst_lt : ∀ m ∈ e.messages, m.dst < n
  src_lt : ∀ m ∈ e.messages, m.src < k
  length_counts : e.counts.length = n
  length_lastSrc : e.lastSrc.length = n
  last_lt : ∀ s, some s ∈ e.lastSrc → s < k

/-- The indices of a graph are local indices. -/
structure GraphSample.InBounds (s : GraphSample) : Prop where
  toUsers : s.toUsers.InBounds s.users.length s.items.length
  toItems : s.toItems.InBounds s.items.length s.users.length
  root_lt : s.root < s.users.length

/-- A graph that one of the samplers returns. -/
inductive Sampled : GraphSample → Prop
  | training {g : TemporalGraph} {cfg : Config} {user cutoff : ℕ} {s : GraphSample}
      (h : sample g cfg user cutoff = .ok s) : Sampled s
  | virtual {art : Artifact} {history : List HistoryEvent} {rootUser : Option ℕ} {s : GraphSample}
      {root : ℕ} (hitems : ∀ x ∈ history, x.item < art.data.numItems)
      (h : sampleVirtual art history rootUser = .ok (s, root)) : Sampled s

/-- Well-formed messages are in bounds. -/
theorem MessageEdges.WellFormed.inBounds {e : MessageEdges} {dests srcs : List ℕ}
    {destOf srcOf : ℕ → ℕ} {events : List ℕ} {limit : ℕ}
    (h : e.WellFormed dests srcs destOf srcOf events limit) :
    e.InBounds dests.length srcs.length where
  dst_lt m hm := by
    obtain ⟨_, -, hdst, -⟩ := h.ends m hm
    exact (List.getElem?_eq_some_iff.mp hdst).1
  src_lt m hm := by
    obtain ⟨_, -, -, hsrc⟩ := h.ends m hm
    exact (List.getElem?_eq_some_iff.mp hsrc).1
  length_counts := h.length_counts
  length_lastSrc := h.length_lastSrc
  last_lt s hs := by
    obtain ⟨d, hd⟩ := List.mem_iff_getElem?.mp hs
    have hlt : d < dests.length := h.length_lastSrc ▸ (List.getElem?_eq_some_iff.mp hd).1
    obtain ⟨m, hm, rfl⟩ := Option.map_eq_some_iff.mp
      (Option.some.inj ((h.lastSrc d hlt).symm.trans hd))
    obtain ⟨_, -, -, hsrc⟩ := h.ends m (List.mem_filter.mp (List.mem_of_getLast? hm)).1
    exact (List.getElem?_eq_some_iff.mp hsrc).1

/-- Grouped edges are in bounds when their ends are. -/
theorem groupMessages_inBounds {edges : List Edge} {dst src : Edge → ℕ} {size k limit : ℕ}
    (hdst : ∀ e ∈ edges, dst e < size) (hsrc : ∀ e ∈ edges, src e < k) :
    (groupMessages edges dst src size limit).InBounds size k where
  dst_lt m hm := by
    obtain ⟨e, he, -, -, heq⟩ := exists_edge_of_mem_groupMessages hdst hm
    exact heq ▸ hdst e he
  src_lt m hm := by
    obtain ⟨e, he, -, heq, -⟩ := exists_edge_of_mem_groupMessages hdst hm
    exact heq ▸ hsrc e he
  length_counts := by rw [groupMessages_eq hdst]; simp
  length_lastSrc := by rw [groupMessages_eq hdst]; simp
  last_lt s hs := by
    rw [groupMessages_eq hdst] at hs
    obtain ⟨d, -, hlast⟩ := List.mem_map.mp hs
    obtain ⟨e, he, rfl⟩ := Option.map_eq_some_iff.mp hlast
    have hkept := (keepLast_sublist _ _).subset (List.mem_of_getLast? he)
    exact hsrc e (mem_group.mp hkept).1

/-- The users of a virtual sample: those reached, and the history's. -/
theorem length_users_virtualSample (art : Artifact) (history : List HistoryEvent)
    (rootUser : Option ℕ) (users items : Finset ℕ) :
    (virtualSample art history rootUser users items).users.length =
      (ascending art.data.numUsers users).length + 1 := by
  simp [virtualSample]

theorem virtualSample_inBounds {art : Artifact} {history : List HistoryEvent}
    (hitems : ∀ x ∈ history, x.item < art.data.numItems) (rootUser : Option ℕ)
    (users items : Finset ℕ) : (virtualSample art history rootUser users items).InBounds := by
  have hlength := length_users_virtualSample art history rootUser users items
  refine ⟨?_, ?_, ?_⟩
  · rw [hlength]
    exact groupMessages_inBounds (fun _ hx => (edgeTable_lt hitems hx).1)
      fun _ hx => (edgeTable_lt hitems hx).2
  · rw [hlength]
    exact groupMessages_inBounds (fun _ hx => (edgeTable_lt hitems hx).2)
      fun _ hx => (edgeTable_lt hitems hx).1
  · rw [hlength]
    exact Nat.lt_succ_self _

/-- Only users with a history are sampled. -/
theorem user_lt_of_sample {g : TemporalGraph} {cfg : Config} {user cutoff : ℕ} {s : GraphSample}
    (h : sample g cfg user cutoff = .ok s) : user < g.data.numUsers := by
  by_contra hnot
  have hnone : g.userEvents user cutoff cfg.recentItems = [] := by
    refine List.eq_nil_iff_forall_not_mem.mpr fun e he => hnot ?_
    obtain ⟨hlt, heq, -⟩ := TemporalGraph.of_mem_userEvents he
    exact heq ▸ InteractionData.user_lt_numUsers hlt
  simp [sample, hnone] at h

/-- **Sampled graphs are in bounds.** -/
theorem Sampled.inBounds {s : GraphSample} (h : Sampled s) : s.InBounds := by
  cases h with
  | @training g cfg user cutoff s h =>
      have hwell := wellFormed_of_sample (user_lt_of_sample h) h
      exact ⟨hwell.toUsers.inBounds, hwell.toItems.inBounds,
        (List.getElem?_eq_some_iff.mp hwell.root).1⟩
  | @virtual art history rootUser s root hitems h =>
      cases eq_virtualSample h
      exact virtualSample_inBounds hitems rootUser _ _

/-! ## Maps -/

/-- The rows of one list are those of another at the moved places. -/
def AgreeOn {α : Type} (f : ℕ → ℕ) (rows rows' : List α) : Prop :=
  ∀ v < rows.length, rows'[f v]? = rows[v]?

/-- What a layer reads of a message. -/
def Message.read (g : ℕ → ℕ) (m : Message) : ℕ × ℕ × ℕ := (g m.src, m.relative, m.position)

/-- Every destination has the same messages in the same order. -/
structure EdgesMap (f g : ℕ → ℕ) (n k : ℕ) (e e' : MessageEdges) : Prop where
  incoming : ∀ v < n, (group Message.dst e'.messages (f v)).map (Message.read id) =
    (group Message.dst e.messages v).map (Message.read g)
  counts : ∀ v < n, e'.counts[f v]? = e.counts[v]?
  lastSrc : ∀ v < n, e'.lastSrc[f v]? = e.lastSrc[v]?.map fun s => s.map g
  src_lt : ∀ m ∈ e.messages, m.src < k
  last_lt : ∀ s, some s ∈ e.lastSrc → s < k

/-- A map of one batch into another. -/
structure GraphMap (f g : ℕ → ℕ) (b b' : GraphBatch) : Prop where
  users : AgreeOn f b.users b'.users
  items : AgreeOn g b.items b'.items
  toUsers : EdgesMap f g b.users.length b.items.length b.toUsers b'.toUsers
  toItems : EdgesMap g f b.items.length b.users.length b.toItems b'.toItems

section AgreeOn

variable {α β : Type} {f : ℕ → ℕ} {rows rows' : List α}

theorem AgreeOn.map (h : AgreeOn f rows rows') (φ : α → β) :
    AgreeOn f (rows.map φ) (rows'.map φ) := by
  intro v hv
  rw [List.length_map] at hv
  rw [List.getElem?_map, List.getElem?_map, h v hv]

/-- The image of a place is a place. -/
theorem AgreeOn.lt (h : AgreeOn f rows rows') {v : ℕ} (hv : v < rows.length) :
    f v < rows'.length := by
  have hsome := h v hv
  rw [List.getElem?_eq_getElem hv] at hsome
  exact (List.getElem?_eq_some_iff.mp hsome).1

theorem AgreeOn.getD (h : AgreeOn f rows rows') {v : ℕ} (hv : v < rows.length) (default : α) :
    rows'.getD (f v) default = rows.getD v default := by
  rw [List.getD_eq_getElem?_getD, List.getD_eq_getElem?_getD, h v hv]

end AgreeOn

/-! ## The network over a map -/

section Encode

variable {K : Type} [Field K] [LinearOrder K] {d : ℕ} (net : Network K d) {f g : ℕ → ℕ}

omit [LinearOrder K] in
/-- **Nodes.**  A node and its image look the same to a layer. -/
theorem node_map {center center' source source' : List (Vec K d)} {e e' : MessageEdges}
    (hcenter : AgreeOn f center center') (hsource : AgreeOn g source source')
    (hedges : EdgesMap f g center.length source.length e e') {v : ℕ} (hv : v < center.length) :
    node center' source' e' (f v) = node center source e v := by
  have hincoming : (group Message.dst e'.messages (f v)).map (incomingOf source') =
      (group Message.dst e.messages v).map (incomingOf source) := by
    have hread : ∀ (states : List (Vec K d)), (incomingOf states : Message → Incoming K d) =
        (fun r : ℕ × ℕ × ℕ => ⟨states.getD r.1 0, r.2.1, r.2.2⟩) ∘ Message.read id :=
      fun _ => rfl
    rw [hread, ← List.map_map, hedges.incoming v hv, List.map_map]
    refine List.map_congr_left fun m hm => ?_
    have hsrc := hedges.src_lt m (mem_group.mp hm).1
    simp only [Function.comp_apply, Message.read, incomingOf, hsource.getD hsrc 0]
  have hlatest : (e'.lastSrc[f v]?.map fun s => s.map fun s => source'.getD s 0) =
      e.lastSrc[v]?.map fun s => s.map fun s => source.getD s 0 := by
    rw [hedges.lastSrc v hv, Option.map_map]
    cases hlast : e.lastSrc[v]? with
    | none => rfl
    | some s =>
        cases s with
        | none => rfl
        | some s =>
            have hlt := hedges.last_lt s (List.mem_of_getElem? hlast)
            simp only [Option.map_some, Function.comp_apply, hsource.getD hlt 0]
  rw [node, node, hcenter.getD hv 0, hincoming, hedges.counts v hv, hlatest]

variable {b b' : GraphBatch}

/-- A layer respects a map. -/
theorem forward_map (hmap : GraphMap f g b b') (layer : Layer K d)
    {users users' items items' : List (Vec K d)} (husers : AgreeOn f users users')
    (hitems : AgreeOn g items items') (hnu : users.length = b.users.length)
    (hni : items.length = b.items.length) :
    AgreeOn f (net.forward layer users items b).1 (net.forward layer users' items' b').1 ∧
      AgreeOn g (net.forward layer users items b).2 (net.forward layer users' items' b').2 := by
  have htoUsers := hmap.toUsers
  have htoItems := hmap.toItems
  rw [← hnu, ← hni] at htoUsers htoItems
  constructor
  · intro v hv
    rw [net.forward_users, List.length_map, List.length_range] at hv
    rw [net.forward_users, net.forward_users, List.getElem?_map, List.getElem?_map,
      List.getElem?_range (husers.lt hv), List.getElem?_range hv, Option.map_some,
      Option.map_some, node_map husers hitems htoUsers hv]
  · intro v hv
    rw [net.forward_items, List.length_map, List.length_range] at hv
    rw [net.forward_items, net.forward_items, List.getElem?_map, List.getElem?_map,
      List.getElem?_range (hitems.lt hv), List.getElem?_range hv, Option.map_some,
      Option.map_some, node_map hitems husers htoItems hv]

theorem length_forward (layer : Layer K d) (users items : List (Vec K d)) (b : GraphBatch) :
    (net.forward layer users items b).1.length = users.length ∧
      (net.forward layer users items b).2.length = items.length := by
  rw [net.forward_users, net.forward_items]
  simp

/-- All layers do. -/
theorem statesAt_map (hmap : GraphMap f g b b') {r : ℕ} (hr : r < b.users.length)
    (layers : List (Layer K d)) {users users' items items' : List (Vec K d)}
    (husers : AgreeOn f users users') (hitems : AgreeOn g items items')
    (hnu : users.length = b.users.length) (hni : items.length = b.items.length) :
    net.statesAt b' (f r) layers users' items' = net.statesAt b r layers users items := by
  induction layers generalizing users users' items items' with
  | nil => rw [Network.statesAt, Network.statesAt, husers.getD (hnu ▸ hr) 0]
  | cons layer layers ih =>
      obtain ⟨hnextUsers, hnextItems⟩ := forward_map net hmap layer husers hitems hnu hni
      obtain ⟨hlenUsers, hlenItems⟩ := length_forward net layer users items b
      rw [Network.statesAt, Network.statesAt, husers.getD (hnu ▸ hr) 0,
        ih hnextUsers hnextItems (hlenUsers.trans hnu) (hlenItems.trans hni)]

/-- **The network over a map.**  The row of a root is the row of its image. -/
theorem encodeFrom_map (hmap : GraphMap f g b b') {i i' r : ℕ} (hroot : b.roots[i]? = some r)
    (hroot' : b'.roots[i']? = some (f r)) (hr : r < b.users.length)
    {users users' items items' : List (Vec K d)} (husers : AgreeOn f users users')
    (hitems : AgreeOn g items items') (hnu : users.length = b.users.length)
    (hni : items.length = b.items.length) :
    (net.encodeFrom users' items' b')[i']? = (net.encodeFrom users items b)[i]? := by
  rw [net.getElem?_encodeFrom hroot', net.getElem?_encodeFrom hroot,
    statesAt_map net hmap hr net.layers husers hitems hnu hni]

end Encode

end Dgsr
