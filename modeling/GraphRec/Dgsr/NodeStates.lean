import GraphRec.Dgsr.Network

/-!
# A layer, node by node

The operations on tensors of a layer come down to functions of single nodes: what a node's next
state is depends on its state, on its incoming messages in their order (the states of their
sources and their places), on its count and on its latest source (`Node`).

* `forward_users`, `forward_items` — a layer, node by node;
* `getElem?_gru` — the recurrence, whose steps run over all nodes at once, for one node.
-/

namespace Dgsr

open Grouping Scatter

/-- An incoming message: the state of its source, and its places. -/
structure Incoming (K : Type) (d : ℕ) where
  state : Vec K d
  relative : ℕ
  position : ℕ

/-- What a layer sees of a node. -/
structure Node (K : Type) (d : ℕ) where
  state : Vec K d
  incoming : List (Incoming K d)
  count : Option ℕ
  latest : Option (Option (Vec K d))

section Node

variable {K : Type} [Field K] {d : ℕ}

/-- An edge as its destination sees it. -/
def incomingOf (source : List (Vec K d)) (m : Message) : Incoming K d :=
  ⟨source.getD m.src 0, m.relative, m.position⟩

/-- The node `v` of a side, the states of the other side given. -/
def node (center source : List (Vec K d)) (edges : MessageEdges) (v : ℕ) : Node K d where
  state := center.getD v 0
  incoming := (group Message.dst edges.messages v).map (incomingOf source)
  count := edges.counts[v]?
  latest := edges.lastSrc[v]?.map fun s => s.map fun s => source.getD s 0

theorem node_incoming (center source : List (Vec K d)) (edges : MessageEdges) (v : ℕ) :
    (node center source edges v).incoming =
      (group Message.dst edges.messages v).map (incomingOf source) := rfl

end Node

/-! ## The recurrence -/

namespace Gru

variable {K : Type} [Field K] {d : ℕ} (fn : Functions K) (gru : Gru K d)

/-- A chronological step at a node: the last of its messages at that place. -/
def advanceNode (incoming : List (Incoming K d)) (state : Vec K d) (step : ℕ) : Vec K d :=
  match (incoming.filter fun x => decide (x.position = step)).getLast? with
  | none => state
  | some x => gru.cell fn x.state state

/-- The recurrence at a node. -/
def atNode (x : Node K d) : Vec K d :=
  match x.count with
  | none => 0
  | some _ =>
      (List.range ((x.incoming.map Incoming.position).max?.elim 0 (· + 1))).foldl
        (gru.advanceNode fn x.incoming) 0

variable (source : List (Vec K d))

/-- One round of the loop, at a node. -/
theorem getElem?_advance (h : List (Vec K d)) (ms rest : List Message) (step v : ℕ) :
    (gru.advance fn source (h, group Message.position ms step ++ rest)
        (group Message.position ms step).length).1[v]? =
      h[v]?.map fun state => gru.advanceNode fn
        ((group Message.dst ms v).map (incomingOf source)) state step := by
  simp only [advance, List.take_left, getElem?_indexCopy_map]
  cases hv : h[v]? with
  | none => rfl
  | some state =>
      rw [Option.map_some, Option.map_some, Option.some_inj, advanceNode]
      have hcomm : (((group Message.dst ms v).map (incomingOf source)).filter
          fun x => decide (x.position = step)) =
            (group Message.dst (group Message.position ms step) v).map (incomingOf source) := by
        rw [List.filter_map, group, group, group, List.filter_comm]
        rfl
      rw [hcomm, List.getLast?_map, List.getLast?_map]
      cases hlast : (group Message.dst (group Message.position ms step) v).getLast? with
      | none => rfl
      | some m =>
          have hdst : m.dst = v := (mem_group.mp (List.mem_of_getLast? hlast)).2
          have hstate : h.getD v 0 = state := by rw [List.getD_eq_getElem?_getD, hv]; rfl
          simp only [Option.map_some, Option.getD_some, hdst, hstate]
          rfl

/-- The loop from the step `first` on, over the edges that are left. -/
theorem getElem?_foldl_advance (ms : List Message) (k first : ℕ) (h : List (Vec K d)) (v : ℕ) :
    ((((List.range' first k).map fun step => (group Message.position ms step).length).foldl
        (gru.advance fn source)
        (h, (List.range' first k).flatMap (group Message.position ms))).1)[v]? =
      h[v]?.map fun state => (List.range' first k).foldl
        (gru.advanceNode fn ((group Message.dst ms v).map (incomingOf source))) state := by
  induction k generalizing first h with
  | zero => simp
  | succ k ih =>
      have hrest : (gru.advance fn source
          (h, group Message.position ms first ++
            (List.range' (first + 1) k).flatMap (group Message.position ms))
          (group Message.position ms first).length).2 =
            (List.range' (first + 1) k).flatMap (group Message.position ms) := List.drop_left
      have hfirst := getElem?_advance fn gru source h ms
        ((List.range' (first + 1) k).flatMap (group Message.position ms)) first v
      rw [List.range'_succ, List.map_cons, List.foldl_cons, List.flatMap_cons]
      generalize gru.advance fn source _ _ = state at hrest hfirst ⊢
      obtain ⟨states, rest⟩ := state
      dsimp only at hrest hfirst
      rw [hrest, ih, hfirst, Option.map_map]
      rfl

/-- Steps without a message change nothing. -/
theorem foldl_advanceNode_of_lt {incoming : List (Incoming K d)} {bound : ℕ}
    (hlt : ∀ x ∈ incoming, x.position < bound) (state : Vec K d) {n : ℕ} (hn : bound ≤ n) :
    (List.range n).foldl (gru.advanceNode fn incoming) state =
      (List.range bound).foldl (gru.advanceNode fn incoming) state := by
  induction n, hn using Nat.le_induction with
  | base => rfl
  | succ n hn ih =>
      have hnone : incoming.filter (fun x => decide (x.position = n)) = [] := by
        refine List.filter_eq_nil_iff.mpr fun x hx => ?_
        have := hlt x hx
        rw [decide_eq_true_eq]
        omega
      rw [List.range_succ, List.foldl_append, ih, List.foldl_cons, List.foldl_nil, advanceNode,
        hnone]
      rfl

/-- The positions are below the one after the largest. -/
theorem lt_of_mem_max {positions : List ℕ} {p : ℕ} (hp : p ∈ positions) :
    p < positions.max?.elim 0 (· + 1) := by
  obtain ⟨m, hm⟩ := Option.isSome_iff_exists.mp
    (List.isSome_max?_iff.mpr (List.ne_nil_of_mem hp))
  rw [hm]
  exact Nat.lt_succ_of_le ((List.max?_eq_some_iff.mp hm).2 p hp)

/-- The edges in the order of their positions, step by step. -/
theorem insertionSort_position (ms : List Message) {n : ℕ} (hlt : ∀ m ∈ ms, m.position < n) :
    ms.insertionSort (fun a b => a.position ≤ b.position) =
      (List.range' 0 n).flatMap (group Message.position ms) := by
  have : Std.Total fun a b : Message => a.position ≤ b.position := ⟨fun a b => Nat.le_total _ _⟩
  have : IsTrans Message fun a b => a.position ≤ b.position := ⟨fun a b c => Nat.le_trans⟩
  have hsorted := List.pairwise_insertionSort (fun a b : Message => a.position ≤ b.position) ms
  have hflat := flatMap_group_of_sorted hsorted fun m hm =>
    hlt m ((List.mem_insertionSort _).mp hm)
  rw [← List.range_eq_range', ← hflat]
  exact List.flatMap_congr fun k _ => group_insertionSort ms k

theorem bincount_positions (ms : List Message) : bincount (ms.map Message.position) =
    (List.range' 0 ((ms.map Message.position).max?.elim 0 (· + 1))).map fun step =>
      (group Message.position ms step).length := by
  rw [bincount, List.range_eq_range']
  refine List.map_congr_left fun k _ => ?_
  rw [List.count, List.countP_map, group, ← List.countP_eq_length_filter]
  refine List.countP_congr fun m _ => ?_
  simp

/-- **The recurrence.**  For a node it is the recurrence over its own messages. -/
theorem getD_forward (center : List (Vec K d)) (edges : MessageEdges) (v : ℕ) :
    (gru.forward fn source edges).getD v 0 = gru.atNode fn (node center source edges v) := by
  have hzero : (List.replicate edges.counts.length (0 : Vec K d))[v]? =
      edges.counts[v]?.map fun _ => 0 := by
    rw [List.getElem?_replicate]
    split
    · next hlt => rw [List.getElem?_eq_getElem hlt, Option.map_some]
    · next hge => rw [List.getElem?_eq_none (by omega), Option.map_none]
  have hgroup : ∀ x ∈ (node center source edges v).incoming,
      x.position < (edges.messages.map Message.position).max?.elim 0 (· + 1) := by
    intro x hx
    obtain ⟨m, hm, rfl⟩ := List.mem_map.mp hx
    exact lt_of_mem_max (List.mem_map_of_mem (mem_group.mp hm).1)
  have hown : ∀ x ∈ (node center source edges v).incoming, x.position <
      ((node center source edges v).incoming.map Incoming.position).max?.elim 0 (· + 1) :=
    fun x hx => lt_of_mem_max (List.mem_map_of_mem hx)
  have hbound : ((node center source edges v).incoming.map
      Incoming.position).max?.elim 0 (· + 1) ≤
        (edges.messages.map Message.position).max?.elim 0 (· + 1) := by
    cases hmax : ((node center source edges v).incoming.map Incoming.position).max? with
    | none => exact Nat.zero_le _
    | some m =>
        obtain ⟨x, hx, rfl⟩ := List.mem_map.mp (List.max?_mem hmax)
        exact hgroup x hx
  rw [List.getD_eq_getElem?_getD, forward, atNode]
  dsimp only
  split
  · next hnil =>
      have hnone : (node center source edges v).incoming = [] := by
        simp [node, hnil, group]
      rw [hzero, hnone]
      cases hcount : edges.counts[v]? <;> simp [node, hcount]
  · rw [bincount_positions, insertionSort_position edges.messages
      fun m hm => lt_of_mem_max (List.mem_map_of_mem hm), getElem?_foldl_advance, hzero,
      Option.map_map]
    cases hcount : edges.counts[v]? with
    | none => simp [node, hcount]
    | some c =>
        have hnode : (node center source edges v).count = some c := hcount
        rw [hnode, Option.map_some, Option.getD_some, Function.comp_apply, ← List.range_eq_range']
        exact foldl_advanceNode_of_lt fn gru hown 0 hbound

end Gru

/-! ## Layers -/

namespace Network

variable {K : Type} [Field K] [LinearOrder K] {d : ℕ} (net : Network K d)

/-- The long-term term of a node. -/
def nodeLong (gru : Gru K d) (keyPositions valuePositions : ℕ → Vec K d)
    (centerProjection sourceProjection : Matrix (Fin d) (Fin d) K) (x : Node K d) : Vec K d :=
  match net.longTerm with
  | .none => 0
  | .gru => gru.atNode net.fn x
  | .gcn =>
      match x.count with
      | none => 0
      | some count => fun i =>
          (x.incoming.map fun y => sourceProjection.mulVec y.state).sum i / ((max count 1 : ℕ) : K)
  | .dat =>
      let logits := x.incoming.map fun y =>
        (centerProjection.mulVec x.state ⬝ᵥ
          (sourceProjection.mulVec y.state + keyPositions y.relative)) / net.scale
      (List.zipWith (fun a value => a • value) (softmax net.fn.exp logits)
        (x.incoming.map fun y => sourceProjection.mulVec y.state + valuePositions y.relative)).sum

/-- The state of a node's latest source, zero without one. -/
def nodeLatest (x : Node K d) : Vec K d := x.latest.elim 0 fun s => s.getD 0

/-- The short-term term of a node. -/
def nodeShort (queryLayer keyLayer : Matrix (Fin d) (Fin d) K) (x : Node K d) : Vec K d :=
  match net.shortTerm with
  | .none => 0
  | .last => nodeLatest x
  | .attention =>
      let logits := x.incoming.map fun y =>
        (queryLayer.mulVec (nodeLatest x) ⬝ᵥ keyLayer.mulVec y.state) / net.scale
      (List.zipWith (fun a value => a • value) (softmax net.fn.exp logits)
        (x.incoming.map Incoming.state)).sum

section Terms

variable (center source : List (Vec K d)) (edges : MessageEdges)

omit [LinearOrder K] in
/-- Projecting the states and reading one is projecting the one. -/
theorem getD_map_mulVec {m : Type} (weight : Matrix m (Fin d) K) (states : List (Vec K d))
    (v : ℕ) : (states.map weight.mulVec).getD v 0 = weight.mulVec (states.getD v 0) := by
  rw [List.getD_eq_getElem?_getD, List.getElem?_map, List.getD_eq_getElem?_getD]
  cases states[v]? with
  | none => exact (weight.mulVec_zero).symm
  | some x => rfl

variable {v : ℕ} (hv : v < center.length)

include hv in
/-- **The long-term term.** -/
theorem getD_long (gru : Gru K d) (keyPositions valuePositions : ℕ → Vec K d)
    (centerProjection sourceProjection : Matrix (Fin d) (Fin d) K) :
    (net.long center source (center.map centerProjection.mulVec)
        (source.map sourceProjection.mulVec) edges gru keyPositions valuePositions).getD v 0 =
      net.nodeLong gru keyPositions valuePositions centerProjection sourceProjection
        (node center source edges v) := by
  cases hmode : net.longTerm with
  | none => simp [long, nodeLong, hmode, hv]
  | gru =>
      simp only [long, nodeLong, hmode]
      exact Gru.getD_forward net.fn gru source center edges v
  | gcn =>
      have hsum := getD_segmentSum_map Message.dst (fun m =>
        (source.map sourceProjection.mulVec).getD m.src 0) edges.messages hv
      simp only [getD_map_mulVec] at hsum
      simp only [long, nodeLong, hmode, getD_map_mulVec]
      rw [List.getD_eq_getElem?_getD, List.getElem?_zipWith, List.getElem?_eq_getElem
        (by simpa using hv)]
      cases hcount : edges.counts[v]? with
      | none => simp [node, hcount]
      | some count =>
          rw [List.getD_eq_getElem?_getD, List.getElem?_eq_getElem (by simpa using hv),
            Option.getD_some] at hsum
          simp [node, hcount, hsum, incomingOf, Function.comp_def]
  | dat =>
      have hweighted := getD_weighted net.fn.exp Message.dst (fun m =>
        (centerProjection.mulVec (center.getD m.dst 0) ⬝ᵥ
          (sourceProjection.mulVec (source.getD m.src 0) + keyPositions m.relative)) / net.scale)
        (fun m => sourceProjection.mulVec (source.getD m.src 0) + valuePositions m.relative)
        edges.messages hv
      simp only [long, nodeLong, hmode, getD_map_mulVec, List.zipWith_map_right,
        List.zipWith_self]
      rw [hweighted, node_incoming, List.zipWith_map_right, List.map_map]
      congr 3
      refine List.map_congr_left fun m hm => ?_
      rw [(mem_group.mp hm).2]
      rfl

include hv in
/-- **The short-term term.** -/
theorem getD_short (queryLayer keyLayer : Matrix (Fin d) (Fin d) K) :
    (net.short center source edges queryLayer keyLayer).getD v 0 =
      net.nodeShort queryLayer keyLayer (node center source edges v) := by
  have hlatest : ∀ v, (edges.lastSrc.map fun s =>
      (if s.isSome then (1 : K) else 0) • source.getD (s.getD 0) 0).getD v 0 =
        nodeLatest (node center source edges v) := by
    intro v
    rw [List.getD_eq_getElem?_getD, List.getElem?_map, nodeLatest, node]
    cases edges.lastSrc[v]? with
    | none => rfl
    | some s => cases s <;> simp
  cases hmode : net.shortTerm with
  | none => simp [short, nodeShort, hmode, hv]
  | last =>
      simp only [short, nodeShort, hmode]
      exact hlatest v
  | attention =>
      have hweighted := getD_weighted net.fn.exp Message.dst (fun m =>
        (queryLayer.mulVec (nodeLatest (node center source edges m.dst)) ⬝ᵥ
          keyLayer.mulVec (source.getD m.src 0)) / net.scale)
        (fun m => source.getD m.src 0) edges.messages hv
      simp only [short, nodeShort, hmode, getD_map_mulVec, hlatest, List.zipWith_map_right,
        List.zipWith_self]
      rw [hweighted, node_incoming, List.zipWith_map_right, List.map_map]
      congr 3
      refine List.map_congr_left fun m hm => ?_
      rw [(mem_group.mp hm).2]
      rfl

end Terms

/-- The next state of a user. -/
def nextUser (layer : Layer K d) (x : Node K d) : Vec K d :=
  net.updateRow layer.userUpdate
    (net.nodeLong layer.userGru (layer.keyPositions.getD net.keyPositions)
      (layer.valuePositions.getD net.valuePositions) layer.userProjection layer.itemProjection x)
    (net.nodeShort layer.lastItemQuery layer.userProjection x) x.state

/-- The next state of an item. -/
def nextItem (layer : Layer K d) (x : Node K d) : Vec K d :=
  net.updateRow layer.itemUpdate
    (net.nodeLong layer.itemGru (layer.keyPositions.getD net.keyPositions)
      (layer.valuePositions.getD net.valuePositions) layer.itemProjection layer.userProjection x)
    (net.nodeShort layer.lastUserQuery layer.itemProjection x) x.state

section Forward

variable (layer : Layer K d) (users items : List (Vec K d)) (batch : GraphBatch)

/-- **A layer, user by user.** -/
theorem forward_users : (net.forward layer users items batch).1 =
    (List.range users.length).map fun v =>
      net.nextUser layer (node users items batch.toUsers v) := by
  refine List.map_congr_left fun v hv => ?_
  have hlt := List.mem_range.mp hv
  rw [getD_long net users items batch.toUsers hlt, getD_short net users items batch.toUsers hlt]
  rfl

/-- **A layer, item by item.** -/
theorem forward_items : (net.forward layer users items batch).2 =
    (List.range items.length).map fun v =>
      net.nextItem layer (node items users batch.toItems v) := by
  refine List.map_congr_left fun v hv => ?_
  have hlt := List.mem_range.mp hv
  rw [getD_long net items users batch.toItems hlt, getD_short net items users batch.toItems hlt]
  rfl

end Forward

/-! ## Roots -/

/-- The states of one user: at first, and after each layer. -/
def statesAt (batch : GraphBatch) (r : ℕ) : List (Layer K d) → List (Vec K d) → List (Vec K d) →
    List (Vec K d)
  | [], users, _ => [users.getD r 0]
  | layer :: layers, users, items =>
      let next := net.forward layer users items batch
      users.getD r 0 :: statesAt batch r layers next.1 next.2

/-- The rows at a root are the states of that user. -/
theorem rootStates_at {batch : GraphBatch} {i r : ℕ} (hroot : batch.roots[i]? = some r)
    (layers : List (Layer K d)) (users items : List (Vec K d)) :
    (atRoots users batch :: net.rootStates batch layers users items).map (fun row => row.getD i 0) =
      net.statesAt batch r layers users items := by
  have hat : ∀ states : List (Vec K d), (atRoots states batch).getD i 0 = states.getD r 0 := by
    intro states
    rw [List.getD_eq_getElem?_getD, atRoots, List.getElem?_map, hroot]
    rfl
  induction layers generalizing users items with
  | nil => rw [rootStates, List.map_singleton, hat, statesAt]
  | cons layer layers ih => rw [List.map_cons, hat, rootStates, ih, statesAt]

/-- The row of a root, read off its states. -/
theorem getElem?_encodeFrom {batch : GraphBatch} {i r : ℕ} (hroot : batch.roots[i]? = some r)
    (users items : List (Vec K d)) : (net.encodeFrom users items batch)[i]? =
      some (net.readout.mulVec fun (k, j) =>
        (net.statesAt batch r net.layers users items).getD k 0 j) := by
  have hlt : i < batch.roots.length := (List.getElem?_eq_some_iff.mp hroot).1
  have hread : ∀ (rows : List (List (Vec K d))) (k : ℕ),
      (rows.getD k []).getD i 0 = (rows.map fun row => row.getD i 0).getD k 0 := by
    intro rows k
    rw [List.getD_eq_getElem?_getD (l := rows), List.getD_eq_getElem?_getD (l := rows.map _),
      List.getElem?_map]
    cases rows[k]? <;> rfl
  rw [encodeFrom, readRoots, List.getElem?_map, List.getElem?_range hlt, Option.map_some,
    ← net.rootStates_at hroot]
  congr 2
  funext ⟨k, j⟩
  exact congrFun (hread _ k) j

end Network

end Dgsr
