import GraphRec.Dgsr.Batching

/-!
# The recurrence, message by message

The loop of `ChronologicalGRU` runs over the chronological steps, each for all destinations that
still have a message.  When the places of a destination's messages are 0, 1, 2, ..., every step
consumes one of its messages: `forward_sequential` — the state of a destination is the fold of the
cell over its messages, oldest first.

`Sampled.chronological` — the messages of sampled graphs have such places.
-/

namespace Dgsr

open Grouping

/-- The messages run from `k` sources, and those of a destination have the places 0, 1, 2, ...,
wherever they stand in the list. -/
structure MessageEdges.Chronological (e : MessageEdges) (k : ℕ) : Prop where
  dst_lt : ∀ m ∈ e.messages, m.dst < e.counts.length
  src_lt : ∀ m ∈ e.messages, m.src < k
  ranked : ∀ v < e.counts.length, ((group Message.dst e.messages v).map Message.position).Perm
    (List.range (group Message.dst e.messages v).length)

/-- The messages of a destination, oldest first. -/
def MessageEdges.chronicle (e : MessageEdges) (v : ℕ) : List Message :=
  (group Message.dst e.messages v).insertionSort fun a b => a.position ≤ b.position

/-- A chronicle has the places in their order. -/
theorem MessageEdges.Chronological.positions {e : MessageEdges} {k : ℕ} (h : e.Chronological k)
    {v : ℕ} (hv : v < e.counts.length) :
    (e.chronicle v).map Message.position = List.range (e.chronicle v).length := by
  have : Std.Total fun a b : Message => a.position ≤ b.position := ⟨fun a b => Nat.le_total _ _⟩
  have : IsTrans Message fun a b => a.position ≤ b.position := ⟨fun a b c => Nat.le_trans⟩
  have hperm : (e.chronicle v).Perm (group Message.dst e.messages v) :=
    List.perm_insertionSort _ _
  have hsorted : ((e.chronicle v).map Message.position).Pairwise (· ≤ ·) :=
    List.pairwise_map.mpr (List.pairwise_insertionSort _ _)
  rw [← insertionSort_eq_of_perm List.pairwise_lt_range
    ((hperm.map Message.position).trans (hperm.length_eq ▸ h.ranked v hv))]
  exact (hsorted.insertionSort_eq).symm

namespace Gru

variable {K : Type} [Field K] {d : ℕ} (fn : Functions K) (gru : Gru K d) (source : List (Vec K d))

/-- The cell folded over messages, from the zero state. -/
def sequential (ms : List Message) : Vec K d :=
  ms.foldl (fun old m => gru.cell fn (source.getD m.src 0) old) 0

/-- A step at a place that one message has. -/
theorem advanceNode_single {ms : List Message} {step : ℕ} {m : Message}
    (h : group Message.position ms step = [m]) (state : Vec K d) :
    gru.advanceNode fn (ms.map (incomingOf source)) state step =
      gru.cell fn (source.getD m.src 0) state := by
  have hfilter : (ms.map (incomingOf source)).filter (fun x => decide (x.position = step)) =
      (group Message.position ms step).map (incomingOf source) := List.filter_map
  rw [advanceNode, hfilter, h]
  rfl

/-- The steps from `first` on consume the messages from that place on, one each. -/
theorem foldl_advanceNode {ms sorted : List Message} {first : ℕ}
    (hsorted : sorted.map Message.position = List.range' first sorted.length)
    (hgroup : ∀ step, first ≤ step →
      group Message.position ms step = group Message.position sorted step) (state : Vec K d) :
    (List.range' first sorted.length).foldl
        (gru.advanceNode fn (ms.map (incomingOf source))) state =
      sorted.foldl (fun old m => gru.cell fn (source.getD m.src 0) old) state := by
  induction sorted generalizing first state with
  | nil => rfl
  | cons m sorted ih =>
      rw [List.length_cons, List.range'_succ, List.map_cons, List.cons.injEq] at hsorted
      obtain ⟨hfirst, hsorted⟩ := hsorted
      have hlater : ∀ m' ∈ sorted, first + 1 ≤ m'.position := by
        intro m' hm'
        have hmem := hsorted ▸ List.mem_map_of_mem (f := Message.position) hm'
        exact (List.mem_range'_1.mp hmem).1
      have hsingle : group Message.position ms first = [m] := by
        rw [hgroup first le_rfl, group, List.filter_cons_of_pos (by simpa using hfirst),
          List.filter_eq_nil_iff.mpr]
        intro m' hm'
        have := hlater m' hm'
        rw [decide_eq_true_eq]
        omega
      have hrest : ∀ step, first + 1 ≤ step →
          group Message.position ms step = group Message.position sorted step := by
        intro step hstep
        rw [hgroup step (by omega), group, List.filter_cons_of_neg]
        · rfl
        · rw [decide_eq_true_eq]
          omega
      rw [List.length_cons, List.range'_succ, List.foldl_cons, List.foldl_cons,
        advanceNode_single fn gru source hsingle, ih hsorted hrest]

/-- The recurrence at a node, message by message. -/
theorem atNode_eq_sequential {e : MessageEdges} {k : ℕ} (h : e.Chronological k) {v : ℕ}
    (hv : v < e.counts.length) (center : List (Vec K d)) :
    gru.atNode fn (node center source e v) = gru.sequential fn source (e.chronicle v) := by
  have hpositions := h.positions hv
  have hmem : ∀ x ∈ (node center source e v).incoming, x.position < (e.chronicle v).length := by
    intro x hx
    obtain ⟨m, hm, rfl⟩ := List.mem_map.mp hx
    have hin : m ∈ e.chronicle v := (List.mem_insertionSort _).mpr hm
    exact List.mem_range.mp (hpositions ▸ List.mem_map_of_mem (f := Message.position) hin)
  have hbound : ((node center source e v).incoming.map Incoming.position).max?.elim 0 (· + 1) ≤
      (e.chronicle v).length := by
    cases hmax : ((node center source e v).incoming.map Incoming.position).max? with
    | none => exact Nat.zero_le _
    | some p =>
        obtain ⟨x, hx, rfl⟩ := List.mem_map.mp (List.max?_mem hmax)
        exact hmem x hx
  have hcount : (node center source e v).count = some e.counts[v] := List.getElem?_eq_getElem hv
  rw [atNode, hcount]
  dsimp only
  rw [← foldl_advanceNode_of_lt fn gru (fun x hx => lt_of_mem_max (List.mem_map_of_mem hx)) 0
    hbound, node_incoming, List.range_eq_range', sequential]
  refine foldl_advanceNode fn gru source (hpositions.trans List.range_eq_range') ?_ 0
  exact fun step _ => (group_insertionSort _ step).symm

/-- Every destination has a state. -/
theorem length_forward (edges : MessageEdges) :
    (gru.forward fn source edges).length = edges.counts.length := by
  have hsteps : ∀ (counts : List ℕ) (state : List (Vec K d) × List Message),
      (counts.foldl (gru.advance fn source) state).1.length = state.1.length := by
    intro counts
    induction counts with
    | nil => exact fun _ => rfl
    | cons count counts ih =>
        intro state
        rw [List.foldl_cons, ih, advance, Scatter.length_indexCopy]
  unfold forward
  split
  · exact List.length_replicate
  · rw [hsteps, List.length_replicate]

/-- **The batched schedule is the sequential one.** -/
theorem forward_sequential {edges : MessageEdges} (h : edges.Chronological source.length) :
    (gru.forward fn source edges).length = edges.counts.length ∧
    ∀ v < edges.counts.length,
      (gru.forward fn source edges)[v]? = some (gru.sequential fn source (edges.chronicle v)) ∧
      ((∀ m ∈ edges.messages, m.dst ≠ v) → (gru.forward fn source edges)[v]? = some 0) := by
  refine ⟨length_forward fn gru source edges, fun v hv => ?_⟩
  have hlt : v < (gru.forward fn source edges).length :=
    (length_forward fn gru source edges).symm ▸ hv
  have hstate : (gru.forward fn source edges)[v]? =
      some (gru.sequential fn source (edges.chronicle v)) := by
    rw [← atNode_eq_sequential fn gru source h hv [], ← getD_forward,
      List.getD_eq_getElem?_getD, List.getElem?_eq_getElem hlt, Option.getD_some]
  refine ⟨hstate, fun hnone => ?_⟩
  rw [hstate, MessageEdges.chronicle, group_eq_nil hnone]
  rfl

/-- Three messages of two destinations, the later one first, and a destination without any. -/
def raggedEdges : MessageEdges where
  messages := [⟨1, 0, 0, 1, some 2⟩, ⟨1, 2, 0, 0, some 1⟩, ⟨0, 0, 1, 0, some 0⟩]
  counts := [2, 0, 1]
  lastSrc := [some 1, none, some 1]

/-- The first destination hears its second message first. -/
theorem forward_sequential_ragged : ∃ states,
    plainLayer.userGru.forward realFunctions [1, 2] raggedEdges = states ∧
    states[0]? = some (plainLayer.userGru.cell realFunctions 2
      (plainLayer.userGru.cell realFunctions 1 0)) ∧ states[1]? = some 0 := by
  have hchronological : raggedEdges.Chronological [(1 : Vec ℝ 1), 2].length :=
    ⟨by decide, by decide, by decide⟩
  obtain ⟨-, hstates⟩ := forward_sequential realFunctions plainLayer.userGru [1, 2] hchronological
  exact ⟨_, rfl, (hstates 0 (by decide)).1, (hstates 1 (by decide)).2 (by decide)⟩

end Gru

/-! ## Sampled graphs -/

/-- Rows of messages in bounds are chronological. -/
theorem MessageEdges.InBounds.chronological {e : MessageEdges} {n k : ℕ} (h : e.InBounds n k)
    (hranked : ∀ v < n, (group Message.dst e.messages v).map Message.position =
      List.range (group Message.dst e.messages v).length) : e.Chronological k where
  dst_lt := h.length_counts ▸ h.dst_lt
  src_lt := h.src_lt
  ranked v hv := by rw [hranked v (h.length_counts ▸ hv)]

/-- The messages into one of the destinations of grouped edges. -/
theorem group_groupMessages {edges : List Edge} {dst src : Edge → ℕ} {size limit v : ℕ}
    (hlt : ∀ e ∈ edges, dst e < size) (hv : v < size) :
    group Message.dst (groupMessages edges dst src size limit).messages v =
      row src Edge.event v (keepLast limit (group dst edges v)) := by
  have hsingle : ∀ n, v < n → (List.range n).flatMap (fun d =>
      if d = v then row src Edge.event d (keepLast limit (group dst edges d)) else []) =
        row src Edge.event v (keepLast limit (group dst edges v)) := by
    intro n hn
    induction n with
    | zero => omega
    | succ n ih =>
        rw [List.range_succ, List.flatMap_append, List.flatMap_singleton]
        rcases Nat.lt_succ_iff_lt_or_eq.mp hn with hlt | rfl
        · rw [ih hlt, if_neg (by omega), List.append_nil]
        · rw [if_pos rfl, List.flatMap_eq_nil_iff.mpr, List.nil_append]
          exact fun d hd => if_neg (List.mem_range.mp hd).ne
  rw [groupMessages_eq hlt, group, List.filter_flatMap]
  simp only [filter_row]
  exact hsingle size hv

/-- Grouped edges are chronological when their ends are indices. -/
theorem groupMessages_chronological {edges : List Edge} {dst src : Edge → ℕ} {size k limit : ℕ}
    (hdst : ∀ e ∈ edges, dst e < size) (hsrc : ∀ e ∈ edges, src e < k) :
    (groupMessages edges dst src size limit).Chronological k :=
  (groupMessages_inBounds hdst hsrc).chronological fun v hv => by
    rw [group_groupMessages hdst hv, row_position, length_row]

/-- Well-formed messages are chronological. -/
theorem MessageEdges.WellFormed.chronological {e : MessageEdges} {dests srcs : List ℕ}
    {destOf srcOf : ℕ → ℕ} {events : List ℕ} {limit : ℕ}
    (h : e.WellFormed dests srcs destOf srcOf events limit) : e.Chronological srcs.length :=
  h.inBounds.chronological fun v hv => by
    rw [group, h.ranked v hv, List.countP_eq_length_filter]

theorem virtualSample_chronological {art : Artifact} {history : List HistoryEvent}
    (hitems : ∀ x ∈ history, x.item < art.data.numItems) (rootUser : Option ℕ)
    (users items : Finset ℕ) :
    let s := virtualSample art history rootUser users items
    s.toUsers.Chronological s.items.length ∧ s.toItems.Chronological s.users.length := by
  refine ⟨groupMessages_chronological (fun _ hx => (edgeTable_lt hitems hx).1)
    fun _ hx => (edgeTable_lt hitems hx).2, ?_⟩
  rw [length_users_virtualSample]
  exact groupMessages_chronological (fun _ hx => (edgeTable_lt hitems hx).2)
    fun _ hx => (edgeTable_lt hitems hx).1

/-- **Sampled graphs are chronological**, on either side. -/
theorem Sampled.chronological {s : GraphSample} (h : Sampled s) :
    s.toUsers.Chronological s.items.length ∧ s.toItems.Chronological s.users.length := by
  cases h with
  | @training g cfg user cutoff s h =>
      have hwell := wellFormed_of_sample (user_lt_of_sample h) h
      exact ⟨hwell.toUsers.chronological, hwell.toItems.chronological⟩
  | @virtual art history rootUser s root hitems h =>
      cases eq_virtualSample h
      exact virtualSample_chronological hitems rootUser _ _

end Dgsr
