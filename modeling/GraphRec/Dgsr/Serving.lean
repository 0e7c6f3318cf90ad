import GraphRec.Dgsr.Graph

/-!
# The serving-time sampler

`sampleVirtual` is `DGSRArtifact._sample_virtual`: it samples around a virtual
root whose edges are a given history.  The neighbourhood is expanded through the
saved graph, the events of a replaced user left out; real and root edges are
merged in one table, sorted by (time, key), and grouped by destination
(`groupMessages`, the source's `_messages`).

`sampleVirtual_spec` puts the result in a normal form over the nodes reached, and
`groupMessages_eq` says what the grouping computes destination by destination.
-/

namespace Dgsr

open Grouping

/-- A loaded artifact, as far as sampling reads it; the model has at least one
user and one item. -/
structure Artifact where
  cfg : Config
  data : InteractionData
  users_pos : 0 < data.numUsers
  items_pos : 0 < data.numItems

namespace Artifact

variable (art : Artifact)

/-- Everything is visible at serving time; no policy looks at the roles. -/
def graph : TemporalGraph := ⟨art.data, allowedEvents art.cfg (fun _ => 0) .inference⟩

/-- The last event id. -/
def cutoff : ℕ := art.data.size - 1

end Artifact

/-- An event of a supplied history. -/
structure HistoryEvent where
  item : ℕ
  time : ℤ
  deriving DecidableEq, Repr

/-- A row of the edge table; a root edge has no event id. -/
structure Edge where
  time : ℤ
  key : ℕ
  user : ℕ
  item : ℕ
  event : Option ℕ
  deriving DecidableEq, Repr

/-- `lexsort((key, time))`: by time, then by key. -/
def Edge.le (a b : Edge) : Prop := a.time < b.time ∨ a.time = b.time ∧ a.key ≤ b.key

instance : DecidableRel Edge.le := fun a b =>
  inferInstanceAs (Decidable (a.time < b.time ∨ a.time = b.time ∧ a.key ≤ b.key))

/-- The destination of a group of edges, that of its first edge. -/
def groupDest (dst : Edge → ℕ) (g : List Edge) : ℕ := (g.head?.map dst).getD 0

/-- `_messages`: group the sorted edges by destination and keep the last `limit`
of each group. -/
def groupMessages (edges : List Edge) (dst src : Edge → ℕ) (size limit : ℕ) :
    MessageEdges where
  messages := (groups dst edges).flatMap fun g =>
    row src Edge.event (groupDest dst g) (keepLast limit g)
  counts := (groups dst edges).foldl
    (fun counts g => counts.set (groupDest dst g) (keepLast limit g).length)
    (List.replicate size 0)
  lastSrc := (groups dst edges).foldl
    (fun latest g => latest.set (groupDest dst g) ((keepLast limit g).getLast?.map src))
    (List.replicate size none)

/-- The real edges, the sampled users' visible events on sampled items. -/
def realEdges (data : InteractionData) (orderedUsers orderedItems eids : List ℕ) : List Edge :=
  eids.map fun e => ⟨data.time e, e, orderedUsers.idxOf (data.user e),
    orderedItems.idxOf (data.item e), some e⟩

/-- The root's edges; their keys come after those of all real edges. -/
def rootEdges (data : InteractionData) (rootLocal : ℕ) (orderedItems : List ℕ)
    (rootEvents : List HistoryEvent) : List Edge :=
  rootEvents.zipIdx.map fun (event, k) =>
    ⟨event.time, k + (data.size + 1), rootLocal, orderedItems.idxOf event.item, none⟩

/-- The rest of `_sample_virtual`, once the nodes are known. -/
def induceVirtual (art : Artifact) (history : List HistoryEvent) (rootUser : Option ℕ)
    (users items : Finset ℕ) : Except SampleError (GraphSample × ℕ) :=
  let cfg := art.cfg
  let data := art.data
  let orderedUsers := ascending data.numUsers users
  let orderedItems := ascending data.numItems items
  let rootLocal := orderedUsers.length
  let eids := collected art.graph art.cutoff users items
  if cfg.maxSampleEdges ≠ 0 ∧ eids.length + history.length > cfg.maxSampleEdges then
    .error (.maxSampleEdges cfg.maxSampleEdges)
  else
    let rootEvents := history.filter fun event => decide (event.item ∈ items)
    let edges := (realEdges data orderedUsers orderedItems eids ++
      rootEdges data rootLocal orderedItems rootEvents).insertionSort Edge.le
    .ok ({
      users := orderedUsers ++ [rootUser.getD 0]
      items := orderedItems
      toUsers := groupMessages edges Edge.user Edge.item (orderedUsers.length + 1)
        cfg.recentItems
      toItems := groupMessages edges Edge.item Edge.user orderedItems.length
        cfg.itemNeighborLimit
      root := rootLocal
      cutoff := art.cutoff
      inducedEvents := eids.insertionSort (· ≤ ·) }, rootLocal)

/-- The items the expansion starts from: those of the newest events. -/
def virtualItems (cfg : Config) (history : List HistoryEvent) : Finset ℕ :=
  ((history.rtake cfg.recentItems).map HistoryEvent.item).toFinset

/-- `_sample_virtual`. -/
def sampleVirtual (art : Artifact) (history : List HistoryEvent) (rootUser : Option ℕ) :
    Except SampleError (GraphSample × ℕ) :=
  let items := virtualItems art.cfg history
  match checkNodes art.cfg ∅ items with
  | .error e => .error e
  | .ok () =>
      match expandRounds art.graph art.cfg art.cutoff (fun u => decide (some u = rootUser))
          ∅ items with
      | .error e => .error e
      | .ok (users, items) => induceVirtual art history rootUser users items

/-! ## What the grouping computes -/

section GroupMessages

variable {dst src : Edge → ℕ} {edges : List Edge} {size limit : ℕ}

/-- The first edge of a group has its destination. -/
theorem groupDest_group {d : ℕ} (h : group dst edges d ≠ []) :
    groupDest dst (group dst edges d) = d := by
  obtain ⟨e, rest, hcons⟩ := List.exists_cons_of_ne_nil h
  have hmem : e ∈ group dst edges d := by rw [hcons]; exact List.mem_cons_self
  rw [hcons]
  exact (mem_group.mp hmem).2

/-- **The grouping, destination by destination.**  The messages come by ascending
destination; a destination has the last `limit` of its edges. -/
theorem groupMessages_eq (hlt : ∀ e ∈ edges, dst e < size) :
    groupMessages edges dst src size limit = {
      messages := (List.range size).flatMap fun d =>
        row src Edge.event d (keepLast limit (group dst edges d))
      counts := (List.range size).map fun d => (keepLast limit (group dst edges d)).length
      lastSrc := (List.range size).map fun d =>
        (keepLast limit (group dst edges d)).getLast?.map src } := by
  unfold groupMessages
  congr 1
  · -- An absent destination contributes no message.
    rw [groups_eq hlt]
    have hnone : ∀ ks : List ℕ, (∀ k ∈ ks, k < size) →
        (((ks.map (group dst edges)).filter fun g => !g.isEmpty).flatMap fun g =>
          row src Edge.event (groupDest dst g) (keepLast limit g)) =
        ks.flatMap fun d => row src Edge.event d (keepLast limit (group dst edges d)) := by
      intro ks
      induction ks with
      | nil => exact fun _ => rfl
      | cons k ks ih =>
          intro hks
          have hrest := ih fun k hk => hks k (List.mem_cons_of_mem _ hk)
          by_cases hnil : group dst edges k = []
          · simp [hnil, hrest]
          · simp [hnil, hrest, groupDest_group hnil]
    exact hnone _ fun k hk => List.mem_range.mp hk
  · rw [foldl_set_groups hlt (groupDest dst) (fun g => (keepLast limit g).length) 0
      fun k _ hk => groupDest_group hk]
    refine List.map_congr_left fun d _ => ?_
    split
    · next hnil => simp [hnil]
    · rfl
  · rw [foldl_set_groups hlt (groupDest dst) (fun g => (keepLast limit g).getLast?.map src) none
      fun k _ hk => groupDest_group hk]
    refine List.map_congr_left fun d _ => ?_
    split
    · next hnil => simp [hnil]
    · rfl

end GroupMessages

/-! ## Everything is visible -/

section Visible

variable {art : Artifact}

theorem graph_allowed (e : ℕ) : art.graph.allowed e = true := by
  cases hpolicy : art.cfg.graphPolicy <;> simp [Artifact.graph, allowedEvents, hpolicy]

theorem graph_byUser (u : ℕ) : art.graph.byUser u = art.data.byUser u :=
  List.filter_eq_self.mpr fun e _ => graph_allowed e

/-- Up to the last event is everything. -/
theorem graph_userEvents (u limit : ℕ) :
    art.graph.userEvents u art.cutoff limit = keepLast limit (art.data.byUser u) := by
  have hall : (art.data.byUser u).filter (fun e => decide (e ≤ art.cutoff)) =
      art.data.byUser u := by
    refine List.filter_eq_self.mpr fun e he => ?_
    have hlt := (InteractionData.mem_byUser.mp he).1
    rw [decide_eq_true_eq, Artifact.cutoff]
    omega
  rw [TemporalGraph.userEvents_eq, graph_byUser, hall]

theorem mem_inducedEdges_graph {users items : Finset ℕ} {e : ℕ} :
    e ∈ inducedEdges art.graph art.cutoff users items ↔
      e < art.data.size ∧ art.data.user e ∈ users ∧ art.data.item e ∈ items := by
  have hcutoff : e < art.data.size → e ≤ art.cutoff := fun h => by
    simp only [Artifact.cutoff]
    omega
  rw [mem_inducedEdges]
  constructor
  · intro hcase
    obtain ⟨hlt, _, _, huser, hitem⟩ := hcase
    exact ⟨hlt, huser, hitem⟩
  · intro hcase
    obtain ⟨hlt, huser, hitem⟩ := hcase
    exact ⟨hlt, graph_allowed e, hcutoff hlt, huser, hitem⟩

/-- The induced edges of a sampled user are its events on the sampled items. -/
theorem inducedEdges_filter_user {users items : Finset ℕ} {u : ℕ} (hu : u ∈ users) :
    (inducedEdges art.graph art.cutoff users items).filter
        (fun e => decide (art.data.user e = u)) =
      (art.data.byUser u).filter fun e => decide (art.data.item e ∈ items) := by
  refine eq_of_increasing ((inducedEdges_increasing _ _ _ _).filter _)
    ((art.data.byUser_increasing u).filter _) fun e => ?_
  simp only [List.mem_filter, mem_inducedEdges_graph, InteractionData.mem_byUser,
    decide_eq_true_eq]
  constructor
  · intro hcase
    obtain ⟨⟨hlt, _, hitem⟩, heq⟩ := hcase
    exact ⟨⟨hlt, heq⟩, hitem⟩
  · intro hcase
    obtain ⟨⟨hlt, heq⟩, hitem⟩ := hcase
    exact ⟨⟨hlt, heq ▸ hu, hitem⟩, heq⟩

/-- The induced edges of a sampled item are its events by the sampled users. -/
theorem inducedEdges_filter_item {users items : Finset ℕ} {i : ℕ} (hi : i ∈ items) :
    (inducedEdges art.graph art.cutoff users items).filter
        (fun e => decide (art.data.item e = i)) =
      (art.data.byItem i).filter fun e => decide (art.data.user e ∈ users) := by
  refine eq_of_increasing ((inducedEdges_increasing _ _ _ _).filter _)
    ((art.data.byItem_increasing i).filter _) fun e => ?_
  simp only [List.mem_filter, mem_inducedEdges_graph, InteractionData.mem_byItem,
    decide_eq_true_eq]
  constructor
  · intro hcase
    obtain ⟨⟨hlt, huser, _⟩, heq⟩ := hcase
    exact ⟨⟨hlt, heq⟩, huser⟩
  · intro hcase
    obtain ⟨⟨hlt, heq⟩, huser⟩ := hcase
    exact ⟨⟨hlt, huser, heq ▸ hi⟩, heq⟩

end Visible

/-! ## The normal form -/

section NormalForm

variable {art : Artifact} {history : List HistoryEvent} {rootUser : Option ℕ}

/-- The edge table of a virtual sample, before it is sorted. -/
def edgeTable (art : Artifact) (history : List HistoryEvent) (users items : Finset ℕ) :
    List Edge :=
  realEdges art.data (ascending art.data.numUsers users) (ascending art.data.numItems items)
      (collected art.graph art.cutoff users items) ++
    rootEdges art.data (ascending art.data.numUsers users).length
      (ascending art.data.numItems items)
      (history.filter fun event => decide (event.item ∈ items))

/-- The sample over two sets of nodes, read off the edge table. -/
def virtualSample (art : Artifact) (history : List HistoryEvent) (rootUser : Option ℕ)
    (users items : Finset ℕ) : GraphSample :=
  let edges := (edgeTable art history users items).insertionSort Edge.le
  let orderedUsers := ascending art.data.numUsers users
  let orderedItems := ascending art.data.numItems items
  { users := orderedUsers ++ [rootUser.getD 0]
    items := orderedItems
    toUsers := groupMessages edges Edge.user Edge.item (orderedUsers.length + 1)
      art.cfg.recentItems
    toItems := groupMessages edges Edge.item Edge.user orderedItems.length
      art.cfg.itemNeighborLimit
    root := orderedUsers.length
    cutoff := art.cutoff
    inducedEvents := (collected art.graph art.cutoff users items).insertionSort (· ≤ ·) }

/-- Inducing succeeds unless there are too many edges, with that sample. -/
theorem induceVirtual_eq (users items : Finset ℕ) :
    induceVirtual art history rootUser users items =
      if art.cfg.maxSampleEdges ≠ 0 ∧ (collected art.graph art.cutoff users items).length +
          history.length > art.cfg.maxSampleEdges then
        .error (.maxSampleEdges art.cfg.maxSampleEdges)
      else .ok (virtualSample art history rootUser users items,
        (ascending art.data.numUsers users).length) := rfl

/-- The nodes reached from the history without the replaced user. -/
def virtualReached (art : Artifact) (history : List HistoryEvent) (rootUser : Option ℕ) :
    Finset ℕ × Finset ℕ :=
  reached art.graph art.cfg art.cutoff (fun u => decide (some u = rootUser)) ∅
    (virtualItems art.cfg history)

/-- **Normal form.**  A virtual sample is induced over the nodes reached. -/
theorem sampleVirtual_spec {result : GraphSample × ℕ}
    (h : sampleVirtual art history rootUser = .ok result) :
    induceVirtual art history rootUser (virtualReached art history rootUser).1
      (virtualReached art history rootUser).2 = .ok result := by
  dsimp only [sampleVirtual] at h
  split at h
  · cases h
  · split at h
    · cases h
    · next hexpand =>
        have hreached := expandRounds_eq (by simp) hexpand
        rw [virtualReached, ← hreached]
        exact h

/-- The sample is the one over the nodes reached, and its root is the last user. -/
theorem eq_virtualSample {result : GraphSample × ℕ}
    (h : sampleVirtual art history rootUser = .ok result) :
    result = (virtualSample art history rootUser (virtualReached art history rootUser).1
        (virtualReached art history rootUser).2,
      (ascending art.data.numUsers (virtualReached art history rootUser).1).length) := by
  have hspec := sampleVirtual_spec h
  rw [induceVirtual_eq] at hspec
  split at hspec
  · cases hspec
  · exact (Except.ok.inj hspec).symm

/-- Without limits a history over known items has a virtual sample. -/
theorem sampleVirtual_isOk {art : Artifact} (rootUser : Option ℕ)
    (hnodes : art.cfg.maxSampleNodes = 0)
    (hedges : art.cfg.maxSampleEdges = 0) (hitems : ∀ e ∈ history, e.item < art.data.numItems) :
    ∃ result, sampleVirtual art history rootUser = .ok result := by
  have hlimits : Unlimited art.cfg art.graph.data := ⟨.inl hnodes, .inl hedges⟩
  have hstart : virtualItems art.cfg history ⊆ Finset.range art.graph.data.numItems := by
    intro i hi
    simp only [virtualItems, List.mem_toFinset, List.mem_map] at hi
    obtain ⟨e, he, rfl⟩ := hi
    exact Finset.mem_range.mpr (hitems e (List.mem_of_mem_drop he))
  obtain ⟨⟨users, items⟩, hexpand⟩ := expandRounds_isOk hlimits art.cutoff
    (fun u => decide (some u = rootUser)) (Finset.empty_subset _) hstart
  simp only [sampleVirtual, checkNodes_ok hlimits (Finset.empty_subset _) hstart, hexpand,
    induceVirtual, hedges]
  exact ⟨_, rfl⟩

end NormalForm

/-- The small table, served without limits on the size, one neighbour per item. -/
def smallArtifact : Artifact where
  cfg := { maxSampleNodes := 0, maxSampleEdges := 0, itemNeighborLimit := 1 }
  data := smallData
  users_pos := by decide
  items_pos := by decide

end Dgsr
