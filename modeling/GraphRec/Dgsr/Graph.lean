import GraphRec.Dgsr.Data
import GraphRec.Lib.Frontier
import GraphRec.Lib.Grouping
import Mathlib.Data.Finset.Card

/-!
# The temporal graph and the training-time sampler

`TemporalGraph` is the data seen through an event mask; `userEvents` and
`itemEvents` list the visible events up to a cutoff, the most recent `limit` of
them.  `sample` is `TemporalSampler.sample`: it starts from the most recent
items of the root, expands the frontier for `sampling_order + 1` rounds, and
induces the messages between the sampled users and items.

The tensors of `MessageEdges` that run over the edges are kept as one list of
records; a marker `-1` is `none`.

`sample_spec` puts the result in a normal form: with `users` and `items` the
nodes that the hops of the frontier expansion reach, everything in the sample is
read off the increasing list `inducedEdges` of the visible events between them.
-/

namespace Dgsr

open Grouping

/-- One edge: the columns `src`, `dst`, `relative`, `position`, `events`. -/
structure Message where
  src : ℕ
  dst : ℕ
  relative : ℕ
  position : ℕ
  event : Option ℕ
  deriving DecidableEq, Repr

/-- The messages into one side of a sampled graph. -/
structure MessageEdges where
  messages : List Message
  counts : List ℕ
  lastSrc : List (Option ℕ)
  deriving DecidableEq, Repr

/-- A sampled subgraph. -/
structure GraphSample where
  users : List ℕ
  items : List ℕ
  toUsers : MessageEdges
  toItems : MessageEdges
  root : ℕ
  cutoff : ℕ
  inducedEvents : List ℕ
  deriving DecidableEq, Repr

/-- What sampling raises. -/
inductive SampleError
  | noVisibleHistory (user cutoff : ℕ)
  | maxSampleNodes (limit : ℕ)
  | maxSampleEdges (limit : ℕ)
  deriving DecidableEq, Repr

/-! ## The graph -/

/-- `TemporalGraph`: the data and the mask of visible events. -/
structure TemporalGraph where
  data : InteractionData
  allowed : ℕ → Bool

namespace TemporalGraph

variable (g : TemporalGraph)

def byUser (u : ℕ) : List ℕ := (g.data.byUser u).filter g.allowed
def byItem (i : ℕ) : List ℕ := (g.data.byItem i).filter g.allowed

/-- `_before`: of increasing event ids, those up to the cutoff, the last `limit`
of them.  `searchsorted(side='right')` counts the ids up to the cutoff. -/
def before (events : List ℕ) (cutoff limit : ℕ) : List ℕ :=
  let stop := events.countP fun e => decide (e ≤ cutoff)
  let start := if limit = 0 then 0 else stop - limit
  (events.take stop).drop start

def userEvents (u cutoff limit : ℕ) : List ℕ := before (g.byUser u) cutoff limit
def itemEvents (i cutoff limit : ℕ) : List ℕ := before (g.byItem i) cutoff limit

/-- The neighbourhoods the expansion walks: the users of an item's recent events,
the items of a user's. -/
def neighbours (cfg : Config) (cutoff : ℕ) : Frontier.Neighbours ℕ ℕ where
  left i := ((g.itemEvents i cutoff cfg.itemNeighborLimit).map g.data.user).toFinset
  right u := ((g.userEvents u cutoff cfg.recentItems).map g.data.item).toFinset

end TemporalGraph

/-! ## The sampler -/

/-- `_check_nodes`. -/
def checkNodes (cfg : Config) (users items : Finset ℕ) : Except SampleError Unit :=
  if cfg.maxSampleNodes ≠ 0 ∧ users.card + items.card > cfg.maxSampleNodes then
    .error (.maxSampleNodes cfg.maxSampleNodes)
  else .ok ()

/-- The expansion rounds from `users` and `items`, all of which are the first
frontier. -/
def expandRounds (g : TemporalGraph) (cfg : Config) (cutoff : ℕ) (skip : ℕ → Bool)
    (users items : Finset ℕ) : Except SampleError (Finset ℕ × Finset ℕ) :=
  Frontier.expand (g.neighbours cfg cutoff) skip (checkNodes cfg) (cfg.samplingOrder + 1)
    users items items

/-- `sorted(nodes)` for a set of indices below `n`. -/
def ascending (n : ℕ) (nodes : Finset ℕ) : List ℕ :=
  (List.range n).filter fun x => decide (x ∈ nodes)

/-- The messages into one destination, oldest first. -/
def row {α : Type} (src : α → ℕ) (event : α → Option ℕ) (dest : ℕ) (chosen : List α) :
    List Message :=
  chosen.zipIdx.map fun (x, rank) => ⟨src x, dest, chosen.length - rank - 1, rank, event x⟩

@[simp] theorem row_nil {α : Type} (src : α → ℕ) (event : α → Option ℕ) (dest : ℕ) :
    row src event dest [] = [] := rfl

theorem mem_row {α : Type} {src : α → ℕ} {event : α → Option ℕ} {dest : ℕ}
    {chosen : List α} {m : Message} (h : m ∈ row src event dest chosen) :
    ∃ a ∈ chosen, m.event = event a ∧ m.src = src a ∧ m.dst = dest := by
  obtain ⟨⟨a, rank⟩, ha, rfl⟩ := List.mem_map.mp h
  exact ⟨a, List.fst_mem_of_mem_zipIdx ha, rfl, rfl, rfl⟩

/-- `messages` of `sample`: per destination the last `limit` incident events. -/
def incidentMessages (incident : List (List ℕ)) (opposite mapping : ℕ → ℕ) (limit : ℕ) :
    MessageEdges where
  messages := incident.zipIdx.flatMap fun (ids, dest) =>
    row (fun e => mapping (opposite e)) some dest (keepLast limit ids)
  counts := incident.map fun ids => (keepLast limit ids).length
  lastSrc := incident.map fun ids =>
    (keepLast limit ids).getLast?.map fun e => mapping (opposite e)

/-- `induced`, as it is collected: user by user, the visible events on sampled
items. -/
def collected (g : TemporalGraph) (cutoff : ℕ) (users items : Finset ℕ) : List ℕ :=
  (ascending g.data.numUsers users).flatMap fun u =>
    (g.userEvents u cutoff 0).filter fun e => decide (g.data.item e ∈ items)

/-- The rest of `sample`, once the nodes are known: induce the edges, refuse too
many of them, and build the messages. -/
def induce (g : TemporalGraph) (cfg : Config) (user cutoff : ℕ) (users items : Finset ℕ) :
    Except SampleError GraphSample :=
  let data := g.data
  let orderedUsers := ascending data.numUsers users
  let orderedItems := ascending data.numItems items
  let induced := collected g cutoff users items
  if cfg.maxSampleEdges ≠ 0 ∧ induced.length > cfg.maxSampleEdges then
    .error (.maxSampleEdges cfg.maxSampleEdges)
  else
    let userIncident := orderedUsers.map fun u =>
      induced.filter fun e => decide (data.user e = u)
    let itemIncident := orderedItems.map fun i =>
      (induced.filter fun e => decide (data.item e = i)).insertionSort (· ≤ ·)
    .ok {
      users := orderedUsers
      items := orderedItems
      toUsers := incidentMessages userIncident data.item (orderedItems.idxOf ·) cfg.recentItems
      toItems := incidentMessages itemIncident data.user (orderedUsers.idxOf ·)
        cfg.itemNeighborLimit
      root := orderedUsers.idxOf user
      cutoff := cutoff
      inducedEvents := induced.insertionSort (· ≤ ·) }

/-- `TemporalSampler.sample`. -/
def sample (g : TemporalGraph) (cfg : Config) (user cutoff : ℕ) :
    Except SampleError GraphSample :=
  let rootEvents := g.userEvents user cutoff cfg.recentItems
  if rootEvents = [] then .error (.noVisibleHistory user cutoff)
  else
    let items := (rootEvents.map g.data.item).toFinset
    match checkNodes cfg {user} items with
    | .error e => .error e
    | .ok () =>
        match expandRounds g cfg cutoff (fun _ => false) {user} items with
        | .error e => .error e
        | .ok (users, items) => induce g cfg user cutoff users items

/-! ## Visible events -/

namespace TemporalGraph

variable {g : TemporalGraph}

@[simp] theorem mem_byUser {u e : ℕ} :
    e ∈ g.byUser u ↔ e < g.data.size ∧ g.data.user e = u ∧ g.allowed e = true := by
  simp [byUser, and_assoc]

@[simp] theorem mem_byItem {i e : ℕ} :
    e ∈ g.byItem i ↔ e < g.data.size ∧ g.data.item e = i ∧ g.allowed e = true := by
  simp [byItem, and_assoc]

theorem byUser_increasing (g : TemporalGraph) (u : ℕ) : (g.byUser u).Pairwise (· < ·) :=
  (g.data.byUser_increasing u).filter _

theorem byItem_increasing (g : TemporalGraph) (i : ℕ) : (g.byItem i).Pairwise (· < ·) :=
  (g.data.byItem_increasing i).filter _

/-- On increasing ids `before` keeps the last of those up to the cutoff. -/
theorem before_eq {events : List ℕ} (h : events.Pairwise (· < ·)) (cutoff limit : ℕ) :
    before events cutoff limit =
      keepLast limit (events.filter fun e => decide (e ≤ cutoff)) := by
  have htake : events.take (events.countP fun e => decide (e ≤ cutoff)) =
      events.filter fun e => decide (e ≤ cutoff) := by
    have hprefix : (events.filter fun e => decide (e ≤ cutoff)) <+: events := by
      have hsplit := filter_append_of_sorted id (h.imp fun h => le_of_lt h) (cutoff + 1)
      simp only [id_eq, Nat.lt_succ_iff] at hsplit
      exact ⟨_, hsplit⟩
    rw [List.countP_eq_length_filter]
    exact (List.prefix_iff_eq_take.mp hprefix).symm
  rw [before, htake, keepLast, List.rtake, ← List.countP_eq_length_filter]
  by_cases hlimit : limit = 0 <;> simp [hlimit]

theorem userEvents_eq (u cutoff limit : ℕ) : g.userEvents u cutoff limit =
    keepLast limit ((g.byUser u).filter fun e => decide (e ≤ cutoff)) :=
  before_eq (g.byUser_increasing u) cutoff limit

theorem itemEvents_eq (i cutoff limit : ℕ) : g.itemEvents i cutoff limit =
    keepLast limit ((g.byItem i).filter fun e => decide (e ≤ cutoff)) :=
  before_eq (g.byItem_increasing i) cutoff limit

theorem mem_userEvents_zero {u cutoff e : ℕ} : e ∈ g.userEvents u cutoff 0 ↔
    e < g.data.size ∧ g.data.user e = u ∧ g.allowed e = true ∧ e ≤ cutoff := by
  simp [userEvents_eq, and_assoc]

theorem of_mem_userEvents {u cutoff limit e : ℕ} (h : e ∈ g.userEvents u cutoff limit) :
    e < g.data.size ∧ g.data.user e = u ∧ g.allowed e = true ∧ e ≤ cutoff := by
  rw [userEvents_eq] at h
  have hmem := (keepLast_sublist _ _).subset h
  simpa [and_assoc] using hmem

theorem of_mem_itemEvents {i cutoff limit e : ℕ} (h : e ∈ g.itemEvents i cutoff limit) :
    e < g.data.size ∧ g.data.item e = i ∧ g.allowed e = true ∧ e ≤ cutoff := by
  rw [itemEvents_eq] at h
  have hmem := (keepLast_sublist _ _).subset h
  simpa [and_assoc] using hmem

/-- Neighbourhoods are sets of users and of items. -/
theorem neighbours_left_subset (cfg : Config) (cutoff i : ℕ) :
    (g.neighbours cfg cutoff).left i ⊆ Finset.range g.data.numUsers := by
  intro u hu
  simp only [neighbours, List.mem_toFinset, List.mem_map] at hu
  obtain ⟨e, he, rfl⟩ := hu
  exact Finset.mem_range.mpr (InteractionData.user_lt_numUsers (of_mem_itemEvents he).1)

theorem neighbours_right_subset (cfg : Config) (cutoff u : ℕ) :
    (g.neighbours cfg cutoff).right u ⊆ Finset.range g.data.numItems := by
  intro i hi
  simp only [neighbours, List.mem_toFinset, List.mem_map] at hi
  obtain ⟨e, he, rfl⟩ := hi
  exact Finset.mem_range.mpr (InteractionData.item_lt_numItems (of_mem_userEvents he).1)

end TemporalGraph

/-! ## The normal form of a sample -/

@[simp] theorem mem_ascending {n x : ℕ} {nodes : Finset ℕ} :
    x ∈ ascending n nodes ↔ x < n ∧ x ∈ nodes := by simp [ascending]

theorem ascending_nodup (n : ℕ) (nodes : Finset ℕ) : (ascending n nodes).Nodup :=
  List.nodup_range.filter _

/-- The visible events up to the cutoff between two sets of nodes. -/
def inducedEdges (g : TemporalGraph) (cutoff : ℕ) (users items : Finset ℕ) : List ℕ :=
  (List.range g.data.size).filter fun e =>
    g.allowed e && decide (e ≤ cutoff) && decide (g.data.user e ∈ users)
      && decide (g.data.item e ∈ items)

section NormalForm

variable {g : TemporalGraph} {cfg : Config} {user cutoff : ℕ} {users items : Finset ℕ}

@[simp] theorem mem_inducedEdges {e : ℕ} : e ∈ inducedEdges g cutoff users items ↔
    e < g.data.size ∧ g.allowed e = true ∧ e ≤ cutoff ∧ g.data.user e ∈ users ∧
      g.data.item e ∈ items := by
  simp [inducedEdges, and_assoc]

theorem inducedEdges_increasing (g : TemporalGraph) (cutoff : ℕ) (users items : Finset ℕ) :
    (inducedEdges g cutoff users items).Pairwise (· < ·) :=
  List.pairwise_lt_range.filter _

theorem mem_collected {e : ℕ} : e ∈ collected g cutoff users items ↔
    e ∈ inducedEdges g cutoff users items := by
  simp only [collected, List.mem_flatMap, mem_ascending, List.mem_filter, decide_eq_true_eq,
    TemporalGraph.mem_userEvents_zero, mem_inducedEdges]
  constructor
  · intro hcase
    obtain ⟨u, ⟨_, hu⟩, ⟨he, rfl, hallowed, hcutoff⟩, hitem⟩ := hcase
    exact ⟨he, hallowed, hcutoff, hu, hitem⟩
  · intro hcase
    obtain ⟨he, hallowed, hcutoff, hu, hitem⟩ := hcase
    exact ⟨g.data.user e, ⟨InteractionData.user_lt_numUsers he, hu⟩,
      ⟨he, rfl, hallowed, hcutoff⟩, hitem⟩

/-- An induced edge joins two of the ordered nodes. -/
theorem ends_of_mem_inducedEdges {e : ℕ} (h : e ∈ inducedEdges g cutoff users items) :
    g.data.user e ∈ ascending g.data.numUsers users ∧
      g.data.item e ∈ ascending g.data.numItems items := by
  obtain ⟨hlt, _, _, huser, hitem⟩ := mem_inducedEdges.mp h
  exact ⟨mem_ascending.mpr ⟨InteractionData.user_lt_numUsers hlt, huser⟩,
    mem_ascending.mpr ⟨InteractionData.item_lt_numItems hlt, hitem⟩⟩

/-- The events of one user are collected by ascending id, those of another user
are other events. -/
theorem collected_pairwise : (collected g cutoff users items).Pairwise fun e e' =>
    g.data.user e = g.data.user e' → e < e' := by
  rw [collected, List.pairwise_flatMap]
  constructor
  · intro v _
    have hincreasing : (g.userEvents v cutoff 0).Pairwise (· < ·) := by
      rw [TemporalGraph.userEvents_eq]
      exact ((g.byUser_increasing v).filter _).sublist (keepLast_sublist _ _)
    refine List.Pairwise.imp ?_ (hincreasing.filter _)
    intro _ _ hlt _
    exact hlt
  · refine (ascending_nodup _ users).imp fun {v v'} hne x hx y hy hxy => ?_
    have hxv := (TemporalGraph.mem_userEvents_zero.mp (List.mem_filter.mp hx).1).2.1
    have hyv := (TemporalGraph.mem_userEvents_zero.mp (List.mem_filter.mp hy).1).2.1
    exact absurd (hxv.symm.trans (hxy.trans hyv)) hne

theorem collected_nodup : (collected g cutoff users items).Nodup :=
  collected_pairwise.imp fun h heq => absurd (h (congrArg _ heq)) (heq ▸ lt_irrefl _)

theorem collected_perm :
    (collected g cutoff users items).Perm (inducedEdges g cutoff users items) :=
  (List.perm_ext_iff_of_nodup collected_nodup
    ((inducedEdges_increasing g cutoff users items).imp fun h => ne_of_lt h)).mpr
    fun _ => mem_collected

/-- What is collected for a user is what is induced, in the same order. -/
theorem collected_filter_user (u : ℕ) :
    ((collected g cutoff users items).filter fun e => decide (g.data.user e = u)) =
      (inducedEdges g cutoff users items).filter fun e => decide (g.data.user e = u) := by
  refine eq_of_increasing ?_ ((inducedEdges_increasing g cutoff users items).filter _) ?_
  · rw [List.pairwise_filter]
    refine collected_pairwise.imp fun h hu hu' => h ?_
    rw [decide_eq_true_eq] at hu hu'
    exact hu.trans hu'.symm
  · intro e
    simp only [List.mem_filter, mem_collected]

/-- What is collected for an item is, after sorting, what is induced. -/
theorem collected_filter_item (i : ℕ) :
    ((collected g cutoff users items).filter fun e =>
        decide (g.data.item e = i)).insertionSort (· ≤ ·) =
      (inducedEdges g cutoff users items).filter fun e => decide (g.data.item e = i) :=
  insertionSort_eq_of_perm ((inducedEdges_increasing g cutoff users items).filter _)
    (collected_perm.filter _)

/-- The sample over two sets of nodes, read off the induced edges. -/
def inducedSample (g : TemporalGraph) (cfg : Config) (user cutoff : ℕ)
    (users items : Finset ℕ) : GraphSample :=
  let edges := inducedEdges g cutoff users items
  let orderedUsers := ascending g.data.numUsers users
  let orderedItems := ascending g.data.numItems items
  { users := orderedUsers
    items := orderedItems
    toUsers := incidentMessages
      (orderedUsers.map fun u => edges.filter fun e => decide (g.data.user e = u))
      g.data.item (orderedItems.idxOf ·) cfg.recentItems
    toItems := incidentMessages
      (orderedItems.map fun i => edges.filter fun e => decide (g.data.item e = i))
      g.data.user (orderedUsers.idxOf ·) cfg.itemNeighborLimit
    root := orderedUsers.idxOf user
    cutoff := cutoff
    inducedEvents := edges }

/-- Inducing succeeds unless there are too many edges, with that sample. -/
theorem induce_eq : induce g cfg user cutoff users items =
    if cfg.maxSampleEdges ≠ 0 ∧
        (inducedEdges g cutoff users items).length > cfg.maxSampleEdges then
      .error (.maxSampleEdges cfg.maxSampleEdges)
    else .ok (inducedSample g cfg user cutoff users items) := by
  have hlength : (collected g cutoff users items).length =
      (inducedEdges g cutoff users items).length := collected_perm.length_eq
  have hsorted := insertionSort_eq_of_perm (inducedEdges_increasing g cutoff users items)
    collected_perm
  simp only [induce, inducedSample, collected_filter_user, collected_filter_item, hsorted,
    hlength]

/-- The root's recent items, where the expansion starts. -/
def rootItems (g : TemporalGraph) (cfg : Config) (user cutoff : ℕ) : Finset ℕ :=
  ((g.userEvents user cutoff cfg.recentItems).map g.data.item).toFinset

/-- The nodes that the hops from `users` and `items` reach. -/
def reached (g : TemporalGraph) (cfg : Config) (cutoff : ℕ) (skip : ℕ → Bool)
    (users items : Finset ℕ) : Finset ℕ × Finset ℕ :=
  (Frontier.hop (g.neighbours cfg cutoff) skip)^[cfg.samplingOrder + 1] (users, items)

/-- The expansion rounds, unless refused, reach what the hops reach. -/
theorem expandRounds_eq {skip : ℕ → Bool} {result : Finset ℕ × Finset ℕ}
    (hclosed : users.biUnion (g.neighbours cfg cutoff).right ⊆ items)
    (h : expandRounds g cfg cutoff skip users items = .ok result) :
    result = reached g cfg cutoff skip users items :=
  Frontier.expand_eq ⟨Finset.Subset.refl _, hclosed, fun _ hb hnot => absurd hb hnot⟩ h

/-- **Normal form.**  A sample is the induced sample over the nodes reached. -/
theorem sample_spec {s : GraphSample} (h : sample g cfg user cutoff = .ok s) :
    s = inducedSample g cfg user cutoff
      (reached g cfg cutoff (fun _ => false) {user} (rootItems g cfg user cutoff)).1
      (reached g cfg cutoff (fun _ => false) {user} (rootItems g cfg user cutoff)).2 := by
  dsimp only [sample] at h
  split at h
  · cases h
  · split at h
    · cases h
    · split at h
      · cases h
      · next hexpand =>
          have hreached := expandRounds_eq (by
            rw [Finset.singleton_biUnion]
            exact Finset.Subset.refl _) hexpand
          rw [induce_eq] at h
          split at h
          · cases h
          · cases h
            rw [show rootItems g cfg user cutoff =
              ((g.userEvents user cutoff cfg.recentItems).map g.data.item).toFinset from rfl,
              ← hreached]

/-- The limits are off or admit the whole graph. -/
structure Unlimited (cfg : Config) (data : InteractionData) : Prop where
  nodes : cfg.maxSampleNodes = 0 ∨ data.numUsers + data.numItems ≤ cfg.maxSampleNodes
  edges : cfg.maxSampleEdges = 0 ∨ data.size ≤ cfg.maxSampleEdges

theorem checkNodes_ok (h : Unlimited cfg g.data)
    (husers : users ⊆ Finset.range g.data.numUsers)
    (hitems : items ⊆ Finset.range g.data.numItems) : checkNodes cfg users items = .ok () := by
  have hu := Finset.card_le_card husers
  have hi := Finset.card_le_card hitems
  rw [Finset.card_range] at hu hi
  rw [checkNodes, if_neg]
  intro hcase
  obtain ⟨hnonzero, hgt⟩ := hcase
  rcases h.nodes with hzero | hle
  · exact hnonzero hzero
  · omega

theorem length_inducedEdges_le : (inducedEdges g cutoff users items).length ≤ g.data.size := by
  have hle := List.length_filter_le (fun e => g.allowed e && decide (e ≤ cutoff)
    && decide (g.data.user e ∈ users) && decide (g.data.item e ∈ items))
    (List.range g.data.size)
  rwa [List.length_range] at hle

theorem not_edges_exceeded (h : Unlimited cfg g.data) :
    ¬ (cfg.maxSampleEdges ≠ 0 ∧
      (inducedEdges g cutoff users items).length > cfg.maxSampleEdges) := by
  intro hcase
  obtain ⟨hnonzero, hgt⟩ := hcase
  have hle : (inducedEdges g cutoff users items).length ≤ g.data.size := length_inducedEdges_le
  rcases h.edges with hzero | hsize
  · exact hnonzero hzero
  · omega

theorem expandRounds_isOk (h : Unlimited cfg g.data) (cutoff : ℕ) (skip : ℕ → Bool)
    (husers : users ⊆ Finset.range g.data.numUsers)
    (hitems : items ⊆ Finset.range g.data.numItems) :
    ∃ result, expandRounds g cfg cutoff skip users items = .ok result :=
  Frontier.expand_isOk (fun _ _ hl hr => checkNodes_ok h hl hr)
    (TemporalGraph.neighbours_left_subset cfg cutoff)
    (TemporalGraph.neighbours_right_subset cfg cutoff) _ husers hitems _

theorem rootItems_subset (g : TemporalGraph) (cfg : Config) (user cutoff : ℕ) :
    rootItems g cfg user cutoff ⊆ Finset.range g.data.numItems :=
  TemporalGraph.neighbours_right_subset cfg cutoff user

/-- Without limits a user with a visible event has a sample. -/
theorem sample_isOk (h : Unlimited cfg g.data) {e : ℕ}
    (he : e ∈ g.userEvents user cutoff cfg.recentItems) :
    ∃ s, sample g cfg user cutoff = .ok s := by
  have hevent := TemporalGraph.of_mem_userEvents he
  have huser : ({user} : Finset ℕ) ⊆ Finset.range g.data.numUsers := by
    rw [Finset.singleton_subset_iff, Finset.mem_range, ← hevent.2.1]
    exact InteractionData.user_lt_numUsers hevent.1
  obtain ⟨⟨users, items⟩, hexpand⟩ :=
    expandRounds_isOk h cutoff (fun _ => false) huser (rootItems_subset g cfg user cutoff)
  refine ⟨inducedSample g cfg user cutoff users items, ?_⟩
  have hcheck := checkNodes_ok h huser (rootItems_subset g cfg user cutoff)
  rw [rootItems] at hcheck hexpand
  simp only [sample, if_neg (List.ne_nil_of_mem he), hcheck, hexpand]
  rw [induce_eq, if_neg (not_edges_exceeded h)]

end NormalForm

end Dgsr
