import GraphRec.Dgsr.Positions
import GraphRec.Lib.Lru

/-!
# Sampled subgraphs are well formed

`GraphSample.WellFormed` says what a sample of `TemporalSampler` is, without the procedure that
takes it: the nodes are those that alternating walks from the root reach, the induced events are
the visible events between them, and either side's messages are the most recent induced events of
each node, numbered from both ends (`MessageEdges.WellFormed`).

`sample_wellFormed` is the main result; it holds of the answers that the sampler's cache gives as
well (`sampleCached`).
-/

namespace Dgsr

open Grouping

/-! ## The sampler and its cache -/

/-- `TemporalSampler.sample` with the LRU cache of `graph_cache_size` samples. -/
def sampleCached (g : TemporalGraph) (cfg : Config) (graphCacheSize : ℕ)
    (cache : List ((ℕ × ℕ) × GraphSample)) (user cutoff : ℕ) :
    Except SampleError GraphSample × List ((ℕ × ℕ) × GraphSample) :=
  Lru.call graphCacheSize (fun key => sample g cfg key.1 key.2) cache (user, cutoff)

/-- The cache after some calls of a new sampler. -/
def cacheAfter (g : TemporalGraph) (cfg : Config) (graphCacheSize : ℕ) (calls : List (ℕ × ℕ)) :
    List ((ℕ × ℕ) × GraphSample) :=
  Lru.after graphCacheSize (fun key => sample g cfg key.1 key.2) calls

theorem sampleCached_after (g : TemporalGraph) (cfg : Config) (graphCacheSize : ℕ)
    (calls : List (ℕ × ℕ)) (user cutoff : ℕ) :
    (sampleCached g cfg graphCacheSize (cacheAfter g cfg graphCacheSize calls) user cutoff).1 =
      sample g cfg user cutoff := by
  rw [sampleCached, cacheAfter, Lru.call_after]

/-! ## What well formed means -/

/-- The messages into `dests` from `srcs`, for the induced `events`: a destination has its last
`limit` events in time order, ranked from the first (`position`) and from the last (`relative`). -/
structure MessageEdges.WellFormed (m : MessageEdges) (dests srcs : List ℕ)
    (destOf srcOf : ℕ → ℕ) (events : List ℕ) (limit : ℕ) : Prop where
  length_counts : m.counts.length = dests.length
  length_lastSrc : m.lastSrc.length = dests.length
  ends : ∀ y ∈ m.messages, ∃ e, y.event = some e ∧ dests[y.dst]? = some (destOf e) ∧
    srcs[y.src]? = some (srcOf e)
  kept : ∀ (d x : ℕ), dests[d]? = some x →
    (m.messages.filter fun y => decide (y.dst = d)).map Message.event =
      (keepLast limit (events.filter fun e => decide (destOf e = x))).map some
  ranked : ∀ d < dests.length,
    (m.messages.filter fun y => decide (y.dst = d)).map Message.position =
      List.range (m.messages.countP fun y => decide (y.dst = d))
  complementary : ∀ y ∈ m.messages, m.counts[y.dst]? = some (y.relative + y.position + 1)
  counts : ∀ d < dests.length,
    m.counts[d]? = some (m.messages.countP fun y => decide (y.dst = d))
  lastSrc : ∀ d < dests.length,
    m.lastSrc[d]? = some ((m.messages.filter fun y => decide (y.dst = d)).getLast?.map Message.src)

/-- A sample of `g` around `user` at `cutoff`. -/
structure GraphSample.WellFormed (g : TemporalGraph) (cfg : Config) (user cutoff : ℕ)
    (s : GraphSample) : Prop where
  users_increasing : s.users.Pairwise (· < ·)
  items_increasing : s.items.Pairwise (· < ·)
  users_reached : ∀ u, u ∈ s.users ↔
    ∃ k ≤ cfg.samplingOrder + 1, Frontier.Walk (g.neighbours cfg cutoff) user k (.inl u)
  items_reached : ∀ i, i ∈ s.items ↔
    ∃ k ≤ cfg.samplingOrder + 1, Frontier.Walk (g.neighbours cfg cutoff) user k (.inr i)
  root : s.users[s.root]? = some user
  at_cutoff : s.cutoff = cutoff
  induced_increasing : s.inducedEvents.Pairwise (· < ·)
  induced : ∀ e, e ∈ s.inducedEvents ↔ e < g.data.size ∧ g.allowed e = true ∧ e ≤ cutoff ∧
    g.data.user e ∈ s.users ∧ g.data.item e ∈ s.items
  toUsers : s.toUsers.WellFormed s.users s.items g.data.user g.data.item s.inducedEvents
    cfg.recentItems
  toItems : s.toItems.WellFormed s.items s.users g.data.item g.data.user s.inducedEvents
    cfg.itemNeighborLimit
  in_range : InRange (g.data.positionCapacity cfg) s

/-! ## Rows of messages -/

section Row

variable {α : Type} {src : α → ℕ} {event : α → Option ℕ}

theorem row_event (dest : ℕ) (chosen : List α) :
    (row src event dest chosen).map Message.event = chosen.map event := by
  rw [row, List.map_map]
  conv_rhs => rw [← List.zipIdx_map_fst 0 chosen, List.map_map]
  rfl

theorem row_position (dest : ℕ) (chosen : List α) :
    (row src event dest chosen).map Message.position = List.range chosen.length := by
  rw [row, List.map_map, List.range_eq_range', ← List.zipIdx_map_snd 0 chosen]
  rfl

theorem row_src (dest : ℕ) (chosen : List α) :
    (row src event dest chosen).map Message.src = chosen.map src := by
  rw [row, List.map_map]
  conv_rhs => rw [← List.zipIdx_map_fst 0 chosen, List.map_map]
  rfl

@[simp] theorem length_row (dest : ℕ) (chosen : List α) :
    (row src event dest chosen).length = chosen.length := by simp [row]

/-- The two ranks of a message add up. -/
theorem relative_of_mem_row {dest : ℕ} {chosen : List α} {y : Message}
    (h : y ∈ row src event dest chosen) : y.relative + y.position + 1 = chosen.length := by
  obtain ⟨⟨x, rank⟩, hx, rfl⟩ := List.mem_map.mp h
  have hrank := (List.mem_zipIdx hx).2.1
  dsimp only
  omega

theorem filter_row (dest d : ℕ) (chosen : List α) :
    (row src event dest chosen).filter (fun y => decide (y.dst = d)) =
      if dest = d then row src event dest chosen else [] := by
  have hdst : ∀ y ∈ row src event dest chosen, y.dst = dest := by
    intro y hy
    obtain ⟨_, _, _, _, hdst⟩ := mem_row hy
    exact hdst
  split
  · next heq =>
      refine List.filter_eq_self.mpr fun y hy => decide_eq_true ?_
      rw [hdst y hy, heq]
  · next hne =>
      refine List.filter_eq_nil_iff.mpr fun y hy => ?_
      rw [decide_eq_true_eq, hdst y hy]
      exact hne

variable (src event) in
/-- The messages into one of consecutive destinations. -/
theorem filter_rows (limit start : ℕ) (incident : List (List α)) {d : ℕ} {ids : List α}
    (hids : incident[d]? = some ids) :
    (((incident.zipIdx start).flatMap fun (ids, dest) =>
        row src event dest (keepLast limit ids)).filter fun y => decide (y.dst = start + d)) =
      row src event (start + d) (keepLast limit ids) := by
  induction incident generalizing start d with
  | nil => cases hids
  | cons first rest ih =>
      rw [List.zipIdx_cons, List.flatMap_cons, List.filter_append, filter_row]
      cases d with
      | zero =>
          obtain rfl : first = ids := by simpa using hids
          have hrest : ((rest.zipIdx (start + 1)).flatMap fun (ids, dest) =>
              row src event dest (keepLast limit ids)).filter
                (fun y => decide (y.dst = start + 0)) = [] := by
            refine List.filter_eq_nil_iff.mpr fun y hy => ?_
            obtain ⟨⟨ids, dest⟩, hmem, hy⟩ := List.mem_flatMap.mp hy
            obtain ⟨_, _, _, _, hdst⟩ := mem_row hy
            have hge := (List.mem_zipIdx hmem).1
            rw [decide_eq_true_eq, hdst]
            omega
          rw [hrest, if_pos (Nat.add_zero start).symm, List.append_nil, Nat.add_zero]
      | succ d =>
          have hnext := ih (start + 1) (d := d) (by simpa using hids)
          rw [Nat.add_right_comm, Nat.add_assoc] at hnext
          rw [if_neg (by omega), List.nil_append, hnext]

end Row

/-! ## The messages of a sample -/

section Messages

variable {dests srcs events : List ℕ} {destOf srcOf : ℕ → ℕ} {limit : ℕ}

/-- **Either side is well formed**: the messages of incident lists that are read off the induced
events. -/
theorem incidentMessages_wellFormed (hends : ∀ e ∈ events, srcOf e ∈ srcs) :
    (incidentMessages (dests.map fun x => events.filter fun e => decide (destOf e = x)) srcOf
      (srcs.idxOf ·) limit).WellFormed dests srcs destOf srcOf events limit := by
  set incident := dests.map fun x => events.filter fun e => decide (destOf e = x) with hincident
  have hlength : incident.length = dests.length := List.length_map _
  have hat : ∀ (d x : ℕ), dests[d]? = some x →
      incident[d]? = some (events.filter fun e => decide (destOf e = x)) := by
    intro d x hx
    rw [hincident, List.getElem?_map, hx]
    rfl
  have hinto : ∀ (d x : ℕ), dests[d]? = some x →
      (incidentMessages incident srcOf (srcs.idxOf ·) limit).messages.filter
        (fun y => decide (y.dst = d)) =
      row (fun e => srcs.idxOf (srcOf e)) some d
        (keepLast limit (events.filter fun e => decide (destOf e = x))) := by
    intro d x hx
    have hrows := filter_rows (fun e => srcs.idxOf (srcOf e)) some limit 0 incident
      (hat d x hx)
    rw [Nat.zero_add] at hrows
    exact hrows
  have hdst : ∀ y ∈ (incidentMessages incident srcOf (srcs.idxOf ·) limit).messages,
      ∃ x, dests[y.dst]? = some x := by
    intro y hy
    obtain ⟨⟨ids, dest⟩, hmem, hy⟩ := List.mem_flatMap.mp hy
    obtain ⟨_, _, _, _, hdst⟩ := mem_row hy
    have hlt := (List.mem_zipIdx hmem).2.1
    rw [hdst]
    exact ⟨_, List.getElem?_eq_getElem (by omega)⟩
  have hmem : ∀ y ∈ (incidentMessages incident srcOf (srcs.idxOf ·) limit).messages,
      ∀ x, dests[y.dst]? = some x → y ∈ row (fun e => srcs.idxOf (srcOf e)) some y.dst
        (keepLast limit (events.filter fun e => decide (destOf e = x))) := by
    intro y hy x hx
    rw [← hinto y.dst x hx]
    exact List.mem_filter.mpr ⟨hy, decide_eq_true rfl⟩
  have hcounts : ∀ (d x : ℕ), dests[d]? = some x →
      (incidentMessages incident srcOf (srcs.idxOf ·) limit).counts[d]? =
        some (keepLast limit (events.filter fun e => decide (destOf e = x))).length := by
    intro d x hx
    rw [incidentMessages, List.getElem?_map, hat d x hx]
    rfl
  refine ⟨?_, ?_, ?_, ?_, ?_, ?_, ?_, ?_⟩
  · rw [incidentMessages, List.length_map, hlength]
  · rw [incidentMessages, List.length_map, hlength]
  · intro y hy
    obtain ⟨x, hx⟩ := hdst y hy
    obtain ⟨e, he, hevent, hsrc, _⟩ := mem_row (hmem y hy x hx)
    obtain ⟨hevents, hdest⟩ := List.mem_filter.mp ((keepLast_sublist _ _).subset he)
    refine ⟨e, hevent, ?_, ?_⟩
    · rw [hx, of_decide_eq_true hdest]
    · rw [hsrc]
      exact List.getElem?_idxOf (hends e hevents)
  · intro d x hx
    rw [hinto d x hx, row_event]
  · intro d hd
    obtain ⟨x, hx⟩ : ∃ x, dests[d]? = some x := ⟨_, List.getElem?_eq_getElem hd⟩
    rw [List.countP_eq_length_filter, hinto d x hx, row_position, length_row]
  · intro y hy
    obtain ⟨x, hx⟩ := hdst y hy
    rw [hcounts y.dst x hx, relative_of_mem_row (hmem y hy x hx)]
  · intro d hd
    obtain ⟨x, hx⟩ : ∃ x, dests[d]? = some x := ⟨_, List.getElem?_eq_getElem hd⟩
    rw [hcounts d x hx, List.countP_eq_length_filter, hinto d x hx, length_row]
  · intro d hd
    obtain ⟨x, hx⟩ : ∃ x, dests[d]? = some x := ⟨_, List.getElem?_eq_getElem hd⟩
    rw [hinto d x hx, ← List.getLast?_map, row_src, List.getLast?_map, incidentMessages,
      List.getElem?_map, hat d x hx]
    rfl

end Messages

/-! ## The sample -/

section Sample

variable {g : TemporalGraph} {cfg : Config} {user cutoff : ℕ} {s : GraphSample}

theorem ascending_increasing (n : ℕ) (nodes : Finset ℕ) :
    (ascending n nodes).Pairwise (· < ·) :=
  List.pairwise_lt_range.filter _

/-- The nodes that the rounds reach are the ends of walks from the root. -/
theorem mem_reached_iff (g : TemporalGraph) (cfg : Config) (user cutoff : ℕ) :
    let nodes := reached g cfg cutoff (fun _ => false) {user} (rootItems g cfg user cutoff)
    (∀ u, u ∈ nodes.1 ↔ ∃ k ≤ cfg.samplingOrder + 1,
      Frontier.Walk (g.neighbours cfg cutoff) user k (.inl u)) ∧
    ∀ i, i ∈ nodes.2 ↔ ∃ k ≤ cfg.samplingOrder + 1,
      Frontier.Walk (g.neighbours cfg cutoff) user k (.inr i) :=
  Frontier.mem_hop_iterate_iff (g.neighbours cfg cutoff) user (cfg.samplingOrder + 1)

/-- A walk from a user stays among the users and the items. -/
theorem walk_bounds (huser : user < g.data.numUsers) {k : ℕ} :
    (∀ u, Frontier.Walk (g.neighbours cfg cutoff) user k (.inl u) → u < g.data.numUsers) ∧
      ∀ i, Frontier.Walk (g.neighbours cfg cutoff) user k (.inr i) → i < g.data.numItems := by
  constructor
  · intro u hu
    cases hu with
    | root => exact huser
    | left _ hmem =>
        exact Finset.mem_range.mp (TemporalGraph.neighbours_left_subset cfg cutoff _ hmem)
  · intro i hi
    cases hi with
    | right _ hmem =>
        exact Finset.mem_range.mp (TemporalGraph.neighbours_right_subset cfg cutoff _ hmem)

theorem inducedEdges_ascending (cutoff : ℕ) (users items : Finset ℕ) (e : ℕ) :
    e ∈ inducedEdges g cutoff users items ↔ e < g.data.size ∧ g.allowed e = true ∧ e ≤ cutoff ∧
      g.data.user e ∈ ascending g.data.numUsers users ∧
      g.data.item e ∈ ascending g.data.numItems items := by
  rw [mem_inducedEdges]
  constructor
  · intro h
    have hends := ends_of_mem_inducedEdges (mem_inducedEdges.mpr h)
    obtain ⟨hlt, hallowed, hcutoff, _, _⟩ := h
    exact ⟨hlt, hallowed, hcutoff, hends⟩
  · intro hcase
    obtain ⟨hlt, hallowed, hcutoff, huser, hitem⟩ := hcase
    exact ⟨hlt, hallowed, hcutoff, (mem_ascending.mp huser).2, (mem_ascending.mp hitem).2⟩

/-- A sample of a user of the data is well formed. -/
theorem wellFormed_of_sample (huser : user < g.data.numUsers)
    (hs : sample g cfg user cutoff = .ok s) : s.WellFormed g cfg user cutoff := by
  have hin := sample_relative_lt hs
  obtain ⟨husers, hitems⟩ := mem_reached_iff g cfg user cutoff
  rw [sample_spec hs] at hin ⊢
  generalize reached g cfg cutoff (fun _ => false) {user} (rootItems g cfg user cutoff) = nodes
    at hin husers hitems ⊢
  have husers' : ∀ u, u ∈ ascending g.data.numUsers nodes.1 ↔ ∃ k ≤ cfg.samplingOrder + 1,
      Frontier.Walk (g.neighbours cfg cutoff) user k (.inl u) := by
    intro u
    rw [mem_ascending, husers, and_iff_right_iff_imp]
    intro hcase
    obtain ⟨k, _, hwalk⟩ := hcase
    exact (walk_bounds huser).1 u hwalk
  have hitems' : ∀ i, i ∈ ascending g.data.numItems nodes.2 ↔ ∃ k ≤ cfg.samplingOrder + 1,
      Frontier.Walk (g.neighbours cfg cutoff) user k (.inr i) := by
    intro i
    rw [mem_ascending, hitems, and_iff_right_iff_imp]
    intro hcase
    obtain ⟨k, _, hwalk⟩ := hcase
    exact (walk_bounds huser).2 i hwalk
  have hroot : user ∈ ascending g.data.numUsers nodes.1 :=
    (husers' user).mpr ⟨0, Nat.zero_le _, .root⟩
  exact {
    users_increasing := ascending_increasing _ _
    items_increasing := ascending_increasing _ _
    users_reached := husers'
    items_reached := hitems'
    root := List.getElem?_idxOf hroot
    at_cutoff := rfl
    induced_increasing := inducedEdges_increasing g cutoff nodes.1 nodes.2
    induced := inducedEdges_ascending cutoff nodes.1 nodes.2
    toUsers := incidentMessages_wellFormed fun e he => (ends_of_mem_inducedEdges he).2
    toItems := incidentMessages_wellFormed fun e he => (ends_of_mem_inducedEdges he).1
    in_range := hin }

/-- **Sampled subgraphs are well formed.**  For a user with a visible event at the cutoff the
sampler, whatever it was called for before, returns a sample unless a limit on its size is in the
way; and what it returns is well formed. -/
theorem sample_wellFormed (g : TemporalGraph) (cfg : Config) (graphCacheSize : ℕ)
    (calls : List (ℕ × ℕ)) (user cutoff : ℕ)
    (hvisible : ∃ e < g.data.size, g.data.user e = user ∧ g.allowed e = true ∧ e ≤ cutoff) :
    (Unlimited cfg g.data → ∃ s, (sampleCached g cfg graphCacheSize
      (cacheAfter g cfg graphCacheSize calls) user cutoff).1 = .ok s) ∧
    ∀ s, (sampleCached g cfg graphCacheSize
      (cacheAfter g cfg graphCacheSize calls) user cutoff).1 = .ok s →
      s.WellFormed g cfg user cutoff := by
  obtain ⟨e, he, huser, hallowed, hcutoff⟩ := hvisible
  rw [sampleCached_after]
  constructor
  · intro hlimits
    have hmem : e ∈ g.userEvents user cutoff 0 :=
      TemporalGraph.mem_userEvents_zero.mpr ⟨he, huser, hallowed, hcutoff⟩
    obtain ⟨e', he'⟩ : ∃ e', e' ∈ g.userEvents user cutoff cfg.recentItems := by
      rw [TemporalGraph.userEvents_eq, keepLast_zero] at hmem
      apply List.exists_mem_of_ne_nil
      rw [TemporalGraph.userEvents_eq, Ne, keepLast_eq_nil]
      exact List.ne_nil_of_mem hmem
    exact sample_isOk hlimits he'
  · intro s hs
    rw [← huser]
    exact wellFormed_of_sample (InteractionData.user_lt_numUsers he) (huser ▸ hs)

/-- The last sample of the small table, with one neighbour per item, after two other calls. -/
theorem sample_wellFormed_small : ∃ s,
    (sampleCached smallArtifact.graph smallArtifact.cfg 1
      (cacheAfter smallArtifact.graph smallArtifact.cfg 1 [(0, 5), (1, 3)]) 0 5).1 = .ok s ∧
      s.WellFormed smallArtifact.graph smallArtifact.cfg 0 5 := by
  obtain ⟨hsome, hall⟩ := sample_wellFormed smallArtifact.graph smallArtifact.cfg 1
    [(0, 5), (1, 3)] 0 5 ⟨0, by decide, by decide, by decide, by decide⟩
  obtain ⟨s, hs⟩ := hsome ⟨.inl rfl, .inl rfl⟩
  exact ⟨s, hs, hall s hs⟩

end Sample

end Dgsr
