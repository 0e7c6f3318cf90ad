import GraphRec.Dgsr.Serving

/-!
# A virtual root agrees with the known user it replaces

`rootLast` relabels the local users of a sample so that the root comes last.
The main result, `sampleVirtual_eq_sample`: a known user's own events, given as
the history of a virtual shopper who replaces that user, yield the sample that
the training-time sampler takes at the last event, relabelled that way; only the
event ids, which root edges do not have, are left aside.

Both samples are `arranged` over the same induced edges, in two orders of the
users: `groupMessages_arranged` brings the grouped edge table to that form, and
`rootLast_arranged` moves the root.
-/

namespace Dgsr

open Grouping

/-! ## Moving the root to the end -/

/-- Move the entry at `r` to the end. -/
def moveLast {α : Type} (r : ℕ) (l : List α) : List α := l.eraseIdx r ++ l[r]?.toList

/-- Where `moveLast r` puts the entry at `k` of a list of length `n`. -/
def relabel (r n k : ℕ) : ℕ := if k < r then k else if k = r then n - 1 else k - 1

/-- The sample under the relabelling of its local users that moves the root to
the last index. -/
def GraphSample.rootLast (s : GraphSample) : GraphSample :=
  let local' := relabel s.root s.users.length
  { users := moveLast s.root s.users
    items := s.items
    toUsers := {
      messages := ((s.toUsers.messages.filter fun m => decide (m.dst ≠ s.root)) ++
        s.toUsers.messages.filter fun m => decide (m.dst = s.root)).map
          fun m => { m with dst := local' m.dst }
      counts := moveLast s.root s.toUsers.counts
      lastSrc := moveLast s.root s.toUsers.lastSrc }
    toItems := {
      messages := s.toItems.messages.map fun m => { m with src := local' m.src }
      counts := s.toItems.counts
      lastSrc := s.toItems.lastSrc.map fun src => src.map local' }
    root := local' s.root
    cutoff := s.cutoff
    inducedEvents := s.inducedEvents }

/-- Leave the event ids aside. -/
def MessageEdges.withoutEvents (m : MessageEdges) : MessageEdges :=
  { m with messages := m.messages.map fun x => { x with event := none } }

/-- Leave the event ids aside. -/
def GraphSample.withoutEvents (s : GraphSample) : GraphSample :=
  { s with
    toUsers := s.toUsers.withoutEvents
    toItems := s.toItems.withoutEvents
    inducedEvents := [] }

section MoveLast

variable {α β : Type} {pre post : List α} {x : α}

theorem moveLast_middle : moveLast pre.length (pre ++ x :: post) = pre ++ post ++ [x] := by
  simp [moveLast, List.eraseIdx_append_of_length_le]

theorem moveLast_map (f : α → β) (r : ℕ) (l : List α) :
    moveLast r (l.map f) = (moveLast r l).map f := by
  simp only [moveLast, List.eraseIdx_map, List.map_append, List.getElem?_map]
  cases l[r]? <;> rfl

/-- The relabelling says where an entry is found afterwards. -/
theorem getElem?_moveLast {l : List α} {r k : ℕ} (hr : r < l.length) (hk : k < l.length) :
    (moveLast r l)[relabel r l.length k]? = l[k]? := by
  have hlength : (l.eraseIdx r).length = l.length - 1 := by
    rw [List.length_eraseIdx]
    simp [hr]
  unfold moveLast relabel
  split
  · next hlt =>
      rw [List.getElem?_append_left (by omega), List.getElem?_eraseIdx_of_lt hlt]
  · split
    · next _ heq =>
        subst heq
        rw [List.getElem?_append_right (by omega), hlength, Nat.sub_self,
          List.getElem?_eq_getElem hr]
        rfl
    · next hnot hne =>
        rw [List.getElem?_append_left (by omega), List.getElem?_eraseIdx_of_ge (by omega)]
        congr 1
        omega

end MoveLast

/-- The position of an entry after moving the entry at the end of `pre`. -/
theorem idxOf_moved {pre post : List ℕ} {u x : ℕ} (hnodup : (pre ++ u :: post).Nodup)
    (hx : x ∈ pre ++ u :: post) : (pre ++ post ++ [u]).idxOf x =
      relabel pre.length (pre ++ u :: post).length ((pre ++ u :: post).idxOf x) := by
  have hk := List.idxOf_lt_length_of_mem hx
  have hr : pre.length < (pre ++ u :: post).length := by simp
  have hget := getElem?_moveLast hr hk
  rw [moveLast_middle, List.getElem?_idxOf hx] at hget
  have hmoved : (pre ++ post ++ [u]).Nodup := by
    refine (List.Perm.nodup_iff ?_).mp hnodup
    rw [List.append_assoc]
    exact List.Perm.append_left pre (List.perm_append_singleton u post).symm
  obtain ⟨hlt, hat⟩ := List.getElem?_eq_some_iff.mp hget
  conv_lhs => rw [← hat]
  exact hmoved.idxOf_getElem _ hlt

/-! ## Samples in a given order of the users -/

/-- The sample over induced edges, the users in a given order. -/
def arranged (data : InteractionData) (cfg : Config) (cutoff : ℕ) (edges users items : List ℕ)
    (root : ℕ) : GraphSample where
  users := users
  items := items
  toUsers := incidentMessages
    (users.map fun u => edges.filter fun e => decide (data.user e = u))
    data.item (items.idxOf ·) cfg.recentItems
  toItems := incidentMessages
    (items.map fun i => edges.filter fun e => decide (data.item e = i))
    data.user (users.idxOf ·) cfg.itemNeighborLimit
  root := users.idxOf root
  cutoff := cutoff
  inducedEvents := edges

theorem inducedSample_eq_arranged (g : TemporalGraph) (cfg : Config) (user cutoff : ℕ)
    (users items : Finset ℕ) : inducedSample g cfg user cutoff users items =
      arranged g.data cfg cutoff (inducedEdges g cutoff users items)
        (ascending g.data.numUsers users) (ascending g.data.numItems items) user := rfl

section Rows

variable {α : Type} {src : α → ℕ} {event : α → Option ℕ}

theorem row_withoutEvents (dest : ℕ) (chosen : List α) :
    (row src event dest chosen).map (fun m => { m with event := none }) =
      row src (fun _ => none) dest chosen := by
  simp [row, Function.comp_def]

/-- The messages of consecutive destinations. -/
def rows (src : α → ℕ) (event : α → Option ℕ) (first : ℕ) (chosen : List (List α)) :
    List Message :=
  (chosen.zipIdx first).flatMap fun (chosen, dest) => row src event dest chosen

theorem rows_append (first : ℕ) (chosen chosen' : List (List α)) :
    rows src event first (chosen ++ chosen') =
      rows src event first chosen ++ rows src event (first + chosen.length) chosen' := by
  simp [rows, List.zipIdx_append]

theorem rows_singleton (first : ℕ) (chosen : List α) :
    rows src event first [chosen] = row src event first chosen := by simp [rows]

theorem dst_of_mem_rows {first : ℕ} {chosen : List (List α)} {m : Message}
    (h : m ∈ rows src event first chosen) :
    first ≤ m.dst ∧ m.dst < first + chosen.length := by
  simp only [rows, List.mem_flatMap] at h
  obtain ⟨⟨ids, dest⟩, hmem, hm⟩ := h
  obtain ⟨_, _, _, _, hdst⟩ := mem_row hm
  have hrange := List.mem_zipIdx hmem
  rw [hdst]
  exact ⟨hrange.1, by omega⟩

/-- Relabelling a range of destinations by a shift. -/
theorem rows_relabel {f : ℕ → ℕ} {chosen : List (List α)} (first first' : ℕ)
    (h : ∀ k < chosen.length, f (first + k) = first' + k) :
    (rows src event first chosen).map (fun m => { m with dst := f m.dst }) =
      rows src event first' chosen := by
  induction chosen generalizing first first' with
  | nil => rfl
  | cons ids chosen ih =>
      have hhead : f first = first' := h 0 (by simp)
      have hrow : (row src event first ids).map (fun m => { m with dst := f m.dst }) =
          row src event first' ids := by
        simp [row, Function.comp_def, hhead]
      have hrest := ih (first + 1) (first' + 1) fun k hk => by
        have hnext := h (k + 1) (by simpa using hk)
        rw [Nat.add_assoc, Nat.add_comm 1 k, hnext]
        omega
      rw [← List.singleton_append, rows_append, rows_append, List.map_append, rows_singleton,
        rows_singleton, hrow]
      simp only [List.length_singleton, hrest]

/-- Moving one destination behind those that follow it. -/
theorem rows_moved (src : α → ℕ) (event : α → Option ℕ) (pre post : List (List α))
    (ids : List α) :
    let all := rows src event 0 (pre ++ ids :: post)
    ((all.filter fun m => decide (m.dst ≠ pre.length)) ++
        all.filter fun m => decide (m.dst = pre.length)).map
          (fun m => { m with dst := relabel pre.length (pre ++ ids :: post).length m.dst }) =
      rows src event 0 (pre ++ post ++ [ids]) := by
  intro all
  have hall : all = rows src event 0 pre ++
      (row src event pre.length ids ++ rows src event (pre.length + 1) post) := by
    simp only [all]
    rw [← List.singleton_append, rows_append, rows_append, rows_singleton, Nat.zero_add,
      List.length_singleton]
  have hpre : ∀ m ∈ rows src event 0 pre, m.dst ≠ pre.length := fun m hm => by
    have := dst_of_mem_rows hm
    omega
  have hpost : ∀ m ∈ rows src event (pre.length + 1) post, m.dst ≠ pre.length := fun m hm => by
    have := dst_of_mem_rows hm
    omega
  have hids : ∀ m ∈ row src event pre.length ids, m.dst = pre.length := fun m hm => by
    obtain ⟨_, _, _, _, hdst⟩ := mem_row hm
    exact hdst
  have hothers : all.filter (fun m => decide (m.dst ≠ pre.length)) =
      rows src event 0 pre ++ rows src event (pre.length + 1) post := by
    rw [hall, List.filter_append, List.filter_append,
      List.filter_eq_self.mpr fun m hm => by simpa using hpre m hm,
      List.filter_eq_nil_iff.mpr fun m hm => by simpa using hids m hm,
      List.filter_eq_self.mpr fun m hm => by simpa using hpost m hm, List.nil_append]
  have hroot : all.filter (fun m => decide (m.dst = pre.length)) =
      row src event pre.length ids := by
    rw [hall, List.filter_append, List.filter_append,
      List.filter_eq_nil_iff.mpr fun m hm => by simpa using hpre m hm,
      List.filter_eq_self.mpr fun m hm => by simpa using hids m hm,
      List.filter_eq_nil_iff.mpr fun m hm => by simpa using hpost m hm, List.nil_append,
      List.append_nil]
  rw [hothers, hroot, List.map_append, List.map_append, ← rows_singleton]
  rw [rows_relabel 0 0, rows_relabel (pre.length + 1) pre.length,
    rows_relabel pre.length (pre.length + post.length)]
  · rw [rows_append, rows_append, Nat.zero_add, Nat.zero_add, List.length_append]
  · intro k hk
    simp only [List.length_singleton, Nat.lt_one_iff] at hk
    simp [relabel, hk]
  · intro k _
    have hnot : ¬ pre.length + 1 + k < pre.length := by omega
    have hne : ¬ pre.length + 1 + k = pre.length := by omega
    simp only [relabel, hnot, hne, if_false]
    omega
  · intro k hk
    simp [relabel, hk]

end Rows

section Moving

variable (incident : List (List ℕ)) (opposite mapping : ℕ → ℕ) (limit : ℕ)

theorem incidentMessages_withoutEvents :
    (incidentMessages incident opposite mapping limit).withoutEvents = {
      messages := rows (fun e => mapping (opposite e)) (fun _ => none) 0
        (incident.map (keepLast limit))
      counts := incident.map fun ids => (keepLast limit ids).length
      lastSrc := incident.map fun ids =>
        (keepLast limit ids).getLast?.map fun e => mapping (opposite e) } := by
  simp only [incidentMessages, MessageEdges.withoutEvents, rows, List.map_flatMap,
    row_withoutEvents, List.zipIdx_map, List.flatMap_map]
  rfl

/-- Renaming the sources of the messages. -/
theorem incidentMessages_relabel (f mapping' : ℕ → ℕ)
    (h : ∀ ids ∈ incident, ∀ e ∈ ids, f (mapping (opposite e)) = mapping' (opposite e)) :
    let m := (incidentMessages incident opposite mapping limit).withoutEvents
    (⟨m.messages.map fun x => { x with src := f x.src }, m.counts,
      m.lastSrc.map fun src => src.map f⟩ : MessageEdges) =
      (incidentMessages incident opposite mapping' limit).withoutEvents := by
  have hkept : ∀ ids ∈ incident, ∀ e ∈ keepLast limit ids,
      f (mapping (opposite e)) = mapping' (opposite e) := fun ids hids e he =>
    h ids hids e ((keepLast_sublist _ _).subset he)
  intro m
  simp only [m, incidentMessages_withoutEvents, MessageEdges.mk.injEq, List.map_map, true_and]
  constructor
  · rw [rows, rows, List.map_flatMap]
    refine List.flatMap_congr fun x hx => ?_
    obtain ⟨chosen, dest⟩ := x
    obtain ⟨ids, hids, rfl⟩ : ∃ ids ∈ incident, keepLast limit ids = chosen :=
      List.mem_map.mp (List.fst_mem_of_mem_zipIdx hx)
    dsimp only
    rw [row, row, List.map_map]
    refine List.map_congr_left fun y hy => ?_
    have hy := hkept ids hids y.1 (List.fst_mem_of_mem_zipIdx hy)
    simp [hy]
  · refine List.map_congr_left fun ids hids => ?_
    rw [Function.comp_apply, Option.map_map]
    refine Option.map_congr fun e he => ?_
    exact hkept ids hids e (List.mem_of_getLast? he)

/-- Moving a destination behind those that follow it. -/
theorem incidentMessages_moved (opposite mapping : ℕ → ℕ) (limit : ℕ)
    (pre post : List (List ℕ)) (ids : List ℕ) :
    let m := (incidentMessages (pre ++ ids :: post) opposite mapping limit).withoutEvents
    (⟨((m.messages.filter fun x => decide (x.dst ≠ pre.length)) ++
        m.messages.filter fun x => decide (x.dst = pre.length)).map
          (fun x => { x with dst := relabel pre.length (pre ++ ids :: post).length x.dst }),
      moveLast pre.length m.counts, moveLast pre.length m.lastSrc⟩ : MessageEdges) =
      (incidentMessages (pre ++ post ++ [ids]) opposite mapping limit).withoutEvents := by
  intro m
  have hlast : ∀ {β : Type} (f : List ℕ → β), moveLast pre.length ((pre ++ ids :: post).map f) =
      (pre ++ post ++ [ids]).map f := fun f => by rw [moveLast_map, moveLast_middle]
  simp only [m, incidentMessages_withoutEvents, hlast, MessageEdges.mk.injEq, and_self, and_true]
  have hrows := rows_moved (fun e => mapping (opposite e)) (fun _ => none)
    (pre.map (keepLast limit)) (post.map (keepLast limit)) (keepLast limit ids)
  simpa using hrows

end Moving

/-- **Moving the root.**  Relabelling a sample so that the root comes last gives
the sample in the order with the root last. -/
theorem rootLast_arranged {data : InteractionData} {cfg : Config} {cutoff : ℕ}
    {edges items pre post : List ℕ} {u : ℕ} (hnodup : (pre ++ u :: post).Nodup)
    (hedges : ∀ e ∈ edges, data.user e ∈ pre ++ u :: post) :
    (arranged data cfg cutoff edges (pre ++ u :: post) items u).withoutEvents.rootLast =
      (arranged data cfg cutoff edges (pre ++ post ++ [u]) items u).withoutEvents := by
  have hroot : (pre ++ u :: post).idxOf u = pre.length := by
    have hnot : u ∉ pre := fun hu =>
      (List.nodup_append.mp hnodup).2.2 u hu u List.mem_cons_self rfl
    simp [List.idxOf_append, hnot]
  have hmoved : ∀ x ∈ pre ++ u :: post, relabel pre.length (pre ++ u :: post).length
      ((pre ++ u :: post).idxOf x) = (pre ++ post ++ [u]).idxOf x := fun x hx =>
    (idxOf_moved hnodup hx).symm
  have husers := incidentMessages_moved data.item (items.idxOf ·) cfg.recentItems
    (pre.map fun w => edges.filter fun e => decide (data.user e = w))
    (post.map fun w => edges.filter fun e => decide (data.user e = w))
    (edges.filter fun e => decide (data.user e = u))
  have hitems := incidentMessages_relabel
    (items.map fun i => edges.filter fun e => decide (data.item e = i)) data.user
    ((pre ++ u :: post).idxOf ·) cfg.itemNeighborLimit
    (relabel pre.length (pre ++ u :: post).length) ((pre ++ post ++ [u]).idxOf ·) (by
      intro ids hids e he
      obtain ⟨i, _, rfl⟩ := List.mem_map.mp hids
      exact hmoved _ (hedges e (List.mem_filter.mp he).1))
  simp only [List.length_map, List.length_append, List.length_cons] at husers hitems
  simp only [GraphSample.rootLast, GraphSample.withoutEvents, arranged, hroot,
    GraphSample.mk.injEq, moveLast_middle, true_and, and_true, List.map_append, List.map_cons,
    List.map_nil, List.length_append, List.length_cons]
  refine ⟨?_, ?_, ?_⟩
  · simpa using husers
  · exact hitems
  · have hself := hmoved u (List.mem_append_right _ List.mem_cons_self)
    rw [hroot] at hself
    simpa using hself

/-! ## The grouped edge table -/

theorem map_eq_map_range {α β : Type} (f : α → β) (l : List α) (default : α) :
    l.map f = (List.range l.length).map fun d => f (l.getD d default) := by
  apply List.ext_getElem (by simp)
  intro d hd _
  simp at hd
  simp [hd]

theorem rows_eq_range {α : Type} {src : α → ℕ} {event : α → Option ℕ} (chosen : List (List α)) :
    rows src event 0 chosen =
      (List.range chosen.length).flatMap fun d => row src event d (chosen.getD d []) := by
  have hzip : chosen.zipIdx = (List.range chosen.length).map fun d => (chosen.getD d [], d) := by
    apply List.ext_getElem (by simp)
    intro d hd _
    simp at hd
    simp [hd]
  rw [rows, hzip, List.flatMap_map]

/-- **The grouping is the arrangement.**  Grouping the table of the edges of
`events`, whose destinations are positions in `order`, gives the messages of the
incident lists in that order. -/
theorem groupMessages_arranged {events order : List ℕ} {key : ℕ → ℕ} (edge : ℕ → Edge)
    (dst src : Edge → ℕ) (opposite mapping : ℕ → ℕ) (limit : ℕ) (hnodup : order.Nodup)
    (hkey : ∀ e ∈ events, key e ∈ order)
    (hdst : ∀ e ∈ events, dst (edge e) = order.idxOf (key e))
    (hsrc : ∀ e ∈ events, src (edge e) = mapping (opposite e)) :
    (groupMessages (events.map edge) dst src order.length limit).withoutEvents =
      (incidentMessages (order.map fun k => events.filter fun e => decide (key e = k))
        opposite mapping limit).withoutEvents := by
  have hlt : ∀ x ∈ events.map edge, dst x < order.length := by
    intro x hx
    obtain ⟨e, he, rfl⟩ := List.mem_map.mp hx
    rw [hdst e he]
    exact List.idxOf_lt_length_of_mem (hkey e he)
  -- The edges into position `d` are those of the events on the entry there.
  have hgroup : ∀ d ∈ List.range order.length, group dst (events.map edge) d =
      (events.filter fun e => decide (key e = order.getD d 0)).map edge := by
    intro d hd
    rw [List.mem_range] at hd
    rw [group, List.filter_map]
    congr 1
    refine List.filter_congr fun e he => ?_
    rw [Function.comp_apply, hdst e he, decide_eq_decide, List.getD_eq_getElem _ _ hd]
    exact idxOf_eq_iff hnodup hd
  have hmap : ∀ d ∈ List.range order.length, ∀ e ∈
      keepLast limit (events.filter fun e => decide (key e = order.getD d 0)),
      src (edge e) = mapping (opposite e) := fun d _ e he =>
    hsrc e (List.mem_filter.mp ((keepLast_sublist _ _).subset he)).1
  rw [groupMessages_eq hlt, incidentMessages_withoutEvents]
  simp only [MessageEdges.withoutEvents, MessageEdges.mk.injEq, List.map_map]
  refine ⟨?_, ?_, ?_⟩
  · rw [rows_eq_range, List.map_flatMap, List.length_map]
    refine List.flatMap_congr fun d hd => ?_
    have hchosen : ((order.map (keepLast limit ∘ fun k =>
        events.filter fun e => decide (key e = k))).getD d []) =
        keepLast limit (events.filter fun e => decide (key e = order.getD d 0)) := by
      simp [List.mem_range.mp hd]
    rw [hgroup d hd, keepLast_map, row_withoutEvents, hchosen, row, row, List.zipIdx_map,
      List.map_map]
    refine List.map_congr_left fun x hx => ?_
    have hx := hmap d hd x.1 (List.fst_mem_of_mem_zipIdx hx)
    simp [hx]
  · rw [map_eq_map_range _ order 0]
    refine List.map_congr_left fun d hd => ?_
    rw [hgroup d hd, keepLast_map, List.length_map]
    rfl
  · rw [map_eq_map_range _ order 0]
    refine List.map_congr_left fun d hd => ?_
    rw [hgroup d hd, keepLast_map, List.getLast?_map, Option.map_map]
    refine Option.map_congr fun e he => ?_
    exact hmap d hd e (List.mem_of_getLast? he)

/-! ## The edge table of a user's own history -/

/-- A user's own events, as a history. -/
def ownHistory (data : InteractionData) (u : ℕ) : List HistoryEvent :=
  (data.byUser u).map fun e => ⟨data.item e, data.time e⟩

/-- No event of another user has the time of one of the user's events. -/
def AloneInTime (data : InteractionData) (u : ℕ) : Prop :=
  ∀ ⦃e e' : ℕ⦄, e < data.size → e' < data.size → data.user e = u → data.user e' ≠ u →
    data.time e ≠ data.time e'

/-- The row of an event in the edge table: the events of `u`, listed in `own`,
are the root's. -/
def virtualEdge (data : InteractionData) (u : ℕ) (own users items : List ℕ) (e : ℕ) : Edge where
  time := data.time e
  key := if data.user e = u then own.idxOf e + (data.size + 1) else e
  user := users.idxOf (data.user e)
  item := items.idxOf (data.item e)
  event := if data.user e = u then none else some e

section EdgeTable

variable {data : InteractionData} {u : ℕ}

/-- Positions in an increasing list increase. -/
theorem idxOf_lt_idxOf {l : List ℕ} (h : l.Pairwise (· < ·)) {a b : ℕ} (ha : a ∈ l) (hb : b ∈ l)
    (hab : a < b) : l.idxOf a < l.idxOf b := by
  by_contra hnot
  have hla := List.idxOf_lt_length_of_mem ha
  have hlb := List.idxOf_lt_length_of_mem hb
  rcases Nat.lt_or_eq_of_le (Nat.le_of_not_lt hnot) with hlt | heq
  · have hget := List.pairwise_iff_getElem.mp h _ _ hlb hla hlt
    rw [List.getElem_idxOf, List.getElem_idxOf] at hget
    omega
  · have hsame := List.idxOf_inj hb |>.mp heq
    omega

/-- In the order of the event ids the table is strictly sorted: an event of the
root never has the time of another user's event. -/
theorem virtualEdge_sorted (hchron : data.Chronological) (halone : AloneInTime data u)
    {edges users items : List ℕ} (hincreasing : edges.Pairwise (· < ·))
    (hsize : ∀ e ∈ edges, e < data.size) :
    (edges.map (virtualEdge data u (edges.filter fun e => decide (data.user e = u))
      users items)).Pairwise fun a b => Edge.le a b ∧ ¬ Edge.le b a := by
  rw [List.pairwise_map]
  refine hincreasing.imp_of_mem fun {e e'} he he' hlt => ?_
  have htime : data.time e ≤ data.time e' := hchron (le_of_lt hlt) (hsize e' he')
  -- Either the times differ, or both events are the root's, or neither is.
  by_cases hu : data.user e = u <;> by_cases hu' : data.user e' = u
  · have hkey := idxOf_lt_idxOf (hincreasing.filter fun e => decide (data.user e = u))
      (List.mem_filter.mpr ⟨he, by simpa using hu⟩)
      (List.mem_filter.mpr ⟨he', by simpa using hu'⟩) hlt
    simp only [Edge.le, virtualEdge, hu, hu', if_true]
    omega
  · have hne := halone (hsize e he) (hsize e' he') hu hu'
    simp only [Edge.le, virtualEdge]
    omega
  · have hne := halone (hsize e' he') (hsize e he) hu' hu
    simp only [Edge.le, virtualEdge]
    omega
  · simp only [Edge.le, virtualEdge, hu, hu', if_false]
    omega

/-- The root's edges are the rows of its events. -/
theorem rootEdges_own {users : List ℕ} (own items : List ℕ) (hnodup : own.Nodup)
    (hown : ∀ e ∈ own, data.user e = u) (hu : u ∉ users) :
    rootEdges data users.length items (own.map fun e => ⟨data.item e, data.time e⟩) =
      own.map (virtualEdge data u own (users ++ [u]) items) := by
  have hlast : (users ++ [u]).idxOf u = users.length := by
    simp [List.idxOf_append, hu]
  apply List.ext_getElem (by simp [rootEdges])
  intro k hk hk'
  have hk' : k < own.length := by simpa using hk'
  have huser := hown _ (List.getElem_mem hk')
  simp [rootEdges, virtualEdge, huser, hlast, hnodup.idxOf_getElem k hk']

/-- The real edges are the rows of the other users' events. -/
theorem realEdges_others {users : List ℕ} (eids own items : List ℕ) (hu : u ∉ users)
    (hmem : ∀ e ∈ eids, data.user e ∈ users) :
    realEdges data users items eids = eids.map (virtualEdge data u own (users ++ [u]) items) := by
  refine List.map_congr_left fun e he => ?_
  have hne : data.user e ≠ u := fun heq => hu (heq ▸ hmem e he)
  simp [virtualEdge, hne, List.idxOf_append_of_mem (hmem e he)]

end EdgeTable

/-! ## The two samplers -/

section Samplers

variable {art : Artifact} {u : ℕ}

/-- Both expansions start from the same items. -/
theorem virtualItems_own : virtualItems art.cfg (ownHistory art.data u) =
    rootItems art.graph art.cfg u art.cutoff := by
  have hpos : art.cfg.recentItems ≠ 0 := by
    have := art.cfg.recentItems_pos
    omega
  rw [virtualItems, rootItems, graph_userEvents, keepLast, if_neg hpos, ownHistory, List.rtake,
    List.rtake, ← List.map_drop, List.map_map, List.length_map]
  rfl

/-- The training-time expansion reaches what the serving-time one reaches, and
the root. -/
theorem reached_eq_insert : reached art.graph art.cfg art.cutoff (fun _ => false) {u}
      (rootItems art.graph art.cfg u art.cutoff) =
    (insert u (virtualReached art (ownHistory art.data u) (some u)).1,
      (virtualReached art (ownHistory art.data u) (some u)).2) := by
  have hclosed : (art.graph.neighbours art.cfg art.cutoff).right u ⊆
      rootItems art.graph art.cfg u art.cutoff := Finset.Subset.refl _
  have hhops := Frontier.hop_iterate_insert ∅ hclosed (art.cfg.samplingOrder + 1)
  have hskip : (fun w => decide (some w = some u)) = fun w => decide (w = u) := by
    funext w
    simp
  rw [virtualReached, virtualItems_own, reached, reached, hskip]
  exact hhops

theorem notMem_virtualReached (history : List HistoryEvent) :
    u ∉ (virtualReached art history (some u)).1 :=
  Frontier.not_mem_hop_iterate (by simp) _ (Finset.notMem_empty u)

/-- The order with the user splits at the user. -/
theorem ascending_insert {n : ℕ} {nodes : Finset ℕ} (hlt : u < n) (hu : u ∉ nodes) :
    ∃ pre post, ascending n (insert u nodes) = pre ++ u :: post ∧
      ascending n nodes = pre ++ post := by
  have hmem : u ∈ ascending n (insert u nodes) := by simp [hlt]
  obtain ⟨pre, post, hsplit⟩ := List.append_of_mem hmem
  refine ⟨pre, post, hsplit, ?_⟩
  have hnodup := ascending_nodup n (insert u nodes)
  rw [hsplit] at hnodup
  have hwithout : ascending n nodes =
      (ascending n (insert u nodes)).filter fun x => decide (x ≠ u) := by
    rw [ascending, ascending, List.filter_filter]
    refine List.filter_congr fun x _ => ?_
    by_cases hx : x = u <;> simp [hx, hu]
  have hpre : ∀ x ∈ pre, x ≠ u := fun x hx heq =>
    (List.nodup_append.mp hnodup).2.2 x hx u List.mem_cons_self heq
  have hpost : ∀ x ∈ post, x ≠ u := fun x hx heq =>
    (List.nodup_cons.mp (List.nodup_append.mp hnodup).2.1).1 (heq ▸ hx)
  rw [hwithout, hsplit, List.filter_append, List.filter_cons_of_neg (by simp),
    List.filter_eq_self.mpr fun x hx => by simpa using hpre x hx,
    List.filter_eq_self.mpr fun x hx => by simpa using hpost x hx]

/-- The edge table, sorted, lists the induced edges of the users and the root. -/
theorem edgeTable_own (hchron : art.data.Chronological) (halone : AloneInTime art.data u)
    {users : Finset ℕ} (items : Finset ℕ) (hu : u ∉ users) :
    let edges := inducedEdges art.graph art.cutoff (insert u users) items
    let orderedUsers := ascending art.data.numUsers users
    let orderedItems := ascending art.data.numItems items
    (edgeTable art (ownHistory art.data u) users items).insertionSort Edge.le =
      edges.map (virtualEdge art.data u (edges.filter fun e => decide (art.data.user e = u))
        (orderedUsers ++ [u]) orderedItems) := by
  intro edges orderedUsers orderedItems
  have hincreasing : edges.Pairwise (· < ·) := inducedEdges_increasing _ _ _ _
  have hordered : u ∉ orderedUsers := fun h => hu (mem_ascending.mp h).2
  -- The root's edges are its events among the induced ones.
  have hhistory : (ownHistory art.data u).filter (fun event => decide (event.item ∈ items)) =
      (edges.filter fun e => decide (art.data.user e = u)).map
        fun e => ⟨art.data.item e, art.data.time e⟩ := by
    have hown : edges.filter (fun e => decide (art.data.user e = u)) =
        (art.data.byUser u).filter fun e => decide (art.data.item e ∈ items) :=
      inducedEdges_filter_user (Finset.mem_insert_self u users)
    rw [ownHistory, List.filter_map, hown]
    rfl
  have hroot := rootEdges_own (edges.filter fun e => decide (art.data.user e = u)) orderedItems
    ((hincreasing.imp fun h => Nat.ne_of_lt h).filter _)
    (fun e he => by simpa using (List.mem_filter.mp he).2) hordered
  -- The real edges are the other ones.
  have hcollected : (collected art.graph art.cutoff users items).Perm
      (edges.filter fun e => !decide (art.data.user e = u)) := by
    have hothers : inducedEdges art.graph art.cutoff users items =
        edges.filter fun e => !decide (art.data.user e = u) := by
      refine eq_of_increasing (inducedEdges_increasing _ _ _ _) (hincreasing.filter _) ?_
      intro e
      simp only [List.mem_filter, mem_inducedEdges_graph, edges, Finset.mem_insert,
        Bool.not_eq_true', decide_eq_false_iff_not]
      constructor
      · intro hcase
        obtain ⟨hlt, huser, hitem⟩ := hcase
        exact ⟨⟨hlt, .inr huser, hitem⟩, fun heq => hu (heq ▸ huser)⟩
      · intro hcase
        obtain ⟨⟨hlt, huser, hitem⟩, hne⟩ := hcase
        exact ⟨hlt, huser.resolve_left hne, hitem⟩
    exact collected_perm.trans (hothers ▸ List.Perm.refl _)
  have husers : ∀ e ∈ collected art.graph art.cutoff users items,
      art.data.user e ∈ orderedUsers := fun e he =>
    (ends_of_mem_inducedEdges (mem_collected.mp he)).1
  have hreal := realEdges_others (collected art.graph art.cutoff users items)
    (edges.filter fun e => decide (art.data.user e = u)) orderedItems hordered husers
  have : Std.Total Edge.le := ⟨fun a b => by simp only [Edge.le]; omega⟩
  have : IsTrans Edge Edge.le := ⟨fun a b c => by simp only [Edge.le]; omega⟩
  refine insertionSort_eq_of_strict (virtualEdge_sorted hchron halone hincreasing
    fun e he => (mem_inducedEdges_graph.mp he).1) ?_
  rw [edgeTable, hhistory, hroot, hreal, ← List.map_append]
  refine List.Perm.map _ ?_
  exact (hcollected.append_right _).trans
    (List.perm_append_comm.trans (List.filter_append_perm _ _))

/-- What the serving-time sampler builds from a user's own history: the induced
edges arranged with the user last. -/
theorem induceVirtual_own (hchron : art.data.Chronological) (halone : AloneInTime art.data u)
    (hedges : art.cfg.maxSampleEdges = 0) {users : Finset ℕ} (items : Finset ℕ)
    (hu : u ∉ users) :
    ∃ b, induceVirtual art (ownHistory art.data u) (some u) users items = .ok (b, b.root) ∧
      b.withoutEvents = (arranged art.data art.cfg art.cutoff
        (inducedEdges art.graph art.cutoff (insert u users) items)
        (ascending art.data.numUsers users ++ [u]) (ascending art.data.numItems items)
        u).withoutEvents := by
  have hordered : u ∉ ascending art.data.numUsers users := fun h => hu (mem_ascending.mp h).2
  have hnodup : (ascending art.data.numUsers users ++ [u]).Nodup := by
    refine List.Nodup.append (ascending_nodup _ _) (List.nodup_singleton u) ?_
    simpa using hordered
  have hlast : (ascending art.data.numUsers users ++ [u]).idxOf u =
      (ascending art.data.numUsers users).length := by
    simp [List.idxOf_append, hordered]
  have huser : ∀ e ∈ inducedEdges art.graph art.cutoff (insert u users) items,
      art.data.user e ∈ ascending art.data.numUsers users ++ [u] := by
    intro e he
    obtain ⟨hlt, huser, _⟩ := mem_inducedEdges_graph.mp he
    rcases Finset.mem_insert.mp huser with heq | hmem
    · exact List.mem_append_right _ (by rw [heq]; exact List.mem_singleton.mpr rfl)
    · exact List.mem_append_left _
        (mem_ascending.mpr ⟨InteractionData.user_lt_numUsers hlt, hmem⟩)
  have hitem : ∀ e ∈ inducedEdges art.graph art.cutoff (insert u users) items,
      art.data.item e ∈ ascending art.data.numItems items := fun e he =>
    (ends_of_mem_inducedEdges he).2
  have hno : ¬ (art.cfg.maxSampleEdges ≠ 0 ∧ (collected art.graph art.cutoff users items).length +
      (ownHistory art.data u).length > art.cfg.maxSampleEdges) := fun h => h.1 hedges
  rw [induceVirtual_eq, if_neg hno]
  refine ⟨_, rfl, ?_⟩
  have husers := groupMessages_arranged (virtualEdge art.data u
      ((inducedEdges art.graph art.cutoff (insert u users) items).filter
        fun e => decide (art.data.user e = u))
      (ascending art.data.numUsers users ++ [u]) (ascending art.data.numItems items))
    Edge.user Edge.item art.data.item ((ascending art.data.numItems items).idxOf ·)
    art.cfg.recentItems hnodup huser (fun _ _ => rfl) (fun _ _ => rfl)
  have hitems := groupMessages_arranged (virtualEdge art.data u
      ((inducedEdges art.graph art.cutoff (insert u users) items).filter
        fun e => decide (art.data.user e = u))
      (ascending art.data.numUsers users ++ [u]) (ascending art.data.numItems items))
    Edge.item Edge.user art.data.user ((ascending art.data.numUsers users ++ [u]).idxOf ·)
    art.cfg.itemNeighborLimit (ascending_nodup art.data.numItems items) hitem
    (fun _ _ => rfl) (fun _ _ => rfl)
  rw [List.length_append, List.length_singleton] at husers
  simp only [GraphSample.withoutEvents, virtualSample, arranged,
    edgeTable_own hchron halone items hu, husers, hitems, hlast, Option.getD_some]

/-- **The serving-time sampler agrees with the training-time sampler.**  A virtual
shopper who replaces a known user and brings that user's own events gets the
sample of the user at the last event, with the root as the last local user. -/
theorem sampleVirtual_eq_sample (hchron : art.data.Chronological)
    (hnodes : art.cfg.maxSampleNodes = 0) (hedges : art.cfg.maxSampleEdges = 0)
    (hevents : art.data.byUser u ≠ []) (halone : AloneInTime art.data u) :
    ∃ a b, sample art.graph art.cfg u art.cutoff = .ok a ∧
      sampleVirtual art (ownHistory art.data u) (some u) = .ok (b, b.root) ∧
      b.withoutEvents = a.withoutEvents.rootLast := by
  have hlimits : Unlimited art.cfg art.graph.data := ⟨.inl hnodes, .inl hedges⟩
  have hrecent : art.graph.userEvents u art.cutoff art.cfg.recentItems ≠ [] := by
    rw [graph_userEvents, ne_eq, keepLast_eq_nil]
    exact hevents
  obtain ⟨e, he⟩ := List.exists_mem_of_ne_nil _ hrecent
  obtain ⟨a, ha⟩ := sample_isOk hlimits he
  have hlt : u < art.data.numUsers := by
    have hevent := TemporalGraph.of_mem_userEvents he
    exact hevent.2.1 ▸ InteractionData.user_lt_numUsers hevent.1
  have hnot : u ∉ (virtualReached art (ownHistory art.data u) (some u)).1 :=
    notMem_virtualReached _
  have hitems : ∀ x ∈ ownHistory art.data u, x.item < art.data.numItems := by
    intro x hx
    obtain ⟨e, he, rfl⟩ := List.mem_map.mp hx
    exact InteractionData.item_lt_numItems (InteractionData.mem_byUser.mp he).1
  obtain ⟨result, hresult⟩ := sampleVirtual_isOk (some u) hnodes hedges hitems
  obtain ⟨b, hb, harranged⟩ := induceVirtual_own hchron halone hedges
    (virtualReached art (ownHistory art.data u) (some u)).2 hnot
  have hspec := sampleVirtual_spec hresult
  rw [hb] at hspec
  refine ⟨a, b, ha, by rw [hresult, ← hspec], ?_⟩
  obtain ⟨pre, post, hwith, hwithout⟩ := ascending_insert hlt hnot
  have hnodup := ascending_nodup art.data.numUsers
    (insert u (virtualReached art (ownHistory art.data u) (some u)).1)
  rw [hwith] at hnodup
  rw [harranged, hwithout, sample_spec ha, reached_eq_insert, inducedSample_eq_arranged]
  dsimp only [Artifact.graph] at hwith ⊢
  rw [hwith]
  refine (rootLast_arranged hnodup fun e he => ?_).symm
  rw [← hwith]
  exact (ends_of_mem_inducedEdges he).1

end Samplers

/-- User 0 of the small table, and a virtual shopper with the same events. -/
theorem sampleVirtual_eq_sample_small :
    ∃ a b, sample smallArtifact.graph smallArtifact.cfg 0 5 = .ok a ∧
      sampleVirtual smallArtifact [⟨0, 10⟩, ⟨1, 12⟩, ⟨2, 14⟩, ⟨0, 15⟩] (some 0) =
        .ok (b, b.root) ∧
      b.withoutEvents = a.withoutEvents.rootLast := by
  have halone : AloneInTime smallArtifact.data 0 := by
    intro e e' he he' hu hu'
    have hall : ∀ e < 6, ∀ e' < 6, smallData.user e = 0 → smallData.user e' ≠ 0 →
        smallData.time e ≠ smallData.time e' := by decide
    exact hall e he e' he' hu hu'
  exact sampleVirtual_eq_sample smallData_chronological rfl rfl (by decide) halone

end Dgsr
