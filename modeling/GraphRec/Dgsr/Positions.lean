import GraphRec.Dgsr.Serving

/-!
# Position lookups

In the `dat` mode the model looks up the relative position of every message in
two embeddings with `positionCapacity` rows; `encodeKnown` and `encodeHistory`
are the two encoders as far as these lookups go.

The capacity bounds what the training graph needs (`sample_relative_lt`), so the
encoder for known users never looks up a row that is not there.  A virtual root
adds edges to that graph: `sampleVirtual_relative_lt_iff` says exactly which
histories fit (`FitsCapacity`), and `encodeHistory` raises for the others.
-/

namespace Dgsr

open Grouping

/-- How many of `n` edges a limit keeps. -/
def kept (limit n : ℕ) : ℕ := if limit = 0 then n else min limit n

theorem kept_mono {limit n n' : ℕ} (h : n ≤ n') : kept limit n ≤ kept limit n' := by
  unfold kept
  split <;> omega

theorem length_keepLast_eq_kept {α : Type} (limit : ℕ) (l : List α) :
    (keepLast limit l).length = kept limit l.length := length_keepLast limit l

/-! ## The lookups -/

/-- What the encoders raise. -/
inductive EncodeError
  | emptyHistory
  | sampling (error : SampleError)
  | indexOutOfRange
  deriving DecidableEq, Repr

/-- `key_positions(edges.relative)` and `value_positions(edges.relative)`: an
index beyond the last row raises; only the `dat` mode has the embeddings. -/
def lookupPositions (cfg : Config) (rows : ℕ) (edges : MessageEdges) : Except EncodeError Unit :=
  if cfg.longTerm = .dat ∧ ∃ m ∈ edges.messages, rows ≤ m.relative then .error .indexOutOfRange
  else .ok ()

/-- A layer looks up the positions of both message directions; all layers look up
the same ones. -/
def encodePositions (cfg : Config) (rows : ℕ) (s : GraphSample) :
    Except EncodeError GraphSample :=
  match lookupPositions cfg rows s.toUsers with
  | .error e => .error e
  | .ok () =>
      match lookupPositions cfg rows s.toItems with
      | .error e => .error e
      | .ok () => .ok s

/-- `encode_known`. -/
def encodeKnown (art : Artifact) (user : ℕ) : Except EncodeError GraphSample :=
  match sample art.graph art.cfg user art.cutoff with
  | .error e => .error (.sampling e)
  | .ok s => encodePositions art.cfg (art.data.positionCapacity art.cfg) s

/-- `encode_history`. -/
def encodeHistory (art : Artifact) (history : List HistoryEvent) (user : Option ℕ) :
    Except EncodeError GraphSample :=
  if history = [] then .error .emptyHistory
  else
    match sampleVirtual art history user with
    | .error e => .error (.sampling e)
    | .ok (s, _) => encodePositions art.cfg (art.data.positionCapacity art.cfg) s

/-- Every relative position of a sample has a row. -/
def InRange (rows : ℕ) (s : GraphSample) : Prop :=
  ∀ m ∈ s.toUsers.messages ++ s.toItems.messages, m.relative < rows

/-- In the `dat` mode encoding succeeds on samples in range and raises on others. -/
theorem encodePositions_spec {cfg : Config} (hdat : cfg.longTerm = .dat) (rows : ℕ)
    (s : GraphSample) :
    (InRange rows s ∧ encodePositions cfg rows s = .ok s) ∨
      (¬ InRange rows s ∧ encodePositions cfg rows s = .error .indexOutOfRange) := by
  have hlookup : ∀ edges : MessageEdges,
      ((∀ m ∈ edges.messages, m.relative < rows) ∧ lookupPositions cfg rows edges = .ok ()) ∨
      ((¬ ∀ m ∈ edges.messages, m.relative < rows) ∧
        lookupPositions cfg rows edges = .error .indexOutOfRange) := by
    intro edges
    by_cases h : ∀ m ∈ edges.messages, m.relative < rows
    · refine .inl ⟨h, if_neg ?_⟩
      intro hcase
      obtain ⟨_, m, hm, hge⟩ := hcase
      exact absurd (h m hm) (Nat.not_lt.mpr hge)
    · refine .inr ⟨h, if_pos ⟨hdat, ?_⟩⟩
      simpa using h
  rw [InRange, List.forall_mem_append, encodePositions]
  rcases hlookup s.toUsers with ⟨hin, husers⟩ | ⟨hout, husers⟩
  · rcases hlookup s.toItems with ⟨hin', hitems⟩ | ⟨hout, hitems⟩
    · exact .inl ⟨⟨hin, hin'⟩, by rw [husers, hitems]⟩
    · exact .inr ⟨fun h => hout h.2, by rw [husers, hitems]⟩
  · exact .inr ⟨fun h => hout h.1, by rw [husers]⟩

theorem encodePositions_eq_ok {cfg : Config} (hdat : cfg.longTerm = .dat) {rows : ℕ}
    {s : GraphSample} : encodePositions cfg rows s = .ok s ↔ InRange rows s := by
  rcases encodePositions_spec hdat rows s with ⟨hin, heq⟩ | ⟨hout, heq⟩
  · exact ⟨fun _ => hin, fun _ => heq⟩
  · exact ⟨fun h => absurd (heq.symm.trans h) (by simp), fun h => absurd h hout⟩

/-! ## Relative positions and degrees -/

section Relative

variable {α : Type} {rows : ℕ}

/-- The oldest of the chosen events is the farthest. -/
theorem row_relative_lt_iff (src : α → ℕ) (event : α → Option ℕ) (dest : ℕ) {chosen : List α} :
    (∀ m ∈ row src event dest chosen, m.relative < rows) ↔ chosen.length ≤ rows := by
  constructor
  · intro h
    cases chosen with
    | nil => exact Nat.zero_le _
    | cons x chosen =>
        have holdest := h ⟨src x, dest, (x :: chosen).length - 0 - 1, 0, event x⟩ (by simp [row])
        simp only [List.length_cons] at holdest ⊢
        omega
  · intro h m hm
    simp only [row, List.mem_map] at hm
    obtain ⟨⟨x, rank⟩, hx, rfl⟩ := hm
    have hrank := (List.mem_zipIdx hx).2.1
    dsimp only
    omega

theorem incidentMessages_relative_lt_iff {incident : List (List ℕ)} {opposite mapping : ℕ → ℕ}
    {limit : ℕ} :
    (∀ m ∈ (incidentMessages incident opposite mapping limit).messages, m.relative < rows) ↔
      ∀ ids ∈ incident, kept limit ids.length ≤ rows := by
  constructor
  · intro h ids hids
    obtain ⟨k, hk⟩ := List.mem_iff_getElem?.mp hids
    rw [← length_keepLast_eq_kept, ← row_relative_lt_iff (fun e => mapping (opposite e)) some k]
    exact fun m hm => h m (List.mem_flatMap.mpr
      ⟨(ids, k), List.mem_zipIdx_iff_getElem?.mpr (by simpa using hk), hm⟩)
  · intro h m hm
    obtain ⟨⟨ids, dest⟩, hids, hm⟩ := List.mem_flatMap.mp hm
    have hkept := h ids (List.fst_mem_of_mem_zipIdx hids)
    rw [← length_keepLast_eq_kept] at hkept
    exact (row_relative_lt_iff _ _ _).mpr hkept m hm

theorem groupMessages_relative_lt_iff {edges : List Edge} {dst src : Edge → ℕ} {size limit : ℕ}
    (hlt : ∀ e ∈ edges, dst e < size) :
    (∀ m ∈ (groupMessages edges dst src size limit).messages, m.relative < rows) ↔
      ∀ d < size, kept limit (group dst edges d).length ≤ rows := by
  rw [groupMessages_eq hlt]
  simp only [List.mem_flatMap, List.mem_range, ← length_keepLast_eq_kept]
  constructor
  · intro h d hd
    exact (row_relative_lt_iff _ _ _).mp fun m hm => h m ⟨d, hd, hm⟩
  · intro h m hcase
    obtain ⟨d, hd, hm⟩ := hcase
    exact (row_relative_lt_iff _ _ _).mpr (h d hd) m hm

end Relative

/-! ## The capacity -/

theorem le_foldl_max (l : List ℕ) (start : ℕ) :
    start ≤ l.foldl max start ∧ ∀ n ∈ l, n ≤ l.foldl max start := by
  induction l generalizing start with
  | nil => exact ⟨le_refl _, fun n hn => absurd hn List.not_mem_nil⟩
  | cons a l ih =>
      obtain ⟨hstart, hall⟩ := ih (max start a)
      rw [List.foldl_cons]
      refine ⟨le_trans (le_max_left _ _) hstart, fun n hn => ?_⟩
      rcases List.mem_cons.mp hn with rfl | hn
      · exact le_trans (le_max_right _ _) hstart
      · exact hall n hn

section Capacity

variable {data : InteractionData}

/-- The capacity admits the kept degree of a user. -/
theorem kept_byUser_le (data : InteractionData) (cfg : Config) {u : ℕ} (hu : u < data.numUsers) :
    kept cfg.recentItems (data.byUser u).length ≤ data.positionCapacity cfg := by
  have hle := (le_foldl_max ((List.range data.numUsers).map fun u => (data.byUser u).length) 0).2
    _ (List.mem_map.mpr ⟨u, List.mem_range.mpr hu, rfl⟩)
  have hpos := cfg.recentItems_pos
  rw [kept, if_neg (by omega)]
  unfold InteractionData.positionCapacity
  dsimp only
  omega

/-- The capacity admits the kept degree of an item. -/
theorem kept_byItem_le (data : InteractionData) (cfg : Config) {i : ℕ} (hi : i < data.numItems) :
    kept cfg.itemNeighborLimit (data.byItem i).length ≤ data.positionCapacity cfg := by
  have hle := (le_foldl_max ((List.range data.numItems).map fun i => (data.byItem i).length) 0).2
    _ (List.mem_map.mpr ⟨i, List.mem_range.mpr hi, rfl⟩)
  unfold kept InteractionData.positionCapacity
  dsimp only
  split <;> omega

/-- The induced edges of a user are some of the user's events. -/
theorem length_inducedEdges_user_le (g : TemporalGraph) (cutoff : ℕ) (users items : Finset ℕ)
    (u : ℕ) : ((inducedEdges g cutoff users items).filter
      fun e => decide (g.data.user e = u)).length ≤ (g.data.byUser u).length := by
  rw [inducedEdges, List.filter_comm]
  exact List.length_filter_le _ _

theorem length_inducedEdges_item_le (g : TemporalGraph) (cutoff : ℕ) (users items : Finset ℕ)
    (i : ℕ) : ((inducedEdges g cutoff users items).filter
      fun e => decide (g.data.item e = i)).length ≤ (g.data.byItem i).length := by
  rw [inducedEdges, List.filter_comm]
  exact List.length_filter_le _ _

/-- **The encoder for known users stays in range.**  Every relative position of a
sample of the training-time sampler has a row. -/
theorem sample_relative_lt {g : TemporalGraph} {cfg : Config} {user cutoff : ℕ}
    {s : GraphSample} (h : sample g cfg user cutoff = .ok s) :
    InRange (g.data.positionCapacity cfg) s := by
  rw [InRange, sample_spec h, List.forall_mem_append, inducedSample]
  dsimp only
  rw [incidentMessages_relative_lt_iff, incidentMessages_relative_lt_iff]
  constructor
  · intro ids hids
    obtain ⟨u, hu, rfl⟩ := List.mem_map.mp hids
    exact le_trans (kept_mono (length_inducedEdges_user_le g cutoff _ _ u))
      (kept_byUser_le g.data cfg (mem_ascending.mp hu).1)
  · intro ids hids
    obtain ⟨i, hi, rfl⟩ := List.mem_map.mp hids
    exact le_trans (kept_mono (length_inducedEdges_item_le g cutoff _ _ i))
      (kept_byItem_le g.data cfg (mem_ascending.mp hi).1)

end Capacity

/-! ## Which histories fit -/

/-- The edges into an item within reach: its events by the users within reach and
its occurrences in the history. -/
def edgesInto (art : Artifact) (history : List HistoryEvent) (rootUser : Option ℕ) (i : ℕ) : ℕ :=
  ((art.data.byItem i).countP fun e =>
      decide (art.data.user e ∈ (virtualReached art history rootUser).1)) +
    history.countP fun event => decide (event.item = i)

/-- The capacity admits the kept length of the history, and the kept edges into
each item of the history within reach. -/
structure FitsCapacity (art : Artifact) (history : List HistoryEvent) (rootUser : Option ℕ) :
    Prop where
  root : min art.cfg.recentItems history.length ≤ art.data.positionCapacity art.cfg
  items : ∀ event ∈ history, event.item ∈ (virtualReached art history rootUser).2 →
    kept art.cfg.itemNeighborLimit (edgesInto art history rootUser event.item) ≤
      art.data.positionCapacity art.cfg

section Fits

variable {art : Artifact} {history : List HistoryEvent} {rootUser : Option ℕ}
  {users items : Finset ℕ}

theorem group_append {dst : Edge → ℕ} (l l' : List Edge) (d : ℕ) :
    group dst (l ++ l') d = group dst l d ++ group dst l' d := List.filter_append ..

/-- Sorting the table keeps the size of its groups. -/
theorem length_group_insertionSort (dst : Edge → ℕ) (l : List Edge) (d : ℕ) :
    (group dst (l.insertionSort Edge.le) d).length = (group dst l d).length :=
  ((List.perm_insertionSort Edge.le l).filter _).length_eq

/-- The rows of `l` numbered, counted by a property of the entries. -/
theorem length_filter_zipIdx {α β : Type} (l : List α) (f : α × ℕ → β) (p : β → Bool)
    (q : α → Bool) (h : ∀ x ∈ l, ∀ k, p (f (x, k)) = q x) :
    ((l.zipIdx.map f).filter p).length = l.countP q := by
  have hcount : l.zipIdx.countP (p ∘ f) = l.zipIdx.countP (q ∘ Prod.fst) := by
    refine List.countP_congr fun x hx => ?_
    rw [Function.comp_apply, Function.comp_apply, h x.1 (List.fst_mem_of_mem_zipIdx hx) x.2]
  rw [← List.countP_eq_length_filter, List.countP_map, hcount, ← List.countP_map,
    List.zipIdx_map_fst]

/-- The real edges into a sampled user are at most its events; the others are the
root's. -/
theorem length_group_user_le {d : ℕ} (hd : d < (ascending art.data.numUsers users).length) :
    (group Edge.user (edgeTable art history users items) d).length ≤
      (art.data.byUser (ascending art.data.numUsers users)[d]).length := by
  have hroot : (group Edge.user (rootEdges art.data (ascending art.data.numUsers users).length
      (ascending art.data.numItems items)
      (history.filter fun event => decide (event.item ∈ items))) d).length = 0 := by
    rw [group, rootEdges, length_filter_zipIdx _ _ _ fun _ => false]
    · simp
    · intro x _ k
      exact decide_eq_false (by dsimp only; omega)
  have hreal : (collected art.graph art.cutoff users items).filter (fun e =>
      decide ((ascending art.data.numUsers users).idxOf (art.data.user e) = d)) =
      (collected art.graph art.cutoff users items).filter fun e =>
        decide (art.data.user e = (ascending art.data.numUsers users)[d]) := by
    refine List.filter_congr fun e _ => ?_
    rw [decide_eq_decide]
    exact idxOf_eq_iff (ascending_nodup _ _) hd
  rw [edgeTable, group_append, List.length_append, hroot, Nat.add_zero, group, realEdges,
    List.filter_map, List.length_map]
  exact (congrArg List.length hreal).le.trans
    ((collected_perm.filter _).length_eq.le.trans
      (length_inducedEdges_user_le art.graph art.cutoff users items _))

/-- The edges into the root are its events. -/
theorem length_group_root :
    (group Edge.user (edgeTable art history users items)
        (ascending art.data.numUsers users).length).length =
      (history.filter fun event => decide (event.item ∈ items)).length := by
  have hreal : (group Edge.user (realEdges art.data (ascending art.data.numUsers users)
      (ascending art.data.numItems items) (collected art.graph art.cutoff users items))
      (ascending art.data.numUsers users).length) = [] := by
    rw [group, List.filter_eq_nil_iff]
    intro x hx
    obtain ⟨e, he, rfl⟩ := List.mem_map.mp hx
    have hlt : (ascending art.data.numUsers users).idxOf (art.data.user e) <
        (ascending art.data.numUsers users).length :=
      List.idxOf_lt_length_of_mem (ends_of_mem_inducedEdges (mem_collected.mp he)).1
    simp only [decide_eq_true_eq]
    omega
  rw [edgeTable, group_append, hreal, List.nil_append, group, rootEdges, length_filter_zipIdx _ _ _
    fun _ => true]
  · simp
  · intro x _ k
    exact decide_eq_true rfl

/-- The edges into a sampled item are its events by sampled users and the root's
events on it. -/
theorem length_group_item {d : ℕ} (hd : d < (ascending art.data.numItems items).length) :
    (group Edge.item (edgeTable art history users items) d).length =
      ((art.data.byItem (ascending art.data.numItems items)[d]).countP fun e =>
        decide (art.data.user e ∈ users)) +
      history.countP fun event =>
        decide (event.item = (ascending art.data.numItems items)[d]) := by
  have hitem : (ascending art.data.numItems items)[d] ∈ items :=
    (mem_ascending.mp (List.getElem_mem hd)).2
  generalize hi : (ascending art.data.numItems items)[d] = i at hitem ⊢
  have hposition : ∀ j, decide ((ascending art.data.numItems items).idxOf j = d) =
      decide (j = i) := by
    intro j
    rw [decide_eq_decide, idxOf_eq_iff (ascending_nodup _ _) hd, hi]
  have hreal : ((collected art.graph art.cutoff users items).filter fun e =>
      decide (art.data.item e = i)).length =
      (art.data.byItem i).countP fun e => decide (art.data.user e ∈ users) := by
    rw [(collected_perm.filter _).length_eq, List.countP_eq_length_filter,
      ← inducedEdges_filter_item hitem]
  have hroot : (history.filter fun event => decide (event.item ∈ items)).countP
      (fun event => decide (event.item = i)) =
      history.countP fun event => decide (event.item = i) := by
    rw [List.countP_filter]
    refine List.countP_congr fun x _ => ?_
    by_cases hx : x.item = i <;> simp [hx, hitem]
  rw [edgeTable, group_append, List.length_append]
  congr 1
  · rw [group, realEdges, List.filter_map, List.length_map, ← hreal]
    exact congrArg List.length (List.filter_congr fun e _ => hposition _)
  · rw [group, rootEdges, length_filter_zipIdx _ _ _ fun event : HistoryEvent =>
      decide (event.item = i), hroot]
    exact fun x _ k => hposition x.item

/-- The items of the newest events are within reach. -/
theorem virtualItems_subset :
    virtualItems art.cfg history ⊆ (virtualReached art history rootUser).2 :=
  (Frontier.subset_hop_iterate _ _ _ _ _).2

/-- Of the root's events the limit keeps as many as of the whole history: the
newest are within reach. -/
theorem kept_rootEvents (art : Artifact) (history : List HistoryEvent) (rootUser : Option ℕ) :
    kept art.cfg.recentItems
      (history.filter fun event =>
        decide (event.item ∈ (virtualReached art history rootUser).2)).length =
    min art.cfg.recentItems history.length := by
  have hpos := art.cfg.recentItems_pos
  have hnewest : (history.rtake art.cfg.recentItems).filter (fun event =>
      decide (event.item ∈ (virtualReached art history rootUser).2)) =
      history.rtake art.cfg.recentItems := by
    refine List.filter_eq_self.mpr fun event hevent => decide_eq_true ?_
    exact virtualItems_subset (List.mem_toFinset.mpr (List.mem_map.mpr ⟨event, hevent, rfl⟩))
  have hge : (history.rtake art.cfg.recentItems).length ≤ (history.filter fun event =>
      decide (event.item ∈ (virtualReached art history rootUser).2)).length := by
    rw [← hnewest]
    exact ((List.drop_sublist _ history).filter _).length_le
  have hle := List.length_filter_le (fun event : HistoryEvent =>
    decide (event.item ∈ (virtualReached art history rootUser).2)) history
  rw [List.rtake, List.length_drop] at hge
  rw [kept, if_neg (by omega)]
  omega

/-- The table's destinations are local users and items. -/
theorem edgeTable_lt (hitems : ∀ event ∈ history, event.item < art.data.numItems) {x : Edge}
    (hx : x ∈ (edgeTable art history users items).insertionSort Edge.le) :
    x.user < (ascending art.data.numUsers users).length + 1 ∧
      x.item < (ascending art.data.numItems items).length := by
  rcases List.mem_append.mp ((List.mem_insertionSort _).mp hx) with hx | hx
  · obtain ⟨e, he, rfl⟩ := List.mem_map.mp hx
    obtain ⟨huser, hitem⟩ := ends_of_mem_inducedEdges (mem_collected.mp he)
    exact ⟨Nat.lt_succ_of_lt (List.idxOf_lt_length_of_mem huser),
      List.idxOf_lt_length_of_mem hitem⟩
  · obtain ⟨⟨event, k⟩, hmem, rfl⟩ := List.mem_map.mp hx
    obtain ⟨hevent, hitem⟩ := List.mem_filter.mp (List.fst_mem_of_mem_zipIdx hmem)
    exact ⟨Nat.lt_succ_self _, List.idxOf_lt_length_of_mem
      (mem_ascending.mpr ⟨hitems event hevent, by simpa using hitem⟩)⟩

/-- **Which samples are in range.**  The virtual sample's relative positions all
have a row exactly when the history fits. -/
theorem sampleVirtual_relative_lt_iff {s : GraphSample} {r : ℕ}
    (hitems : ∀ event ∈ history, event.item < art.data.numItems)
    (h : sampleVirtual art history rootUser = .ok (s, r)) :
    InRange (art.data.positionCapacity art.cfg) s ↔ FitsCapacity art history rootUser := by
  have hspec := sampleVirtual_spec h
  have hkept := kept_rootEvents art history rootUser
  have hinto : ∀ i, edgesInto art history rootUser i =
      ((art.data.byItem i).countP fun e =>
        decide (art.data.user e ∈ (virtualReached art history rootUser).1)) +
      history.countP fun event => decide (event.item = i) := fun _ => rfl
  have hfits : FitsCapacity art history rootUser ↔ _ ∧ _ :=
    ⟨fun h => ⟨h.root, h.items⟩, fun h => ⟨h.1, h.2⟩⟩
  rw [hfits]
  generalize virtualReached art history rootUser = nodes at hspec hkept hinto ⊢
  obtain ⟨users, items⟩ := nodes
  rw [induceVirtual_eq] at hspec
  split at hspec
  · cases hspec
  · cases hspec
    dsimp only at hkept hinto ⊢
    simp only [InRange, List.forall_mem_append, virtualSample]
    rw [groupMessages_relative_lt_iff fun _ hx => (edgeTable_lt hitems hx).1,
      groupMessages_relative_lt_iff fun _ hx => (edgeTable_lt hitems hx).2]
    simp only [length_group_insertionSort]
    refine and_congr ?_ ?_
    · constructor
      · intro hall
        have hroot := hall _ (Nat.lt_succ_self _)
        rwa [length_group_root, hkept] at hroot
      · intro hroot d hd
        rcases Nat.lt_succ_iff_lt_or_eq.mp hd with hlt | rfl
        · -- A sampled user keeps at most its own events.
          exact le_trans (kept_mono (length_group_user_le hlt))
            (kept_byUser_le art.data art.cfg (mem_ascending.mp (List.getElem_mem hlt)).1)
        · rwa [length_group_root, hkept]
    · constructor
      · intro hall event hevent hmem
        have hmem : event.item ∈ ascending art.data.numItems items :=
          mem_ascending.mpr ⟨hitems event hevent, hmem⟩
        have hlt := List.idxOf_lt_length_of_mem hmem
        have hinto' := hall _ hlt
        rw [length_group_item hlt, List.getElem_idxOf] at hinto'
        rwa [hinto]
      · intro hall d hd
        rw [length_group_item hd]
        obtain ⟨hlt, hmem⟩ := mem_ascending.mp (List.getElem_mem hd)
        generalize (ascending art.data.numItems items)[d] = i at hlt hmem ⊢
        by_cases hevent : ∃ event ∈ history, event.item = i
        · obtain ⟨event, hevent, rfl⟩ := hevent
          have hfit := hall event hevent hmem
          rwa [hinto] at hfit
        · -- An item that is not in the history has at most its own events.
          have hnone : history.countP (fun event => decide (event.item = i)) = 0 := by
            rw [List.countP_eq_zero]
            simpa using hevent
          rw [hnone, Nat.add_zero]
          exact le_trans (kept_mono List.countP_le_length) (kept_byItem_le art.data art.cfg hlt)

/-- The encoder for known users never looks up a row that is not there. -/
theorem encodeKnown_ne_indexOutOfRange (hdat : art.cfg.longTerm = .dat) (user : ℕ) :
    encodeKnown art user ≠ .error .indexOutOfRange := by
  rw [encodeKnown]
  cases hsample : sample art.graph art.cfg user art.cutoff with
  | error e => simp
  | ok s =>
      have hin := sample_relative_lt hsample
      dsimp only [Artifact.graph] at hin ⊢
      rw [(encodePositions_eq_ok hdat).mpr hin]
      simp

/-- **When encoding a history stays in range.**  Of a history of known items from
which a sample is built, every relative position is below the capacity exactly
when the history fits; in the `dat` mode encoding succeeds exactly then. -/
theorem encodeHistory_inRange_iff {s : GraphSample} {r : ℕ} (hnonempty : history ≠ [])
    (hitems : ∀ event ∈ history, event.item < art.data.numItems)
    (h : sampleVirtual art history rootUser = .ok (s, r)) :
    (InRange (art.data.positionCapacity art.cfg) s ↔ FitsCapacity art history rootUser) ∧
      (art.cfg.longTerm = .dat →
        (encodeHistory art history rootUser = .ok s ↔ FitsCapacity art history rootUser)) := by
  have hiff := sampleVirtual_relative_lt_iff hitems h
  refine ⟨hiff, fun hdat => ?_⟩
  rw [encodeHistory, if_neg hnonempty, h, ← hiff]
  exact encodePositions_eq_ok hdat

end Fits

/-- A session of two events fits. -/
theorem encodeHistory_inRange_small : ∃ s r,
    sampleVirtual smallArtifact [⟨0, 20⟩, ⟨1, 21⟩] none = .ok (s, r) ∧ InRange 4 s ∧
      encodeHistory smallArtifact [⟨0, 20⟩, ⟨1, 21⟩] none = .ok s := by
  have hknown : ∀ event ∈ ([⟨0, 20⟩, ⟨1, 21⟩] : List HistoryEvent),
      event.item < smallArtifact.data.numItems := by decide
  obtain ⟨⟨s, r⟩, h⟩ := sampleVirtual_isOk none rfl rfl hknown
  have hfits : FitsCapacity smallArtifact [⟨0, 20⟩, ⟨1, 21⟩] none := by
    refine ⟨by decide, fun event _ _ => ?_⟩
    exact le_trans (min_le_left 1 _) (by decide)
  obtain ⟨hrange, hencode⟩ := encodeHistory_inRange_iff (by decide) hknown h
  exact ⟨s, r, h, hrange.mpr hfits, (hencode rfl).mpr hfits⟩

/-- A session of five events, one more than any user of the small table has. -/
def longSession : List HistoryEvent := [⟨0, 20⟩, ⟨1, 21⟩, ⟨2, 22⟩, ⟨0, 23⟩, ⟨1, 24⟩]

theorem longSession_known :
    ∀ event ∈ longSession, event.item < smallArtifact.data.numItems := by decide

/-- The root of that session has five messages, the embeddings have four rows. -/
theorem not_fits_longSession : ¬ FitsCapacity smallArtifact longSession none := by
  intro h
  have hroot := h.root
  revert hroot
  decide

/-- That session is encoded to an error; so samples out of range are built from
histories of known items. -/
theorem not_encodeHistory_inRange :
    encodeHistory smallArtifact longSession none = .error .indexOutOfRange ∧
      ¬ ∀ (art : Artifact) (history : List HistoryEvent) (rootUser : Option ℕ),
        history ≠ [] → (∀ event ∈ history, event.item < art.data.numItems) →
        ∀ s r, sampleVirtual art history rootUser = .ok (s, r) →
          InRange (art.data.positionCapacity art.cfg) s := by
  obtain ⟨⟨s, r⟩, h⟩ := sampleVirtual_isOk none rfl rfl longSession_known
  have hout : ¬ InRange (smallArtifact.data.positionCapacity smallArtifact.cfg) s := fun hin =>
    not_fits_longSession ((sampleVirtual_relative_lt_iff longSession_known h).mp hin)
  constructor
  · rw [encodeHistory, if_neg (by decide), h]
    have hdat : smallArtifact.cfg.longTerm = .dat := rfl
    rcases encodePositions_spec hdat (smallArtifact.data.positionCapacity smallArtifact.cfg) s with
      ⟨hin, _⟩ | ⟨_, heq⟩
    · exact absurd hin hout
    · exact heq
  · intro hall
    exact hout (hall smallArtifact longSession none (by decide) longSession_known s r h)

end Dgsr
