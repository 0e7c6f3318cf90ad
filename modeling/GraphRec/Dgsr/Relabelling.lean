import GraphRec.Dgsr.Batching
import Mathlib.Data.Fintype.EquivFin

/-!
# The network does not see local labels

`GraphSample.relabel` moves the local users and items of a sample by permutations, all index
tensors consistently, and puts the edges in another order that keeps the messages of each
destination in theirs.  `encode_relabel` says that the row of the root stays the same, also when
the root's first state is replaced.
-/

namespace Dgsr

open Grouping

section Permute

variable {n : ℕ} {α : Type} [Inhabited α]

/-- A local index, moved. -/
def moveIndex (σ : Equiv.Perm (Fin n)) (v : ℕ) : ℕ := if h : v < n then σ ⟨v, h⟩ else v

/-- A tensor over local indices, moved: the entry of `v` goes to the place of its image. -/
def permute (σ : Equiv.Perm (Fin n)) (l : List α) : List α :=
  List.ofFn fun i => l.getD (σ.symm i) default

@[simp] theorem length_permute (σ : Equiv.Perm (Fin n)) (l : List α) :
    (permute σ l).length = n := List.length_ofFn

omit [Inhabited α] in
theorem moveIndex_lt (σ : Equiv.Perm (Fin n)) {v : ℕ} (hv : v < n) : moveIndex σ v < n := by
  rw [moveIndex, dif_pos hv]
  exact (σ ⟨v, hv⟩).isLt

omit [Inhabited α] in
theorem moveIndex_inj (σ : Equiv.Perm (Fin n)) {v w : ℕ} (hv : v < n) (hw : w < n)
    (h : moveIndex σ v = moveIndex σ w) : v = w := by
  rw [moveIndex, moveIndex, dif_pos hv, dif_pos hw] at h
  exact Fin.mk.inj (σ.injective (Fin.ext h))

theorem getElem?_permute (σ : Equiv.Perm (Fin n)) {l : List α} (hl : l.length = n) {v : ℕ}
    (hv : v < n) : (permute σ l)[moveIndex σ v]? = l[v]? := by
  have hself : σ.symm ⟨moveIndex σ v, moveIndex_lt σ hv⟩ = ⟨v, hv⟩ := by
    rw [Equiv.symm_apply_eq]
    exact Fin.ext (dif_pos hv)
  rw [permute, List.getElem?_ofFn, dif_pos (moveIndex_lt σ hv), hself, List.getD_eq_getElem?_getD,
    List.getElem?_eq_getElem (hl.symm ▸ hv), Option.getD_some]

end Permute

/-! ## Relabelling a sample -/

/-- A message with its ends moved. -/
def Message.move (σ τ : ℕ → ℕ) (m : Message) : Message := { m with dst := σ m.dst, src := τ m.src }

/-- A reordering that keeps the order of each destination's messages. -/
def KeepsOrder (ms ms' : List Message) : Prop :=
  ∀ v, group Message.dst ms' v = group Message.dst ms v

/-- A sample with its local users and items moved and its edges in the orders given. -/
def GraphSample.relabel (s : GraphSample) (σ : Equiv.Perm (Fin s.users.length))
    (τ : Equiv.Perm (Fin s.items.length)) (toUsers toItems : List Message) : GraphSample where
  users := permute σ s.users
  items := permute τ s.items
  toUsers :=
    { messages := toUsers
      counts := permute σ s.toUsers.counts
      lastSrc := (permute σ s.toUsers.lastSrc).map fun src => src.map (moveIndex τ) }
  toItems :=
    { messages := toItems
      counts := permute τ s.toItems.counts
      lastSrc := (permute τ s.toItems.lastSrc).map fun src => src.map (moveIndex σ) }
  root := moveIndex σ s.root
  cutoff := s.cutoff
  inducedEvents := s.inducedEvents

section Relabel

variable {n k : ℕ}

/-- Moving the ends of messages keeps the messages of a destination together. -/
theorem group_move (σ : Equiv.Perm (Fin n)) (τ : ℕ → ℕ) {ms : List Message}
    (hms : ∀ m ∈ ms, m.dst < n) {v : ℕ} (hv : v < n) :
    group Message.dst (ms.map (Message.move (moveIndex σ) τ)) (moveIndex σ v) =
      (group Message.dst ms v).map (Message.move (moveIndex σ) τ) := by
  rw [group, group, List.filter_map]
  congr 1
  refine List.filter_congr fun m hm => ?_
  rw [Function.comp_apply, decide_eq_decide]
  exact ⟨moveIndex_inj σ (hms m hm) hv, fun h => congrArg (moveIndex σ) h⟩

/-- A relabelling is a map of the messages of one side. -/
theorem edgesMap_relabel {e : MessageEdges} (he : e.InBounds n k) (σ : Equiv.Perm (Fin n))
    (τ : Equiv.Perm (Fin k)) {ms : List Message}
    (hms : KeepsOrder (e.messages.map (Message.move (moveIndex σ) (moveIndex τ))) ms) :
    EdgesMap (moveIndex σ) (moveIndex τ) n k e
      { messages := ms
        counts := permute σ e.counts
        lastSrc := (permute σ e.lastSrc).map fun src => src.map (moveIndex τ) } where
  incoming v hv := by
    rw [hms, group_move σ _ he.dst_lt hv, List.map_map]
    rfl
  counts v hv := getElem?_permute σ he.length_counts hv
  lastSrc v hv := by
    rw [List.getElem?_map, getElem?_permute σ he.length_lastSrc hv]
  src_lt := he.src_lt
  last_lt := he.last_lt

variable {s : GraphSample} {σ : Equiv.Perm (Fin s.users.length)}
  {τ : Equiv.Perm (Fin s.items.length)} {toUsers toItems : List Message}

/-- A relabelling is a map of the graph. -/
theorem graphMap_relabel (hs : s.InBounds) (x : Example)
    (hUsers : KeepsOrder (s.toUsers.messages.map (Message.move (moveIndex σ) (moveIndex τ)))
      toUsers)
    (hItems : KeepsOrder (s.toItems.messages.map (Message.move (moveIndex τ) (moveIndex σ)))
      toItems) :
    GraphMap (moveIndex σ) (moveIndex τ) (alone (s, x))
      (alone (s.relabel σ τ toUsers toItems, x)) where
  users _ hv := getElem?_permute σ rfl hv
  items _ hv := getElem?_permute τ rfl hv
  toUsers := edgesMap_relabel hs.toUsers σ τ hUsers
  toItems := edgesMap_relabel hs.toItems τ σ hItems

/-- Writing one row respects a permutation. -/
theorem agreeOn_set {α : Type} {rows rows' : List α} {n : ℕ} (σ : Equiv.Perm (Fin n))
    (h : AgreeOn (moveIndex σ) rows rows') (hrows : rows.length = n) {r : ℕ} (hr : r < n) (a : α) :
    AgreeOn (moveIndex σ) (rows.set r a) (rows'.set (moveIndex σ r) a) := by
  intro v hv
  rw [List.length_set] at hv
  by_cases heq : r = v
  · subst heq
    rw [List.getElem?_set_self (h.lt hv), List.getElem?_set_self hv]
  · have hne : moveIndex σ r ≠ moveIndex σ v := fun hmove =>
      heq (moveIndex_inj σ hr (hrows ▸ hv) hmove)
    rw [List.getElem?_set_ne hne, List.getElem?_set_ne heq, h v hv]

variable {K : Type} [Field K] [LinearOrder K] {d : ℕ} (net : Network K d)

/-- **Labels do not matter.**  Of a sampled graph, relabelled by any permutations and with its
edges in any order that keeps each destination's messages, the network computes the same row for
the root, with its own first state or with a given one. -/
theorem encode_relabel (hs : Sampled s) (x : Example)
    (hUsers : KeepsOrder (s.toUsers.messages.map (Message.move (moveIndex σ) (moveIndex τ)))
      toUsers)
    (hItems : KeepsOrder (s.toItems.messages.map (Message.move (moveIndex τ) (moveIndex σ)))
      toItems) :
    ∃ batch batch', collateGraphs [(s, x)] = .ok (batch, [x]) ∧
      collateGraphs [(s.relabel σ τ toUsers toItems, x)] = .ok (batch', [x]) ∧
      net.encode batch' = net.encode batch ∧
      ∀ rootVector, net.encodeWithRoot batch' rootVector = net.encodeWithRoot batch rootVector := by
  have hmap := graphMap_relabel hs.inBounds x hUsers hItems
  have hroot : s.root < (alone (s, x)).users.length := hs.inBounds.root_lt
  -- One root, so one row.
  have hrow : ∀ {users users' items items' : List (Vec K d)},
      AgreeOn (moveIndex σ) users users' → AgreeOn (moveIndex τ) items items' →
      users.length = s.users.length → items.length = s.items.length →
      net.encodeFrom users' items' (alone (s.relabel σ τ toUsers toItems, x)) =
        net.encodeFrom users items (alone (s, x)) := by
    intro users users' items items' husers hitems hnu hni
    have hfirst : (net.encodeFrom users' items'
        (alone (s.relabel σ τ toUsers toItems, x)))[0]? =
          (net.encodeFrom users items (alone (s, x)))[0]? :=
      encodeFrom_map net hmap rfl rfl hroot husers hitems hnu hni
    refine List.ext_getElem? fun i => ?_
    cases i with
    | zero => exact hfirst
    | succ i => simp [Network.encodeFrom, Network.readRoots, alone]
  refine ⟨_, _, collateGraphs_single _, collateGraphs_single _, ?_, fun rootVector => ?_⟩
  · exact hrow (hmap.users.map _) (hmap.items.map _) (List.length_map _) (List.length_map _)
  · cases rootVector with
    | none =>
        exact hrow (hmap.users.map _) (hmap.items.map _) (List.length_map _) (List.length_map _)
    | some vector =>
        refine hrow (agreeOn_set σ (hmap.users.map _) (List.length_map _) hroot vector)
          (hmap.items.map _) ?_ (List.length_map _)
        exact List.length_set.trans (List.length_map _)

end Relabel

/-- Two users and three items of the small table, counted backwards. -/
theorem encode_relabel_reversed : ∃ s, sample smallArtifact.graph {} 0 5 = .ok s ∧
    s.users.length = 2 ∧ s.items.length = 3 ∧ ∃ batch batch' : GraphBatch,
    collateGraphs [(s, ⟨0, 5, 0, 6⟩)] = .ok (batch, [⟨0, 5, 0, 6⟩]) ∧ batch.roots = [0] ∧
    batch'.roots = [1] ∧ plainNetwork.encode batch' = plainNetwork.encode batch := by
  have hsizes : (match sample smallArtifact.graph {} 0 5 with
      | .ok s => (s.users.length, s.items.length, s.root)
      | .error _ => (0, 0, 0)) = (2, 3, 0) := by decide
  cases hs : sample smallArtifact.graph {} 0 5 with
  | error e => rw [hs] at hsizes; cases hsizes
  | ok s =>
      rw [hs] at hsizes
      have husers : s.users.length = 2 := congrArg Prod.fst hsizes
      have hitems : s.items.length = 3 := congrArg (fun p => p.2.1) hsizes
      have hroot : s.root = 0 := congrArg (fun p => p.2.2) hsizes
      have hkeeps : ∀ ms, KeepsOrder ms ms := fun ms v => rfl
      obtain ⟨batch, batch', hbatch, hbatch', hrow, -⟩ :=
        encode_relabel plainNetwork (.training hs) ⟨0, 5, 0, 6⟩
          (hkeeps (s.toUsers.messages.map (Message.move (moveIndex (@Fin.revPerm s.users.length))
            (moveIndex (@Fin.revPerm s.items.length)))))
          (hkeeps (s.toItems.messages.map _))
      refine ⟨s, rfl, husers, hitems, batch, batch', hbatch, ?_, ?_, hrow⟩
      · rw [collateGraphs_single] at hbatch
        cases hbatch
        simp [alone, hroot]
      · rw [collateGraphs_single] at hbatch'
        cases hbatch'
        simp [alone, GraphSample.relabel, moveIndex, hroot, husers]

end Dgsr
