import GraphRec.Dgsr.GraphMaps
import Mathlib.Analysis.Complex.Trigonometric

/-!
# Batches

`collateGraphs` puts samples side by side: the local indices of each are shifted by the sizes of
the samples before it.

* `group_catFrom` — the messages of a node of the batch are those of its sample, shifted;
* `collateGraphs_disjoint` — the batch is the disjoint union, and the network's row for a root is
  the row that it has for the sample alone.
-/

namespace Dgsr

open Grouping

/-! ## Collating -/

/-- The indices of a message, shifted. -/
def Message.shift (src dst : ℕ) (m : Message) : Message :=
  { m with src := m.src + src, dst := m.dst + dst }

/-- The messages of a sample as `cat_messages` takes them; an absent marker stays. -/
def MessageEdges.shift (src dst : ℕ) (e : MessageEdges) : MessageEdges where
  messages := e.messages.map (Message.shift src dst)
  counts := e.counts
  lastSrc := e.lastSrc.map fun s => s.map (· + src)

/-- `user_offsets` and `item_offsets`: the sums of the sizes so far. -/
def offsets : ℕ → List ℕ → List ℕ
  | _, [] => []
  | n, size :: sizes => n :: offsets (n + size) sizes

/-- `cat_messages`. -/
def catMessages (edges : List MessageEdges) (srcOffsets dstOffsets : List ℕ) : MessageEdges :=
  let shifted := List.zipWith (fun e offset => e.shift offset.1 offset.2) edges
    (srcOffsets.zip dstOffsets)
  { messages := shifted.flatMap MessageEdges.messages
    counts := shifted.flatMap MessageEdges.counts
    lastSrc := shifted.flatMap MessageEdges.lastSrc }

/-- What `collate_graphs` raises. -/
inductive CollateError
  | emptyList
  deriving DecidableEq, Repr

/-- `collate_graphs`. -/
def collateGraphs (rows : List (GraphSample × Example)) :
    Except CollateError (GraphBatch × List Example) :=
  if rows = [] then .error .emptyList
  else
    let userOffsets := offsets 0 (rows.map fun row => row.1.users.length)
    let itemOffsets := offsets 0 (rows.map fun row => row.1.items.length)
    .ok ({
      users := rows.flatMap fun row => row.1.users
      items := rows.flatMap fun row => row.1.items
      toUsers := catMessages (rows.map fun row => row.1.toUsers) itemOffsets userOffsets
      toItems := catMessages (rows.map fun row => row.1.toItems) userOffsets itemOffsets
      roots := List.zipWith (fun row offset => row.1.root + offset) rows userOffsets
      targets := rows.map fun row => row.2.target }, rows.map Prod.snd)

/-! ## One side of a batch -/

/-- Messages with the numbers of their destinations and sources. -/
abbrev Part : Type := MessageEdges × ℕ × ℕ

/-- The parts side by side, the first one from `n` destinations and `k` sources on. -/
def catFrom : ℕ → ℕ → List Part → MessageEdges
  | _, _, [] => ⟨[], [], []⟩
  | n, k, (e, dests, srcs) :: parts =>
      let first := e.shift k n
      let rest := catFrom (n + dests) (k + srcs) parts
      ⟨first.messages ++ rest.messages, first.counts ++ rest.counts,
        first.lastSrc ++ rest.lastSrc⟩

/-- The numbers of destinations and of sources of some parts. -/
def destsOf (parts : List Part) : ℕ := (parts.map fun part => part.2.1).sum
def srcsOf (parts : List Part) : ℕ := (parts.map fun part => part.2.2).sum

section CatFrom

variable {parts before after : List Part} {e : MessageEdges} {dests srcs : ℕ}

theorem catMessages_eq (n k : ℕ) (parts : List Part) :
    catMessages (parts.map Prod.fst) (offsets k (parts.map fun part => part.2.2))
      (offsets n (parts.map fun part => part.2.1)) = catFrom n k parts := by
  induction parts generalizing n k with
  | nil => rfl
  | cons part parts ih =>
      obtain ⟨e, dests, srcs⟩ := part
      rw [catFrom, ← ih]
      simp [catMessages, offsets]

theorem destsOf_cons (part : Part) (parts : List Part) :
    destsOf (part :: parts) = part.2.1 + destsOf parts := rfl

theorem srcsOf_cons (part : Part) (parts : List Part) :
    srcsOf (part :: parts) = part.2.2 + srcsOf parts := rfl

/-- The messages of later parts have later destinations. -/
theorem le_dst_catFrom (n k : ℕ) {m : Message} (hm : m ∈ (catFrom n k parts).messages) :
    n ≤ m.dst := by
  induction parts generalizing n k with
  | nil => cases hm
  | cons part parts ih =>
      obtain ⟨e, dests, srcs⟩ := part
      rcases List.mem_append.mp hm with hm | hm
      · obtain ⟨m, -, rfl⟩ := List.mem_map.mp hm
        exact Nat.le_add_left _ _
      · exact le_trans (Nat.le_add_right _ _) (ih _ _ hm)

/-- Shifting keeps the messages of a destination together. -/
theorem group_shift (src dst : ℕ) (ms : List Message) (v : ℕ) :
    group Message.dst (ms.map (Message.shift src dst)) (v + dst) =
      (group Message.dst ms v).map (Message.shift src dst) := by
  rw [group, group, List.filter_map]
  congr 1
  refine List.filter_congr fun m _ => ?_
  simp [Message.shift]

/-- A destination outside of a part has no messages there. -/
theorem group_eq_nil {ms : List Message} {v : ℕ} (h : ∀ m ∈ ms, m.dst ≠ v) :
    group Message.dst ms v = [] :=
  List.filter_eq_nil_iff.mpr fun m hm => by simpa using h m hm

/-- **The messages of a node.**  They are those of its part. -/
theorem group_catFrom (n k : ℕ) (hbefore : ∀ part ∈ before, part.1.InBounds part.2.1 part.2.2)
    {v : ℕ} (hv : v < dests) :
    group Message.dst (catFrom n k (before ++ (e, dests, srcs) :: after)).messages
        (v + (n + destsOf before)) =
      (group Message.dst e.messages v).map
        (Message.shift (k + srcsOf before) (n + destsOf before)) := by
  induction before generalizing n k with
  | nil =>
      rw [List.nil_append, catFrom, group, List.filter_append, ← group, ← group]
      have hlater : group Message.dst (catFrom (n + dests) (k + srcs) after).messages
          (v + (n + destsOf [])) = [] := by
        refine group_eq_nil fun m hm heq => ?_
        have hle := le_dst_catFrom _ _ hm
        rw [heq] at hle
        simp only [destsOf, List.map_nil, List.sum_nil] at hle
        omega
      rw [hlater, List.append_nil]
      exact group_shift k n e.messages v
  | cons part before ih =>
      obtain ⟨e', dests', srcs'⟩ := part
      have hbounds := hbefore _ List.mem_cons_self
      rw [List.cons_append, catFrom, group, List.filter_append, ← group, ← group]
      have hfirst : group Message.dst (e'.shift k n).messages
          (v + (n + destsOf ((e', dests', srcs') :: before))) = [] := by
        refine group_eq_nil fun m hm heq => ?_
        obtain ⟨m', hm', rfl⟩ := List.mem_map.mp hm
        have hlt : m'.dst < dests' := hbounds.dst_lt m' hm'
        rw [destsOf_cons] at heq
        simp only [Message.shift] at heq
        omega
      rw [hfirst, List.nil_append, destsOf_cons, srcsOf_cons, ← Nat.add_assoc n,
        ← Nat.add_assoc k]
      exact ih _ _ fun part hpart => hbefore part (List.mem_cons_of_mem _ hpart)

/-- The counts of a node are those of its part. -/
theorem counts_catFrom (n k : ℕ) (hbefore : ∀ part ∈ before, part.1.InBounds part.2.1 part.2.2)
    (he : e.InBounds dests srcs) {v : ℕ} (hv : v < dests) :
    (catFrom n k (before ++ (e, dests, srcs) :: after)).counts[v + destsOf before]? =
      e.counts[v]? := by
  induction before generalizing n k with
  | nil =>
      rw [List.nil_append, catFrom]
      exact List.getElem?_append_left (he.length_counts.symm ▸ hv)
  | cons part before ih =>
      have hlength : (part.1.shift k n).counts.length = part.2.1 :=
        (hbefore _ List.mem_cons_self).length_counts
      rw [List.cons_append, catFrom, List.getElem?_append_right
        (by rw [hlength, destsOf_cons]; omega), hlength, destsOf_cons]
      rw [show v + (part.2.1 + destsOf before) - part.2.1 = v + destsOf before by omega]
      exact ih _ _ fun part hpart => hbefore part (List.mem_cons_of_mem _ hpart)

/-- The latest source of a node is that of its part, shifted. -/
theorem lastSrc_catFrom (n k : ℕ) (hbefore : ∀ part ∈ before, part.1.InBounds part.2.1 part.2.2)
    (he : e.InBounds dests srcs) {v : ℕ} (hv : v < dests) :
    (catFrom n k (before ++ (e, dests, srcs) :: after)).lastSrc[v + destsOf before]? =
      e.lastSrc[v]?.map fun s => s.map (· + (k + srcsOf before)) := by
  induction before generalizing n k with
  | nil =>
      rw [List.nil_append, catFrom]
      refine (List.getElem?_append_left ?_).trans (List.getElem?_map ..)
      rw [MessageEdges.shift, List.length_map]
      exact he.length_lastSrc.symm ▸ hv
  | cons part before ih =>
      have hlength : (part.1.shift k n).lastSrc.length = part.2.1 := by
        rw [MessageEdges.shift, List.length_map]
        exact (hbefore _ List.mem_cons_self).length_lastSrc
      rw [List.cons_append, catFrom, List.getElem?_append_right
        (by rw [hlength, destsOf_cons]; omega), hlength, destsOf_cons, srcsOf_cons,
        ← Nat.add_assoc k]
      rw [show v + (part.2.1 + destsOf before) - part.2.1 = v + destsOf before by omega]
      exact ih _ _ fun part hpart => hbefore part (List.mem_cons_of_mem _ hpart)

/-- The messages of all parts, each shifted by the sizes before it. -/
theorem messages_catFrom (n k : ℕ) (parts : List Part) :
    (catFrom n k parts).messages = parts.zipIdx.flatMap fun (part, i) =>
      part.1.messages.map
        (Message.shift (k + srcsOf (parts.take i)) (n + destsOf (parts.take i))) := by
  induction parts generalizing n k with
  | nil => rfl
  | cons part parts ih =>
      obtain ⟨e, dests, srcs⟩ := part
      rw [catFrom, ih, List.zipIdx_cons', List.flatMap_cons, List.flatMap_map]
      simp only [List.take_zero, List.take_succ_cons, Prod.map_fst, Prod.map_snd, id, srcsOf_cons,
        destsOf_cons, Nat.add_assoc]
      rfl

/-- **A part of a batch.**  The shift is a map of the part into the batch. -/
theorem edgesMap_catFrom (after : List Part)
    (hbefore : ∀ part ∈ before, part.1.InBounds part.2.1 part.2.2)
    (he : e.InBounds dests srcs) :
    EdgesMap (· + destsOf before) (· + srcsOf before) dests srcs e
      (catFrom 0 0 (before ++ (e, dests, srcs) :: after)) where
  incoming v hv := by
    have hgroup : group Message.dst (catFrom 0 0 (before ++ (e, dests, srcs) :: after)).messages
        (v + (0 + destsOf before)) = (group Message.dst e.messages v).map
          (Message.shift (0 + srcsOf before) (0 + destsOf before)) := group_catFrom 0 0 hbefore hv
    rw [Nat.zero_add, Nat.zero_add] at hgroup
    rw [hgroup, List.map_map]
    rfl
  counts v hv := counts_catFrom 0 0 hbefore he hv
  lastSrc v hv := by
    have hlast : (catFrom 0 0 (before ++ (e, dests, srcs) :: after)).lastSrc[v + destsOf before]? =
        e.lastSrc[v]?.map fun s => s.map (· + (0 + srcsOf before)) :=
      lastSrc_catFrom 0 0 hbefore he hv
    rw [Nat.zero_add] at hlast
    exact hlast
  src_lt := he.src_lt
  last_lt := he.last_lt

end CatFrom

/-! ## The disjoint union -/

/-- A row of `collate_graphs`. -/
abbrev Row : Type := GraphSample × Example

/-- The sizes of the samples before a row. -/
def userOffset (rows : List Row) (i : ℕ) : ℕ :=
  ((rows.take i).map fun row => row.1.users.length).sum

def itemOffset (rows : List Row) (i : ℕ) : ℕ :=
  ((rows.take i).map fun row => row.1.items.length).sum

/-- The messages of the samples into each side, with the sizes of the sides. -/
def userPart (row : Row) : Part := (row.1.toUsers, row.1.users.length, row.1.items.length)
def itemPart (row : Row) : Part := (row.1.toItems, row.1.items.length, row.1.users.length)

/-- The batch of some samples. -/
def batchOf (rows : List Row) : GraphBatch where
  users := rows.flatMap fun row => row.1.users
  items := rows.flatMap fun row => row.1.items
  toUsers := catFrom 0 0 (rows.map userPart)
  toItems := catFrom 0 0 (rows.map itemPart)
  roots := List.zipWith (fun row offset => row.1.root + offset) rows
    (offsets 0 (rows.map fun row => row.1.users.length))
  targets := rows.map fun row => row.2.target

/-- What the disjoint union of samples is: each row is there, moved by the sizes before it. -/
structure DisjointUnion (rows : List Row) (batch : GraphBatch) : Prop where
  /-- Nothing but the nodes of the samples. -/
  length_users : batch.users.length = (rows.map fun row => row.1.users.length).sum
  length_items : batch.items.length = (rows.map fun row => row.1.items.length).sum
  users : ∀ i row, rows[i]? = some row → ∀ v < row.1.users.length,
    batch.users[v + userOffset rows i]? = row.1.users[v]?
  items : ∀ i row, rows[i]? = some row → ∀ v < row.1.items.length,
    batch.items[v + itemOffset rows i]? = row.1.items[v]?
  /-- The edges, with their places and events: those of the samples, with their ends moved. -/
  toUsers : batch.toUsers.messages = rows.zipIdx.flatMap fun (row, i) =>
    row.1.toUsers.messages.map (Message.shift (itemOffset rows i) (userOffset rows i))
  toItems : batch.toItems.messages = rows.zipIdx.flatMap fun (row, i) =>
    row.1.toItems.messages.map (Message.shift (userOffset rows i) (itemOffset rows i))
  /-- No edge joins two samples. -/
  userEdges : ∀ m ∈ batch.toUsers.messages, ∃ i row, rows[i]? = some row ∧
    (userOffset rows i ≤ m.dst ∧ m.dst < userOffset rows i + row.1.users.length) ∧
    (itemOffset rows i ≤ m.src ∧ m.src < itemOffset rows i + row.1.items.length)
  itemEdges : ∀ m ∈ batch.toItems.messages, ∃ i row, rows[i]? = some row ∧
    (itemOffset rows i ≤ m.dst ∧ m.dst < itemOffset rows i + row.1.items.length) ∧
    (userOffset rows i ≤ m.src ∧ m.src < userOffset rows i + row.1.users.length)
  /-- The counts and the latest sources, absent ones still absent. -/
  userCounts : ∀ i row, rows[i]? = some row → ∀ v < row.1.users.length,
    batch.toUsers.counts[v + userOffset rows i]? = row.1.toUsers.counts[v]?
  itemCounts : ∀ i row, rows[i]? = some row → ∀ v < row.1.items.length,
    batch.toItems.counts[v + itemOffset rows i]? = row.1.toItems.counts[v]?
  userLatest : ∀ i row, rows[i]? = some row → ∀ v < row.1.users.length,
    batch.toUsers.lastSrc[v + userOffset rows i]? =
      row.1.toUsers.lastSrc[v]?.map fun s => s.map (· + itemOffset rows i)
  itemLatest : ∀ i row, rows[i]? = some row → ∀ v < row.1.items.length,
    batch.toItems.lastSrc[v + itemOffset rows i]? =
      row.1.toItems.lastSrc[v]?.map fun s => s.map (· + userOffset rows i)
  /-- The roots are the samples' roots, one for each. -/
  length_roots : batch.roots.length = rows.length
  roots : ∀ i row, rows[i]? = some row →
    batch.roots[i]? = some (row.1.root + userOffset rows i) ∧
      batch.users[row.1.root + userOffset rows i]? = row.1.users[row.1.root]?
  targets : batch.targets = rows.map fun row => row.2.target

section Union

variable {rows : List Row} {row : Row} {i : ℕ}

theorem collateGraphs_eq (h : rows ≠ []) :
    collateGraphs rows = .ok (batchOf rows, rows.map Prod.snd) := by
  have husers := catMessages_eq 0 0 (rows.map userPart)
  have hitems := catMessages_eq 0 0 (rows.map itemPart)
  simp only [List.map_map] at husers hitems
  rw [collateGraphs, if_neg h, batchOf, ← husers, ← hitems]
  rfl

/-- A row and what is before it and after it. -/
theorem eq_take_append_cons (h : rows[i]? = some row) :
    rows = rows.take i ++ row :: rows.drop (i + 1) := by
  obtain ⟨hlt, rfl⟩ := List.getElem?_eq_some_iff.mp h
  rw [← List.drop_eq_getElem_cons hlt, List.take_append_drop]

theorem destsOf_userPart (rows : List Row) (i : ℕ) :
    destsOf ((rows.take i).map userPart) = userOffset rows i := by
  rw [destsOf, List.map_map]
  rfl

theorem srcsOf_userPart (rows : List Row) (i : ℕ) :
    srcsOf ((rows.take i).map userPart) = itemOffset rows i := by
  rw [srcsOf, List.map_map]
  rfl

theorem destsOf_itemPart (rows : List Row) (i : ℕ) :
    destsOf ((rows.take i).map itemPart) = itemOffset rows i := by
  rw [destsOf, List.map_map]
  rfl

theorem srcsOf_itemPart (rows : List Row) (i : ℕ) :
    srcsOf ((rows.take i).map itemPart) = userOffset rows i := by
  rw [srcsOf, List.map_map]
  rfl

variable (hbounds : ∀ row ∈ rows, row.1.InBounds)

include hbounds in
/-- The shifts of a row are a map of its messages into the batch. -/
theorem edgesMap_batchOf (h : rows[i]? = some row) :
    EdgesMap (· + userOffset rows i) (· + itemOffset rows i) row.1.users.length
        row.1.items.length row.1.toUsers (batchOf rows).toUsers ∧
      EdgesMap (· + itemOffset rows i) (· + userOffset rows i) row.1.items.length
        row.1.users.length row.1.toItems (batchOf rows).toItems := by
  have hrow := hbounds row (List.mem_of_getElem? h)
  have hbefore : ∀ row ∈ rows.take i, row.1.InBounds := fun row hmem =>
    hbounds row (List.mem_of_mem_take hmem)
  have husers : ∀ part ∈ (rows.take i).map userPart, part.1.InBounds part.2.1 part.2.2 := by
    intro part hpart
    obtain ⟨row, hmem, rfl⟩ := List.mem_map.mp hpart
    exact (hbefore row hmem).toUsers
  have hitems : ∀ part ∈ (rows.take i).map itemPart, part.1.InBounds part.2.1 part.2.2 := by
    intro part hpart
    obtain ⟨row, hmem, rfl⟩ := List.mem_map.mp hpart
    exact (hbefore row hmem).toItems
  have hsplit := eq_take_append_cons h
  have husersEq : rows.map userPart = (rows.take i).map userPart ++
      userPart row :: (rows.drop (i + 1)).map userPart := by
    conv_lhs => rw [hsplit]
    rw [List.map_append, List.map_cons]
  have hitemsEq : rows.map itemPart = (rows.take i).map itemPart ++
      itemPart row :: (rows.drop (i + 1)).map itemPart := by
    conv_lhs => rw [hsplit]
    rw [List.map_append, List.map_cons]
  have hu := edgesMap_catFrom ((rows.drop (i + 1)).map userPart) husers hrow.toUsers
  have hi := edgesMap_catFrom ((rows.drop (i + 1)).map itemPart) hitems hrow.toItems
  rw [destsOf_userPart, srcsOf_userPart] at hu
  rw [destsOf_itemPart, srcsOf_itemPart] at hi
  rw [batchOf]
  dsimp only
  rw [husersEq, hitemsEq]
  exact ⟨hu, hi⟩

/-- The rows of one list after those of the lists before it. -/
theorem getElem?_flatMap {α : Type} (f : Row → List α) (h : rows[i]? = some row) {v : ℕ}
    (hv : v < (f row).length) :
    (rows.flatMap f)[v + ((rows.take i).map fun row => (f row).length).sum]? = (f row)[v]? := by
  have hsplit : rows.flatMap f =
      (rows.take i).flatMap f ++ (f row ++ (rows.drop (i + 1)).flatMap f) := by
    conv_lhs => rw [eq_take_append_cons h]
    rw [List.flatMap_append, List.flatMap_cons]
  rw [hsplit, ← List.length_flatMap, List.getElem?_append_right (Nat.le_add_left _ _),
    Nat.add_sub_cancel,
    List.getElem?_append_left hv]

theorem length_offsets (n : ℕ) (sizes : List ℕ) : (offsets n sizes).length = sizes.length := by
  induction sizes generalizing n with
  | nil => rfl
  | cons size sizes ih => rw [offsets, List.length_cons, ih, List.length_cons]

theorem getElem?_offsets (n : ℕ) {sizes : List ℕ} {i : ℕ} (hi : i < sizes.length) :
    (offsets n sizes)[i]? = some (n + (sizes.take i).sum) := by
  induction sizes generalizing n i with
  | nil => cases hi
  | cons size sizes ih =>
      cases i with
      | zero => simp [offsets]
      | succ i =>
          rw [offsets, List.getElem?_cons_succ, ih _ (Nat.lt_of_succ_lt_succ hi),
            List.take_succ_cons, List.sum_cons, Nat.add_assoc]

theorem messages_batchOf (rows : List Row) :
    (batchOf rows).toUsers.messages = (rows.zipIdx.flatMap fun (row, i) =>
        row.1.toUsers.messages.map (Message.shift (itemOffset rows i) (userOffset rows i))) ∧
      (batchOf rows).toItems.messages = rows.zipIdx.flatMap fun (row, i) =>
        row.1.toItems.messages.map (Message.shift (userOffset rows i) (itemOffset rows i)) := by
  constructor
  · rw [batchOf, messages_catFrom, List.zipIdx_map, List.flatMap_map]
    simp only [Prod.map_fst, Prod.map_snd, id, ← List.map_take, srcsOf_userPart, destsOf_userPart,
      Nat.zero_add]
    rfl
  · rw [batchOf, messages_catFrom, List.zipIdx_map, List.flatMap_map]
    simp only [Prod.map_fst, Prod.map_snd, id, ← List.map_take, srcsOf_itemPart, destsOf_itemPart,
      Nat.zero_add]
    rfl

/-- A shifted message is between the nodes of its row. -/
theorem shift_between {e : MessageEdges} {n k src dst : ℕ} (h : e.InBounds n k) {m : Message}
    (hm : m ∈ e.messages.map (Message.shift src dst)) :
    (dst ≤ m.dst ∧ m.dst < dst + n) ∧ (src ≤ m.src ∧ m.src < src + k) := by
  obtain ⟨m', hm', rfl⟩ := List.mem_map.mp hm
  have hdst := h.dst_lt m' hm'
  have hsrc := h.src_lt m' hm'
  simp only [Message.shift]
  omega

theorem roots_batchOf (h : rows[i]? = some row) :
    (batchOf rows).roots[i]? = some (row.1.root + userOffset rows i) := by
  obtain ⟨hlt, -⟩ := List.getElem?_eq_some_iff.mp h
  have hoffset : (offsets 0 (rows.map fun row => row.1.users.length))[i]? =
      some (0 + ((rows.map fun row => row.1.users.length).take i).sum) :=
    getElem?_offsets 0 (by rw [List.length_map]; exact hlt)
  rw [← List.map_take, Nat.zero_add] at hoffset
  rw [batchOf, List.getElem?_zipWith, h, hoffset]
  rfl

include hbounds in
/-- **The batch is the disjoint union.** -/
theorem disjointUnion_batchOf : DisjointUnion rows (batchOf rows) := by
  obtain ⟨husers, hitems⟩ := messages_batchOf rows
  refine {
    length_users := List.length_flatMap
    length_items := List.length_flatMap
    users := fun i row h v hv => getElem?_flatMap (fun row => row.1.users) h hv
    items := fun i row h v hv => getElem?_flatMap (fun row => row.1.items) h hv
    toUsers := husers
    toItems := hitems
    userEdges := ?_
    itemEdges := ?_
    userCounts := fun i row h v hv => (edgesMap_batchOf hbounds h).1.counts v hv
    itemCounts := fun i row h v hv => (edgesMap_batchOf hbounds h).2.counts v hv
    userLatest := fun i row h v hv => (edgesMap_batchOf hbounds h).1.lastSrc v hv
    itemLatest := fun i row h v hv => (edgesMap_batchOf hbounds h).2.lastSrc v hv
    length_roots := ?_
    roots := fun i row h => ⟨roots_batchOf h, getElem?_flatMap (fun row => row.1.users) h
      (hbounds row (List.mem_of_getElem? h)).root_lt⟩
    targets := rfl }
  · intro m hm
    rw [husers] at hm
    obtain ⟨⟨row, i⟩, hrow, hm⟩ := List.mem_flatMap.mp hm
    have h : rows[i]? = some row := by simpa using List.mem_zipIdx_iff_getElem?.mp hrow
    exact ⟨i, row, h, shift_between (hbounds row (List.mem_of_getElem? h)).toUsers hm⟩
  · intro m hm
    rw [hitems] at hm
    obtain ⟨⟨row, i⟩, hrow, hm⟩ := List.mem_flatMap.mp hm
    have h : rows[i]? = some row := by simpa using List.mem_zipIdx_iff_getElem?.mp hrow
    exact ⟨i, row, h, shift_between (hbounds row (List.mem_of_getElem? h)).toItems hm⟩
  · simp [batchOf, length_offsets]

/-- The batch of one sample. -/
def alone (row : Row) : GraphBatch where
  users := row.1.users
  items := row.1.items
  toUsers := row.1.toUsers
  toItems := row.1.toItems
  roots := [row.1.root]
  targets := [row.2.target]

theorem collateGraphs_single (row : Row) : collateGraphs [row] = .ok (alone row, [row.2]) := by
  have hshift : ∀ e : MessageEdges, e.shift 0 0 = e := by
    intro e
    have hmessage : Message.shift 0 0 = id := rfl
    have hmark : (fun s : Option ℕ => s.map (· + 0)) = id := by
      funext s
      cases s <;> rfl
    rw [MessageEdges.shift, hmessage, hmark, List.map_id, List.map_id]
  have hcat : ∀ e n k, catFrom 0 0 [(e, n, k)] = e := by
    intro e n k
    simp only [catFrom, hshift, List.append_nil]
  rw [collateGraphs_eq (by simp), batchOf]
  simp only [List.map_singleton, userPart, itemPart, hcat, alone]
  simp [offsets]

variable {K : Type} [Field K] [LinearOrder K] {d : ℕ} (net : Network K d)

include hbounds in
/-- **The rows of a batch.**  They are those of the samples alone. -/
theorem encode_batchOf (h : rows[i]? = some row) :
    (net.encode (batchOf rows))[i]? = (net.encode (alone row))[0]? := by
  have hrow := hbounds row (List.mem_of_getElem? h)
  have hunion := disjointUnion_batchOf hbounds
  obtain ⟨hu, hi⟩ := edgesMap_batchOf hbounds h
  have hmap : GraphMap (· + userOffset rows i) (· + itemOffset rows i) (alone row) (batchOf rows) :=
    ⟨hunion.users i row h, hunion.items i row h, hu, hi⟩
  exact encodeFrom_map net hmap rfl (roots_batchOf h) hrow.root_lt (hmap.users.map _)
    (hmap.items.map _) (List.length_map _) (List.length_map _)

end Union

/-- **Batching is a disjoint union.**  Of samples whose indices are in bounds, `collate_graphs`
makes their disjoint union, and the network's row for a root is its row for that sample alone. -/
theorem collateGraphs_disjoint {K : Type} [Field K] [LinearOrder K] {d : ℕ} (net : Network K d)
    {rows : List Row} (hbounds : ∀ row ∈ rows, row.1.InBounds) :
    (rows = [] → collateGraphs rows = .error .emptyList) ∧
    (rows ≠ [] → ∃ batch, collateGraphs rows = .ok (batch, rows.map Prod.snd) ∧
      DisjointUnion rows batch ∧ (net.encode batch).length = rows.length ∧
      ∀ (i : ℕ) (row : Row), rows[i]? = some row →
        ∃ single, collateGraphs [row] = .ok (single, [row.2]) ∧
          (net.encode single).length = 1 ∧ (net.encode batch)[i]? = (net.encode single)[0]?) := by
  have hlength : ∀ batch, (net.encode batch).length = batch.roots.length := by
    intro batch
    simp [Network.encode, Network.encodeFrom, Network.readRoots]
  refine ⟨fun h => if_pos h, fun h => ?_⟩
  have hunion := disjointUnion_batchOf hbounds
  refine ⟨batchOf rows, collateGraphs_eq h, hunion, ?_, ?_⟩
  · rw [hlength, hunion.length_roots]
  · intro i row hrow
    exact ⟨alone row, collateGraphs_single row, hlength _, encode_batchOf hbounds net hrow⟩

/-! ## Two samples -/

/-- The elementary functions of the reals. -/
noncomputable def realFunctions : Functions ℝ where
  exp := Real.exp
  tanh := Real.tanh
  sigmoid x := 1 / (1 + Real.exp (-x))

/-- A layer with all weights one. -/
def plainLayer : Layer ℝ 1 where
  itemProjection := fun _ _ => 1
  userProjection := fun _ _ => 1
  lastItemQuery := fun _ _ => 1
  lastUserQuery := fun _ _ => 1
  userUpdate := fun _ _ => 1
  itemUpdate := fun _ _ => 1
  userGru := ⟨⟨fun _ _ => 1, 0⟩, ⟨fun _ _ => 1, 0⟩⟩
  itemGru := ⟨⟨fun _ _ => 1, 0⟩, ⟨fun _ _ => 1, 0⟩⟩
  keyPositions := none
  valuePositions := none

/-- A network of one such layer. -/
noncomputable def plainNetwork : Network ℝ 1 where
  longTerm := .dat
  shortTerm := .attention
  scale := 1
  fn := realFunctions
  userEmbedding u := fun _ => u
  itemEmbedding i := fun _ => i
  keyPositions p := fun _ => p
  valuePositions p := fun _ => p
  layers := [plainLayer]
  readout := fun _ _ => 1

/-- One user who bought one item. -/
def onePurchase (user item : ℕ) : GraphSample where
  users := [user]
  items := [item]
  toUsers := ⟨[⟨0, 0, 0, 0, some 0⟩], [1], [some 0]⟩
  toItems := ⟨[⟨0, 0, 0, 0, some 0⟩], [1], [some 0]⟩
  root := 0
  cutoff := 0
  inducedEvents := [0]

theorem onePurchase_inBounds (user item : ℕ) : (onePurchase user item).InBounds where
  toUsers := ⟨by simp [onePurchase], by simp [onePurchase], rfl, rfl, by simp [onePurchase]⟩
  toItems := ⟨by simp [onePurchase], by simp [onePurchase], rfl, rfl, by simp [onePurchase]⟩
  root_lt := Nat.one_pos

/-- The row of the second of two samples. -/
theorem collateGraphs_disjoint_two : ∃ batch single : GraphBatch,
    collateGraphs [(onePurchase 3 4, ⟨3, 0, 4, 0⟩), (onePurchase 5 4, ⟨5, 0, 4, 0⟩)] =
      .ok (batch, [⟨3, 0, 4, 0⟩, ⟨5, 0, 4, 0⟩]) ∧ batch.toUsers.lastSrc = [some 0, some 1] ∧
    (plainNetwork.encode batch)[1]? = (plainNetwork.encode single)[0]? := by
  have hbounds : ∀ row ∈ [((onePurchase 3 4, ⟨3, 0, 4, 0⟩) : Row),
      (onePurchase 5 4, ⟨5, 0, 4, 0⟩)], row.1.InBounds := by
    intro row hrow
    rcases List.mem_cons.mp hrow with rfl | hrow
    · exact onePurchase_inBounds 3 4
    · rw [List.mem_singleton.mp hrow]
      exact onePurchase_inBounds 5 4
  obtain ⟨batch, hbatch, hunion, -, hrows⟩ :=
    (collateGraphs_disjoint plainNetwork hbounds).2 (by simp)
  obtain ⟨single, -, -, hrow⟩ := hrows 1 _ rfl
  refine ⟨batch, single, hbatch, ?_, hrow⟩
  cases hbatch
  rfl

end Dgsr
