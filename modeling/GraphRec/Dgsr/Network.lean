import GraphRec.Dgsr.Graph
import GraphRec.Lib.Scatter
import Mathlib.Data.Fin.VecNotation
import Mathlib.Data.Matrix.Mul

/-!
# The network

The encoder of `DGSR` in exact arithmetic, with arbitrary weights: the layers' long-term and
short-term terms over the messages of a batch, the updates, and the readout of the roots.

A tensor over nodes is a list of rows, a tensor over edges a list along the messages.  The
elementary functions are parameters, as is the scale of the logits (the root of the dimension).
-/

namespace Dgsr

open Scatter

/-- `short_term`. -/
inductive ShortTerm
  | attention | last | none
  deriving DecidableEq, Repr

/-- `GraphBatch`. -/
structure GraphBatch where
  users : List ℕ
  items : List ℕ
  toUsers : MessageEdges
  toItems : MessageEdges
  roots : List ℕ
  targets : List ℕ
  deriving DecidableEq, Repr

/-- A row of a tensor. -/
abbrev Vec (K : Type) (d : ℕ) : Type := Fin d → K

/-- `exp`, `tanh` and `sigmoid`. -/
structure Functions (K : Type) where
  exp : K → K
  tanh : K → K
  sigmoid : K → K

/-! ## The recurrence -/

section Recurrence

variable {K : Type} [Field K] {d : ℕ}

/-- A linear layer with a bias. -/
structure Linear (K ι κ : Type) where
  weight : Matrix κ ι K
  bias : κ → K

def Linear.apply {ι κ : Type} [Fintype ι] (l : Linear K ι κ) (x : ι → K) : κ → K :=
  l.weight.mulVec x + l.bias

/-- `ChronologicalGRU`; the three chunks of a row are indexed by `Fin 3`. -/
structure Gru (K : Type) (d : ℕ) where
  inputLinear : Linear K (Fin d) (Fin 3 × Fin d)
  hiddenLinear : Linear K (Fin d) (Fin 3 × Fin d)

namespace Gru

variable (fn : Functions K) (gru : Gru K d)

/-- One update of a destination's state `old` by the state of a source. -/
def cell (source old : Vec K d) : Vec K d :=
  let x := gru.inputLinear.apply source
  let h := gru.hiddenLinear.apply old
  let reset := fun i => fn.sigmoid (x (0, i) + h (0, i))
  let update := fun i => fn.sigmoid (x (1, i) + h (1, i))
  let candidate := fun i => fn.tanh (x (2, i) + reset i * h (2, i))
  fun i => (1 - update i) * candidate i + update i * old i

/-- `bincount`. -/
def bincount (values : List ℕ) : List ℕ :=
  (List.range (values.max?.elim 0 (· + 1))).map fun k => values.count k

/-- One round of the loop over the chronological steps: the next `count` edges of the order. -/
def advance (source : List (Vec K d)) (state : List (Vec K d) × List Message) (count : ℕ) :
    List (Vec K d) × List Message :=
  let idx := state.2.take count
  (indexCopy state.1 (idx.map Message.dst) (idx.map fun m =>
    gru.cell fn (source.getD m.src 0) (state.1.getD m.dst 0)), state.2.drop count)

/-- `ChronologicalGRU.forward`. -/
def forward (source : List (Vec K d)) (edges : MessageEdges) : List (Vec K d) :=
  let h := List.replicate edges.counts.length 0
  if edges.messages = [] then h
  else
    let order := edges.messages.insertionSort fun a b => a.position ≤ b.position
    ((bincount (edges.messages.map Message.position)).foldl (gru.advance fn source) (h, order)).1

end Gru

end Recurrence

/-! ## Layers -/

/-- `DGRNLayer`, its weights; `keyPositions` and `valuePositions` are there when the positions are
not shared by the layers. -/
structure Layer (K : Type) (d : ℕ) where
  itemProjection : Matrix (Fin d) (Fin d) K
  userProjection : Matrix (Fin d) (Fin d) K
  lastItemQuery : Matrix (Fin d) (Fin d) K
  lastUserQuery : Matrix (Fin d) (Fin d) K
  userUpdate : Matrix (Fin d) (Fin 3 × Fin d) K
  itemUpdate : Matrix (Fin d) (Fin 3 × Fin d) K
  userGru : Gru K d
  itemGru : Gru K d
  keyPositions : Option (ℕ → Vec K d)
  valuePositions : Option (ℕ → Vec K d)

/-- `DGSR`: its modes and weights. -/
structure Network (K : Type) (d : ℕ) where
  longTerm : LongTerm
  shortTerm : ShortTerm
  scale : K
  fn : Functions K
  userEmbedding : ℕ → Vec K d
  itemEmbedding : ℕ → Vec K d
  keyPositions : ℕ → Vec K d
  valuePositions : ℕ → Vec K d
  layers : List (Layer K d)
  readout : Matrix (Fin d) (Fin (layers.length + 1) × Fin d) K

namespace Network

variable {K : Type} [Field K] [LinearOrder K] {d : ℕ} (net : Network K d)

/-- `_long`. -/
def long (center source projectedCenter projectedSource : List (Vec K d)) (edges : MessageEdges)
    (gru : Gru K d) (keyPositions valuePositions : ℕ → Vec K d) : List (Vec K d) :=
  let dst := edges.messages.map Message.dst
  match net.longTerm with
  | .none => center.map fun _ => 0
  | .gru => gru.forward net.fn source edges
  | .gcn =>
      let result := segmentSum (edges.messages.map fun m => projectedSource.getD m.src 0) dst
        center.length
      List.zipWith (fun x count => fun i => x i / ((max count 1 : ℕ) : K)) result edges.counts
  | .dat =>
      let keys := edges.messages.map fun m =>
        projectedSource.getD m.src 0 + keyPositions m.relative
      let values := edges.messages.map fun m =>
        projectedSource.getD m.src 0 + valuePositions m.relative
      let logits := List.zipWith (fun m key =>
        (projectedCenter.getD m.dst 0 ⬝ᵥ key) / net.scale) edges.messages keys
      let attention := segmentSoftmax net.fn.exp logits dst center.length
      segmentSum (List.zipWith (fun a x => a • x) attention values) dst center.length

/-- `_short`. -/
def short (center source : List (Vec K d)) (edges : MessageEdges)
    (queryLayer keyLayer : Matrix (Fin d) (Fin d) K) : List (Vec K d) :=
  let dst := edges.messages.map Message.dst
  let latest := edges.lastSrc.map fun s =>
    (if s.isSome then (1 : K) else 0) • source.getD (s.getD 0) 0
  match net.shortTerm with
  | .none => center.map fun _ => 0
  | .last => latest
  | .attention =>
      let queries := latest.map queryLayer.mulVec
      let keys := edges.messages.map fun m => (source.map keyLayer.mulVec).getD m.src 0
      let logits := List.zipWith (fun m key => (queries.getD m.dst 0 ⬝ᵥ key) / net.scale)
        edges.messages keys
      let attention := segmentSoftmax net.fn.exp logits dst center.length
      segmentSum (List.zipWith (fun a m => a • source.getD m.src 0) attention edges.messages) dst
        center.length

/-- The update of a node from its two terms and its state. -/
def updateRow (weight : Matrix (Fin d) (Fin 3 × Fin d) K) (long short state : Vec K d) :
    Vec K d := fun i =>
  net.fn.tanh (weight.mulVec (fun (k, j) => ![long, short, state] k j) i)

/-- `tanh(update(cat([long, short, states])))`, row by row. -/
def update (weight : Matrix (Fin d) (Fin 3 × Fin d) K) (long short states : List (Vec K d)) :
    List (Vec K d) :=
  (List.range states.length).map fun v =>
    net.updateRow weight (long.getD v 0) (short.getD v 0) (states.getD v 0)

/-- `DGRNLayer.forward`; both sides read the old states. -/
def forward (layer : Layer K d) (users items : List (Vec K d)) (batch : GraphBatch) :
    List (Vec K d) × List (Vec K d) :=
  let kp := layer.keyPositions.getD net.keyPositions
  let vp := layer.valuePositions.getD net.valuePositions
  let pu := users.map layer.userProjection.mulVec
  let pi := items.map layer.itemProjection.mulVec
  let longU := net.long users items pu pi batch.toUsers layer.userGru kp vp
  let longI := net.long items users pi pu batch.toItems layer.itemGru kp vp
  let shortU := net.short users items batch.toUsers layer.lastItemQuery layer.userProjection
  let shortI := net.short items users batch.toItems layer.lastUserQuery layer.itemProjection
  (net.update layer.userUpdate longU shortU users, net.update layer.itemUpdate longI shortI items)

/-! ## The encoder -/

/-- `states[batch.roots]`. -/
def atRoots (states : List (Vec K d)) (batch : GraphBatch) : List (Vec K d) :=
  batch.roots.map fun r => states.getD r 0

/-- What the loop over the layers appends to `roots`. -/
def rootStates (batch : GraphBatch) : List (Layer K d) → List (Vec K d) → List (Vec K d) →
    List (List (Vec K d))
  | [], _, _ => []
  | layer :: layers, users, items =>
      let next := net.forward layer users items batch
      atRoots next.1 batch :: rootStates batch layers next.1 next.2

/-- `readout(cat(roots))`, row by row. -/
def readRoots (roots : List (List (Vec K d))) (batch : GraphBatch) : List (Vec K d) :=
  (List.range batch.roots.length).map fun i =>
    net.readout.mulVec fun (k, j) => ((roots.getD k []).getD i 0) j

/-- The loop and the readout, from the first states. -/
def encodeFrom (users items : List (Vec K d)) (batch : GraphBatch) : List (Vec K d) :=
  net.readRoots (atRoots users batch :: net.rootStates batch net.layers users items) batch

/-- `encode`. -/
def encode (batch : GraphBatch) : List (Vec K d) :=
  net.encodeFrom (batch.users.map net.userEmbedding) (batch.items.map net.itemEmbedding) batch

/-- `_encode_with_root`. -/
def encodeWithRoot (batch : GraphBatch) (rootVector : Option (Vec K d)) : List (Vec K d) :=
  let users := batch.users.map net.userEmbedding
  let users := match rootVector with
    | none => users
    | some vector => batch.roots.foldl (fun users r => users.set r vector) users
  net.encodeFrom users (batch.items.map net.itemEmbedding) batch

end Network

end Dgsr
