import GraphRec.Lib.TopK
import Mathlib.Data.List.FinRange
import Mathlib.Data.String.Basic
import Mathlib.Order.WithBot

/-!
# The vector index and the item table

The item embeddings of an artifact are used twice.  The training worker uploads them to a Qdrant
collection (`indexTable`), which `retrieve_candidates` searches; and when the collection does not
answer, `finish_personalized` scores the item table in process.

Arithmetic is exact, in a linearly ordered field; the norm of a vector, which takes a square root,
is a parameter.  The search is exact as well: `Collection.search` returns the best points under
the collection's distance.
-/

namespace VectorIndex

open TopK

variable {R : Type} [Field R] [LinearOrder R] {dim : ℕ}

/-- What retrieval reads of a `DGSRArtifact`: the items and their embeddings, row by row. -/
structure Artifact (R : Type) (dim : ℕ) where
  numItems : ℕ
  itemIds : Fin numItems → String
  itemIds_injective : Function.Injective itemIds
  embeddings : Fin numItems → Fin dim → R

/-! ## Scoring in process -/

namespace Artifact

variable (artifact : Artifact R dim)

/-- The rows of the table. -/
def indices : List (Fin artifact.numItems) := List.finRange artifact.numItems

/-- `item_index`. -/
def itemIndex (item : String) : Option (Fin artifact.numItems) :=
  artifact.indices.find? fun i => artifact.itemIds i = item

/-- `score`: the full-catalog scores of one query. -/
def score (query : Fin dim → R) (i : Fin artifact.numItems) : R := query ⬝ᵥ artifact.embeddings i

/-- `top_k`; a score that is not finite is `⊥`. -/
def topK (scores : Fin artifact.numItems → WithBot R) (k : ℕ) : List (String × WithBot R) :=
  let finite := artifact.indices.countP fun i => scores i ≠ ⊥
  let count := min k finite
  ((artifact.indices.insertionSort (Better scores id)).take count).map fun i =>
    (artifact.itemIds i, scores i)

end Artifact

/-- What became of the search: not submitted while the breaker is open, an answer, a timeout, or
an exception. -/
inductive QdrantCall
  | skipped
  | answered (found : List String)
  | timeout
  | raised
  deriving DecidableEq, Repr

def QdrantCall.ids : QdrantCall → List String
  | .answered found => found
  | _ => []

def QdrantCall.status : QdrantCall → String
  | .skipped => "qdrant_skipped"
  | .answered found => if found = [] then "qdrant_empty" else "qdrant"
  | .timeout => "qdrant_timeout"
  | .raised => "qdrant_unavailable"

/-- A copy of the scores with the excluded rows at minus infinity. -/
def Artifact.masked (artifact : Artifact R dim) (allScores : Fin artifact.numItems → R)
    (exclude : List String) (i : Fin artifact.numItems) : WithBot R :=
  if i ∈ exclude.filterMap artifact.itemIndex then ⊥ else allScores i

/-- `finish_personalized`: Qdrant's answer, or the Top-K scored in process from the item table. -/
def finishPersonalized (artifact : Artifact R dim) (allScores : Fin artifact.numItems → R)
    (call : QdrantCall) (exclude : List String) (topK : ℕ) : List String × String :=
  if call.ids ≠ [] then (call.ids, call.status)
  else
    ((artifact.topK (artifact.masked allScores exclude) topK).map Prod.fst,
      call.status ++ "->in_memory")

/-! ## The index -/

/-- `qmodels.Distance`, as far as it is used. -/
inductive Distance
  | cosine | dot
  deriving DecidableEq, Repr

/-- The payload of a point. -/
structure Payload where
  externalId : String
  tenantId : String
  versionId : String
  deriving DecidableEq, Repr

/-- `PointStruct`. -/
structure Point (R : Type) (dim : ℕ) where
  id : ℕ
  vector : Fin dim → R
  payload : Payload

/-- A collection with its configured distance. -/
structure Collection (R : Type) (dim : ℕ) where
  distance : Distance
  points : List (Point R dim)

/-- The points of one batch, numbered from `start`. -/
def batchPoints (tenantId versionId : String) (start : ℕ)
    (batch : List (String × (Fin dim → R))) : List (Point R dim) :=
  (batch.zipIdx start).map fun (row, i) => ⟨i, row.2, ⟨row.1, tenantId, versionId⟩⟩

/-- `BATCH_SIZE`. -/
def batchSize : ℕ := 256

/-- The loop over the batches. -/
def upsertBatches (tenantId versionId : String) (start : ℕ) :
    List (String × (Fin dim → R)) → List (Point R dim)
  | [] => []
  | row :: rows =>
      batchPoints tenantId versionId start ((row :: rows).take batchSize) ++
        upsertBatches tenantId versionId (start + batchSize) ((row :: rows).drop batchSize)
termination_by rows => rows.length
decreasing_by
  rw [List.length_drop, List.length_cons, batchSize]
  omega

/-- What the indexing refuses. -/
inductive IndexError
  | misaligned
  | notIndexable
  deriving DecidableEq, Repr

/-- `index_item_embeddings` into a new collection; the distance is cosine unless one is given. -/
def indexItemEmbeddings (tenantId versionId : String) (externalIds : List String)
    (embeddingMatrix : List (Fin dim → R)) (distance : Distance := .cosine) :
    Except IndexError (Collection R dim) :=
  if externalIds.length ≠ embeddingMatrix.length then .error .misaligned
  else .ok ⟨distance, upsertBatches tenantId versionId 0 (externalIds.zip embeddingMatrix)⟩

variable (norm : (Fin dim → R) → R)

/-- A row of `table / norms`. -/
def Artifact.unitRow (artifact : Artifact R dim) (i : Fin artifact.numItems) : Fin dim → R :=
  (norm (artifact.embeddings i))⁻¹ • artifact.embeddings i

/-- The indexing call of the training worker. -/
def indexTable (artifact : Artifact R dim) (tenantId versionId : String) :
    Except IndexError (Collection R dim) :=
  if artifact.indices.any fun i => norm (artifact.embeddings i) ≤ 0 then .error .notIndexable
  else indexItemEmbeddings tenantId versionId (artifact.indices.map artifact.itemIds)
    (artifact.indices.map (artifact.unitRow norm))

/-- The score of a stored vector; the cosine of a vector without length is 0. -/
def Distance.score : Distance → (Fin dim → R) → (Fin dim → R) → R
  | .cosine, query, stored => (query ⬝ᵥ stored) / (norm query * norm stored)
  | .dot, query, stored => query ⬝ᵥ stored

/-- An exact search: the best `limit` points that pass the filter, with their scores. -/
def Collection.search (c : Collection R dim) (query : Fin dim → R) (filter : Payload → Bool)
    (limit : ℕ) : List (Point R dim × R) :=
  let scored := (c.points.filter fun point => filter point.payload).map fun point =>
    (point, c.distance.score norm query point.vector)
  (scored.insertionSort (Better Prod.snd fun hit => hit.1.id)).take limit

/-- `retrieve_candidates` on a collection that exists. -/
def retrieveCandidates (c : Collection R dim) (tenantId : String) (query : Fin dim → R)
    (topK : ℕ) (excludeIds : List String) : List String :=
  let hits := c.search norm query
    (fun payload => payload.tenantId = tenantId ∧
      (excludeIds = [] ∨ payload.externalId ∉ excludeIds)) topK
  (hits.insertionSort (Better Prod.snd fun hit => hit.1.payload.externalId)).map fun hit =>
    hit.1.payload.externalId

end VectorIndex
