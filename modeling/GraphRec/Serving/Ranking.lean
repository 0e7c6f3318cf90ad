import Mathlib.Algebra.Field.Defs
import Mathlib.Algebra.Order.Ring.Defs
import Mathlib.Data.List.Dedup
import Mathlib.Data.List.MinMax
import Mathlib.Data.List.Perm.Subperm
import Mathlib.Data.List.Sort
import Mathlib.Order.WithBot

/-!
# Ranking candidates

`Candidate` and the pure ranking helpers of the serving pipeline: percentile
ranks, the combined score, the relevance order and maximal marginal relevance.
Scores are in a linearly ordered field; the norm of a vector, which takes a
square root, is a parameter.

What the safety of the pipeline needs of each step is which candidates it keeps:
`combineScores` and `relevanceOrder` keep all (`ids_combineScores`,
`ids_relevanceOrder`), `mmrOrder` keeps some, none twice (`mmrOrder_subperm`).
-/

namespace Serving

/-- `SOURCES`. -/
inductive Source
  | sessionNeighbors | dgsrPersonalized | popularInCategory | trending | lastGood
  deriving DecidableEq, Repr

/-- A candidate product with what is known about it so far. -/
structure Candidate (R : Type) where
  externalId : String
  sources : List Source
  sourceRanks : List (Source × ℕ)
  anchorId : Option String
  category : Option String
  itemIndex : Option ℕ
  modelScore : Option R
  popularity : R
  modelNorm : R
  popularityNorm : R
  agreement : R
  final : R
  rankBeforeRerank : Option ℕ
  deriving DecidableEq, Repr

namespace Candidate

variable {R : Type}

/-- `Candidate(external_id=item)`. -/
def new [Zero R] (item : String) : Candidate R where
  externalId := item
  sources := []
  sourceRanks := []
  anchorId := none
  category := none
  itemIndex := none
  modelScore := none
  popularity := 0
  modelNorm := 0
  popularityNorm := 0
  agreement := 0
  final := 0
  rankBeforeRerank := none

/-- `add_source`. -/
def addSource (c : Candidate R) (source : Source) (rank : ℕ) (anchor : Option String) :
    Candidate R :=
  let known := source ∈ c.sources
  { c with
    sources := if known then c.sources else c.sources ++ [source]
    sourceRanks := if known then c.sourceRanks else c.sourceRanks ++ [(source, rank)]
    anchorId := if anchor ≠ none ∧ c.anchorId = none then anchor else c.anchorId }

@[simp] theorem new_externalId [Zero R] (item : String) :
    (new item : Candidate R).externalId = item := rfl

@[simp] theorem addSource_externalId (c : Candidate R) (source : Source) (rank : ℕ)
    (anchor : Option String) : (c.addSource source rank anchor).externalId = c.externalId := rfl

end Candidate

/-- The external ids of a list of candidates. -/
def ids {R : Type} (cs : List (Candidate R)) : List String := cs.map Candidate.externalId

variable {R : Type} [Field R] [LinearOrder R]

/-! ## Scores -/

/-- `WEIGHTS` and `AGREEMENT_FULL`. -/
def weightModel : R := 85 / 100
def weightPopularity : R := 5 / 100
def weightAgreement : R := 10 / 100
def agreementFull : R := 3

/-- `percentile_ranks`: the place of a value among the distinct values, scaled to
`[0, 1]`; a single value is 1. -/
def percentileRanks (values : List (String × R)) : List (String × R) :=
  let distinct := (values.map Prod.snd).dedup.insertionSort (· ≤ ·)
  if distinct.length = 1 then values.map fun (key, _) => (key, 1)
  else values.map fun (key, value) =>
    (key, (distinct.idxOf value : R) / ((distinct.length - 1 : ℕ) : R))

/-- `combine_scores`. -/
def combineScores (candidates : List (Candidate R)) : List (Candidate R) :=
  let model := percentileRanks
    (candidates.filterMap fun c => c.modelScore.map fun score => (c.externalId, score))
  let popularity := percentileRanks (candidates.map fun c => (c.externalId, c.popularity))
  let hasPopularity := candidates.any fun c => decide (c.popularity ≠ 0)
  candidates.map fun c =>
    let popularityNorm := if hasPopularity then (popularity.lookup c.externalId).getD 0 else 0
    let modelNorm := (model.lookup c.externalId).getD (1 / 2 * popularityNorm)
    let independent := c.sources.filter fun s => decide (s ≠ .lastGood)
    let agreement := min (((independent.length - 1 : ℕ) : R) / (agreementFull - 1)) 1
    { c with
      popularityNorm := popularityNorm
      modelNorm := modelNorm
      agreement := agreement
      final := weightModel * modelNorm + weightPopularity * popularityNorm +
        weightAgreement * agreement }

/-- Before in `relevance_order`: a better score, or the same score and an id that
is not larger. -/
def Candidate.before (a b : Candidate R) : Prop :=
  b.final < a.final ∨ a.final = b.final ∧ a.externalId ≤ b.externalId

instance : DecidableRel (Candidate.before (R := R)) := fun a b =>
  inferInstanceAs (Decidable (b.final < a.final ∨ a.final = b.final ∧ a.externalId ≤ b.externalId))

/-- `relevance_order`. -/
def relevanceOrder (candidates : List (Candidate R)) : List (Candidate R) :=
  (candidates.insertionSort Candidate.before).zipIdx.map fun (c, index) =>
    { c with rankBeforeRerank := some (index + 1) }

@[simp] theorem ids_combineScores (candidates : List (Candidate R)) :
    ids (combineScores candidates) = ids candidates := by
  simp [ids, combineScores, Function.comp_def]

omit [Field R] in
theorem ids_relevanceOrder (candidates : List (Candidate R)) :
    (ids (relevanceOrder candidates)).Perm (ids candidates) := by
  have hsame : ids (relevanceOrder candidates) =
      ids (candidates.insertionSort Candidate.before) := by
    simp only [ids, relevanceOrder, List.map_map]
    conv_rhs => rw [← List.zipIdx_map_fst 0 (candidates.insertionSort Candidate.before)]
    rw [List.map_map]
    rfl
  rw [hsame]
  exact (List.perm_insertionSort _ _).map _

/-! ## Maximal marginal relevance -/

/-- The vectors scaled to length one; a vector without length, or none, is zero. -/
def unitVector (norm : List R → R) : Option (List R) → List R
  | none => []
  | some v => if 0 < norm v then v.map (· / norm v) else []

/-- `unit @ unit[best]`, one component; the empty list is the zero vector. -/
def dot (u v : List R) : R := (List.zipWith (· * ·) u v).sum

/-- The rounds of `mmr_order` over the indices of the pool: the best available
score, the earliest on ties, is picked and no longer available. -/
def mmrLoop (relevance : ℕ → R) (similarity : ℕ → ℕ → R) (diversity : R) (n : ℕ) :
    ℕ → (ℕ → Bool) → (ℕ → R) → List ℕ
  | 0, _, _ => []
  | rounds + 1, available, maxSim =>
      let score := fun i : ℕ => if available i then
        (((1 - diversity) * relevance i - diversity * maxSim i : R) : WithBot R) else ⊥
      match (List.range n).argmax score with
      | none => []
      | some best => best :: mmrLoop relevance similarity diversity n rounds
          (Function.update available best false)
          fun i => max (maxSim i) (similarity i best)

/-- `mmr_order`; `vectors` has at least one entry when `hasVectors`. -/
def mmrOrder (norm : List R → R) (ordered : List (Candidate R)) (vectors : String → Option (List R))
    (hasVectors : Bool) (diversity : R) (limit : ℕ) : List (Candidate R) :=
  if diversity ≤ 0 ∨ ordered.length ≤ 1 ∨ hasVectors = false then ordered.take limit
  else
    let unit := ordered.map fun c => unitVector norm (vectors c.externalId)
    let relevance := fun i => ((ordered[i]?).map Candidate.final).getD 0
    let similarity := fun i best => dot ((unit[i]?).getD []) ((unit[best]?).getD [])
    (mmrLoop relevance similarity (min diversity 1) ordered.length (min limit ordered.length)
      (fun _ => true) (fun _ => 0)).filterMap fun i => ordered[i]?

/-- As long as enough indices are available, the rounds pick available ones, none
twice. -/
theorem mmrLoop_spec (relevance : ℕ → R) (similarity : ℕ → ℕ → R) (diversity : R) {n : ℕ}
    {rounds : ℕ} (available : ℕ → Bool) (maxSim : ℕ → R)
    (henough : rounds ≤ ((List.range n).filter available).length) :
    (mmrLoop relevance similarity diversity n rounds available maxSim).Nodup ∧
      ∀ i ∈ mmrLoop relevance similarity diversity n rounds available maxSim,
        i < n ∧ available i = true := by
  induction rounds generalizing available maxSim with
  | zero => exact ⟨List.nodup_nil, fun i hi => absurd hi List.not_mem_nil⟩
  | succ rounds ih =>
      rw [mmrLoop]
      split
      · exact ⟨List.nodup_nil, fun i hi => absurd hi List.not_mem_nil⟩
      · next best hbest =>
          have hlt : best < n := List.mem_range.mp (List.argmax_mem hbest)
          -- Some index is available, and it scores better than an unavailable one.
          have havailable : available best = true := by
            obtain ⟨i, hi⟩ := List.exists_mem_of_length_pos (by omega : 0 <
              ((List.range n).filter available).length)
            obtain ⟨hmem, hi⟩ := List.mem_filter.mp hi
            have hle := List.le_of_mem_argmax hmem hbest
            by_contra hnot
            simp [hi, hnot] at hle
          have hleft : ((List.range n).filter (Function.update available best false)) =
              ((List.range n).filter available).erase best := by
            rw [(List.nodup_range.filter _).erase_eq_filter, List.filter_filter]
            refine List.filter_congr fun i _ => ?_
            by_cases hi : i = best
            · subst hi
              simp
            · simp [hi]
          have hmem : best ∈ (List.range n).filter available :=
            List.mem_filter.mpr ⟨List.mem_range.mpr hlt, havailable⟩
          have hrounds : rounds ≤
              ((List.range n).filter (Function.update available best false)).length := by
            rw [hleft, List.length_erase_of_mem hmem]
            omega
          obtain ⟨hnodup, hrest⟩ := ih (Function.update available best false)
            (fun i => max (maxSim i) (similarity i best)) hrounds
          refine ⟨List.nodup_cons.mpr ⟨fun hi => ?_, hnodup⟩, ?_⟩
          · have hagain := (hrest best hi).2
            simp at hagain
          · intro i hi
            rcases List.mem_cons.mp hi with rfl | hi
            · exact ⟨hlt, havailable⟩
            · obtain ⟨hi, hstill⟩ := hrest i hi
              refine ⟨hi, ?_⟩
              by_cases hib : i = best
              · rw [hib]; exact havailable
              · rwa [Function.update_of_ne hib] at hstill

/-- Entries at distinct indices are some of the list, each at most once. -/
theorem filterMap_getElem?_subperm {α : Type} {l : List α} {picks : List ℕ}
    (hnodup : picks.Nodup) (hlt : ∀ i ∈ picks, i < l.length) :
    (picks.filterMap fun i => l[i]?).Subperm l := by
  have hall : (List.range l.length).filterMap (fun i => l[i]?) = l := by
    have hsome : (List.range l.length).map (fun i => l[i]?) = l.map some := by
      apply List.ext_getElem (by simp)
      intro k hk _
      simp at hk
      simp [hk]
    have hmap : (List.range l.length).filterMap (fun i => l[i]?) =
        ((List.range l.length).map fun i => l[i]?).filterMap id := by
      rw [List.filterMap_map]
      rfl
    rw [hmap, hsome, List.filterMap_map]
    exact List.filterMap_some
  have hpicks : picks.Subperm (List.range l.length) :=
    hnodup.subperm fun i hi => List.mem_range.mpr (hlt i hi)
  obtain ⟨picked, hperm, hsub⟩ := hpicks
  refine ⟨picked.filterMap fun i => l[i]?, hperm.filterMap _, ?_⟩
  conv_rhs => rw [← hall]
  exact hsub.filterMap _

/-- `mmr_order` keeps some of the candidates, none twice. -/
theorem mmrOrder_subperm (norm : List R → R) (ordered : List (Candidate R))
    (vectors : String → Option (List R)) (hasVectors : Bool) (diversity : R) (limit : ℕ) :
    (mmrOrder norm ordered vectors hasVectors diversity limit).Subperm ordered := by
  unfold mmrOrder
  split
  · exact (List.take_sublist _ _).subperm
  · have henough : min limit ordered.length ≤
        ((List.range ordered.length).filter fun _ => true).length := by simp
    obtain ⟨hnodup, hlt⟩ := mmrLoop_spec (fun i => ((ordered[i]?).map Candidate.final).getD 0)
      (fun i best =>
        dot (((ordered.map fun c => unitVector norm (vectors c.externalId))[i]?).getD [])
          (((ordered.map fun c => unitVector norm (vectors c.externalId))[best]?).getD []))
      (min diversity 1) (fun _ => true) (fun _ => 0) henough
    exact filterMap_getElem?_subperm hnodup fun i hi => (hlt i hi).1

end Serving
