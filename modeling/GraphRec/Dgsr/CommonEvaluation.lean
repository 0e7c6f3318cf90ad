import GraphRec.Dgsr.OwnEvents
import GraphRec.Lib.Extended
import GraphRec.Lib.Places
import GraphRec.Serving.Query
import Mathlib.Analysis.SpecialFunctions.Log.Base
import Mathlib.Data.String.Basic

/-!
# Versions compared on one set of examples

`compare` scores a candidate, the active version and a popularity baseline on the same examples,
given in external ids.

* `fair_summary` — all metrics are means over all examples, and are ordered;
* `evaluateArtifact_spec`, `evaluatePopularity_spec` — which rank an example gets;
* `compare_fair` — so much for every version of a comparison;
* `not_missed_without_history` — the baseline ranks an example whose history it does not know.
-/

namespace Dgsr

open Serving (ServedModel Encoded SourceError)

/-! ## The examples -/

/-- `CommonExample`: a shopper, what it did before and what it did next, in external ids. -/
structure CommonExample where
  user : String
  history : List (String × ℤ)
  target : String
  deriving DecidableEq, Repr

/-- `MAX_EXAMPLES`. -/
def maxExamples : ℕ := 500

/-- `common_set_from_split`; the limit is `maxExamples` unless it is given. -/
def commonSetFromSplit (data : InteractionData) (splitExamples : List Example)
    (limit : ℕ) : List CommonExample :=
  (splitExamples.take limit).filterMap fun x =>
    let events := TemporalGraph.before (data.byUser x.user) x.cutoff 0
    let history := events.map fun e => ((data.itemIds[data.item e]?).getD "", data.time e)
    if history = [] then none
    else some ⟨(data.userIds[x.user]?).getD "", history, (data.itemIds[x.target]?).getD ""⟩

/-- The history of an example is the shopper's events up to the cutoff, and not empty. -/
theorem history_of_mem_commonSet {data : InteractionData} {splitExamples : List Example}
    {limit : ℕ} {c : CommonExample} (h : c ∈ commonSetFromSplit data splitExamples limit) :
    c.history ≠ [] ∧ ∃ x ∈ splitExamples, c.history =
      ((data.byUser x.user).filter fun e => decide (e ≤ x.cutoff)).map fun e =>
        ((data.itemIds[data.item e]?).getD "", data.time e) := by
  obtain ⟨x, hx, hc⟩ := List.mem_filterMap.mp h
  have hbefore : TemporalGraph.before (data.byUser x.user) x.cutoff 0 =
      (data.byUser x.user).filter fun e => decide (e ≤ x.cutoff) := by
    rw [TemporalGraph.before_eq (data.byUser_increasing x.user)]
    rfl
  dsimp only at hc
  split at hc
  · cases hc
  · next hne =>
      cases hc
      exact ⟨hne, x, List.mem_of_mem_take hx, by rw [hbefore]⟩

/-! ## The metrics -/

/-- The result of `_summary`. -/
structure Summary where
  examples : ℕ
  hitAt1 : ℝ
  hitAt10 : ℝ
  ndcgAt10 : ℝ
  mrrAt10 : ℝ
  catalogCoverageAt10 : ℝ
  unknownTargets : ℕ

/-- What a rank adds to a hit rate. -/
def hitGain (k : ℕ) : Option ℕ → ℝ
  | some r => if r ≤ k then 1 else 0
  | none => 0

/-- What a rank adds to the discounted gain. -/
noncomputable def ndcgGain : Option ℕ → ℝ
  | some r => if r ≤ 10 then 1 / Real.logb (2 : ℕ) (r + 1) else 0
  | none => 0

/-- What a rank adds to the reciprocal rank. -/
noncomputable def mrrGain : Option ℕ → ℝ
  | some r => if r ≤ 10 then 1 / r else 0
  | none => 0

/-- `np.mean(...) if n else 0.0`. -/
noncomputable def mean (values : List ℝ) : ℝ :=
  if values.length = 0 then 0 else values.sum / values.length

/-- `_summary`. -/
noncomputable def summary (ranks : List (Option ℕ)) (recommended : Finset String)
    (catalog unknown : ℕ) : Summary where
  examples := ranks.length
  hitAt1 := mean (ranks.map (hitGain 1))
  hitAt10 := mean (ranks.map (hitGain 10))
  ndcgAt10 := mean (ranks.map ndcgGain)
  mrrAt10 := mean (ranks.map mrrGain)
  catalogCoverageAt10 := if catalog = 0 then 0 else recommended.card / catalog
  unknownTargets := unknown

/-- A summary of ranks, one for each example. -/
structure Fair (examples : List CommonExample) (ranks : List (Option ℕ)) (s : Summary) :
    Prop where
  length : ranks.length = examples.length
  count : s.examples = examples.length
  hitAt1 : s.hitAt1 = (ranks.map (hitGain 1)).sum / examples.length
  hitAt10 : s.hitAt10 = (ranks.map (hitGain 10)).sum / examples.length
  ndcgAt10 : s.ndcgAt10 = (ranks.map ndcgGain).sum / examples.length
  mrrAt10 : s.mrrAt10 = (ranks.map mrrGain).sum / examples.length
  hit_le_mrr : s.hitAt1 ≤ s.mrrAt10
  mrr_le_ndcg : s.mrrAt10 ≤ s.ndcgAt10
  ndcg_le_hit : s.ndcgAt10 ≤ s.hitAt10

section Metrics

variable {r : ℕ}

/-- A discount is at least one, and at most the rank. -/
theorem one_le_logb (h : 1 ≤ r) : 1 ≤ Real.logb (2 : ℕ) (r + 1) := by
  rw [Nat.cast_ofNat, Real.le_logb_iff_rpow_le one_lt_two (by positivity), Real.rpow_one]
  have : (1 : ℝ) ≤ r := by exact_mod_cast h
  linarith

theorem logb_le (r : ℕ) : Real.logb (2 : ℕ) (r + 1) ≤ r := by
  rw [Nat.cast_ofNat, Real.logb_le_iff_le_rpow one_lt_two (by positivity), Real.rpow_natCast]
  exact_mod_cast Nat.lt_two_pow_self

theorem hitGain_le_mrrGain (rank : Option ℕ) (h : ∀ r, rank = some r → 1 ≤ r) :
    hitGain 1 rank ≤ mrrGain rank := by
  cases rank with
  | none => exact le_rfl
  | some r =>
      have hpos := h r rfl
      by_cases hone : r ≤ 1
      · obtain rfl : r = 1 := by omega
        simp [hitGain, mrrGain]
      · rw [hitGain, if_neg hone, mrrGain]
        split <;> positivity

theorem mrrGain_le_ndcgGain (rank : Option ℕ) (h : ∀ r, rank = some r → 1 ≤ r) :
    mrrGain rank ≤ ndcgGain rank := by
  cases rank with
  | none => exact le_rfl
  | some r =>
      rw [mrrGain, ndcgGain]
      split
      · have hlog := one_le_logb (h r rfl)
        exact one_div_le_one_div_of_le (by linarith) (logb_le r)
      · exact le_rfl

theorem ndcgGain_le_hitGain (rank : Option ℕ) (h : ∀ r, rank = some r → 1 ≤ r) :
    ndcgGain rank ≤ hitGain 10 rank := by
  cases rank with
  | none => exact le_rfl
  | some r =>
      rw [ndcgGain, hitGain]
      split
      · have hlog := one_le_logb (h r rfl)
        exact (div_le_one (by linarith)).mpr hlog
      · exact le_rfl

theorem mean_eq (values : List ℝ) : mean values = values.sum / values.length := by
  rw [mean]
  split
  · next hzero => rw [hzero, Nat.cast_zero, div_zero]
  · rfl

theorem mean_map {f : Option ℕ → ℝ} {ranks : List (Option ℕ)} {n : ℕ} (h : ranks.length = n) :
    mean (ranks.map f) = (ranks.map f).sum / n := by
  rw [mean_eq, List.length_map, h]

theorem mean_map_le {f g : Option ℕ → ℝ} {ranks : List (Option ℕ)}
    (h : ∀ rank ∈ ranks, f rank ≤ g rank) : mean (ranks.map f) ≤ mean (ranks.map g) := by
  rw [mean_eq, mean_eq, List.length_map, List.length_map]
  exact div_le_div_of_nonneg_right (List.sum_le_sum h) (Nat.cast_nonneg _)

/-- **The metrics.**  One rank for each example, and none before the first place, makes a fair
summary. -/
theorem fair_summary {examples : List CommonExample} {ranks : List (Option ℕ)}
    (hlength : ranks.length = examples.length)
    (hpos : ∀ rank ∈ ranks, ∀ r, rank = some r → 1 ≤ r) (recommended : Finset String)
    (catalog unknown : ℕ) : Fair examples ranks (summary ranks recommended catalog unknown) where
  length := hlength
  count := hlength
  hitAt1 := mean_map hlength
  hitAt10 := mean_map hlength
  ndcgAt10 := mean_map hlength
  mrrAt10 := mean_map hlength
  hit_le_mrr := mean_map_le fun rank hrank => hitGain_le_mrrGain rank (hpos rank hrank)
  mrr_le_ndcg := mean_map_le fun rank hrank => mrrGain_le_ndcgGain rank (hpos rank hrank)
  ndcg_le_hit := mean_map_le fun rank hrank => ndcgGain_le_hitGain rank (hpos rank hrank)

end Metrics

/-! ## The ranks of an artifact -/

/-- What an evaluation raises. -/
inductive EvaluationError
  | encode (error : EncodeError)
  | score (error : SourceError)
  deriving DecidableEq, Repr

/-- What the loops of an evaluation collect. -/
structure Tally where
  ranks : List (Option ℕ)
  recommended : Finset String
  unknown : ℕ

variable {R : Type} [AddCommGroup R] [LinearOrder R]

/-- `score`: the excluded items are masked. -/
def maskedScores (scores : ℕ → Extended R) (exclude : Finset ℕ) (i : ℕ) : Extended R :=
  if i ∈ exclude then .negInf else scores i

/-- `lexsort((arange(n), -scores))`. -/
def scoreOrder (scores : ℕ → Extended R) (n : ℕ) : List ℕ :=
  (List.range n).insertionSort (Extended.LexLe fun i => (scores i).neg)

/-- The events of an example that a model knows. -/
def knownEvents (model : ServedModel (Extended R)) (x : CommonExample) : List HistoryEvent :=
  x.history.filterMap fun (item, time) => (model.itemIndex item).map fun i => ⟨i, time⟩

/-- What `encode_history` returns for a known history, with its sample. -/
def encodedHistory (model : ServedModel (Extended R)) (x : CommonExample) (sample : GraphSample) :
    Encoded :=
  ⟨sample, if (model.userIndex x.user).isSome then .personalized else .session,
    (model.userIndex x.user).isSome, (knownEvents model x).length⟩

/-- One round of `evaluate_artifact`. -/
def evaluateExample (model : ServedModel (Extended R)) (tally : Tally) (x : CommonExample) :
    Except EvaluationError Tally :=
  match model.itemIndex x.target with
  | none =>
      .ok { tally with ranks := tally.ranks ++ [none], unknown := tally.unknown + 1 }
  | some target =>
      if knownEvents model x = [] then .ok { tally with ranks := tally.ranks ++ [none] }
      else
        match encodeHistory model.artifact (knownEvents model x) (model.userIndex x.user) with
        | .error e => .error (.encode e)
        | .ok sample =>
            match model.score (encodedHistory model x sample) with
            | .error e => .error (.score e)
            | .ok scores =>
                let seen := ((knownEvents model x).map HistoryEvent.item).toFinset.erase target
                let masked := maskedScores scores seen
                if (masked target).isFinite = false then
                  .ok { tally with ranks := tally.ranks ++ [none] }
                else
                  let order := scoreOrder masked model.artifact.data.numItems
                  .ok {
                    ranks := tally.ranks ++ [some (order.idxOf target + 1)]
                    recommended := tally.recommended ∪
                      (((order.take 10).filter fun i => (masked i).isFinite).map fun i =>
                        (model.artifact.data.itemIds[i]?).getD "").toFinset
                    unknown := tally.unknown }

/-- The rounds of an evaluation. -/
def evaluateExamples (model : ServedModel (Extended R)) (tally : Tally) :
    List CommonExample → Except EvaluationError Tally
  | [] => .ok tally
  | x :: rest =>
      match evaluateExample model tally x with
      | .error e => .error e
      | .ok tally => evaluateExamples model tally rest

/-- `evaluate_artifact`. -/
noncomputable def evaluateArtifact (model : ServedModel (Extended R))
    (examples : List CommonExample) : Except EvaluationError Summary :=
  match evaluateExamples model ⟨[], ∅, 0⟩ examples with
  | .error e => .error e
  | .ok tally =>
      .ok (summary tally.ranks tally.recommended model.artifact.data.numItems tally.unknown)

/-- The items ahead of a target: those that are not seen and score better, or the same with a
smaller index. -/
def itemsAhead (scores : ℕ → Extended R) (seen : List ℕ) (n target : ℕ) : ℕ :=
  (List.range n).countP fun i => decide (i ∉ seen ∧
    ((scores i).gt (scores target) = true ∨ scores i = scores target ∧ i < target))

/-- What an artifact's rank of an example is. -/
structure ArtifactRank (model : ServedModel (Extended R)) (x : CommonExample)
    (rank : Option ℕ) : Prop where
  /-- An unknown target or history is a miss. -/
  miss : model.itemIndex x.target = none ∨ knownEvents model x = [] → rank = none
  /-- Any other example is encoded, without further events of the shopper, and ranked unless its
  target has no finite score. -/
  ranked : ∀ target, model.itemIndex x.target = some target → knownEvents model x ≠ [] →
    ∃ sample scores,
      encodeHistory model.artifact (knownEvents model x) (model.userIndex x.user) = .ok sample ∧
      OwnOnly model.artifact.data x.user (knownEvents model x) sample ∧
      model.score (encodedHistory model x sample) = .ok scores ∧
      rank = if (scores target).isFinite then
        some (1 + itemsAhead scores ((knownEvents model x).map HistoryEvent.item)
          model.artifact.data.numItems target) else none

section Known

variable {R : Type} {model : ServedModel (Extended R)}

theorem lt_of_itemIndex {item : String} {i : ℕ} (h : model.itemIndex item = some i) :
    i < model.artifact.data.numItems := (List.idxOf?_eq_some_iff.mp h).1

/-- The known events are over items of the artifact. -/
theorem item_lt_of_mem_knownEvents {x : CommonExample} {event : HistoryEvent}
    (h : event ∈ knownEvents model x) : event.item < model.artifact.data.numItems := by
  obtain ⟨⟨item, time⟩, -, hevent⟩ := List.mem_filterMap.mp h
  obtain ⟨i, hi, rfl⟩ := Option.map_eq_some_iff.mp hevent
  exact lt_of_itemIndex hi

end Known

section Artifacts

variable {model : ServedModel (Extended R)} {scores : ℕ → Extended R} {n target : ℕ}

omit [AddCommGroup R] in
/-- Masked items are ahead of no target. -/
theorem countP_maskedScores {y : R} {seen : List ℕ} (htarget : scores target = .finite y) :
    ((List.range n).countP fun i =>
      decide ((maskedScores scores (seen.toFinset.erase target) i).gt
          (maskedScores scores (seen.toFinset.erase target) target) = true ∨
        maskedScores scores (seen.toFinset.erase target) i =
          maskedScores scores (seen.toFinset.erase target) target ∧ i < target)) =
      itemsAhead scores seen n target := by
  have hself : maskedScores scores (seen.toFinset.erase target) target = scores target :=
    if_neg (Finset.notMem_erase _ _)
  rw [itemsAhead, hself, htarget]
  refine List.countP_congr fun i _ => ?_
  rw [decide_eq_true_eq, decide_eq_true_eq]
  by_cases hi : i ∈ seen.toFinset.erase target
  · have hseen : i ∈ seen := List.mem_toFinset.mp (Finset.mem_of_mem_erase hi)
    rw [maskedScores, if_pos hi]
    exact iff_of_false (by simp [Extended.gt_finite_iff, Extended.key]) fun h => h.1 hseen
  · rw [maskedScores, if_neg hi]
    refine ⟨fun h => ⟨fun hseen => ?_, h⟩, And.right⟩
    -- A seen item that is not masked is the target.
    obtain rfl : i = target := by
      by_contra hne
      exact hi (Finset.mem_erase.mpr ⟨hne, List.mem_toFinset.mpr hseen⟩)
    rcases h with hgt | ⟨-, hlt⟩
    · rw [htarget, Extended.gt_finite_iff] at hgt
      exact lt_irrefl _ hgt.2
    · exact lt_irrefl _ hlt

variable [IsOrderedAddMonoid R]

/-- Sorting by negated scores puts an item before a target with a finite score just when its
score is greater, or the same with a smaller index. -/
theorem lexLe_iff {y : R} (htarget : scores target = .finite y) (i : ℕ) :
    i ≠ target ∧ Extended.LexLe (fun i => (scores i).neg) i target ↔
      (scores i).gt (scores target) = true ∨ scores i = scores target ∧ i < target := by
  have hkey : Extended.LexLe (fun i => (scores i).neg) i target ↔
      ((scores i).neg.key < (scores target).neg.key ∨
        (scores i).neg.key = (scores target).neg.key ∧ i ≤ target) := Iff.rfl
  rw [hkey, htarget, Extended.key_neg_lt_iff, Extended.key_neg_eq_iff]
  constructor
  · rintro ⟨hne, hgt | ⟨heq, hle⟩⟩
    · exact .inl hgt
    · exact .inr ⟨heq, lt_of_le_of_ne hle hne⟩
  · rintro (hgt | ⟨heq, hlt⟩)
    · refine ⟨?_, .inl hgt⟩
      rintro rfl
      rw [htarget, Extended.gt_finite_iff] at hgt
      exact lt_irrefl _ hgt.2
    · exact ⟨hlt.ne, .inr ⟨heq, hlt.le⟩⟩

/-- The place of a target in the order of the scores. -/
theorem idxOf_scoreOrder {y : R} (htarget : scores target = .finite y) (hlt : target < n) :
    (scoreOrder scores n).idxOf target = (List.range n).countP fun i =>
      decide ((scores i).gt (scores target) = true ∨ scores i = scores target ∧ i < target) := by
  have hperm : (scoreOrder scores n).Perm (List.range n) := List.perm_insertionSort _ _
  have hantisymm : Std.Antisymm (Extended.LexLe fun i => (scores i).neg) :=
    TopK.antisymm_better Function.injective_id
  have hsorted : (scoreOrder scores n).Pairwise (Extended.LexLe fun i => (scores i).neg) :=
    List.pairwise_insertionSort _ _
  rw [Places.idxOf_eq_countP hsorted (hperm.nodup_iff.mpr List.nodup_range) (hperm.mem_iff.mpr (List.mem_range.mpr hlt))
    fun i _ hne hto hfrom => hne (hantisymm.antisymm _ _ hfrom hto), hperm.countP_eq]
  refine List.countP_congr fun i _ => ?_
  rw [decide_eq_true_eq, decide_eq_true_eq]
  exact lexLe_iff htarget i

/-- **One round.**  An example adds its rank, whatever becomes of it. -/
theorem evaluateExample_spec (hnodup : model.artifact.data.userIds.Nodup) {tally tally' : Tally}
    {x : CommonExample} (h : evaluateExample model tally x = .ok tally') :
    ∃ rank, tally'.ranks = tally.ranks ++ [rank] ∧ ArtifactRank model x rank := by
  unfold evaluateExample at h
  split at h
  · next hunknown =>
      cases h
      exact ⟨none, rfl, fun _ => rfl, fun target htarget => absurd (hunknown.symm.trans htarget)
        (by simp)⟩
  · next target htarget =>
      split at h
      · next hempty =>
          cases h
          exact ⟨none, rfl, fun _ => rfl, fun _ _ hne => absurd hempty hne⟩
      · next hne =>
          have hmiss : ∀ rank, model.itemIndex x.target = none ∨ knownEvents model x = [] →
              rank = (none : Option ℕ) := by
            rintro _ (hnone | hempty)
            · exact absurd (hnone.symm.trans htarget) (by simp)
            · exact absurd hempty hne
          split at h
          · cases h
          · next sample hsample =>
              have hown := ownOnly_of_encode hnodup
                (fun event hevent => item_lt_of_mem_knownEvents hevent) hsample
              split at h
              · cases h
              · next scores hscores =>
                  have hself : maskedScores scores (((knownEvents model x).map
                      HistoryEvent.item).toFinset.erase target) target = scores target :=
                    if_neg (Finset.notMem_erase _ _)
                  dsimp only at h
                  rw [hself] at h
                  split at h
                  · next hinfinite =>
                      cases h
                      refine ⟨none, rfl, hmiss none, fun target' htarget' _ => ?_⟩
                      obtain rfl := Option.some.inj (htarget.symm.trans htarget')
                      exact ⟨sample, scores, hsample, hown, hscores, by rw [hinfinite]; rfl⟩
                  · next hfinite =>
                      rw [Bool.not_eq_false] at hfinite
                      obtain ⟨y, hy⟩ := Extended.isFinite_iff.mp hfinite
                      cases h
                      refine ⟨_, rfl, hmiss _, fun target' htarget' _ => ?_⟩
                      obtain rfl := Option.some.inj (htarget.symm.trans htarget')
                      refine ⟨sample, scores, hsample, hown, hscores, ?_⟩
                      rw [if_pos hfinite, idxOf_scoreOrder (hself.trans hy)
                        (lt_of_itemIndex htarget), countP_maskedScores hy, Nat.add_comm]

/-- All rounds. -/
theorem evaluateExamples_spec (hnodup : model.artifact.data.userIds.Nodup)
    {examples : List CommonExample} {tally tally' : Tally}
    (h : evaluateExamples model tally examples = .ok tally') :
    ∃ ranks, tally'.ranks = tally.ranks ++ ranks ∧
      List.Forall₂ (ArtifactRank model) examples ranks := by
  induction examples generalizing tally with
  | nil =>
      cases h
      exact ⟨[], (List.append_nil _).symm, .nil⟩
  | cons x examples ih =>
      rw [evaluateExamples] at h
      split at h
      · cases h
      · next mid hmid =>
          obtain ⟨rank, hrank, hspec⟩ := evaluateExample_spec hnodup hmid
          obtain ⟨ranks, hranks, hrest⟩ := ih h
          exact ⟨rank :: ranks, by rw [hranks, hrank, List.append_assoc]; rfl, .cons hspec hrest⟩

end Artifacts

/-! ## The popularity baseline -/

/-- `ranking`: the catalogue by the number of interactions, then by id. -/
def popularityRanking (trainItems catalog : List String) : List String :=
  catalog.insertionSort (TopK.Better (fun item => trainItems.count item) id)

/-- The rank that the baseline gives. -/
def popularityRank (ranking : List String) (x : CommonExample) : Option ℕ :=
  let order := ranking.filter fun item =>
    decide (item ∉ ((x.history.map Prod.fst).toFinset.erase x.target))
  if x.target ∈ order then some (order.idxOf x.target + 1) else none

/-- One round of `evaluate_popularity`. -/
def popularityExample (ranking : List String) (tally : Tally) (x : CommonExample) : Tally :=
  let order := ranking.filter fun item =>
    decide (item ∉ ((x.history.map Prod.fst).toFinset.erase x.target))
  { tally with
    ranks := tally.ranks ++ [popularityRank ranking x]
    recommended := tally.recommended ∪ (order.take 10).toFinset }

/-- `evaluate_popularity`. -/
noncomputable def evaluatePopularity (trainItems catalog : List String)
    (examples : List CommonExample) : Summary :=
  let tally := examples.foldl (popularityExample (popularityRanking trainItems catalog)) ⟨[], ∅, 0⟩
  summary tally.ranks tally.recommended catalog.length
    (examples.countP fun x => decide (x.target ∉ catalog))

/-- The items ahead of a target: those of the catalogue that are not seen and occur more often, or
as often with a smaller id. -/
def popularAhead (trainItems catalog seen : List String) (target : String) : ℕ :=
  catalog.countP fun item => decide (item ∉ seen ∧
    (trainItems.count target < trainItems.count item ∨
      trainItems.count item = trainItems.count target ∧ item < target))

/-- What the baseline's rank of an example is. -/
def PopularityRank (trainItems catalog : List String) (x : CommonExample) (rank : Option ℕ) :
    Prop :=
  rank = if x.target ∈ catalog then
    some (1 + popularAhead trainItems catalog (x.history.map Prod.fst) x.target) else none

section Popularity

variable {trainItems catalog : List String}

theorem popularityRank_spec (hnodup : catalog.Nodup) (x : CommonExample) :
    PopularityRank trainItems catalog x
      (popularityRank (popularityRanking trainItems catalog) x) := by
  have hperm : (popularityRanking trainItems catalog).Perm catalog := List.perm_insertionSort _ _
  have hantisymm : Std.Antisymm (TopK.Better (fun item => trainItems.count item)
      (id : String → String)) := TopK.antisymm_better Function.injective_id
  have hsorted : (popularityRanking trainItems catalog).Pairwise
      (TopK.Better (fun item => trainItems.count item) id) := List.pairwise_insertionSort _ _
  have hself : x.target ∉ (x.history.map Prod.fst).toFinset.erase x.target :=
    Finset.notMem_erase _ _
  rw [PopularityRank, popularityRank]
  by_cases htarget : x.target ∈ catalog
  · have hmem : x.target ∈ (popularityRanking trainItems catalog).filter fun item =>
        decide (item ∉ (x.history.map Prod.fst).toFinset.erase x.target) :=
      List.mem_filter.mpr ⟨hperm.mem_iff.mpr htarget, decide_eq_true hself⟩
    rw [if_pos hmem, if_pos htarget, Places.idxOf_eq_countP (hsorted.filter _)
      ((hperm.nodup_iff.mpr hnodup).filter _) hmem
      fun item _ hne hto hfrom => hne (hantisymm.antisymm _ _ hfrom hto), List.countP_filter,
      hperm.countP_eq, Nat.add_comm, popularAhead]
    congr 2
    refine List.countP_congr fun item _ => ?_
    have hbetter : TopK.Better (fun item => trainItems.count item) id item x.target ↔
        (trainItems.count x.target < trainItems.count item ∨
          trainItems.count item = trainItems.count x.target ∧ item ≤ x.target) := Iff.rfl
    simp only [Bool.and_eq_true, decide_eq_true_eq, hbetter, Finset.mem_erase, List.mem_toFinset,
      not_and]
    constructor
    · rintro ⟨⟨hne, hbefore⟩, hunseen⟩
      exact ⟨hunseen hne, hbefore.imp_right fun h => ⟨h.1, lt_of_le_of_ne h.2 hne⟩⟩
    · rintro ⟨hunseen, hbefore⟩
      refine ⟨⟨?_, hbefore.imp_right fun h => ⟨h.1, h.2.le⟩⟩, fun _ => hunseen⟩
      rintro rfl
      rcases hbefore with hlt | ⟨-, hlt⟩
      · exact lt_irrefl _ hlt
      · exact lt_irrefl _ hlt
  · rw [if_neg htarget, if_neg fun h => htarget (hperm.mem_iff.mp (List.mem_filter.mp h).1)]

/-- The rounds of the baseline. -/
theorem ranks_foldl_popularityExample (ranking : List String) (examples : List CommonExample)
    (tally : Tally) : (examples.foldl (popularityExample ranking) tally).ranks =
      tally.ranks ++ examples.map (popularityRank ranking) := by
  induction examples generalizing tally with
  | nil => exact (List.append_nil _).symm
  | cons x examples ih =>
      rw [List.foldl_cons, ih, popularityExample, List.append_assoc]
      rfl

/-- **The baseline.** -/
theorem evaluatePopularity_spec (hnodup : catalog.Nodup) (examples : List CommonExample) :
    ∃ ranks, Fair examples ranks (evaluatePopularity trainItems catalog examples) ∧
      List.Forall₂ (PopularityRank trainItems catalog) examples ranks := by
  have hranks := ranks_foldl_popularityExample (popularityRanking trainItems catalog) examples
    ⟨[], ∅, 0⟩
  rw [List.nil_append] at hranks
  refine ⟨examples.map (popularityRank (popularityRanking trainItems catalog)), ?_, ?_⟩
  · unfold evaluatePopularity
    dsimp only
    rw [hranks]
    refine fair_summary (List.length_map _) ?_ _ _ _
    intro rank hrank r hr
    obtain ⟨x, -, rfl⟩ := List.mem_map.mp hrank
    rw [popularityRank_spec hnodup x] at hr
    split at hr
    · obtain rfl := Option.some.inj hr
      omega
    · cases hr
  · rw [List.forall₂_map_right_iff]
    exact List.forall₂_same.mpr fun x _ => popularityRank_spec hnodup x

end Popularity

/-! ## Comparisons -/

/-- `PROTOCOL`. -/
def protocol : String :=
  "Common set: the candidate's chronological held-out test examples in external ids; " ++
    "full catalog; observed prefix excluded; each version scored through its serving encoder; " ++
    "an unknown target counts as a miss."

/-- The result of `compare`. -/
structure Comparison where
  protocol : String
  examples : ℕ
  candidate : Summary
  popularityBaseline : Summary
  active : Option (Option String × Summary)
  ndcg10DeltaVsActive : Option ℝ

/-- `compare`. -/
noncomputable def compare (candidate : ServedModel (Extended R)) (examples : List CommonExample)
    (trainItems : List String) (active : Option (ServedModel (Extended R)))
    (activeVersionId : Option String) : Except EvaluationError Comparison :=
  match evaluateArtifact candidate examples with
  | .error e => .error e
  | .ok summary =>
      let result : Comparison := {
        protocol := protocol
        examples := examples.length
        candidate := summary
        popularityBaseline :=
          evaluatePopularity trainItems candidate.artifact.data.itemIds examples
        active := none
        ndcg10DeltaVsActive := none }
      match active with
      | none => .ok result
      | some model =>
          match evaluateArtifact model examples with
          | .error e => .error e
          | .ok other =>
              .ok { result with
                active := some (activeVersionId, other)
                ndcg10DeltaVsActive := some (summary.ndcgAt10 - other.ndcgAt10) }

section Compare

variable [IsOrderedAddMonoid R]

omit [AddCommGroup R] [IsOrderedAddMonoid R] in
/-- No rank is before the first place. -/
theorem ArtifactRank.pos {model : ServedModel (Extended R)} {x : CommonExample}
    {rank : Option ℕ} (h : ArtifactRank model x rank) {r : ℕ} (hr : rank = some r) : 1 ≤ r := by
  subst hr
  cases htarget : model.itemIndex x.target with
  | none => cases h.miss (.inl htarget)
  | some target =>
      by_cases hempty : knownEvents model x = []
      · cases h.miss (.inr hempty)
      · obtain ⟨_, _, -, -, -, hrank⟩ := h.ranked target htarget hempty
        split at hrank
        · obtain rfl := Option.some.inj hrank
          omega
        · cases hrank

/-- **An artifact.** -/
theorem evaluateArtifact_spec {model : ServedModel (Extended R)} {examples : List CommonExample}
    (hnodup : model.artifact.data.userIds.Nodup) {s : Summary}
    (h : evaluateArtifact model examples = .ok s) :
    ∃ ranks, Fair examples ranks s ∧ List.Forall₂ (ArtifactRank model) examples ranks := by
  unfold evaluateArtifact at h
  split at h
  · cases h
  · next tally htally =>
      cases h
      obtain ⟨ranks, hranks, hspec⟩ := evaluateExamples_spec hnodup htally
      rw [List.nil_append] at hranks
      refine ⟨ranks, ?_, hspec⟩
      rw [hranks]
      refine fair_summary hspec.length_eq.symm ?_ _ _ _
      intro rank hrank r hr
      obtain ⟨k, hk, rfl⟩ := List.mem_iff_getElem.mp hrank
      have hk' : k < examples.length := hspec.length_eq ▸ hk
      exact ((List.forall₂_iff_get.mp hspec).2 k hk' hk).pos hr

/-- **Fair comparisons.**  In every comparison each version has a fair summary of one rank for
each example, and the ranks are as they should be. -/
theorem compare_fair {candidate : ServedModel (Extended R)} {examples : List CommonExample}
    {trainItems : List String} {active : Option (ServedModel (Extended R))}
    {activeVersionId : Option String}
    (hitems : candidate.artifact.data.itemIds.Nodup)
    (husers : candidate.artifact.data.userIds.Nodup)
    (hactive : ∀ model ∈ active, model.artifact.data.userIds.Nodup) {c : Comparison}
    (h : compare candidate examples trainItems active activeVersionId = .ok c) :
    c.examples = examples.length ∧
    (∃ ranks, Fair examples ranks c.candidate ∧
      List.Forall₂ (ArtifactRank candidate) examples ranks) ∧
    (∃ ranks, Fair examples ranks c.popularityBaseline ∧
      List.Forall₂ (PopularityRank trainItems candidate.artifact.data.itemIds) examples ranks) ∧
    ∀ model ∈ active, ∃ s, c.active = some (activeVersionId, s) ∧
      ∃ ranks, Fair examples ranks s ∧ List.Forall₂ (ArtifactRank model) examples ranks := by
  unfold compare at h
  split at h
  · cases h
  · next summary hsummary =>
      have hcandidate := evaluateArtifact_spec husers hsummary
      have hbaseline : ∃ ranks,
          Fair examples ranks (evaluatePopularity trainItems candidate.artifact.data.itemIds
            examples) ∧
          List.Forall₂ (PopularityRank trainItems candidate.artifact.data.itemIds) examples ranks :=
        evaluatePopularity_spec hitems examples
      dsimp only at h
      split at h
      · cases h
        exact ⟨rfl, hcandidate, hbaseline, fun _ hmodel => by cases hmodel⟩
      · next model =>
          split at h
          · cases h
          · next other hother =>
              cases h
              refine ⟨rfl, hcandidate, hbaseline, fun model' hmodel => ?_⟩
              obtain rfl := Option.some.inj hmodel
              exact ⟨other, rfl, evaluateArtifact_spec (hactive model rfl) hother⟩

end Compare

/-! ## A small comparison -/

/-- The small table served with the same scores for every shopper, two of them equal. -/
def smallModel : ServedModel (Extended ℤ) where
  artifact := smallArtifact
  score _ := .ok fun i => .finite (if i = 1 then 0 else 3)
  unitItems _ := []

/-- Two shoppers; the model knows neither the second one nor its history. -/
def smallExamples : List CommonExample :=
  [⟨"ada", [("y", 10), ("w", 11)], "z"⟩, ⟨"eve", [("w", 12)], "x"⟩]

/-- The tied item with the smaller index is ahead of the first target, and the second is missed. -/
theorem evaluateExamples_small : ∃ tally,
    evaluateExamples smallModel ⟨[], ∅, 0⟩ smallExamples = .ok tally ∧
      tally.ranks = [some 2, none] := by
  have hranks : ((evaluateExamples smallModel ⟨[], ∅, 0⟩ smallExamples).map Tally.ranks).toOption =
      some [some 2, none] := by decide +kernel
  cases htally : evaluateExamples smallModel ⟨[], ∅, 0⟩ smallExamples with
  | error e =>
      rw [htally] at hranks
      cases hranks
  | ok tally =>
      rw [htally] at hranks
      exact ⟨tally, rfl, Option.some.inj hranks⟩

/-- The comparison of that model with itself. -/
theorem compare_fair_small : ∃ c,
    compare smallModel smallExamples ["x", "z", "z"] (some smallModel) (some "v1") = .ok c ∧
    c.examples = 2 ∧
    (∃ ranks, Fair smallExamples ranks c.candidate ∧
      List.Forall₂ (ArtifactRank smallModel) smallExamples ranks) ∧
    (∃ ranks, Fair smallExamples ranks c.popularityBaseline ∧
      List.Forall₂ (PopularityRank ["x", "z", "z"] ["x", "y", "z"]) smallExamples ranks) ∧
    ∀ model ∈ some smallModel, ∃ s, c.active = some (some "v1", s) ∧
      ∃ ranks, Fair smallExamples ranks s ∧
        List.Forall₂ (ArtifactRank model) smallExamples ranks := by
  obtain ⟨tally, htally, -⟩ := evaluateExamples_small
  have hartifact : evaluateArtifact smallModel smallExamples =
      .ok (summary tally.ranks tally.recommended 3 tally.unknown) := by
    rw [evaluateArtifact, htally]
    rfl
  have hcompare : ∃ c,
      compare smallModel smallExamples ["x", "z", "z"] (some smallModel) (some "v1") = .ok c := by
    simp only [compare, hartifact]
    exact ⟨_, rfl⟩
  obtain ⟨c, hc⟩ := hcompare
  refine ⟨c, hc, compare_fair (by decide) (by decide) ?_ hc⟩
  intro model hmodel
  obtain rfl := Option.some.inj hmodel
  decide

/-- The baseline ranks an example of whose history it knows nothing. -/
theorem not_missed_without_history :
    ¬ ∀ (trainItems catalog : List String) (examples : List CommonExample), catalog.Nodup →
      List.Forall₂ (fun x rank =>
          (x.target ∉ catalog ∨ ∀ pair ∈ x.history, pair.1 ∉ catalog) → rank = none) examples
        (examples.foldl (popularityExample (popularityRanking trainItems catalog))
          ⟨[], ∅, 0⟩).ranks := by
  intro hall
  have hmissed := hall ["a"] ["a"] [⟨"u1", [("z", 1)], "a"⟩] (by decide)
  have hranks : ([⟨"u1", [("z", 1)], "a"⟩].foldl (popularityExample (popularityRanking ["a"] ["a"]))
      ⟨[], ∅, 0⟩).ranks = [some 1] := by decide +kernel
  rw [hranks] at hmissed
  cases hmissed with
  | cons hmiss _ => cases hmiss (.inr (by decide))

end Dgsr
