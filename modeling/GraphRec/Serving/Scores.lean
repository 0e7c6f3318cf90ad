import GraphRec.Lib.Percentile
import GraphRec.Lib.Places
import GraphRec.Serving.Ranking
import Mathlib.Algebra.Field.Rat
import Mathlib.Algebra.Order.Ring.Rat
import Mathlib.Tactic.NormNum

/-!
# Combined scores

`percentile_ranks` maps every value to its standing among the values (`percentileRanks_eq`), so that
`combine_scores` gives a candidate the standings of its model score and of its popularity, and an
item without a model score half of the latter (`modelNorm_withScores`).

`combineScores_monotone` — final scores are in `[0, 1]` and grow with what a candidate has;
`belowMedian_iff` — when the items without a model score stay below the median of the others, which
they do not always (`not_belowMedian`).
-/

namespace Serving

open Percentile Places

variable {R : Type} [Field R] [LinearOrder R]

/-! ## Standings -/

/-- **Percentile ranks** are standings. -/
theorem percentileRanks_eq (values : List (String × R)) :
    percentileRanks values =
      values.map fun row => (row.1, standing (values.map Prod.snd) row.2) := by
  have hlength := length_distinct (values.map Prod.snd)
  unfold percentileRanks
  dsimp only
  rw [distinct] at hlength
  rw [hlength]
  split
  · next hone =>
      refine List.map_congr_left fun row _ => ?_
      rw [standing, if_pos hone]
  · next hmany =>
      refine List.map_congr_left fun row hrow => ?_
      have hplace := idxOf_distinct (List.mem_map_of_mem (f := Prod.snd) hrow)
      rw [distinct] at hplace
      rw [standing, if_neg hmany, hplace]

/-- A key is found with its standing. -/
theorem lookup_percentileRanks {values : List (String × R)} (hnodup : (values.map Prod.fst).Nodup)
    {key : String} {value : R} (h : (key, value) ∈ values) :
    (percentileRanks values).lookup key = some (standing (values.map Prod.snd) value) := by
  rw [percentileRanks_eq]
  refine lookup_of_mem ?_ (List.mem_map_of_mem h)
  rwa [List.map_map]

theorem lookup_percentileRanks_none {values : List (String × R)} {key : String}
    (h : key ∉ values.map Prod.fst) : (percentileRanks values).lookup key = none := by
  rw [percentileRanks_eq, List.lookup_eq_none_iff]
  intro row hrow
  obtain ⟨row, hmem, rfl⟩ := List.mem_map.mp hrow
  have hne : key ≠ row.1 := fun heq => h (heq ▸ List.mem_map_of_mem hmem)
  simpa using hne

/-! ## Candidates with their scores -/

/-- The scores of the candidates that the model knows. -/
def knownScores (candidates : List (Candidate R)) : List R :=
  candidates.filterMap Candidate.modelScore

def popularities (candidates : List (Candidate R)) : List R := candidates.map Candidate.popularity

/-- `has_popularity`. -/
def hasPopularity (candidates : List (Candidate R)) : Bool :=
  candidates.any fun c => decide (c.popularity ≠ 0)

/-- The number of sources that count as independent. -/
def Candidate.sourceCount {R : Type} (c : Candidate R) : ℕ :=
  (c.sources.filter fun s => decide (s ≠ .lastGood)).length

/-- `agreement`. -/
def Candidate.agreementOf (c : Candidate R) : R :=
  min (((c.sourceCount - 1 : ℕ) : R) / (agreementFull - 1)) 1

/-- `model`: the ids that the model knows, with their scores. -/
def modelRows (candidates : List (Candidate R)) : List (String × R) :=
  candidates.filterMap fun c => c.modelScore.map fun score => (c.externalId, score)

/-- What `combine_scores` makes of one of the candidates. -/
def withScores (candidates : List (Candidate R)) (c : Candidate R) : Candidate R :=
  let popularityNorm := if hasPopularity candidates then
    ((percentileRanks (candidates.map fun c => (c.externalId, c.popularity))).lookup
      c.externalId).getD 0 else 0
  let modelNorm := ((percentileRanks (modelRows candidates)).lookup c.externalId).getD
    (1 / (2 : ℕ) * popularityNorm)
  { c with
    popularityNorm := popularityNorm
    modelNorm := modelNorm
    agreement := c.agreementOf
    final := weightModel * modelNorm + weightPopularity * popularityNorm +
      weightAgreement * c.agreementOf }

/-- The candidates are scored one by one. -/
theorem combineScores_eq (candidates : List (Candidate R)) :
    combineScores candidates = candidates.map (withScores candidates) := rfl

section Norms

variable {candidates : List (Candidate R)} {c : Candidate R}

omit [Field R] [LinearOrder R] in
theorem map_snd_modelRows (candidates : List (Candidate R)) :
    (modelRows candidates).map Prod.snd = knownScores candidates := by
  rw [modelRows, knownScores, List.map_filterMap]
  congr 1
  funext c
  cases c.modelScore <;> rfl

omit [Field R] [LinearOrder R] in
theorem mem_modelRows {key : String} {score : R} : (key, score) ∈ modelRows candidates ↔
    ∃ c ∈ candidates, c.modelScore = some score ∧ c.externalId = key := by
  rw [modelRows, List.mem_filterMap]
  constructor
  · rintro ⟨c, hc, heq⟩
    obtain ⟨score', hscore, heq⟩ := Option.map_eq_some_iff.mp heq
    cases heq
    exact ⟨c, hc, hscore, rfl⟩
  · rintro ⟨c, hc, hscore, rfl⟩
    exact ⟨c, hc, by rw [hscore]; rfl⟩

omit [Field R] [LinearOrder R] in
theorem nodup_modelRows (hids : (ids candidates).Nodup) :
    ((modelRows candidates).map Prod.fst).Nodup := by
  have hsub : ((modelRows candidates).map Prod.fst).Sublist (ids candidates) := by
    have hkeys : (modelRows candidates).map Prod.fst =
        (candidates.filter fun c => c.modelScore.isSome).map Candidate.externalId := by
      rw [modelRows, List.map_filterMap, ← List.filterMap_eq_map, List.filterMap_filter]
      congr 1
      funext c
      cases c.modelScore <;> simp
    rw [hkeys]
    exact (List.filter_sublist).map _
  exact hids.sublist hsub

/-- The popularity of a candidate counts by its standing. -/
theorem popularityNorm_withScores (hids : (ids candidates).Nodup) (hc : c ∈ candidates) :
    (withScores candidates c).popularityNorm =
      if hasPopularity candidates then standing (popularities candidates) c.popularity else 0 := by
  have hkeys : ((candidates.map fun c => (c.externalId, c.popularity)).map Prod.fst).Nodup := by
    rwa [List.map_map]
  have hmem : (c.externalId, c.popularity) ∈
      candidates.map fun c => (c.externalId, c.popularity) := List.mem_map.mpr ⟨c, hc, rfl⟩
  have hlookup := lookup_percentileRanks hkeys hmem
  rw [List.map_map] at hlookup
  rw [withScores]
  dsimp only
  rw [hlookup]
  rfl

/-- **The model norm** of a candidate. -/
theorem modelNorm_withScores (hids : (ids candidates).Nodup) (hc : c ∈ candidates) :
    (withScores candidates c).modelNorm =
      match c.modelScore with
      | some score => standing (knownScores candidates) score
      | none => 1 / 2 * (withScores candidates c).popularityNorm := by
  cases hscore : c.modelScore with
  | some score =>
      have hlookup := lookup_percentileRanks (nodup_modelRows hids)
        (mem_modelRows.mpr ⟨c, hc, hscore, rfl⟩)
      rw [map_snd_modelRows] at hlookup
      rw [withScores]
      dsimp only
      rw [hlookup, Option.getD_some]
  | none =>
      have hnot : c.externalId ∉ (modelRows candidates).map Prod.fst := by
        intro hmem
        obtain ⟨⟨key, score⟩, hrow, heq⟩ := List.mem_map.mp hmem
        obtain ⟨c', hc', hscore', hkey⟩ := mem_modelRows.mp hrow
        have hsame : c' = c := List.inj_on_of_nodup_map hids hc' hc (hkey.trans heq)
        rw [hsame, hscore] at hscore'
        cases hscore'
      rw [withScores]
      dsimp only
      rw [lookup_percentileRanks_none hnot, Option.getD_none, Nat.cast_ofNat]

end Norms

/-! ## Bounds and monotonicity -/

section Monotone

variable [IsStrictOrderedRing R] {candidates : List (Candidate R)} {a b c : Candidate R}

theorem weights_pos :
    0 < (weightModel : R) ∧ 0 < (weightPopularity : R) ∧ 0 < (weightAgreement : R) := by
  refine ⟨?_, ?_, ?_⟩
  · norm_num [weightModel]
  · norm_num [weightPopularity]
  · norm_num [weightAgreement]

theorem weights_sum : (weightModel + weightPopularity + weightAgreement : R) = 1 := by
  norm_num [weightModel, weightPopularity, weightAgreement]

theorem agreementOf_mem (c : Candidate R) : 0 ≤ c.agreementOf ∧ c.agreementOf ≤ 1 := by
  have hfull : (0 : R) ≤ agreementFull - 1 := by norm_num [agreementFull]
  exact ⟨le_min (div_nonneg (Nat.cast_nonneg _) hfull) zero_le_one, min_le_right _ _⟩

/-- More sources agree at least as much. -/
theorem agreementOf_le (h : b.sourceCount ≤ a.sourceCount) : b.agreementOf ≤ a.agreementOf := by
  have hfull : (0 : R) ≤ agreementFull - 1 := by norm_num [agreementFull]
  refine min_le_min_right _ (div_le_div_of_nonneg_right (Nat.cast_le.mpr ?_) hfull)
  omega

theorem popularityNorm_mem (hids : (ids candidates).Nodup) (hc : c ∈ candidates) :
    0 ≤ (withScores candidates c).popularityNorm ∧
      (withScores candidates c).popularityNorm ≤ 1 := by
  rw [popularityNorm_withScores hids hc]
  split
  · exact ⟨standing_nonneg _ _, standing_le_one (List.mem_map_of_mem hc)⟩
  · exact ⟨le_rfl, zero_le_one⟩

theorem popularityNorm_le (hids : (ids candidates).Nodup) (ha : a ∈ candidates)
    (hb : b ∈ candidates) (h : b.popularity ≤ a.popularity) :
    (withScores candidates b).popularityNorm ≤ (withScores candidates a).popularityNorm := by
  rw [popularityNorm_withScores hids ha, popularityNorm_withScores hids hb]
  split
  · exact standing_le_standing (List.mem_map_of_mem hb) (List.mem_map_of_mem ha) h
  · exact le_rfl

theorem modelNorm_mem (hids : (ids candidates).Nodup) (hc : c ∈ candidates) :
    0 ≤ (withScores candidates c).modelNorm ∧ (withScores candidates c).modelNorm ≤ 1 := by
  obtain ⟨hnonneg, hle⟩ := popularityNorm_mem hids hc
  rw [modelNorm_withScores hids hc]
  cases hscore : c.modelScore with
  | some score =>
      exact ⟨standing_nonneg _ _, standing_le_one (List.mem_filterMap.mpr ⟨c, hc, hscore⟩)⟩
  | none =>
      have hhalf : (0 : R) ≤ 1 / 2 := by norm_num
      have hhalf' : (1 / 2 : R) ≤ 1 := by norm_num
      exact ⟨mul_nonneg hhalf hnonneg, mul_le_one₀ hhalf' hnonneg hle⟩

/-- The weighted mean of three parts. -/
theorem final_mem (hids : (ids candidates).Nodup) (hc : c ∈ candidates) :
    0 ≤ (withScores candidates c).final ∧ (withScores candidates c).final ≤ 1 := by
  obtain ⟨hmodel, hpopularity, hagreement⟩ := weights_pos (R := R)
  obtain ⟨hm, hm'⟩ := modelNorm_mem hids hc
  obtain ⟨hp, hp'⟩ := popularityNorm_mem hids hc
  obtain ⟨ha, ha'⟩ := agreementOf_mem c
  have hfinal : (withScores candidates c).final =
      weightModel * (withScores candidates c).modelNorm +
        weightPopularity * (withScores candidates c).popularityNorm +
        weightAgreement * c.agreementOf := rfl
  rw [hfinal]
  refine ⟨add_nonneg (add_nonneg (mul_nonneg hmodel.le hm) (mul_nonneg hpopularity.le hp))
    (mul_nonneg hagreement.le ha), ?_⟩
  rw [← weights_sum]
  exact add_le_add (add_le_add (mul_le_of_le_one_right hmodel.le hm')
    (mul_le_of_le_one_right hpopularity.le hp')) (mul_le_of_le_one_right hagreement.le ha')

/-- A candidate that is at least as good in everything has at least the score. -/
theorem final_le (hids : (ids candidates).Nodup) (ha : a ∈ candidates) (hb : b ∈ candidates)
    {x y : R} (hx : a.modelScore = some x) (hy : b.modelScore = some y) (hscore : y ≤ x)
    (hpopularity : b.popularity ≤ a.popularity) (hsources : b.sourceCount ≤ a.sourceCount) :
    (withScores candidates b).final ≤ (withScores candidates a).final ∧
      (y < x → (withScores candidates b).final < (withScores candidates a).final) := by
  obtain ⟨hmodel, hpop, hagree⟩ := weights_pos (R := R)
  have hxmem : x ∈ knownScores candidates := List.mem_filterMap.mpr ⟨a, ha, hx⟩
  have hymem : y ∈ knownScores candidates := List.mem_filterMap.mpr ⟨b, hb, hy⟩
  have hma := modelNorm_withScores hids ha
  have hmb := modelNorm_withScores hids hb
  rw [hx] at hma
  rw [hy] at hmb
  have hp : weightPopularity * (withScores candidates b).popularityNorm ≤
      weightPopularity * (withScores candidates a).popularityNorm :=
    mul_le_mul_of_nonneg_left (popularityNorm_le hids ha hb hpopularity) hpop.le
  have hs : weightAgreement * b.agreementOf ≤ weightAgreement * a.agreementOf :=
    mul_le_mul_of_nonneg_left (agreementOf_le hsources) hagree.le
  constructor
  · have hm : weightModel * (withScores candidates b).modelNorm ≤
        weightModel * (withScores candidates a).modelNorm := by
      rw [hma, hmb]
      exact mul_le_mul_of_nonneg_left (standing_le_standing hymem hxmem hscore) hmodel.le
    exact add_le_add (add_le_add hm hp) hs
  · intro hlt
    have hm : weightModel * (withScores candidates b).modelNorm <
        weightModel * (withScores candidates a).modelNorm := by
      rw [hma, hmb]
      exact mul_lt_mul_of_pos_left (strictMonoOn_standing _ hymem hxmem hlt) hmodel
    exact add_lt_add_of_lt_of_le (add_lt_add_of_lt_of_le hm hp) hs

/-- **Combining scores is monotone and bounded.**  Percentile ranks are a strictly monotone function
of the values into `[0, 1]`, with 1 for the largest; final scores are in `[0, 1]`; and of two
candidates that the model knows the one that is at least as good in model score, popularity and
number of sources has at least the final score, and more with a better model score. -/
theorem combineScores_monotone (candidates : List (Candidate R)) (hids : (ids candidates).Nodup) :
    (∀ values : List (String × R), ∃ f : R → R,
      percentileRanks values = values.map (fun row => (row.1, f row.2)) ∧
        StrictMonoOn f { v | v ∈ values.map Prod.snd } ∧
        (∀ v ∈ values.map Prod.snd, 0 ≤ f v ∧ f v ≤ 1) ∧
        ∀ v ∈ values.map Prod.snd, (∀ x ∈ values.map Prod.snd, x ≤ v) → f v = 1) ∧
      (∀ c ∈ combineScores candidates, 0 ≤ c.final ∧ c.final ≤ 1) ∧
      ∃ scored : Candidate R → Candidate R,
        combineScores candidates = candidates.map scored ∧
        ∀ a ∈ candidates, ∀ b ∈ candidates, ∀ x y : R, a.modelScore = some x →
          b.modelScore = some y → y ≤ x → b.popularity ≤ a.popularity →
          b.sourceCount ≤ a.sourceCount →
          (scored b).final ≤ (scored a).final ∧ (y < x → (scored b).final < (scored a).final) := by
  refine ⟨fun values => ?_, fun c hc => ?_, withScores candidates, combineScores_eq candidates,
    fun a ha b hb x y hx hy => final_le hids ha hb hx hy⟩
  · refine ⟨standing (values.map Prod.snd), percentileRanks_eq values, strictMonoOn_standing _,
      fun v hv => ⟨standing_nonneg _ _, standing_le_one hv⟩, fun v hv hmax => ?_⟩
    exact standing_max hv hmax
  · rw [combineScores_eq] at hc
    obtain ⟨c, hmem, rfl⟩ := List.mem_map.mp hc
    exact final_mem hids hmem

end Monotone

/-- A product that the model scored. -/
def scoredProduct (item : String) (score : ℚ) : Candidate ℚ :=
  { Candidate.new item with sources := [.dgsrPersonalized], modelScore := some score }

/-- The better of two scored products is ahead. -/
theorem combineScores_monotone_small :
    (ids [scoredProduct "k0" 0, scoredProduct "k1" 1]).Nodup ∧
      ∃ scored : Candidate ℚ → Candidate ℚ,
        combineScores [scoredProduct "k0" 0, scoredProduct "k1" 1] =
          [scored (scoredProduct "k0" 0), scored (scoredProduct "k1" 1)] ∧
        (scored (scoredProduct "k0" 0)).final < (scored (scoredProduct "k1" 1)).final := by
  have hids : (ids [scoredProduct "k0" 0, scoredProduct "k1" 1]).Nodup := by decide +kernel
  obtain ⟨_, _, scored, heq, hle⟩ :=
    combineScores_monotone [scoredProduct "k0" 0, scoredProduct "k1" 1] hids
  refine ⟨hids, scored, heq, ?_⟩
  have hlt := (hle (scoredProduct "k1" 1) (by simp) (scoredProduct "k0" 0) (by simp) 1 0 rfl rfl
    zero_le_one le_rfl le_rfl).2
  exact hlt zero_lt_one

/-! ## Items without a model score -/

section Median

/-- The model norms of the candidates that the model knows. -/
def knownNorms (candidates : List (Candidate R)) : List R :=
  (combineScores candidates).filterMap fun c => c.modelScore.map fun _ => c.modelNorm

/-- No item without a model score has a model norm above the median of the others. -/
def BelowMedian (candidates : List (Candidate R)) : Prop :=
  ∀ c ∈ combineScores candidates, c.modelScore = none → c.modelNorm ≤ median (knownNorms candidates)

/-- Among the popularities an item does not stand higher than both middle scores together among the
scores.  The standings are compared without fractions; a single value stands at 1. -/
def StandsLow (candidates : List (Candidate R)) (c : Candidate R) : Prop :=
  let scores := knownScores candidates
  let otherScores := scores.toFinset.card - 1
  let otherPopularities := (popularities candidates).toFinset.card - 1
  let middle := below scores (lowerMedian scores) + below scores (upperMedian scores)
  otherScores = 0 ∨
    if otherPopularities = 0 then otherScores ≤ middle
    else below (popularities candidates) c.popularity * otherScores ≤ middle * otherPopularities

variable [IsStrictOrderedRing R] {candidates : List (Candidate R)}

omit [IsStrictOrderedRing R] in
/-- The known candidates have the standings of their scores. -/
theorem knownNorms_eq (hids : (ids candidates).Nodup) :
    knownNorms candidates = (knownScores candidates).map (standing (knownScores candidates)) := by
  rw [knownNorms, combineScores_eq, List.filterMap_map]
  conv_rhs => rw [knownScores, List.map_filterMap]
  refine List.filterMap_congr fun c hc => ?_
  have hnorm := modelNorm_withScores hids hc
  have hsame : (withScores candidates c).modelScore = c.modelScore := rfl
  rw [Function.comp_apply, hsame]
  cases hscore : c.modelScore with
  | some score =>
      rw [hscore] at hnorm
      dsimp only at hnorm
      rw [Option.map_some, Option.map_some, hnorm]
      rfl
  | none => rfl

/-- The median norm is the mean of the standings of the middle scores. -/
theorem median_knownNorms (hids : (ids candidates).Nodup) (hknown : knownScores candidates ≠ []) :
    median (knownNorms candidates) =
      (standing (knownScores candidates) (lowerMedian (knownScores candidates)) +
        standing (knownScores candidates) (upperMedian (knownScores candidates))) / 2 := by
  rw [knownNorms_eq hids, median, lowerMedian_map (strictMonoOn_standing _) hknown,
    upperMedian_map (strictMonoOn_standing _) hknown, Nat.cast_ofNat]

/-- Half a norm is compared with half a sum. -/
theorem half_mul_le_iff (p s : R) : 1 / 2 * p ≤ s / 2 ↔ p ≤ s := by
  rw [one_div_mul_eq_div, div_le_div_iff_of_pos_right zero_lt_two]

/-- **When unscored items stay below the median.**  Without popularity they always do; otherwise
just when each of them stands low enough. -/
theorem belowMedian_iff (candidates : List (Candidate R)) (hids : (ids candidates).Nodup)
    (hknown : ∃ c ∈ candidates, c.modelScore.isSome = true) :
    BelowMedian candidates ↔ ((∃ c ∈ candidates, c.popularity ≠ 0) →
      ∀ c ∈ candidates, c.modelScore = none → StandsLow candidates c) := by
  obtain ⟨k, hk, hscore⟩ := hknown
  obtain ⟨score, hscore⟩ := Option.isSome_iff_exists.mp hscore
  have hne : knownScores candidates ≠ [] :=
    List.ne_nil_of_mem (List.mem_filterMap.mpr ⟨k, hk, hscore⟩)
  have hmedian := median_knownNorms hids hne
  have hcandidate : ∀ c ∈ candidates, c.modelScore = none →
      ((withScores candidates c).modelNorm ≤ median (knownNorms candidates) ↔
        (withScores candidates c).popularityNorm ≤
          standing (knownScores candidates) (lowerMedian (knownScores candidates)) +
            standing (knownScores candidates) (upperMedian (knownScores candidates))) := by
    intro c hc hnone
    have hnorm := modelNorm_withScores hids hc
    rw [hnone] at hnorm
    rw [hnorm, hmedian, half_mul_le_iff]
  have hpopularity : hasPopularity candidates = true ↔ ∃ c ∈ candidates, c.popularity ≠ 0 := by
    rw [hasPopularity, List.any_eq_true]
    simp only [decide_eq_true_eq]
  rw [← hpopularity]
  by_cases hhas : hasPopularity candidates = true
  · have hstands : ∀ c ∈ candidates, c.modelScore = none →
        ((withScores candidates c).modelNorm ≤ median (knownNorms candidates) ↔
          StandsLow candidates c) := by
      intro c hc hnone
      have hmem : c.popularity ∈ popularities candidates := List.mem_map_of_mem hc
      rw [hcandidate c hc hnone, popularityNorm_withScores hids hc, if_pos hhas,
        standing_le_add_iff hmem (lowerMedian_mem hne)]
      rfl
    constructor
    · intro h _ c hc hnone
      refine (hstands c hc hnone).mp (h _ ?_ hnone)
      rw [combineScores_eq]
      exact List.mem_map_of_mem hc
    · intro h c hc hnone
      rw [combineScores_eq] at hc
      obtain ⟨c, hmem, rfl⟩ := List.mem_map.mp hc
      exact (hstands c hmem hnone).mpr (h hhas c hmem hnone)
  · refine iff_of_true ?_ (fun h => absurd h hhas)
    intro c hc hnone
    rw [combineScores_eq] at hc
    obtain ⟨c, hmem, rfl⟩ := List.mem_map.mp hc
    refine (hcandidate c hmem hnone).mpr ?_
    rw [popularityNorm_withScores hids hmem, if_neg hhas]
    exact add_nonneg (standing_nonneg _ _) (standing_nonneg _ _)

end Median

/-- A product that the model does not know. -/
def newProduct (popularity : ℚ) : Candidate ℚ :=
  { Candidate.new "cold" with sources := [.trending], popularity := popularity }

/-- With distinct scores the popular new product is at the median. -/
theorem belowMedian_iff_distinct :
    BelowMedian [scoredProduct "k0" 0, scoredProduct "k1" 1, scoredProduct "k2" 2,
      newProduct 100] := by
  refine (belowMedian_iff _ (by decide +kernel) ⟨_, List.mem_cons_self, rfl⟩).mpr fun _ => ?_
  unfold StandsLow
  decide +kernel

/-- With most scores equal it is above: its norm is one half, and the median is 0. -/
theorem not_belowMedian :
    ¬ ∀ candidates : List (Candidate ℚ), (ids candidates).Nodup →
      (∃ c ∈ candidates, c.modelScore.isSome = true) → BelowMedian candidates := by
  intro hall
  have h := hall [scoredProduct "k0" 0, scoredProduct "k1" 0, scoredProduct "k2" 0,
    scoredProduct "k3" 1, newProduct 100] (by decide +kernel) ⟨_, List.mem_cons_self, rfl⟩
  revert h
  unfold BelowMedian
  decide +kernel

end Serving
