import GraphRec.Lib.Places
import GraphRec.Serving.Rules
import Mathlib.Algebra.Field.Rat
import Mathlib.Algebra.Order.Field.Basic
import Mathlib.Algebra.Order.Ring.Rat
import Mathlib.Data.Nat.Cast.Order.Field
import Mathlib.Data.String.Basic
import Mathlib.Order.Interval.Set.Defs
import Mathlib.Order.Monotone.Defs

/-!
# The freshness order

`rerank` orders by a blend of relevance and freshness.  A row of `scored` is a function of its item
(`scoredRows_eq`), so that the order is the one of `Scored.le` on these rows
(`rulesOrder_pairwise`).

`relevance_bound` — a lead in relevance of more than `w / (1 - w)` is kept; `rankOf_eq_findIdx` —
items with equal scores share the first of their places; `freshness_order` puts these together.
-/

namespace Serving

open Places

/-! ## Candidates in their order -/

section FirstOccurrences

variable {α : Type} [DecidableEq α] {l : List α} {a b : α}

theorem firstOccurrences_sublist (l : List α) : (firstOccurrences l).Sublist l := by
  induction l with
  | nil => exact List.Sublist.slnil
  | cons x l ih => exact ((List.filter_sublist).trans ih).cons_cons x

/-- What occurs first stays first. -/
theorem idxOf_firstOccurrences_lt_iff :
    (firstOccurrences l).idxOf a < (firstOccurrences l).idxOf b ↔ l.idxOf a < l.idxOf b := by
  induction l with
  | nil => rfl
  | cons x l ih =>
      rw [firstOccurrences]
      by_cases hxa : x = a
      · subst hxa
        by_cases hxb : x = b
        · subst hxb
          simp
        · simp [hxb]
      · by_cases hxb : x = b
        · subst hxb
          simp [hxa]
        · have hkept := idxOf_filter_lt_iff (l := firstOccurrences l)
            (p := fun c => decide (c ≠ x)) (decide_eq_true (Ne.symm hxa))
            (decide_eq_true (Ne.symm hxb))
          rw [List.idxOf_cons_ne _ hxa, List.idxOf_cons_ne _ hxb, List.idxOf_cons_ne _ hxa,
            List.idxOf_cons_ne _ hxb, Nat.succ_lt_succ_iff, Nat.succ_lt_succ_iff]
          exact hkept.trans ih

end FirstOccurrences

variable {R : Type} [Field R] [LinearOrder R]

/-! ## Rows -/

/-- `rank_of[item]`. -/
def rankIn (scores : Option (String → Option R)) (items : List String) (item : String) : ℕ :=
  ((rankOf scores items).lookup item).getD default

/-- `relevance`. -/
def relevanceIn (scores : Option (String → Option R)) (items : List String) (item : String) : R :=
  1 - rankIn scores items item / items.length

/-- `age_days / half_life`. -/
def RuleSet.age (rules : RuleSet R) (now : ℤ) (info : ProductMeta) : R :=
  let ageDays : R :=
    max (((now - info.createdAt : ℤ) : R) / (1000000 : ℕ) / (86400 : ℕ)) 0
  let halfLife : R := ((max rules.freshnessHalfLifeDays 1 : ℤ) : R)
  ageDays / halfLife

/-- `freshness`. -/
def RuleSet.freshness (rules : RuleSet R) (halfPower : R → R) (now : ℤ) (info : ProductMeta) : R :=
  halfPower (rules.age now info)

/-- `meta[item]`. -/
def metaOf (info : String → Option ProductMeta) (item : String) : ProductMeta :=
  (info item).getD ⟨none, 0⟩

section Order

variable (halfPower : R → R) (candidates : List String) (info : String → Option ProductMeta)
  (rules : RuleSet R) (now : ℤ) (scores : Option (String → Option R))

/-- The score of an item of the list. -/
def scoreIn (item : String) : R :=
  rules.score halfPower now (knownIds candidates info).length (metaOf info item)
    (rankIn scores (knownIds candidates info) item)

/-- The row of an item of the list. -/
def rowIn (item : String) : Scored R :=
  ⟨scoreIn halfPower candidates info rules now scores item,
    (knownIds candidates info).idxOf item, item⟩

variable {halfPower candidates info rules now scores} {a b : String}

/-- The blend. -/
theorem scoreIn_of_weight (h : rules.weight ≠ 0) (item : String) :
    scoreIn halfPower candidates info rules now scores item =
      (1 - rules.weight) * relevanceIn scores (knownIds candidates info) item +
        rules.weight * rules.freshness halfPower now (metaOf info item) := by
  rw [scoreIn, RuleSet.score]
  dsimp only
  rw [if_neg h]
  rfl

variable (halfPower candidates info rules now scores) in
/-- Every known candidate has its row. -/
theorem scoredRows_eq : scoredRows halfPower candidates info rules now scores =
    (knownIds candidates info).map (rowIn halfPower candidates info rules now scores) := by
  have hkeys := rankOf_items scores (knownIds candidates info)
  have hnodup : ((rankOf scores (knownIds candidates info)).map Prod.fst).Nodup := by
    rw [hkeys]
    exact (nodup_firstOccurrences candidates).filter _
  have hrows := map_zipIdx_eq hnodup fun item rank index =>
    (⟨rules.score halfPower now (knownIds candidates info).length (metaOf info item) rank, index,
      item⟩ : Scored R)
  rw [hkeys] at hrows
  exact hrows

/-! ## The order of the rows -/

omit [Field R] in
theorem Scored.total (x y : Scored R) : x.le y ∨ y.le x := by
  rcases lt_trichotomy x.score y.score with hlt | heq | hgt
  · exact .inr (.inl hlt)
  · rcases lt_trichotomy x.index y.index with hlt | hindex | hgt
    · exact .inl (.inr ⟨heq, .inl hlt⟩)
    · rcases le_total x.item y.item with hle | hle
      · exact .inl (.inr ⟨heq, .inr ⟨hindex, hle⟩⟩)
      · exact .inr (.inr ⟨heq.symm, .inr ⟨hindex.symm, hle⟩⟩)
    · exact .inr (.inr ⟨heq.symm, .inl hgt⟩)
  · exact .inl (.inl hgt)

omit [Field R] in
theorem Scored.trans {x y z : Scored R} (hxy : x.le y) (hyz : y.le z) : x.le z := by
  rcases hxy with hlt | ⟨heq, htie⟩
  · rcases hyz with hlt' | ⟨heq', _⟩
    · exact .inl (hlt'.trans hlt)
    · exact .inl (heq' ▸ hlt)
  · rcases hyz with hlt' | ⟨heq', htie'⟩
    · exact .inl (heq ▸ hlt')
    · refine .inr ⟨heq.trans heq', ?_⟩
      rcases htie with hlt | ⟨hindex, hle⟩
      · rcases htie' with hlt' | ⟨hindex', _⟩
        · exact .inl (hlt.trans hlt')
        · exact .inl (hindex' ▸ hlt)
      · rcases htie' with hlt' | ⟨hindex', hle'⟩
        · exact .inl (hindex ▸ hlt')
        · exact .inr ⟨hindex.trans hindex', hle.trans hle'⟩

instance : Std.Total (Scored.le (R := R)) := ⟨Scored.total⟩

instance : IsTrans (Scored R) Scored.le := ⟨fun _ _ _ => Scored.trans⟩

variable (halfPower candidates info rules now scores) in
/-- **The order** is the one of the rows. -/
theorem rulesOrder_pairwise :
    (rulesOrder halfPower candidates info rules now scores).Pairwise fun a b =>
      (rowIn halfPower candidates info rules now scores a).le
        (rowIn halfPower candidates info rules now scores b) := by
  have hrow : ∀ x ∈ (scoredRows halfPower candidates info rules now scores).insertionSort Scored.le,
      rowIn halfPower candidates info rules now scores x.item = x := by
    intro x hx
    rw [List.mem_insertionSort, scoredRows_eq] at hx
    obtain ⟨item, _, rfl⟩ := List.mem_map.mp hx
    rfl
  rw [rulesOrder, List.pairwise_map]
  refine (List.pairwise_insertionSort Scored.le _).imp_of_mem fun {x y} hx hy hle => ?_
  rwa [hrow x hx, hrow y hy]

/-- The better score stands first. -/
theorem rulesOrder_lt_of_score (ha : a ∈ knownIds candidates info)
    (hb : b ∈ knownIds candidates info)
    (h : scoreIn halfPower candidates info rules now scores b <
      scoreIn halfPower candidates info rules now scores a) :
    (rulesOrder halfPower candidates info rules now scores).idxOf a <
      (rulesOrder halfPower candidates info rules now scores).idxOf b := by
  have hperm := rulesOrder_perm halfPower candidates info rules now scores
  refine idxOf_lt_idxOf_of_pairwise (rulesOrder_pairwise _ _ _ _ _ _) (hperm.mem_iff.mpr ha)
    (hperm.mem_iff.mpr hb) ?_ ?_
  · rintro rfl
    exact lt_irrefl _ h
  · rintro (hlt | ⟨heq, _⟩)
    · exact lt_asymm h hlt
    · exact h.ne heq

/-- Of two items with the same score the earlier one stands first. -/
theorem rulesOrder_lt_iff_of_score (ha : a ∈ knownIds candidates info)
    (hb : b ∈ knownIds candidates info) (hne : a ≠ b)
    (h : scoreIn halfPower candidates info rules now scores a =
      scoreIn halfPower candidates info rules now scores b) :
    (rulesOrder halfPower candidates info rules now scores).idxOf a <
        (rulesOrder halfPower candidates info rules now scores).idxOf b ↔
      candidates.idxOf a < candidates.idxOf b := by
  have hperm := rulesOrder_perm halfPower candidates info rules now scores
  have hka : (info a).isSome = true := (List.mem_filter.mp ha).2
  have hkb : (info b).isSome = true := (List.mem_filter.mp hb).2
  have hplaces : (knownIds candidates info).idxOf a < (knownIds candidates info).idxOf b ↔
      candidates.idxOf a < candidates.idxOf b := by
    rw [knownIds, idxOf_filter_lt_iff (fun c => (info c).isSome) hka hkb, idxOf_firstOccurrences_lt_iff]
  have hdiffer : (knownIds candidates info).idxOf a ≠ (knownIds candidates info).idxOf b :=
    fun heq => hne ((List.idxOf_inj ha).mp heq)
  have hle : ∀ x y, scoreIn halfPower candidates info rules now scores x =
        scoreIn halfPower candidates info rules now scores y →
      (knownIds candidates info).idxOf x ≠ (knownIds candidates info).idxOf y →
      ((rowIn halfPower candidates info rules now scores x).le
        (rowIn halfPower candidates info rules now scores y) ↔
        (knownIds candidates info).idxOf x < (knownIds candidates info).idxOf y) := by
    intro x y hscore hindex
    constructor
    · rintro (hlt | ⟨_, hlt | ⟨heq, _⟩⟩)
      · exact absurd hscore hlt.ne'
      · exact hlt
      · exact absurd heq hindex
    · intro hlt
      exact .inr ⟨hscore, .inl hlt⟩
  rw [idxOf_lt_idxOf_iff_of_pairwise (rulesOrder_pairwise _ _ _ _ _ _) (hperm.mem_iff.mpr ha)
    (hperm.mem_iff.mpr hb) hne, hle a b h hdiffer, hplaces]
  intro hab hba
  exact lt_asymm ((hle a b h hdiffer).mp hab) ((hle b a h.symm hdiffer.symm).mp hba)

end Order

/-! ## Shared ranks -/

omit [Field R] in
/-- Among items whose scores do not grow, a run of equal scores has the place of its first item. -/
theorem rankLoop_eq {scores : String → Option R} {upstream : String → R} {items : List String}
    (hscores : ∀ item ∈ items, scores item = some (upstream item))
    (hsorted : items.Pairwise fun a b => upstream b ≤ upstream a) {index start : ℕ}
    {previous : Option (Option R)}
    (hprevious : ∀ x, previous = some (some x) → ∀ item ∈ items, upstream item ≤ x)
    {a : String} {rank : ℕ} (h : (a, rank) ∈ rankLoop scores items index start previous) :
    rank = if previous = some (some (upstream a)) then start
      else index + items.findIdx fun b => decide (upstream b = upstream a) := by
  induction items generalizing index start previous with
  | nil => exact absurd h List.not_mem_nil
  | cons x items ih =>
      obtain ⟨hfirst, hrest⟩ := List.pairwise_cons.mp hsorted
      have hx := hscores x List.mem_cons_self
      rw [rankLoop, hx] at h
      rcases List.mem_cons.mp h with heq | hmem
      · cases heq
        rw [List.findIdx_cons, decide_eq_true rfl]
        rfl
      · have ha : a ∈ items := by
          have hkey := List.mem_map_of_mem (f := Prod.fst) hmem
          rwa [rankLoop_items] at hkey
        have hrank := ih (fun item hitem => hscores item (List.mem_cons_of_mem _ hitem)) hrest
          (fun y hy item hitem => by
            cases hy
            exact hfirst item hitem) hmem
        rw [hrank]
        by_cases hsame : upstream x = upstream a
        · rw [if_pos (by rw [hsame]), hsame, List.findIdx_cons, decide_eq_true hsame]
          rfl
        · -- The run before `x` has ended: it cannot be the one of `a`.
          have hended : previous ≠ some (some (upstream a)) := by
            intro hprev
            have hle := hprevious _ hprev x List.mem_cons_self
            exact hsame (le_antisymm hle (hfirst a ha))
          rw [if_neg (fun heq => hsame (Option.some.inj (Option.some.inj heq))), if_neg hended,
            List.findIdx_cons, decide_eq_false hsame]
          dsimp only [cond_false]
          omega

section Ranks

variable {candidates : List String} {info : String → Option ProductMeta} {upstream : String → R}
  {scores : String → Option R}

omit [Field R] in
/-- **Equal scores share a rank.** -/
theorem rankIn_eq_of_upstream
    (hscores : ∀ item ∈ candidates, (info item).isSome → scores item = some (upstream item))
    (hsorted : (candidates.filter fun c => (info c).isSome).Pairwise fun a b =>
      upstream b ≤ upstream a) {a b : String} (ha : a ∈ knownIds candidates info)
    (hb : b ∈ knownIds candidates info) (heq : upstream a = upstream b) :
    rankIn (some scores) (knownIds candidates info) a =
      rankIn (some scores) (knownIds candidates info) b := by
  have hsub : (knownIds candidates info).Sublist (candidates.filter fun c => (info c).isSome) :=
    (firstOccurrences_sublist candidates).filter _
  have hkeys := rankOf_items (some scores) (knownIds candidates info)
  have hnodup : ((rankOf (some scores) (knownIds candidates info)).map Prod.fst).Nodup := by
    rw [hkeys]
    exact (nodup_firstOccurrences candidates).filter _
  have hrank : ∀ item ∈ knownIds candidates info,
      rankIn (some scores) (knownIds candidates info) item =
        (knownIds candidates info).findIdx fun c => decide (upstream c = upstream item) := by
    intro item hitem
    rw [← hkeys] at hitem
    obtain ⟨⟨item', rank⟩, hmem, rfl⟩ := List.mem_map.mp hitem
    have hvalue := rankLoop_eq
      (fun c hc => hscores c (List.mem_of_mem_filter (hsub.subset hc))
        (List.mem_filter.mp (hsub.subset hc)).2)
      (hsorted.sublist hsub) (fun _ hnone => absurd hnone (by simp)) hmem
    rw [if_neg (by simp), Nat.zero_add] at hvalue
    rw [rankIn, lookup_of_mem hnodup hmem, Option.getD_some, hvalue]
  rw [hrank a ha, hrank b hb, heq]

end Ranks

/-! ## The weight -/

section Weight

variable [IsStrictOrderedRing R] {rules : RuleSet R}

theorem maxFreshnessWeight_pos : 0 < (maxFreshnessWeight : R) :=
  div_pos (Nat.cast_pos.mpr (by omega)) (Nat.cast_pos.mpr (by omega))

theorem maxFreshnessWeight_lt_one : (maxFreshnessWeight : R) < 1 :=
  (div_lt_one (Nat.cast_pos.mpr (by omega))).mpr (Nat.cast_lt.mpr (by omega))

omit [IsStrictOrderedRing R] in
/-- The weight is the configured one, capped. -/
theorem weight_eq (henabled : rules.freshnessEnabled = true) (hpos : 0 < rules.freshnessWeight) :
    rules.weight = min rules.freshnessWeight maxFreshnessWeight := by
  rw [RuleSet.weight, if_pos henabled, max_eq_left hpos.le]

/-- From the cap on the weight is the cap. -/
theorem weight_of_le {w : R} (hw : maxFreshnessWeight ≤ w) :
    { rules with freshnessWeight := w }.weight =
      { rules with freshnessWeight := maxFreshnessWeight }.weight := by
  have hpos := maxFreshnessWeight_pos (R := R)
  simp only [RuleSet.weight]
  rw [max_eq_left (hpos.le.trans hw), max_eq_left hpos.le, min_eq_right hw, min_self]

omit [IsStrictOrderedRing R] in
/-- Scores depend on the weight and the half life. -/
theorem score_congr {rules' : RuleSet R} (hweight : rules.weight = rules'.weight)
    (hlife : rules.freshnessHalfLifeDays = rules'.freshnessHalfLifeDays) :
    rules.score = rules'.score := by
  funext halfPower now n info rank
  rw [RuleSet.score, RuleSet.score, hweight, hlife]

/-- A product has not been created in the future, for its age. -/
theorem age_nonneg (rules : RuleSet R) (now : ℤ) (info : ProductMeta) : 0 ≤ rules.age now info := by
  have hlife : (0 : ℤ) ≤ max rules.freshnessHalfLifeDays 1 := by omega
  exact div_nonneg (le_max_right _ _) (Int.cast_nonneg hlife)

/-- What was created later is not older. -/
theorem age_le (rules : RuleSet R) (now : ℤ) {info info' : ProductMeta}
    (h : info'.createdAt ≤ info.createdAt) : rules.age now info ≤ rules.age now info' := by
  have hlife : (0 : ℤ) ≤ max rules.freshnessHalfLifeDays 1 := by omega
  have hdays : ((now - info.createdAt : ℤ) : R) ≤ ((now - info'.createdAt : ℤ) : R) :=
    Int.cast_le.mpr (by omega)
  refine div_le_div_of_nonneg_right (max_le_max_right _ ?_) (Int.cast_nonneg hlife)
  exact div_le_div_of_nonneg_right (div_le_div_of_nonneg_right hdays (Nat.cast_nonneg _))
    (Nat.cast_nonneg _)

/-- **The bound.**  Freshness in `[0, 1]` does not make up for a lead of more than `w / (1 - w)`. -/
theorem relevance_bound {w r r' f f' : R} (hw : 0 < w) (hw' : w < 1) (hf : 0 ≤ f) (hf' : f' ≤ 1)
    (h : w / (1 - w) < r - r') : (1 - w) * r' + w * f' < (1 - w) * r + w * f := by
  have hlead : w < (r - r') * (1 - w) := (div_lt_iff₀ (sub_pos.mpr hw')).mp h
  calc (1 - w) * r' + w * f' ≤ (1 - w) * r' + w := by
        have hle := mul_le_mul_of_nonneg_left hf' hw.le
        rw [mul_one] at hle
        exact add_le_add le_rfl hle
    _ < (1 - w) * r' + (r - r') * (1 - w) := add_lt_add_of_le_of_lt le_rfl hlead
    _ = (1 - w) * r := by rw [mul_comm (r - r'), ← mul_add, add_sub_cancel]
    _ ≤ (1 - w) * r + w * f := le_add_of_nonneg_right (mul_nonneg hw.le hf)

end Weight

/-! ## Near ties -/

variable [IsStrictOrderedRing R]

/-- Items of the same relevance stand by freshness, then in the order of the candidates. -/
theorem rulesOrder_lt_iff_of_relevance {halfPower : R → R} {candidates : List String}
    {info : String → Option ProductMeta} {rules : RuleSet R} {now : ℤ}
    {scores : Option (String → Option R)} {a b : String} (hweight : 0 < rules.weight)
    (ha : a ∈ knownIds candidates info) (hb : b ∈ knownIds candidates info) (hne : a ≠ b)
    (hrelevance : (relevanceIn scores (knownIds candidates info) a : R) =
      relevanceIn scores (knownIds candidates info) b) :
    (rulesOrder halfPower candidates info rules now scores).idxOf a <
        (rulesOrder halfPower candidates info rules now scores).idxOf b ↔
      rules.freshness halfPower now (metaOf info b) <
          rules.freshness halfPower now (metaOf info a) ∨
        rules.freshness halfPower now (metaOf info a) =
            rules.freshness halfPower now (metaOf info b) ∧
          candidates.idxOf a < candidates.idxOf b := by
  have hscore : ∀ item, scoreIn halfPower candidates info rules now scores item =
      (1 - rules.weight) * relevanceIn scores (knownIds candidates info) item +
        rules.weight * rules.freshness halfPower now (metaOf info item) :=
    scoreIn_of_weight hweight.ne'
  have hlt : ∀ x y, (relevanceIn scores (knownIds candidates info) x : R) =
        relevanceIn scores (knownIds candidates info) y →
      rules.freshness halfPower now (metaOf info x) <
        rules.freshness halfPower now (metaOf info y) →
      scoreIn halfPower candidates info rules now scores x <
        scoreIn halfPower candidates info rules now scores y := by
    intro x y hsame hfresh
    rw [hscore, hscore, hsame]
    exact add_lt_add_of_le_of_lt le_rfl (mul_lt_mul_of_pos_left hfresh hweight)
  rcases lt_trichotomy (rules.freshness halfPower now (metaOf info a))
    (rules.freshness halfPower now (metaOf info b)) with hless | hsame | hmore
  · have hbehind := rulesOrder_lt_of_score hb ha (hlt a b hrelevance hless)
    refine iff_of_false (lt_asymm hbehind) ?_
    rintro (hmore | ⟨hsame, _⟩)
    · exact lt_asymm hless hmore
    · exact hless.ne hsame
  · have hequal : scoreIn halfPower candidates info rules now scores a =
        scoreIn halfPower candidates info rules now scores b := by
      rw [hscore, hscore, hrelevance, hsame]
    rw [rulesOrder_lt_iff_of_score ha hb hne hequal]
    constructor
    · exact fun hlt => .inr ⟨hsame, hlt⟩
    · rintro (hmore | ⟨_, hlt⟩)
      · exact absurd hsame hmore.ne'
      · exact hlt
  · exact iff_of_true (rulesOrder_lt_of_score ha hb (hlt b a hrelevance.symm hmore)) (.inl hmore)

/-- **Freshness only moves near ties.**  In the order that `rerank` takes its result from, an item
that leads another by more than `w / (1 - w)` in relevance stays ahead of it; items with equal
upstream scores stand by freshness, which newer ones do not have less of, and then in the order of
the candidates; and the order is the same for every weight from the cap on. -/
theorem freshness_order (halfPower : R → R) (hantitone : AntitoneOn halfPower (Set.Ici 0))
    (hunit : ∀ x, 0 ≤ x → 0 ≤ halfPower x ∧ halfPower x ≤ 1) (candidates : List String)
    (info : String → Option ProductMeta) (rules : RuleSet R)
    (henabled : rules.freshnessEnabled = true) (hpos : 0 < rules.freshnessWeight) (now : ℤ)
    (upstream : String → R) (scores : String → Option R)
    (hscores : ∀ item ∈ candidates, (info item).isSome → scores item = some (upstream item))
    (hsorted : (candidates.filter fun c => (info c).isSome).Pairwise fun a b =>
      upstream b ≤ upstream a) :
    let w := min rules.freshnessWeight maxFreshnessWeight
    let known := knownIds candidates info
    let relevance : String → R := relevanceIn (some scores) known
    let freshness := fun item => rules.freshness halfPower now (metaOf info item)
    let place := (rulesOrder halfPower candidates info rules now (some scores)).idxOf
    (∀ topN, rules.diversityEnabled = false →
      rerank halfPower candidates info rules topN now (some scores) =
        (rulesOrder halfPower candidates info rules now (some scores)).take topN) ∧
      (∀ a ∈ known, ∀ b ∈ known, w / (1 - w) < relevance a - relevance b → place a < place b) ∧
      (∀ a ∈ known, ∀ b ∈ known, a ≠ b → upstream a = upstream b →
        (place a < place b ↔ freshness b < freshness a ∨
          freshness a = freshness b ∧ candidates.idxOf a < candidates.idxOf b)) ∧
      (∀ a b, (metaOf info b).createdAt ≤ (metaOf info a).createdAt →
        freshness b ≤ freshness a) ∧
      ∀ w', maxFreshnessWeight ≤ w' →
        rulesOrder halfPower candidates info { rules with freshnessWeight := w' } now
            (some scores) =
          rulesOrder halfPower candidates info
            { rules with freshnessWeight := maxFreshnessWeight } now (some scores) ∧
        ∀ topN,
          rerank halfPower candidates info { rules with freshnessWeight := w' } topN now
              (some scores) =
            rerank halfPower candidates info
              { rules with freshnessWeight := maxFreshnessWeight } topN now (some scores) := by
  intro w known relevance freshness place
  have hw : rules.weight = w := weight_eq henabled hpos
  have hwpos : 0 < w := lt_min hpos maxFreshnessWeight_pos
  have hwone : w < 1 := (min_le_right _ _).trans_lt maxFreshnessWeight_lt_one
  have hbounds := fun item => hunit _ (age_nonneg rules now (metaOf info item))
  have hscore : ∀ item, scoreIn halfPower candidates info rules now (some scores) item =
      (1 - w) * relevance item + w * freshness item := by
    intro item
    rw [scoreIn_of_weight (by rw [hw]; exact hwpos.ne'), hw]
  refine ⟨fun topN hoff => ?_, fun a ha b hb hlead => ?_, fun a ha b hb hne heq => ?_,
    fun a b hnewer => ?_, fun w' hw' => ?_⟩
  · rw [rerank_eq, if_neg (by rw [hoff]; exact Bool.false_ne_true)]
  · refine rulesOrder_lt_of_score ha hb ?_
    rw [hscore, hscore]
    exact relevance_bound hwpos hwone (hbounds a).1 (hbounds b).2 hlead
  · have hrelevance : relevance a = relevance b := by
      simp only [relevance, relevanceIn]
      rw [rankIn_eq_of_upstream hscores hsorted ha hb heq]
    exact rulesOrder_lt_iff_of_relevance (hw ▸ hwpos) ha hb hne hrelevance
  · exact hantitone (age_nonneg rules now _) (age_nonneg rules now _) (age_le rules now hnewer)
  · have hsame : rulesOrder halfPower candidates info { rules with freshnessWeight := w' } now
          (some scores) =
        rulesOrder halfPower candidates info
          { rules with freshnessWeight := maxFreshnessWeight } now (some scores) := by
      rw [rulesOrder, rulesOrder, scoredRows, scoredRows, score_congr (weight_of_le hw') rfl]
    refine ⟨hsame, fun topN => ?_⟩
    rw [rerank_eq, rerank_eq, hsame]

/-! ## Two tied products -/

/-- One half from the first half life on. -/
def stepPower (x : ℚ) : ℚ := if x < 1 then 1 else 1 / 2

theorem stepPower_antitone : AntitoneOn stepPower (Set.Ici 0) := by
  intro x _ y _ hxy
  unfold stepPower
  by_cases hx : x < 1
  · rw [if_pos hx]
    split
    · exact le_rfl
    · decide +kernel
  · rw [if_neg hx, if_neg (fun hy => hx (hxy.trans_lt hy))]

theorem stepPower_unit (x : ℚ) (_ : 0 ≤ x) : 0 ≤ stepPower x ∧ stepPower x ≤ 1 := by
  unfold stepPower
  split
  · decide +kernel
  · decide +kernel

def tiedRules : RuleSet ℚ where
  version := 1
  diversityEnabled := false
  maxPerCategory := 1
  freshnessEnabled := true
  freshnessWeight := 9
  freshnessHalfLifeDays := 30

/-- All but `"new"` are 30 days old. -/
def tiedInfo (item : String) : Option ProductMeta :=
  some ⟨none, if item = "new" then 2592000000000 else 0⟩

def tiedScores (item : String) : ℚ :=
  if item = "first" then 50 else if item = "second" then 40 else 0

/-- The new product passes the old one that it is tied with, and not the first one. -/
theorem freshness_order_small :
    let order := rulesOrder stepPower ["first", "second", "old", "new"] tiedInfo tiedRules
      2592000000000 (some fun item => some (tiedScores item))
    order.idxOf "first" < order.idxOf "new" ∧ order.idxOf "new" < order.idxOf "old" := by
  obtain ⟨_, hlead, htied, _⟩ := freshness_order stepPower stepPower_antitone stepPower_unit
    ["first", "second", "old", "new"] tiedInfo tiedRules rfl (by decide +kernel) 2592000000000
    tiedScores (fun item => some (tiedScores item)) (fun _ _ _ => rfl) (by decide +kernel)
  refine ⟨hlead "first" (by decide) "new" (by decide) ?_,
    (htied "new" (by decide) "old" (by decide) (by decide) (by decide)).mpr (.inl ?_)⟩
  · decide +kernel
  · decide +kernel

end Serving
