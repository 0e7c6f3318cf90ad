import GraphRec.Serving.Ranking

/-!
# Re-ranking rules

`rerank` re-orders candidates that are already eligible: a bounded freshness
boost on the relevance of the given order, then a greedy cap on the number of
products of a category, relaxed rather than returning fewer products.

`rerank_spec` says what it may return: some of the candidates it knows, none
twice, at most `top_n`.
-/

namespace Serving

/-- `dict.fromkeys`: the first occurrence of every entry, in order. -/
def firstOccurrences {α : Type} [DecidableEq α] : List α → List α
  | [] => []
  | a :: l => a :: (firstOccurrences l).filter fun b => decide (b ≠ a)

section FirstOccurrences

variable {α : Type} [DecidableEq α]

@[simp] theorem mem_firstOccurrences {a : α} {l : List α} :
    a ∈ firstOccurrences l ↔ a ∈ l := by
  induction l with
  | nil => rfl
  | cons b l ih =>
      simp only [firstOccurrences, List.mem_cons, List.mem_filter, ih, decide_eq_true_eq]
      by_cases hab : a = b <;> simp [hab]

theorem nodup_firstOccurrences (l : List α) : (firstOccurrences l).Nodup := by
  induction l with
  | nil => exact List.nodup_nil
  | cons b l ih =>
      refine List.nodup_cons.mpr ⟨fun hb => ?_, ih.filter _⟩
      simpa using (List.mem_filter.mp hb).2

end FirstOccurrences

/-- `RuleSet`. -/
structure RuleSet (R : Type) where
  version : ℕ
  diversityEnabled : Bool
  maxPerCategory : ℤ
  freshnessEnabled : Bool
  freshnessWeight : R
  freshnessHalfLifeDays : ℤ

/-- What the catalogue says of a product: its category and when it was created,
in microseconds. -/
structure ProductMeta where
  category : Option String
  createdAt : ℤ
  deriving DecidableEq, Repr

section Rerank

variable {R : Type} [Field R] [LinearOrder R]

/-- `MAX_FRESHNESS_WEIGHT`. -/
def maxFreshnessWeight : R := (3 : ℕ) / (10 : ℕ)

/-- The loop that fills `rank_of`: with scores, a run of equal scores shares the
index of its first entry; `previous` is the score of the entry before. -/
def rankLoop (scores : String → Option R) :
    List String → ℕ → ℕ → Option (Option R) → List (String × ℕ)
  | [], _, _, _ => []
  | item :: items, index, groupStart, previous =>
      let groupStart := if previous = some (scores item) then groupStart else index
      (item, groupStart) :: rankLoop scores items (index + 1) groupStart (some (scores item))

/-- `rank_of`, entry by entry. -/
def rankOf (scores : Option (String → Option R)) (items : List String) : List (String × ℕ) :=
  match scores with
  | none => items.zipIdx
  | some scores => rankLoop scores items 0 0 none

/-- `weight`. -/
def RuleSet.weight (rules : RuleSet R) : R :=
  if rules.freshnessEnabled then min (max rules.freshnessWeight 0) maxFreshnessWeight else 0

/-- The score of an entry: relevance by rank, blended with freshness, which
`halfPower` gives as a function of the age in half lives (`0.5 ** x`). -/
def RuleSet.score (rules : RuleSet R) (halfPower : R → R) (now : ℤ) (n : ℕ)
    (info : ProductMeta) (rank : ℕ) : R :=
  let relevance : R := 1 - rank / n
  if rules.weight = 0 then relevance
  else
    let ageDays : R := max (((now - info.createdAt : ℤ) : R) / 1000000 / 86400) 0
    let halfLife : R := ((max rules.freshnessHalfLifeDays 1 : ℤ) : R)
    (1 - rules.weight) * relevance + rules.weight * halfPower (ageDays / halfLife)

/-- A row of `scored`. -/
structure Scored (R : Type) where
  score : R
  index : ℕ
  item : String

/-- The order of the rows `(-score, index, item)`. -/
def Scored.le (a b : Scored R) : Prop :=
  b.score < a.score ∨ a.score = b.score ∧ (a.index < b.index ∨ a.index = b.index ∧ a.item ≤ b.item)

instance : DecidableRel (Scored.le (R := R)) := fun a b =>
  inferInstanceAs (Decidable (b.score < a.score ∨
    a.score = b.score ∧ (a.index < b.index ∨ a.index = b.index ∧ a.item ≤ b.item)))

/-- A product without a category has room, another while its category is below
the cap among the `counts` of the categories picked so far. -/
def hasRoom (cap : ℤ) (counts : List String) : Option String → Bool
  | none => true
  | some c => decide ((counts.count c : ℤ) < cap)

/-- The greedy pass of the category cap: what it picks, stopping at `top_n`, and
what it defers. -/
def capLoop (category : String → Option String) (cap : ℤ) (topN : ℕ) :
    List String → List String → List String → List String → List String
  | [], picked, deferred, _ => (picked ++ deferred).take topN
  | item :: items, picked, deferred, counts =>
      if hasRoom cap counts (category item) then
        if (picked ++ [item]).length = topN then picked ++ [item]
        else capLoop category cap topN items (picked ++ [item]) deferred
          (counts ++ (category item).toList)
      else capLoop category cap topN items picked (deferred ++ [item]) counts

/-- `rerank`. -/
def rerank (halfPower : R → R) (candidates : List String) (info : String → Option ProductMeta)
    (rules : RuleSet R) (topN : ℕ) (now : ℤ) (scores : Option (String → Option R)) :
    List String :=
  let items := (firstOccurrences candidates).filter fun c => (info c).isSome
  let rows := (rankOf scores items).zipIdx.map fun ((item, rank), index) =>
    (⟨rules.score halfPower now items.length ((info item).getD ⟨none, 0⟩) rank, index, item⟩ :
      Scored R)
  let ordered := (rows.insertionSort Scored.le).map Scored.item
  if rules.diversityEnabled then
    capLoop (fun item => (info item).bind ProductMeta.category) (max rules.maxPerCategory 1) topN
      ordered [] [] []
  else ordered.take topN

/-- `ids` of `rerank`: the candidates with catalogue data, each once. -/
def knownIds (candidates : List String) (info : String → Option ProductMeta) : List String :=
  (firstOccurrences candidates).filter fun c => (info c).isSome

/-- `scored`: a row for every known candidate. -/
def scoredRows (halfPower : R → R) (candidates : List String) (info : String → Option ProductMeta)
    (rules : RuleSet R) (now : ℤ) (scores : Option (String → Option R)) : List (Scored R) :=
  (rankOf scores (knownIds candidates info)).zipIdx.map fun ((item, rank), index) =>
    ⟨rules.score halfPower now (knownIds candidates info).length
      ((info item).getD ⟨none, 0⟩) rank, index, item⟩

/-- `ordered`: the known candidates by score, before the category cap. -/
def rulesOrder (halfPower : R → R) (candidates : List String) (info : String → Option ProductMeta)
    (rules : RuleSet R) (now : ℤ) (scores : Option (String → Option R)) : List String :=
  ((scoredRows halfPower candidates info rules now scores).insertionSort Scored.le).map Scored.item

/-- `rerank` takes the first of the order, or what the category cap picks of it. -/
theorem rerank_eq (halfPower : R → R) (candidates : List String)
    (info : String → Option ProductMeta) (rules : RuleSet R) (topN : ℕ) (now : ℤ)
    (scores : Option (String → Option R)) :
    rerank halfPower candidates info rules topN now scores =
      if rules.diversityEnabled then
        capLoop (fun item => (info item).bind ProductMeta.category) (max rules.maxPerCategory 1)
          topN (rulesOrder halfPower candidates info rules now scores) [] [] []
      else (rulesOrder halfPower candidates info rules now scores).take topN := rfl

/-! ## What is returned -/

omit [Field R] in
theorem rankLoop_items (scores : String → Option R) (items : List String) (index start : ℕ)
    (previous : Option (Option R)) :
    (rankLoop scores items index start previous).map Prod.fst = items := by
  induction items generalizing index start previous with
  | nil => rfl
  | cons item items ih => simp [rankLoop, ih]

omit [Field R] in
theorem rankOf_items (scores : Option (String → Option R)) (items : List String) :
    (rankOf scores items).map Prod.fst = items := by
  cases scores with
  | none => exact List.zipIdx_map_fst 0 items
  | some scores => exact rankLoop_items scores items 0 0 none

/-- The cap returns some of the entries it was given, each at most once, and at
most `topN`. -/
theorem capLoop_spec (category : String → Option String) (cap : ℤ) (topN : ℕ)
    (items picked deferred counts : List String) :
    (capLoop category cap topN items picked deferred counts).Subperm
        (picked ++ deferred ++ items) ∧
      (capLoop category cap topN items picked deferred counts).length ≤ topN := by
  induction items generalizing picked deferred counts with
  | nil =>
      rw [capLoop, List.append_nil]
      exact ⟨(List.take_sublist _ _).subperm, List.length_take_le _ _⟩
  | cons item items ih =>
      have hmoved : (picked ++ [item] ++ deferred ++ items).Perm
          (picked ++ deferred ++ item :: items) := by
        simp only [List.append_assoc, List.singleton_append]
        exact List.Perm.append_left picked List.perm_middle.symm
      rw [capLoop]
      split
      · split
        · next hfull =>
            refine ⟨?_, hfull.le⟩
            refine List.Subperm.trans ?_ hmoved.subperm
            rw [List.append_assoc]
            exact (List.sublist_append_left _ _).subperm
        · obtain ⟨hsub, hlen⟩ := ih (picked ++ [item]) deferred
            (counts ++ (category item).toList)
          exact ⟨hsub.trans hmoved.subperm, hlen⟩
      · obtain ⟨hsub, hlen⟩ := ih picked (deferred ++ [item]) counts
        refine ⟨?_, hlen⟩
        simpa using hsub

theorem scoredRows_items (halfPower : R → R) (candidates : List String)
    (info : String → Option ProductMeta) (rules : RuleSet R) (now : ℤ)
    (scores : Option (String → Option R)) :
    (scoredRows halfPower candidates info rules now scores).map Scored.item =
      knownIds candidates info := by
  have hfst : (rankOf scores (knownIds candidates info)).zipIdx.map Prod.fst =
      rankOf scores (knownIds candidates info) := List.zipIdx_map_fst 0 _
  rw [scoredRows, List.map_map]
  conv_rhs => rw [← rankOf_items scores (knownIds candidates info), ← hfst, List.map_map]
  rfl

/-- The order loses nothing. -/
theorem rulesOrder_perm (halfPower : R → R) (candidates : List String)
    (info : String → Option ProductMeta) (rules : RuleSet R) (now : ℤ)
    (scores : Option (String → Option R)) :
    (rulesOrder halfPower candidates info rules now scores).Perm (knownIds candidates info) := by
  have hperm := (List.perm_insertionSort Scored.le
    (scoredRows halfPower candidates info rules now scores)).map Scored.item
  rwa [scoredRows_items] at hperm

/-- **What `rerank` may return.**  Candidates with catalogue data, none twice, at
most `topN`. -/
theorem rerank_spec (halfPower : R → R) (candidates : List String)
    (info : String → Option ProductMeta) (rules : RuleSet R) (topN : ℕ) (now : ℤ)
    (scores : Option (String → Option R)) :
    (rerank halfPower candidates info rules topN now scores).Subperm
        ((firstOccurrences candidates).filter fun c => (info c).isSome) ∧
      (rerank halfPower candidates info rules topN now scores).length ≤ topN := by
  have hordered := rulesOrder_perm halfPower candidates info rules now scores
  rw [rerank_eq]
  split
  · obtain ⟨hsub, hlen⟩ := capLoop_spec (fun item => (info item).bind ProductMeta.category)
      (max rules.maxPerCategory 1) topN (rulesOrder halfPower candidates info rules now scores)
      [] [] []
    exact ⟨hsub.trans hordered.subperm, hlen⟩
  · exact ⟨((List.take_sublist _ _).subperm).trans hordered.subperm, List.length_take_le _ _⟩

end Rerank

end Serving
