import GraphRec.Serving.VectorIndex
import Mathlib.Algebra.BigOperators.Fin
import Mathlib.Analysis.Real.Sqrt

/-!
# The in-process fallback and the index

`ensure_collection` documents that a DGSR collection has the distance DOT, because the model's
scores are unnormalised products; the worker uploads normalised rows to a collection with the
default distance, which is COSINE.  So the index ranks items by the cosine with the query, and
the fallback by the product.

* `finishPersonalized_isTopK`, `retrieveCandidates_isTopK` — what each of the two selects;
* `fallbackMatches_iff` — they select alike for every query just when any two rows of the table
  have equal norms or are parallel;
* `not_fallbackMatches` — a table of two items for which they do not.
-/

namespace VectorIndex

open TopK

variable {R : Type} [Field R] [LinearOrder R] {dim : ℕ} {artifact : Artifact R dim}
  {norm : (Fin dim → R) → R} {query : Fin dim → R} {exclude : List String} {k : ℕ}

/-- The rows whose items are not excluded. -/
def Artifact.remaining (artifact : Artifact R dim) (exclude : List String) :
    List (Fin artifact.numItems) :=
  artifact.indices.filter fun i => artifact.itemIds i ∉ exclude

omit [Field R] [LinearOrder R] in
theorem mem_remaining {i : Fin artifact.numItems} :
    i ∈ artifact.remaining exclude ↔ artifact.itemIds i ∉ exclude := by
  simp [Artifact.remaining, Artifact.indices]

/-! ## What the fallback selects -/

omit [Field R] [LinearOrder R] in
theorem itemIndex_eq_some {item : String} {i : Fin artifact.numItems} :
    artifact.itemIndex item = some i ↔ artifact.itemIds i = item := by
  constructor
  · intro h
    simpa using List.find?_some h
  · rintro rfl
    cases hfound : artifact.itemIndex (artifact.itemIds i) with
    | none =>
        have hmiss := List.find?_eq_none.mp hfound i (List.mem_finRange i)
        simp at hmiss
    | some j =>
        have hj : artifact.itemIds j = artifact.itemIds i := by simpa using List.find?_some hfound
        rw [artifact.itemIds_injective hj]

omit [Field R] [LinearOrder R] in
theorem mem_excludedRows {i : Fin artifact.numItems} :
    i ∈ exclude.filterMap artifact.itemIndex ↔ artifact.itemIds i ∈ exclude := by
  rw [List.mem_filterMap]
  constructor
  · rintro ⟨item, hmem, hindex⟩
    rwa [itemIndex_eq_some.mp hindex]
  · intro hmem
    exact ⟨_, hmem, itemIndex_eq_some.mpr rfl⟩

omit [Field R] in
/-- `top_k` is the ranked selection from the rows with a finite score. -/
theorem topK_isTopK {scores : Fin artifact.numItems → WithBot R}
    (hdistinct : Distinct scores (artifact.indices.filter fun i => scores i ≠ ⊥)) (k : ℕ) :
    ∃ out, (artifact.topK scores k).map Prod.fst = out.map artifact.itemIds ∧
      IsTopK scores k (artifact.indices.filter fun i => scores i ≠ ⊥) out := by
  refine ⟨_, ?_, isTopK_insertionSort id hdistinct k⟩
  have : Std.Antisymm (Better scores id) := antisymm_better Function.injective_id
  have hsplit := insertionSort_eq_append (Better scores id) (fun i => decide (scores i ≠ ⊥))
    (fun i j hi hj => by
      simp only [decide_eq_true_eq, decide_eq_false_iff_not, not_not] at hi hj
      exact Better.of_lt (hj ▸ bot_lt_iff_ne_bot.mpr hi)) artifact.indices
  have hfinite : artifact.indices.countP (fun i => decide (scores i ≠ ⊥)) =
      ((artifact.indices.filter fun i => scores i ≠ ⊥).insertionSort (Better scores id)).length := by
    rw [List.length_insertionSort, List.countP_eq_length_filter]
  unfold Artifact.topK
  dsimp only
  rw [hsplit, hfinite, List.map_map, List.take_append_of_le_length (min_le_right _ _),
    ← List.take_eq_take_min]
  rfl

omit [LinearOrder R] in
theorem masked_of_mem {i : Fin artifact.numItems} (hi : i ∈ artifact.remaining exclude) :
    artifact.masked (artifact.score query) exclude i = artifact.score query i := by
  unfold Artifact.masked
  rw [if_neg (fun hrow => mem_remaining.mp hi (mem_excludedRows.mp hrow))]

theorem filter_masked : (artifact.indices.filter fun i =>
    artifact.masked (artifact.score query) exclude i ≠ ⊥) = artifact.remaining exclude := by
  refine List.filter_congr fun i _ => decide_eq_decide.mpr ?_
  constructor
  · intro hfinite hi
    exact hfinite (if_pos (mem_excludedRows.mpr hi))
  · intro hi
    rw [masked_of_mem (mem_remaining.mpr hi)]
    exact WithBot.coe_ne_bot

/-- **The fallback.**  In process, the items with the best products with the query are
selected. -/
theorem finishPersonalized_isTopK {call : QdrantCall} (hcall : call.ids = [])
    (hdistinct : Distinct (artifact.score query) (artifact.remaining exclude)) (k : ℕ) :
    ∃ out, (finishPersonalized artifact (artifact.score query) call exclude k).1 =
        out.map artifact.itemIds ∧
      IsTopK (artifact.score query) k (artifact.remaining exclude) out := by
  have hmasked : Distinct (artifact.masked (artifact.score query) exclude)
      (artifact.indices.filter fun i => artifact.masked (artifact.score query) exclude i ≠ ⊥) := by
    rw [filter_masked]
    refine hdistinct.imp_of_mem ?_
    intro i j hi hj hne
    rw [masked_of_mem hi, masked_of_mem hj]
    exact fun heq => hne (WithBot.coe_injective heq)
  obtain ⟨out, hout, hselect⟩ := topK_isTopK hmasked k
  rw [filter_masked] at hselect
  refine ⟨out, ?_, hselect.congr ?_⟩
  · unfold finishPersonalized
    rw [if_neg (not_not.mpr hcall)]
    exact hout
  · intro i hi j hj hlt
    rw [masked_of_mem hi, masked_of_mem hj] at hlt
    exact WithBot.coe_lt_coe.mp hlt

/-! ## What the index selects -/

/-- The points of a table, in the order of its rows. -/
def Artifact.points (artifact : Artifact R dim) (vectors : Fin artifact.numItems → Fin dim → R)
    (tenantId versionId : String) : List (Point R dim) :=
  artifact.indices.map fun i : Fin artifact.numItems => ⟨i, vectors i, ⟨artifact.itemIds i, tenantId, versionId⟩⟩

omit [Field R] [LinearOrder R] in
/-- The batches together are all rows, numbered in order. -/
theorem upsertBatches_eq (tenantId versionId : String) (start : ℕ)
    (rows : List (String × (Fin dim → R))) :
    upsertBatches tenantId versionId start rows = batchPoints tenantId versionId start rows := by
  fun_induction upsertBatches tenantId versionId start rows with
  | case1 start => rfl
  | case2 start row rows ih =>
      rw [ih]
      conv_rhs => rw [← List.take_append_drop batchSize (row :: rows)]
      unfold batchPoints
      rw [List.zipIdx_append, List.map_append]
      congr 2
      -- A batch before another one is full.
      rcases Nat.lt_or_ge (row :: rows).length batchSize with hlast | hfull
      · rw [List.drop_eq_nil_of_le hlast.le]
        rfl
      · rw [List.length_take, min_eq_left hfull]

omit [Field R] [LinearOrder R] in
/-- The uploaded points are the rows of the matrix with their items, in order. -/
theorem upsertBatches_zip (vectors : Fin artifact.numItems → Fin dim → R)
    (tenantId versionId : String) :
    upsertBatches tenantId versionId 0
        ((artifact.indices.map artifact.itemIds).zip (artifact.indices.map vectors)) =
      artifact.points vectors tenantId versionId := by
  rw [upsertBatches_eq]
  unfold batchPoints Artifact.points Artifact.indices
  rw [List.zip_map']
  apply List.ext_getElem
  · simp
  · intro i hi hi'
    simp

/-- The score of a row in the index of `vectors`. -/
def Artifact.indexScore (artifact : Artifact R dim) (norm : (Fin dim → R) → R)
    (distance : Distance) (vectors : Fin artifact.numItems → Fin dim → R) (query : Fin dim → R)
    (i : Fin artifact.numItems) : R :=
  distance.score norm query (vectors i)

/-- **The index.**  A search retrieves the items whose stored vectors score best under the
collection's distance. -/
theorem retrieveCandidates_isTopK {distance : Distance}
    {vectors : Fin artifact.numItems → Fin dim → R} (tenantId versionId : String)
    (hdistinct : Distinct (artifact.indexScore norm distance vectors query)
      (artifact.remaining exclude)) (k : ℕ) :
    ∃ out, retrieveCandidates norm ⟨distance, artifact.points vectors tenantId versionId⟩ tenantId
        query k exclude = out.map artifact.itemIds ∧
      IsTopK (artifact.indexScore norm distance vectors query) k (artifact.remaining exclude)
        out := by
  -- A hit for each remaining row.
  let hit : Fin artifact.numItems → Point R dim × R := fun i =>
    (⟨i, vectors i, ⟨artifact.itemIds i, tenantId, versionId⟩⟩,
      artifact.indexScore norm distance vectors query i)
  have hscored : ((artifact.points vectors tenantId versionId).filter fun point =>
      decide (point.payload.tenantId = tenantId ∧
        (exclude = [] ∨ point.payload.externalId ∉ exclude))).map
      (fun point => (point, distance.score norm query point.vector)) =
        (artifact.remaining exclude).map hit := by
    unfold Artifact.points Artifact.remaining
    rw [List.filter_map, List.map_map]
    congr 1
    refine List.filter_congr fun i _ => decide_eq_decide.mpr ?_
    constructor
    · rintro ⟨-, rfl | hi⟩
      · exact List.not_mem_nil
      · exact hi
    · exact fun hi => ⟨rfl, Or.inr hi⟩
  have hselect := isTopK_insertionSort id hdistinct k
  refine ⟨_, ?_, hselect⟩
  have hhits : Distinct Prod.snd ((artifact.remaining exclude).map hit) :=
    List.pairwise_map.mpr hdistinct
  have hsearch := (isTopK_insertionSort (fun found : Point R dim × R => found.1.id) hhits k).unique
    (IsTopK.map (f := hit) hselect)
  unfold retrieveCandidates Collection.search
  dsimp only
  rw [hscored, hsearch, List.Pairwise.insertionSort_eq, List.map_map]
  · rfl
  · exact List.pairwise_map.mpr (hselect.pairwise.imp Better.of_lt)

/-! ## The two compared -/

/-- What is used of a norm. -/
structure IsNorm (norm : (Fin dim → R) → R) : Prop where
  pos : ∀ v, v ≠ 0 → 0 < norm v
  smul : ∀ (c : R) v, norm (c • v) = |c| * norm v

/-- Whatever the query, the exclusions and `k`, the fallback returns what a search of the indexed
table returns, as long as no two of the items that remain score the same. -/
def FallbackMatches (norm : (Fin dim → R) → R) (artifact : Artifact R dim) : Prop :=
  ∀ tenantId versionId collection, indexTable norm artifact tenantId versionId = .ok collection →
    ∀ query exclude k (call : QdrantCall), call.ids = [] →
      Distinct (artifact.score query) (artifact.remaining exclude) →
      Distinct (artifact.indexScore norm collection.distance (artifact.unitRow norm) query)
        (artifact.remaining exclude) →
      (finishPersonalized artifact (artifact.score query) call exclude k).1 =
        retrieveCandidates norm collection tenantId query k exclude

/-- The worker's call fills a collection with the distance COSINE. -/
theorem indexTable_eq_ok {tenantId versionId : String} {collection : Collection R dim}
    (h : indexTable norm artifact tenantId versionId = .ok collection) :
    collection = ⟨.cosine, artifact.points (artifact.unitRow norm) tenantId versionId⟩ := by
  unfold indexTable indexItemEmbeddings at h
  split at h
  · cases h
  · split at h
    · cases h
    · cases h
      rw [upsertBatches_zip]

/-- A table whose rows have a length is indexed. -/
theorem indexTable_of_pos (hpos : ∀ i, 0 < norm (artifact.embeddings i))
    (tenantId versionId : String) :
    indexTable norm artifact tenantId versionId =
      .ok ⟨.cosine, artifact.points (artifact.unitRow norm) tenantId versionId⟩ := by
  unfold indexTable indexItemEmbeddings
  rw [if_neg, if_neg, upsertBatches_zip]
  · simp
  · simpa [Artifact.indices] using hpos

variable [IsStrictOrderedRing R]

/-- The cosine with a normalised row. -/
theorem indexScore_unitRow (hnorm : IsNorm norm) {i : Fin artifact.numItems}
    (hrow : artifact.embeddings i ≠ 0) :
    artifact.indexScore norm .cosine (artifact.unitRow norm) query i =
      artifact.score query i / norm (artifact.embeddings i) / norm query := by
  have hpos := hnorm.pos _ hrow
  have hunit : norm (artifact.unitRow norm i) = 1 := by
    rw [Artifact.unitRow, hnorm.smul, abs_of_pos (inv_pos.mpr hpos), inv_mul_cancel₀ hpos.ne']
  unfold Artifact.indexScore Distance.score
  dsimp only
  rw [hunit, mul_one, Artifact.unitRow, dotProduct_smul, smul_eq_mul, ← div_eq_inv_mul]
  rfl

omit [LinearOrder R] [IsStrictOrderedRing R] in
/-- Of two parallel vectors without zero, the first is a multiple of the second. -/
theorem exists_eq_smul [LinearOrder R] {a b : Fin dim → R} (h : Parallel a b) (ha : a ≠ 0)
    (hb : b ≠ 0) : ∃ c : R, c ≠ 0 ∧ a = c • b := by
  obtain ⟨c, hab | hba⟩ := h
  · refine ⟨c, ?_, hab⟩
    rintro rfl
    exact ha (by rw [hab, zero_smul])
  · have hc : c ≠ 0 := by
      rintro rfl
      exact hb (by rw [hba, zero_smul])
    exact ⟨c⁻¹, inv_ne_zero hc, by rw [hba, smul_smul, inv_mul_cancel₀ hc, one_smul]⟩

/-- Rows of equal norm or in parallel are ordered alike by the product and by the cosine, unless
the cosine does not tell them apart. -/
theorem indexScore_lt (hnorm : IsNorm norm) (hrows : ∀ i, artifact.embeddings i ≠ 0)
    {i j : Fin artifact.numItems}
    (hij : norm (artifact.embeddings i) = norm (artifact.embeddings j) ∨
      Parallel (artifact.embeddings i) (artifact.embeddings j))
    (hne : artifact.indexScore norm .cosine (artifact.unitRow norm) query i ≠
      artifact.indexScore norm .cosine (artifact.unitRow norm) query j)
    (hlt : artifact.score query j < artifact.score query i) :
    artifact.indexScore norm .cosine (artifact.unitRow norm) query j <
      artifact.indexScore norm .cosine (artifact.unitRow norm) query i := by
  have hquery : query ≠ 0 := by
    rintro rfl
    simp [Artifact.score] at hlt
  have hi := hnorm.pos _ (hrows i)
  have hj := hnorm.pos _ (hrows j)
  rw [indexScore_unitRow hnorm (hrows i), indexScore_unitRow hnorm (hrows j)] at *
  rw [div_lt_div_iff_of_pos_right (hnorm.pos query hquery)]
  rcases hij with heq | hparallel
  · rw [heq, div_lt_div_iff_of_pos_right hj]
    exact hlt
  · obtain ⟨c, hc, hrow⟩ := exists_eq_smul hparallel (hrows i) (hrows j)
    have hscore : artifact.score query i = c * artifact.score query j := by
      unfold Artifact.score
      rw [hrow, dotProduct_smul, smul_eq_mul]
    rcases lt_or_gt_of_ne hc with hneg | hpos
    · -- Opposite directions: one score is negative, the other positive.
      have hjneg : artifact.score query j < 0 := by nlinarith
      have hipos : 0 < artifact.score query i := by nlinarith
      exact (div_neg_of_neg_of_pos hjneg hj).trans (div_pos hipos hi)
    · -- One direction: the cosines are the same.
      refine absurd ?_ hne
      rw [hscore, hrow, hnorm.smul, abs_of_pos hpos, mul_div_mul_left _ _ hpos.ne']

/-! ## Two rows that are ordered differently -/

/-- Everything but two items. -/
def Artifact.others (artifact : Artifact R dim) (i j : Fin artifact.numItems) : List String :=
  (artifact.indices.filter fun m => m ≠ i ∧ m ≠ j).map artifact.itemIds

omit [Field R] [LinearOrder R] [IsStrictOrderedRing R] in
theorem remaining_others {i j : Fin artifact.numItems} (hij : i ≠ j) :
    (artifact.remaining (artifact.others i j)).Perm [i, j] := by
  refine (List.perm_ext_iff_of_nodup ?_ (by simpa using hij)).mpr ?_
  · exact (List.nodup_finRange _).filter _
  · intro m
    rw [mem_remaining, Artifact.others, List.mem_map]
    constructor
    · intro hm
      by_contra hne
      rw [List.mem_cons, List.mem_singleton, not_or] at hne
      exact hm ⟨m, List.mem_filter.mpr ⟨List.mem_finRange m, by simpa using hne⟩, rfl⟩
    · rintro hm ⟨m', hm', hsame⟩
      rw [artifact.itemIds_injective hsame, List.mem_filter, decide_eq_true_iff] at hm'
      rcases List.mem_cons.mp hm with rfl | hm
      · exact hm'.2.1 rfl
      · exact hm'.2.2 (List.mem_singleton.mp hm)

/-- A query for which the product prefers one row and the cosine the other. -/
theorem exists_query (hnorm : IsNorm norm) (hrows : ∀ i, artifact.embeddings i ≠ 0)
    {i j : Fin artifact.numItems}
    (hlt : norm (artifact.embeddings j) < norm (artifact.embeddings i))
    (hparallel : ¬ Parallel (artifact.embeddings i) (artifact.embeddings j)) :
    ∃ query, artifact.score query j < artifact.score query i ∧
      artifact.indexScore norm .cosine (artifact.unitRow norm) query i <
        artifact.indexScore norm .cosine (artifact.unitRow norm) query j := by
  have hi := hnorm.pos _ (hrows i)
  have hj := hnorm.pos _ (hrows j)
  obtain ⟨query, hqi, hqj⟩ := exists_dotProduct_eq hparallel
    (norm (artifact.embeddings i) + norm (artifact.embeddings j))
    (2 * norm (artifact.embeddings j))
  have hquery : query ≠ 0 := by
    rintro rfl
    rw [zero_dotProduct] at hqi
    linarith
  refine ⟨query, ?_, ?_⟩
  · unfold Artifact.score
    rw [hqi, hqj]
    linarith
  · rw [indexScore_unitRow hnorm (hrows i), indexScore_unitRow hnorm (hrows j),
      div_lt_div_iff_of_pos_right (hnorm.pos query hquery)]
    unfold Artifact.score
    rw [hqi, hqj, mul_div_cancel_right₀ _ hj.ne', div_lt_iff₀ hi]
    linarith

/-- Two rows of different norm that are not parallel are a pair the two disagree about. -/
theorem not_matches_of_pair (hnorm : IsNorm norm) (hrows : ∀ i, artifact.embeddings i ≠ 0)
    {i j : Fin artifact.numItems}
    (hlt : norm (artifact.embeddings j) < norm (artifact.embeddings i))
    (hparallel : ¬ Parallel (artifact.embeddings i) (artifact.embeddings j)) :
    ¬ FallbackMatches norm artifact := by
  intro hmatches
  have hij : i ≠ j := fun heq => hlt.ne (by rw [heq])
  obtain ⟨query, hscore, hindex⟩ := exists_query hnorm hrows hlt hparallel
  have hperm := remaining_others hij
  have hpair : Distinct (artifact.score query) [i, j] := List.pairwise_pair.mpr hscore.ne'
  have hpair' : Distinct (artifact.indexScore norm .cosine (artifact.unitRow norm) query) [i, j] :=
    List.pairwise_pair.mpr hindex.ne
  have hdistinct := hpair.of_perm hperm.symm
  have hdistinct' := hpair'.of_perm hperm.symm
  have hskipped : QdrantCall.skipped.ids = [] := rfl
  have hsame := hmatches "" "" _ (indexTable_of_pos (fun m => hnorm.pos _ (hrows m)) "" "") query
    (artifact.others i j) 1 .skipped hskipped hdistinct hdistinct'
  obtain ⟨out, hout, hselect⟩ := finishPersonalized_isTopK hskipped hdistinct 1
  obtain ⟨out', hout', hselect'⟩ := retrieveCandidates_isTopK "" "" hdistinct' 1
  have hfirst : out = [i] := hselect.unique ((isTopK_pair hscore).of_perm hperm.symm)
  have hsecond : out' = [j] := hselect'.unique
    ((isTopK_pair hindex).of_perm ((List.Perm.swap i j []).trans hperm.symm))
  rw [hout, hout', hfirst, hsecond] at hsame
  exact hij (artifact.itemIds_injective (by simpa using hsame))

/-- **The fallback and the index.**  For a table without zero rows, the in-process Top-K is that
of the index for every query, every exclusion and every `k` just when any two rows have equal
norms or are parallel. -/
theorem fallbackMatches_iff (hnorm : IsNorm norm) (hrows : ∀ i, artifact.embeddings i ≠ 0) :
    FallbackMatches norm artifact ↔ ∀ i j,
      norm (artifact.embeddings i) = norm (artifact.embeddings j) ∨
        Parallel (artifact.embeddings i) (artifact.embeddings j) := by
  constructor
  · intro hmatches i j
    by_contra hnot
    rw [not_or] at hnot
    rcases lt_or_gt_of_ne hnot.1 with hlt | hgt
    · have hsymm : ¬ Parallel (artifact.embeddings j) (artifact.embeddings i) := by
        rintro ⟨c, h⟩
        exact hnot.2 ⟨c, h.symm⟩
      exact not_matches_of_pair hnorm hrows hlt hsymm hmatches
    · exact not_matches_of_pair hnorm hrows hgt hnot.2 hmatches
  · intro hall tenantId versionId collection hindexed query exclude k call hcall hdistinct
      hdistinct'
    obtain rfl := indexTable_eq_ok hindexed
    obtain ⟨out, hout, hselect⟩ := finishPersonalized_isTopK hcall hdistinct k
    obtain ⟨out', hout', hselect'⟩ := retrieveCandidates_isTopK tenantId versionId hdistinct' k
    have hagree : IsTopK (artifact.indexScore norm .cosine (artifact.unitRow norm) query) k
        (artifact.remaining exclude) out := by
      refine hselect.congr ?_
      intro i hi j hj hlt
      have hij : i ≠ j := fun heq => hlt.ne (by rw [heq])
      exact indexScore_lt hnorm hrows (hall i j) (hdistinct'.ne hi hj hij) hlt
    rw [hout, hout', hagree.unique hselect']

/-- The norm over the reals. -/
noncomputable def euclidean {n : ℕ} (v : Fin n → ℝ) : ℝ := √(v ⬝ᵥ v)

theorem isNorm_euclidean {n : ℕ} : IsNorm (euclidean (n := n)) where
  pos v hv := by
    have hne : v ⬝ᵥ v ≠ 0 := fun h => hv (dotProduct_self_eq_zero.mp h)
    have hnonneg : 0 ≤ v ⬝ᵥ v := Finset.sum_nonneg fun i _ => mul_self_nonneg (v i)
    exact Real.sqrt_pos.mpr (lt_of_le_of_ne hnonneg hne.symm)
  smul c v := by
    rw [euclidean, euclidean, smul_dotProduct, dotProduct_smul, smul_eq_mul, smul_eq_mul,
      ← mul_assoc, Real.sqrt_mul (mul_self_nonneg c), Real.sqrt_mul_self_eq_abs]

/-- Two items in orthogonal directions. -/
def twoItems (R : Type) (x y : R) [Zero R] : Artifact R 2 where
  numItems := 2
  itemIds i := if i = 0 then "mug" else "lamp"
  itemIds_injective i j h := by
    fin_cases i <;> fin_cases j <;> first | rfl | simp at h
  embeddings i := if i = 0 then ![x, 0] else ![0, y]

/-- `fallbackMatches_iff` for a table whose rows have equal norms. -/
theorem fallbackMatches_equalNorms : FallbackMatches euclidean (twoItems ℝ 2 2) := by
  refine (fallbackMatches_iff isNorm_euclidean ?_).mpr ?_
  · intro i
    fin_cases i <;> simp [twoItems]
  · intro i j
    refine Or.inl ?_
    fin_cases i <;> fin_cases j <;> simp [twoItems, euclidean, dotProduct, Fin.sum_univ_two]

/-- The norm of a rational vector, where it is rational. -/
def rationalNorm (v : Fin 2 → ℚ) : ℚ :=
  (Nat.sqrt (v ⬝ᵥ v).num.natAbs : ℚ) / (Nat.sqrt (v ⬝ᵥ v).den : ℚ)

/-- One row is twice as long as the other: for the query (3, 4) the fallback ranks the mug first,
with 6 before 4, and the index the lamp, with 4/5 before 3/5. -/
theorem not_fallbackMatches :
    (∀ v ∈ [![2, 0], ![0, 1], ![3, 4]], rationalNorm v * rationalNorm v = v ⬝ᵥ v) ∧
      ¬ FallbackMatches rationalNorm (twoItems ℚ 2 1) := by
  refine ⟨by decide +kernel, ?_⟩
  intro hmatches
  have hindexed : indexTable rationalNorm (twoItems ℚ 2 1) "t" "v" = .ok _ :=
    indexTable_of_pos (by decide +kernel) "t" "v"
  have hsame := hmatches "t" "v" _ hindexed ![3, 4] [] 2 .skipped rfl
    (by unfold Distinct; decide +kernel) (by unfold Distinct; decide +kernel)
  revert hsame
  decide +kernel

end VectorIndex
