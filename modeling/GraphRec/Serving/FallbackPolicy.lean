import GraphRec.Serving.CategoryCap
import GraphRec.Serving.Neighbors
import GraphRec.Serving.Safety

/-!
# The fallback policy

Sources, error branches, the top-up and the popular tier each look at `fallback_allowed`.

* A request that does not allow fallbacks is answered with candidates of the neighbours and of the
  model's own retrieval only (`retrieve_recorded`).  Every such candidate counts as served by the
  model, so the answer is not reported as a fallback either.
* A request that allows them reaches the popular tier whenever nothing else is left, and that tier
  is empty only for lack of servable products (`popularFallback_ne_nil`).

`run_fallbackPolicy` puts the two together, for every result of the sources.
-/

namespace Serving

variable {R : Type} [Field R] [LinearOrder R]

/-! ## Where a candidate comes from -/

/-- The candidate has a source, and each of its sources returned its product. -/
def Candidate.RecordedBy (c : Candidate R) (returned : Source → String → Prop) : Prop :=
  c.sources ≠ [] ∧ ∀ s ∈ c.sources, returned s c.externalId

section Recorded

variable {returned : Source → String → Prop} {candidates : List (Candidate R)} {source : Source}

omit [Field R] [LinearOrder R] in
theorem mem_sources_addSource {c : Candidate R} {s : Source} {rank : ℕ} {anchor : Option String} :
    s ∈ (c.addSource source rank anchor).sources ↔ s ∈ c.sources ∨ s = source := by
  unfold Candidate.addSource
  by_cases hknown : source ∈ c.sources
  · simp only [hknown, if_true]
    constructor
    · exact Or.inl
    · rintro (hs | rfl)
      · exact hs
      · exact hknown
  · simp [hknown]

omit [Field R] [LinearOrder R] in
theorem recordedBy_addSource {c : Candidate R} (hc : ∀ s ∈ c.sources, returned s c.externalId)
    (hsource : returned source c.externalId) (rank : ℕ) (anchor : Option String) :
    (c.addSource source rank anchor).RecordedBy returned := by
  constructor
  · exact List.ne_nil_of_mem (mem_sources_addSource.mpr (.inr rfl))
  · intro s hs
    rw [Candidate.addSource_externalId]
    rcases mem_sources_addSource.mp hs with hs | rfl
    · exact hc s hs
    · exact hsource

omit [LinearOrder R] in
/-- A source that returned a product is recorded for it. -/
theorem addItem_recorded (h : ∀ c ∈ candidates, c.RecordedBy returned) {item : String}
    (hitem : returned source item) (anchor : Option String) (rank : ℕ) :
    ∀ c ∈ addItem candidates source item anchor rank, c.RecordedBy returned := by
  intro c hc
  rw [addItem] at hc
  split at hc
  · obtain ⟨c', hc', rfl⟩ := List.mem_map.mp hc
    split
    · next heq =>
        exact recordedBy_addSource (h c' hc').2 (heq ▸ hitem) rank anchor
    · exact h c' hc'
  · rcases List.mem_append.mp hc with hc | hc
    · exact h c hc
    · rw [List.mem_singleton.mp hc]
      exact recordedBy_addSource (fun s hs => absurd hs List.not_mem_nil) hitem rank anchor

omit [LinearOrder R] in
theorem addIds_recorded (h : ∀ c ∈ candidates, c.RecordedBy returned)
    {items : List (String × Option String)} (hitems : ∀ row ∈ items, returned source row.1) :
    ∀ c ∈ addIds candidates source items, c.RecordedBy returned := by
  have hrows : ∀ row ∈ items.zipIdx 1, returned source row.1.1 :=
    fun row hrow => hitems row.1 (List.fst_mem_of_mem_zipIdx hrow)
  rw [addIds]
  generalize items.zipIdx 1 = rows at hrows ⊢
  induction rows generalizing candidates with
  | nil => exact h
  | cons row rows ih =>
      rw [List.forall_mem_cons] at hrows
      exact ih (addItem_recorded h hrows.1 _ _) hrows.2

omit [LinearOrder R] in
theorem addResult_recorded (h : ∀ c ∈ candidates, c.RecordedBy returned)
    {result : Except SourceError (List (String × Option String))}
    (hresult : ∀ items, result = .ok items → ∀ row ∈ items, returned source row.1) :
    ∀ c ∈ addResult candidates source result, c.RecordedBy returned := by
  cases result with
  | ok items => exact addIds_recorded h (hresult items rfl)
  | error e => exact h

end Recorded

/-! ## The sources that are no fallback -/

/-- What is retrieved for the shopper: Qdrant's answer or the Top-K computed in process; for a
placeholder model, what its search returns. -/
def personalizedResult (env : Environment R) (personal : Option (Personal R)) (openUntil : ℤ) :
    Except SourceError (List String) :=
  if personal.isSome then (finishPersonalized env (startQdrant env openUntil) openUntil).1
  else if env.placeholder then env.placeholderSearch
  else .ok []

/-- The two sources that are no fallback, and what they returned. -/
def modelReturned (env : Environment R) (personal : Option (Personal R)) (openUntil : ℤ) :
    Source → String → Prop
  | .sessionNeighbors, item =>
      personal.isSome ∧ ∃ pairs, env.neighbors = .ok pairs ∧ item ∈ pairs.map Prod.fst
  | .dgsrPersonalized, item =>
      ∃ items, personalizedResult env personal openUntil = .ok items ∧ item ∈ items
  | _, _ => False

omit [LinearOrder R] in
/-- **Retrieval without fallbacks.**  The candidates are what those two sources returned. -/
theorem retrieve_recorded (env : Environment R) {request : Request R}
    (hallowed : request.fallbackAllowed = false) (personal : Option (Personal R))
    (exclude : List String) (openUntil : ℤ) :
    ∀ c ∈ (retrieve env request personal exclude openUntil).candidates,
      c.RecordedBy (modelReturned env personal openUntil) := by
  have hnil : ∀ c ∈ ([] : List (Candidate R)),
      c.RecordedBy (modelReturned env personal openUntil) := fun c hc => absurd hc List.not_mem_nil
  cases personal with
  | some p =>
      simp only [retrieve, retrievePersonal, hallowed, Bool.false_eq_true, if_false]
      refine addResult_recorded (addResult_recorded hnil ?_) ?_
      · intro items hitems row hrow
        cases hpairs : env.neighbors with
        | error e =>
            rw [hpairs] at hitems
            cases hitems
        | ok pairs =>
            rw [hpairs] at hitems
            cases hitems
            obtain ⟨pair, hpair, rfl⟩ := List.mem_map.mp hrow
            exact ⟨rfl, pairs, hpairs, List.mem_map_of_mem hpair⟩
      · intro items hitems row hrow
        cases hfound : (finishPersonalized env (startQdrant env openUntil) openUntil).1 with
        | error e =>
            rw [hfound] at hitems
            cases hitems
        | ok found =>
            rw [hfound] at hitems
            cases hitems
            obtain ⟨item, hitem, rfl⟩ := List.mem_map.mp hrow
            exact ⟨found, hfound, hitem⟩
  | none =>
      simp only [retrieve, retrieveOther]
      split
      · next hplaceholder =>
          split
          · next items hitems =>
              refine addIds_recorded hnil fun row hrow => ?_
              obtain ⟨item, hitem, rfl⟩ := List.mem_map.mp hrow
              refine ⟨items, ?_, hitem⟩
              rw [personalizedResult, if_neg (by simp), if_pos hplaceholder, hitems]
          · exact hnil
      · exact hnil

/-! ## The later stages -/

section Stages

variable {env : Environment R} {request : Request R} {personal : Option (Personal R)}
  {info : String → Option ProductMeta} {candidates ordered picked : List (Candidate R)}
  {exclude : List String} {c : Candidate R}

/-- The score that the model gives a product, if it knows it. -/
def modelScoreOf (personal : Option (Personal R)) (item : String) : Option R :=
  personal.bind fun p => (p.query.model.itemIndex item).map p.scores

/-- Scoring leaves the ids and the sources alone. -/
theorem mem_score {popularity : Option Popularity}
    (h : c ∈ score env personal popularity info candidates) : ∃ c' ∈ candidates,
      c.externalId = c'.externalId ∧ c.sources = c'.sources ∧
      c.modelScore = modelScoreOf personal c'.externalId := by
  obtain ⟨scored, hscored, rfl⟩ := List.mem_map.mp h
  obtain ⟨c', hc', rfl⟩ := List.mem_map.mp hscored
  refine ⟨c', hc', rfl, rfl, ?_⟩
  cases personal <;> rfl

omit [Field R] in
theorem mem_relevanceOrder (h : c ∈ relevanceOrder candidates) : ∃ c' ∈ candidates,
    c.externalId = c'.externalId ∧ c.sources = c'.sources ∧ c.modelScore = c'.modelScore := by
  obtain ⟨⟨c', index⟩, hc', rfl⟩ := List.mem_map.mp h
  exact ⟨c', (List.mem_insertionSort _).mp (List.fst_mem_of_mem_zipIdx hc'), rfl, rfl, rfl⟩

theorem mem_applyRules (h : c ∈ applyRules env request info picked) : c ∈ picked := by
  rw [applyRules] at h
  split at h
  · exact h
  · obtain ⟨item, _, hfind⟩ := List.mem_filterMap.mp h
    exact List.mem_of_find?_eq_some hfind

/-- Re-ranking returns some of the candidates as they are. -/
theorem mem_rerankStage (h : c ∈ rerankStage env request personal info ordered) : c ∈ ordered := by
  have hmmr : c ∈ mmrStage env request personal ordered :=
    mem_applyRules (List.mem_of_mem_take h)
  rw [mmrStage] at hmmr
  exact (mmrOrder_subperm _ _ _ _ _ _).subset hmmr

/-- A ranked item is a candidate with the score that the model gives it. -/
theorem mem_rankedItems {retrieval : Retrieval R}
    (h : c ∈ rankedItems env request personal exclude retrieval) : ∃ c' ∈ retrieval.candidates,
      c.externalId = c'.externalId ∧ c.sources = c'.sources ∧
      c.modelScore = modelScoreOf personal c.externalId := by
  obtain ⟨scored, hscored, hid, hsources, hscore⟩ := mem_relevanceOrder (mem_rerankStage h)
  obtain ⟨c', hc', hid', hsources', hscore'⟩ := mem_score hscored
  refine ⟨c', (List.mem_filter.mp hc').1, hid.trans hid', hsources.trans hsources', ?_⟩
  rw [hscore, hscore', hid, hid']

end Stages

/-! ## Without fallbacks -/

section Model

variable {argpartition : (ℕ → Extended R) → ℕ → ℕ → List ℕ} {q : Query R}
  {anchors exclude : List String}

theorem lt_of_mem_fastTopK {n : ℕ} {scores : ℕ → Extended R} {k : ℤ} {i : ℕ}
    (h : i ∈ fastTopK argpartition n scores k) : i < n := by
  dsimp only [fastTopK] at h
  split at h
  · exact absurd h List.not_mem_nil
  · have hpool := (List.mem_insertionSort _).mp (List.mem_of_mem_take h)
    exact List.mem_range.mp (List.mem_filter.mp hpool).1

omit [Field R] [LinearOrder R] in
theorem isSome_itemIndex_itemId {model : ServedModel R} {i : ℕ}
    (hi : i < model.artifact.data.numItems) : (model.itemIndex (model.itemId i)).isSome := by
  have hi' : i < model.artifact.data.itemIds.length := hi
  rw [ServedModel.itemIndex, List.isSome_idxOf?, ServedModel.itemId, List.getElem?_eq_getElem hi',
    Option.getD_some]
  exact List.getElem_mem hi'

theorem anchorList_known {model : ServedModel R} {blocked : List ℕ} {count : ℕ} {anchor : String}
    {l : List (String × String)} (h : anchorList argpartition model blocked count anchor = .ok l) :
    ∀ pair ∈ l, (model.itemIndex pair.1).isSome := by
  rw [anchorList] at h
  split at h
  · cases h
  · cases h
    intro pair hpair
    obtain ⟨i, hi, rfl⟩ := List.mem_map.mp hpair
    exact isSome_itemIndex_itemId (lt_of_mem_fastTopK hi)

/-- Neighbours are items of the model. -/
theorem sourceNeighbors_known {pairs : List (String × String)}
    (h : sourceNeighbors argpartition q anchors exclude = .ok pairs) :
    ∀ item ∈ pairs.map Prod.fst, (q.model.itemIndex item).isSome := by
  unfold sourceNeighbors at h
  split at h
  · cases h
    exact fun item hitem => absurd hitem List.not_mem_nil
  · dsimp only at h
    split at h
    · cases h
    · next lists hlists =>
        cases h
        intro item hitem
        obtain ⟨l, hl, pair, hpair, rfl⟩ := RoundRobin.mem_keys_merge.mp hitem
        obtain ⟨anchor, _, hanchor⟩ := Fallible.exists_of_mapM_eq_ok hlists l hl
        exact anchorList_known hanchor pair (List.mem_of_mem_take hpair)

/-- The neighbours of a run are what `source_neighbors` returns, unless it raises. -/
def Environment.CallsSourceNeighbors (env : Environment R) (request : Request R)
    (personal : Option (Personal R)) : Prop :=
  ∀ p, personal = some p → env.neighbors = .error .raised ∨
    ∃ argpartition, env.neighbors = sourceNeighbors argpartition p.query
      (neighborAnchors p.query) (excludedItems request personal)

variable {env : Environment R} {request : Request R} {personal : Option (Personal R)}
  {service : Service}

/-- What is recorded for the two sources counts as served by the model. -/
theorem modelServed_of_recorded (hneighbors : env.CallsSourceNeighbors request personal)
    {picked : List (Candidate R)} (hne : picked ≠ []) {openUntil : ℤ}
    (hrecorded : ∀ c ∈ picked, c.RecordedBy (modelReturned env personal openUntil))
    (hscore : ∀ c ∈ picked, c.modelScore = modelScoreOf personal c.externalId) :
    modelServed picked = true := by
  obtain ⟨c, hc⟩ := List.exists_mem_of_ne_nil picked hne
  obtain ⟨hsources, hreturned⟩ := hrecorded c hc
  obtain ⟨s, hs⟩ := List.exists_mem_of_ne_nil c.sources hsources
  have hitem := hreturned s hs
  refine List.any_eq_true.mpr ⟨c, hc, ?_⟩
  cases s with
  | dgsrPersonalized => simp [hs]
  | sessionNeighbors =>
      -- A neighbour is an item of the model, so it has a score.
      obtain ⟨hpersonal, pairs, hpairs, hmem⟩ := hitem
      obtain ⟨p, rfl⟩ := Option.isSome_iff_exists.mp hpersonal
      have hknown : (p.query.model.itemIndex c.externalId).isSome := by
        rcases hneighbors p rfl with hraised | ⟨argpartition, hcall⟩
        · rw [hraised] at hpairs
          cases hpairs
        · exact sourceNeighbors_known (hcall.symm.trans hpairs) _ hmem
      have hsome : c.modelScore.isSome := by
        rw [hscore c hc, modelScoreOf, Option.bind_some, Option.isSome_map]
        exact hknown
      simp [hsome]
  | popularInCategory => exact hitem.elim
  | trending => exact hitem.elim
  | lastGood => exact hitem.elim

/-- **Without fallbacks** the answer is what the two sources returned, and is not reported as a
fallback. -/
theorem respond_not_allowed (hallowed : request.fallbackAllowed = false)
    (hneighbors : env.CallsSourceNeighbors request personal) :
    (respond env request personal service).1.fallbackUsed = false ∧
      ∀ c ∈ (respond env request personal service).1.items,
        c.RecordedBy (modelReturned env personal service.qdrantOpenUntil) := by
  have hnone : ∀ exclude, popularFallback env request exclude = [] := by
    intro exclude
    rw [popularFallback, hallowed]
    rfl
  have hguaranteed : ∀ exclude remembered (picked : List (Candidate R)),
      guaranteed env request exclude remembered picked = picked := by
    intro exclude remembered picked
    rw [guaranteed, if_neg]
    rw [hallowed]
    exact fun h => absurd h.2.2 (by simp)
  dsimp only [respond]
  rw [hnone, hguaranteed]
  generalize hpicked : rankedItems env request personal (excludedItems request personal)
    (retrieve env request personal (excludedItems request personal) service.qdrantOpenUntil) =
      picked
  have hranked : ∀ c ∈ picked, c.RecordedBy (modelReturned env personal service.qdrantOpenUntil) ∧
      c.modelScore = modelScoreOf personal c.externalId := by
    intro c hc
    rw [← hpicked] at hc
    obtain ⟨c', hc', hid, hsources, hscore⟩ := mem_rankedItems hc
    have hrecorded := retrieve_recorded env hallowed personal _ _ c' hc'
    rw [Candidate.RecordedBy, ← hid, ← hsources] at hrecorded
    exact ⟨hrecorded, hscore⟩
  by_cases hempty : picked = []
  · simp [hempty]
  · rw [if_neg hempty, if_neg hempty]
    have hserved := modelServed_of_recorded hneighbors hempty (fun c hc => (hranked c hc).1)
      fun c hc => (hranked c hc).2
    exact ⟨by rw [hserved]; rfl, fun c hc => (hranked c hc).1⟩

end Model

/-! ## With fallbacks -/

section Fallback

variable {env : Environment R} {request : Request R} {exclude : List String} {item : String}

theorem isSome_eligibleMeta {catalogue : Catalogue} {items : List String}
    (hservable : catalogue.Servable item) (hitem : item ∈ items) :
    (catalogue.eligibleMeta items item).isSome := by
  obtain ⟨p, hp, rfl, hserve⟩ := hservable
  rw [Catalogue.eligibleMeta, Option.isSome_map, List.find?_isSome]
  exact ⟨p, hp, by simp [hitem, hserve]⟩

/-- Some servable product that is not excluded is popular enough for the list. -/
theorem popularProducts_ne_nil {catalogue : Catalogue} (window : List CustomerEvent) {limit : ℕ}
    (hlimit : 1 ≤ limit) (hservable : catalogue.Servable item) (hitem : item ∉ exclude) :
    popularProducts catalogue window limit exclude ≠ [] := by
  obtain ⟨p, hp, rfl, hserve⟩ := hservable
  have hmem : p ∈ catalogue.products.filter fun p =>
      p.servable && decide (p.externalId ∉ exclude) :=
    List.mem_filter.mpr ⟨hp, by simp [hserve, hitem]⟩
  rw [popularProducts, Ne, List.take_eq_nil_iff, not_or]
  refine ⟨by omega, List.ne_nil_of_mem ((List.mem_insertionSort _).mpr (List.mem_map_of_mem hmem))⟩

/-- The rules leave something of it. -/
theorem fallbackOrder_ne_nil (htopN : 1 ≤ request.topN) {rows : List (String × ℕ)}
    (hrows : rows ≠ []) (hservable : ∀ item ∈ rows.map Prod.fst, env.catalogue.Servable item) :
    fallbackOrder env request rows ≠ [] := by
  obtain ⟨row, hrow⟩ := List.exists_mem_of_ne_nil rows hrows
  have hitem : row.1 ∈ rows.map Prod.fst := List.mem_map_of_mem hrow
  rw [fallbackOrder]
  split
  · exact List.ne_nil_of_mem hitem
  · rw [← List.length_pos_iff, length_rerank]
    have hknown : row.1 ∈ knownIds (rows.map Prod.fst)
        (env.catalogue.eligibleMeta (rows.map Prod.fst)) :=
      mem_knownIds.mpr ⟨hitem, isSome_eligibleMeta (hservable _ hitem) hitem⟩
    exact lt_min (by omega) (List.length_pos_of_mem hknown)

/-- **With fallbacks** the popular tier is empty only for lack of servable products. -/
theorem popularFallback_ne_nil (hallowed : request.fallbackAllowed = true)
    (htopN : 1 ≤ request.topN) (hservable : env.catalogue.Servable item) (hitem : item ∉ exclude) :
    popularFallback env request exclude ≠ [] := by
  rw [popularFallback, if_pos hallowed]
  extract_lets limit rows
  have hlimit : 1 ≤ limit := by
    unfold limit
    split <;> omega
  have hrows : rows ≠ [] := popularProducts_ne_nil _ hlimit hservable hitem
  have horder : fallbackOrder env request rows ≠ [] := fallbackOrder_ne_nil htopN hrows
    fun item hitem =>
    ((popularProducts_spec env.catalogue _ limit exclude).2.2 item hitem).1
  rw [← List.length_pos_iff] at horder ⊢
  rw [List.length_map, List.length_zipIdx, List.length_take]
  omega

end Fallback

/-! ## A run -/

/-- **The fallback policy.**  Whatever the sources return, and unless the scoring raises, a run
answers.  A request that does not allow fallbacks gets products that the neighbours or the model's
retrieval returned, and none that only trending, category popularity, the cache or the popular
tier did; its answer is not reported as a fallback.  One that allows them gets products, as long
as some servable product is not excluded by the request. -/
theorem run_fallbackPolicy (env : Environment R) (request : Request R) (service : Service)
    (htopN : 1 ≤ request.topN) (personal : Option (Personal R))
    (hscoring : personalStage (queryStage env request) = .ok personal)
    (hneighbors : env.CallsSourceNeighbors request personal) :
    ∃ outcome service', run env request service = .ok (outcome, service') ∧
      (request.fallbackAllowed = false → outcome.fallbackUsed = false ∧
        ∀ c ∈ outcome.items, c.RecordedBy (modelReturned env personal service.qdrantOpenUntil)) ∧
      (request.fallbackAllowed = true →
        (∃ item, env.catalogue.Servable item ∧ item ∉ request.excludeProductIds) →
        outcome.items ≠ []) := by
  refine ⟨_, _, by rw [run, hscoring]; rfl, fun hallowed =>
    respond_not_allowed hallowed hneighbors, fun hallowed hexists => ?_⟩
  obtain ⟨item, hservable, hitem⟩ := hexists
  dsimp only [respond]
  split
  · exact popularFallback_ne_nil hallowed htopN hservable
      fun hmem => hitem (mem_firstOccurrences.mp hmem)
  · next hpicked => exact hpicked

/-! ## An outage -/

/-- A customer with one purchase, while the neighbours and the popularity ranking raise, Qdrant does
not answer, and the model's own items are not on the shop. -/
def outageEnvironment (inMemory : List String) : Environment ℚ :=
  { smallEnvironment (smallCatalogue true) (some ⟨"dgsr", some (.ok smallQuery.model)⟩) with
    events := [⟨.purchase, some "u", some "x", 0, 0⟩]
    neighbors := .error .raised
    inMemory := .ok inMemory }

/-- Without fallbacks what the model finds is served, and nothing else; with fallbacks there are
products even if it finds none that can be served. -/
theorem run_fallbackPolicy_outage :
    (∃ outcome service', run (outageEnvironment ["z", "a"])
        { smallRequest with fallbackAllowed := false } (serving ℚ).init = .ok (outcome, service') ∧
      outcome.fallbackUsed = false ∧ ids outcome.items = ["a"]) ∧
    ∃ outcome service', run (outageEnvironment ["z"]) smallRequest (serving ℚ).init =
        .ok (outcome, service') ∧ outcome.items ≠ [] := by
  have hscoring : ∀ env : Environment ℚ, ∀ request : Request ℚ,
      (personalStage (queryStage env request)).toOption.isSome = true →
      ∃ personal, personalStage (queryStage env request) = .ok personal := by
    intro env request h
    cases hstage : personalStage (queryStage env request) with
    | error e => simp [hstage, Except.toOption] at h
    | ok personal => exact ⟨personal, rfl⟩
  have hraised : ∀ inMemory request personal,
      (outageEnvironment inMemory).CallsSourceNeighbors request personal :=
    fun _ _ _ _ _ => .inl rfl
  constructor
  · obtain ⟨personal, hpersonal⟩ := hscoring (outageEnvironment ["z", "a"])
      { smallRequest with fallbackAllowed := false } (by decide +kernel)
    obtain ⟨outcome, service', hrun, hpolicy, _⟩ := run_fallbackPolicy
      (outageEnvironment ["z", "a"]) { smallRequest with fallbackAllowed := false }
      (serving ℚ).init (by decide) personal hpersonal (hraised _ _ _)
    have hitems : ((run (outageEnvironment ["z", "a"])
        { smallRequest with fallbackAllowed := false } (serving ℚ).init).toOption.map fun result =>
          ids result.1.items) = some ["a"] := by decide +kernel
    rw [hrun] at hitems
    exact ⟨outcome, service', hrun, (hpolicy rfl).1, Option.some.inj hitems⟩
  · obtain ⟨personal, hpersonal⟩ := hscoring (outageEnvironment ["z"]) smallRequest
      (by decide +kernel)
    obtain ⟨outcome, service', hrun, _, hpolicy⟩ := run_fallbackPolicy (outageEnvironment ["z"])
      smallRequest (serving ℚ).init (by decide) personal hpersonal (hraised _ _ _)
    refine ⟨outcome, service', hrun, hpolicy rfl ⟨"a", ?_, by decide⟩⟩
    exact ⟨_, List.mem_cons_self, rfl, rfl⟩

end Serving
