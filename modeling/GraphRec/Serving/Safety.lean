import GraphRec.Serving.Pipeline

/-!
# Safety of what is served

Main result, `run_safe`: in every state the service can reach, whatever the
sources return, the answer to a request has no product twice, at most `topN`
products, only products that can be served and none that the request excludes;
and a personalised answer has none that the shopper has seen.

Each stage keeps the candidates distinct and adds none that is not eligible.  The
top-up appends remembered products one by one without comparing them with each
other; it is safe because no remembered list names a product twice, an invariant
of the cache over the runs of the service (`reachable_noDuplicates`).
-/

namespace Serving

open Transition

variable {R : Type} [Field R] [LinearOrder R]

/-- What a list of products to serve has to be. -/
structure Safe (catalogue : Catalogue) (topN : ℕ) (exclude items : List String) : Prop where
  nodup : items.Nodup
  length_le : items.length ≤ topN
  servable : ∀ item ∈ items, catalogue.Servable item
  notExcluded : ∀ item ∈ items, item ∉ exclude

/-- Some of the entries of a list without duplicates, each at most once. -/
theorem nodup_of_subperm {α : Type} {l l' : List α} (h : l.Subperm l') (hl' : l'.Nodup) :
    l.Nodup := by
  obtain ⟨l₀, hperm, hsub⟩ := h
  exact hperm.nodup_iff.mp (hl'.sublist hsub)

/-! ## Retrieval -/

section Retrieval

variable {candidates : List (Candidate R)}

omit [LinearOrder R] in
/-- An item that is a candidate already is not added, and any other comes last. -/
theorem ids_addItem_eq (source : Source) (item : String) (anchor : Option String) (rank : ℕ) :
    ids (addItem candidates source item anchor rank) =
      if item ∈ ids candidates then ids candidates else ids candidates ++ [item] := by
  rw [addItem]
  split
  · rw [ids, ids, List.map_map]
    refine List.map_congr_left fun c _ => ?_
    rw [Function.comp_apply]
    split <;> rfl
  · rw [ids, List.map_append]
    rfl

omit [LinearOrder R] in
/-- A source adds to the candidates, and none twice. -/
theorem addItem_nodup (h : (ids candidates).Nodup) (source : Source) (item : String)
    (anchor : Option String) (rank : ℕ) :
    (ids (addItem candidates source item anchor rank)).Nodup := by
  rw [ids_addItem_eq]
  split
  · exact h
  · next hnew =>
      refine h.append (List.nodup_singleton _) ?_
      simpa using hnew

omit [LinearOrder R] in
theorem addIds_nodup (h : (ids candidates).Nodup) (source : Source)
    (items : List (String × Option String)) : (ids (addIds candidates source items)).Nodup := by
  rw [addIds]
  generalize items.zipIdx 1 = rows
  induction rows generalizing candidates with
  | nil => exact h
  | cons row rows ih => exact ih (addItem_nodup h source _ _ _)

omit [LinearOrder R] in
theorem addResult_nodup (h : (ids candidates).Nodup) (source : Source)
    (result : Except SourceError (List (String × Option String))) :
    (ids (addResult candidates source result)).Nodup := by
  cases result with
  | ok items => exact addIds_nodup h source items
  | error e => exact h

omit [LinearOrder R] in
/-- Whatever the sources return, the candidates are distinct. -/
theorem retrieve_nodup (env : Environment R) (request : Request R)
    (personal : Option (Personal R)) (exclude : List String) (openUntil : ℤ) :
    (ids (retrieve env request personal exclude openUntil).candidates).Nodup := by
  have hnil : (ids ([] : List (Candidate R))).Nodup := List.nodup_nil
  cases personal with
  | some p =>
      simp only [retrieve, retrievePersonal]
      split
      · exact addResult_nodup (addResult_nodup (addResult_nodup (addResult_nodup hnil _ _) _ _)
          _ _) _ _
      · exact addResult_nodup (addResult_nodup hnil _ _) _ _
  | none =>
      simp only [retrieve, retrieveOther]
      split
      · split
        · exact addIds_nodup hnil _ _
        · exact hnil
      · exact hnil

omit [LinearOrder R] in
/-- Without a personal query there are candidates only from the placeholder's
search. -/
theorem retrieveOther_spec (env : Environment R) (openUntil : ℤ) :
    (retrieveOther env openUntil).candidates = [] ∨
      (retrieveOther env openUntil).strategy = .developmentPlaceholder := by
  rw [retrieveOther]
  split
  · split
    · exact .inr rfl
    · exact .inl rfl
  · exact .inl rfl

end Retrieval

/-! ## Eligibility to re-ranking -/

section Ranked

variable {env : Environment R} {request : Request R} {personal : Option (Personal R)}
  {info : String → Option ProductMeta} {candidates ordered : List (Candidate R)}
  {exclude : List String}

@[simp] theorem ids_score (popularity : Option Popularity) :
    ids (score env personal popularity info candidates) = ids candidates := by
  rw [score, ids_combineScores, ids, ids, List.map_map]
  rfl

omit [Field R] [LinearOrder R] in
theorem ids_eligible_sublist : (ids (eligible info exclude candidates)).Sublist
    (ids candidates) :=
  List.filter_sublist.map _

omit [Field R] [LinearOrder R] in
theorem mem_ids_eligible {item : String} (h : item ∈ ids (eligible info exclude candidates)) :
    (info item).isSome ∧ item ∉ exclude := by
  obtain ⟨c, hc, rfl⟩ := List.mem_map.mp h
  simpa using (List.mem_filter.mp hc).2

omit [Field R] [LinearOrder R] in
/-- Looking up ids finds candidates with these ids, in that order. -/
theorem ids_filterMap_find?_sublist (picked : List (Candidate R)) (items : List String) :
    (ids (items.filterMap fun item =>
      picked.find? fun c => decide (c.externalId = item))).Sublist items := by
  induction items with
  | nil => exact List.Sublist.refl _
  | cons item items ih =>
      cases hfind : picked.find? fun c => decide (c.externalId = item) with
      | none =>
          simp only [List.filterMap_cons, hfind]
          exact ih.cons item
      | some c =>
          have hid : c.externalId = item := by simpa using List.find?_some hfind
          simp only [List.filterMap_cons, hfind, ids, List.map_cons, hid]
          exact ih.cons_cons item

variable (env request personal info)

/-- The rules keep some of the candidates, none twice. -/
theorem applyRules_spec {picked : List (Candidate R)} (hnodup : (ids picked).Nodup) :
    (ids (applyRules env request info picked)).Nodup ∧
      ∀ item ∈ ids (applyRules env request info picked), item ∈ ids picked := by
  rw [applyRules]
  split
  · exact ⟨hnodup, fun item h => h⟩
  · next rules _ =>
      obtain ⟨hsub, _⟩ := rerank_spec env.halfPower (ids picked) info rules request.topN
        env.rankingNow none
      have hfound := ids_filterMap_find?_sublist picked
        (rerank env.halfPower (ids picked) info rules request.topN env.rankingNow none)
      have hreranked := nodup_of_subperm hsub
        ((nodup_firstOccurrences (ids picked)).filter fun c => (info c).isSome)
      refine ⟨hreranked.sublist hfound, fun item hitem => ?_⟩
      exact mem_firstOccurrences.mp (List.mem_filter.mp (hsub.subset (hfound.subset hitem))).1

/-- Re-ranking keeps some of the candidates, none twice, at most `topN`. -/
theorem rerankStage_spec (hnodup : (ids ordered).Nodup) :
    (ids (rerankStage env request personal info ordered)).Nodup ∧
      (ids (rerankStage env request personal info ordered)).length ≤ request.topN ∧
      ∀ item ∈ ids (rerankStage env request personal info ordered), item ∈ ids ordered := by
  have hmmr : (ids (mmrStage env request personal ordered)).Subperm (ids ordered) := by
    obtain ⟨kept, hperm, hsub⟩ : (mmrStage env request personal ordered).Subperm ordered := by
      rw [mmrStage]
      exact mmrOrder_subperm ..
    exact ⟨ids kept, hperm.map _, hsub.map _⟩
  obtain ⟨hdistinct, hsub⟩ := applyRules_spec env request info
    (nodup_of_subperm hmmr hnodup)
  have htake : ids (rerankStage env request personal info ordered) =
      (ids (applyRules env request info (mmrStage env request personal ordered))).take
        request.topN := by
    simp [ids, rerankStage, List.map_take]
  rw [htake]
  refine ⟨hdistinct.sublist (List.take_sublist _ _), List.length_take_le _ _, fun item h => ?_⟩
  exact hmmr.subset (hsub item ((List.take_sublist _ _).subset h))

end Ranked

/-! ## Guarantee -/

section Guarantee

variable {env : Environment R} {request : Request R} {exclude : List String}

omit [LinearOrder R] in
/-- **The top-up is safe.**  Remembered products without duplicates, none of them
picked yet or excluded, are appended one by one. -/
theorem topUp_safe {remembered : List String} {picked : List (Candidate R)}
    (hremembered : remembered.Nodup)
    (hnew : ∀ item ∈ remembered, item ∉ ids picked ∧ item ∉ exclude)
    (hpicked : Safe env.catalogue request.topN exclude (ids picked)) :
    Safe env.catalogue request.topN exclude (ids (topUp env request remembered picked)) := by
  have hservable : ∀ item, (env.catalogue.eligibleMeta remembered item).isSome →
      env.catalogue.Servable item := fun item h => Catalogue.servable_of_eligibleMeta h
  rw [topUp]
  generalize env.catalogue.eligibleMeta remembered = still at hservable ⊢
  induction remembered generalizing picked with
  | nil => exact hpicked
  | cons item remembered ih =>
      obtain ⟨hitem, hrest⟩ := List.nodup_cons.mp hremembered
      obtain ⟨hfresh, hallowed⟩ := hnew item List.mem_cons_self
      have hlater : ∀ item' ∈ remembered, item' ∉ ids picked ∧ item' ∉ exclude :=
        fun item' h => hnew item' (List.mem_cons_of_mem _ h)
      rw [List.foldl_cons]
      cases hinfo : still item with
      | none => exact ih hrest hlater hpicked
      | some info =>
          dsimp only
          split
          · next hroom =>
              refine ih hrest ?_ ?_
              · intro item' h
                refine ⟨fun hmem => ?_, (hlater item' h).2⟩
                rw [ids, List.map_append] at hmem
                rcases List.mem_append.mp hmem with hmem | hmem
                · exact (hlater item' h).1 hmem
                · obtain rfl : item' = item := by simpa using hmem
                  exact hitem h
              · have hids : ids (picked ++ [({ Candidate.new item with
                    sources := [.lastGood], category := info.category } : Candidate R)]) =
                    ids picked ++ [item] := by simp [ids]
                rw [hids]
                refine ⟨?_, ?_, ?_, ?_⟩
                · refine hpicked.nodup.append (List.nodup_singleton item) ?_
                  simpa using hfresh
                · rw [List.length_append, ids, List.length_map, List.length_singleton]
                  omega
                · intro item' h
                  rcases List.mem_append.mp h with h | h
                  · exact hpicked.servable item' h
                  · rw [List.mem_singleton.mp h]
                    exact hservable item (by rw [hinfo]; rfl)
                · intro item' h
                  rcases List.mem_append.mp h with h | h
                  · exact hpicked.notExcluded item' h
                  · rw [List.mem_singleton.mp h]
                    exact hallowed
          · exact ih hrest hlater hpicked

/-- The popular products are distinct, servable and not excluded. -/
theorem popularProducts_spec (catalogue : Catalogue) (window : List CustomerEvent) (limit : ℕ)
    (exclude : List String) :
    ((popularProducts catalogue window limit exclude).map Prod.fst).Nodup ∧
      ((popularProducts catalogue window limit exclude).map Prod.fst).length ≤ limit ∧
      ∀ item ∈ (popularProducts catalogue window limit exclude).map Prod.fst,
        catalogue.Servable item ∧ item ∉ exclude := by
  rw [popularProducts]
  generalize hrows : (catalogue.products.filter fun p =>
    p.servable && decide (p.externalId ∉ exclude)).map (fun p =>
      (p.externalId, window.countP fun e =>
        decide (e.externalProductId = some p.externalId))) = rows
  have hids : rows.map Prod.fst = (catalogue.products.filter fun p =>
      p.servable && decide (p.externalId ∉ exclude)).map Product.externalId := by
    rw [← hrows, List.map_map]
    rfl
  have hnodup : (rows.map Prod.fst).Nodup := by
    rw [hids]
    exact catalogue.unique.sublist (List.filter_sublist.map _)
  have hperm : ((rows.insertionSort fun a b => b.2 < a.2 ∨ a.2 = b.2 ∧ a.1 ≤ b.1).map
      Prod.fst).Perm (rows.map Prod.fst) := (List.perm_insertionSort _ rows).map _
  rw [List.map_take]
  refine ⟨(hperm.nodup_iff.mpr hnodup).sublist (List.take_sublist _ _), List.length_take_le _ _,
    fun item hitem => ?_⟩
  have hmem := hperm.mem_iff.mp ((List.take_sublist _ _).subset hitem)
  rw [hids] at hmem
  obtain ⟨p, hp, rfl⟩ := List.mem_map.mp hmem
  obtain ⟨hp, hkeep⟩ := List.mem_filter.mp hp
  simp only [Bool.and_eq_true, decide_eq_true_eq] at hkeep
  exact ⟨⟨p, hp, rfl, hkeep.1⟩, hkeep.2⟩

variable (env request exclude)

/-- The rules keep some of the popular products, none twice. -/
theorem fallbackOrder_spec {rows : List (String × ℕ)} (hnodup : (rows.map Prod.fst).Nodup) :
    (fallbackOrder env request rows).Nodup ∧
      ∀ item ∈ fallbackOrder env request rows, item ∈ rows.map Prod.fst := by
  rw [fallbackOrder]
  split
  · exact ⟨hnodup, fun item h => h⟩
  · next rules _ =>
      obtain ⟨hsub, _⟩ := rerank_spec env.halfPower (rows.map Prod.fst)
        (env.catalogue.eligibleMeta (rows.map Prod.fst)) rules request.topN env.rankingNow
        (some fun item => (rows.lookup item).map fun n => (n : R))
      refine ⟨nodup_of_subperm hsub ((nodup_firstOccurrences _).filter _), fun item hitem => ?_⟩
      exact mem_firstOccurrences.mp (List.mem_filter.mp (hsub.subset hitem)).1

/-- The popular fallback is safe. -/
theorem popularFallback_safe :
    Safe env.catalogue request.topN exclude (ids (popularFallback env request exclude)) := by
  rw [popularFallback]
  split
  · extract_lets limit rows
    obtain ⟨hnodup, _, hitems⟩ := popularProducts_spec env.catalogue
      (popularityWindow env.events env.popularityWindowDays) limit exclude
    obtain ⟨hdistinct, hsub⟩ := fallbackOrder_spec env request hnodup
    have htake := List.take_sublist request.topN (fallbackOrder env request rows)
    have hids : ids ((((fallbackOrder env request rows).take request.topN).zipIdx 1).map
        fun row => fallbackCandidate (R := R) rows row.1 row.2) =
        (fallbackOrder env request rows).take request.topN := by
      rw [ids, List.map_map]
      conv_rhs => rw [← List.zipIdx_map_fst 1 ((fallbackOrder env request rows).take request.topN)]
      rfl
    rw [hids]
    exact ⟨hdistinct.sublist htake, List.length_take_le _ _,
      fun item h => (hitems item (hsub item (htake.subset h))).1,
      fun item h => (hitems item (hsub item (htake.subset h))).2⟩
  · exact ⟨List.nodup_nil, Nat.zero_le _, fun _ h => absurd h List.not_mem_nil,
      fun _ h => absurd h List.not_mem_nil⟩

end Guarantee

/-! ## A run -/

section Run

variable {env : Environment R} {request : Request R} {personal : Option (Personal R)}
  {service : Service}

omit [Field R] [LinearOrder R] in
/-- What the request excludes, and what a personal shopper has seen, is excluded. -/
theorem mem_excludedItems {item : String} : item ∈ excludedItems request personal ↔
    item ∈ request.excludeProductIds ∨ ∃ p, personal = some p ∧ item ∈ p.query.seen := by
  cases personal <;> simp [excludedItems]

omit [Field R] [LinearOrder R] in
/-- A personal query knows what the shopper has seen. -/
theorem personalStage_seen {p : Personal R}
    (h : personalStage (queryStage env request) = .ok (some p)) :
    p.query.seen = seenItems env.events request env.now := by
  cases hquery : queryStage env request with
  | none => rw [hquery] at h; cases h
  | some q =>
      have hseen : q.seen = seenItems env.events request env.now := by
        rw [queryStage] at hquery
        split at hquery
        · cases hquery
        · split at hquery
          · cases hquery
          · cases hquery
          · next served _ =>
              cases hbuild : buildQuery served env.events request env.now with
              | error e => rw [hbuild] at hquery; cases hquery
              | ok q' =>
                  rw [hbuild] at hquery
                  cases hquery
                  exact (buildQuery_spec hbuild).1
      rw [hquery, personalStage] at h
      split at h
      · cases h
      · next encoded _ =>
          cases hscore : q.model.score encoded with
          | error e => rw [hscore] at h; cases h
          | ok scores =>
              rw [hscore] at h
              cases h
              exact hseen

omit [LinearOrder R] in
/-- The guarantee keeps a list safe, and adds nothing to an empty one. -/
theorem guaranteed_safe {exclude remembered : List String} {picked : List (Candidate R)}
    (hremembered : remembered.Nodup)
    (hpicked : Safe env.catalogue request.topN exclude (ids picked)) :
    Safe env.catalogue request.topN exclude
        (ids (guaranteed env request exclude remembered picked)) ∧
      (picked = [] → guaranteed env request exclude remembered picked = []) := by
  constructor
  · rw [guaranteed]
    split
    · refine topUp_safe (hremembered.filter _) (fun item hitem => ?_) hpicked
      simpa using (List.mem_filter.mp hitem).2
    · exact hpicked
  · intro heq
    subst heq
    exact if_neg fun h => h.1 rfl

variable (env request personal)

/-- The ranked candidates are safe with respect to everything that is excluded. -/
theorem rankedItems_safe (exclude : List String) {retrieval : Retrieval R}
    (hcandidates : (ids retrieval.candidates).Nodup) :
    Safe env.catalogue request.topN exclude
        (ids (rankedItems env request personal exclude retrieval)) ∧
      (retrieval.candidates = [] → rankedItems env request personal exclude retrieval = []) := by
  have hordered : (ids (orderedItems env personal exclude retrieval)).Perm (ids (eligible
      (env.catalogue.eligibleMeta (ids retrieval.candidates)) exclude retrieval.candidates)) := by
    have hperm := ids_relevanceOrder (score env personal retrieval.popularity
      (env.catalogue.eligibleMeta (ids retrieval.candidates))
      (eligible (env.catalogue.eligibleMeta (ids retrieval.candidates)) exclude
        retrieval.candidates))
    rwa [ids_score] at hperm
  have hdistinct : (ids (orderedItems env personal exclude retrieval)).Nodup :=
    hordered.nodup_iff.mpr (hcandidates.sublist ids_eligible_sublist)
  obtain ⟨hnodup, hlength, hsub⟩ := rerankStage_spec env request personal
    (env.catalogue.eligibleMeta (ids retrieval.candidates)) hdistinct
  constructor
  · exact ⟨hnodup, hlength,
      fun item h => Catalogue.servable_of_eligibleMeta
        (mem_ids_eligible (hordered.subset (hsub item h))).1,
      fun item h => (mem_ids_eligible (hordered.subset (hsub item h))).2⟩
  · intro hnone
    refine List.eq_nil_iff_forall_not_mem.mpr fun c hc => ?_
    have hitem := hsub c.externalId (List.mem_map_of_mem hc)
    have hmem := ids_eligible_sublist.subset (hordered.subset hitem)
    rw [hnone] at hmem
    exact absurd hmem List.not_mem_nil

/-- What is picked before the fallback. -/
theorem picked_safe (hcache : service.cache.NoDuplicates) :
    let exclude := excludedItems request personal
    let retrieval := retrieve env request personal exclude service.qdrantOpenUntil
    let picked := guaranteed env request exclude (service.cache.load env.cacheReads
      (Cache.key env.tenantId request.userId request.context.sessionId))
      (rankedItems env request personal exclude retrieval)
    Safe env.catalogue request.topN exclude (ids picked) ∧
      (retrieval.candidates = [] → picked = []) := by
  intro exclude retrieval picked
  obtain ⟨hranked, hnone⟩ := rankedItems_safe env request personal exclude
    (retrieve_nodup env request personal exclude service.qdrantOpenUntil)
  obtain ⟨hsafe, hempty⟩ := guaranteed_safe (Cache.nodup_load hcache env.cacheReads
    (Cache.key env.tenantId request.userId request.context.sessionId)) hranked
  exact ⟨hsafe, fun h => hempty (hnone h)⟩

/-- An answer is safe with respect to what the request excludes. -/
theorem respond_safe (hcache : service.cache.NoDuplicates) :
    Safe env.catalogue request.topN request.excludeProductIds
      (ids (respond env request personal service).1.items) := by
  obtain ⟨hpicked, _⟩ := picked_safe env request personal hcache
  have hfallback := popularFallback_safe env request
    (firstOccurrences request.excludeProductIds)
  dsimp only [respond]
  split
  · exact ⟨hfallback.nodup, hfallback.length_le, hfallback.servable,
      fun item h hmem => hfallback.notExcluded item h (mem_firstOccurrences.mpr hmem)⟩
  · exact ⟨hpicked.nodup, hpicked.length_le, hpicked.servable,
      fun item h hmem => hpicked.notExcluded item h (mem_excludedItems.mpr (.inl hmem))⟩

/-- A personalised answer has nothing that the shopper has seen. -/
theorem respond_unseen (hcache : service.cache.NoDuplicates)
    (hnofallback : (respond env request personal service).1.fallbackUsed = false)
    (hstrategy : (respond env request personal service).1.strategy ≠ .developmentPlaceholder)
    {item : String} (hitem : item ∈ ids (respond env request personal service).1.items) :
    ∃ p, personal = some p ∧ item ∉ p.query.seen := by
  obtain ⟨hpicked, hnone⟩ := picked_safe env request personal hcache
  dsimp only [respond] at hnofallback hstrategy hitem
  rw [hnofallback] at hstrategy
  split at hitem
  · next hempty =>
      -- Without a fallback product the answer is empty.
      rw [if_pos hempty, decide_eq_false_iff_not, not_not] at hnofallback
      rw [hnofallback] at hitem
      exact absurd hitem List.not_mem_nil
  · next hsome =>
      cases personal with
      | none =>
          -- Candidates of a request that is not personal are the placeholder's.
          rcases retrieveOther_spec env service.qdrantOpenUntil with hcandidates | hplaceholder
          · exact absurd (hnone hcandidates) hsome
          · exact absurd hplaceholder hstrategy
      | some p =>
          exact ⟨p, rfl, fun hseen => hpicked.notExcluded item hitem
            (mem_excludedItems.mpr (.inr ⟨p, rfl, hseen⟩))⟩

end Run

/-! ## The service over time -/

/-- **The cache invariant.**  In every state the service can reach, no remembered
list names a product twice. -/
theorem reachable_noDuplicates {service : Service}
    (h : Reachable (serving R) anyStep service) : service.cache.NoDuplicates := by
  refine h.invariant (P := fun service => service.cache.NoDuplicates)
    Cache.noDuplicates_empty ?_
  intro service action service' hcache _ hstep
  cases action with
  | serve env request =>
      simp only [serving] at hstep
      split at hstep
      · next outcome service'' hrun =>
          obtain rfl := Option.some.inj hstep
          rw [run] at hrun
          cases hpersonal : personalStage (queryStage env request) with
          | error e => rw [hpersonal] at hrun; cases hrun
          | ok personal =>
              rw [hpersonal] at hrun
              cases hrun
              have hsafe := respond_safe env request personal hcache
              exact Cache.store_noDuplicates hcache _ _ hsafe.nodup
      · obtain rfl := Option.some.inj hstep
        exact hcache
  | expire key =>
      obtain rfl := Option.some.inj hstep
      exact Cache.expire_noDuplicates hcache key

/-- **What is served is safe.**  In every state the service can reach, the products
of an answer are distinct, at most `topN`, servable in the catalogue of the run
and not excluded by the request; and those of a personalised answer, one without
fallback that is not the placeholder's, are none that the shopper has seen. -/
theorem run_safe {env : Environment R} {request : Request R} {service service' : Service}
    {outcome : Outcome R} (hreach : Reachable (serving R) anyStep service)
    (hrun : run env request service = .ok (outcome, service')) :
    (ids outcome.items).Nodup ∧ outcome.items.length ≤ request.topN ∧
      (∀ item ∈ ids outcome.items, env.catalogue.Servable item ∧
        item ∉ request.excludeProductIds) ∧
      (outcome.fallbackUsed = false → outcome.strategy ≠ .developmentPlaceholder →
        ∀ item ∈ ids outcome.items, item ∉ seenItems env.events request env.now) := by
  have hcache := reachable_noDuplicates hreach
  rw [run] at hrun
  cases hpersonal : personalStage (queryStage env request) with
  | error e => rw [hpersonal] at hrun; cases hrun
  | ok personal =>
      rw [hpersonal] at hrun
      cases hrun
      have hsafe := respond_safe env request personal hcache
      refine ⟨hsafe.nodup, ?_, fun item h => ⟨hsafe.servable item h, hsafe.notExcluded item h⟩, ?_⟩
      · have hlength := hsafe.length_le
        rwa [ids, List.length_map] at hlength
      · intro hnofallback hstrategy item hitem
        obtain ⟨p, hp, hunseen⟩ :=
          respond_unseen env request personal hcache hnofallback hstrategy hitem
        rw [hp] at hpersonal
        rwa [← personalStage_seen hpersonal]

/-! ## A short history of the service -/

/-- Three products; the second may be taken off the shop. -/
def smallCatalogue (second : Bool) : Catalogue where
  products := [⟨"a", some "x", 0, true, "available"⟩, ⟨"b", some "x", 0, second, "available"⟩,
    ⟨"c", none, 0, true, "available"⟩]
  unique := by cases second <;> decide

/-- An environment outside of production whose model, if any, is a placeholder that
finds `a` twice, `b`, and a product that is not there. -/
def smallEnvironment (catalogue : Catalogue) (model : Option (ActiveModel ℚ)) : Environment ℚ where
  tenantId := "t"
  catalogue := catalogue
  events := []
  activeModel := model
  isProduction := false
  popularityWindowDays := 30
  rules := none
  now := 0
  rankingNow := 0
  clockSubmit := 0
  clockFinish := 0
  norm := fun _ => 0
  halfPower := fun _ => 0
  neighbors := .ok []
  categoryPopularity := .error .raised
  trendingPopularity := .error .raised
  scoringPopularity := .error .raised
  qdrant := .timeout
  inMemory := .ok []
  placeholderSearch := .ok ["a", "b", "a", "z"]
  cacheReads := true
  cacheWrites := true

def smallRequest : Request ℚ := ⟨some "u", 3, [], ⟨none, none⟩, true, none⟩

/-- The service after the popular products were served while `b` was on the shop. -/
def smallService : Service :=
  (respond (smallEnvironment (smallCatalogue true) none) smallRequest none
    (serving ℚ).init).2

/-- The placeholder's `a` is topped up with the remembered `c`; `b` is gone. -/
theorem run_safe_topUp : ∃ outcome service',
    run (smallEnvironment (smallCatalogue false) (some ⟨"sasrec", none⟩)) smallRequest
        smallService = .ok (outcome, service') ∧
      ids outcome.items = ["a", "c"] ∧ (ids outcome.items).Nodup ∧
      ∀ item ∈ ids outcome.items, (smallCatalogue false).Servable item := by
  have hstep : (serving ℚ).step (serving ℚ).init
      (.serve (smallEnvironment (smallCatalogue true) none) smallRequest) =
        some smallService := rfl
  have hreach : Reachable (serving ℚ) anyStep smallService :=
    ⟨_, Run.single trivial hstep⟩
  have hrun : run (smallEnvironment (smallCatalogue false) (some ⟨"sasrec", none⟩)) smallRequest
      smallService = .ok (_, _) := rfl
  obtain ⟨hnodup, _, hitems, _⟩ := run_safe hreach hrun
  exact ⟨_, _, rfl, by decide +kernel, hnodup, fun item h => (hitems item h).1⟩

end Serving
