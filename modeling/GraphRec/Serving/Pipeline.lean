import GraphRec.Lib.Transition
import GraphRec.Serving.Cache
import GraphRec.Serving.Query
import GraphRec.Serving.Ranking

/-!
# The serving pipeline

`run` is `pipeline.run`: query, retrieval from up to four sources, eligibility,
scoring, re-ranking and the guarantee stage with the last-good cache and the
popular fallback.

What a run reads is an `Environment`: the tenant's data, the active model, the
rules, the clocks, and what each call to something outside returns (the
retrieval sources, the popularity ranking, the vector index, the cache server).
What survives a run is the `Service`: the cache and the breaker of the vector
index.  `serving` is the transition system whose actions are requests, each in
an environment of its own, and expiries of cache entries.
-/

namespace Serving

/-! ## What a run reads -/

/-- `Popularity`: recent events per product, and the popular products with their
counts and categories, best first. -/
structure Popularity where
  counts : List (String × ℕ)
  ranked : List (String × ℕ × Option String)

/-- How the search submitted to the vector index ends. -/
inductive QdrantAnswer
  | answer (ids : List String) | timeout | raised
  deriving DecidableEq, Repr

/-- The active model version; `artifact` is `none` without a directory, an error
when loading it raises. -/
structure ActiveModel (R : Type) where
  modelType : String
  artifact : Option (Except QueryError (ServedModel R))

/-- What one run reads and what the calls it makes return. -/
structure Environment (R : Type) where
  tenantId : String
  catalogue : Catalogue
  events : List CustomerEvent
  activeModel : Option (ActiveModel R)
  isProduction : Bool
  popularityWindowDays : ℕ
  rules : Option (RuleSet R)
  /-- The wall clock at the query and at the re-ranking. -/
  now : ℤ
  rankingNow : ℤ
  /-- The monotonic clock, in milliseconds, when the search is submitted and when
  its failure is noticed. -/
  clockSubmit : ℤ
  clockFinish : ℤ
  norm : List R → R
  halfPower : R → R
  /-- `source_neighbors`: products with their anchors. -/
  neighbors : Except SourceError (List (String × String))
  /-- `tenant_popularity`, at its three calls. -/
  categoryPopularity : Except SourceError Popularity
  trendingPopularity : Except SourceError Popularity
  scoringPopularity : Except SourceError Popularity
  qdrant : QdrantAnswer
  /-- The Top-K computed in process. -/
  inMemory : Except SourceError (List String)
  placeholderSearch : Except SourceError (List String)
  cacheReads : Bool
  cacheWrites : Bool

/-- What survives a run. -/
structure Service where
  cache : Cache
  qdrantOpenUntil : ℤ

/-- `fallback_tier`. -/
inductive FallbackTier
  | none | tenantPopular
  deriving DecidableEq, Repr

/-- `Outcome`. -/
structure Outcome (R : Type) where
  items : List (Candidate R)
  strategy : Strategy
  fallbackUsed : Bool
  fallbackTier : FallbackTier
  modelServed : Bool
  diversity : R

/-! ## Popular products -/

/-- `popularity_window`: the events of the last days before the latest one. -/
def popularityWindow (events : List CustomerEvent) (days : ℕ) : List CustomerEvent :=
  match (events.map CustomerEvent.occurredAt).max? with
  | none => events
  | some latest =>
      events.filter fun e => decide (latest - days * 86400000000 ≤ e.occurredAt)

/-- `popular_products`: servable products by recent events, ties by id. -/
def popularProducts (catalogue : Catalogue) (window : List CustomerEvent) (limit : ℕ)
    (exclude : List String) : List (String × ℕ) :=
  let rows := (catalogue.products.filter fun p =>
    p.servable && decide (p.externalId ∉ exclude)).map fun p =>
      (p.externalId, window.countP fun e => decide (e.externalProductId = some p.externalId))
  (rows.insertionSort fun a b => b.2 < a.2 ∨ a.2 = b.2 ∧ a.1 ≤ b.1).take limit

section Stages

variable {R : Type} [Field R] [LinearOrder R] (env : Environment R) (request : Request R)

/-! ## Stage 1: query -/

/-- `active_model` without a directory that is not a DGSR model, outside of
production. -/
def Environment.placeholder : Bool :=
  match env.activeModel with
  | none => false
  | some model =>
      model.artifact.isNone && decide (model.modelType ≠ "dgsr") && !env.isProduction

/-- `q`: a query that cannot be built is no query. -/
def queryStage : Option (Query R) :=
  match env.activeModel with
  | none => none
  | some model =>
      match model.artifact with
      | none => none
      | some (.error _) => none
      | some (.ok served) => (buildQuery served env.events request env.now).toOption

/-- A query that was encoded, and `all_scores`. -/
structure Personal (R : Type) where
  query : Query R
  encoded : Encoded
  scores : ℕ → R

/-- `personal` and `all_scores`; the scoring may raise, and then the run does. -/
def personalStage : Option (Query R) → Except SourceError (Option (Personal R))
  | none => .ok none
  | some q =>
      match q.encoded with
      | none => .ok none
      | some encoded => (q.model.score encoded).map fun scores => some ⟨q, encoded, scores⟩

/-! ## Stage 2: retrieval -/

/-- The body of `add` for one id. -/
def addItem (candidates : List (Candidate R)) (source : Source) (item : String)
    (anchor : Option String) (rank : ℕ) : List (Candidate R) :=
  if item ∈ ids candidates then
    candidates.map fun c => if c.externalId = item then c.addSource source rank anchor else c
  else candidates ++ [(Candidate.new item).addSource source rank anchor]

/-- `add`: ids with their anchors, ranked from 1. -/
def addIds (candidates : List (Candidate R)) (source : Source)
    (items : List (String × Option String)) : List (Candidate R) :=
  (items.zipIdx 1).foldl (fun candidates row => addItem candidates source row.1.1 row.1.2 row.2)
    candidates

/-- A source that raises adds nothing. -/
def addResult (candidates : List (Candidate R)) (source : Source) :
    Except SourceError (List (String × Option String)) → List (Candidate R)
  | .ok items => addIds candidates source items
  | .error _ => candidates

/-- `NEIGHBOR_ANCHORS`, `QUOTA_CATEGORY` and `QUOTA_TRENDING`. -/
def maxAnchors : ℕ := 3
def quotaCategory : ℕ := 40
def quotaTrending : ℕ := 40

/-- `neighbor_anchors`: the most recent distinct items that the model knows. -/
def neighborAnchors (q : Query R) : List String :=
  (firstOccurrences (q.history.reverse.filter fun item => (q.model.itemIndex item).isSome)).take
    maxAnchors

/-- `cats`: the first categories of the anchors, or of the items seen last. -/
def anchorCategories (q : Query R) : List String :=
  let anchors := neighborAnchors q
  let wanted := if anchors = [] then q.seen.rtake maxAnchors else anchors
  (firstOccurrences ((env.catalogue.products.filter fun p =>
    decide (p.externalId ∈ wanted)).filterMap Product.category)).take maxAnchors

/-- The popular products of those categories that are not excluded. -/
def categoryRows (categories exclude : List String) (popularity : Popularity) :
    List (String × Option String) :=
  ((popularity.ranked.filter fun row =>
    row.2.2.any (fun c => decide (c ∈ categories)) && decide (row.1 ∉ exclude)).take
      quotaCategory).map fun row => (row.1, none)

/-- The popular products that are not excluded. -/
def trendingRows (exclude : List String) (popularity : Popularity) :
    List (String × Option String) :=
  ((popularity.ranked.filter fun row => decide (row.1 ∉ exclude)).take quotaTrending).map
    fun row => (row.1, none)

/-- `QDRANT_BREAKER_SECONDS`, in milliseconds. -/
def qdrantBreaker : ℤ := 30000

/-- `start_qdrant`: nothing is submitted while the breaker is open. -/
def startQdrant (openUntil : ℤ) : Bool := !decide (env.clockSubmit < openUntil)

/-- `finish_personalized`: the index's answer, or the Top-K computed in process; a
timeout or an error opens the breaker. -/
def finishPersonalized (submitted : Bool) (openUntil : ℤ) :
    Except SourceError (List String) × ℤ :=
  if submitted then
    match env.qdrant with
    | .answer found => (if found = [] then env.inMemory else .ok found, openUntil)
    | .timeout | .raised => (env.inMemory, env.clockFinish + qdrantBreaker)
  else (env.inMemory, openUntil)

/-- What retrieval leaves behind. -/
structure Retrieval (R : Type) where
  candidates : List (Candidate R)
  popularity : Option Popularity
  strategy : Strategy
  qdrantOpenUntil : ℤ

/-- The sources of a personal request. -/
def retrievePersonal (p : Personal R) (exclude : List String) (openUntil : ℤ) : Retrieval R :=
  let candidates := addResult [] .sessionNeighbors
    (env.neighbors.map fun pairs => pairs.map fun (item, anchor) => (item, some anchor))
  let byCategory := env.categoryPopularity.map
    (categoryRows (anchorCategories env p.query) exclude)
  let popularity := env.categoryPopularity.toOption
  let trending := env.trendingPopularity.map fun value =>
    trendingRows exclude (popularity.getD value)
  let found := finishPersonalized env (startQdrant env openUntil) openUntil
  let personalized := found.1.map fun items => items.map fun item => (item, none)
  if request.fallbackAllowed then
    { candidates := addResult (addResult (addResult candidates .popularInCategory byCategory)
        .trending trending) .dgsrPersonalized personalized
      popularity := popularity.or env.trendingPopularity.toOption
      strategy := p.encoded.strategy
      qdrantOpenUntil := found.2 }
  else
    { candidates := addResult candidates .dgsrPersonalized personalized
      popularity := none
      strategy := p.encoded.strategy
      qdrantOpenUntil := found.2 }

/-- The sources of a request that is not personal: the placeholder's search, or
none. -/
def retrieveOther (openUntil : ℤ) : Retrieval R :=
  if env.placeholder then
    match env.placeholderSearch with
    | .ok items =>
        ⟨addIds [] .dgsrPersonalized (items.map fun item => (item, none)), none,
          .developmentPlaceholder, openUntil⟩
    | .error _ => ⟨[], none, .popularFallback, openUntil⟩
  else ⟨[], none, .popularFallback, openUntil⟩

def retrieve (personal : Option (Personal R)) (exclude : List String) (openUntil : ℤ) :
    Retrieval R :=
  match personal with
  | some p => retrievePersonal env request p exclude openUntil
  | none => retrieveOther env openUntil

/-! ## Stages 3 to 5: eligibility, scoring, re-ranking -/

/-- `eligible`: the servable candidates that are not excluded. -/
def eligible (info : String → Option ProductMeta) (exclude : List String)
    (candidates : List (Candidate R)) : List (Candidate R) :=
  candidates.filter fun c => (info c.externalId).isSome && decide (c.externalId ∉ exclude)

/-- `counts`: without popularity, none. -/
def scoringCounts (popularity : Option Popularity) : List (String × ℕ) :=
  match popularity with
  | some value => value.counts
  | none =>
      match env.scoringPopularity with
      | .ok value => value.counts
      | .error _ => []

/-- The scoring stage. -/
def score (personal : Option (Personal R)) (popularity : Option Popularity)
    (info : String → Option ProductMeta) (candidates : List (Candidate R)) :
    List (Candidate R) :=
  let counts := scoringCounts env popularity
  combineScores (candidates.map fun c =>
    let index := personal.bind fun p => p.query.model.itemIndex c.externalId
    { c with
      category := (info c.externalId).bind ProductMeta.category
      popularity := (((counts.lookup c.externalId).getD 0 : ℕ) : R)
      itemIndex := index
      modelScore := personal.bind fun p => index.map p.scores })

/-- `DEFAULT_DIVERSITY`. -/
def defaultDiversity : R := 1 / 4

/-- Are there any `vectors`? -/
def hasVectors (personal : Option (Personal R)) (ordered : List (Candidate R)) : Bool :=
  personal.isSome && ordered.any fun c => c.itemIndex.isSome

/-- `diversity if vectors else 0.0`. -/
def appliedDiversity (personal : Option (Personal R)) (ordered : List (Candidate R)) : R :=
  if hasVectors personal ordered then request.diversity.getD defaultDiversity else 0

/-- The diversified order; with rules, a pool for them to choose from. -/
def mmrStage (personal : Option (Personal R)) (ordered : List (Candidate R)) :
    List (Candidate R) :=
  let pool := if env.rules.isSome then max (request.topN * 5) 50 else request.topN
  let vectors := fun item => personal.bind fun p =>
    ((ordered.find? fun c => decide (c.externalId = item)).bind Candidate.itemIndex).map
      p.query.model.unitItems
  mmrOrder env.norm ordered vectors (hasVectors personal ordered)
    (appliedDiversity request personal ordered) (min pool ordered.length)

/-- The rules, if there are any. -/
def applyRules (info : String → Option ProductMeta) (picked : List (Candidate R)) :
    List (Candidate R) :=
  match env.rules with
  | none => picked
  | some rules =>
      (rerank env.halfPower (ids picked) info rules request.topN env.rankingNow none).filterMap
        fun item => picked.find? fun c => decide (c.externalId = item)

/-- The re-ranking stage. -/
def rerankStage (personal : Option (Personal R)) (info : String → Option ProductMeta)
    (ordered : List (Candidate R)) : List (Candidate R) :=
  (applyRules env request info (mmrStage env request personal ordered)).take request.topN

/-! ## Stage 6: guarantee -/

/-- The top-up: remembered products that can still be served, as long as there is
room. -/
def topUp (remembered : List String) (picked : List (Candidate R)) : List (Candidate R) :=
  let still := env.catalogue.eligibleMeta remembered
  remembered.foldl (fun picked item =>
    match still item with
    | some info =>
        if picked.length < request.topN then
          picked ++ [{ Candidate.new item with sources := [.lastGood], category := info.category }]
        else picked
    | none => picked) picked

/-- The order of the popular products, under the rules if there are any. -/
def fallbackOrder (rows : List (String × ℕ)) : List String :=
  let items := rows.map Prod.fst
  match env.rules with
  | none => items
  | some rules =>
      rerank env.halfPower items (env.catalogue.eligibleMeta items) rules request.topN
        env.rankingNow (some fun item => (rows.lookup item).map fun n => (n : R))

/-- A popular product with its count. -/
def fallbackCandidate (rows : List (String × ℕ)) (item : String) (rank : ℕ) : Candidate R :=
  { Candidate.new item with
    popularity := (((rows.lookup item).getD 0 : ℕ) : R) }.addSource .trending rank none

/-- `popular_fallback`. -/
def popularFallback (exclude : List String) : List (Candidate R) :=
  if request.fallbackAllowed then
    let limit := if env.rules.isSome then min (max (request.topN * 5) 50) 500 else request.topN
    let rows := popularProducts env.catalogue
      (popularityWindow env.events env.popularityWindowDays) limit exclude
    (((fallbackOrder env request rows).take request.topN).zipIdx 1).map fun (item, rank) =>
      fallbackCandidate rows item rank
  else []

/-- `model_served`. -/
def modelServed (picked : List (Candidate R)) : Bool :=
  picked.any fun c => c.modelScore.isSome || decide (Source.dgsrPersonalized ∈ c.sources)

/-- `ordered`: the eligible candidates by their scores. -/
def orderedItems (personal : Option (Personal R)) (exclude : List String)
    (retrieval : Retrieval R) : List (Candidate R) :=
  let info := env.catalogue.eligibleMeta (ids retrieval.candidates)
  relevanceOrder
    (score env personal retrieval.popularity info (eligible info exclude retrieval.candidates))

/-- The ranked candidates. -/
def rankedItems (personal : Option (Personal R)) (exclude : List String)
    (retrieval : Retrieval R) : List (Candidate R) :=
  rerankStage env request personal (env.catalogue.eligibleMeta (ids retrieval.candidates))
    (orderedItems env personal exclude retrieval)

/-- The list before the fallback: what is ranked, topped up with what is remembered
if that is too little. -/
def guaranteed (exclude remembered : List String) (picked : List (Candidate R)) :
    List (Candidate R) :=
  if picked ≠ [] ∧ picked.length < request.topN ∧ request.fallbackAllowed = true then
    topUp env request (remembered.filter fun item =>
      decide (item ∉ ids picked) && decide (item ∉ exclude)) picked
  else picked

/-- `exclude`: what the request excludes, and what a personal shopper has seen. -/
def excludedItems (personal : Option (Personal R)) : List String :=
  firstOccurrences (firstOccurrences request.excludeProductIds ++
    match personal with
    | some p => p.query.seen
    | none => [])

/-- The answer to a request once the shopper is encoded. -/
def respond (personal : Option (Personal R)) (service : Service) : Outcome R × Service :=
  let exclude := excludedItems request personal
  let retrieval := retrieve env request personal exclude service.qdrantOpenUntil
  let key := Cache.key env.tenantId request.userId request.context.sessionId
  let picked := guaranteed env request exclude (service.cache.load env.cacheReads key)
    (rankedItems env request personal exclude retrieval)
  let fallback := popularFallback env request (firstOccurrences request.excludeProductIds)
  let items := if picked = [] then fallback else picked
  let fallbackUsed := if picked = [] then decide (fallback ≠ []) else !modelServed picked
  ({ items := items
     strategy := if fallbackUsed then .popularFallback else retrieval.strategy
     fallbackUsed := fallbackUsed
     fallbackTier := if fallbackUsed then .tenantPopular else .none
     modelServed := modelServed picked && !fallbackUsed
     diversity := appliedDiversity request personal
       (orderedItems env personal exclude retrieval) },
   { cache := service.cache.store env.cacheWrites key (ids items)
     qdrantOpenUntil := retrieval.qdrantOpenUntil })

/-- `run`. -/
def run (service : Service) : Except SourceError (Outcome R × Service) :=
  (personalStage (queryStage env request)).map fun personal => respond env request personal service

end Stages

/-! ## The service over time -/

/-- A request in its environment, or a cache entry that expires. -/
inductive Action (R : Type)
  | serve (env : Environment R) (request : Request R)
  | expire (key : String)

/-- The service; a run that raises changes nothing. -/
def serving (R : Type) [Field R] [LinearOrder R] : Transition.System Service (Action R) where
  init := ⟨fun _ => none, 0⟩
  step service
    | .serve env request =>
        match run env request service with
        | .ok (_, service') => some service'
        | .error _ => some service
    | .expire key => some { service with cache := service.cache.expire key }

end Serving
