import GraphRec.Lib.Breaker
import GraphRec.Serving.Safety

/-!
# The breaker of the vector index

After a Qdrant timeout or error, personalised requests are to be served from the item table for
`QDRANT_BREAKER_SECONDS`.  `finish_personalized` opens the breaker for an exception of the search;
but `retrieve_candidates` catches what its calls of the client raise and returns no candidates, so
that an outage arrives as an empty answer.  Only what creating the client raises, and a search that
takes too long, is noticed.

* `serveAll_openUntil` — over a sequence of requests the breaker is `Breaker.after` of the failures
  that are noticed;
* `keepsBreaker_iff` — it is the breaker of the comment on `QDRANT_BREAKER_SECONDS`, whoever follows,
  just when no search swallows an error; and whoever gets no answer gets the Top-K computed in
  process;
* `not_keepsBreaker` — two requests during an outage that both submit a search.
-/

namespace Serving

/-! ## A search -/

/-- Anything the Qdrant client raises. -/
inductive ClientError
  | raised
  deriving DecidableEq, Repr

/-- A hit of a search; its payload may lack the external id. -/
structure Hit (R : Type) where
  score : R
  externalId : Option String

/-- What creating a client and each of its calls give during one search. -/
structure QdrantClient (R : Type) where
  create : Except ClientError Unit
  getCollections : Except ClientError (List String)
  /-- The fields of the collection's payload schema. -/
  getCollection : Except ClientError (List String)
  createPayloadIndex : String → Except ClientError Unit
  search : Except ClientError (List (Hit R))

section Search

variable {R : Type} [LinearOrder R]

/-- `INDEXED_PAYLOAD_FIELDS`. -/
def indexedPayloadFields : List String := ["external_id", "tenant_id"]

/-- `ensure_payload_indexes`. -/
def ensurePayloadIndexes (client : QdrantClient R) : Except ClientError Unit := do
  let present ← client.getCollection
  (indexedPayloadFields.filter fun field => decide (field ∉ present)).forM client.createPayloadIndex

/-- The order of the hits: the best first, ties by external id. -/
def Hit.before (a b : Hit R) : Prop :=
  b.score < a.score ∨ a.score = b.score ∧ a.externalId.getD "" ≤ b.externalId.getD ""

instance : DecidableRel (Hit.before (R := R)) := fun a b =>
  inferInstanceAs (Decidable (b.score < a.score ∨
    a.score = b.score ∧ a.externalId.getD "" ≤ b.externalId.getD ""))

/-- The search at the end of `retrieve_candidates`. -/
def searchHits (client : QdrantClient R) : List String :=
  match client.search with
  | .error _ => []
  | .ok results => (results.insertionSort Hit.before).filterMap Hit.externalId

/-- `retrieve_candidates`, with the collections whose payload indexes were verified. -/
def retrieveCandidates (client : QdrantClient R) (collection : String) (indexed : List String) :
    List String × List String :=
  match client.getCollections with
  | .error _ => ([], indexed)
  | .ok existing =>
      if collection ∉ existing then ([], indexed)
      else if collection ∈ indexed then (searchHits client, indexed)
      else
        match ensurePayloadIndexes client with
        | .error _ => ([], indexed)
        | .ok () => (searchHits client, collection :: indexed)

/-- `_qdrant_search`. -/
def qdrantSearch (client : QdrantClient R) (collection : String) (indexed : List String) :
    Except ClientError (List String) × List String :=
  match client.create with
  | .error e => (.error e, indexed)
  | .ok () =>
      let (found, indexed) := retrieveCandidates client collection indexed
      (.ok found, indexed)

/-- A search that is submitted: what its calls give, the collections verified when it runs, and
whether it ends within `QDRANT_TIMEOUT_SECONDS`. -/
structure SearchCall (R : Type) where
  client : QdrantClient R
  collection : String
  indexed : List String
  timely : Bool

/-- What waiting for the search gives. -/
def SearchCall.answer (call : SearchCall R) : QdrantAnswer :=
  if call.timely then
    match (qdrantSearch call.client call.collection call.indexed).1 with
    | .ok found => .answer found
    | .error _ => .raised
  else .timeout

/-! ## Which errors are noticed -/

/-- One of the calls that `retrieve_candidates` makes raises. -/
def QdrantClient.raises (client : QdrantClient R) (collection : String) (indexed : List String) :
    Bool :=
  match client.getCollections with
  | .error _ => true
  | .ok existing =>
      decide (collection ∈ existing) &&
        (decide (collection ∉ indexed) && !(ensurePayloadIndexes client).isOk ||
          !client.search.isOk)

/-- A search fails if it takes too long, or if the client raises when it is created or at any of its
calls. -/
def SearchCall.fails (call : SearchCall R) : Bool :=
  !call.timely || !call.client.create.isOk || call.client.raises call.collection call.indexed

/-- A search that ends in time, with an error that `retrieve_candidates` catches. -/
def SearchCall.swallows (call : SearchCall R) : Bool :=
  call.timely && call.client.create.isOk && call.client.raises call.collection call.indexed

/-- What `finish_personalized` takes for a failure. -/
def QdrantAnswer.failed : QdrantAnswer → Bool
  | .answer _ => false
  | .timeout | .raised => true

/-- An error that is caught leaves no candidates. -/
theorem searchHits_eq_nil {client : QdrantClient R}
    (h : client.search.isOk = false) : searchHits client = [] := by
  unfold searchHits
  cases hsearch : client.search with
  | error e => rfl
  | ok results => simp [hsearch, Except.isOk, Except.toBool] at h

/-- What is noticed: a search that takes too long, and a client that cannot be created. -/
theorem failed_answer (call : SearchCall R) :
    call.answer.failed = (!call.timely || !call.client.create.isOk) := by
  unfold SearchCall.answer qdrantSearch
  cases call.timely with
  | false => rfl
  | true => cases call.client.create <;> rfl

/-- A search that swallows nothing is noticed when it fails. -/
theorem failed_answer_of_noticed {call : SearchCall R} (h : call.swallows = false) :
    call.answer.failed = call.fails := by
  rw [failed_answer, SearchCall.fails]
  unfold SearchCall.swallows at h
  cases htimely : call.timely with
  | false => rfl
  | true =>
      cases hcreate : call.client.create.isOk with
      | false => rfl
      | true =>
          rw [htimely, hcreate, Bool.true_and, Bool.true_and] at h
          rw [h]
          rfl

/-- An error that is swallowed is answered with no candidates. -/
theorem answer_of_swallows {call : SearchCall R} (h : call.swallows = true) :
    call.answer = .answer [] := by
  simp only [SearchCall.swallows, Bool.and_eq_true] at h
  obtain ⟨⟨htimely, hcreate⟩, hraises⟩ := h
  have hretrieve : (retrieveCandidates call.client call.collection call.indexed).1 = [] := by
    unfold QdrantClient.raises at hraises
    unfold retrieveCandidates
    cases hcollections : call.client.getCollections with
    | error e => rfl
    | ok existing =>
        rw [hcollections] at hraises
        simp only [Bool.and_eq_true, Bool.or_eq_true, decide_eq_true_eq, Bool.not_eq_true'] at hraises
        obtain ⟨hexists, hcall⟩ := hraises
        dsimp only
        rw [if_neg (not_not.mpr hexists)]
        split
        · next hindexed =>
            rcases hcall with ⟨hnew, _⟩ | hsearch
            · exact absurd hindexed hnew
            · exact searchHits_eq_nil hsearch
        · split
          · rfl
          · next hensure =>
              rcases hcall with ⟨_, hensure'⟩ | hsearch
              · rw [hensure] at hensure'
                cases hensure'
              · exact searchHits_eq_nil hsearch
  unfold SearchCall.answer qdrantSearch
  rw [if_pos htimely]
  cases hclient : call.client.create with
  | error e =>
      rw [hclient] at hcreate
      cases hcreate
  | ok _ =>
      dsimp only
      rw [hretrieve]

end Search

/-! ## Personalised requests one after the other -/

/-- A personalised request, and the search that it submits if the breaker lets it. -/
structure PersonalRequest (R : Type) where
  environment : Environment R
  request : Request R
  personal : Personal R
  call : SearchCall R

section Requests

variable {R : Type} [Field R] [LinearOrder R] (r : PersonalRequest R) (service : Service)

namespace PersonalRequest

/-- The environment, with the outcome of the search. -/
def env : Environment R := { r.environment with qdrant := r.call.answer }

/-- A search is submitted. -/
def submits : Bool := startQdrant r.env service.qdrantOpenUntil

/-- The result of `finish_personalized`. -/
def found : Except SourceError (List String) :=
  (finishPersonalized r.env (r.submits service) service.qdrantOpenUntil).1

/-- The products that are retrieved. -/
def retrieved : List String :=
  ids (retrieve r.env r.request (some r.personal) (excludedItems r.request (some r.personal))
    service.qdrantOpenUntil).candidates

/-- The service after the request is answered. -/
def serve : Service := (respond r.env r.request (some r.personal) service).2

/-- The request as a call through the breaker, with the failures that are noticed. -/
def noticed : Breaker.Call ℤ :=
  ⟨r.env.clockSubmit, r.env.clockFinish, r.call.answer.failed⟩

end PersonalRequest

/-- The service after some requests. -/
def serveAll (requests : List (PersonalRequest R)) : Service :=
  requests.foldl (fun service r => r.serve service) service

omit [Field R] [LinearOrder R] in
theorem finishPersonalized_of_failed {env : Environment R} (h : env.qdrant.failed = true)
    (openUntil : ℤ) : finishPersonalized env true openUntil =
      (env.inMemory, env.clockFinish + qdrantBreaker) := by
  rw [finishPersonalized, if_pos rfl]
  cases hanswer : env.qdrant with
  | answer found =>
      rw [hanswer] at h
      cases h
  | timeout => rfl
  | raised => rfl

omit [Field R] [LinearOrder R] in
theorem finishPersonalized_of_answer {env : Environment R} {found : List String}
    (h : env.qdrant = .answer found) (openUntil : ℤ) : finishPersonalized env true openUntil =
      (if found = [] then env.inMemory else .ok found, openUntil) := by
  rw [finishPersonalized, if_pos rfl, h]

/-- A request moves the breaker as the call does. -/
theorem serve_openUntil : (r.serve service).qdrantOpenUntil =
    Breaker.next qdrantBreaker service.qdrantOpenUntil r.noticed := by
  have hfinish : (r.serve service).qdrantOpenUntil = (finishPersonalized r.env
      (r.submits service) service.qdrantOpenUntil).2 := by
    simp only [PersonalRequest.serve, respond, retrieve, retrievePersonal]
    split <;> rfl
  rw [hfinish, Breaker.next]
  cases hsubmits : r.submits service with
  | false =>
      have hopen : r.env.clockSubmit < service.qdrantOpenUntil := by
        simpa [PersonalRequest.submits, startQdrant] using hsubmits
      rw [if_neg fun h => absurd h.1 (not_le.mpr hopen)]
      rfl
  | true =>
      have hthrough : service.qdrantOpenUntil ≤ r.env.clockSubmit := by
        simpa [PersonalRequest.submits, startQdrant] using hsubmits
      cases hfailed : r.call.answer.failed with
      | true =>
          rw [if_pos ⟨hthrough, hfailed⟩, finishPersonalized_of_failed hfailed]
          rfl
      | false =>
          rw [if_neg fun h => absurd (h.2.symm.trans hfailed) (by simp)]
          cases hanswer : r.call.answer with
          | answer found => rw [@finishPersonalized_of_answer _ r.env _ hanswer]
          | timeout =>
              rw [hanswer] at hfailed
              cases hfailed
          | raised =>
              rw [hanswer] at hfailed
              cases hfailed

/-- **The breaker over a sequence of requests.** -/
theorem serveAll_openUntil (requests : List (PersonalRequest R)) :
    (serveAll service requests).qdrantOpenUntil =
      Breaker.after qdrantBreaker service.qdrantOpenUntil (requests.map PersonalRequest.noticed) := by
  induction requests generalizing service with
  | nil => rfl
  | cons r requests ih =>
      rw [List.map_cons, Breaker.after, ← serve_openUntil]
      exact ih _

/-- A search is submitted when the breaker lets it through. -/
theorem submits_serveAll_iff (requests : List (PersonalRequest R)) :
    r.submits (serveAll service requests) = true ↔
      Breaker.after qdrantBreaker service.qdrantOpenUntil (requests.map PersonalRequest.noticed) ≤
        r.env.clockSubmit := by
  rw [← serveAll_openUntil, PersonalRequest.submits, startQdrant]
  simp

/-! ## What the breaker is for -/

/-- The requests come one after the other on a clock that starts at 0. -/
def InOrder (requests : List (PersonalRequest R)) (now : ℤ) : Prop :=
  Breaker.InOrder 0 (requests.map PersonalRequest.noticed) now

/-- After some requests, a search is submitted just when `QDRANT_BREAKER_SECONDS` have passed since
every search that failed; and unless Qdrant answers with candidates, the Top-K computed in process
is retrieved. -/
def KeepsBreaker (before : List (PersonalRequest R)) : Prop :=
  let submitted := fun requests (r : PersonalRequest R) =>
    r.submits (serveAll (serving R).init requests)
  (submitted before r = true ↔ ∀ earlier f later, before = earlier ++ f :: later →
    submitted earlier f = true → f.call.fails = true →
    f.env.clockFinish + qdrantBreaker ≤ r.env.clockSubmit) ∧
  ∀ topK, r.env.inMemory = .ok topK →
    (submitted before r = true → ∀ found, r.call.answer = .answer found → found = []) →
    r.found (serveAll (serving R).init before) = .ok topK ∧
      ∀ item ∈ topK, item ∈ r.retrieved (serveAll (serving R).init before)

variable {r service}

omit [Field R] in
/-- Who gets no candidates from Qdrant gets those computed in process. -/
theorem found_of_unanswered {topK : List String} (htopK : r.env.inMemory = .ok topK)
    (h : r.submits service = true → ∀ found, r.call.answer = .answer found → found = []) :
    r.found service = .ok topK := by
  unfold PersonalRequest.found
  cases hsubmits : r.submits service with
  | false => exact htopK
  | true =>
      cases hfailed : r.call.answer.failed with
      | true => rw [finishPersonalized_of_failed hfailed, htopK]
      | false =>
          cases hanswer : r.call.answer with
          | answer found =>
              rw [@finishPersonalized_of_answer _ r.env _ hanswer,
                if_pos (h hsubmits found hanswer), htopK]
          | timeout =>
              rw [hanswer] at hfailed
              cases hfailed
          | raised =>
              rw [hanswer] at hfailed
              cases hfailed

omit [LinearOrder R] in
theorem ids_addItem {candidates : List (Candidate R)} {source : Source} {item item' : String}
    {anchor : Option String} {rank : ℕ} :
    item' ∈ ids (addItem candidates source item anchor rank) ↔
      item' ∈ ids candidates ∨ item' = item := by
  rw [ids_addItem_eq]
  split
  · next hknown =>
      constructor
      · exact Or.inl
      · rintro (h | rfl)
        · exact h
        · exact hknown
  · simp

omit [LinearOrder R] in
/-- What a source returns is a candidate. -/
theorem mem_ids_addIds {candidates : List (Candidate R)} {source : Source}
    {items : List (String × Option String)} {item : String} (h : item ∈ items.map Prod.fst) :
    item ∈ ids (addIds candidates source items) := by
  have hrows : item ∈ (items.zipIdx 1).map fun row => row.1.1 := by
    have hmap : (items.zipIdx 1).map (fun row => row.1.1) = items.map Prod.fst := by
      conv_rhs => rw [← List.zipIdx_map_fst 1 items, List.map_map]
      rfl
    rwa [hmap]
  have hkeep : ∀ (rows : List ((String × Option String) × ℕ)) (candidates : List (Candidate R)),
      (item ∈ ids candidates ∨ item ∈ rows.map fun row => row.1.1) →
      item ∈ ids (rows.foldl
        (fun candidates row => addItem candidates source row.1.1 row.1.2 row.2) candidates) := by
    intro rows
    induction rows with
    | nil => simp
    | cons row rows ih =>
        intro candidates hmem
        refine ih _ ?_
        rw [ids_addItem]
        rw [List.map_cons, List.mem_cons] at hmem
        rcases hmem with hmem | rfl | hmem
        · exact .inl (.inl hmem)
        · exact .inl (.inr rfl)
        · exact .inr hmem
  exact hkeep _ _ (.inr hrows)

/-- What `finish_personalized` gives is retrieved. -/
theorem mem_retrieved {items : List String} (h : r.found service = .ok items) {item : String}
    (hitem : item ∈ items) : item ∈ r.retrieved service := by
  have hfound : (finishPersonalized r.env (startQdrant r.env service.qdrantOpenUntil)
      service.qdrantOpenUntil).1 = .ok items := h
  have hmem : item ∈ (items.map fun item => (item, (none : Option String))).map Prod.fst := by
    simpa using hitem
  unfold PersonalRequest.retrieved retrieve retrievePersonal
  dsimp only
  rw [hfound]
  split <;> exact mem_ids_addIds hmem

/-- **The breaker.**  In a sequence of requests in which no submitted search swallows an error, each
request keeps the breaker. -/
theorem keepsBreaker_of_noticed {before : List (PersonalRequest R)}
    (hclock : InOrder before r.env.clockSubmit)
    (hnoticed : ∀ earlier f later, before = earlier ++ f :: later →
      f.submits (serveAll (serving R).init earlier) = true → f.call.swallows = false) :
    KeepsBreaker r before := by
  refine ⟨?_, fun topK htopK hunanswered => ?_⟩
  · rw [submits_serveAll_iff, Breaker.after_le_iff hclock]
    constructor
    · rintro ⟨_, hall⟩ earlier f later hsplit hsubmits hfails
      refine hall (earlier.map PersonalRequest.noticed) f.noticed
        (later.map PersonalRequest.noticed) (by rw [hsplit, List.map_append, List.map_cons])
        ((submits_serveAll_iff _ _ _).mp hsubmits) ?_
      exact (failed_answer_of_noticed (hnoticed earlier f later hsplit hsubmits)).trans hfails
    · intro hall
      refine ⟨hclock.le, fun earlier c later hsplit hthrough hfails => ?_⟩
      obtain ⟨earlier', rest, rfl, rfl, hrest⟩ := List.map_eq_append_iff.mp hsplit
      obtain ⟨f, later', rfl, rfl, rfl⟩ := List.map_eq_cons_iff.mp hrest
      have hsubmits := (submits_serveAll_iff f (serving R).init earlier').mpr hthrough
      refine hall earlier' f later' rfl hsubmits ?_
      exact (failed_answer_of_noticed (hnoticed earlier' f later' rfl hsubmits)).symm.trans hfails
  · have hfound := found_of_unanswered htopK hunanswered
    exact ⟨hfound, fun item hitem => mem_retrieved hfound hitem⟩

/-- After a search that swallows an error the next one is submitted as if nothing had happened. -/
theorem not_keepsBreaker_of_swallows {earlier : List (PersonalRequest R)} {f : PersonalRequest R}
    (hsubmits : f.submits (serveAll (serving R).init earlier) = true)
    (hswallows : f.call.swallows = true) (hnext : f.env.clockSubmit ≤ r.env.clockSubmit)
    (hsoon : r.env.clockSubmit < f.env.clockFinish + qdrantBreaker) :
    ¬ KeepsBreaker r (earlier ++ [f]) := by
  intro hkeeps
  have hthrough := (submits_serveAll_iff f (serving R).init earlier).mp hsubmits
  have hnotfailed : f.call.answer.failed = false := by
    rw [answer_of_swallows hswallows]
    rfl
  have hagain : r.submits (serveAll (serving R).init (earlier ++ [f])) = true := by
    rw [submits_serveAll_iff, List.map_append, List.map_singleton, Breaker.after_concat,
      Breaker.next, if_neg fun h => absurd (h.2.symm.trans hnotfailed) (by simp)]
    exact hthrough.trans hnext
  have hfails : f.call.fails = true := by
    simp only [SearchCall.swallows, Bool.and_eq_true] at hswallows
    simp [SearchCall.fails, hswallows.2]
  exact absurd (hkeeps.1.mp hagain earlier f [] rfl hsubmits hfails) (not_le.mpr hsoon)

/-- **When the breaker is kept.**  Over a sequence of requests, every request that comes after some
of them keeps the breaker just when no submitted search swallows an error. -/
theorem keepsBreaker_iff (requests : List (PersonalRequest R)) (now : ℤ)
    (hclock : InOrder requests now) :
    (∀ before rest, requests = before ++ rest → ∀ r : PersonalRequest R,
      InOrder before r.env.clockSubmit → KeepsBreaker r before) ↔
    ∀ earlier f later, requests = earlier ++ f :: later →
      f.submits (serveAll (serving R).init earlier) = true → f.call.swallows = false := by
  constructor
  · intro hkeeps earlier f later hsplit hsubmits
    by_contra hswallows
    rw [Bool.not_eq_false] at hswallows
    -- A request as soon as this one is finished.
    let r : PersonalRequest R := { f with
      environment := { f.environment with clockSubmit := f.environment.clockFinish } }
    have hsplit' : requests = (earlier ++ [f]) ++ later := by simp [hsplit]
    unfold InOrder at hclock
    rw [hsplit', List.map_append, Breaker.inOrder_append] at hclock
    obtain ⟨between, hbefore, _⟩ := hclock
    rw [List.map_append, Breaker.inOrder_append] at hbefore
    obtain ⟨start, hearlier, hstart, hcall, _⟩ := hbefore
    have hclock' : InOrder (earlier ++ [f]) r.env.clockSubmit := by
      unfold InOrder
      rw [List.map_append, Breaker.inOrder_append]
      exact ⟨start, hearlier, hstart, hcall, le_refl f.environment.clockFinish⟩
    have hnext : f.env.clockSubmit ≤ r.env.clockSubmit := hcall
    have hsoon : r.env.clockSubmit < f.env.clockFinish + qdrantBreaker :=
      lt_add_of_pos_right f.environment.clockFinish (by decide)
    exact not_keepsBreaker_of_swallows hsubmits hswallows hnext hsoon
      (hkeeps (earlier ++ [f]) later hsplit' r hclock')
  · intro hnoticed before rest hsplit r hclock'
    refine keepsBreaker_of_noticed hclock' fun earlier f later hbefore hsubmits => ?_
    refine hnoticed earlier f (later ++ rest) ?_ hsubmits
    rw [hsplit, hbefore, List.append_assoc, List.cons_append]

end Requests

/-! ## An outage -/

/-- A client that cannot be reached. -/
def unreachable : QdrantClient ℚ where
  create := .ok ()
  getCollections := .error .raised
  getCollection := .error .raised
  createPayloadIndex := fun _ => .error .raised
  search := .error .raised

/-- A personalised request at a time, with what creating the client gives. -/
def outageRequest (create : Except ClientError Unit) (clock : ℤ) : PersonalRequest ℚ where
  environment := { smallEnvironment (smallCatalogue true) none with
    clockSubmit := clock
    clockFinish := clock
    inMemory := .ok ["a", "b"] }
  request := smallRequest
  personal :=
    { query := ⟨⟨Dgsr.smallArtifact, fun _ => .ok fun _ => 0, fun _ => []⟩, none, ["x"], ["x"]⟩
      encoded := ⟨⟨[], [], ⟨[], [], []⟩, ⟨[], [], []⟩, 0, 0, []⟩, .personalized, true, 1⟩
      scores := fun _ => 0 }
  call := ⟨{ unreachable with create := create }, "items", [], true⟩

/-- While creating the client raises, the breaker is kept. -/
theorem keepsBreaker_iff_create :
    KeepsBreaker (outageRequest (.error .raised) 1) [outageRequest (.error .raised) 0] := by
  have hclock : InOrder [outageRequest (.error .raised) 0, outageRequest (.error .raised) 1] 1 := by
    simp [InOrder, Breaker.InOrder, PersonalRequest.noticed, PersonalRequest.env, outageRequest]
  have hbefore : InOrder [outageRequest (.error .raised) 0]
      (outageRequest (.error .raised) 1).env.clockSubmit := by
    simp [InOrder, Breaker.InOrder, PersonalRequest.noticed, PersonalRequest.env, outageRequest]
  refine (keepsBreaker_iff _ 1 hclock).mpr ?_ _ [outageRequest (.error .raised) 1] rfl _ hbefore
  intro earlier f later hsplit _
  have hmem : f ∈ [outageRequest (.error .raised) 0, outageRequest (.error .raised) 1] := by
    rw [hsplit]
    simp
  rcases List.mem_cons.mp hmem with rfl | hmem
  · rfl
  · rw [List.mem_singleton.mp hmem]
    rfl

/-- A second request one millisecond after the client raised searches again. -/
theorem not_keepsBreaker :
    ¬ KeepsBreaker (outageRequest (.ok ()) 1) [outageRequest (.ok ()) 0] :=
  not_keepsBreaker_of_swallows
    (rfl : (outageRequest (.ok ()) 0).submits (serveAll (serving _).init []) = true) rfl
    (by decide) (by decide)

end Serving
