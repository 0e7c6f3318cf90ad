import GraphRec.Recommendations.FeedbackIntegrity

/-!
# One recommendation for a request identifier

A request takes the lock of its identifier, looks for a record, is admitted and served, and
inserts the record at last; the lock is given up when serving fails.

* `charges` — what a request adds to the monthly ledger;
* `recommendation_idempotent` — of the requests with one identifier one at most is served,
  recorded and charged; a request that finds the identifier used returns the stored response, or
  a conflict, and changes nothing.
-/

namespace Recommendations

open Api Transactions Transition
open Serving (Product)

/-- A request with an identifier. -/
def Requests (e : Entry) (key : TenantId × RequestId) (payload : RecommendationRequest) : Prop :=
  ∃ c, e.op = .getRecommendations c ∧ c.tenant = key.1 ∧ c.payload = payload ∧
    payload.requestId = some key.2

/-- The request was served. -/
def Serves (e : Entry) (key : TenantId × RequestId) (payload : RecommendationRequest)
    (response : RecommendationResponse) : Prop :=
  Requests e key payload ∧ e.result = .ok (.served response)

/-- The request was admitted, but its own serving or recording failed, which gave the lock up. -/
def GaveUp (e : Entry) : Prop := .failed ∈ e.notes ∧ ∃ error, e.result = .ok (.error error)

/-- The response is recorded with its results under an identifier that was not used, and
charged as one success. -/
structure RecordedAndCharged (key : TenantId × RequestId) (payload : RecommendationRequest)
    (response : RecommendationResponse) (s s' : Store) : Prop where
  unused : s.records.get? key = none
  recorded : ∃ row, s'.records = s.records.insert key row ∧ row.request = payload ∧
    row.response = response ∧ Recorded s' key row
  charged : ∃ now, s'.servingRequests = s.servingRequests ++ [servedRow key.1 response now] ∧
    s'.usageEvents = s.usageEvents ++ [⟨key.1, "recommendation_requests", 1, now⟩]

/-- The tenant and the identifier of a request that has one. -/
def asks : Op → Option (TenantId × RequestId)
  | .getRecommendations c => c.payload.requestId.map fun id => (c.tenant, id)
  | _ => none

theorem requests_of_asks {e : Entry} {key : TenantId × RequestId} (h : asks e.op = some key) :
    ∃ payload, Requests e key payload := by
  unfold asks at h
  split at h
  · next c hop =>
      obtain ⟨id, hid, rfl⟩ := Option.map_eq_some_iff.mp h
      exact ⟨c.payload, c, hop, rfl, rfl, hid⟩
  · cases h

/-- What a request added to the ledger. -/
def charges (e : Entry) : List UsageEvent :=
  e.after.usageEvents.drop e.before.usageEvents.length

theorem charges_of_append {e : Entry} {rows : List UsageEvent}
    (h : e.after.usageEvents = e.before.usageEvents ++ rows) : charges e = rows := by
  rw [charges, h, List.drop_left]

/-- The answer from what is stored under the identifier. -/
structure Replays (e : Entry) (tenant : TenantId) (payload stored : RecommendationRequest)
    (response : RecommendationResponse) : Prop where
  unchanged : e.after = e.before
  conflict : stored ≠ payload → e.result = .ok (.error requestConflict)
  expired : stored = payload → e.before.eligible tenant response = false →
    e.result = .ok (.error recommendationExpired)
  replayed : stored = payload → e.before.eligible tenant response = true →
    e.result = .ok (.replayed response)

section Calls

variable {first s s' : Store} {op : Op} {notes : List Note} {t : ℕ} {result : Result}
  {key : TenantId × RequestId}

/-- How a request has ended. -/
theorem OpEnds.recommended {c : RecommendationCall}
    (h : OpEnds first (.getRecommendations c) notes s t result s') :
    ∃ answer, result = .ok answer ∧ RecommendEnds c notes s answer s' := by
  cases h with
  | recommendation h => exact ⟨_, rfl, h⟩

/-- What is stored under an identifier is not served. -/
theorem replay_ne_served (c : RecommendationCall) (row : RecommendationRecord) (s : Store)
    (response : RecommendationResponse) : replay c row s ≠ .served response := by
  unfold replay
  split
  · exact Answer.noConfusion
  · split <;> exact Answer.noConfusion

/-- **Step.**  The ledger has a row more when a recommendation was served, and is left alone by
every other request. -/
theorem OpEnds.charged (h : OpEnds first op notes s t result s') :
    (∃ c response now, op = .getRecommendations c ∧ result = .ok (.served response) ∧
        s'.usageEvents = s.usageEvents ++ [⟨c.tenant, "recommendation_requests", 1, now⟩]) ∨
      (∀ response, result ≠ .ok (.served response)) ∧ s'.usageEvents = s.usageEvents := by
  cases h with
  | @recommendation c _ _ _ _ _ h =>
      cases h with
      | replayed =>
          exact Or.inr ⟨fun response hserved =>
            replay_ne_served _ _ _ response (Except.ok.inj hserved), rfl⟩
      | denied | failed => exact Or.inr ⟨nofun, rfl⟩
      | @served _ response now _ _ hwrite =>
          obtain ⟨-, -, -, -, -, -, husage⟩ := writeRecommendation_ok hwrite
          exact Or.inl ⟨c, response, now, rfl, rfl, husage⟩
  | feedback h =>
      cases h with
      | known =>
          refine Or.inr ⟨?_, rfl⟩
          intro response hserved
          unfold duplicateOf at hserved
          split at hserved <;> cases hserved
      | refused | new => exact Or.inr ⟨nofun, rfl⟩
  | product h | customer h => exact Or.inr ⟨nofun, h.usageEvents⟩

/-- **Step.**  A request that was served is recorded and charged, and any other is not. -/
theorem recorded_of_requests {e : Entry} {payload : RecommendationRequest} (hvalid : Valid e.before)
    (h : OpEnds first e.op e.notes e.before e.time e.result e.after)
    (hrequests : Requests e key payload) :
    (∃ response, e.result = .ok (.served response) ∧
        RecordedAndCharged key payload response e.before e.after) ∨
      (∀ response, e.result ≠ .ok (.served response)) ∧ e.after = e.before := by
  obtain ⟨c, hop, htenant, rfl, hid⟩ := hrequests
  have hvalid' := (h.lawful hvalid).choose_spec.valid
  rw [hop] at h
  obtain ⟨answer, hanswer, hends⟩ := h.recommended
  generalize hafter : e.after = after at hends hvalid' ⊢
  rw [hanswer]
  cases hends with
  | replayed =>
      exact Or.inr ⟨fun response hserved =>
        replay_ne_served _ _ _ response (Except.ok.inj hserved), rfl⟩
  | denied | failed => exact Or.inr ⟨nofun, rfl⟩
  | served hresponse hwrite =>
      obtain ⟨hfresh, hrecords, -, -, -, hserving, husage⟩ := writeRecommendation_ok hwrite
      obtain ⟨hsame, -⟩ := serve_ok hresponse
      rw [hid, Option.getD_some] at hsame
      rw [htenant, hsame] at hfresh hrecords
      rw [htenant] at hserving husage
      refine Or.inl ⟨_, rfl, hfresh, ⟨_, hrecords, rfl, rfl, ?_⟩, _, hserving, husage⟩
      refine hvalid'.records key _ ?_
      rw [hrecords, Table.get?_insert _ hfresh, if_pos rfl]

/-- **Step.**  A request that finds its identifier used. -/
theorem replays_of_requests {e : Entry} {payload : RecommendationRequest}
    {row : RecommendationRecord} (h : OpEnds first e.op e.notes e.before e.time e.result e.after)
    (hrequests : Requests e key payload) (hrow : e.before.records.get? key = some row) :
    GaveUp e ∨ Replays e key.1 payload row.request row.response := by
  obtain ⟨c, hop, htenant, rfl, hid⟩ := hrequests
  rw [hop] at h
  obtain ⟨answer, hanswer, hends⟩ := h.recommended
  have hkey : ∀ id, c.payload.requestId = some id → (c.tenant, id) = key := by
    intro id hsame
    rw [hid] at hsame
    exact Prod.ext htenant (Option.some.inj hsame).symm
  generalize hafter : e.after = after at hends
  cases hends with
  | replayed hid' hrow' =>
      rw [hkey _ hid', hrow] at hrow'
      obtain rfl := Option.some.inj hrow'
      refine Or.inr ⟨hafter, ?_, ?_, ?_⟩
      · intro hdiff
        rw [hanswer, replay, if_pos hdiff]
      · intro hsame hnot
        rw [hanswer, replay, if_neg (not_not.mpr hsame), htenant, hnot]
        rfl
      · intro hsame heligible
        rw [hanswer, replay, if_neg (not_not.mpr hsame), htenant, heligible]
        rfl
  | denied hunused =>
      have hnone := hunused key.2 hid
      rw [hkey key.2 hid, hrow] at hnone
      cases hnone
  | failed hfailed => exact Or.inl ⟨hfailed, _, hanswer⟩
  | served hresponse hwrite =>
      obtain ⟨hfresh, -⟩ := writeRecommendation_ok hwrite
      obtain ⟨hsame, -⟩ := serve_ok hresponse
      rw [hid, Option.getD_some] at hsame
      rw [htenant, hsame, hrow] at hfresh
      cases hfresh

end Calls

/-! ## Runs -/

/-- A request with an identifier was served, recorded and charged; or it changed nothing. -/
def RecordedWhole (log : List Entry) : Prop :=
  ∀ e ∈ log, ∀ key payload, Requests e key payload →
    (∃ response, Serves e key payload response ∧
        RecordedAndCharged key payload response e.before e.after) ∨
      (¬ ∃ response, Serves e key payload response) ∧ e.after = e.before

/-- No two requests with one identifier were served. -/
def ServedOnce (log : List Entry) : Prop :=
  log.Pairwise fun e e' => ∀ key payload response payload' response',
    Serves e key payload response → ¬ Serves e' key payload' response'

/-- A request that follows one with its identifier that was served is answered from what that one
stored. -/
def RepliesFromStored (log : List Entry) : Prop :=
  log.Pairwise fun e e' => ∀ key payload response payload', Serves e key payload response →
    Requests e' key payload' → GaveUp e' ∨ Replays e' key.1 payload' payload response

/-- What a request that was served leaves. -/
def LeavesRecord (e : Entry) (s : Store) : Prop :=
  ∀ key payload response, Serves e key payload response →
    ∃ row, s.records.get? key = some row ∧ row.request = payload ∧ row.response = response

/-- The ledger has grown by a row for each recommendation that was served, and by at most one
for an identifier. -/
structure ChargedOnce (first : Store) (st : State) : Prop where
  ledger : st.store.usageEvents = first.usageEvents ++ st.log.flatMap charges
  served : ∀ e ∈ st.log, ∀ c response, e.op = .getRecommendations c →
    e.result = .ok (.served response) →
    ∃ now, charges e = [⟨c.tenant, "recommendation_requests", 1, now⟩]
  free : ∀ e ∈ st.log, (∀ response, e.result ≠ .ok (.served response)) → charges e = []
  once : ∀ key,
    ((st.log.filter fun e => decide (asks e.op = some key)).flatMap charges).length ≤ 1

/-- At most one row, when no two of the requests are charged and each at most once. -/
theorem length_charges_le_one {log : List Entry}
    (hpairs : log.Pairwise fun e e' => charges e = [] ∨ charges e' = [])
    (hone : ∀ e ∈ log, (charges e).length ≤ 1) : (log.flatMap charges).length ≤ 1 := by
  induction log with
  | nil => exact Nat.zero_le 1
  | cons e log ih =>
      obtain ⟨hhead, htail⟩ := List.pairwise_cons.mp hpairs
      rw [List.flatMap_cons, List.length_append]
      by_cases hcharged : charges e = []
      · rw [hcharged, List.length_nil, Nat.zero_add]
        exact ih htail fun e' he' => hone e' (List.mem_cons_of_mem e he')
      · have hrest : log.flatMap charges = [] :=
          List.flatMap_eq_nil_iff.mpr fun e' he' => (hhead e' he').resolve_left hcharged
        rw [hrest, List.length_nil, Nat.add_zero]
        exact hone e List.mem_cons_self

/-- The ledger after a history. -/
theorem ledger_of_serial {inv : Store → ℕ → Prop} {first s : Store} {t : ℕ} {log : List Entry}
    (h : Serial inv (OpEnds first) first 0 log s t) :
    s.usageEvents = first.usageEvents ++ log.flatMap charges := by
  induction h with
  | nil => exact (List.append_nil _).symm
  | snoc e _ hbefore _ _ hends ih =>
      have hgrown : e.after.usageEvents = e.before.usageEvents ++ charges e := by
        rcases hends.charged with ⟨c, response, now, -, -, hrow⟩ | ⟨-, hsame⟩
        · rw [charges_of_append hrow]
          exact hrow
        · have hnone : charges e = [] := charges_of_append (by rw [hsame, List.append_nil])
          rw [hnone, hsame, List.append_nil]
      rw [hgrown, hbefore, ih, List.flatMap_append, List.flatMap_singleton, List.append_assoc]

/-- When no identifier is served twice, none is charged twice. -/
theorem charged_of_served {inv : Store → ℕ → Prop} {first : Store} {t : ℕ} {st : State}
    (hserial : Serial inv (OpEnds first) first 0 st.log st.store t)
    (hserved : ServedOnce st.log) : ChargedOnce first st := by
  have hfree : ∀ e ∈ st.log, (∀ response, e.result ≠ .ok (.served response)) →
      charges e = [] := by
    intro e he hnot
    rcases (hserial.each he).2.charged with ⟨-, response, -, -, hresult, -⟩ | ⟨-, hsame⟩
    · exact absurd hresult (hnot response)
    · exact charges_of_append (by rw [hsame, List.append_nil])
  have hrow : ∀ e ∈ st.log, ∀ c response, e.op = .getRecommendations c →
      e.result = .ok (.served response) →
      ∃ now, charges e = [⟨c.tenant, "recommendation_requests", 1, now⟩] := by
    intro e he c response hop hresult
    rcases (hserial.each he).2.charged with ⟨c', -, now, hop', -, hrow⟩ | ⟨hnot, -⟩
    · obtain rfl := Op.getRecommendations.inj (hop.symm.trans hop')
      exact ⟨now, charges_of_append hrow⟩
    · exact absurd hresult (hnot response)
  refine ⟨ledger_of_serial hserial, hrow, hfree, ?_⟩
  intro key
  refine length_charges_le_one ?_ ?_
  · refine List.Pairwise.imp_of_mem ?_ (hserved.filter _)
    intro e e' he he' honce
    rw [List.mem_filter, decide_eq_true_eq] at he he'
    obtain ⟨payload, hrequests⟩ := requests_of_asks he.2
    obtain ⟨payload', hrequests'⟩ := requests_of_asks he'.2
    by_cases hfirst : ∃ response, e.result = .ok (.served response)
    · obtain ⟨response, hresult⟩ := hfirst
      refine Or.inr (hfree e' he'.1 ?_)
      intro response' hresult'
      exact honce key payload response payload' response' ⟨hrequests, hresult⟩
        ⟨hrequests', hresult'⟩
    · exact Or.inl (hfree e he.1 fun response hresult => hfirst ⟨response, hresult⟩)
  · intro e he
    have hmem := (List.mem_filter.mp he).1
    by_cases hresult : ∃ response, e.result = .ok (.served response)
    · obtain ⟨response, hresult⟩ := hresult
      obtain ⟨payload, c, hop, -⟩ := requests_of_asks (of_decide_eq_true (List.mem_filter.mp he).2)
      obtain ⟨now, hcharges⟩ := hrow e hmem c response hop hresult
      rw [hcharges, List.length_singleton]
    · rw [hfree e hmem fun response hserves => hresult ⟨response, hserves⟩]
      exact Nat.zero_le 1

/-- **Recommendations.**  In every run, of the requests with one identifier: one at most is
served; that one is recorded with its results and charged as one success in the monthly ledger,
which grows by nothing else; and every one that follows it, or finds the identifier used from the
beginning, changes nothing, and returns the stored response if the payload is the same and all
its items are servable, and a conflict otherwise, unless its own serving had failed before. -/
theorem recommendation_idempotent {first : Store} (hfirst : Valid first) {as : List (Action Op)}
    {st : State} (h : Run (requests first) anyStep (requests first).init as st) :
    ServedOnce st.log ∧ RecordedWhole st.log ∧ ChargedOnce first st ∧
      RepliesFromStored st.log ∧
      ∀ e ∈ st.log, ∀ key payload row, Requests e key payload →
        e.before.records.get? key = some row →
        GaveUp e ∨ Replays e key.1 payload row.request row.response := by
  obtain ⟨t, -, hserial⟩ := (requests_sound hfirst h).serial
  have hpairs : st.log.Pairwise fun e e' => LeavesRecord e e'.before ∧ Valid e'.before ∧
      OpEnds first e'.op e'.notes e'.before e'.time e'.result e'.after := by
    refine (hserial.pairwise (K := LeavesRecord) ?_ ?_ ?_).1
    · rintro e ⟨hvalid, -⟩ hends key payload response ⟨hrequests, hresult⟩
      rcases recorded_of_requests hvalid hends hrequests with
        ⟨response', hserved, hunused, ⟨row, hinsert, hpayload, hresponse, -⟩, -⟩ | ⟨hnot, -⟩
      · rw [hresult] at hserved
        cases hserved
        exact ⟨row, by rw [hinsert, Table.get?_insert _ hunused, if_pos rfl], hpayload, hresponse⟩
      · exact absurd hresult (hnot response)
    · rintro e op notes s t result s' ⟨hvalid, -⟩ hleft hends key payload response hserves
      obtain ⟨row, hrow, hsame⟩ := hleft key payload response hserves
      exact ⟨row, (hends.grows hvalid).records key row hrow, hsame⟩
    · exact fun e e' hvalid hleft hends => ⟨hleft, hvalid.1, hends⟩
  have hserved : ServedOnce st.log := by
    refine hpairs.imp ?_
    rintro e e' ⟨hleft, hvalid, hends⟩ key payload response payload' response' hserves
      ⟨hrequests, hresult⟩
    obtain ⟨row, hrow, -⟩ := hleft key payload response hserves
    rcases recorded_of_requests hvalid hends hrequests with ⟨_, -, hunused, -⟩ | ⟨hnot, -⟩
    · rw [hrow] at hunused
      cases hunused
    · exact hnot response' hresult
  refine ⟨hserved, ?_, charged_of_served hserial hserved, hpairs.imp ?_, ?_⟩
  · intro e he key payload hrequests
    obtain ⟨hvalid, hends⟩ := hserial.each he
    rcases recorded_of_requests hvalid.1 hends hrequests with
      ⟨response, hserved, hrecorded⟩ | ⟨hnot, hleft⟩
    · exact Or.inl ⟨response, ⟨hrequests, hserved⟩, hrecorded⟩
    · exact Or.inr ⟨fun ⟨response, hserves⟩ => hnot response hserves.2, hleft⟩
  · rintro e e' ⟨hleft, -, hends⟩ key payload response payload' hserves hrequests
    obtain ⟨row, hrow, rfl, rfl⟩ := hleft key payload response hserves
    exact replays_of_requests hends hrequests hrow
  · intro e he key payload row hrequests hrow
    exact replays_of_requests (hserial.each he).2 hrequests hrow

/-- The same identifier for one recommendation more. -/
def otherCall : RecommendationCall := { aCall with payload := { aRequest with topN := 3 } }

/-- Two requests with one identifier at the same time, one with another payload, and one after
the product has been withdrawn. -/
def askedAgain : List (Action Op) :=
  [.start 0 (.putProduct 1 "p1" aProduct)] ++ statements 0 1 ++
    [.start 1 (.getRecommendations aCall), .start 2 (.getRecommendations aCall)] ++
    statements 1 5 ++ statements 2 3 ++ [.start 3 (.getRecommendations otherCall)] ++
    statements 3 3 ++ [.start 4 (.putProduct 1 "p1" { aProduct with isActive := false })] ++
    statements 4 1 ++ [.start 5 (.getRecommendations aCall)] ++ statements 5 3

/-- What is served first. -/
def aResponse : RecommendationResponse :=
  ⟨"r1", [⟨"p1", 1, ["trending"]⟩], none, none, "fallback", true, "popular"⟩

/-- The first is served, the second repeats it, and the others are refused. -/
theorem recommendation_idempotent_askedAgain :
    ∃ st, Run (requests noRows) anyStep (requests noRows).init askedAgain st ∧
      st.log.map Transactions.Entry.result =
        [.ok .done, .ok (.served aResponse), .ok (.replayed aResponse),
          .ok (.error requestConflict), .ok .done, .ok (.error recommendationExpired)] ∧
      ServedOnce st.log ∧ RecordedWhole st.log ∧ ChargedOnce noRows st ∧
      RepliesFromStored st.log ∧
      ∀ e ∈ st.log, ∀ key payload row, Requests e key payload →
        e.before.records.get? key = some row →
        GaveUp e ∨ Replays e key.1 payload row.request row.response := by
  have hdone : (exec (requests noRows) (requests noRows).init askedAgain).map
      (fun st => st.log.map Transactions.Entry.result) =
      some [.ok .done, .ok (.served aResponse), .ok (.replayed aResponse),
        .ok (.error requestConflict), .ok .done, .ok (.error recommendationExpired)] := by
    decide +kernel
  obtain ⟨st, hexec, hst⟩ := Option.map_eq_some_iff.mp hdone
  have hrun := run_of_exec hexec
  exact ⟨st, hrun, hst, recommendation_idempotent noRows_valid hrun⟩

end Recommendations
