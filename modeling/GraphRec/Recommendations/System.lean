import GraphRec.Recommendations.Requests

/-!
# The requests as transactions

All requests of the development run together as transactions of one store.

* `Keeps` — under a lock, what is not stored stays so;
* `Grows` — records, results and feedback are never changed or deleted;
* `Valid` — a record has the results of its response, and feedback refers to a recorded result;
* `RecommendEnds`, `FeedbackEnds` — how the requests end; `requests_sound` says that they do,
  whatever runs at the same time.
-/

namespace Recommendations

open Api Transactions Transition
open Serving (Product)

/-- The requests. -/
inductive Op
  | getRecommendations (call : RecommendationCall)
  | submitFeedback (call : FeedbackCall)
  | putProduct (tenant : TenantId) (id : ProductId) (row : Product)
  | addCustomer (tenant : TenantId) (id : String)

/-- The transaction of a request. -/
def program : Op → Transaction
  | .getRecommendations call => getRecommendations call
  | .submitFeedback call => submitFeedback call
  | .putProduct tenant id row => putProduct tenant id row
  | .addCustomer tenant id => addCustomer tenant id

abbrev Result := Except Constraint Answer
abbrev State := Transactions.State LockKey Store Note Constraint Answer Op
abbrev Entry := Transactions.Entry Store Note Constraint Answer Op

/-- The requests, from the given rows. -/
def requests (first : Store) : Transition.System State (Action Op) := system program first 0

/-! ## What the requests rely on -/

/-- What a lock protects. -/
def Keeps : LockKey → Store → Store → Prop
  | .request tenant id, s, s' =>
      s.records.get? (tenant, id) = none → s'.records.get? (tenant, id) = none
  | .event tenant id, s, s' =>
      s.feedback.get? (tenant, id) = none → s'.feedback.get? (tenant, id) = none

/-- What no request undoes. -/
structure Grows (s s' : Store) : Prop where
  records : ∀ key, s.records.KeepsRow key s'.records
  results : ∀ id, s.results.KeepsRow id s'.results
  feedback : ∀ key, s.feedback.KeepsRow key s'.feedback

/-- A named product, with its position if one is given, is in the recorded result. -/
def Store.Names (s : Store) (tenant : TenantId) (id : RequestId) (named : ProductId × Option ℤ) :
    Prop :=
  ∃ resultId row, s.results.get? resultId = some row ∧ resultId.tenant = tenant ∧
    resultId.requestId = id ∧ matchesResult named (resultId, row) = true

/-- An impression of a request. -/
def Store.HasImpression (s : Store) (tenant : TenantId) (id : EventId) (request : RequestId) :
    Prop :=
  ∃ row, s.feedback.get? (tenant, id) = some row ∧ row.feedbackType = .impression ∧
    row.requestId = request

/-- What a submission refers to is stored. -/
structure References (s : Store) (tenant : TenantId) (submission : Feedback) : Prop where
  record : (s.records.get? (tenant, submission.requestId)).isSome = true
  nonempty : submission.submitted ≠ []
  named : ∀ named ∈ submission.submitted, s.Names tenant submission.requestId named
  linked : ∀ id, submission.linked = some id → s.HasImpression tenant id submission.requestId

/-- The result that a row is linked to is one that the submission names. -/
def Selects (s : Store) (tenant : TenantId) (submission : Feedback) (result : Option ResultId) :
    Prop :=
  if submission.kind = .impression then result = none
  else ∃ resultId row, result = some resultId ∧ s.results.get? resultId = some row ∧
    resultId.tenant = tenant ∧ resultId.requestId = submission.requestId ∧
    ∀ named ∈ submission.submitted, matchesResult named (resultId, row) = true

/-- A stored submission. -/
structure Refers (s : Store) (tenant : TenantId) (row : RecommendationFeedback) : Prop where
  body : ∃ t, row.payload = row.submission.body t
  type : row.feedbackType = row.submission.kind
  request : row.requestId = row.submission.requestId
  references : References s tenant row.submission
  selects : Selects s tenant row.submission row.recommendationResultId

/-- A record has the results of its response, and no others. -/
structure Recorded (s : Store) (key : TenantId × RequestId) (row : RecommendationRecord) :
    Prop where
  id : row.response.requestId = key.2
  stored : ∀ item ∈ row.response.items, ∃ result,
    s.results.get? ⟨key.1, key.2, item.position⟩ = some result ∧
      result.externalProductId = item.externalProductId
  only : ∀ resultId result, s.results.get? resultId = some result → resultId.tenant = key.1 →
    resultId.requestId = key.2 → ∃ item ∈ row.response.items,
      item.position = resultId.rankPosition ∧ item.externalProductId = result.externalProductId

/-- The rows fit together. -/
structure Valid (s : Store) : Prop where
  records : ∀ key row, s.records.get? key = some row → Recorded s key row
  results : ∀ id row, s.results.get? id = some row →
    (s.records.get? (id.tenant, id.requestId)).isSome = true
  feedback : ∀ key row, s.feedback.get? key = some row → Refers s key.1 row

/-- The rows fit together, and those of the beginning are still there. -/
def Since (first : Store) (s : Store) (_ : ℕ) : Prop := Valid s ∧ Grows first s

theorem Grows.refl (s : Store) : Grows s s :=
  ⟨fun key => .refl key s.records, fun id => .refl id s.results, fun key => .refl key s.feedback⟩

theorem Grows.trans (s s' s'' : Store) (h : Grows s s') (h' : Grows s' s'') : Grows s s'' :=
  ⟨fun key => (h.records key).trans (h'.records key),
    fun id => (h.results id).trans (h'.results id),
    fun key => (h.feedback key).trans (h'.feedback key)⟩

theorem Keeps.refl (key : LockKey) (s : Store) : Keeps key s s := by
  cases key <;> exact id

theorem Keeps.trans (key : LockKey) (s s' s'' : Store) (h : Keeps key s s')
    (h' : Keeps key s' s'') : Keeps key s s'' := by
  cases key <;> exact fun hnone => h' (h hnone)

theorem rules (first : Store) : Rules Keeps Grows (Since first) where
  refl := Keeps.refl
  trans := Keeps.trans
  grows_refl := Grows.refl
  grows_trans := Grows.trans
  tick := fun _ _ _ h _ => h

section References

variable {s s' : Store} {tenant : TenantId} {submission : Feedback}

theorem Store.Names.grows {id : RequestId} {named : ProductId × Option ℤ}
    (h : s.Names tenant id named) (hgrows : Grows s s') : s'.Names tenant id named := by
  obtain ⟨resultId, row, hrow, hmatch⟩ := h
  exact ⟨resultId, row, hgrows.results resultId row hrow, hmatch⟩

theorem Store.HasImpression.grows {id : EventId} {request : RequestId}
    (h : s.HasImpression tenant id request) (hgrows : Grows s s') :
    s'.HasImpression tenant id request := by
  obtain ⟨row, hrow, hsame⟩ := h
  exact ⟨row, hgrows.feedback (tenant, id) row hrow, hsame⟩

/-- What a submission refers to stays stored. -/
theorem References.grows (h : References s tenant submission) (hgrows : Grows s s') :
    References s' tenant submission where
  record := by
    obtain ⟨row, hrow⟩ := Option.isSome_iff_exists.mp h.record
    rw [hgrows.records _ row hrow, Option.isSome_some]
  nonempty := h.nonempty
  named := fun named hmem => (h.named named hmem).grows hgrows
  linked := fun id hlinked => (h.linked id hlinked).grows hgrows

theorem Selects.grows {result : Option ResultId} (h : Selects s tenant submission result)
    (hgrows : Grows s s') : Selects s' tenant submission result := by
  unfold Selects at h ⊢
  split
  · next himpression => rwa [if_pos himpression] at h
  · next himpression =>
      rw [if_neg himpression] at h
      obtain ⟨resultId, row, hresult, hrow, hsame⟩ := h
      exact ⟨resultId, row, hresult, hgrows.results resultId row hrow, hsame⟩

theorem Refers.grows {row : RecommendationFeedback} (h : Refers s tenant row)
    (hgrows : Grows s s') : Refers s' tenant row :=
  ⟨h.body, h.type, h.request, h.references.grows hgrows, h.selects.grows hgrows⟩

theorem mem_resultsOf {id : RequestId} {row : ResultId × RecommendationResult} :
    row ∈ s.resultsOf tenant id ↔
      s.results.get? row.1 = some row.2 ∧ row.1.tenant = tenant ∧ row.1.requestId = id := by
  rw [Store.resultsOf, List.mem_filter, decide_eq_true_eq, ← Table.mem_rows_iff]

/-- What the check of the products says. -/
theorem allowed_iff {id : RequestId} : allowed submission (s.resultsOf tenant id) = true ↔
    submission.submitted ≠ [] ∧ ∀ named ∈ submission.submitted, s.Names tenant id named := by
  rw [allowed, Bool.and_eq_true, Bool.not_eq_true', List.isEmpty_eq_false_iff, List.all_eq_true]
  refine and_congr_right fun _ => forall₂_congr fun named _ => ?_
  rw [List.any_eq_true]
  constructor
  · rintro ⟨row, hmem, hmatch⟩
    obtain ⟨hrow, htenant, hid⟩ := mem_resultsOf.mp hmem
    exact ⟨row.1, row.2, hrow, htenant, hid, hmatch⟩
  · rintro ⟨resultId, row, hrow, htenant, hid, hmatch⟩
    exact ⟨(resultId, row), mem_resultsOf.mpr ⟨hrow, htenant, hid⟩, hmatch⟩

/-- A submission that is no impression names one product. -/
theorem submitted_singleton (h : submission.kind ≠ .impression) :
    ∃ named, submission.submitted = [named] := by
  cases submission with
  | impression => exact absurd rfl h
  | click | conversion => exact ⟨_, rfl⟩

/-- The selected result is one that is named. -/
theorem selectedResult_selects
    (h : allowed submission (s.resultsOf tenant submission.requestId) = true) :
    Selects s tenant submission
      (selectedResult submission (s.resultsOf tenant submission.requestId)) := by
  unfold Selects selectedResult
  split
  · rfl
  · next himpression =>
      obtain ⟨named, hnamed⟩ := submitted_singleton himpression
      obtain ⟨-, hnames⟩ := allowed_iff.mp h
      obtain ⟨resultId, row, hrow, htenant, hid, hmatch⟩ :=
        hnames named (hnamed ▸ List.mem_singleton_self named)
      have hmem : (resultId, row) ∈ s.resultsOf tenant submission.requestId :=
        mem_resultsOf.mpr ⟨hrow, htenant, hid⟩
      have hall : (submission.submitted.all fun named => matchesResult named (resultId, row)) =
          true := by
        rw [hnamed, List.all_cons, List.all_nil, Bool.and_true]
        exact hmatch
      have hfound : ((s.resultsOf tenant submission.requestId).find? fun row =>
          submission.submitted.all fun named => matchesResult named row).isSome = true :=
        List.find?_isSome.mpr ⟨(resultId, row), hmem, hall⟩
      obtain ⟨found, hfind⟩ := Option.isSome_iff_exists.mp hfound
      obtain ⟨hstored, htenant', hid'⟩ := mem_resultsOf.mp (List.mem_of_find?_eq_some hfind)
      have hmatches := List.find?_some hfind
      rw [hfind]
      exact ⟨found.1, found.2, rfl, hstored, htenant', hid', List.all_eq_true.mp hmatches⟩

theorem linksImpression_iff {c : FeedbackCall} {id : EventId} : s.linksImpression c id = true ↔
    s.HasImpression c.tenant id c.submission.requestId := by
  simp only [Store.linksImpression, Option.any_eq_true_iff_get, Store.HasImpression,
    Bool.and_eq_true, decide_eq_true_eq]
  constructor
  · rintro ⟨hsome, htype, hrequest⟩
    exact ⟨_, (Option.some_get hsome).symm, htype, hrequest⟩
  · rintro ⟨row, hrow, htype, hrequest⟩
    simp [hrow, htype, hrequest]

end References

end Recommendations
