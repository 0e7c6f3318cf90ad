import GraphRec.Recommendations.Outcomes

/-!
# Feedback

A submission looks for its event, then for what it refers to, and looks again when its insert has
waited for another of the same event.

`feedback_integrity` — an event is stored once and never changed, and refers to a recorded
result of its request; of equal submissions one is new and the others are duplicates; a
submission of a stored event with another content is refused.
-/

namespace Recommendations

open Api Transactions Transition
open Serving (Product)

/-- A submission of an event. -/
def Submits (e : Entry) (key : TenantId × EventId) (submission : Feedback) : Prop :=
  ∃ c, e.op = .submitFeedback c ∧ c.key = key ∧ c.submission = submission

/-- The submission is reported as new, or as a duplicate. -/
def ReportedAs (e : Entry) (duplicate : Bool) : Prop :=
  ∃ id type receivedAt, e.result = .ok (.accepted id type duplicate receivedAt)

/-- The submission is refused, since not all that it refers to was there in the beginning. -/
def RefusedFor (first : Store) (key : TenantId × EventId) (submission : Feedback) (e : Entry) :
    Prop :=
  ¬ References first key.1 submission ∧ ∃ error, e.result = .ok (.error error)

/-- What a submission that has ended did, and answered. -/
structure Answered (first : Store) (key : TenantId × EventId) (submission : Feedback)
    (e : Entry) : Prop where
  /-- A stored event is left as it is. -/
  stored : ∀ row, e.before.feedback.get? key = some row → e.after = e.before
  /-- With the same content, the submission is a duplicate. -/
  duplicate : ∀ row, e.before.feedback.get? key = some row → row.submission = submission →
    ReportedAs e true ∨ RefusedFor first key submission e
  /-- With another content, it is refused. -/
  conflict : ∀ row, e.before.feedback.get? key = some row → row.submission ≠ submission →
    e.result = .ok (.error feedbackConflict) ∨ RefusedFor first key submission e
  /-- An event that is not stored is stored, and the submission is new. -/
  new : e.before.feedback.get? key = none →
    (ReportedAs e false ∧ ∃ row, row.submission = submission ∧
        e.after = { e.before with feedback := e.before.feedback.insert key row }) ∨
      (RefusedFor first key submission e ∧ e.after = e.before)

/-- Stored events are never changed, and none appears but by a submission that is new. -/
def StoredOnce (log : List Entry) : Prop :=
  (∀ e ∈ log, ∀ key row, e.before.feedback.get? key = some row →
      e.after.feedback.get? key = some row) ∧
    ∀ e ∈ log, ∀ key row, e.before.feedback.get? key = none →
      e.after.feedback.get? key = some row → Submits e key row.submission ∧ ReportedAs e false

/-- When all submissions of an event are equal, and what they refer to was there in the
beginning, one is new and the others are duplicates. -/
def OneIsNew (first : Store) (log : List Entry) : Prop :=
  ∀ key submission, first.feedback.get? key = none → References first key.1 submission →
    (∀ e ∈ log, ∀ other, Submits e key other → other = submission) →
    (∃ e ∈ log, Submits e key submission) →
    ∃ before e after, log = before ++ e :: after ∧ Submits e key submission ∧
      ReportedAs e false ∧
      ∀ e' ∈ before ++ after, Submits e' key submission → ReportedAs e' true

/-! ## One submission -/

section Submissions

variable {first s s' : Store} {op : Op} {notes : List Note} {t : ℕ} {result : Result}
  {key : TenantId × EventId}

/-- A request that is no submission of the event leaves it alone. -/
theorem OpEnds.feedback_other (h : OpEnds first op notes s t result s')
    (hop : ∀ c, op = .submitFeedback c → c.key ≠ key) :
    s'.feedback.get? key = s.feedback.get? key := by
  cases h with
  | recommendation h =>
      cases h with
      | replayed | denied | failed => rfl
      | served _ hwrite =>
          obtain ⟨-, -, -, hfeedback, -⟩ := writeRecommendation_ok hwrite
          rw [hfeedback]
  | feedback h =>
      cases h with
      | known | refused => rfl
      | new hfresh =>
          exact (Table.get?_insert _ hfresh _ key).trans (if_neg fun hkey => hop _ rfl hkey.symm)
  | product h | customer h => rw [h.feedback]

/-- How a submission has ended. -/
theorem OpEnds.submitted {c : FeedbackCall} (h : OpEnds first (.submitFeedback c) notes s t result s') :
    ∃ answer, result = .ok answer ∧ FeedbackEnds first c s answer s' := by
  cases h with
  | feedback h => exact ⟨_, rfl, h⟩

theorem duplicateOf_same {c : FeedbackCall} {row : RecommendationFeedback}
    (h : row.submission = c.submission) :
    duplicateOf c row = .accepted c.submission.eventId row.feedbackType true row.receivedAt := by
  rw [duplicateOf, if_neg (not_not.mpr h)]

theorem duplicateOf_other {c : FeedbackCall} {row : RecommendationFeedback}
    (h : row.submission ≠ c.submission) : duplicateOf c row = .error feedbackConflict := by
  rw [duplicateOf, if_pos h]

/-- **Step.**  What a submission did, and answered. -/
theorem answered_of_submits {e : Entry} {submission : Feedback}
    (h : OpEnds first e.op e.notes e.before e.time e.result e.after)
    (hsubmits : Submits e key submission) : Answered first key submission e := by
  obtain ⟨c, hop, rfl, rfl⟩ := hsubmits
  rw [hop] at h
  obtain ⟨answer, hanswer, hends⟩ := h.submitted
  generalize hafter : e.after = after at hends
  cases hends with
  | known hrow =>
      refine ⟨fun _ _ => hafter, ?_, ?_, ?_⟩
      · intro row hrow' hsame
        rw [hrow] at hrow'
        obtain rfl := Option.some.inj hrow'
        rw [duplicateOf_same hsame] at hanswer
        exact Or.inl ⟨_, _, _, hanswer⟩
      · intro row hrow' hother
        rw [hrow] at hrow'
        obtain rfl := Option.some.inj hrow'
        rw [duplicateOf_other hother] at hanswer
        exact Or.inl hanswer
      · intro hnone
        rw [hrow] at hnone
        cases hnone
  | refused hlacks =>
      have hrefused : RefusedFor first c.key c.submission e := ⟨hlacks, _, hanswer⟩
      exact ⟨fun _ _ => hafter, fun _ _ _ => Or.inr hrefused, fun _ _ _ => Or.inr hrefused,
        fun _ => Or.inr ⟨hrefused, hafter⟩⟩
  | new hfresh =>
      have hcontra : ∀ row, e.before.feedback.get? c.key ≠ some row := by
        intro row hrow
        rw [hfresh] at hrow
        cases hrow
      refine ⟨fun row hrow => absurd hrow (hcontra row), fun row hrow => absurd hrow (hcontra row),
        fun row hrow => absurd hrow (hcontra row), ?_⟩
      intro _
      exact Or.inl ⟨⟨_, _, _, hanswer⟩, _, rfl, hafter⟩

/-- An event appears by a submission that is new. -/
theorem OpEnds.stores {e : Entry} {row : RecommendationFeedback}
    (h : OpEnds first e.op e.notes e.before e.time e.result e.after)
    (hnone : e.before.feedback.get? key = none) (hrow : e.after.feedback.get? key = some row) :
    Submits e key row.submission ∧ ReportedAs e false := by
  by_cases hop : ∀ c, e.op = .submitFeedback c → c.key ≠ key
  · rw [h.feedback_other hop, hnone] at hrow
    cases hrow
  · push Not at hop
    obtain ⟨c, hop, hkey⟩ := hop
    have hanswered := answered_of_submits h ⟨c, hop, hkey, rfl⟩
    rcases hanswered.new hnone with ⟨hnew, stored, hsame, hafter⟩ | ⟨-, hafter⟩
    · rw [hafter] at hrow
      dsimp only at hrow
      rw [Table.get?_insert _ hnone, if_pos rfl] at hrow
      obtain rfl := Option.some.inj hrow
      exact ⟨⟨c, hop, hkey, hsame.symm⟩, hnew⟩
    · rw [hafter, hnone] at hrow
      cases hrow

end Submissions

/-! ## Runs -/

/-- The submissions of an event so far: none, and it is not stored, or one that was new and
stored it, and duplicates. -/
def OneNewSoFar (key : TenantId × EventId) (submission : Feedback) (log : List Entry) (s : Store) :
    Prop :=
  (s.feedback.get? key = none ∧ ∀ e ∈ log, ¬ Submits e key submission) ∨
    (∃ row, s.feedback.get? key = some row ∧ row.submission = submission) ∧
      ∃ before e after, log = before ++ e :: after ∧ Submits e key submission ∧
        ReportedAs e false ∧
        ∀ e' ∈ before ++ after, Submits e' key submission → ReportedAs e' true

/-- **Step.**  One more request that has ended. -/
theorem OneNewSoFar.snoc {first : Store} {key : TenantId × EventId} {submission : Feedback}
    {log : List Entry} {e : Entry} (h : OneNewSoFar key submission log e.before)
    (hreferences : References first key.1 submission)
    (hsame : ∀ other, Submits e key other → other = submission)
    (hends : OpEnds first e.op e.notes e.before e.time e.result e.after) :
    OneNewSoFar key submission (log ++ [e]) e.after := by
  by_cases hsubmits : Submits e key submission
  · have hanswered := answered_of_submits hends hsubmits
    rcases h with ⟨hnone, hno⟩ | ⟨⟨row, hrow, hrowSame⟩, before, new, after, rfl, hnew⟩
    · rcases hanswered.new hnone with ⟨hnew, stored, hstored, hafter⟩ | ⟨hrefused, -⟩
      · refine Or.inr ⟨⟨stored, ?_, hstored⟩, log, e, [], rfl, hsubmits, hnew, ?_⟩
        · rw [hafter]
          dsimp only
          rw [Table.get?_insert _ hnone, if_pos rfl]
        · rw [List.append_nil]
          exact fun e' he' hother => absurd hother (hno e' he')
      · exact absurd hreferences hrefused.1
    · refine Or.inr ⟨⟨row, ?_, hrowSame⟩, before, new, after ++ [e], ?_, hnew.1, hnew.2.1, ?_⟩
      · rw [hanswered.stored row hrow]
        exact hrow
      · rw [List.append_assoc, List.cons_append]
      · intro e' he' hother
        rw [← List.append_assoc] at he'
        rcases List.mem_append.mp he' with hold | hlast
        · exact hnew.2.2 e' hold hother
        · obtain rfl := List.mem_singleton.mp hlast
          rcases hanswered.duplicate row hrow hrowSame with hduplicate | hrefused
          · exact hduplicate
          · exact absurd hreferences hrefused.1
  · -- any other request leaves the event alone
    have hkept : e.after.feedback.get? key = e.before.feedback.get? key := by
      refine hends.feedback_other ?_
      intro c hop hkey
      have hother := hsame c.submission ⟨c, hop, hkey, rfl⟩
      exact hsubmits ⟨c, hop, hkey, hother⟩
    rcases h with ⟨hnone, hno⟩ | ⟨⟨row, hrow, hrowSame⟩, before, new, after, rfl, hnew⟩
    · refine Or.inl ⟨hkept.trans hnone, ?_⟩
      intro e' he'
      rcases List.mem_append.mp he' with hold | hlast
      · exact hno e' hold
      · rwa [List.mem_singleton.mp hlast]
    · refine Or.inr ⟨⟨row, hkept.trans hrow, hrowSame⟩, before, new, after ++ [e], ?_, hnew.1,
        hnew.2.1, ?_⟩
      · rw [List.append_assoc, List.cons_append]
      · intro e' he' hother
        rw [← List.append_assoc] at he'
        rcases List.mem_append.mp he' with hold | hlast
        · exact hnew.2.2 e' hold hother
        · exact absurd (List.mem_singleton.mp hlast ▸ hother) hsubmits

theorem Serial.oneIsNew {first s : Store} {t : ℕ} {log : List Entry}
    (h : Serial (Since first) (OpEnds first) first 0 log s t) : OneIsNew first log := by
  intro key submission hfresh hreferences hsame hsome
  have hsofar : OneNewSoFar key submission log s := by
    clear hsome
    induction h with
    | nil => exact Or.inl ⟨hfresh, by simp⟩
    | snoc entry _ hbefore _ _ hends ih =>
        have hinit := ih fun e he => hsame e (List.mem_append_left _ he)
        rw [← hbefore] at hinit
        exact hinit.snoc hreferences
          (hsame entry (List.mem_append_right _ (List.mem_singleton_self _))) hends
  rcases hsofar with ⟨-, hno⟩ | ⟨-, hone⟩
  · obtain ⟨e, he, hsubmits⟩ := hsome
    exact absurd hsubmits (hno e he)
  · exact hone

/-- **Feedback.**  In every run: an event is stored once, by a submission that is new, and never
changed; every stored event refers to a recorded result of its request, and a linked impression
belongs to the same request; a submission of a stored event changes nothing, and is a
duplicate, or refused when its content is another; and of equal submissions whose references were
there from the beginning one is new and the others are duplicates. -/
theorem feedback_integrity {first : Store} (hfirst : Valid first) {as : List (Action Op)}
    {st : State} (h : Run (requests first) anyStep (requests first).init as st) :
    Valid st.store ∧ StoredOnce st.log ∧
      (∀ e ∈ st.log, ∀ key submission, Submits e key submission →
        Answered first key submission e) ∧
      OneIsNew first st.log := by
  have hsound := requests_sound hfirst h
  obtain ⟨t, -, hserial⟩ := hsound.serial
  refine ⟨hsound.valid.1, ⟨?_, ?_⟩, ?_, Serial.oneIsNew hserial⟩
  · intro e he key row hrow
    obtain ⟨hvalid, hends⟩ := hserial.each he
    exact (hends.grows hvalid.1).feedback key row hrow
  · intro e he key row hnone hrow
    exact (hserial.each he).2.stores hnone hrow
  · intro e he key submission hsubmits
    exact answered_of_submits (hserial.each he).2 hsubmits

/-- No rows. -/
def noRows : Store := ⟨.empty, [], .empty, .empty, .empty, [], []⟩

theorem noRows_valid : Valid noRows := by
  refine ⟨?_, ?_, ?_⟩
  · intro key row hrow
    cases hrow
  · intro id row hrow
    cases hrow
  · intro key row hrow
    cases hrow

/-- A product that can be served. -/
def aProduct : Product := ⟨"p1", none, 0, true, "available"⟩

/-- A request for two recommendations, of which the pipeline finds one. -/
def aRequest : RecommendationRequest := ⟨some "r1", some "u1", 2, [], "", true, none, false⟩

def aCall : RecommendationCall :=
  ⟨1, aRequest, "rec-1", none, .ok ⟨[("p1", ["trending"])], none, false, "fallback", true, "popular"⟩⟩

/-- A click on the product. -/
def aClick : FeedbackCall := ⟨1, .click ⟨"e1", "r1", none, "p1", 1, none, none⟩, 5⟩

/-- A click under the same event, of another time. -/
def otherClick : FeedbackCall := ⟨1, .click ⟨"e1", "r1", none, "p1", 1, some 3, none⟩, 5⟩

/-- A recommendation, two equal clicks at the same time, and another under their event. -/
def clickedTwice : List (Action Op) :=
  [.start 0 (.putProduct 1 "p1" aProduct)] ++ statements 0 1 ++
    [.start 1 (.getRecommendations aCall)] ++ statements 1 5 ++
    [.start 2 (.submitFeedback aClick), .start 3 (.submitFeedback aClick)] ++ statements 2 3 ++
    statements 3 3 ++ statements 2 4 ++ statements 3 4 ++
    [.start 4 (.submitFeedback otherClick)] ++ statements 4 2

/-- One click is new, the other a duplicate, and the third is refused. -/
theorem feedback_integrity_clickedTwice :
    ∃ st, Run (requests noRows) anyStep (requests noRows).init clickedTwice st ∧
      (st.log.map Transactions.Entry.result).drop 2 =
        [.ok (.accepted "e1" .click false 0), .ok (.accepted "e1" .click true 0),
          .ok (.error feedbackConflict)] ∧
      Valid st.store ∧ StoredOnce st.log ∧
      (∀ e ∈ st.log, ∀ key submission, Submits e key submission →
        Answered noRows key submission e) ∧
      OneIsNew noRows st.log := by
  have hdone : (exec (requests noRows) (requests noRows).init clickedTwice).map
      (fun st => (st.log.map Transactions.Entry.result).drop 2) =
      some [.ok (.accepted "e1" .click false 0), .ok (.accepted "e1" .click true 0),
        .ok (.error feedbackConflict)] := by
    decide +kernel
  obtain ⟨st, hexec, hst⟩ := Option.map_eq_some_iff.mp hdone
  have hrun := run_of_exec hexec
  exact ⟨st, hrun, hst, feedback_integrity noRows_valid hrun⟩

end Recommendations
