import GraphRec.Retention.Rules

/-!
# Retention and the foreign keys

The rule for recommendations spares those that feedback or a result is left of; the rule for
results does not look at feedback.  A result past its window with younger feedback on it is
therefore deleted under the key of that feedback, the database refuses the batch, and the rules
after it do not run.

* `retention_exact_iff` — a run deletes exactly what its rules ask for, and leaves every key
  intact, when no feedback that stays refers to a result that goes, and only then;
* `retention_refused` — a database on which no run gets past the results.
-/

namespace Retention

open Auth (TenantId Time)
open Ingestion (MonthCalendar)
open Purge (Passes purge endsAt dueRows keptRows)

variable {cal : MonthCalendar} {passes : Passes Time} {db : Database}

/-! ## A row that is due stays due -/

/-- What is due at a time is due at every later one. -/
def Lasting {α : Type} (due : Time → α → Bool) : Prop :=
  ∀ a t t', t ≤ t' → due t a = true → due t' a = true

theorem olderThan_mono {days : ℕ} {t t' time : Time} (hle : t ≤ t')
    (h : olderThan days t time = true) : olderThan days t' time = true := by
  rw [olderThan, decide_eq_true_iff] at h ⊢
  exact Nat.lt_of_lt_of_le h hle

theorem Occurrence.due_lasting (days : ℕ) : Lasting (Occurrence.due days) :=
  fun _ _ _ => olderThan_mono

theorem RecommendationFeedback.due_lasting : Lasting RecommendationFeedback.due :=
  fun _ _ _ => olderThan_mono

theorem RecommendationResult.due_lasting : Lasting RecommendationResult.due :=
  fun _ _ _ => olderThan_mono

theorem RefreshSession.due_lasting : Lasting RefreshSession.due := fun _ _ _ => olderThan_mono

theorem OneTimeToken.due_lasting : Lasting OneTimeToken.due := fun _ _ _ => olderThan_mono

theorem RegistrationRequest.due_lasting : Lasting RegistrationRequest.due :=
  fun _ _ _ => olderThan_mono

theorem RecommendationRecord.due_lasting (feedback : List RecommendationFeedback)
    (results : List RecommendationResult) :
    Lasting (RecommendationRecord.due feedback results) := by
  intro record t t' hle h
  simp only [RecommendationRecord.due, Bool.and_eq_true] at h ⊢
  exact ⟨⟨olderThan_mono hle h.1.1, h.1.2⟩, h.2⟩

/-- A later time is in no earlier month. -/
theorem monthOf_mono (cal : MonthCalendar) {t t' : Time} (hle : t ≤ t') :
    cal.monthOf t ≤ cal.monthOf t' := by
  have h := cal.contains_monthOf t
  have h' := cal.contains_monthOf t'
  simp only [Usage.Calendar.contains, Bool.and_eq_true, decide_eq_true_eq] at h h'
  have hlt : cal.monthStart (cal.monthOf t) < cal.monthStart (cal.monthOf t' + 1) :=
    Nat.lt_of_le_of_lt (Nat.le_trans h.1 hle) h'.2
  exact Nat.lt_succ_iff.mp (cal.increasing.lt_iff_lt.mp hlt)

theorem usageDue_lasting (cal : MonthCalendar) : Lasting (usageDue cal) := by
  intro row t t' hle h
  rw [usageDue, decide_eq_true_iff] at h ⊢
  refine Nat.lt_of_lt_of_le h (cal.increasing.monotone ?_)
  exact Nat.sub_le_sub_right (monthOf_mono cal hle) 25

/-! ## One rule -/

variable (passes) in
/-- A rule that takes no row that something left still refers to. -/
theorem purge_rule {α : Type} {due : Time → α → Bool} (hlasting : Lasting due)
    {refused : α → Bool} {n : ℕ} {rows : List α}
    (hfree : ∀ a ∈ rows, due (passes.now (lastBatch passes due n rows)) a = true →
      refused a = false) :
    ∃ deleted kept,
      purge passes batchSize due batchSize_pos refused n rows
        = some (deleted, lastBatch passes due n rows + 1, kept) ∧
      deleted.length
        = rows.length - (keptAt due (passes.now (lastBatch passes due n rows)) rows).length ∧
      kept.Perm (keptAt due (passes.now (lastBatch passes due n rows)) rows) ∧
      ∀ a ∈ deleted, due (passes.now (lastBatch passes due n rows)) a = true := by
  have hnone : ∀ a ∈ dueRows passes batchSize due batchSize_pos n rows, refused a = false :=
    fun a ha => hfree a (List.mem_filter.mp ha).1 (List.mem_filter.mp ha).2
  obtain ⟨deleted, kept, hpurge, hdeleted, hkept⟩ :=
    Purge.purge_done batchSize_pos hlasting hnone
  refine ⟨deleted, kept, hpurge, ?_, hkept, fun a ha =>
    (List.mem_filter.mp (hdeleted.subset ha)).2⟩
  have hsum := List.length_eq_length_filter_add (l := rows)
    (due (passes.now (lastBatch passes due n rows)))
  rw [hdeleted.length_eq]
  exact (Nat.sub_eq_of_eq_add hsum).symm

variable (passes) in
/-- A rule whose rows nothing refers to. -/
theorem purge_unreferenced {α : Type} {due : Time → α → Bool} (hlasting : Lasting due) (n : ℕ)
    (rows : List α) :
    ∃ deleted kept,
      purge passes batchSize due batchSize_pos unreferenced n rows
        = some (deleted, lastBatch passes due n rows + 1, kept) ∧
      deleted.length
        = rows.length - (keptAt due (passes.now (lastBatch passes due n rows)) rows).length ∧
      kept.Perm (keptAt due (passes.now (lastBatch passes due n rows)) rows) := by
  obtain ⟨deleted, kept, hpurge, hlength, hkept, -⟩ :=
    purge_rule passes hlasting (n := n) fun a (_ : a ∈ rows) _ => rfl
  exact ⟨deleted, kept, hpurge, hlength, hkept⟩

/-! ## The whole run -/

/-- How many rows each rule took. -/
def taken (before after : Database) : List (String × ℕ) :=
  [("serving_requests", before.servingRequests.length - after.servingRequests.length),
   ("recommendation_feedback",
     before.recommendationFeedback.length - after.recommendationFeedback.length),
   ("recommendation_results",
     before.recommendationResults.length - after.recommendationResults.length),
   ("recommendation_records",
     before.recommendationRecords.length - after.recommendationRecords.length),
   ("capacity_events", before.capacityEvents.length - after.capacityEvents.length),
   ("refresh_sessions", before.refreshSessions.length - after.refreshSessions.length),
   ("account_setup_tokens",
     before.accountSetupTokens.length - after.accountSetupTokens.length),
   ("account_recovery_tokens",
     before.accountRecoveryTokens.length - after.accountRecoveryTokens.length),
   ("registration_requests",
     before.registrationRequests.length - after.registrationRequests.length),
   ("security_events", before.securityEvents.length - after.securityEvents.length),
   ("usage_events", before.usageEvents.length - after.usageEvents.length)]

/-- The run is not refused, deletes exactly the rows that match its rules, counts them, and
leaves nothing that refers to a row that is gone. -/
def RunsExactly (cal : MonthCalendar) (passes : Passes Time) (db : Database) : Prop :=
  ∃ db', run cal passes db
      = some (taken db (remaining cal (deadlines cal passes db) db), db') ∧
    db'.Same (remaining cal (deadlines cal passes db) db) ∧ db'.ForeignKeys

/-- No feedback that the feedback rule leaves is on a result that the result rule takes. -/
def FeedbackOutlived (deadline : Deadlines) (db : Database) : Prop :=
  ∀ f ∈ db.recommendationFeedback, ∀ r ∈ db.recommendationResults, f.on r = true →
    r.due deadline.recommendationResults = true → f.due deadline.recommendationFeedback = true

/-- A deleted recommendation had no results left that could go with it. -/
theorem cascade_nothing {feedback : List RecommendationFeedback}
    {results : List RecommendationResult} {now : Time} {records : List RecommendationRecord}
    (h : ∀ record ∈ records, record.due feedback results now = true) :
    results.filter (fun r => !records.any (r.of ·)) = results := by
  rw [List.filter_eq_self]
  intro r hr
  rw [Bool.not_eq_true', List.any_eq_false]
  intro record hrecord hof
  have hdue := h record hrecord
  simp only [RecommendationRecord.due, Bool.and_eq_true, Bool.not_eq_true',
    List.any_eq_false] at hdue
  exact hdue.2 r hr hof

/-- What the rules leave refers to nothing that they take. -/
theorem foreignKeys_remaining (hkeys : db.ForeignKeys) {deadline : Deadlines}
    (hout : FeedbackOutlived deadline db) : (remaining cal deadline db).ForeignKeys := by
  constructor
  · intro r hr
    obtain ⟨record, hrecord, hof⟩ := hkeys.resultRecord r (List.mem_filter.mp hr).1
    refine ⟨record, List.mem_filter.mpr ⟨hrecord, ?_⟩, hof⟩
    have hany : (keptAt RecommendationResult.due deadline.recommendationResults
        db.recommendationResults).any (fun r => r.of record) = true :=
      List.any_eq_true.mpr ⟨r, hr, hof⟩
    simp only [RecommendationRecord.due, hany, Bool.not_true, Bool.and_false, Bool.not_false]
  · intro f hf
    obtain ⟨record, hrecord, hof⟩ := hkeys.feedbackRecord f (List.mem_filter.mp hf).1
    refine ⟨record, List.mem_filter.mpr ⟨hrecord, ?_⟩, hof⟩
    have hany : (keptAt RecommendationFeedback.due deadline.recommendationFeedback
        db.recommendationFeedback).any (fun f => f.of record) = true :=
      List.any_eq_true.mpr ⟨f, hf, hof⟩
    simp only [RecommendationRecord.due, hany, Bool.not_true, Bool.and_false, Bool.false_and,
      Bool.not_false]
  · intro f hf hsome
    obtain ⟨hmem, hkept⟩ := List.mem_filter.mp hf
    obtain ⟨r, hr, hon⟩ := hkeys.feedbackResult f hmem hsome
    refine ⟨r, List.mem_filter.mpr ⟨hr, ?_⟩, hon⟩
    rw [Bool.not_eq_true'] at hkept ⊢
    cases hdue : r.due deadline.recommendationResults with
    | false => rfl
    | true =>
      rw [hout f hmem r hr hon hdue] at hkept
      cases hkept

/-- Two arrangements of what is left spare the same recommendations. -/
theorem recordDue_perm {feedback feedback' : List RecommendationFeedback}
    {results results' : List RecommendationResult} (hf : feedback.Perm feedback')
    (hr : results.Perm results') :
    RecommendationRecord.due feedback results = RecommendationRecord.due feedback' results' := by
  funext now record
  rw [RecommendationRecord.due, RecommendationRecord.due, hf.any_eq, hr.any_eq]

/-- Feedback that is left is not on a result that goes. -/
theorem unreferenced_results (hout : FeedbackOutlived (deadlines cal passes db) db)
    {feedback : List RecommendationFeedback} (hfeedback : feedback.Perm (feedbackLeft passes db)) :
    ∀ r ∈ db.recommendationResults, r.due (passes.now (resultsEnd passes db)) = true →
      feedback.any (·.on r) = false := by
  intro r hr hdue
  rw [List.any_eq_false]
  intro f hf hon
  obtain ⟨hmem, hkept⟩ := List.mem_filter.mp (hfeedback.subset hf)
  have hold : f.due (passes.now (feedbackEnd passes db)) = true := hout f hmem r hr hon hdue
  rw [hold] at hkept
  cases hkept

/-- A recommendation that goes has no feedback. -/
theorem unreferenced_records {feedback : List RecommendationFeedback}
    {results : List RecommendationResult} {now : Time} {record : RecommendationRecord}
    (hdue : record.due feedback results now = true) : feedback.any (·.of record) = false := by
  simp only [RecommendationRecord.due, Bool.and_eq_true, Bool.not_eq_true'] at hdue
  exact hdue.1.2

/-- **A run in which feedback outlives no result** goes through and takes what the rules say. -/
theorem run_of_feedbackOutlived (hout : FeedbackOutlived (deadlines cal passes db) db) :
    ∃ db', run cal passes db
        = some (taken db (remaining cal (deadlines cal passes db) db), db') ∧
      db'.Same (remaining cal (deadlines cal passes db) db) := by
  obtain ⟨_, serving, h₁, l₁, p₁⟩ :=
    purge_unreferenced passes (Occurrence.due_lasting 90) 0 db.servingRequests
  obtain ⟨_, feedback, h₂, l₂, p₂⟩ := purge_unreferenced passes
    RecommendationFeedback.due_lasting (servingEnd passes db + 1) db.recommendationFeedback
  obtain ⟨_, results, h₃, l₃, p₃, -⟩ := purge_rule passes RecommendationResult.due_lasting
    (unreferenced_results hout p₂)
  obtain ⟨_, records, h₄, l₄, p₄, hdeleted⟩ := purge_rule passes
    (RecommendationRecord.due_lasting feedback results) (n := resultsEnd passes db + 1)
    fun record (_ : record ∈ db.recommendationRecords) => unreferenced_records
  have hcascade := cascade_nothing hdeleted
  have hfeedback : feedback.Perm (feedbackLeft passes db) := p₂
  have hresults : results.Perm (resultsLeft passes db) := p₃
  have hspared := recordDue_perm hfeedback hresults
  rw [hspared] at h₄ l₄ p₄
  obtain ⟨_, capacity, h₅, l₅, p₅⟩ := purge_unreferenced passes (Occurrence.due_lasting 90)
    (recordsEnd passes db + 1) db.capacityEvents
  obtain ⟨_, sessions, h₆, l₆, p₆⟩ := purge_unreferenced passes RefreshSession.due_lasting
    (capacityEnd passes db + 1) db.refreshSessions
  obtain ⟨_, setup, h₇, l₇, p₇⟩ := purge_unreferenced passes OneTimeToken.due_lasting
    (sessionsEnd passes db + 1) db.accountSetupTokens
  obtain ⟨_, recovery, h₈, l₈, p₈⟩ := purge_unreferenced passes OneTimeToken.due_lasting
    (setupEnd passes db + 1) db.accountRecoveryTokens
  obtain ⟨_, registration, h₉, l₉, p₉⟩ := purge_unreferenced passes
    RegistrationRequest.due_lasting (recoveryEnd passes db + 1) db.registrationRequests
  obtain ⟨_, security, h₁₀, l₁₀, p₁₀⟩ := purge_unreferenced passes
    (Occurrence.due_lasting 365) (registrationEnd passes db + 1) db.securityEvents
  obtain ⟨_, usage, h₁₁, l₁₁, p₁₁⟩ := purge_unreferenced passes (usageDue_lasting cal)
    (securityEnd passes db + 1) db.usageEvents
  rw [← servingEnd] at h₁
  rw [← feedbackEnd] at h₂
  rw [← resultsEnd] at h₃
  rw [← recordsEnd] at h₄
  rw [← capacityEnd] at h₅
  rw [← sessionsEnd] at h₆
  rw [← setupEnd] at h₇
  rw [← recoveryEnd] at h₈
  rw [← registrationEnd] at h₉
  rw [← securityEnd] at h₁₀
  refine ⟨⟨serving, feedback, results, records, capacity, sessions, setup, recovery, registration,
    security, usage⟩, ?_, ⟨p₁, p₂, p₃, p₄, p₅, p₆, p₇, p₈, p₉, p₁₀, p₁₁⟩⟩
  rw [run, h₁]
  refine Option.bind_eq_some_iff.mpr ⟨_, rfl, ?_⟩
  refine Option.bind_eq_some_iff.mpr ⟨_, h₂, ?_⟩
  refine Option.bind_eq_some_iff.mpr ⟨_, h₃, ?_⟩
  dsimp only
  rw [hspared]
  refine Option.bind_eq_some_iff.mpr ⟨_, h₄, ?_⟩
  refine Option.bind_eq_some_iff.mpr ⟨_, h₅, ?_⟩
  refine Option.bind_eq_some_iff.mpr ⟨_, h₆, ?_⟩
  refine Option.bind_eq_some_iff.mpr ⟨_, h₇, ?_⟩
  refine Option.bind_eq_some_iff.mpr ⟨_, h₈, ?_⟩
  refine Option.bind_eq_some_iff.mpr ⟨_, h₉, ?_⟩
  refine Option.bind_eq_some_iff.mpr ⟨_, h₁₀, ?_⟩
  refine Option.bind_eq_some_iff.mpr ⟨_, h₁₁, ?_⟩
  dsimp only
  rw [hcascade, l₁, l₂, l₃, l₄, l₅, l₆, l₇, l₈, l₉, l₁₀, l₁₁]
  rfl

/-- **A run in which feedback outlives a result** is refused. -/
theorem run_refused {f : RecommendationFeedback} (hf : f ∈ db.recommendationFeedback)
    {r : RecommendationResult} (hr : r ∈ db.recommendationResults) (hon : f.on r = true)
    (hdue : r.due (deadlines cal passes db).recommendationResults = true)
    (hyoung : f.due (deadlines cal passes db).recommendationFeedback = false) :
    run cal passes db = none := by
  obtain ⟨_, serving, h₁, -, -⟩ :=
    purge_unreferenced passes (Occurrence.due_lasting 90) 0 db.servingRequests
  obtain ⟨_, feedback, h₂, -, p₂⟩ := purge_unreferenced passes
    RecommendationFeedback.due_lasting (servingEnd passes db + 1) db.recommendationFeedback
  have hstays : f ∈ feedback := by
    refine p₂.symm.subset (List.mem_filter.mpr ⟨hf, ?_⟩)
    rw [Bool.not_eq_true']
    exact hyoung
  have h₃ : purge passes batchSize RecommendationResult.due batchSize_pos
      (fun r => feedback.any (·.on r)) (feedbackEnd passes db + 1) db.recommendationResults
        = none :=
    Purge.purge_refused batchSize_pos RecommendationResult.due_lasting
      (List.mem_filter.mpr ⟨hr, hdue⟩) (List.any_eq_true.mpr ⟨f, hstays, hon⟩)
  cases hrun : run cal passes db with
  | none => rfl
  | some out =>
    rw [run, h₁] at hrun
    obtain ⟨_, hserving, hrun⟩ := Option.bind_eq_some_iff.mp hrun
    cases hserving
    obtain ⟨_, hfeedback, hrun⟩ := Option.bind_eq_some_iff.mp hrun
    cases h₂.symm.trans hfeedback
    obtain ⟨_, hresults, hrun⟩ := Option.bind_eq_some_iff.mp hrun
    cases h₃.symm.trans hresults

/-- The keys do not depend on the arrangement of the rows. -/
theorem Database.Same.foreignKeys {db' : Database} (hsame : db.Same db')
    (hkeys : db'.ForeignKeys) : db.ForeignKeys := by
  constructor
  · intro r hr
    obtain ⟨record, hrecord, hof⟩ :=
      hkeys.resultRecord r (hsame.recommendationResults.subset hr)
    exact ⟨record, hsame.recommendationRecords.symm.subset hrecord, hof⟩
  · intro f hf
    obtain ⟨record, hrecord, hof⟩ :=
      hkeys.feedbackRecord f (hsame.recommendationFeedback.subset hf)
    exact ⟨record, hsame.recommendationRecords.symm.subset hrecord, hof⟩
  · intro f hf hsome
    obtain ⟨r, hr, hon⟩ :=
      hkeys.feedbackResult f (hsame.recommendationFeedback.subset hf) hsome
    exact ⟨r, hsame.recommendationResults.symm.subset hr, hon⟩

/-- No feedback that is left is on a result that a run has deleted. -/
theorem feedbackOutlived_of_runsExactly (h : RunsExactly cal passes db) :
    FeedbackOutlived (deadlines cal passes db) db := by
  obtain ⟨db', hrun, -⟩ := h
  intro f hf r hr hon hdue
  cases hyoung : f.due (deadlines cal passes db).recommendationFeedback with
  | true => rfl
  | false =>
    rw [run_refused hf hr hon hdue hyoung] at hrun
    cases hrun

/-- **Retention.**  A run on tables whose keys are intact is never refused, deletes exactly the
rows that match its rules and leaves the keys intact, if and only if no feedback that is left is
on a result past its window. -/
theorem retention_exact_iff (cal : MonthCalendar) (passes : Passes Time) (db : Database)
    (hkeys : db.ForeignKeys) :
    RunsExactly cal passes db ↔ FeedbackOutlived (deadlines cal passes db) db := by
  refine ⟨feedbackOutlived_of_runsExactly, ?_⟩
  intro hout
  obtain ⟨db', hrun, hsame⟩ := run_of_feedbackOutlived hout
  exact ⟨db', hrun, hsame, hsame.foreignKeys (foreignKeys_remaining hkeys hout)⟩

/-! ## A conversion a day later -/

/-- Months of thirty days. -/
def thirtyDayMonths : MonthCalendar where
  monthStart m := 30 * day * m
  increasing := fun _ _ h => Nat.mul_lt_mul_of_pos_left h (Nat.succ_pos _)
  monthStart_zero := rfl

/-- The clock stands still and rows are found in their order. -/
def standing (now : Time) : Passes Time where
  now _ := now
  later _ _ _ := Nat.le_refl _
  scan _ rows := rows
  perm _ rows := .refl rows

/-- One recommendation with one product, and a conversion on it. -/
def converted (received : Time) : Database where
  servingRequests := []
  recommendationFeedback := [⟨1, "e-1", "r-1", some 1, received⟩]
  recommendationResults := [⟨1, 1, "r-1", 0⟩]
  recommendationRecords := [⟨1, "r-1", 0⟩]
  capacityEvents := []
  refreshSessions := []
  accountSetupTokens := []
  accountRecoveryTokens := []
  registrationRequests := []
  securityEvents := []
  usageEvents := []

theorem converted_foreignKeys (received : Time) : (converted received).ForeignKeys := by
  constructor <;> simp [converted, RecommendationResult.of, RecommendationFeedback.of,
    RecommendationFeedback.on]

/-- Both are past their windows after a year. -/
theorem retention_exact_year :
    RunsExactly thirtyDayMonths (standing (365 * day)) (converted day) := by
  refine (retention_exact_iff _ _ _ (converted_foreignKeys day)).mpr ?_
  intro f hf r _ _ _
  rw [List.mem_singleton.mp hf]
  rfl

/-- The conversion came a day after the recommendation; half a day after the window of the
recommendation is over, the run is refused. -/
theorem retention_refused :
    ¬ ∀ (cal : MonthCalendar) (passes : Passes Time) (db : Database), db.ForeignKeys →
      RunsExactly cal passes db := by
  intro h
  have hrun := h thirtyDayMonths (standing (180 * day + day / 2)) (converted day)
    (converted_foreignKeys day)
  have hout := feedbackOutlived_of_runsExactly hrun
  have hdue := hout _ List.mem_cons_self _ List.mem_cons_self rfl rfl
  cases hdue

end Retention
