import GraphRec.Ingestion.Store
import GraphRec.Lib.Purge

/-!
# Data retention

The retention script deletes operational rows past their window, table after table, in batches.
Three of the tables refer to each other: a served product (`recommendation_results`) belongs to
a recommendation (`recommendation_records`) and goes with it, and feedback refers to both
without saying what becomes of it when they go, so that the database refuses to delete a row
that feedback still refers to.

* `Database`, `ForeignKeys` — the tables with the columns that the rules and the keys read;
* `run` — the script, rule by rule; `none` when a batch is refused;
* `deadlines`, `remaining` — the clock at the last batch of each rule, and what the rules leave.
-/

namespace Retention

open Auth (TenantId Time)
open Ingestion (MonthCalendar)
open Purge (Passes purge endsAt dueRows keptRows)

/-! ## The tables -/

/-- A row of `serving_requests`, `capacity_events`, `security_events` or `usage_events`. -/
structure Occurrence where
  id : ℕ
  occurredAt : Time
  deriving DecidableEq, Repr

structure RegistrationRequest where
  id : ℕ
  createdAt : Time
  deriving DecidableEq, Repr

structure RefreshSession where
  id : ℕ
  expiresAt : Time
  revokedAt : Option Time
  deriving DecidableEq, Repr

/-- A row of `account_setup_tokens` or `account_recovery_tokens`. -/
structure OneTimeToken where
  id : ℕ
  expiresAt : Time
  usedAt : Option Time
  revokedAt : Option Time
  deriving DecidableEq, Repr

structure RecommendationRecord where
  tenantId : TenantId
  requestId : String
  createdAt : Time
  deriving DecidableEq, Repr

structure RecommendationResult where
  id : ℕ
  tenantId : TenantId
  requestId : String
  createdAt : Time
  deriving DecidableEq, Repr

structure RecommendationFeedback where
  tenantId : TenantId
  eventId : String
  requestId : String
  recommendationResultId : Option ℕ
  receivedAt : Time
  deriving DecidableEq, Repr

structure Database where
  servingRequests : List Occurrence
  recommendationFeedback : List RecommendationFeedback
  recommendationResults : List RecommendationResult
  recommendationRecords : List RecommendationRecord
  capacityEvents : List Occurrence
  refreshSessions : List RefreshSession
  accountSetupTokens : List OneTimeToken
  accountRecoveryTokens : List OneTimeToken
  registrationRequests : List RegistrationRequest
  securityEvents : List Occurrence
  usageEvents : List Occurrence

/-! ## The foreign keys -/

/-- `fk_recommendation_result_request`, which cascades. -/
def RecommendationResult.of (r : RecommendationResult) (record : RecommendationRecord) : Bool :=
  r.tenantId == record.tenantId && r.requestId == record.requestId

/-- The key of feedback to the recommendation. -/
def RecommendationFeedback.of (f : RecommendationFeedback) (record : RecommendationRecord) :
    Bool :=
  f.tenantId == record.tenantId && f.requestId == record.requestId

/-- `fk_recommendation_feedback_result_tenant`; feedback that names no result refers to none. -/
def RecommendationFeedback.on (f : RecommendationFeedback) (r : RecommendationResult) : Bool :=
  f.tenantId == r.tenantId && f.recommendationResultId == some r.id

/-- What a row refers to is there. -/
structure Database.ForeignKeys (db : Database) : Prop where
  resultRecord : ∀ r ∈ db.recommendationResults,
    ∃ record ∈ db.recommendationRecords, r.of record = true
  feedbackRecord : ∀ f ∈ db.recommendationFeedback,
    ∃ record ∈ db.recommendationRecords, f.of record = true
  feedbackResult : ∀ f ∈ db.recommendationFeedback, f.recommendationResultId.isSome = true →
    ∃ r ∈ db.recommendationResults, f.on r = true

/-! ## The rules -/

/-- A day, in microseconds. -/
def day : Time := 86400000000

/-- `time < now() - interval 'days'`. -/
def olderThan (days : ℕ) (now time : Time) : Bool := decide (time + days * day < now)

/-- `occurred_at < now() - interval 'days'`. -/
def Occurrence.due (days : ℕ) (now : Time) (row : Occurrence) : Bool :=
  olderThan days now row.occurredAt

def RecommendationFeedback.due (now : Time) (f : RecommendationFeedback) : Bool :=
  olderThan 180 now f.receivedAt

def RecommendationResult.due (now : Time) (r : RecommendationResult) : Bool :=
  olderThan 180 now r.createdAt

/-- A recommendation goes when neither feedback nor a result is left of it. -/
def RecommendationRecord.due (feedback : List RecommendationFeedback)
    (results : List RecommendationResult) (now : Time) (record : RecommendationRecord) : Bool :=
  olderThan 180 now record.createdAt && !feedback.any (·.of record) && !results.any (·.of record)

/-- `COALESCE(revoked_at, expires_at)`. -/
def RefreshSession.due (now : Time) (s : RefreshSession) : Bool :=
  olderThan 30 now (s.revokedAt.getD s.expiresAt)

/-- `COALESCE(used_at, revoked_at, expires_at)`. -/
def OneTimeToken.due (now : Time) (t : OneTimeToken) : Bool :=
  olderThan 30 now ((t.usedAt.or t.revokedAt).getD t.expiresAt)

def RegistrationRequest.due (now : Time) (r : RegistrationRequest) : Bool :=
  olderThan 30 now r.createdAt

/-- `occurred_at < date_trunc('month', now()) - interval '25 months'`. -/
def usageDue (cal : MonthCalendar) (now : Time) (row : Occurrence) : Bool :=
  decide (row.occurredAt < cal.monthStart (cal.monthOf now - 25))

/-! ## The script -/

/-- `BATCH`. -/
def batchSize : ℕ := 5000

theorem batchSize_pos : 0 < batchSize := Nat.succ_pos _

/-- Nothing refers to a row of the table. -/
def unreferenced {α : Type} (_ : α) : Bool := false

/-- `run`: the rows deleted under each rule, and the tables as they are left; `none` when the
database refuses a batch. -/
def run (cal : MonthCalendar) (passes : Passes Time) (db : Database) :
    Option (List (String × ℕ) × Database) := do
  let (serving, n, servingRequests) ←
    purge passes batchSize (Occurrence.due 90) batchSize_pos unreferenced 0 db.servingRequests
  let (feedback, n, recommendationFeedback) ←
    purge passes batchSize RecommendationFeedback.due batchSize_pos unreferenced n
      db.recommendationFeedback
  let (results, n, recommendationResults) ←
    purge passes batchSize RecommendationResult.due batchSize_pos
      (fun r => recommendationFeedback.any (·.on r)) n db.recommendationResults
  let (records, n, recommendationRecords) ←
    purge passes batchSize
      (RecommendationRecord.due recommendationFeedback recommendationResults) batchSize_pos
      (fun record => recommendationFeedback.any (·.of record)) n db.recommendationRecords
  let (capacity, n, capacityEvents) ←
    purge passes batchSize (Occurrence.due 90) batchSize_pos unreferenced n db.capacityEvents
  let (sessions, n, refreshSessions) ←
    purge passes batchSize RefreshSession.due batchSize_pos unreferenced n db.refreshSessions
  let (setup, n, accountSetupTokens) ←
    purge passes batchSize OneTimeToken.due batchSize_pos unreferenced n db.accountSetupTokens
  let (recovery, n, accountRecoveryTokens) ←
    purge passes batchSize OneTimeToken.due batchSize_pos unreferenced n db.accountRecoveryTokens
  let (registration, n, registrationRequests) ←
    purge passes batchSize RegistrationRequest.due batchSize_pos unreferenced n
      db.registrationRequests
  let (security, n, securityEvents) ←
    purge passes batchSize (Occurrence.due 365) batchSize_pos unreferenced n db.securityEvents
  let (usage, _, usageEvents) ←
    purge passes batchSize (usageDue cal) batchSize_pos unreferenced n db.usageEvents
  some
    ([("serving_requests", serving.length), ("recommendation_feedback", feedback.length),
      ("recommendation_results", results.length), ("recommendation_records", records.length),
      ("capacity_events", capacity.length), ("refresh_sessions", sessions.length),
      ("account_setup_tokens", setup.length), ("account_recovery_tokens", recovery.length),
      ("registration_requests", registration.length), ("security_events", security.length),
      ("usage_events", usage.length)],
     { servingRequests, recommendationFeedback
       -- the results of a deleted recommendation go with it
       recommendationResults := recommendationResults.filter fun r => !records.any (r.of ·)
       recommendationRecords, capacityEvents, refreshSessions, accountSetupTokens,
       accountRecoveryTokens, registrationRequests, securityEvents, usageEvents })

/-! ## What the rules ask for -/

/-- The clock at the last batch of each rule. -/
structure Deadlines where
  servingRequests : Time
  recommendationFeedback : Time
  recommendationResults : Time
  recommendationRecords : Time
  capacityEvents : Time
  refreshSessions : Time
  accountSetupTokens : Time
  accountRecoveryTokens : Time
  registrationRequests : Time
  securityEvents : Time
  usageEvents : Time

/-- The number of the last batch of a rule, the first being the `n`-th. -/
abbrev lastBatch {α : Type} (passes : Passes Time) (due : Time → α → Bool) (n : ℕ)
    (rows : List α) : ℕ :=
  endsAt passes batchSize due batchSize_pos n rows

/-- The rows that are not due at a time. -/
abbrev keptAt {α : Type} (due : Time → α → Bool) (now : Time) (rows : List α) : List α :=
  rows.filter fun a => !due now a

/-! Where each rule ends, read off the tables and the clock; the next rule goes on from there. -/

section Ends

variable (cal : MonthCalendar) (passes : Passes Time) (db : Database)

def servingEnd : ℕ := lastBatch passes (Occurrence.due 90) 0 db.servingRequests

def feedbackEnd : ℕ :=
  lastBatch passes RecommendationFeedback.due (servingEnd passes db + 1) db.recommendationFeedback

def resultsEnd : ℕ :=
  lastBatch passes RecommendationResult.due (feedbackEnd passes db + 1) db.recommendationResults

/-- The feedback that is left. -/
def feedbackLeft : List RecommendationFeedback :=
  keptAt RecommendationFeedback.due (passes.now (feedbackEnd passes db)) db.recommendationFeedback

/-- The results that are left. -/
def resultsLeft : List RecommendationResult :=
  keptAt RecommendationResult.due (passes.now (resultsEnd passes db)) db.recommendationResults

def recordsEnd : ℕ :=
  lastBatch passes (RecommendationRecord.due (feedbackLeft passes db) (resultsLeft passes db))
    (resultsEnd passes db + 1) db.recommendationRecords

def capacityEnd : ℕ :=
  lastBatch passes (Occurrence.due 90) (recordsEnd passes db + 1) db.capacityEvents

def sessionsEnd : ℕ :=
  lastBatch passes RefreshSession.due (capacityEnd passes db + 1) db.refreshSessions

def setupEnd : ℕ :=
  lastBatch passes OneTimeToken.due (sessionsEnd passes db + 1) db.accountSetupTokens

def recoveryEnd : ℕ :=
  lastBatch passes OneTimeToken.due (setupEnd passes db + 1) db.accountRecoveryTokens

def registrationEnd : ℕ :=
  lastBatch passes RegistrationRequest.due (recoveryEnd passes db + 1) db.registrationRequests

def securityEnd : ℕ :=
  lastBatch passes (Occurrence.due 365) (registrationEnd passes db + 1) db.securityEvents

def usageEnd : ℕ :=
  lastBatch passes (usageDue cal) (securityEnd passes db + 1) db.usageEvents

/-- The deadlines of a run. -/
def deadlines : Deadlines where
  servingRequests := passes.now (servingEnd passes db)
  recommendationFeedback := passes.now (feedbackEnd passes db)
  recommendationResults := passes.now (resultsEnd passes db)
  recommendationRecords := passes.now (recordsEnd passes db)
  capacityEvents := passes.now (capacityEnd passes db)
  refreshSessions := passes.now (sessionsEnd passes db)
  accountSetupTokens := passes.now (setupEnd passes db)
  accountRecoveryTokens := passes.now (recoveryEnd passes db)
  registrationRequests := passes.now (registrationEnd passes db)
  securityEvents := passes.now (securityEnd passes db)
  usageEvents := passes.now (usageEnd cal passes db)

end Ends

/-- What the rules leave: the rows that do not match at the deadline of their rule. -/
def remaining (cal : MonthCalendar) (deadline : Deadlines) (db : Database) : Database :=
  let feedback := keptAt RecommendationFeedback.due deadline.recommendationFeedback
    db.recommendationFeedback
  let results := keptAt RecommendationResult.due deadline.recommendationResults
    db.recommendationResults
  { servingRequests := keptAt (Occurrence.due 90) deadline.servingRequests db.servingRequests
    recommendationFeedback := feedback
    recommendationResults := results
    recommendationRecords := keptAt (RecommendationRecord.due feedback results)
      deadline.recommendationRecords db.recommendationRecords
    capacityEvents := keptAt (Occurrence.due 90) deadline.capacityEvents db.capacityEvents
    refreshSessions := keptAt RefreshSession.due deadline.refreshSessions db.refreshSessions
    accountSetupTokens := keptAt OneTimeToken.due deadline.accountSetupTokens db.accountSetupTokens
    accountRecoveryTokens :=
      keptAt OneTimeToken.due deadline.accountRecoveryTokens db.accountRecoveryTokens
    registrationRequests :=
      keptAt RegistrationRequest.due deadline.registrationRequests db.registrationRequests
    securityEvents := keptAt (Occurrence.due 365) deadline.securityEvents db.securityEvents
    usageEvents := keptAt (usageDue cal) deadline.usageEvents db.usageEvents }

/-- The same rows in every table. -/
structure Database.Same (db db' : Database) : Prop where
  servingRequests : db.servingRequests.Perm db'.servingRequests
  recommendationFeedback : db.recommendationFeedback.Perm db'.recommendationFeedback
  recommendationResults : db.recommendationResults.Perm db'.recommendationResults
  recommendationRecords : db.recommendationRecords.Perm db'.recommendationRecords
  capacityEvents : db.capacityEvents.Perm db'.capacityEvents
  refreshSessions : db.refreshSessions.Perm db'.refreshSessions
  accountSetupTokens : db.accountSetupTokens.Perm db'.accountSetupTokens
  accountRecoveryTokens : db.accountRecoveryTokens.Perm db'.accountRecoveryTokens
  registrationRequests : db.registrationRequests.Perm db'.registrationRequests
  securityEvents : db.securityEvents.Perm db'.securityEvents
  usageEvents : db.usageEvents.Perm db'.usageEvents

end Retention
