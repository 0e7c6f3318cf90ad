import GraphRec.Lib.Table
import GraphRec.Lib.Transactions
import GraphRec.Registry.Version
import GraphRec.Training.Job
import GraphRec.Usage.Quota
import Mathlib.Data.Nat.Find
import Mathlib.Order.WellFounded

/-!
# The tables behind the ingestion paths of a tenant

Products, customers, events, the records of batches and catalogue syncs, the ledger,
model versions and training jobs of one tenant, and `require_capacity`, which every path
that grows one of them passes.  Every query, every unique constraint and every advisory
lock of these paths carries the tenant, so one tenant is modelled.

Strings are those that PostgreSQL stores; where it rejects one the statement fails, and
the transaction with it.
-/

namespace Ingestion

open Transactions

/-- Microseconds. -/
abbrev Time := ℕ
/-- Microseconds since 1970, before it negative. -/
abbrev Moment := ℤ
abbrev VersionId := Registry.VersionId
abbrev JobId := Training.JobId

/-! ## Rows -/

/-- The metered and the bounded dimensions of a plan that these paths check. -/
inductive Dimension
  | acceptedEvents | storedProducts | trainingJobs | trainingCpuSeconds
  | activeModelVersions | artifactStorageBytes
  deriving DecidableEq, Repr

/-- The name of a dimension in plans, in the ledger and in the keys of the locks. -/
def Dimension.name : Dimension → String
  | .acceptedEvents => "accepted_events"
  | .storedProducts => "stored_products"
  | .trainingJobs => "training_jobs"
  | .trainingCpuSeconds => "training_cpu_seconds"
  | .activeModelVersions => "active_model_versions"
  | .artifactStorageBytes => "artifact_storage_bytes"

/-- A row of `products`, whose key is `external_id`; prices are in hundredths and metadata
is its JSON text. -/
structure Product where
  title : String
  description : Option String
  price : ℕ
  category : Option String
  isActive : Bool
  availabilityStatus : String
  metadata : String
  createdAt : Time
  updatedAt : Time
  deriving DecidableEq, Repr

/-- A row of `customer_events`, whose key is `event_id`. -/
structure CustomerEvent where
  eventType : String
  userId : Option String
  externalProductId : Option String
  context : String
  occurredAt : Moment
  createdAt : Time
  deriving DecidableEq, Repr

/-- What became of an event of a batch. -/
inductive EventStatus
  | accepted | duplicate | rejected
  deriving DecidableEq, Repr

/-- `EventItemOutcome`. -/
structure EventOutcome where
  eventId : String
  status : EventStatus
  reason : Option String
  deriving DecidableEq, Repr

/-- A row of `event_batches`. -/
structure EventBatch where
  id : ℕ
  status : String
  requestId : Option String
  payloadHash : Option String
  outcomes : List EventOutcome
  acceptedCount : ℕ
  duplicateCount : ℕ
  rejectedCount : ℕ
  createdAt : Time
  deriving DecidableEq, Repr

/-- What became of a product of a catalogue sync. -/
inductive SyncStatus
  | created | updated | rejected
  deriving DecidableEq, Repr

/-- An item of `catalog_syncs.outcomes`. -/
structure SyncOutcome where
  externalId : String
  status : SyncStatus
  reason : Option String
  deriving DecidableEq, Repr

/-- A row of `catalog_syncs`. -/
structure CatalogSync where
  id : ℕ
  requestId : Option String
  payloadHash : Option String
  status : String
  acceptedCount : ℕ
  createdCount : ℕ
  updatedCount : ℕ
  skippedCount : ℕ
  rejectedCount : ℕ
  outcomes : List SyncOutcome
  createdAt : Time
  deriving DecidableEq, Repr

/-- A row of `usage_events`.  A key that is a fresh `uuid4` is left out. -/
structure UsageEvent where
  usageType : Dimension
  quantity : ℕ
  idempotencyKey : Option String
  occurredAt : Time
  deriving DecidableEq, Repr

/-- A row of `training_jobs`. -/
structure TrainingJob where
  id : JobId
  requestId : Option String
  payloadHash : String
  modelType : String
  status : Training.Status
  progress : ℕ
  attempts : ℕ
  createdAt : Time
  completedAt : Option Time
  deriving DecidableEq, Repr

/-- The tables; `artifactBytes` is `metrics['source']['artifact_bytes']` of a version. -/
structure Store where
  products : Table String Product
  customers : List String
  events : Table String CustomerEvent
  batches : List EventBatch
  syncs : List CatalogSync
  usage : List UsageEvent
  versions : Table VersionId Registry.Version
  artifactBytes : VersionId → ℕ
  jobs : List TrainingJob

/-- No rows. -/
def Store.empty : Store where
  products := .empty
  customers := []
  events := .empty
  batches := []
  syncs := []
  usage := []
  versions := .empty
  artifactBytes := fun _ => 0
  jobs := []

/-! ## Errors and answers -/

/-- The `details` of a quota error. -/
structure QuotaDetails where
  limitName : String
  limit : ℕ
  used : ℕ
  requested : ℕ
  resetAt : Option Time
  deriving DecidableEq, Repr

/-- `ApiError`. -/
structure ApiError where
  statusCode : ℕ
  code : String
  message : String
  retryable : Bool
  details : Option QuotaDetails
  deriving DecidableEq, Repr

/-- An error that is not to be retried and has no details. -/
def apiError (statusCode : ℕ) (code message : String) : ApiError :=
  ⟨statusCode, code, message, false, none⟩

/-- `EventSubmitResponse`. -/
structure EventReceipt where
  eventId : String
  accepted : Bool
  duplicate : Bool
  receivedAt : Time
  deriving DecidableEq, Repr

/-- `EventBatchResponse`. -/
structure BatchResponse where
  id : ℕ
  status : String
  requestId : Option String
  acceptedCount : ℕ
  duplicateCount : ℕ
  rejectedCount : ℕ
  outcomes : List EventOutcome
  createdAt : Time
  deriving DecidableEq, Repr

/-- `ProductBulkFailure`. -/
structure BulkFailure where
  externalId : String
  reason : String
  deriving DecidableEq, Repr

/-- `ProductBulkUpsertResponse`. -/
structure SyncResponse where
  syncId : ℕ
  status : String
  requestId : Option String
  acceptedCount : ℕ
  createdCount : ℕ
  updatedCount : ℕ
  skippedCount : ℕ
  rejectedCount : ℕ
  failures : List BulkFailure
  outcomes : List SyncOutcome
  deriving DecidableEq, Repr

/-- `DatasetUploadResponse`, without the snapshot. -/
structure UploadResponse where
  acceptedEvents : ℕ
  acceptedProducts : ℕ
  deriving DecidableEq, Repr

/-- What a request is answered with. -/
inductive Answer
  | event (receipt : EventReceipt)
  | batch (response : BatchResponse)
  | sync (response : SyncResponse)
  | product (externalId : String) (resource : Product)
  | upload (response : UploadResponse)
  | version (id : VersionId) (resource : Registry.Version)
  | job (resource : TrainingJob)
  | jobs (rows : List TrainingJob)
  | error (e : ApiError)
  /-- An exception that is not an `ApiError`. -/
  | raised (exception : String)
  deriving DecidableEq, Repr

/-- The locks. -/
inductive LockKey
  | dimension (d : Dimension)
  | lifecycle
  | trainingTenant
  | trainingRequest (requestId : String)
  deriving DecidableEq, Repr

/-- The constraints that may reject an insert. -/
inductive Constraint
  | eventKey | customerForeignKey | usageKey | batchRequestKey | productKey | syncRequestKey
  | versionKey
  deriving DecidableEq, Repr

/-- A capacity check that was passed. -/
structure Check where
  dimension : Dimension
  quantity : ℕ
  used : ℕ
  limit : ℕ
  checkedAt : Time
  deriving DecidableEq, Repr

/-- What a request notes: the reading of the clock that dates what it writes, when it reads
it before its capacity check, and the checks it passed. -/
inductive Note
  | reading (now : Time)
  | check (passed : Check)
  deriving DecidableEq, Repr

/-! ## Months -/

/-- A calendar that has no time before its first month. -/
structure MonthCalendar extends Usage.Calendar where
  monthStart_zero : monthStart 0 = 0

/-- The month of a time. -/
def MonthCalendar.monthOf (cal : MonthCalendar) (now : Time) : Usage.Month :=
  Nat.findGreatest (fun m => cal.monthStart m ≤ now) now

/-- `month_bounds`. -/
def MonthCalendar.monthBounds (cal : MonthCalendar) (now : Time) : Time × Time :=
  (cal.monthStart (cal.monthOf now), cal.monthStart (cal.monthOf now + 1))

/-- A time lies in its month. -/
theorem MonthCalendar.contains_monthOf (cal : MonthCalendar) (now : Time) :
    cal.contains (cal.monthOf now) now = true := by
  have hfirst : cal.monthStart 0 ≤ now := by
    rw [cal.monthStart_zero]
    exact Nat.zero_le now
  have hstart : cal.monthStart (cal.monthOf now) ≤ now :=
    Nat.findGreatest_spec (P := fun m => cal.monthStart m ≤ now) (Nat.zero_le now) hfirst
  have hnext : now < cal.monthStart (cal.monthOf now + 1) := by
    by_contra hnot
    have hle := not_lt.mp hnot
    have hbound : cal.monthOf now + 1 ≤ now :=
      Nat.le_trans cal.increasing.le_apply hle
    have hgreatest := Nat.le_findGreatest (P := fun m => cal.monthStart m ≤ now) hbound hle
    exact Nat.not_succ_le_self _ hgreatest
  simp [Usage.Calendar.contains, hstart, hnext]

/-! ## Capacity -/

/-- The plan's limits, the calendar and the hash of a canonical text.  The row of the plan
may be missing, and a limit in it. -/
structure Config where
  limits : Option (Dimension → Option ℕ)
  calendar : MonthCalendar
  hash : String → String

/-- A string that Python takes for true. -/
def truthy : Option String → Option String
  | some text => if text = "" then none else some text
  | none => none

/-- A text that is not empty is true. -/
theorem truthy_of_ne {text : Option String} (h : text ≠ some "") : truthy text = text := by
  unfold truthy
  split
  · next value =>
      rw [if_neg]
      rintro rfl
      exact h rfl
  · rfl

/-- `INSERT INTO usage_events`: rejected by the unique key. -/
def Store.insertUsage (s : Store) (row : UsageEvent) : Except Constraint Store :=
  if row.idempotencyKey.isSome ∧ ∃ old ∈ s.usage, old.idempotencyKey = row.idempotencyKey then
    .error .usageKey
  else .ok { s with usage := s.usage ++ [row] }

/-- A row of the ledger, unless it would be zero. -/
def Store.bookUsage (s : Store) (d : Dimension) (quantity : ℕ) (now : Time) :
    Except Constraint Store :=
  if 0 < quantity then s.insertUsage ⟨d, quantity, none, now⟩ else .ok s

/-- `ledger_usage`. -/
def ledgerUsage (s : Store) (d : Dimension) (start reset : Time) : ℕ :=
  ((s.usage.filter fun row => decide (row.usageType = d) && decide (start ≤ row.occurredAt) &&
    decide (row.occurredAt < reset)).map UsageEvent.quantity).sum

/-- `retained_versions`. -/
def retainedVersions (s : Store) : ℕ :=
  s.versions.count fun v => decide (v.status ≠ .archived)

/-- `artifact_storage_used`. -/
def artifactStorageUsed (s : Store) : ℕ :=
  ((s.versions.rows.filter fun row => decide (row.2.status ≠ .archived)).map
    fun row => s.artifactBytes row.1).sum

/-- `unstarted_cancelled_training_jobs`. -/
def unstartedCancelledTrainingJobs (s : Store) (start reset : Time) : ℕ :=
  s.jobs.countP fun job => decide (job.status = .cancelled) && decide (job.progress = 0) &&
    decide (job.attempts = 0) && decide (start ≤ job.createdAt) && decide (job.createdAt < reset)

/-- What `require_capacity` counts as used. -/
def capacityUsed (s : Store) (d : Dimension) (start reset : Time) : ℕ :=
  match d with
  | .storedProducts => s.products.rows.length
  | .artifactStorageBytes => artifactStorageUsed s
  | .activeModelVersions => retainedVersions s
  | .trainingJobs => ledgerUsage s d start reset - unstartedCancelledTrainingJobs s start reset
  | .acceptedEvents | .trainingCpuSeconds => ledgerUsage s d start reset

/-- The plan of the tenant is missing. -/
def quotaUnavailable : ApiError :=
  ⟨503, "quota_unavailable", "Usage limits are temporarily unavailable.", true, none⟩

/-- The plan has no such limit. -/
def limitUnavailable : ApiError :=
  ⟨503, "quota_unavailable", "The required usage limit is unavailable.", true, none⟩

/-- The limit would be passed. -/
def quotaExceeded (d : Dimension) (limit used quantity : ℕ) (reset : Time) : ApiError where
  statusCode := 429
  code := "quota_exceeded"
  message := "The " ++ d.name ++ " limit has been reached."
  retryable := false
  details := some ⟨d.name, limit, used, quantity,
    if d = .storedProducts then none else some reset⟩

/-- The transactions of these paths. -/
abbrev Transaction := Prog LockKey Store Note Constraint Answer

/-- `require_capacity`, in a transaction that goes on with `next`. -/
def requireCapacity (cfg : Config) (d : Dimension) (quantity : ℕ) (next : Transaction) :
    Transaction :=
  if quantity = 0 then next
  else .lock (.dimension d) <|
    match cfg.limits with
    | none => .done (.error quotaUnavailable)
    | some limits =>
        match limits d with
        | none => .done (.error limitUnavailable)
        | some limit => .clock fun now =>
            let (start, reset) := cfg.calendar.monthBounds now
            .look fun s =>
              let used := capacityUsed s d start reset
              if limit < used + quantity then
                .done (.error (quotaExceeded d limit used quantity reset))
              else .note (.check ⟨d, quantity, used, limit, now⟩) next

end Ingestion
