import GraphRec.Api.Error
import GraphRec.Lib.Binary64
import GraphRec.Lib.DateTime
import Mathlib.Data.List.Sort
import Mathlib.Data.String.Basic

/-!
# Usage trends

`usage_trend` adds up the rows of the usage ledger in buckets of an hour, a day or a week.  The
starts of the buckets are computed in Python, the bucket of a row by `date_trunc` in the database.

Quantities are exact decimals.  A `datetime` is a `DateTime`; a `timestamptz` counts microseconds
from the start of the year 2000 in UTC.
-/

namespace Trends

open Buckets (floorTo groupBy)
open Api (ApiError FieldError)

abbrev TenantId := ℕ

/-- `granularity`. -/
inductive Granularity
  | hour | day | week
  deriving DecidableEq, Repr

/-- The word in a message. -/
def Granularity.name : Granularity → String
  | .hour => "hour"
  | .day => "day"
  | .week => "week"

/-- `STEP`. -/
def step : Granularity → ℤ
  | .hour => hourMicros
  | .day => dayMicros
  | .week => 7 * dayMicros

/-- `MAX_SPAN`, in days. -/
def maxSpanDays : Granularity → ℕ
  | .hour => 31
  | .day => 366
  | .week => 104 * 7

/-- `METERED_TYPES`. -/
def meteredTypes : List String :=
  ["accepted_events", "recommendation_requests", "training_jobs", "training_cpu_seconds",
    "artifact_storage_bytes", "inference_replicas", "replica_runtime_minutes"]

/-- A row of `usage_events`. -/
structure UsageEvent where
  tenantId : TenantId
  usageType : String
  quantity : ℚ
  occurredAt : ℤ
  deriving DecidableEq, Repr

/-! ## Buckets in Python -/

theorem step_pos (g : Granularity) : 0 < step g := by
  cases g <;> decide

/-- `floor_to`. -/
def floorTo (value : DateTime) (g : Granularity) : Except OverflowError DateTime := do
  let value ← value.toUtc
  match g with
  | .hour => .ok value.startOfHour
  | .day => .ok value.startOfDay
  | .week => value.startOfDay.add (-(value.startOfDay.weekday * dayMicros))

theorem lt_of_add {current next : DateTime} {t : ℤ} (ht : 0 < t) (h : current.add t = .ok next) :
    current.instant < next.instant := by
  obtain ⟨hwall, hoffset⟩ := DateTime.wall_ofWall h
  unfold DateTime.instant
  rw [hwall, hoffset]
  omega

/-- The loop of `bucket_starts`. -/
def bucketsFrom (current stop : DateTime) (g : Granularity) :
    Except OverflowError (List DateTime) :=
  if current.instant < stop.instant then
    match _h : current.add (step g) with
    | .error e => .error e
    | .ok next => (bucketsFrom next stop g).map (current :: ·)
  else .ok []
  termination_by (stop.instant - current.instant).toNat
  decreasing_by
    have := lt_of_add (step_pos g) ‹current.add (step g) = .ok next›
    omega

/-- `bucket_starts`. -/
def bucketStarts (start stop : DateTime) (g : Granularity) :
    Except OverflowError (List DateTime) := do
  let current ← floorTo start g
  bucketsFrom current stop g

/-- The error of a request with wrong fields. -/
def invalid (fields : List FieldError) : ApiError where
  statusCode := 422
  code := "validation_failed"
  message := "One or more request fields are invalid"
  details := .fields fields

/-- `validate_range`. -/
def validateRange (start stop : DateTime) (g : Granularity) : Except ApiError Unit :=
  if start.utcoffset = none ∨ stop.utcoffset = none then
    .error (invalid [⟨"start", "Use ISO-8601 timestamps with a time zone."⟩])
  else if stop.instant ≤ start.instant then
    .error (invalid [⟨"end", "End must be after start."⟩])
  else if maxSpanDays g * dayMicros < stop.instant - start.instant then
    .error (invalid [⟨"granularity",
      "A " ++ g.name ++ " trend can cover at most " ++ toString (maxSpanDays g) ++ " days."⟩])
  else .ok ()

/-! ## Buckets in the database -/

/-- The start of the year 2000 in the calendar. -/
def epoch : ℤ := 730119 * dayMicros

/-- A `datetime` as a `timestamptz`. -/
def toTimestamp (d : DateTime) : ℤ := d.instant - epoch

/-- A `timestamp` as a `datetime`, with `replace(tzinfo=timezone.utc)`. -/
def ofTimestamp (t : ℤ) : Except OverflowError DateTime := DateTime.ofWall (some 0) (t + epoch)

/-- The day of the week of a date, counted from 2000-01-01, a Saturday: Monday is 1. -/
def isodow (date : ℤ) : ℤ := (date + 5) % 7 + 1

/-- `date_trunc` of a `timestamp`: the smaller fields become zero; a week starts on its Monday. -/
def dateTrunc (g : Granularity) (t : ℤ) : ℤ :=
  let date := t / dayMicros
  match g with
  | .hour => date * dayMicros + t % dayMicros / hourMicros * hourMicros
  | .day => date * dayMicros
  | .week => (date - (isodow date - 1)) * dayMicros

/-! ## The trend -/

/-- A number in JSON. -/
inductive Number
  | int (n : ℤ)
  | float (x : ℚ)
  deriving DecidableEq, Repr

/-- `_number`. -/
def number (value : ℚ) : Number :=
  if value.den = 1 then .int value.num else .float (Binary64.round value)

/-- What `usage_trend` returns. -/
structure Trend where
  tenantId : TenantId
  start : DateTime
  stop : DateTime
  granularity : Granularity
  usageTypes : List String
  buckets : List (DateTime × List (String × Number))
  totals : List (String × Number)
  deriving DecidableEq, Repr

/-- What `usage_trend` raises. -/
inductive Raised
  | api (e : ApiError)
  | overflow (e : OverflowError)
  deriving DecidableEq, Repr

/-- The usage types that a request asks for. -/
def requestedTypes (usageTypes : Option (List String)) : List String :=
  match usageTypes with
  | none | some [] => meteredTypes
  | some types => types

/-- The rows that the query selects: the types of the tenant, from a time on and before another. -/
def selected (ledger : List UsageEvent) (tenant : TenantId) (types : List String)
    (first stop : DateTime) : List UsageEvent :=
  ledger.filter fun e => decide (e.tenantId = tenant ∧ e.usageType ∈ types ∧
    toTimestamp first ≤ e.occurredAt ∧ e.occurredAt < toTimestamp stop)

/-- What the query returns: the sum for each type and bucket. -/
def sums (g : Granularity) (rows : List UsageEvent) : List ((String × ℤ) × ℚ) :=
  groupBy (fun e => (e.usageType, dateTrunc g e.occurredAt))
    (fun group => (group.map UsageEvent.quantity).sum) rows

/-- The table after one of its sums. -/
def addTo (starts : List DateTime) (table : DateTime → String → ℚ)
    (row : DateTime × String × ℚ) : DateTime → String → ℚ :=
  let (key, usageType, quantity) := row
  if key ∈ starts then
    Function.update table key
      (Function.update (table key) usageType (table key usageType + quantity))
  else table

/-- `usage_trend`. -/
def usageTrend (ledger : List UsageEvent) (tenant : TenantId) (start stop : DateTime)
    (g : Granularity) (usageTypes : Option (List String)) : Except Raised Trend := do
  (validateRange start stop g).mapError .api
  let types := requestedTypes usageTypes
  let unknown := (types.filter fun t => decide (t ∉ meteredTypes)).dedup.insertionSort (· ≤ ·)
  if unknown ≠ [] then
    .error (.api (invalid [⟨"types", "Unsupported usage type: " ++ ", ".intercalate unknown⟩]))
  let starts ← (bucketStarts start stop g).mapError .overflow
  let first := starts.head?.getD start
  let rows ← ((sums g (selected ledger tenant types first stop)).mapM fun row =>
    (ofTimestamp row.1.2).map fun key => (key, row.1.1, row.2)).mapError .overflow
  let table := rows.foldl (addTo starts) fun _ _ => 0
  .ok {
    tenantId := tenant
    start := first
    stop := stop
    granularity := g
    usageTypes := types
    buckets := starts.map fun s => (s, types.eraseDups.map fun t => (t, number (table s t)))
    totals := types.eraseDups.map fun t => (t, number (starts.map fun s => table s t).sum) }

end Trends
