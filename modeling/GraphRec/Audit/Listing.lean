import GraphRec.Auth.Account
import GraphRec.Lib.Keyset

/-!
# The audit trail, page by page

Platform operators and tenants read the audit trail newest first, a page at a time: a page asks
for one row more than it shows, and `next_before`, the time of its last row, is the cursor of
the next one.  The cursor says "strictly earlier", and rows written in one transaction share
their time, so the rows of such a group that did not fit on a page are on no page.  On the
platform side the SQL function caps the rows at 500, so that a page of 500 is never followed.

* `platformAuditSearch`, `listPlatformAuditLogs`, `listTenantAudit` — the query and the routes;
* `PlatformComplete`, `TenantComplete` — following `next_before` from the first page to the last
  shows every matching row once, newest first;
* `auditPagination_complete_iff` — when that is so.
-/

namespace Audit

open Auth (TenantId Time)
open Keyset (Page newestFirst follow walk keys Separated select)

/-- A row of `audit_logs`. -/
structure AuditLog where
  id : ℕ
  tenantId : TenantId
  actorType : String
  actorReference : Option ℕ
  actionType : String
  resourceType : String
  resourceReference : Option ℕ
  outcome : String
  correlationReference : ℕ
  redactedDetails : List (String × String)
  occurredAt : Time

/-- The reason given for the action. -/
def AuditLog.justification (row : AuditLog) : Option String :=
  row.redactedDetails.lookup "justification"

/-! ## The platform route -/

/-- What the platform sees of a row. -/
structure PlatformAuditItem where
  id : ℕ
  tenantId : TenantId
  actorType : String
  actorReference : Option ℕ
  actionType : String
  resourceType : String
  resourceReference : Option ℕ
  outcome : String
  correlationReference : Option ℕ
  reason : Option String
  occurredAt : Time

def PlatformAuditItem.of (a : AuditLog) : PlatformAuditItem where
  id := a.id
  tenantId := a.tenantId
  actorType := a.actorType
  actorReference := a.actorReference
  actionType := a.actionType
  resourceType := a.resourceType
  resourceReference := a.resourceReference
  outcome := a.outcome
  correlationReference := some a.correlationReference
  reason := a.justification
  occurredAt := a.occurredAt

theorem PlatformAuditItem.occurredAt_of (a : AuditLog) :
    (PlatformAuditItem.of a).occurredAt = a.occurredAt := rfl

/-- The parameters of the platform route, as it accepts them. -/
structure PlatformQuery where
  tenantId : Option TenantId
  action : Option String
  outcome : Option String
  since : Option Time
  until_ : Option Time
  limit : ℕ
  limit_pos : 1 ≤ limit
  limit_le : limit ≤ 500

/-- The filters of the query. -/
def PlatformQuery.Matches (q : PlatformQuery) (a : AuditLog) : Prop :=
  (∀ tenant ∈ q.tenantId, a.tenantId = tenant) ∧ (∀ action ∈ q.action, a.actionType = action) ∧
    (∀ outcome ∈ q.outcome, a.outcome = outcome) ∧ (∀ since ∈ q.since, since ≤ a.occurredAt) ∧
    ∀ until_ ∈ q.until_, a.occurredAt < until_

instance (q : PlatformQuery) : DecidablePred q.Matches :=
  fun _ => inferInstanceAs (Decidable (_ ∧ _ ∧ _ ∧ _ ∧ _))

/-- `platform_audit_search`: at most 500 rows, whatever the caller asks for. -/
def platformAuditSearch (auditLogs : List AuditLog) (q : PlatformQuery) (before : Option Time)
    (limit : ℕ) : List AuditLog :=
  (newestFirst AuditLog.occurredAt
    (select AuditLog.occurredAt before (auditLogs.filter fun a => q.Matches a))).take
    (min (max limit 1) 500)

/-- `GET /v1/platform/audit`. -/
def listPlatformAuditLogs (auditLogs : List AuditLog) (q : PlatformQuery) (before : Option Time) :
    Page PlatformAuditItem Time :=
  let rows := platformAuditSearch auditLogs q before (q.limit + 1)
  let items := (rows.take q.limit).map PlatformAuditItem.of
  { items := items
    next := if q.limit < rows.length then items.getLast?.map (·.occurredAt) else none }

/-! ## The tenant route -/

/-- What a tenant sees of a row: who acted only if it was one of its own. -/
structure TenantAuditItem where
  id : ℕ
  occurredAt : Time
  actionType : String
  resourceType : String
  resourceReference : Option ℕ
  outcome : String
  actorType : String
  actorReference : Option ℕ
  reason : Option String
  correlationId : Option ℕ

/-- The actors whose identity is the tenant's own. -/
def tenantActors : List String := ["tenant_user", "api_key"]

def TenantAuditItem.of (row : AuditLog) : TenantAuditItem where
  id := row.id
  occurredAt := row.occurredAt
  actionType := row.actionType
  resourceType := row.resourceType
  resourceReference := row.resourceReference
  outcome := row.outcome
  actorType :=
    if row.actorType = "platform_administrator" then "platform_operator" else row.actorType
  actorReference := if row.actorType ∈ tenantActors then row.actorReference else none
  reason := row.justification
  correlationId := some row.correlationReference

theorem TenantAuditItem.occurredAt_of (row : AuditLog) :
    (TenantAuditItem.of row).occurredAt = row.occurredAt := rfl

/-- The parameters of the tenant route, as it accepts them; the tenant is the caller's own. -/
structure TenantQuery where
  tenantId : TenantId
  action : Option String
  outcome : Option String
  since : Option Time
  until_ : Option Time
  limit : ℕ
  limit_pos : 1 ≤ limit
  limit_le : limit ≤ 200

/-- The filters of the query; an empty text filters nothing. -/
def TenantQuery.Matches (q : TenantQuery) (row : AuditLog) : Prop :=
  row.tenantId = q.tenantId ∧ (∀ action ∈ q.action, action ≠ "" → row.actionType = action) ∧
    (∀ outcome ∈ q.outcome, outcome ≠ "" → row.outcome = outcome) ∧
    (∀ since ∈ q.since, since ≤ row.occurredAt) ∧ ∀ until_ ∈ q.until_, row.occurredAt < until_

instance (q : TenantQuery) : DecidablePred q.Matches :=
  fun _ => inferInstanceAs (Decidable (_ ∧ _ ∧ _ ∧ _ ∧ _))

/-- `GET /v1/audit`. -/
def listTenantAudit (auditLogs : List AuditLog) (q : TenantQuery) (before : Option Time) :
    Page TenantAuditItem Time :=
  let rows := (newestFirst AuditLog.occurredAt
    (select AuditLog.occurredAt before (auditLogs.filter fun row => q.Matches row))).take
    (q.limit + 1)
  let items := (rows.take q.limit).map TenantAuditItem.of
  { items := items
    next := if q.limit < rows.length then items.getLast?.map (·.occurredAt) else none }

/-! ## Reading the whole trail -/

/-- How the database comes across the rows of the table, page by page: each time in an order of
its own, which decides the order among rows of the same time. -/
structure Scans (auditLogs : List AuditLog) where
  rows : ℕ → List AuditLog
  perm : ∀ n, (rows n).Perm auditLogs

variable {auditLogs : List AuditLog}

/-- Following `next_before` shows each of the rows exactly once, newest first. -/
def ShowsAll {β : Type} (fetch : ℕ → Option Time → Page β Time) (item : AuditLog → β)
    (occurredAt : β → Time) (rows : List AuditLog) : Prop :=
  ∃ fuel shown, follow fetch fuel 0 none = some shown ∧ shown.Perm (rows.map item) ∧
    shown.Pairwise fun a b => occurredAt b ≤ occurredAt a

/-- The platform listing is complete. -/
def PlatformComplete (scans : Scans auditLogs) (q : PlatformQuery) : Prop :=
  ShowsAll (fun n before => listPlatformAuditLogs (scans.rows n) q before) PlatformAuditItem.of
    PlatformAuditItem.occurredAt (auditLogs.filter fun a => q.Matches a)

/-- The tenant listing is complete. -/
def TenantComplete (scans : Scans auditLogs) (q : TenantQuery) : Prop :=
  ShowsAll (fun n before => listTenantAudit (scans.rows n) q before) TenantAuditItem.of
    TenantAuditItem.occurredAt (auditLogs.filter fun row => q.Matches row)

/-! ## When it does -/

/-- A page of a route is a page of the rows, shown as the route shows them. -/
theorem page_map {β : Type} {item : AuditLog → β} {occurredAt : β → Time}
    (hitem : ∀ row, occurredAt (item row) = row.occurredAt) (fetch size : ℕ)
    (rows : List AuditLog) :
    (let fetched := (newestFirst AuditLog.occurredAt rows).take fetch
     let items := (fetched.take size).map item
     (⟨items, if size < fetched.length then items.getLast?.map occurredAt else none⟩ :
       Page β Time))
      = (Keyset.page AuditLog.occurredAt fetch size rows).map item := by
  have hcursor : occurredAt ∘ item = AuditLog.occurredAt := funext hitem
  simp only [Keyset.page, Page.map, List.getLast?_map, Option.map_map, hcursor]

section Walks

variable {β : Type} {item : AuditLog → β} {occurredAt : β → Time} {rows : List AuditLog}
  {scan : ℕ → List AuditLog} {fetch size : ℕ}

/-- The pages of a route. -/
abbrev pages (item : AuditLog → β) (scan : ℕ → List AuditLog) (fetch size : ℕ) (n : ℕ)
    (before : Option Time) : Page β Time :=
  (Keyset.page AuditLog.occurredAt fetch size
    (select AuditLog.occurredAt before (scan n))).map item

/-- What a complete listing shows is what the walk over the rows sees. -/
theorem walk_of_showsAll (h : ShowsAll (pages item scan fetch size) item occurredAt rows) :
    ∃ fuel visited, walk AuditLog.occurredAt fetch size scan fuel 0 none = some visited ∧
      visited.length = rows.length := by
  obtain ⟨fuel, shown, hshown, hperm, -⟩ := h
  rw [Keyset.follow_map] at hshown
  obtain ⟨visited, hvisited, rfl⟩ := Option.map_eq_some_iff.mp hshown
  refine ⟨fuel, visited, hvisited, ?_⟩
  simpa using hperm.length_eq

/-- A walk that sees every row shows every row. -/
theorem showsAll_of_walk (hitem : ∀ row, occurredAt (item row) = row.occurredAt) {fuel : ℕ}
    {visited : List AuditLog}
    (hvisited : walk AuditLog.occurredAt fetch size scan fuel 0 none = some visited)
    (hperm : visited.Perm rows)
    (hnewest : visited.Pairwise fun a b => b.occurredAt ≤ a.occurredAt) :
    ShowsAll (pages item scan fetch size) item occurredAt rows := by
  refine ⟨fuel, visited.map item, ?_, hperm.map item, ?_⟩
  · rw [Keyset.follow_map]
    exact congrArg (Option.map (List.map item)) hvisited
  · rw [List.pairwise_map]
    simpa only [hitem] using hnewest

/-- With one row more fetched than shown: complete exactly when no group of equal times lies
across the end of a page. -/
theorem showsAll_iff_separated (hitem : ∀ row, occurredAt (item row) = row.occurredAt)
    (hscan : ∀ n, (scan n).Perm rows) (hsize : 0 < size) (hfetch : size < fetch) :
    ShowsAll (pages item scan fetch size) item occurredAt rows
      ↔ Separated size (keys AuditLog.occurredAt rows) := by
  constructor
  · intro h
    obtain ⟨fuel, visited, hvisited, hlength⟩ := walk_of_showsAll h
    have hsaw := Keyset.walk_spec hscan hsize hfetch hvisited
    rw [Keyset.select_none] at hsaw
    exact hsaw.all_iff.mp hlength
  · intro hsep
    have hsome : (walk AuditLog.occurredAt fetch size scan (rows.length + 1) 0 none).isSome :=
      Keyset.walk_isSome hscan hsize hfetch (by rw [Keyset.select_none]; exact Nat.lt_succ_self _)
    obtain ⟨visited, hvisited⟩ := Option.isSome_iff_exists.mp hsome
    have hsaw := Keyset.walk_spec hscan hsize hfetch hvisited
    rw [Keyset.select_none] at hsaw
    have hlength := hsaw.all_iff.mpr hsep
    exact showsAll_of_walk hitem hvisited (hsaw.subperm.perm_of_length_le hlength.ge) hsaw.newest

/-- With no more rows fetched than shown, one page is all there is. -/
theorem showsAll_iff_single (hitem : ∀ row, occurredAt (item row) = row.occurredAt)
    (hscan : ∀ n, (scan n).Perm rows) :
    ShowsAll (pages item scan size size) item occurredAt rows ↔ rows.length ≤ size := by
  have hperm := (Keyset.newestFirst_perm AuditLog.occurredAt (scan 0)).trans (hscan 0)
  have hwalk (fuel : ℕ) : walk AuditLog.occurredAt size size scan (fuel + 1) 0 none
      = some ((newestFirst AuditLog.occurredAt (scan 0)).take size) := by
    rw [Keyset.walk_single, Keyset.select_none]
  constructor
  · intro h
    obtain ⟨fuel, visited, hvisited, hlength⟩ := walk_of_showsAll h
    cases fuel with
    | zero => exact absurd hvisited nofun
    | succ fuel =>
      rw [hwalk] at hvisited
      rw [← Option.some.inj hvisited, List.length_take, hperm.length_eq] at hlength
      omega
  · intro hle
    have hall : (newestFirst AuditLog.occurredAt (scan 0)).take size
        = newestFirst AuditLog.occurredAt (scan 0) :=
      List.take_of_length_le (by rwa [hperm.length_eq])
    refine showsAll_of_walk hitem (hwalk 0) ?_ ?_ <;> rw [hall]
    · exact hperm
    · exact Keyset.pairwise_newestFirst _ _

end Walks

/-! ## The two listings -/

theorem scans_filter (scans : Scans auditLogs) (p : AuditLog → Bool) (n : ℕ) :
    ((scans.rows n).filter p).Perm (auditLogs.filter p) :=
  (scans.perm n).filter p

/-- The tenant route reads pages. -/
theorem listTenantAudit_eq (scans : Scans auditLogs) (q : TenantQuery) (n : ℕ)
    (before : Option Time) :
    listTenantAudit (scans.rows n) q before
      = pages TenantAuditItem.of (fun n => (scans.rows n).filter fun row => q.Matches row)
          (q.limit + 1) q.limit n before :=
  page_map TenantAuditItem.occurredAt_of _ _ _

/-- The platform route reads pages, of at most 500 rows. -/
theorem listPlatformAuditLogs_eq (scans : Scans auditLogs) (q : PlatformQuery) (n : ℕ)
    (before : Option Time) :
    listPlatformAuditLogs (scans.rows n) q before
      = pages PlatformAuditItem.of (fun n => (scans.rows n).filter fun a => q.Matches a)
          (min (max (q.limit + 1) 1) 500) q.limit n before :=
  page_map PlatformAuditItem.occurredAt_of _ _ _

theorem tenantComplete_iff (scans : Scans auditLogs) (q : TenantQuery) :
    TenantComplete scans q
      ↔ Separated q.limit
          (keys AuditLog.occurredAt (auditLogs.filter fun row => q.Matches row)) := by
  rw [TenantComplete, funext₂ (listTenantAudit_eq scans q)]
  exact showsAll_iff_separated TenantAuditItem.occurredAt_of (scans_filter scans _) q.limit_pos
    (Nat.lt_succ_self _)

theorem platformComplete_iff (scans : Scans auditLogs) (q : PlatformQuery) :
    PlatformComplete scans q
      ↔ Separated q.limit (keys AuditLog.occurredAt (auditLogs.filter fun a => q.Matches a)) ∧
        (q.limit = 500 → (auditLogs.filter fun a => q.Matches a).length ≤ 500) := by
  rw [PlatformComplete, funext₂ (listPlatformAuditLogs_eq scans q)]
  have hle := q.limit_le
  by_cases hfull : q.limit = 500
  · have hfetch : min (max (q.limit + 1) 1) 500 = q.limit := by omega
    rw [hfetch, showsAll_iff_single PlatformAuditItem.occurredAt_of (scans_filter scans _), hfull]
    constructor
    · intro hall
      refine ⟨Keyset.separated_of_length_le ?_, fun _ => hall⟩
      rwa [Keyset.length_keys]
    · rintro ⟨-, hall⟩
      exact hall rfl
  · rw [showsAll_iff_separated PlatformAuditItem.occurredAt_of (scans_filter scans _) q.limit_pos
      (by omega), and_iff_left fun h => absurd h hfull]

/-- **Completeness.**  Following `next_before` shows every matching row once, newest first,
exactly when no page ends between two rows of the same time; the platform listing at its largest
page size moreover only when the first page holds everything. -/
theorem auditPagination_complete_iff (scans : Scans auditLogs) :
    (∀ q, PlatformComplete scans q
      ↔ Separated q.limit (keys AuditLog.occurredAt (auditLogs.filter fun a => q.Matches a)) ∧
        (q.limit = 500 → (auditLogs.filter fun a => q.Matches a).length ≤ 500)) ∧
    ∀ q, TenantComplete scans q
      ↔ Separated q.limit
          (keys AuditLog.occurredAt (auditLogs.filter fun row => q.Matches row)) :=
  ⟨platformComplete_iff scans, tenantComplete_iff scans⟩

/-! ## Two rows of one transaction -/

/-- What a request of tenant 1 writes: two rows, and one time for both. -/
def sameTransaction : List AuditLog :=
  [⟨1, 1, "tenant_user", some 7, "model_activated", "model_version", some 3, "success", 9, [], 5⟩,
   ⟨2, 1, "tenant_user", some 7, "model_archived", "model_version", some 2, "success", 9, [], 5⟩]

/-- Read one row at a time, the second row is on no page, for the platform and for the tenant. -/
theorem auditPagination_loses_row :
    (¬ ∀ (auditLogs : List AuditLog) (scans : Scans auditLogs) (q : PlatformQuery),
        PlatformComplete scans q) ∧
      ¬ ∀ (auditLogs : List AuditLog) (scans : Scans auditLogs) (q : TenantQuery),
        TenantComplete scans q := by
  constructor
  · intro h
    have hplatform := h sameTransaction ⟨fun _ => sameTransaction, fun _ => .refl _⟩
      ⟨none, none, none, none, none, 1, le_rfl, by decide⟩
    have hsep := ((platformComplete_iff _ _).mp hplatform).1
    exact absurd (hsep 1 Nat.one_pos (Nat.dvd_refl _) (by decide)) (by decide)
  · intro h
    have htenant := h sameTransaction ⟨fun _ => sameTransaction, fun _ => .refl _⟩
      ⟨1, none, none, none, none, 1, le_rfl, by decide⟩
    have hsep := (tenantComplete_iff _ _).mp htenant
    exact absurd (hsep 1 Nat.one_pos (Nat.dvd_refl _) (by decide)) (by decide)

end Audit
