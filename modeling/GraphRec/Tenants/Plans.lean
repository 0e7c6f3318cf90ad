import GraphRec.Tenants.Members

/-!
# Plans and plan requests

The requests that change a plan or the plan of a tenant, statement by statement.

* `platformAssignPlan`, `platformDecidePlanRequest`, `platformUpdatePlan`,
  `platformSetQuotaOverrides` — the functions in the database;
* `assignTenantPlan`, `decide`, `updatePlatformPlan`, `setTenantQuotaOverride` — the
  operators' routes around them;
* `createPlanRequest`, `cancelPlanRequest` — `PlanRequestService`.

The inventories of the tenants are not part of the store: a request is given the conflicts
that `limits_below_inventory` finds.  The key-share lock that a foreign key takes on a plan is
left out: all it does is make an assignment wait for an edit of its plan.
-/

namespace Tenants

open Api Transactions
open Auth (TenantId Time)

def limitBelowUsage (conflicts : Conflicts) : ApiError :=
  { statusCode := 409, code := "limit_below_usage"
    message := "The new limits are below what the tenant already stores. Existing data is kept, " ++
      "but the tenant cannot add more until usage drops. Resend with " ++
      "acknowledge_below_usage=true to apply anyway."
    details := .conflicts conflicts }

/-- `_guard_below_usage`, before the request goes on with `next`. -/
def guardBelowUsage (conflicts : Conflicts) (acknowledged : Bool) (next : Transaction) :
    Transaction :=
  if conflicts ≠ [] ∧ acknowledged = false then
    .rollback (.done (.error (limitBelowUsage conflicts)))
  else next

def tenantNotFound (tenant : TenantId) : ApiError :=
  { statusCode := 404, code := "resource_not_found"
    message := "Tenant '" ++ toString tenant ++ "' not found." }

/-! ## Assigning a plan -/

/-- The rows of `platform_assign_plan`. -/
def writePlan (tenant : TenantId) (plan : PlanId) (limits : Limits) (s : Store) : Store :=
  let previous := ((s.subscriptions.get? tenant).map TenantSubscription.planId).getD plan
  { s with
    subscriptions := s.subscriptions.update tenant fun row => { row with planId := plan }
    quotas := s.quotas.update tenant fun row => { row with limits := limits }
    auditLogs := s.auditLogs ++ [.planChanged tenant previous plan] }

/-- `platform_assign_plan`: `missing` when it returns false, else `assigned` with what it
writes. -/
def platformAssignPlan (tenant : TenantId) (plan : PlanId) (missing : Transaction)
    (assigned : (Store → Store) → Transaction) : Transaction :=
  .look fun s =>
    match (s.plans.get? plan).filter PricingPlan.isActive with
    | none => missing
    | some row => .note (.copied plan row.limits) <|
        .lock (.subscription tenant) <| .look fun s =>
          match s.subscriptions.get? tenant with
          | none => missing
          | some _ => .lock (.quota tenant) <| assigned (writePlan tenant plan row.limits)

/-- The rows of a decision. -/
def writeDecision (id : RequestId) (status : RequestStatus) (now : Time) (s : Store) : Store :=
  match s.planRequests.get? id with
  | none => s
  | some row =>
      { s with
        planRequests := s.planRequests.update id fun row =>
          { row with status := status, decidedAt := some now }
        auditLogs := s.auditLogs ++ [.planRequest row.tenant id status] }

/-- `platform_decide_plan_request`: `closed` when it returns null, else `decided` with the row it
found and what it writes. -/
def platformDecidePlanRequest (id : RequestId) (approve : Bool) (now : Time) (closed : Transaction)
    (notAssignable : Transaction)
    (decided : PlanChangeRequest → (Store → Store) → Transaction) : Transaction :=
  .lock (.planRequest id) <| .look fun s =>
    match (s.planRequests.get? id).filter fun row => decide (row.status = .pending) with
    | none => closed
    | some row =>
        if approve then
          platformAssignPlan row.tenant row.requestedPlan notAssignable fun write =>
            decided row fun s => writeDecision id .approved now (write s)
        else decided row (writeDecision id .rejected now)

/-- `get_tenant_quota`, as the request itself sees it, and the guard, then the commit. -/
def commitPlan (tenant : TenantId) (conflicts : Conflicts) (acknowledged : Bool)
    (write : Store → Store) (answer : PlanId × PricingPlan × TenantResourceQuota → Answer) :
    Transaction :=
  .look fun s =>
    match (write s).tenantPlan tenant with
    | none => .rollback (.done (.error (tenantNotFound tenant)))
    | some found =>
        guardBelowUsage conflicts acknowledged (.commit (fun s => .ok (write s)) (answer found))

def activePlanNotFound : ApiError :=
  { statusCode := 404, code := "resource_not_found", message := "Tenant or active plan not found." }

/-- A request of the tenant for this plan, among those that are listed. -/
def Store.openRequest (s : Store) (tenant : TenantId) (plan : PlanId) : Option RequestId :=
  ((s.platformList (some .pending)).find? fun row =>
    decide (row.2.tenant = tenant) && decide (row.2.requestedPlan = plan)).map Prod.fst

/-- What `assign_tenant_plan` answers. -/
def tenantQuota (conflicts : Conflicts) (found : PlanId × PricingPlan × TenantResourceQuota) :
    Answer :=
  .tenantQuota found.1 found.2.1.code
    (effectiveLimits found.2.1.limits found.2.2.limits found.2.2.overrides) found.2.2.overrides
    conflicts

/-- `assign_tenant_plan`. -/
def assignTenantPlan (tenant : TenantId) (plan : PlanId) (conflicts : Conflicts)
    (acknowledged : Bool) (now : Time) : Transaction :=
  let missing := .done (.error activePlanNotFound)
  .look fun s =>
    match s.openRequest tenant plan with
    | some id =>
        -- the route lets the database's error through
        platformDecidePlanRequest id true now missing
          (.commit (fun _ => .error .planNotAssignable) (.error activePlanNotFound))
          fun _ write => commitPlan tenant conflicts acknowledged write (tenantQuota conflicts)
    | none => .note .direct <| platformAssignPlan tenant plan missing fun write =>
        commitPlan tenant conflicts acknowledged write (tenantQuota conflicts)

/-! ## Deciding on a request -/

def planNotAvailable : ApiError :=
  { statusCode := 409, code := "plan_not_available"
    message := "The requested plan is closed or the tenant has no subscription; " ++
      "reject the request instead." }

def planRequestNotFound (id : RequestId) : ApiError :=
  { statusCode := 404, code := "resource_not_found"
    message := "Plan request '" ++ toString id ++ "' not found." }

/-- The text of a status. -/
def RequestStatus.text : RequestStatus → String
  | .pending => "pending"
  | .approved => "approved"
  | .rejected => "rejected"
  | .cancelled => "cancelled"

def planRequestClosed (status : RequestStatus) : ApiError :=
  { statusCode := 409, code := "plan_request_closed"
    message := "This request was already " ++ status.text ++ "." }

/-- `platform_get`. -/
def Store.platformGet (s : Store) (id : RequestId) : Option PlanChangeRequest :=
  ((s.platformList none).find? fun row => decide (row.1 = id)).map Prod.snd

/-- `_decide`. -/
def decideRequest (id : RequestId) (approve : Bool) (conflicts : Conflicts) (acknowledged : Bool)
    (now : Time) : Transaction :=
  let closed := .rollback <| .look fun s =>
    match s.platformGet id with
    | none => .done (.error (planRequestNotFound id))
    | some row => .done (.error (planRequestClosed row.status))
  platformDecidePlanRequest id approve now closed
    (.rollback (.done (.error planNotAvailable)))
    fun row write =>
      if approve then
        commitPlan row.tenant conflicts acknowledged write fun _ => .decided id .approved conflicts
      else .commit (fun s => .ok (write s)) (.decided id .rejected [])

/-! ## Editing a plan -/

/-- `PlanUpdate`; its limits are bounded integers. -/
structure PlanUpdate where
  name : String
  limits : Limits
  isActive : Bool
  deriving DecidableEq

def planNotFound : ApiError :=
  { statusCode := 404, code := "resource_not_found", message := "Plan not found." }

def planUpdateInvalid : ApiError :=
  { statusCode := 422, code := "validation_failed"
    message := "Provide a name and every supported plan limit exactly once." }

/-- The row after `platform_update_plan`. -/
def PlanUpdate.apply (payload : PlanUpdate) (row : PricingPlan) : PricingPlan :=
  { row with
    name := Text.strip payload.name, limits := payload.limits, isActive := payload.isActive }

/-- The checks of `platform_update_plan`, with the row it locked. -/
def PlanUpdate.valid (payload : PlanUpdate) (row : PricingPlan) : Bool :=
  let name := Text.strip payload.name
  decide (name ≠ "") && decide (name.length ≤ 100) && payload.limits.sameKeys row.limits
    && payload.limits.rows.all fun limit => decide (limit.2 ≤ 9000000000000000)

/-- The rows of `platform_update_plan`: the quotas of the tenants that its `UPDATE` found on the
plan, and audit rows for those found after it. -/
def writePlanUpdate (plan : PlanId) (payload : PlanUpdate) (found audited : List TenantId)
    (s : Store) : Store :=
  { s with
    plans := s.plans.update plan payload.apply
    quotas := s.quotas.updateWhere fun tenant row =>
      if tenant ∈ found then { row with limits := payload.limits } else row
    auditLogs := s.auditLogs ++ audited.map fun tenant => .planUpdated tenant plan
    securityEvents := s.securityEvents ++ [.platformPlanUpdated plan] }

/-- `update_platform_plan`, with `platform_update_plan`. -/
def updatePlatformPlan (plan : PlanId) (payload : PlanUpdate) (conflicts : Conflicts)
    (acknowledged : Bool) : Transaction :=
  .look fun s =>
    match s.plans.get? plan with
    | none => .done (.error planNotFound)
    | some row =>
        if Text.strip payload.name = "" ∨ payload.limits.sameKeys row.limits = false then
          .done (.error planUpdateInvalid)
        else .lock (.plan plan) <| .look fun s =>
          match s.plans.get? plan with
          | none => .rollback (.done (.error planNotFound))
          | some row =>
              if payload.valid row = false then
                .commit (fun _ => .error .invalidPlanUpdate) (.error planUpdateInvalid)
              else .look fun s =>
                let found := s.subscribers plan
                .note (.subscribers found) <| .lockAll (found.map .quota) <| .look fun s =>
                  let audited := (s.subscriptions.rows.filter fun row =>
                    decide (row.2.planId = plan)).map Prod.fst
                  guardBelowUsage conflicts acknowledged <|
                    .commit (fun s => .ok (writePlanUpdate plan payload found audited s))
                      (.plan plan (payload.apply row) conflicts)

/-! ## Overrides -/

def overridesInvalid : ApiError :=
  { statusCode := 422, code := "validation_failed"
    message := "Overrides must name supported limits and contain non-negative integers." }

/-- The rows of `platform_set_quota_overrides`. -/
def writeOverrides (tenant : TenantId) (overrides : Limits) (s : Store) : Store :=
  { s with
    quotas := s.quotas.update tenant fun row => { row with overrides := overrides }
    auditLogs := s.auditLogs ++
      [.quotaOverridesChanged tenant (overrides.rows.map Prod.fst)] }

/-- `set_tenant_quota_override`, with `platform_set_quota_overrides`. -/
def setTenantQuotaOverride (tenant : TenantId) (overrides : Limits) (conflicts : Conflicts)
    (acknowledged : Bool) : Transaction :=
  .look fun s =>
    match s.tenantPlan tenant with
    | none => .done (.error (tenantNotFound tenant))
    | some (_, plan, _) =>
        if overrides.rows.any fun limit => (plan.limits.get? limit.1).isNone then
          .done (.error overridesInvalid)
        else .lock (.quota tenant) <| .look fun s =>
          match s.quotas.get? tenant with
          | none => .rollback (.done (.error (tenantNotFound tenant)))
          | some _ => commitPlan tenant conflicts acknowledged (writeOverrides tenant overrides)
              fun found => .quotaOverride found.2.2.limits overrides conflicts

/-! ## Requests of a tenant -/

def subscriptionUnavailable : ApiError :=
  { statusCode := 503, code := "service_unavailable"
    message := "Subscription information is temporarily unavailable"
    retryable := true, retryAfterSeconds := some 5 }

def planNotOpen (code : String) : ApiError :=
  { statusCode := 422, code := "plan_not_available"
    message := "The '" ++ code ++ "' plan is not open for requests." }

def planAlreadyActive (name : String) : ApiError :=
  { statusCode := 409, code := "plan_already_active"
    message := "This workspace is already on the " ++ name ++ " plan." }

def planRequestPending (id : RequestId) : ApiError :=
  { statusCode := 409, code := "plan_request_pending"
    message := "A plan request is already waiting for approval. Cancel it to ask for a " ++
      "different plan."
    details := .requestId id }

def planRequestLost : ApiError :=
  { statusCode := 409, code := "plan_request_pending"
    message := "A plan request is already waiting for approval." }

/-- The row of a new request; a tenant has one that is pending, by a partial index. -/
def writePlanRequest (id : RequestId) (row : PlanChangeRequest) (s : Store) :
    Except Constraint Store :=
  if (s.planRequests.get? id).isSome || (s.pendingRequest row.tenant).isSome
      || decide (row.requestedPlan = row.currentPlan) then .error .unique
  else .ok { s with
    planRequests := s.planRequests.insert id row
    auditLogs := s.auditLogs ++ [.planRequest row.tenant id .pending] }

/-- `create`. -/
def createPlanRequest (tenant : TenantId) (planCode : String) (id : RequestId) (now : Time) :
    Transaction :=
  .look fun s =>
    match s.subscriptions.get? tenant with
    | none => .done (.error subscriptionUnavailable)
    | some subscription => .look fun s =>
        match s.plans.rows.find? fun row => decide (row.2.code = planCode) && row.2.isActive with
        | none => .done (.error (planNotOpen planCode))
        | some (plan, row) =>
            if plan = subscription.planId then .done (.error (planAlreadyActive row.name))
            else .look fun s =>
              match s.pendingRequest tenant with
              | some pending => .done (.error (planRequestPending pending))
              | none =>
                  let request :=
                    { tenant := tenant, currentPlan := subscription.planId, requestedPlan := plan
                      status := .pending, createdAt := now, decidedAt := none : PlanChangeRequest }
                  .note (.requested plan) <| .attempt (writePlanRequest id request)
                    (.planRequest id request) fun _ => .done (.error planRequestLost)

/-- The rows of a cancellation; the policy of the table hides a request that is decided. -/
def writeCancel (tenant : TenantId) (id : RequestId) (now : Time) (s : Store) :
    Except Constraint Store :=
  match (s.planRequests.get? id).filter fun row => decide (row.status = .pending) with
  | none => .error .staleData
  | some _ => .ok { s with
      planRequests := s.planRequests.update id fun row =>
        { row with status := .cancelled, decidedAt := some now }
      auditLogs := s.auditLogs ++ [.planRequest tenant id .cancelled] }

/-- `cancel`. -/
def cancelPlanRequest (tenant : TenantId) (id : RequestId) (now : Time) : Transaction :=
  .look fun s =>
    match (s.planRequests.get? id).filter fun row => decide (row.tenant = tenant) with
    | none => .done (.error (planRequestNotFound id))
    | some row =>
        if row.status ≠ .pending then .done (.error (planRequestClosed row.status))
        else .lock (.planRequest id) <| .commit (writeCancel tenant id now)
          (.planRequest id { row with status := .cancelled, decidedAt := some now })

end Tenants
