import GraphRec.Auth.Account
import GraphRec.Lib.Text

/-!
# Tenants, their members and their plans

The rows that registration, invitations, password setup and plan changes read and write,
and what these decide on one reading of them:

* `tenantSlug`, `duplicateError` — the pieces of `RegistrationService`;
* `SetupTokenRecord`, `setupDenialReason` — what a setup link resolves to, and why it is
  refused;
* `effectiveLimits` — `_effective_limits`;
* `platformList` — `platform_list_plan_requests`, which returns five hundred rows.

The hashes of the source are taken as collision-free, so a row stands under what is hashed.
-/

namespace Tenants

open Auth (TenantId UserId Time User UserStatus TenantStatus Role LoginIdentity
  resolveLoginIdentities)

abbrev PlanId := ℕ
abbrev RequestId := ℕ

/-- The secret of a setup link. -/
abbrev SetupToken := ℕ

/-- A JSON object of limits. -/
abbrev Limits := Table String ℕ

/-- What the service is configured with, and the functions it calls. -/
structure Env where
  /-- `str.lower`. -/
  lower : String → String
  /-- PostgreSQL's `lower(btrim(...))`. -/
  sqlFold : String → String
  accountSetupTokenTtlSeconds : ℕ
  ttl_pos : 300 ≤ accountSetupTokenTtlSeconds

/-! ## Rows -/

/-- A row of `pricing_plans`. -/
structure PricingPlan where
  code : String
  name : String
  limits : Limits
  isActive : Bool
  deriving DecidableEq

/-- A row of `tenants`. -/
structure Tenant where
  slug : String
  name : String
  status : TenantStatus
  createdAt : Time
  deriving DecidableEq, Repr

/-- A row of `account_setup_tokens`. -/
structure AccountSetupToken where
  tenant : TenantId
  user : UserId
  createdAt : Time
  expiresAt : Time
  usedAt : Option Time
  revokedAt : Option Time
  deriving DecidableEq, Repr

/-- Neither used nor revoked. -/
def AccountSetupToken.isOpen (row : AccountSetupToken) : Bool :=
  row.usedAt.isNone && row.revokedAt.isNone

/-- A row of `tenant_subscriptions`; a tenant has one at most. -/
structure TenantSubscription where
  planId : PlanId
  periodStart : Time
  periodEnd : Time
  deriving DecidableEq, Repr

/-- A row of `tenant_resource_quotas`. -/
structure TenantResourceQuota where
  limits : Limits
  overrides : Limits
  deriving DecidableEq

/-- `TenantRegistrationRequest`; the address is in lower case. -/
structure TenantRegistrationRequest where
  name : String
  adminEmail : String
  deriving DecidableEq, Repr

/-- `TenantRegistrationResponse`. -/
structure TenantRegistrationResponse where
  id : TenantId
  name : String
  status : TenantStatus
  createdAt : Time
  administratorEmail : String
  setupToken : Option SetupToken
  setupTokenExpiresAt : Option Time
  deriving DecidableEq, Repr

/-- A row of `registration_requests`; `request` stands for its hash. -/
structure RegistrationRequest where
  request : TenantRegistrationRequest
  tenant : TenantId
  responseBody : TenantRegistrationResponse
  deriving DecidableEq, Repr

/-- `plan_change_requests.status`. -/
inductive RequestStatus
  | pending | approved | rejected | cancelled
  deriving DecidableEq, Repr

/-- A row of `plan_change_requests`. -/
structure PlanChangeRequest where
  tenant : TenantId
  currentPlan : PlanId
  requestedPlan : PlanId
  status : RequestStatus
  createdAt : Time
  decidedAt : Option Time
  deriving DecidableEq, Repr

/-- A row of `audit_logs`, by its action. -/
inductive AuditLog
  | tenantRegistration (tenant : TenantId)
  | tenantUserInvited (tenant : TenantId) (user : UserId) (role : Role)
  | tenantUserInvitationResent (tenant : TenantId) (user : UserId)
  | tenantUserInvitationRevoked (tenant : TenantId) (user : UserId)
  | accountSetup (tenant : TenantId) (user : UserId)
  | authentication (tenant : TenantId) (user : UserId)
  | planChanged (tenant : TenantId) (previous plan : PlanId)
  | planUpdated (tenant : TenantId) (plan : PlanId)
  | planRequest (tenant : TenantId) (request : RequestId) (status : RequestStatus)
  | quotaOverridesChanged (tenant : TenantId) (keys : List String)
  deriving DecidableEq, Repr

/-- A row of `security_events`, by its type. -/
inductive SecurityEvent
  | registrationSucceeded (tenant : TenantId)
  | registrationReplayed (tenant : TenantId)
  | registrationIdempotencyConflict (tenant : TenantId)
  | registrationDuplicateDenied (tenant : Option TenantId)
  | accountSetupDenied (reason : String) (tenant : Option TenantId)
  | loginSucceeded (tenant : TenantId)
  | platformPlanUpdated (plan : PlanId)
  deriving DecidableEq, Repr

/-- The committed rows; registrations are stored under their idempotency key, setup tokens
under the token. -/
structure Store where
  plans : Table PlanId PricingPlan
  tenants : Table TenantId Tenant
  users : Table UserId User
  tokens : Table SetupToken AccountSetupToken
  subscriptions : Table TenantId TenantSubscription
  quotas : Table TenantId TenantResourceQuota
  registrations : Table String RegistrationRequest
  planRequests : Table RequestId PlanChangeRequest
  auditLogs : List AuditLog
  securityEvents : List SecurityEvent

/-! ## Lookups -/

section Lookups

variable (s : Store)

/-- The status of a tenant; a user's tenant is stored, by a foreign key. -/
def Store.tenantStatus (id : TenantId) : TenantStatus :=
  ((s.tenants.get? id).map Tenant.status).getD .deleted

/-- `resolve_login_identities`. -/
def Store.identities (email : String) : List LoginIdentity :=
  resolveLoginIdentities s.users s.tenantStatus email

/-- `email_in_use`. -/
def Store.emailInUse (email : String) : Bool :=
  (s.identities email).any fun i => decide (i.userStatus ≠ .disabled)

/-- `registration_by_request_hash`. -/
def Store.registrationByRequest (request : TenantRegistrationRequest) :
    Option RegistrationRequest :=
  (s.registrations.rows.find? fun row => decide (row.2.request = request)).map Prod.snd

/-- `tenant_name_in_use`. -/
def Store.tenantNameInUse (env : Env) (name : String) : Bool :=
  s.tenants.rows.any fun row => decide (env.sqlFold row.2.name = env.sqlFold name)

/-- The active plan with the code `free`. -/
def Store.freePlan : Option (PlanId × PricingPlan) :=
  s.plans.rows.find? fun row => decide (row.2.code = "free") && row.2.isActive

/-- The user of a tenant with an identifier. -/
def Store.tenantUser (tenant : TenantId) (user : UserId) : Option User :=
  (s.users.get? user).filter fun row => decide (row.tenant = tenant)

/-- The setup tokens of a user. -/
def Store.tokensOf (user : UserId) : List (SetupToken × AccountSetupToken) :=
  s.tokens.rows.filter fun row => decide (row.2.user = user)

/-- The tokens that `revoke_open_setup_tokens` finds. -/
def Store.openTokens (user : UserId) : List SetupToken :=
  ((s.tokensOf user).filter fun row => row.2.isOpen).map Prod.fst

/-- The tenants on a plan whose limits are stored. -/
def Store.subscribers (plan : PlanId) : List TenantId :=
  (s.subscriptions.rows.filter fun row =>
    decide (row.2.planId = plan) && (s.quotas.get? row.1).isSome).map Prod.fst

/-- The pending request of a tenant, if any. -/
def Store.pendingRequest (tenant : TenantId) : Option RequestId :=
  (s.planRequests.rows.find? fun row =>
    decide (row.2.tenant = tenant) && decide (row.2.status = .pending)).map Prod.fst

/-- The order of `platform_list_plan_requests`: pending first, the oldest of them first, then
what was decided last. -/
def listedBefore (a b : RequestId × PlanChangeRequest) : Bool :=
  if a.2.status = .pending then decide (b.2.status ≠ .pending ∨ a.2.createdAt ≤ b.2.createdAt)
  else decide (b.2.status ≠ .pending) && match a.2.decidedAt, b.2.decidedAt with
    | some a, some b => decide (b ≤ a)
    | _, none => true
    | none, some _ => false

/-- `platform_list_plan_requests`. -/
def Store.platformList (status : Option RequestStatus) : List (RequestId × PlanChangeRequest) :=
  let found := s.planRequests.rows.filter fun row =>
    status.all fun status => decide (row.2.status = status)
  (found.insertionSort fun a b => listedBefore a b = true).take 500

/-- `platform_tenant_plan`. -/
def Store.tenantPlan (tenant : TenantId) : Option (PlanId × PricingPlan × TenantResourceQuota) :=
  (s.subscriptions.get? tenant).bind fun row =>
    (s.plans.get? row.planId).bind fun plan =>
      (s.quotas.get? tenant).map fun quota => (row.planId, plan, quota)

end Lookups

/-! ## Limits -/

/-- `set(a) == set(b)`. -/
def Limits.sameKeys (a b : Limits) : Bool :=
  a.rows.all (fun row => (b.get? row.1).isSome) && b.rows.all fun row => (a.get? row.1).isSome

/-- `_effective_limits`. -/
def effectiveLimits (plan quota overrides : Limits) : Limits :=
  plan.updateWhere fun key value => (overrides.get? key).getD ((quota.get? key).getD value)

/-! ## Registration -/

/-- A character of `[a-z0-9]`. -/
def slugCharacter (c : Char) : Bool := c.isDigit || c.isLower

/-- `re.sub(r"[^a-z0-9]+", "-", ...)`; the flag says that a dash was just written. -/
def dashed : Bool → List Char → List Char
  | _, [] => []
  | afterDash, c :: cs =>
      if slugCharacter c then c :: dashed false cs
      else if afterDash then dashed true cs
      else '-' :: dashed true cs

/-- A hexadecimal digit. -/
def hexDigit (n : ℕ) : Char := "0123456789abcdef".toList.getD n '0'

/-- The first eight digits of `UUID.hex`. -/
def hexPrefix (id : TenantId) : List Char :=
  (List.range 8).map fun i => hexDigit ((id >>> (124 - 4 * i)) % 16)

/-- `_tenant_slug`. -/
def tenantSlug (env : Env) (name : String) (id : TenantId) : String :=
  let isDash := fun c => decide (c = '-')
  let base := ((dashed false (env.lower name).toList).dropWhile isDash).rdropWhile isDash
  let base := if base = [] then "tenant".toList else base
  String.ofList (base.take 48 ++ '-' :: hexPrefix id)

/-! ## Account setup -/

/-- `SetupTokenRecord`. -/
structure SetupTokenRecord where
  token : SetupToken
  tenant : TenantId
  user : UserId
  email : String
  userStatus : UserStatus
  userRole : Role
  hasCredential : Bool
  tenantStatus : TenantStatus
  expiresAt : Time
  usedAt : Option Time
  revokedAt : Option Time
  deriving DecidableEq, Repr

/-- `resolve_account_setup_token`. -/
def Store.resolveSetupToken (s : Store) (token : SetupToken) : Option SetupTokenRecord :=
  (s.tokens.get? token).bind fun row =>
    (s.tenantUser row.tenant row.user).map fun user =>
      { token := token, tenant := row.tenant, user := row.user, email := user.email
        userStatus := user.status, userRole := user.role
        hasCredential := user.credentialDigest.isSome, tenantStatus := s.tenantStatus row.tenant
        expiresAt := row.expiresAt, usedAt := row.usedAt, revokedAt := row.revokedAt }

/-- `_setup_denial_reason` of a token that resolves; every role is a key of `ROLE_SCOPES`. -/
def setupDenialReason (record : SetupTokenRecord) (email : Option String) (now : Time) :
    Option String :=
  if record.revokedAt ≠ none then some "revoked_token"
  else if record.usedAt ≠ none then some "used_token"
  else if record.expiresAt ≤ now then some "expired_token"
  else if email ≠ none ∧ email ≠ some record.email then some "email_mismatch"
  else if record.userStatus ≠ .invited ∨ record.hasCredential = true then
    some "account_not_invited"
  else if record.tenantStatus ≠ .active then some "tenant_inactive"
  else none

/-- `_email_signable_elsewhere`, of the identities of the address. -/
def emailSignableElsewhere (record : SetupTokenRecord) (identities : List LoginIdentity) : Bool :=
  identities.any fun i => decide (i.user ≠ record.user) && i.signable

end Tenants
