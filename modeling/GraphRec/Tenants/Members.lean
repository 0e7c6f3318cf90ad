import GraphRec.Api.Error
import GraphRec.Lib.Transactions
import GraphRec.Tenants.Store

/-!
# Registration, invitations and password setup

The requests that create members and give them a password, statement by statement.

* `register` — `RegistrationService.register`;
* `inviteUser`, `resendInvitation`, `revokeInvitation` — `TenantUserService`;
* `setupPassword` — `AuthenticationService.setup_password`.

A request is given the identifiers and the token it draws, and the time its clock shows.  A
user's row is in the way of others from `SELECT ... FOR UPDATE` or the `UPDATE` on; the
guards of an `UPDATE` are read again once its row is locked.  The session that
`setup_password` opens is the matter of `Auth`; passwords are hashed as there.
-/

namespace Tenants

open Api Transactions
open Auth (TenantId UserId Time User UserStatus Role Principal Digest)

/-- The rows that are locked. -/
inductive LockKey
  | user (id : UserId)
  | token (token : SetupToken)
  | plan (id : PlanId)
  | subscription (tenant : TenantId)
  | quota (tenant : TenantId)
  | planRequest (id : RequestId)
  deriving DecidableEq, Repr

/-- What a request has found out. -/
inductive Note
  /-- The idempotency key was looked up: had it been used? -/
  | lookedUp (used : Bool)
  /-- The limits of a plan, which go into a quota. -/
  | copied (plan : PlanId) (limits : Limits)
  /-- The tenants on the plan that is edited. -/
  | subscribers (tenants : List TenantId)
  /-- A plan is assigned without a request. -/
  | direct
  /-- The plan that is asked for. -/
  | requested (plan : PlanId)
  /-- The accounts of the address that can sign in. -/
  | signable (users : List UserId)
  deriving DecidableEq

/-- What a lookup of the idempotency key has found. -/
def Note.used : Note → Option Bool
  | .lookedUp used => some used
  | _ => none

/-- What the last one has found. -/
def lastLookup (notes : List Note) : Option Bool := (notes.filterMap Note.used).getLast?

@[simp] theorem lastLookup_lookedUp (notes : List Note) (used : Bool) :
    lastLookup (notes ++ [.lookedUp used]) = some used := by
  simp [lastLookup, Note.used]

/-- Why the database fails a statement. -/
inductive Constraint
  | unique | staleData | invalidPlanUpdate | planNotAssignable
  deriving DecidableEq, Repr

/-- What `limits_below_inventory` finds: name, limit and what is used. -/
abbrev Conflicts := List (String × ℕ × ℕ)

/-- What a request answers. -/
inductive Answer
  | registered (response : TenantRegistrationResponse) (replayed : Bool)
  | invited (id : UserId) (row : User) (token : SetupToken) (expiresAt : Time)
  | member (id : UserId) (row : User)
  | signedIn (id : UserId) (tenant : TenantId) (role : Role)
  | plan (id : PlanId) (row : PricingPlan) (warnings : Conflicts)
  | tenantQuota (plan : PlanId) (code : String) (limits overrides : Limits) (warnings : Conflicts)
  | quotaOverride (limits overrides : Limits) (warnings : Conflicts)
  | planRequest (id : RequestId) (row : PlanChangeRequest)
  | decided (id : RequestId) (status : RequestStatus) (warnings : Conflicts)
  | error (e : ApiError)
  deriving DecidableEq

/-- The requests, as transactions. -/
abbrev Transaction := Prog LockKey Store Note Constraint Answer

/-- The row is added. -/
def Store.record (s : Store) (event : SecurityEvent) : Store :=
  { s with securityEvents := s.securityEvents ++ [event] }

/-- Commit a security event. -/
def record (event : SecurityEvent) (answer : Answer) : Transaction :=
  .commit (fun s => .ok (s.record event)) answer

/-! ## Registration -/

/-- A call of `register`. -/
structure RegisterCall where
  key : String
  request : TenantRegistrationRequest
  tenant : TenantId
  user : UserId
  token : SetupToken
  now : Time
  deriving DecidableEq, Repr

def registrationUnavailable : ApiError :=
  { statusCode := 503, code := "service_unavailable"
    message := "Registration is temporarily unavailable"
    retryable := true, retryAfterSeconds := some 5 }

def idempotencyConflict : ApiError :=
  { statusCode := 409, code := "idempotency_conflict"
    message := "The idempotency key was already used for a different registration request" }

/-- `_duplicate_error`. -/
def duplicateError (nameTaken emailTaken : Bool) : ApiError :=
  { statusCode := 409, code := "duplicate_resource"
    message := "This registration cannot be completed with the supplied information"
    details := .fields
      ((if nameTaken then [⟨"name",
          "This business name is already registered. Choose a different name."⟩] else []) ++
        if emailTaken then [⟨"admin_email", "This email cannot be used to register a new " ++
          "tenant. If you already have an account, sign in, or ask your operator for a new " ++
          "setup link."⟩] else []) }

namespace RegisterCall

variable (env : Env) (c : RegisterCall)

/-- The response that is stored, without the token. -/
def response : TenantRegistrationResponse where
  id := c.tenant
  name := c.request.name
  status := .active
  createdAt := c.now
  administratorEmail := c.request.adminEmail
  setupToken := none
  setupTokenExpiresAt := none

/-- The first response. -/
def firstResponse : TenantRegistrationResponse :=
  { c.response with
    setupToken := some c.token
    setupTokenExpiresAt := some (c.now + env.accountSetupTokenTtlSeconds) }

def tenantRow : Tenant := ⟨tenantSlug env c.request.name c.tenant, c.request.name, .active, c.now⟩

/-- The invited administrator. -/
def administrator : User where
  tenant := c.tenant
  email := c.request.adminEmail
  role := .tenantAdministrator
  status := .invited
  credentialDigest := none
  authEpoch := 0
  lastAuthenticatedAt := none

end RegisterCall

/-- The row of `issue_setup_token`. -/
def issueSetupToken (env : Env) (tenant : TenantId) (user : UserId) (now : Time) :
    AccountSetupToken where
  tenant := tenant
  user := user
  createdAt := now
  expiresAt := now + env.accountSetupTokenTtlSeconds
  usedAt := none
  revokedAt := none

/-- Does a row that a registration inserts meet another? -/
def Store.registrationClashes (s : Store) (env : Env) (c : RegisterCall) : Bool :=
  (s.tenants.get? c.tenant).isSome
    || s.tenants.rows.any (fun row => decide (row.2.slug = (c.tenantRow env).slug))
    || (s.users.get? c.user).isSome || (s.subscriptions.get? c.tenant).isSome
    || (s.quotas.get? c.tenant).isSome || (s.registrations.get? c.key).isSome
    || (s.registrationByRequest c.request).isSome || (s.tokens.get? c.token).isSome

/-- The rows of a registration. -/
def writeRegistration (env : Env) (c : RegisterCall) (plan : PlanId) (limits : Limits)
    (s : Store) : Except Constraint Store :=
  if s.registrationClashes env c then .error .unique
  else .ok { s with
    tenants := s.tenants.insert c.tenant (c.tenantRow env)
    users := s.users.insert c.user c.administrator
    tokens := s.tokens.insert c.token (issueSetupToken env c.tenant c.user c.now)
    subscriptions := s.subscriptions.insert c.tenant ⟨plan, c.now, c.now + 30 * 86400⟩
    quotas := s.quotas.insert c.tenant ⟨limits, .empty⟩
    registrations := s.registrations.insert c.key ⟨c.request, c.tenant, c.response⟩
    auditLogs := s.auditLogs ++ [.tenantRegistration c.tenant]
    securityEvents := s.securityEvents ++ [.registrationSucceeded c.tenant] }

/-- `_resolve_concurrent_result`. -/
def resolveConcurrentResult (c : RegisterCall) : Transaction :=
  .look fun s =>
    match s.registrations.get? c.key with
    | some row => .note (.lookedUp true) <|
        if row.request = c.request then .done (.registered row.responseBody true)
        else .done (.error idempotencyConflict)
    | none => .note (.lookedUp false) <| .look fun s =>
        match s.registrationByRequest c.request with
        | some _ => .done (.error (duplicateError true true))
        | none => .done (.error registrationUnavailable)

/-- `_create_registration`, and what follows when a row meets another. -/
def createRegistration (env : Env) (c : RegisterCall) : Transaction :=
  .look fun s =>
    match s.freePlan with
    | none => .done (.error registrationUnavailable)
    | some (plan, row) => .note (.copied plan row.limits) <|
        .attempt (writeRegistration env c plan row.limits)
          (.registered (c.firstResponse env) false)
          fun _ => resolveConcurrentResult c

/-- `register`. -/
def register (env : Env) (c : RegisterCall) : Transaction :=
  .look fun s =>
    match s.registrations.get? c.key with
    | some row => .note (.lookedUp true) <|
        if row.request ≠ c.request then
          record (.registrationIdempotencyConflict row.tenant) (.error idempotencyConflict)
        else record (.registrationReplayed row.tenant) (.registered row.responseBody true)
    | none => .note (.lookedUp false) <| .look fun s =>
        match s.registrationByRequest c.request with
        | some row =>
            record (.registrationDuplicateDenied (some row.tenant))
              (.error (duplicateError true true))
        | none => .look fun s =>
            let emailTaken := decide (s.identities c.request.adminEmail ≠ [])
            .look fun s =>
              let nameTaken := s.tenantNameInUse env c.request.name
              if emailTaken || nameTaken then
                record (.registrationDuplicateDenied none)
                  (.error (duplicateError nameTaken emailTaken))
              else createRegistration env c

/-! ## Invitations -/

/-- `MAX_USERS_PER_TENANT`. -/
def maxUsersPerTenant : ℕ := 50

/-- `TenantUserInvite`; the column compares addresses in lower case. -/
structure TenantUserInvite where
  email : String
  role : Role
  deriving DecidableEq, Repr

/-- `require_tenant_administrator`: the error it raises. -/
def requireTenantAdministrator (principal : Principal) : Option ApiError :=
  if "users:write" ∉ principal.scopes then
    some { statusCode := 403, code := "insufficient_scope"
           message := "The credential does not grant the required permission" }
  else if principal.role ≠ .tenantAdministrator then
    some { statusCode := 403, code := "insufficient_role"
           message := "Only a tenant administrator can manage users" }
  else none

def duplicateMember : ApiError :=
  { statusCode := 409, code := "duplicate_resource"
    message := "A user with this email already exists in the tenant" }

def addressNotInvitable : ApiError :=
  { statusCode := 409, code := "duplicate_resource"
    message := "This email address cannot be invited. Ask the person for a different address." }

def usersLimitExceeded : ApiError :=
  { statusCode := 409, code := "limit_exceeded"
    message := "A tenant may have at most 50 users" }

def userNotFound : ApiError :=
  { statusCode := 404, code := "resource_not_found", message := "User not found." }

def notPending (action : String) : ApiError :=
  { statusCode := 409, code := "invalid_state"
    message := "Only a pending invitation can be " ++ action ++ "." }

/-- The user that is invited. -/
def TenantUserInvite.row (payload : TenantUserInvite) (tenant : TenantId) : User where
  tenant := tenant
  email := payload.email
  role := payload.role
  status := .invited
  credentialDigest := none
  authEpoch := 0
  lastAuthenticatedAt := none

/-- Is there a user of the tenant with this address? -/
def Store.hasMember (s : Store) (tenant : TenantId) (email : String) : Bool :=
  s.users.rows.any fun row => decide (row.2.tenant = tenant) && decide (row.2.email = email)

/-- The invited user and its token; addresses are unique within a tenant. -/
def writeInvite (env : Env) (tenant : TenantId) (payload : TenantUserInvite) (user : UserId)
    (token : SetupToken) (now : Time) (s : Store) : Except Constraint Store :=
  if (s.users.get? user).isSome || s.hasMember tenant payload.email
      || (s.tokens.get? token).isSome || (s.tenants.get? tenant).isNone then .error .unique
  else .ok { s with
    users := s.users.insert user (payload.row tenant)
    tokens := s.tokens.insert token (issueSetupToken env tenant user now)
    auditLogs := s.auditLogs ++ [.tenantUserInvited tenant user payload.role] }

/-- `invite_user`. -/
def inviteUser (env : Env) (principal : Principal) (payload : TenantUserInvite) (user : UserId)
    (token : SetupToken) (now : Time) : Transaction :=
  match requireTenantAdministrator principal with
  | some e => .done (.error e)
  | none => .look fun s =>
      if s.hasMember principal.tenant payload.email then .done (.error duplicateMember)
      else .look fun s =>
        if s.emailInUse payload.email then .done (.error addressNotInvitable)
        else .look fun s =>
          if maxUsersPerTenant ≤ s.users.count fun row => decide (row.tenant = principal.tenant)
          then .done (.error usersLimitExceeded)
          else .commit (writeInvite env principal.tenant payload user token now)
            (.invited user (payload.row principal.tenant) token
              (now + env.accountSetupTokenTtlSeconds))

/-- `revoke_open_setup_tokens`, on the tokens that its `UPDATE` found. -/
def Store.revokeTokens (s : Store) (found : List SetupToken) (now : Time) : Store :=
  { s with
    tokens := s.tokens.updateWhere fun token row =>
      if token ∈ found ∧ row.isOpen = true then { row with revokedAt := some now } else row }

/-- The rows of a resent invitation. -/
def writeResend (env : Env) (tenant : TenantId) (user : UserId) (found : List SetupToken)
    (token : SetupToken) (now : Time) (s : Store) : Except Constraint Store :=
  let s := s.revokeTokens found now
  if (s.tokens.get? token).isSome then .error .unique
  else .ok { s with
    tokens := s.tokens.insert token (issueSetupToken env tenant user now)
    auditLogs := s.auditLogs ++ [.tenantUserInvitationResent tenant user] }

/-- The rows of a revoked invitation. -/
def writeRevoke (tenant : TenantId) (user : UserId) (found : List SetupToken) (now : Time)
    (s : Store) : Store :=
  let s := s.revokeTokens found now
  { s with
    users := s.users.update user fun row =>
      if row.status = .invited then { row with status := .disabled } else row
    auditLogs := s.auditLogs ++ [.tenantUserInvitationRevoked tenant user] }

/-- A pending invitation is locked, and its open tokens after it. -/
def pendingInvitation (principal : Principal) (user : UserId) (action : String)
    (next : User → List SetupToken → Transaction) : Transaction :=
  match requireTenantAdministrator principal with
  | some e => .done (.error e)
  | none => .lock (.user user) <| .look fun s =>
      match s.tenantUser principal.tenant user with
      | none => .done (.error userNotFound)
      | some row =>
          if row.status ≠ .invited then .done (.error (notPending action))
          else .look fun s =>
            let found := s.openTokens user
            .lockAll (found.map .token) (next row found)

/-- `resend_invitation`. -/
def resendInvitation (env : Env) (principal : Principal) (user : UserId) (token : SetupToken)
    (now : Time) : Transaction :=
  pendingInvitation principal user "resent" fun row found =>
    .commit (writeResend env principal.tenant user found token now)
      (.invited user row token (now + env.accountSetupTokenTtlSeconds))

/-- `revoke_invitation`. -/
def revokeInvitation (principal : Principal) (user : UserId) (now : Time) : Transaction :=
  pendingInvitation principal user "revoked" fun row found =>
    .commit (fun s => .ok (writeRevoke principal.tenant user found now s))
      (.member user { row with status := .disabled })

/-! ## Password setup -/

/-- `SetupPasswordRequest`. -/
structure SetupPasswordRequest where
  setupToken : SetupToken
  password : String
  email : Option String
  deriving DecidableEq, Repr

/-- `_setup_failed`. -/
def setupFailed : ApiError :=
  { statusCode := 401, code := "invalid_setup_token"
    message := "The setup token is invalid, expired, or already used" }

/-- `_record_setup_failure`, then the error. -/
def denySetup (reason : String) (tenant : Option TenantId) : Transaction :=
  record (.accountSetupDenied reason tenant) (.error setupFailed)

/-- The guard of the `UPDATE` that consumes the token. -/
def Store.consumable (s : Store) (record : SetupTokenRecord) (now : Time) : Bool :=
  (s.tokens.get? record.token).any fun row =>
    decide (row.tenant = record.tenant) && row.isOpen && decide (now < row.expiresAt)

/-- The guard of the `UPDATE` that activates the user. -/
def Store.activatable (s : Store) (record : SetupTokenRecord) : Bool :=
  (s.tenantUser record.tenant record.user).any fun row =>
    decide (row.status = .invited) && row.credentialDigest.isNone

/-- The rows of an account setup, after the `UPDATE` of the other tokens. -/
def writeSetup (record : SetupTokenRecord) (digest : Digest) (found : List SetupToken) (now : Time)
    (s : Store) : Store :=
  let used := { s with
    tokens := s.tokens.update record.token fun row => { row with usedAt := some now } }
  let s := used.revokeTokens found now
  { s with
    users := s.users.update record.user fun row =>
      { row with
        credentialDigest := some digest
        status := .active
        lastAuthenticatedAt := some now }
    auditLogs := s.auditLogs ++
      [.accountSetup record.tenant record.user, .authentication record.tenant record.user]
    securityEvents := s.securityEvents ++ [.loginSucceeded record.tenant] }

/-- The identifiers of the accounts that could sign in. -/
def signableUsers (identities : List Auth.LoginIdentity) : List UserId :=
  (identities.filter Auth.LoginIdentity.signable).map Auth.LoginIdentity.user

/-- What `setup_password` does with a token that passed the checks. -/
def activate (record : SetupTokenRecord) (digest : Digest) (now : Time) : Transaction :=
  let failed := .rollback (denySetup "concurrent_use" (some record.tenant))
  .lock (.token record.token) <| .look fun s =>
    if s.consumable record now = false then failed
    else .lock (.user record.user) <| .look fun s =>
      if s.activatable record = false then failed
      else .look fun s =>
        let found := (s.openTokens record.user).filter fun token => token ≠ record.token
        .lockAll (found.map .token) <|
          .commit (fun s => .ok (writeSetup record digest found now s))
            (.signedIn record.user record.tenant record.userRole)

/-- `setup_password`. -/
def setupPassword (payload : SetupPasswordRequest) (now : Time) : Transaction :=
  .look fun s =>
    match s.resolveSetupToken payload.setupToken with
    | none => denySetup "unknown_token" none
    | some record =>
        match setupDenialReason record payload.email now with
        | some reason => denySetup reason (some record.tenant)
        | none => .look fun s =>
            let identities := s.identities record.email
            if emailSignableElsewhere record identities then
              denySetup "email_in_use_elsewhere" (some record.tenant)
            else .note (.signable (signableUsers identities)) <|
              activate record ⟨payload.password, .setup⟩ now

end Tenants
