import GraphRec.Lib.Table
import Mathlib.Data.List.Sort

/-!
# Accounts, sessions and the decisions taken on them

The rows of `tenant_users` and `refresh_sessions`, the identities a login
resolves, the claims of an access token, and what the authentication code decides
from one reading of them:

* `login` — which identity, if any, a password signs in;
* `resolveRefresh` — what `refresh` does with the row of a presented token;
* `memberChange` — the rules of `update_user`;
* `bearerPrincipal` — `_bearer_principal`.
-/

namespace Auth

abbrev UserId := Nat
abbrev TenantId := Nat
abbrev SessionId := Nat
abbrev CallId := Nat
abbrev Time := Nat

/-- `tenant_users.role`; both values are keys of `ROLE_SCOPES`. -/
inductive Role
  | tenantAdministrator | tenantDeveloper
  deriving DecidableEq, Repr

/-- `tenant_users.status`. -/
inductive UserStatus
  | invited | active | locked | disabled
  deriving DecidableEq, Repr

/-- `tenants.status`. -/
inductive TenantStatus
  | active | suspended | deleting | deleted
  deriving DecidableEq, Repr

/-- `ROLE_SCOPES`. -/
def roleScopes : Role → List String
  | .tenantAdministrator =>
      ["keys:write", "users:write", "billing:read", "billing:write", "usage:read",
        "catalog:read", "catalog:write", "events:read", "events:write", "training:read",
        "training:write", "models:read", "models:write", "models:deploy",
        "recommendations:read", "deployments:read", "metrics:read", "audit:read"]
  | .tenantDeveloper =>
      ["keys:write", "catalog:read", "catalog:write", "events:read", "events:write",
        "training:read"]

/-- `RESTRICTED_TENANT_STATUSES`. -/
def TenantStatus.restricted : TenantStatus → Bool
  | .suspended | .deleting => true
  | .active | .deleted => false

/-- `RESTRICTED_SCOPE`. -/
def restrictedScope : String := "account:status"

/-- Where the salt of a digest was drawn: when the account was set up, or by one call of
`recover_password`. -/
inductive Salt
  | setup
  | recovery (c : CallId)
  deriving DecidableEq, Repr

/-- A stored password hash. -/
structure Digest where
  password : String
  salt : Salt
  deriving DecidableEq, Repr

/-- `verify_password`. -/
def verifyPassword (digest : Option Digest) (password : String) : Bool :=
  match digest with
  | some digest => decide (digest.password = password)
  | none => false

/-- A row of `tenant_users`; the address is in lower case. -/
structure User where
  tenant : TenantId
  email : String
  role : Role
  status : UserStatus
  credentialDigest : Option Digest
  authEpoch : Nat
  lastAuthenticatedAt : Option Time
  deriving DecidableEq, Repr

/-- A row of `refresh_sessions`; the token presented for it is the session's own. -/
structure RefreshSession where
  user : UserId
  createdAt : Time
  expiresAt : Time
  revokedAt : Option Time
  rotatedFrom : Option SessionId
  deriving DecidableEq, Repr

/-- Errors the authentication routes answer with. -/
inductive ApiError
  | authenticationFailed
  | tokenExpired
  | invalidRefreshToken
  | invalidRecoveryToken
  | insufficientScope
  | insufficientRole
  | validationFailed
  | invalidState
  | resourceNotFound
  deriving DecidableEq, Repr

/-! ## Signing in -/

/-- A row of `resolve_login_identities`. -/
structure LoginIdentity where
  user : UserId
  tenant : TenantId
  email : String
  credentialDigest : Option Digest
  userStatus : UserStatus
  tenantStatus : TenantStatus
  userRole : Role
  deriving DecidableEq, Repr

/-- `resolve_login_identities`: at most three users of any tenant with this address, by
identifier. -/
def resolveLoginIdentities (users : Table UserId User) (tenants : TenantId → TenantStatus)
    (email : String) : List LoginIdentity :=
  let found := users.rows.filter fun row => decide (row.2.email = email)
  let identity := fun row : UserId × User =>
    { user := row.1, tenant := row.2.tenant, email := row.2.email
      credentialDigest := row.2.credentialDigest, userStatus := row.2.status
      tenantStatus := tenants row.2.tenant, userRole := row.2.role : LoginIdentity }
  ((found.insertionSort fun a b => a.1 ≤ b.1).take 3).map identity

/-- An identity that could sign in. -/
def LoginIdentity.signable (i : LoginIdentity) : Bool :=
  i.credentialDigest.isSome && decide (i.userStatus = .active) &&
    decide (i.tenantStatus = .active)

/-- A member of a suspended or deleting tenant. -/
def LoginIdentity.held (i : LoginIdentity) : Bool :=
  i.credentialDigest.isSome && decide (i.userStatus = .active) && i.tenantStatus.restricted

/-- What a refresh carries over from the session it consumed. -/
structure Rotation where
  session : SessionId
  expiresAt : Time
  consumedAt : Time
  deriving DecidableEq, Repr

/-- The arguments of `_issue_session`. -/
structure Grant where
  identity : LoginIdentity
  restricted : Bool
  rotation : Option Rotation
  deriving DecidableEq, Repr

/-- The decision of `login` on what it resolved. -/
def login (resolved : List LoginIdentity) (password : String) : Option Grant :=
  match resolved.filter LoginIdentity.signable with
  | [] =>
      match resolved.filter LoginIdentity.held with
      | [identity] =>
          if verifyPassword identity.credentialDigest password then
            some ⟨identity, true, none⟩ else none
      | _ => none
  | [identity] =>
      if verifyPassword identity.credentialDigest password then
        some ⟨identity, false, none⟩ else none
  | _ => none

/-- What a login verified: it grants an identity it resolved, not a rotation. -/
theorem login_spec {resolved : List LoginIdentity} {password : String} {g : Grant}
    (h : login resolved password = some g) :
    g.identity ∈ resolved ∧ g.rotation = none ∧
      (g.restricted = true → g.identity.tenantStatus.restricted = true) := by
  unfold login at h
  split at h
  · split at h
    · next identity hheld =>
        split at h
        · cases h
          have hmem : identity ∈ resolved.filter LoginIdentity.held := by
            rw [hheld]
            exact List.mem_singleton_self identity
          rw [List.mem_filter] at hmem
          refine ⟨hmem.1, rfl, fun _ => ?_⟩
          have hflags := hmem.2
          rw [LoginIdentity.held, Bool.and_eq_true] at hflags
          exact hflags.2
        · cases h
    · cases h
  · next identity hsignable =>
      split at h
      · cases h
        have hmem : identity ∈ resolved.filter LoginIdentity.signable := by
          rw [hsignable]
          exact List.mem_singleton_self identity
        exact ⟨(List.mem_filter.mp hmem).1, rfl, fun hfalse => by cases hfalse⟩
      · cases h
  · cases h

/-! ## Access tokens -/

/-- The claims of an access token. -/
structure AccessClaims where
  sub : UserId
  tid : TenantId
  role : Role
  av : Nat
  scopes : List String
  restricted : Bool
  exp : Time
  deriving DecidableEq, Repr

/-- The claims `_issue_session` signs, with the epoch it read. -/
def Grant.claims (g : Grant) (av : Nat) (exp : Time) : AccessClaims where
  sub := g.identity.user
  tid := g.identity.tenant
  role := g.identity.userRole
  av := av
  scopes := if g.restricted then [restrictedScope] else roleScopes g.identity.userRole
  restricted := g.restricted
  exp := exp

/-- `AuthenticatedPrincipal`, of a bearer token. -/
structure Principal where
  user : UserId
  tenant : TenantId
  role : Role
  scopes : List String
  restricted : Bool
  deriving DecidableEq, Repr

/-- May a token of this kind be used while its tenant has this status? -/
def tenantAdmits (restricted : Bool) (status : TenantStatus) : Bool :=
  if restricted then status.restricted else decide (status = .active)

/-- `_bearer_principal`, on a token whose signature and shape are valid. -/
def bearerPrincipal (users : Table UserId User) (tenants : TenantId → TenantStatus)
    (claims : AccessClaims) (now : Time) : Except ApiError Principal :=
  if claims.exp ≤ now then .error .tokenExpired
  else
    match users.get? claims.sub with
    | none => .error .authenticationFailed
    | some user =>
        if user.tenant ≠ claims.tid ∨ user.status ≠ .active
            ∨ (tenants user.tenant ≠ .active ∧
              ¬ (claims.restricted = true ∧ (tenants user.tenant).restricted = true))
            ∨ (claims.restricted = true ∧ tenants user.tenant = .active)
            ∨ user.role ≠ claims.role ∨ claims.av ≠ user.authEpoch then
          .error .authenticationFailed
        else
          .ok { user := claims.sub, tenant := user.tenant, role := user.role
                scopes := if claims.restricted then [restrictedScope]
                  else claims.scopes.filter fun scope => (roleScopes user.role).contains scope
                restricted := claims.restricted }

/-- What an accepted token has passed. -/
theorem bearerPrincipal_ok {users : Table UserId User} {tenants : TenantId → TenantStatus}
    {claims : AccessClaims} {now : Time} {p : Principal}
    (h : bearerPrincipal users tenants claims now = .ok p) :
    ∃ user, users.get? claims.sub = some user ∧ user.tenant = claims.tid ∧
      user.status = .active ∧ user.role = claims.role ∧ claims.av = user.authEpoch ∧
      tenantAdmits claims.restricted (tenants claims.tid) = true ∧
      p.user = claims.sub ∧ p.tenant = claims.tid ∧ p.role = user.role ∧
      p.restricted = claims.restricted ∧
      (claims.restricted = true → p.scopes = [restrictedScope]) ∧
      (claims.restricted = false → ∀ scope ∈ p.scopes, scope ∈ roleScopes user.role) := by
  unfold bearerPrincipal at h
  split at h
  · cases h
  · split at h
    · cases h
    · next user huser =>
        split at h
        · cases h
        · next hpassed =>
            push Not at hpassed
            obtain ⟨htenant, hstatus, hheld, hrestricted, hrole, hav⟩ := hpassed
            cases h
            refine ⟨user, huser, htenant, hstatus, hrole, hav, ?_, rfl, htenant, rfl, rfl,
              ?_, ?_⟩
            · rw [← htenant]
              unfold tenantAdmits
              cases hkind : claims.restricted with
              | false =>
                  by_contra hinactive
                  have hboth := hheld (by simpa using hinactive)
                  rw [hkind] at hboth
                  cases hboth.1
              | true => exact (hheld (hrestricted hkind)).2
            · intro hkind
              simp [hkind]
            · intro hkind scope hscope
              simp only [hkind, Bool.false_eq_true, if_false, List.mem_filter] at hscope
              exact List.contains_iff_mem.mp hscope.2

/-! ## Changing a member -/

/-- The payload of `update_user`. -/
structure MemberUpdate where
  role : Option Role
  status : Option UserStatus
  deriving DecidableEq, Repr

/-- The checks `update_user` makes before it reads the member. -/
def updateAllowed (p : Principal) (target : UserId) (payload : MemberUpdate) :
    Except ApiError Unit :=
  if "users:write" ∉ p.scopes then .error .insufficientScope
  else if p.role ≠ .tenantAdministrator then .error .insufficientRole
  else if payload.role = none ∧ payload.status = none then .error .validationFailed
  else if p.user = target then .error .invalidState
  else .ok ()

/-- The row after an accepted change; nothing else of it moves but the epoch. -/
def MemberUpdate.apply (payload : MemberUpdate) (u : User) : User :=
  { u with role := payload.role.getD u.role, status := payload.status.getD u.status }

/-- An active administrator. -/
def User.administers (u : User) : Bool :=
  decide (u.role = .tenantAdministrator) && decide (u.status = .active)

/-- What `update_user` decides on the row it locked: refuse, nothing to change, or change
it, after counting the tenant's active administrators when the member stops being one. -/
inductive MemberChange
  | refused (error : ApiError)
  | unchanged
  | change
  deriving DecidableEq, Repr

def memberChange (tenant : TenantId) (admins : Nat) (user : Option User)
    (payload : MemberUpdate) : MemberChange :=
  match user with
  | none => .refused .resourceNotFound
  | some u =>
      if u.tenant ≠ tenant then .refused .resourceNotFound
      else if u.status = .invited then .refused .invalidState
      else if u.status = .disabled ∧ payload.status ≠ some .disabled then
        .refused .invalidState
      else if payload.apply u = u then .unchanged
      else if u.administers = true ∧ (payload.apply u).administers = false ∧ admins ≤ 1 then
        .refused .invalidState
      else .change

end Auth
