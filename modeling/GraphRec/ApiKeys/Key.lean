import GraphRec.Lib.Table
import GraphRec.Auth.Account
import Mathlib.Logic.Function.Basic

/-!
# API keys: the rows, the secrets, and what is decided on them

A row of `api_keys` holds the digest of its current secret and, while a grace
period lasts, that of the secret before it.  The service creates, rotates and
revokes keys; each of its operations works on one row that it has locked.

A presented secret is looked up twice: `resolve_api_key_candidate` finds a key in SQL,
`_api_key_principal` then checks the row in Python.
-/

namespace ApiKeys

open Auth (TenantId Time TenantStatus Role Principal ApiError)

abbrev KeyId := Nat
abbrev Secret := List Char
abbrev Digest := List Char

/-! ## Scopes -/

/-- `API_KEY_COMPATIBLE_SCOPES`. -/
def apiKeyCompatibleScopes : List String :=
  ["billing:read", "usage:read", "catalog:read", "catalog:write", "events:read",
    "events:write", "training:read", "training:write", "models:read", "models:write",
    "models:deploy", "recommendations:read", "deployments:read", "metrics:read"]

/-- `ADMIN_DELEGATED_SCOPES`. -/
def adminDelegatedScopes : List String := apiKeyCompatibleScopes

/-- `DEVELOPER_DELEGATED_SCOPES`. -/
def developerDelegatedScopes : List String :=
  ["catalog:read", "catalog:write", "events:read", "events:write", "recommendations:read"]

/-- The scopes a role may delegate. -/
def delegatedScopes : Role → List String
  | .tenantAdministrator => adminDelegatedScopes
  | .tenantDeveloper => developerDelegatedScopes

/-- What may be delegated may be the scope of a key. -/
theorem delegatedScopes_compatible (role : Role) :
    delegatedScopes role ⊆ apiKeyCompatibleScopes := by
  cases role <;> decide

/-! ## Settings and secrets -/

/-- What the service is configured with, and the functions it calls. -/
structure Env where
  /-- `api_key_digest` with the configured pepper. -/
  apiKeyDigest : Secret → Digest
  collisionFree : Function.Injective apiKeyDigest
  /-- `str.isalnum` on one character. -/
  isalnum : Char → Bool
  isalnum_ascii : ∀ c : Char, c.isAlphanum = true → isalnum c = true
  apiKeyHashVersion : Nat
  maxActiveApiKeysPerTenant : Nat

/-- `SECRET_PREFIX`. -/
def secretPrefix : Secret := ['g', 'r', '_', 'l', 'i', 'v', 'e', '_']

/-- A value of `secrets.token_urlsafe(32)`. -/
def tokenUrlsafe (encoded : List Char) : Bool :=
  decide (encoded.length = 43) &&
    encoded.all fun c => c.isAlphanum || decide (c = '-') || decide (c = '_')

/-- The secret of `generate_api_key`. -/
def generateApiKey (encoded : List Char) : Secret := secretPrefix ++ encoded

/-- `has_valid_secret_shape`. -/
def hasValidSecretShape (env : Env) (secret : Secret) : Bool :=
  if !secretPrefix.isPrefixOf secret || decide (secret.length ≠ secretPrefix.length + 43) then
    false
  else
    (secret.drop secretPrefix.length).all fun c =>
      env.isalnum c || decide (c = '-') || decide (c = '_')

/-- A generated secret passes the check of its shape. -/
theorem hasValidSecretShape_generate (env : Env) {encoded : List Char}
    (h : tokenUrlsafe encoded = true) :
    hasValidSecretShape env (generateApiKey encoded) = true := by
  rw [tokenUrlsafe, Bool.and_eq_true, decide_eq_true_eq] at h
  obtain ⟨hlength, hchars⟩ := h
  have hprefix : secretPrefix.isPrefixOf (generateApiKey encoded) = true :=
    List.isPrefixOf_iff_prefix.mpr (List.prefix_append ..)
  have hdrop : (generateApiKey encoded).drop secretPrefix.length = encoded :=
    List.drop_left
  have htotal : (generateApiKey encoded).length = secretPrefix.length + 43 := by
    rw [generateApiKey, List.length_append, hlength]
  rw [hasValidSecretShape, hprefix, htotal, hdrop]
  simp only [ne_eq, not_true_eq_false, decide_false, Bool.not_true, Bool.or_false,
    Bool.false_eq_true, if_false]
  rw [List.all_eq_true] at hchars ⊢
  intro c hc
  have hchar := hchars c hc
  simp only [Bool.or_eq_true] at hchar ⊢
  rcases hchar with (halnum | hdash) | hunderscore
  · exact Or.inl (Or.inl (env.isalnum_ascii c halnum))
  · exact Or.inl (Or.inr hdash)
  · exact Or.inr hunderscore

/-! ## Rows -/

/-- A row of `api_keys`. -/
structure ApiKey where
  tenant : TenantId
  name : String
  keyHash : Digest
  hashVersion : Nat
  scopes : List String
  expiresAt : Option Time
  revokedAt : Option Time
  previousKeyHash : Option Digest
  previousHashVersion : Option Nat
  graceExpiresAt : Option Time
  deriving DecidableEq, Repr

/-- `expires_at IS NOT NULL AND expires_at <= now`. -/
def ApiKey.expired (row : ApiKey) (now : Time) : Bool :=
  match row.expiresAt with
  | some t => decide (t ≤ now)
  | none => false

/-- `grace_expires_at IS NOT NULL AND grace_expires_at > now`. -/
def ApiKey.inGrace (row : ApiKey) (now : Time) : Bool :=
  match row.graceExpiresAt with
  | some g => decide (now < g)
  | none => false

/-! ## The operations of the service -/

/-- A timestamp of a request; one without an offset is not aware. -/
structure Timestamp where
  time : Time
  aware : Bool
  deriving DecidableEq, Repr

/-- `ApiKeyCreateRequest`. -/
structure ApiKeyCreateRequest where
  name : String
  scopes : List String
  expiresAt : Option Timestamp
  deriving DecidableEq, Repr

/-- How a request authenticated. -/
inductive Credential
  | bearer (principal : Principal)
  | apiKey (id : KeyId) (tenant : TenantId) (scopes : List String)
  deriving DecidableEq, Repr

/-- Errors of the service. -/
inductive ServiceError
  | api (error : ApiError)
  | duplicateResource
  | quotaExceeded
  | stateConflict
  deriving DecidableEq, Repr

/-- `_authorize`: a bearer token that may write keys. -/
def authorize : Credential → Except ServiceError Principal
  | .apiKey _ _ _ => .error (.api .authenticationFailed)
  | .bearer p =>
      if "keys:write" ∈ p.scopes then .ok p else .error (.api .insufficientScope)

/-- `_validate_expiry`. -/
def validateExpiry (expiresAt : Option Timestamp) (now : Time) : Except ServiceError Unit :=
  match expiresAt with
  | none => .ok ()
  | some t =>
      if t.aware = false ∨ t.time ≤ now then .error (.api .validationFailed) else .ok ()

/-- `_validate_delegation`. -/
def validateDelegation (p : Principal) (scopes : List String) : Except ServiceError Unit :=
  if scopes.all (fun scope => (delegatedScopes p.role).contains scope) then .ok ()
  else .error (.api .insufficientScope)

/-- The keys that count towards the quota of a tenant. -/
def activeCount (keys : Table KeyId ApiKey) (tenant : TenantId) (now : Time) : Nat :=
  keys.rows.countP fun row =>
    decide (row.2.tenant = tenant) && row.2.revokedAt.isNone && !row.2.expired now

/-- `create_key`: the row of the new key. -/
def createKey (env : Env) (keys : Table KeyId ApiKey) (p : Principal)
    (request : ApiKeyCreateRequest) (secret : Secret) (now : Time) :
    Except ServiceError ApiKey := do
  validateExpiry request.expiresAt now
  validateDelegation p request.scopes
  if keys.rows.any fun row =>
      decide (row.2.tenant = p.tenant) && decide (row.2.name = request.name) then
    throw .duplicateResource
  if env.maxActiveApiKeysPerTenant ≤ activeCount keys p.tenant now then
    throw .quotaExceeded
  return {
    tenant := p.tenant
    name := request.name
    keyHash := env.apiKeyDigest secret
    hashVersion := env.apiKeyHashVersion
    scopes := request.scopes
    expiresAt := request.expiresAt.map Timestamp.time
    revokedAt := none
    previousKeyHash := none
    previousHashVersion := none
    graceExpiresAt := none }

/-- The row under an identifier, as the row-level policy shows it to a tenant. -/
def owned (keys : Table KeyId ApiKey) (p : Principal) (id : KeyId) : Option ApiKey :=
  (keys.get? id).filter fun row => decide (row.tenant = p.tenant)

/-- May the key be rotated? -/
def ApiKey.rotatable (row : ApiKey) (now : Time) : Bool :=
  row.revokedAt.isNone && !row.expired now && !row.inGrace now

/-- The row after a rotation to a new secret. -/
def ApiKey.rotated (env : Env) (row : ApiKey) (gracePeriodSeconds : Nat) (secret : Secret)
    (now : Time) : ApiKey :=
  let kept :=
    if 0 < gracePeriodSeconds then
      { row with
        previousKeyHash := some row.keyHash
        previousHashVersion := some row.hashVersion
        graceExpiresAt := some (now + gracePeriodSeconds) }
    else
      { row with
        previousKeyHash := none
        previousHashVersion := none
        graceExpiresAt := none }
  { kept with
    keyHash := env.apiKeyDigest secret
    hashVersion := env.apiKeyHashVersion }

/-- `rotate_key`: the new row of the key. -/
def rotateKey (env : Env) (keys : Table KeyId ApiKey) (p : Principal) (id : KeyId)
    (gracePeriodSeconds : Nat) (secret : Secret) (now : Time) : Except ServiceError ApiKey :=
  match owned keys p id with
  | none => .error (.api .resourceNotFound)
  | some row =>
      if row.rotatable now then .ok (row.rotated env gracePeriodSeconds secret now)
      else .error .stateConflict

/-- The row after its revocation. -/
def ApiKey.revoked (row : ApiKey) (now : Time) : ApiKey :=
  { row with
    revokedAt := some (row.revokedAt.getD now)
    previousKeyHash := none
    previousHashVersion := none
    graceExpiresAt := none }

/-- `revoke_key`: the new row of the key. -/
def revokeKey (keys : Table KeyId ApiKey) (p : Principal) (id : KeyId) (now : Time) :
    Except ServiceError ApiKey :=
  match owned keys p id with
  | none => .error (.api .resourceNotFound)
  | some row => .ok (row.revoked now)

/-! ## Presenting a secret -/

/-- `AuthenticatedPrincipal`, of an API key. -/
structure KeyPrincipal where
  apiKey : KeyId
  tenant : TenantId
  scopes : List String
  deriving DecidableEq, Repr

/-- The condition of `resolve_api_key_candidate` on a row. -/
def candidateMatches (tenants : TenantId → TenantStatus) (keyHash : Digest) (hashVersion : Nat)
    (now : Time) (row : ApiKey) : Bool :=
  row.revokedAt.isNone && !row.expired now && decide (tenants row.tenant = .active) &&
    ((decide (row.keyHash = keyHash) && decide (row.hashVersion = hashVersion)) ||
      (decide (row.previousKeyHash = some keyHash) &&
        decide (row.previousHashVersion = some hashVersion) && row.inGrace now))

/-- `resolve_api_key_candidate`. -/
def resolveApiKeyCandidate (keys : Table KeyId ApiKey) (tenants : TenantId → TenantStatus)
    (keyHash : Digest) (hashVersion : Nat) (now : Time) : Option KeyId :=
  (keys.rows.find? fun row => candidateMatches tenants keyHash hashVersion now row.2).map
    Prod.fst

/-- What `_api_key_principal` checks on the row of the candidate. -/
def verifies (env : Env) (digest : Digest) (now : Time) (row : ApiKey) : Bool :=
  let currentMatches := decide (row.hashVersion = env.apiKeyHashVersion) &&
    decide (row.keyHash = digest)
  let previousMatches := decide (row.previousHashVersion = some env.apiKeyHashVersion) &&
    row.inGrace now && decide (row.previousKeyHash = some digest)
  (currentMatches || previousMatches) && row.revokedAt.isNone && !row.expired now &&
    row.scopes.all fun scope => apiKeyCompatibleScopes.contains scope

/-- `_api_key_principal`; the lookup and the check see one clock. -/
def apiKeyPrincipal (env : Env) (keys : Table KeyId ApiKey) (tenants : TenantId → TenantStatus)
    (secret : Secret) (now : Time) : Except ApiError KeyPrincipal :=
  if hasValidSecretShape env secret = false then .error .authenticationFailed
  else
    let digest := env.apiKeyDigest secret
    match resolveApiKeyCandidate keys tenants digest env.apiKeyHashVersion now with
    | none => .error .authenticationFailed
    | some id =>
        match keys.get? id with
        | none => .error .authenticationFailed
        | some row =>
            if verifies env digest now row then .ok ⟨id, row.tenant, row.scopes⟩
            else .error .authenticationFailed

/-- An accepted secret was looked up, and its principal repeats the row found. -/
theorem apiKeyPrincipal_ok {env : Env} {keys : Table KeyId ApiKey}
    {tenants : TenantId → TenantStatus} {secret : Secret} {now : Time} {p : KeyPrincipal}
    (h : apiKeyPrincipal env keys tenants secret now = .ok p) :
    resolveApiKeyCandidate keys tenants (env.apiKeyDigest secret) env.apiKeyHashVersion now =
        some p.apiKey ∧
      ∃ row, keys.get? p.apiKey = some row ∧ p.tenant = row.tenant ∧ p.scopes = row.scopes := by
  unfold apiKeyPrincipal at h
  split at h
  · cases h
  · dsimp only at h
    split at h
    · cases h
    · next id hfound =>
        split at h
        · cases h
        · next row hrow =>
            split at h
            · cases h
              exact ⟨hfound, row, hrow, rfl, rfl⟩
            · cases h

end ApiKeys
