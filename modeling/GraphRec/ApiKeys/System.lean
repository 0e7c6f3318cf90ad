import GraphRec.Lib.Transition
import GraphRec.ApiKeys.Key

/-!
# The API-key service as a transition system

Requests create, rotate and revoke keys, each under the lock of its tenant or of its
row, and the status of tenants changes.  A state remembers the answers that carried a
secret, the latest first: who received it, of which key, and with which scopes.

Every draw of `secrets.token_urlsafe` gives a secret that was not drawn before.
-/

namespace ApiKeys

open Transition
open Auth (TenantId Time TenantStatus Role Principal ApiError)

/-- An answer with a secret, `ApiKeySecretResponse`. -/
structure SecretResponse where
  principal : Principal
  key : KeyId
  scopes : List String
  secret : Secret
  deriving DecidableEq, Repr

/-- The committed rows, and the answers with a secret. -/
structure State where
  keys : Table KeyId ApiKey
  tenants : TenantId → TenantStatus
  returned : List SecretResponse

/-- No key yet. -/
def initial (tenants : TenantId → TenantStatus) : State := ⟨.empty, tenants, []⟩

/-- The requests, with the clock each of them reads and the token it draws. -/
inductive Action
  | create (credential : Credential) (request : ApiKeyCreateRequest) (id : KeyId)
      (encoded : List Char) (now : Time)
  | rotate (credential : Credential) (id : KeyId) (gracePeriodSeconds : Nat)
      (encoded : List Char) (now : Time)
  | revoke (credential : Credential) (id : KeyId) (now : Time)
  | setTenantStatus (tenant : TenantId) (status : TenantStatus)

namespace State

variable (s : State)

/-- The secrets of a key, the latest first. -/
def secretsOf (id : KeyId) : List Secret :=
  (s.returned.filter fun r => decide (r.key = id)).map SecretResponse.secret

/-- The token has not been drawn before. -/
def fresh (encoded : List Char) : Bool :=
  tokenUrlsafe encoded &&
    !(s.returned.map SecretResponse.secret).contains (generateApiKey encoded)

/-- A row is added and its secret returned. -/
def created (p : Principal) (id : KeyId) (secret : Secret) (row : ApiKey) : State :=
  { s with
    keys := s.keys.insert id row
    returned := ⟨p, id, row.scopes, secret⟩ :: s.returned }

/-- A row is replaced and its new secret returned. -/
def replaced (p : Principal) (id : KeyId) (secret : Secret) (row : ApiKey) : State :=
  { s with
    keys := s.keys.update id fun _ => row
    returned := ⟨p, id, row.scopes, secret⟩ :: s.returned }

/-- A new answer adds its secret to its key's. -/
theorem secretsOf_cons (r : SecretResponse) (keys : Table KeyId ApiKey)
    (tenants : TenantId → TenantStatus) (id : KeyId) :
    State.secretsOf ⟨keys, tenants, r :: s.returned⟩ id =
      if r.key = id then r.secret :: s.secretsOf id else s.secretsOf id := by
  unfold secretsOf
  by_cases hkey : r.key = id <;> simp [hkey]

end State

/-- A request to create a key. -/
def stepCreate (env : Env) (s : State) (credential : Credential)
    (request : ApiKeyCreateRequest) (id : KeyId) (encoded : List Char) (now : Time) :
    Option State :=
  if s.keys.get? id = none ∧ s.fresh encoded = true then
    match authorize credential with
    | .error _ => some s
    | .ok p =>
        match createKey env s.keys p request (generateApiKey encoded) now with
        | .error _ => some s
        | .ok row => some (s.created p id (generateApiKey encoded) row)
  else none

/-- A request to rotate a key. -/
def stepRotate (env : Env) (s : State) (credential : Credential) (id : KeyId)
    (gracePeriodSeconds : Nat) (encoded : List Char) (now : Time) : Option State :=
  if s.fresh encoded = true then
    match authorize credential with
    | .error _ => some s
    | .ok p =>
        match rotateKey env s.keys p id gracePeriodSeconds (generateApiKey encoded) now with
        | .error _ => some s
        | .ok row => some (s.replaced p id (generateApiKey encoded) row)
  else none

/-- A request to revoke a key. -/
def stepRevoke (s : State) (credential : Credential) (id : KeyId) (now : Time) :
    Option State :=
  match authorize credential with
  | .error _ => some s
  | .ok p =>
      match revokeKey s.keys p id now with
      | .error _ => some s
      | .ok row => some { s with keys := s.keys.update id fun _ => row }

/-- One step. -/
def step (env : Env) (s : State) : Action → Option State
  | .create credential request id encoded now =>
      stepCreate env s credential request id encoded now
  | .rotate credential id grace encoded now => stepRotate env s credential id grace encoded now
  | .revoke credential id now => stepRevoke s credential id now
  | .setTenantStatus tenant status =>
      some { s with tenants := Function.update s.tenants tenant status }

/-- The transition system. -/
def system (env : Env) (tenants : TenantId → TenantStatus) : System State Action :=
  ⟨initial tenants, step env⟩

/-! ## What a step does -/

/-- The row `create_key` makes. -/
theorem createKey_ok {env : Env} {keys : Table KeyId ApiKey} {p : Principal}
    {request : ApiKeyCreateRequest} {secret : Secret} {now : Time} {row : ApiKey}
    (h : createKey env keys p request secret now = .ok row) :
    row.keyHash = env.apiKeyDigest secret ∧ row.hashVersion = env.apiKeyHashVersion ∧
      row.previousKeyHash = none ∧ row.graceExpiresAt = none ∧
      ∀ scope ∈ row.scopes, scope ∈ delegatedScopes p.role := by
  unfold createKey validateDelegation at h
  cases hexpiry : validateExpiry request.expiresAt now with
  | error e =>
      rw [hexpiry] at h
      cases h
  | ok =>
      rw [hexpiry] at h
      by_cases hscopes :
          (request.scopes.all fun scope => (delegatedScopes p.role).contains scope) = true
      · rw [if_pos hscopes] at h
        simp only [bind, Except.bind, pure, Except.pure, throw, throwThe,
          MonadExceptOf.throw] at h
        split at h
        · cases h
        · split at h
          · cases h
          · cases h
            refine ⟨rfl, rfl, rfl, rfl, ?_⟩
            intro scope hscope
            exact List.contains_iff_mem.mp (List.all_eq_true.mp hscopes scope hscope)
      · rw [if_neg hscopes] at h
        cases h

/-- A row shown to a tenant is stored. -/
theorem owned_eq_some {keys : Table KeyId ApiKey} {p : Principal} {id : KeyId} {row : ApiKey}
    (h : owned keys p id = some row) : keys.get? id = some row := by
  unfold owned at h
  exact (Option.filter_eq_some_iff.mp h).1

/-- The cases of a step. -/
inductive StepCase (env : Env) (s : State) : Action → State → Prop
  | created {credential p request id encoded now row}
      (hid : s.keys.get? id = none) (hfresh : s.fresh encoded = true)
      (hauthorized : authorize credential = .ok p)
      (hrow : createKey env s.keys p request (generateApiKey encoded) now = .ok row) :
      StepCase env s (.create credential request id encoded now)
        (s.created p id (generateApiKey encoded) row)
  | rotated {credential p id grace encoded now old} (hfresh : s.fresh encoded = true)
      (hauthorized : authorize credential = .ok p) (hold : owned s.keys p id = some old)
      (hrotatable : old.rotatable now = true) :
      StepCase env s (.rotate credential id grace encoded now)
        (s.replaced p id (generateApiKey encoded)
          (old.rotated env grace (generateApiKey encoded) now))
  | revoked {credential p id now old} (hauthorized : authorize credential = .ok p)
      (hold : owned s.keys p id = some old) :
      StepCase env s (.revoke credential id now)
        { s with keys := s.keys.update id fun _ => old.revoked now }
  | refused {act} (hact : ∀ tenant status, act ≠ .setTenantStatus tenant status)
      (hrotate : ∀ credential p id grace encoded now old,
        act = .rotate credential id grace encoded now → authorize credential = .ok p →
        owned s.keys p id = some old → old.rotatable now = false) :
      StepCase env s act s
  | tenant {tenant status} : StepCase env s (.setTenantStatus tenant status)
      { s with tenants := Function.update s.tenants tenant status }

section Refused

variable {env : Env} {s : State} {credential : Credential} {id : KeyId} {now : Time}

/-- A creation that is refused. -/
theorem refused_create {request : ApiKeyCreateRequest} {encoded : List Char} :
    StepCase env s (.create credential request id encoded now) s := by
  apply StepCase.refused
  · intro tenant status hact
    cases hact
  · intro _ _ _ _ _ _ _ hact
    cases hact

/-- A revocation that is refused. -/
theorem refused_revoke : StepCase env s (.revoke credential id now) s := by
  apply StepCase.refused
  · intro tenant status hact
    cases hact
  · intro _ _ _ _ _ _ _ hact
    cases hact

/-- A rotation that is refused, since there is no row of the tenant that can be rotated. -/
theorem refused_rotate {grace : Nat} {encoded : List Char}
    (hrotate : ∀ p old, authorize credential = .ok p → owned s.keys p id = some old →
      old.rotatable now = false) :
    StepCase env s (.rotate credential id grace encoded now) s := by
  apply StepCase.refused
  · intro tenant status hact
    cases hact
  · intro credential' p id' grace' encoded' now' old hact
    cases hact
    exact hrotate p old

end Refused

/-- **Inversion.**  Every step is one of the cases. -/
theorem step_cases {env : Env} {s s' : State} {act : Action}
    (h : step env s act = some s') : StepCase env s act s' := by
  cases act with
  | create credential request id encoded now =>
      simp only [step, stepCreate] at h
      split at h
      · next hguard =>
          split at h
          · cases h
            exact refused_create
          · next p hauthorized =>
              split at h
              · cases h
                exact refused_create
              · next row hrow =>
                  cases h
                  exact .created hguard.1 hguard.2 hauthorized hrow
      · cases h
  | rotate credential id grace encoded now =>
      simp only [step, stepRotate, rotateKey] at h
      split at h
      · next hfresh =>
          cases hauthorized : authorize credential with
          | error e =>
              rw [hauthorized] at h
              cases h
              apply refused_rotate
              intro p old hok
              rw [hauthorized] at hok
              cases hok
          | ok p =>
              rw [hauthorized] at h
              dsimp only at h
              cases hold : owned s.keys p id with
              | none =>
                  rw [hold] at h
                  cases h
                  apply refused_rotate
                  intro p' old hok howned
                  rw [hauthorized] at hok
                  cases hok
                  rw [hold] at howned
                  cases howned
              | some old =>
                  rw [hold] at h
                  dsimp only at h
                  cases hrotatable : old.rotatable now with
                  | true =>
                      rw [hrotatable, if_pos rfl] at h
                      cases h
                      exact .rotated hfresh hauthorized hold hrotatable
                  | false =>
                      rw [hrotatable, if_neg Bool.false_ne_true] at h
                      cases h
                      apply refused_rotate
                      intro p' old' hok howned
                      rw [hauthorized] at hok
                      cases hok
                      rw [hold] at howned
                      cases howned
                      exact hrotatable
      · cases h
  | revoke credential id now =>
      simp only [step, stepRevoke, revokeKey] at h
      split at h
      · cases h
        exact refused_revoke
      · next p hauthorized =>
          cases hold : owned s.keys p id with
          | none =>
              rw [hold] at h
              cases h
              exact refused_revoke
          | some old =>
              rw [hold] at h
              cases h
              exact .revoked hauthorized hold
  | setTenantStatus tenant status =>
      cases h
      exact .tenant

end ApiKeys
