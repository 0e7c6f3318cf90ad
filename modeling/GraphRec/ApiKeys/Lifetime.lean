import GraphRec.ApiKeys.System
import Mathlib.Data.List.Nodup
import Mathlib.Data.List.Perm.Subperm

/-!
# The lifetime of a secret

In every run a row holds the digest of the latest secret of its key and, while it names
a previous one, that of the secret before; secrets do not repeat.  So a presented secret
is the latest one of its key or, within the grace period, the one before, and the lookup
in SQL and the check in Python agree on it, save that only the lookup asks for an active
tenant.
-/

namespace ApiKeys

open Transition
open Auth (TenantId Time TenantStatus Role Principal ApiError)

/-! ## One row and its secrets -/

/-- What a row says of the secrets of its key, the latest first. -/
structure RowInv (env : Env) (secrets : List Secret) (row : ApiKey) : Prop where
  current : secrets.head?.map env.apiKeyDigest = some row.keyHash
  version : row.hashVersion = env.apiKeyHashVersion
  previous : ∀ h, row.previousKeyHash = some h →
    row.previousHashVersion = some env.apiKeyHashVersion ∧
      secrets[1]?.map env.apiKeyDigest = some h
  grace : row.graceExpiresAt ≠ none → row.previousKeyHash ≠ none
  scopes : ∀ scope ∈ row.scopes, scope ∈ apiKeyCompatibleScopes

section Row

variable {env : Env} {secrets : List Secret} {row : ApiKey}

/-- The row `create_key` makes. -/
theorem rowInv_created {keys : Table KeyId ApiKey} {p : Principal}
    {request : ApiKeyCreateRequest} {secret : Secret} {now : Time}
    (h : createKey env keys p request secret now = .ok row) : RowInv env [secret] row := by
  obtain ⟨hhash, hversion, hprevious, hgrace, hscopes⟩ := createKey_ok h
  refine ⟨by rw [hhash]; rfl, hversion, ?_, ?_, ?_⟩
  · intro d hd
    rw [hprevious] at hd
    cases hd
  · intro hsome
    exact absurd hgrace hsome
  · intro scope hscope
    exact delegatedScopes_compatible p.role (hscopes scope hscope)

/-- A rotation makes the latest secret the previous one, or forgets it. -/
theorem rowInv_rotated (h : RowInv env secrets row) (grace : Nat) (secret : Secret)
    (now : Time) : RowInv env (secret :: secrets) (row.rotated env grace secret now) := by
  unfold ApiKey.rotated
  by_cases hgrace : 0 < grace
  · rw [if_pos hgrace]
    refine ⟨rfl, rfl, ?_, ?_, h.scopes⟩
    · intro d hd
      obtain rfl := Option.some.inj hd
      refine ⟨by rw [← h.version], ?_⟩
      rw [← h.current, List.getElem?_cons_succ, List.head?_eq_getElem?]
    · intro _ hnone
      cases hnone
  · rw [if_neg hgrace]
    refine ⟨rfl, rfl, ?_, ?_, h.scopes⟩
    · intro d hd
      cases hd
    · intro hsome
      exact absurd rfl hsome

/-- A revocation forgets the previous secret. -/
theorem rowInv_revoked (h : RowInv env secrets row) (now : Time) :
    RowInv env secrets (row.revoked now) where
  current := h.current
  version := h.version
  previous := by
    intro d hd
    cases hd
  grace := fun hsome => absurd rfl hsome
  scopes := h.scopes

/-- The digest of the row is that of the latest secret only. -/
theorem keyHash_eq_iff (h : RowInv env secrets row) (secret : Secret) :
    row.keyHash = env.apiKeyDigest secret ↔ secrets.head? = some secret := by
  have hcurrent := h.current
  constructor
  · intro heq
    obtain ⟨latest, hlatest, hdigest⟩ := Option.map_eq_some_iff.mp hcurrent
    rw [hlatest, env.collisionFree (hdigest.trans heq)]
  · intro heq
    rw [heq] at hcurrent
    exact (Option.some.inj hcurrent).symm

/-- Within the grace period the previous digest is that of the secret before. -/
theorem previousKeyHash_eq_iff (h : RowInv env secrets row) (secret : Secret) {now : Time}
    (hgrace : row.inGrace now = true) :
    row.previousKeyHash = some (env.apiKeyDigest secret) ∧
      row.previousHashVersion = some env.apiKeyHashVersion ↔ secrets[1]? = some secret := by
  have hsome : row.graceExpiresAt ≠ none := by
    intro hnone
    rw [ApiKey.inGrace, hnone] at hgrace
    cases hgrace
  constructor
  · intro hmatch
    obtain ⟨before, hbefore, hdigest⟩ :=
      Option.map_eq_some_iff.mp (h.previous _ hmatch.1).2
    rw [hbefore, env.collisionFree hdigest]
  · intro hbefore
    obtain ⟨d, hd⟩ := Option.ne_none_iff_exists'.mp (h.grace hsome)
    obtain ⟨hversion, hdigest⟩ := h.previous d hd
    rw [hbefore] at hdigest
    exact ⟨by rw [hd, ← hdigest]; rfl, hversion⟩

/-- The secrets a row lets in, by its times and its tenant aside. -/
def Holds (row : ApiKey) (secrets : List Secret) (secret : Secret) (now : Time) : Prop :=
  secrets.head? = some secret ∨ (secrets[1]? = some secret ∧ row.inGrace now = true)

/-- What a row lets in, by its columns. -/
theorem holds_iff (h : RowInv env secrets row) (secret : Secret) (now : Time) :
    Holds row secrets secret now ↔
      row.keyHash = env.apiKeyDigest secret ∨
        ((row.previousKeyHash = some (env.apiKeyDigest secret) ∧
          row.previousHashVersion = some env.apiKeyHashVersion) ∧ row.inGrace now = true) := by
  unfold Holds
  rw [keyHash_eq_iff h]
  constructor
  · rintro (hlatest | ⟨hbefore, hgrace⟩)
    · exact Or.inl hlatest
    · exact Or.inr ⟨(previousKeyHash_eq_iff h secret hgrace).mpr hbefore, hgrace⟩
  · rintro (hlatest | ⟨hmatch, hgrace⟩)
    · exact Or.inl hlatest
    · exact Or.inr ⟨(previousKeyHash_eq_iff h secret hgrace).mp hmatch, hgrace⟩

/-- The condition of the SQL lookup on one row. -/
theorem candidateMatches_iff (h : RowInv env secrets row) (tenants : TenantId → TenantStatus)
    (secret : Secret) (now : Time) :
    candidateMatches tenants (env.apiKeyDigest secret) env.apiKeyHashVersion now row = true ↔
      row.revokedAt = none ∧ row.expired now = false ∧ tenants row.tenant = .active ∧
        Holds row secrets secret now := by
  have hversion := h.version
  rw [holds_iff h]
  simp only [candidateMatches, Bool.and_eq_true, Bool.or_eq_true, decide_eq_true_eq,
    Option.isNone_iff_eq_none, Bool.not_eq_true']
  grind

/-- The check in Python on the same row. -/
theorem verifies_iff (h : RowInv env secrets row) (secret : Secret) (now : Time) :
    verifies env (env.apiKeyDigest secret) now row = true ↔
      row.revokedAt = none ∧ row.expired now = false ∧ Holds row secrets secret now := by
  have hversion := h.version
  have hscopes : (row.scopes.all fun scope => apiKeyCompatibleScopes.contains scope) = true := by
    rw [List.all_eq_true]
    intro scope hscope
    exact List.contains_iff_mem.mpr (h.scopes scope hscope)
  rw [holds_iff h]
  simp only [verifies, hscopes, Bool.and_eq_true, Bool.or_eq_true, decide_eq_true_eq,
    Option.isNone_iff_eq_none, Bool.not_eq_true', and_true]
  grind

end Row

/-! ## The invariant of every run -/

/-- What holds of the rows and of the answers with a secret. -/
structure KeysInv (env : Env) (s : State) : Prop where
  row : ∀ id row, s.keys.get? id = some row → RowInv env (s.secretsOf id) row
  /-- The key of an answer is stored, with the scopes of the answer. -/
  stored : ∀ r ∈ s.returned, ∃ row, s.keys.get? r.key = some row ∧ row.scopes = r.scopes
  distinct : (s.returned.map SecretResponse.secret).Nodup
  shape : ∀ r ∈ s.returned, hasValidSecretShape env r.secret = true

section Invariant

variable {env : Env} {s s' : State} {act : Action}

theorem mem_secretsOf {id : KeyId} {secret : Secret} :
    secret ∈ s.secretsOf id ↔ ∃ r ∈ s.returned, r.key = id ∧ r.secret = secret := by
  simp [State.secretsOf, and_assoc]

/-- A fresh token has the shape of a secret, and its secret was returned to nobody. -/
theorem fresh_spec {encoded : List Char} (h : s.fresh encoded = true) :
    tokenUrlsafe encoded = true ∧ ∀ r ∈ s.returned, r.secret ≠ generateApiKey encoded := by
  rw [State.fresh, Bool.and_eq_true, Bool.not_eq_true'] at h
  refine ⟨h.1, ?_⟩
  intro r hr heq
  have hmem : generateApiKey encoded ∈ s.returned.map SecretResponse.secret :=
    List.mem_map.mpr ⟨r, hr, heq⟩
  rw [List.contains_iff_mem.mpr hmem] at h
  cases h.2

/-- What an answer with a fresh secret adds to the answers. -/
theorem returned_cons (hinv : KeysInv env s) {encoded : List Char}
    (hfresh : s.fresh encoded = true) (r : SecretResponse)
    (hsecret : r.secret = generateApiKey encoded) :
    ((r :: s.returned).map SecretResponse.secret).Nodup ∧
      ∀ r' ∈ r :: s.returned, hasValidSecretShape env r'.secret = true := by
  obtain ⟨hurlsafe, hnew⟩ := fresh_spec hfresh
  constructor
  · rw [List.map_cons, List.nodup_cons]
    refine ⟨?_, hinv.distinct⟩
    intro hmem
    obtain ⟨r', hr', heq⟩ := List.mem_map.mp hmem
    exact hnew r' hr' (heq.trans hsecret)
  · intro r' hr'
    rcases List.mem_cons.mp hr' with rfl | hr'
    · rw [hsecret]
      exact hasValidSecretShape_generate env hurlsafe
    · exact hinv.shape r' hr'

/-- A key without a row has no secrets. -/
theorem secretsOf_absent (hinv : KeysInv env s) {id : KeyId} (h : s.keys.get? id = none) :
    s.secretsOf id = [] := by
  rw [List.eq_nil_iff_forall_not_mem]
  intro secret hsecret
  obtain ⟨r, hr, rfl, _⟩ := mem_secretsOf.mp hsecret
  obtain ⟨row, hrow, _⟩ := hinv.stored r hr
  rw [h] at hrow
  cases hrow

theorem keysInv_created (hinv : KeysInv env s) {p : Principal} {request : ApiKeyCreateRequest}
    {id : KeyId} {encoded : List Char} {now : Time} {row : ApiKey}
    (hid : s.keys.get? id = none) (hfresh : s.fresh encoded = true)
    (hrow : createKey env s.keys p request (generateApiKey encoded) now = .ok row) :
    KeysInv env (s.created p id (generateApiKey encoded) row) := by
  obtain ⟨hdistinct, hshape⟩ := returned_cons hinv hfresh
    ⟨p, id, row.scopes, generateApiKey encoded⟩ rfl
  refine ⟨?_, ?_, hdistinct, hshape⟩
  · intro k row' hk
    rw [State.created, State.secretsOf_cons]
    dsimp only [State.created] at hk ⊢
    rw [Table.get?_insert _ hid] at hk
    by_cases heq : k = id
    · subst heq
      rw [if_pos rfl] at hk ⊢
      obtain rfl := Option.some.inj hk
      rw [secretsOf_absent hinv hid]
      exact rowInv_created hrow
    · rw [if_neg heq] at hk
      rw [if_neg (fun h => heq h.symm)]
      exact hinv.row k row' hk
  · intro r hr
    dsimp only [State.created] at hr ⊢
    rw [Table.get?_insert _ hid]
    rcases List.mem_cons.mp hr with rfl | hr
    · exact ⟨row, if_pos rfl, rfl⟩
    · obtain ⟨row', hrow', hscopes⟩ := hinv.stored r hr
      have hne : r.key ≠ id := by
        intro heq
        rw [heq, hid] at hrow'
        cases hrow'
      exact ⟨row', by rw [if_neg hne]; exact hrow', hscopes⟩

/-- A change of one row that keeps its scopes keeps the keys of the answers stored. -/
theorem stored_update (hinv : KeysInv env s) {id : KeyId} {old new : ApiKey}
    (hold : s.keys.get? id = some old) (hscopes : new.scopes = old.scopes) :
    ∀ r ∈ s.returned, ∃ row, (s.keys.update id fun _ => new).get? r.key = some row ∧
      row.scopes = r.scopes := by
  intro r hr
  rw [Table.get?_update]
  obtain ⟨row, hrow, hsame⟩ := hinv.stored r hr
  by_cases heq : r.key = id
  · rw [heq, hold] at hrow
    obtain rfl := Option.some.inj hrow
    exact ⟨new, by rw [if_pos heq, heq, hold]; rfl, hscopes.trans hsame⟩
  · exact ⟨row, by rw [if_neg heq]; exact hrow, hsame⟩

theorem keysInv_rotated (hinv : KeysInv env s) {p : Principal} {id : KeyId} {grace : Nat}
    {encoded : List Char} {now : Time} {old : ApiKey} (hfresh : s.fresh encoded = true)
    (hold : s.keys.get? id = some old) :
    KeysInv env (s.replaced p id (generateApiKey encoded)
      (old.rotated env grace (generateApiKey encoded) now)) := by
  have hscopes : (old.rotated env grace (generateApiKey encoded) now).scopes = old.scopes := by
    unfold ApiKey.rotated
    split <;> rfl
  obtain ⟨hdistinct, hshape⟩ := returned_cons hinv hfresh
    ⟨p, id, (old.rotated env grace (generateApiKey encoded) now).scopes,
      generateApiKey encoded⟩ rfl
  refine ⟨?_, ?_, hdistinct, hshape⟩
  · intro k row hk
    rw [State.replaced, State.secretsOf_cons]
    dsimp only [State.replaced] at hk ⊢
    rw [Table.get?_update] at hk
    by_cases heq : k = id
    · subst heq
      rw [if_pos rfl, hold] at hk
      obtain rfl := Option.some.inj hk
      rw [if_pos rfl]
      exact rowInv_rotated (hinv.row k old hold) grace _ now
    · rw [if_neg heq] at hk
      rw [if_neg (fun h => heq h.symm)]
      exact hinv.row k row hk
  · intro r hr
    dsimp only [State.replaced] at hr ⊢
    rcases List.mem_cons.mp hr with rfl | hr
    · exact ⟨_, by rw [Table.get?_update, if_pos rfl, hold]; rfl, rfl⟩
    · exact stored_update hinv hold hscopes r hr

theorem keysInv_revoked (hinv : KeysInv env s) {id : KeyId} {now : Time} {old : ApiKey}
    (hold : s.keys.get? id = some old) :
    KeysInv env { s with keys := s.keys.update id fun _ => old.revoked now } := by
  refine ⟨?_, stored_update hinv hold rfl, hinv.distinct, hinv.shape⟩
  intro k row hk
  dsimp only at hk
  rw [Table.get?_update] at hk
  by_cases heq : k = id
  · subst heq
    rw [if_pos rfl, hold] at hk
    obtain rfl := Option.some.inj hk
    exact rowInv_revoked (hinv.row k old hold) now
  · rw [if_neg heq] at hk
    exact hinv.row k row hk

/-- **Step lemma.**  Every step keeps the invariant. -/
theorem keysInv_step (hinv : KeysInv env s) (hstep : step env s act = some s') :
    KeysInv env s' := by
  cases step_cases hstep with
  | created hid hfresh _ hrow => exact keysInv_created hinv hid hfresh hrow
  | rotated hfresh _ hold _ => exact keysInv_rotated hinv hfresh (owned_eq_some hold)
  | revoked _ hold => exact keysInv_revoked hinv (owned_eq_some hold)
  | refused => exact hinv
  | tenant => exact ⟨hinv.row, hinv.stored, hinv.distinct, hinv.shape⟩

theorem keysInv_initial (tenants : TenantId → TenantStatus) :
    KeysInv env (initial tenants) where
  row := by
    intro id row h
    cases h
  stored := by
    intro r hr
    cases hr
  distinct := List.nodup_nil
  shape := by
    intro r hr
    cases hr

/-- **Run lemma.**  The invariant holds along every run. -/
theorem keysInv_run {tenants : TenantId → TenantStatus} {as : List Action}
    (h : Run (system env tenants) anyStep (initial tenants) as s) : KeysInv env s :=
  h.invariant (P := KeysInv env) (fun _ _ _ hnow _ hnext => keysInv_step hnow hnext)
    (keysInv_initial tenants)

end Invariant

/-! ## Who is let in -/

/-- The secret authenticates as the key. -/
def AcceptedAs (env : Env) (s : State) (id : KeyId) (secret : Secret) (now : Time) : Prop :=
  ∃ p, apiKeyPrincipal env s.keys s.tenants secret now = .ok p ∧ p.apiKey = id

section Accepted

variable {env : Env} {s : State} {id : KeyId} {secret : Secret} {now : Time}

/-- A secret belongs to one key. -/
theorem secret_unique (hinv : KeysInv env s) {id' : KeyId} (h : secret ∈ s.secretsOf id)
    (h' : secret ∈ s.secretsOf id') : id = id' := by
  obtain ⟨r, hr, rfl, hsecret⟩ := mem_secretsOf.mp h
  obtain ⟨r', hr', rfl, hsecret'⟩ := mem_secretsOf.mp h'
  have hsame := List.inj_on_of_nodup_map hinv.distinct hr hr' (hsecret.trans hsecret'.symm)
  rw [hsame]

/-- What a row holds is among the secrets of its key. -/
theorem mem_of_holds {row : ApiKey} (h : Holds row (s.secretsOf id) secret now) :
    secret ∈ s.secretsOf id := by
  rcases h with hhead | ⟨hnext, _⟩
  · exact List.mem_of_mem_head? hhead
  · exact List.mem_of_getElem? hnext

/-- The lookup finds the only row that matches. -/
theorem resolve_eq_some_iff (hinv : KeysInv env s) :
    resolveApiKeyCandidate s.keys s.tenants (env.apiKeyDigest secret) env.apiKeyHashVersion
        now = some id ↔
      ∃ row, s.keys.get? id = some row ∧ row.revokedAt = none ∧ row.expired now = false ∧
        s.tenants row.tenant = .active ∧ Holds row (s.secretsOf id) secret now := by
  unfold resolveApiKeyCandidate
  rw [Option.map_eq_some_iff]
  constructor
  · intro h
    obtain ⟨⟨k, row⟩, hfind, rfl⟩ := h
    have hrow := (Table.mem_rows_iff s.keys).mp (List.mem_of_find?_eq_some hfind)
    have hmatch := List.find?_some hfind
    exact ⟨row, hrow, (candidateMatches_iff (hinv.row k row hrow) _ secret now).mp hmatch⟩
  · intro h
    obtain ⟨row, hrow, hlive⟩ := h
    have hmatch := (candidateMatches_iff (hinv.row id row hrow) s.tenants secret now).mpr hlive
    have hmem := (Table.mem_rows_iff s.keys).mpr hrow
    cases hfind : s.keys.rows.find? fun row => candidateMatches s.tenants
        (env.apiKeyDigest secret) env.apiKeyHashVersion now row.2 with
    | none =>
        have hnot := List.find?_eq_none.mp hfind (id, row) hmem
        exact absurd hmatch hnot
    | some found =>
        obtain ⟨k, other⟩ := found
        have hother := (Table.mem_rows_iff s.keys).mp (List.mem_of_find?_eq_some hfind)
        have hmatch' := List.find?_some hfind
        have hlive' := (candidateMatches_iff (hinv.row k other hother) _ secret now).mp hmatch'
        have hk : k = id := secret_unique hinv (mem_of_holds hlive'.2.2.2)
          (mem_of_holds hlive.2.2.2)
        exact ⟨_, rfl, hk⟩

/-- A secret is accepted as the key that the lookup finds: the check passes on its row. -/
theorem acceptedAs_iff (hinv : KeysInv env s) :
    AcceptedAs env s id secret now ↔
      ∃ row, s.keys.get? id = some row ∧ row.revokedAt = none ∧ row.expired now = false ∧
        s.tenants row.tenant = .active ∧ Holds row (s.secretsOf id) secret now := by
  rw [← resolve_eq_some_iff hinv]
  constructor
  · intro h
    obtain ⟨p, hok, rfl⟩ := h
    exact (apiKeyPrincipal_ok hok).1
  · intro hfound
    obtain ⟨row, hrow, hrevoked, hexpired, _, hholds⟩ := (resolve_eq_some_iff hinv).mp hfound
    have hverifies := (verifies_iff (hinv.row id row hrow) secret now).mpr
      ⟨hrevoked, hexpired, hholds⟩
    obtain ⟨r, hr, _, rfl⟩ := mem_secretsOf.mp (mem_of_holds hholds)
    refine ⟨⟨id, row.tenant, row.scopes⟩, ?_, rfl⟩
    simp only [apiKeyPrincipal, hinv.shape r hr, Bool.true_eq_false, if_false, hfound, hrow,
      hverifies, if_true]

/-- The secrets of a key do not repeat. -/
theorem secretsOf_nodup (hinv : KeysInv env s) : (s.secretsOf id).Nodup :=
  hinv.distinct.sublist (List.filter_sublist.map SecretResponse.secret)

/-- What is held is one of the two latest secrets. -/
theorem mem_take_of_holds {row : ApiKey} (h : Holds row (s.secretsOf id) secret now) :
    secret ∈ (s.secretsOf id).take 2 := by
  rcases h with hhead | ⟨hnext, _⟩
  · rw [List.head?_eq_getElem?] at hhead
    exact List.mem_of_getElem? (i := 0) (by rw [List.getElem?_take, if_pos (by omega), hhead])
  · exact List.mem_of_getElem? (i := 1) (by rw [List.getElem?_take, if_pos (by omega), hnext])

end Accepted

/-- What is promised of the secrets in a state; the lookup hides nothing from the check
where the status of the tenant meets `visible`. -/
structure SecretLifetime (env : Env) (s : State) (visible : TenantStatus → Prop) : Prop where
  /-- Which secrets are accepted as a key. -/
  accepted : ∀ id row secret now, s.keys.get? id = some row →
    (AcceptedAs env s id secret now ↔
      row.revokedAt = none ∧ row.expired now = false ∧ s.tenants row.tenant = .active ∧
        ((s.secretsOf id).head? = some secret ∨
          ((s.secretsOf id)[1]? = some secret ∧ row.inGrace now = true)))
  /-- Secrets before the two latest are accepted as no key. -/
  older : ∀ id i secret now p, 2 ≤ i → (s.secretsOf id)[i]? = some secret →
    apiKeyPrincipal env s.keys s.tenants secret now ≠ .ok p
  atMostTwo : ∀ id now (secrets : List Secret), secrets.Nodup →
    (∀ secret ∈ secrets, AcceptedAs env s id secret now) → secrets.length ≤ 2
  lookup : ∀ id row secret now, s.keys.get? id = some row → visible (s.tenants row.tenant) →
    verifies env (env.apiKeyDigest secret) now row = true →
    resolveApiKeyCandidate s.keys s.tenants (env.apiKeyDigest secret) env.apiKeyHashVersion
      now = some id

/-- **The lifetime of a secret**, in every state of every run; the lookup hides nothing
where the tenant is active. -/
theorem secret_lifetime {env : Env} {tenants : TenantId → TenantStatus} {as : List Action}
    {s : State} (hrun : Run (system env tenants) anyStep (initial tenants) as s) :
    SecretLifetime env s fun status => status = .active := by
  have hinv := keysInv_run hrun
  refine ⟨?_, ?_, ?_, ?_⟩
  · intro id row secret now hrow
    rw [acceptedAs_iff hinv]
    constructor
    · intro h
      obtain ⟨row', hrow', hlive⟩ := h
      obtain rfl := Option.some.inj (hrow'.symm.trans hrow)
      exact hlive
    · intro hlive
      exact ⟨row, hrow, hlive⟩
  · intro id i secret now p hi hsecret hok
    obtain ⟨row, _, _, _, _, hholds⟩ := (acceptedAs_iff hinv).mp ⟨p, hok, rfl⟩
    have hid : p.apiKey = id :=
      secret_unique hinv (mem_of_holds hholds) (List.mem_of_getElem? hsecret)
    obtain ⟨j, hj⟩ := List.getElem?_of_mem (mem_take_of_holds hholds)
    rw [List.getElem?_take, hid] at hj
    split at hj
    · next hlt =>
        have hsame : i = j := by
          obtain ⟨hi', hival⟩ := List.getElem?_eq_some_iff.mp hsecret
          obtain ⟨hj', hjval⟩ := List.getElem?_eq_some_iff.mp hj
          exact (secretsOf_nodup hinv).getElem_inj_iff.mp (hival.trans hjval.symm)
        omega
    · cases hj
  · intro id now secrets hnodup haccepted
    have hsubset : secrets ⊆ (s.secretsOf id).take 2 := by
      intro secret hsecret
      obtain ⟨row, _, _, _, _, hholds⟩ := (acceptedAs_iff hinv).mp (haccepted secret hsecret)
      exact mem_take_of_holds hholds
    have hlength := (List.subperm_of_subset hnodup hsubset).length_le
    rw [List.length_take] at hlength
    omega
  · intro id row secret now hrow hactive hverifies
    obtain ⟨hrevoked, hexpired, hholds⟩ :=
      (verifies_iff (hinv.row id row hrow) secret now).mp hverifies
    exact (resolve_eq_some_iff hinv).mpr
      ⟨row, hrow, hrevoked, hexpired, hactive, hholds⟩

/-! ## A key that is rotated, and a suspended tenant -/

/-- Digests are the secrets themselves, and two keys may be active. -/
def plainEnv : Env where
  apiKeyDigest := id
  collisionFree := Function.injective_id
  isalnum := Char.isAlphanum
  isalnum_ascii := fun _ h => h
  apiKeyHashVersion := 1
  maxActiveApiKeysPerTenant := 2

/-- A token of one repeated character. -/
def repeated (c : Char) : List Char := List.replicate 43 c

/-- An administrator of tenant 1. -/
def administrator : Credential :=
  .bearer ⟨1, 1, .tenantAdministrator, Auth.roleScopes .tenantAdministrator, false⟩

/-- Key 1 is created and rotated twice, the second time with a grace period. -/
def rotatedTwice : List Action :=
  [.create administrator ⟨"shop", ["training:write"], some ⟨100, true⟩⟩ 1 (repeated 'a') 10,
    .rotate administrator 1 5 (repeated 'b') 20, .rotate administrator 1 5 (repeated 'c') 30]

/-- The latest secret and the one before are accepted at 34, the first one is not. -/
theorem secret_lifetime_rotated :
    ∃ s, Run (system plainEnv fun _ => .active) anyStep (initial fun _ => .active)
        rotatedTwice s ∧
      AcceptedAs plainEnv s 1 (generateApiKey (repeated 'c')) 34 ∧
      AcceptedAs plainEnv s 1 (generateApiKey (repeated 'b')) 34 ∧
      ∀ p, apiKeyPrincipal plainEnv s.keys s.tenants (generateApiKey (repeated 'a')) 34 ≠
        .ok p := by
  have hdone : (exec (system plainEnv fun _ => .active) (initial fun _ => .active)
      rotatedTwice).map (fun s => (s.keys.get? 1, s.secretsOf 1, s.tenants 1)) =
      some (some ⟨1, "shop", generateApiKey (repeated 'c'), 1, ["training:write"], some 100,
          none, some (generateApiKey (repeated 'b')), some 1, some 35⟩,
        [generateApiKey (repeated 'c'), generateApiKey (repeated 'b'),
          generateApiKey (repeated 'a')], .active) := by
    decide +kernel
  obtain ⟨s, hexec, hs⟩ := Option.map_eq_some_iff.mp hdone
  simp only [Prod.mk.injEq] at hs
  obtain ⟨hrow, hsecrets, htenant⟩ := hs
  have hrun := run_of_exec hexec
  have hlifetime := secret_lifetime hrun
  refine ⟨s, hrun, ?_, ?_, ?_⟩
  · apply (hlifetime.accepted 1 _ _ 34 hrow).mpr
    exact ⟨rfl, rfl, htenant, Or.inl (by rw [hsecrets]; rfl)⟩
  · apply (hlifetime.accepted 1 _ _ 34 hrow).mpr
    exact ⟨rfl, rfl, htenant, Or.inr ⟨by rw [hsecrets]; rfl, rfl⟩⟩
  · intro p
    exact hlifetime.older 1 2 _ 34 p (by omega) (by rw [hsecrets]; rfl)

/-- **The lookup hides the secrets of a suspended tenant**, which the check on the row
would accept. -/
theorem lookup_hides_suspended :
    ¬ ∀ (as : List Action) (s : State),
      Run (system plainEnv fun _ => .active) anyStep (initial fun _ => .active) as s →
      SecretLifetime plainEnv s fun _ => True := by
  intro hall
  have hdone : (exec (system plainEnv fun _ => .active) (initial fun _ => .active)
      (rotatedTwice ++ [.setTenantStatus 1 .suspended])).map (fun s =>
        (s.keys.get? 1, resolveApiKeyCandidate s.keys s.tenants
          (generateApiKey (repeated 'c')) 1 34)) =
      some (some ⟨1, "shop", generateApiKey (repeated 'c'), 1, ["training:write"], some 100,
          none, some (generateApiKey (repeated 'b')), some 1, some 35⟩, none) := by
    decide +kernel
  obtain ⟨s, hexec, hs⟩ := Option.map_eq_some_iff.mp hdone
  simp only [Prod.mk.injEq] at hs
  obtain ⟨hrow, hnone⟩ := hs
  have hlifetime := hall _ s (run_of_exec hexec)
  have hfound := hlifetime.lookup 1 _ (generateApiKey (repeated 'c')) 34 hrow trivial (by decide)
  exact Option.some_ne_none 1 (hfound.symm.trans hnone)

end ApiKeys
