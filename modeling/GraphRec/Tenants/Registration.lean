import GraphRec.Tenants.Soundness

/-!
# Registration and its idempotency key

`register` looks its key up, then the payload, the address and the name, and inserts at last.
The key is looked up again when the insert is rejected, but not when the payload or the
address turns out to be taken: a call that is overtaken there, by the registration it repeats, is
refused as a duplicate.

`register_honours_key` — a key and a payload create one tenant at most, with all that belongs
to it, and a call that repeats a key is answered as it should be just when it is not
overtaken.
-/

namespace Tenants

open Api Transactions Transition
open Auth (TenantId UserId Time User UserStatus Principal)

/-! ## What a call should do -/

/-- The call created its tenant, and answered so. -/
def Creates (e : Entry) (c : RegisterCall) (response : TenantRegistrationResponse) : Prop :=
  e.op = .register c ∧ e.result = .ok (.registered response false)

/-- The response without the setup token. -/
def TenantRegistrationResponse.withoutToken (response : TenantRegistrationResponse) :
    TenantRegistrationResponse :=
  { response with setupToken := none, setupTokenExpiresAt := none }

/-- The call that comes later, under the key of one that created its tenant: the first response
again, without a token, for the same payload, and a conflict for another. -/
def Honours (c : RegisterCall) (response : TenantRegistrationResponse) (c' : RegisterCall)
    (e' : Entry) : Prop :=
  (c.request = c'.request → e'.result = .ok (.registered response.withoutToken true)) ∧
    (c.request ≠ c'.request → e'.result = .ok (.error idempotencyConflict))

/-- The call found its key unused when it looked it up the last time: a call that creates a tenant
under the key has committed after that. -/
def Overtaken (e : Entry) : Prop := lastLookup e.notes = some false

instance (e : Entry) : Decidable (Overtaken e) := inferInstanceAs (Decidable (_ = _))

/-- The tenant of a call is new, and comes with one user, who is the invited administrator, one
subscription and one quota; no other tenant and no other user is written. -/
structure ComesComplete (env : Env) (c : RegisterCall) (s s' : Store) : Prop where
  fresh : s.tenants.get? c.tenant = none
  tenants : ∀ id, s'.tenants.get? id =
    if id = c.tenant then some (c.tenantRow env) else s.tenants.get? id
  administrator : ∀ id row, s'.users.get? id = some row ∧ row.tenant = c.tenant ↔
    id = c.user ∧ row = c.administrator
  otherUsers : ∀ id, id ≠ c.user → s'.users.get? id = s.users.get? id
  subscription : s.subscriptions.get? c.tenant = none ∧
    (s'.subscriptions.get? c.tenant).isSome = true
  quota : s.quotas.get? c.tenant = none ∧ (s'.quotas.get? c.tenant).isSome = true

/-! ## What a call does -/

section Calls

variable {env : Env} {s s' : Store} {c : RegisterCall}

theorem writeRegistration_complete {plan : PlanId} {limits : Limits} (hvalid : ForeignKeys s)
    (h : writeRegistration env c plan limits s = .ok s') : ComesComplete env c s s' := by
  obtain ⟨htenant, huser, -, hsubscription, hquota, -, -, htenants, husers, -, hsubscriptions,
    hquotas, -, -, -⟩ := writeRegistration_ok h
  refine ⟨htenant, ?_, ?_, ?_, ⟨hsubscription, ?_⟩, ⟨hquota, ?_⟩⟩
  · intro id
    rw [htenants, Table.get?_insert _ htenant]
  · intro id row
    rw [husers, Table.get?_insert _ huser]
    constructor
    · rintro ⟨hrow, hmember⟩
      split at hrow
      · next hid => exact ⟨hid, (Option.some.inj hrow).symm⟩
      · have hstored : (s.tenants.get? row.tenant).isSome = true := hvalid.users id row hrow
        rw [hmember, htenant] at hstored
        cases hstored
    · rintro ⟨rfl, rfl⟩
      exact ⟨if_pos rfl, rfl⟩
  · intro id hne
    rw [husers, Table.get?_insert _ huser, if_neg hne]
  · rw [hsubscriptions, Table.get?_insert _ hsubscription, if_pos rfl, Option.isSome_some]
  · rw [hquotas, Table.get?_insert _ hquota, if_pos rfl, Option.isSome_some]

variable {notes : List Note} {result : Result}

/-- A call that answers with a first response has inserted its rows. -/
theorem RegisterEnds.creates {response : TenantRegistrationResponse}
    (h : RegisterEnds env c notes s result s') (hresult : result = .ok (.registered response false)) :
    response = c.firstResponse env ∧
      ∃ plan limits, writeRegistration env c plan limits s = .ok s' := by
  cases h with
  | replayed | conflict | denied => cases hresult
  | created _ hwrite =>
      cases hresult
      exact ⟨rfl, _, _, hwrite⟩

/-- A call that does not records security events at most. -/
theorem RegisterEnds.creates_not (h : RegisterEnds env c notes s result s')
    (hresult : ∀ response, result ≠ .ok (.registered response false)) : OnlyEvents s s' := by
  cases h with
  | replayed _ _ _ hafter | conflict _ _ _ hafter | denied _ _ hafter => exact hafter
  | created => exact absurd rfl (hresult _)

/-- A call under a key that is used answers from the row of the key, or is overtaken. -/
theorem RegisterEnds.under_key {row : RegistrationRequest}
    (h : RegisterEnds env c notes s result s') (hrow : s.registrations.get? c.key = some row) :
    (row.request = c.request → result = .ok (.registered row.responseBody true)) ∧
        (row.request ≠ c.request → result = .ok (.error idempotencyConflict)) ↔
      ¬ lastLookup notes = some false := by
  cases h with
  | replayed hrow' hsame hlast =>
      rw [hrow] at hrow'
      obtain rfl := Option.some.inj hrow'
      exact ⟨fun _ => by simp [hlast], fun _ => ⟨fun _ => rfl, fun hdiff => absurd hsame hdiff⟩⟩
  | conflict hrow' hdiff hlast =>
      rw [hrow] at hrow'
      obtain rfl := Option.some.inj hrow'
      exact ⟨fun _ => by simp [hlast], fun _ => ⟨fun hsame => absurd hsame hdiff, fun _ => rfl⟩⟩
  | denied he hlast =>
      refine ⟨?_, fun hno => absurd hlast hno⟩
      rintro ⟨hsame, hdiff⟩
      exfalso
      by_cases hrequest : row.request = c.request
      · cases hsame hrequest
      · cases hdiff hrequest
        rcases he with he | he <;> exact absurd he (by decide)
  | created _ hwrite =>
      obtain ⟨-, -, -, -, -, hkey, -⟩ := writeRegistration_ok hwrite
      rw [hrow] at hkey
      cases hkey

end Calls

/-- The row that a call leaves under its key. -/
def RegisterCall.registration (c : RegisterCall) : RegistrationRequest :=
  ⟨c.request, c.tenant, c.response⟩

/-- What a call that created its tenant leaves. -/
def LeavesRegistration (e : Entry) (s : Store) : Prop :=
  ∀ c response, Creates e c response →
    s.registrations.get? c.key = some c.registration ∧ response.withoutToken = c.response

/-- Two calls, the first of which created its tenant: the other creates no tenant under the key
or for the payload, and under the key it is answered as it should be unless it is overtaken. -/
def Registers (e e' : Entry) : Prop :=
  ∀ c response c', Creates e c response → e'.op = .register c' →
    (∀ response', Creates e' c' response' → c'.key ≠ c.key ∧ c'.request ≠ c.request) ∧
      (c'.key = c.key → (Honours c response c' e' ↔ ¬ Overtaken e'))

theorem registers_of_leaves {env : Env} {e e' : Entry} {t : ℕ} (hleft : LeavesRegistration e e'.before)
    (hgood : OpEnds env e'.op e'.notes e'.before t e'.result e'.after) : Registers e e' := by
  intro c response c' hcreates hop
  obtain ⟨hrow, hresponse⟩ := hleft c response hcreates
  rw [hop] at hgood
  have hends := hgood.registered
  refine ⟨?_, ?_⟩
  · rintro response' ⟨-, hresult⟩
    obtain ⟨-, plan, limits, hwrite⟩ := hends.creates hresult
    obtain ⟨-, -, -, -, -, hkey, hrequest, -⟩ := writeRegistration_ok hwrite
    constructor
    · intro hsame
      rw [hsame, hrow] at hkey
      cases hkey
    · intro hsame
      rw [Store.registrationByRequest, Option.map_eq_none_iff, List.find?_eq_none] at hrequest
      have hmem := (Table.mem_rows_iff e'.before.registrations).mpr hrow
      exact hrequest _ hmem (decide_eq_true hsame.symm)
  · intro hsame
    rw [← hsame] at hrow
    rw [Honours, hresponse]
    exact hends.under_key hrow

/-! ## What a history of calls does -/

/-- Two calls that created a tenant differ in the key and in the payload. -/
def CreatedOnce (log : List Entry) : Prop :=
  log.Pairwise fun e e' => ∀ c response c' response', Creates e c response →
    Creates e' c' response' → c'.key ≠ c.key ∧ c'.request ≠ c.request

/-- Each call created its tenant with all that belongs to it, or wrote security events at
most. -/
def CreatedWhole (env : Env) (log : List Entry) : Prop :=
  ∀ e ∈ log, ∀ c, e.op = .register c →
    ((∃ response, Creates e c response) ∧ ComesComplete env c e.before e.after) ∨
      ((¬ ∃ response, Creates e c response) ∧ OnlyEvents e.before e.after)

/-- Two calls under one key, the first of which created its tenant, are related. -/
def UnderOneKey (log : List Entry)
    (related : RegisterCall → TenantRegistrationResponse → RegisterCall → Entry → Prop) : Prop :=
  log.Pairwise fun e e' => ∀ c response c', Creates e c response → e'.op = .register c' →
    c'.key = c.key → related c response c' e'

/-- **Registration and its key.**  Of the calls that have ended, in the order in which they
ended: two that created a tenant differ in the key and in the payload; each created a tenant with
one invited administrator, one subscription and one quota, or wrote security events at
most; and a call under the key of one that created its tenant returns the first response
without the token, or a conflict for another payload, just when it is not overtaken. -/
theorem register_honours_key {env : Env} {first : Store} (hfirst : ForeignKeys first)
    {as : List (Action Op)} {st : State}
    (h : Run (requests env first) anyStep (requests env first).init as st) :
    CreatedOnce st.log ∧ CreatedWhole env st.log ∧
      UnderOneKey st.log fun c response c' e' =>
        Honours c response c' e' ↔ ¬ Overtaken e' := by
  obtain ⟨t, -, hserial⟩ := (requests_sound hfirst h).serial
  have hpairs : st.log.Pairwise Registers := by
    refine (hserial.pairwise (K := LeavesRegistration) ?_ ?_ ?_).1
    · rintro e hvalid hgood c response ⟨hop, hresult⟩
      rw [hop] at hgood
      obtain ⟨rfl, plan, limits, hwrite⟩ := hgood.registered.creates hresult
      obtain ⟨-, -, -, -, -, hkey, -, -, -, -, -, -, hregistrations, -⟩ := writeRegistration_ok hwrite
      refine ⟨?_, rfl⟩
      rw [hregistrations, Table.get?_insert _ hkey, if_pos rfl]
      rfl
    · intro e op notes s t result s' hvalid hleft hgood c response hcreates
      obtain ⟨hrow, hresponse⟩ := hleft c response hcreates
      exact ⟨(hgood.grows hvalid).registrations _ _ hrow, hresponse⟩
    · intro e e' _ hleft hgood
      exact registers_of_leaves hleft hgood
  refine ⟨hpairs.imp ?_, ?_, hpairs.imp ?_⟩
  · intro e e' hregisters c response c' response' hcreates hcreates'
    exact (hregisters c response c' hcreates hcreates'.1).1 response' hcreates'
  · intro e he c hop
    obtain ⟨hvalid, hgood⟩ := hserial.each he
    rw [hop] at hgood
    by_cases hcreates : ∃ response, Creates e c response
    · obtain ⟨response, hresponse⟩ := hcreates
      obtain ⟨-, plan, limits, hwrite⟩ := hgood.registered.creates hresponse.2
      exact Or.inl ⟨⟨response, hresponse⟩, writeRegistration_complete hvalid hwrite⟩
    · refine Or.inr ⟨hcreates, hgood.registered.creates_not ?_⟩
      exact fun response hresult => hcreates ⟨response, hop, hresult⟩
  · intro e e' hregisters c response c' hcreates hop hkey
    exact (hregisters c response c' hcreates hop).2 hkey

/-! ## Two calls with one key -/

/-- The functions the service calls. -/
def plainEnv : Env := ⟨id, id, 86400, by decide⟩

def freeLimits : Limits := Table.empty.insert "stored_products" 5000

/-- A new deployment, with its free plan. -/
def newDeployment : Store where
  plans := Table.empty.insert 1 ⟨"free", "Free demo", freeLimits, true⟩
  tenants := .empty
  users := .empty
  tokens := .empty
  subscriptions := .empty
  quotas := .empty
  registrations := .empty
  planRequests := .empty
  auditLogs := []
  securityEvents := []

theorem newDeployment_valid : ForeignKeys newDeployment := ⟨.empty _, .empty _⟩

/-- A call under one key for one payload; the identifiers are its own. -/
def acmeCall (id : ℕ) : RegisterCall := ⟨"key", ⟨"acme", "ada@acme"⟩, id, id, id, 100⟩

/-- One call after the other. -/
def replayedCall : List (Action Op) :=
  [.start 0 (.register (acmeCall 10))] ++ statements 0 8 ++
    [.start 1 (.register (acmeCall 20))] ++ statements 1 3

/-- The second call looks its key up before the first has committed, and the payload after it. -/
def racedCall : List (Action Op) :=
  [.start 0 (.register (acmeCall 10)), .start 1 (.register (acmeCall 20)), .run 1] ++
    statements 0 8 ++ statements 1 3

/-- The second call returns the first response without the token. -/
theorem register_honours_key_replayed :
    ∃ st, Run (requests plainEnv newDeployment) anyStep (requests plainEnv newDeployment).init
        replayedCall st ∧
      st.log.map Transactions.Entry.result =
        [.ok (.registered ((acmeCall 10).firstResponse plainEnv) false),
          .ok (.registered (acmeCall 10).response true)] ∧
      CreatedOnce st.log ∧ CreatedWhole plainEnv st.log ∧
      UnderOneKey st.log fun c response c' e' => Honours c response c' e' ↔ ¬ Overtaken e' := by
  have hdone : (exec (requests plainEnv newDeployment) (requests plainEnv newDeployment).init
      replayedCall).map (fun st => st.log.map Transactions.Entry.result) =
      some [.ok (.registered ((acmeCall 10).firstResponse plainEnv) false),
        .ok (.registered (acmeCall 10).response true)] := by
    decide +kernel
  obtain ⟨st, hexec, hst⟩ := Option.map_eq_some_iff.mp hdone
  have hrun := run_of_exec hexec
  exact ⟨st, hrun, hst, register_honours_key newDeployment_valid hrun⟩

/-- The second call is refused as a duplicate of the first, which it repeats. -/
theorem racedCall_denied :
    ¬ ∀ (as : List (Action Op)) (st : State),
      Run (requests plainEnv newDeployment) anyStep (requests plainEnv newDeployment).init as st →
      UnderOneKey st.log Honours := by
  intro hall
  have hdone : (exec (requests plainEnv newDeployment) (requests plainEnv newDeployment).init
      racedCall).map (fun st => st.log.map fun e => (e.op, e.result)) =
      some [(.register (acmeCall 10),
          .ok (.registered ((acmeCall 10).firstResponse plainEnv) false)),
        (.register (acmeCall 20), .ok (.error (duplicateError true true)))] := by
    decide +kernel
  obtain ⟨st, hexec, hst⟩ := Option.map_eq_some_iff.mp hdone
  have hkeys := hall racedCall st (run_of_exec hexec)
  obtain ⟨e, rest, hlog, he, hrest⟩ := List.map_eq_cons_iff.mp hst
  obtain ⟨e', rest', hlog', he', -⟩ := List.map_eq_cons_iff.mp hrest
  obtain ⟨hop, hresult⟩ := Prod.mk.inj he
  obtain ⟨hop', hresult'⟩ := Prod.mk.inj he'
  rw [UnderOneKey, hlog, hlog'] at hkeys
  have hpair := List.rel_of_pairwise_cons hkeys List.mem_cons_self
  have hreplayed := (hpair _ _ _ ⟨hop, hresult⟩ hop' rfl).1 rfl
  rw [hresult'] at hreplayed
  cases hreplayed

end Tenants
