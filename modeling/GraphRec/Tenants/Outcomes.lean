import GraphRec.Tenants.System

/-!
# How the requests end

`OpEnds` says what a request that has ended wrote, on the store as it was when it ended;
`requests_sound` that every request ends so, whatever runs at the same time.  All later
results are case analyses of `OpEnds` and do not look at the programs again.
-/

namespace Tenants

open Api Transactions Transition
open Auth (TenantId UserId Time User UserStatus Principal)

/-- Nothing but security events is written. -/
def OnlyEvents (s s' : Store) : Prop := ∃ events, s' = { s with securityEvents := events }

theorem OnlyEvents.refl (s : Store) : OnlyEvents s s := ⟨s.securityEvents, rfl⟩

/-- How a call of `register` ends. -/
inductive RegisterEnds (env : Env) (c : RegisterCall) (notes : List Note) (s : Store) :
    Result → Store → Prop
  | replayed {row : RegistrationRequest} {s' : Store} (hrow : s.registrations.get? c.key = some row)
      (hsame : row.request = c.request) (hlast : lastLookup notes = some true)
      (hafter : OnlyEvents s s') :
      RegisterEnds env c notes s (.ok (.registered row.responseBody true)) s'
  | conflict {row : RegistrationRequest} {s' : Store} (hrow : s.registrations.get? c.key = some row)
      (hdiff : row.request ≠ c.request) (hlast : lastLookup notes = some true)
      (hafter : OnlyEvents s s') :
      RegisterEnds env c notes s (.ok (.error idempotencyConflict)) s'
  | denied {e : ApiError} {s' : Store}
      (he : e.code = "duplicate_resource" ∨ e.code = "service_unavailable")
      (hlast : lastLookup notes = some false) (hafter : OnlyEvents s s') :
      RegisterEnds env c notes s (.ok (.error e)) s'
  | created {plan : PlanId} {limits : Limits} {s' : Store} (hcopied : .copied plan limits ∈ notes)
      (hwrite : writeRegistration env c plan limits s = .ok s') :
      RegisterEnds env c notes s (.ok (.registered (c.firstResponse env) false)) s'

/-- What an account setup that commits has checked. -/
structure Activates (payload : SetupPasswordRequest) (now : Time) (notes : List Note) (s : Store)
    (record : SetupTokenRecord) (found : List SetupToken) : Prop where
  token : record.token = payload.setupToken
  consumable : s.consumable record now = true
  activatable : s.activatable record = true
  tokenUser : ∀ row, s.tokens.get? record.token = some row → row.user = record.user
  email : ∀ row, s.users.get? record.user = some row → row.email = record.email
  found : ∀ token, token ∈ found ↔ token ∈ s.openTokens record.user ∧ token ≠ record.token
  checked : ∃ users, .signable users ∈ notes ∧ ∀ user ∈ users, user = record.user

/-- A request that answers with an error, or that the database fails. -/
def Refused : Result → Prop
  | .ok (.error _) | .error _ => True
  | _ => False

/-- A request that decides on a plan request. -/
def Op.decides : Op → Bool
  | .assignTenantPlan .. | .decideRequest .. => true
  | _ => false

/-- How a request ends. -/
inductive OpEnds (env : Env) : Op → List Note → Store → ℕ → Result → Store → Prop
  | register {c : RegisterCall} {notes : List Note} {s : Store} {t : ℕ} {result : Result}
      {s' : Store} (h : RegisterEnds env c notes s result s') :
      OpEnds env (.register c) notes s t result s'
  | unchanged {op : Op} {notes : List Note} {s : Store} {t : ℕ} {result : Result} {s' : Store}
      (hop : ∀ c, op ≠ .register c) (hrefused : Refused result) (hafter : OnlyEvents s s') :
      OpEnds env op notes s t result s'
  | invited {principal : Principal} {payload : TenantUserInvite} {user : UserId}
      {token : SetupToken} {now : Time} {notes : List Note} {s : Store} {t : ℕ} {result : Result}
      {s' : Store} (hwrite : writeInvite env principal.tenant payload user token now s = .ok s') :
      OpEnds env (.inviteUser principal payload user token now) notes s t result s'
  | resent {principal : Principal} {user : UserId} {token : SetupToken} {now : Time}
      {notes : List Note} {s : Store} {t : ℕ} {result : Result} {s' : Store} {row : User}
      {found : List SetupToken} (hrow : s.tenantUser principal.tenant user = some row)
      (hinvited : row.status = .invited) (hfound : ∀ token, token ∈ found ↔ token ∈ s.openTokens user)
      (hwrite : writeResend env principal.tenant user found token now s = .ok s') :
      OpEnds env (.resendInvitation principal user token now) notes s t result s'
  | revoked {principal : Principal} {user : UserId} {now : Time} {notes : List Note} {s : Store}
      {t : ℕ} {result : Result} {row : User} {found : List SetupToken}
      (hrow : s.tenantUser principal.tenant user = some row) (hinvited : row.status = .invited)
      (hfound : ∀ token, token ∈ found ↔ token ∈ s.openTokens user) :
      OpEnds env (.revokeInvitation principal user now) notes s t result
        (writeRevoke principal.tenant user found now s)
  | setUp {payload : SetupPasswordRequest} {now : Time} {notes : List Note} {s : Store} {t : ℕ}
      {result : Result} {record : SetupTokenRecord} {found : List SetupToken}
      (h : Activates payload now notes s record found) :
      OpEnds env (.setupPassword payload now) notes s t result
        (writeSetup record ⟨payload.password, .setup⟩ found now s)
  | planUpdated {plan : PlanId} {payload : PlanUpdate} {conflicts : Conflicts}
      {acknowledged : Bool} {notes : List Note} {s : Store} {t : ℕ} {result : Result}
      {found audited : List TenantId} (hfound : .subscribers found ∈ notes) :
      OpEnds env (.updatePlatformPlan plan payload conflicts acknowledged) notes s t result
        (writePlanUpdate plan payload found audited s)
  | assigned {tenant : TenantId} {plan : PlanId} {conflicts : Conflicts} {acknowledged : Bool}
      {now : Time} {notes : List Note} {s : Store} {t : ℕ} {result : Result} {limits : Limits}
      (hdirect : .direct ∈ notes) (hcopied : .copied plan limits ∈ notes)
      (hsubscribed : (s.subscriptions.get? tenant).isSome = true) :
      OpEnds env (.assignTenantPlan tenant plan conflicts acknowledged now) notes s t result
        (writePlan tenant plan limits s)
  | approved {op : Op} {id : RequestId} {row : PlanChangeRequest} {now : Time} {notes : List Note}
      {s : Store} {t : ℕ} {result : Result} {limits : Limits} (hop : op.decides = true)
      (hrow : s.planRequests.get? id = some row) (hpending : row.status = .pending)
      (hcopied : .copied row.requestedPlan limits ∈ notes)
      (hsubscribed : (s.subscriptions.get? row.tenant).isSome = true) :
      OpEnds env op notes s t result
        (writeDecision id .approved now (writePlan row.tenant row.requestedPlan limits s))
  | rejected {op : Op} {id : RequestId} {row : PlanChangeRequest} {now : Time} {notes : List Note}
      {s : Store} {t : ℕ} {result : Result} (hop : op.decides = true)
      (hrow : s.planRequests.get? id = some row) (hpending : row.status = .pending) :
      OpEnds env op notes s t result (writeDecision id .rejected now s)
  | overridden {tenant : TenantId} {overrides : Limits} {conflicts : Conflicts}
      {acknowledged : Bool} {notes : List Note} {s : Store} {t : ℕ} {result : Result} :
      OpEnds env (.setTenantQuotaOverride tenant overrides conflicts acknowledged) notes s t result
        (writeOverrides tenant overrides s)
  | requested {tenant : TenantId} {planCode : String} {id : RequestId} {now : Time}
      {notes : List Note} {s : Store} {t : ℕ} {result : Result} {s' : Store}
      {row : PlanChangeRequest} (hrequested : .requested row.requestedPlan ∈ notes)
      (htenant : row.tenant = tenant) (hpending : row.status = .pending)
      (hwrite : writePlanRequest id row s = .ok s') :
      OpEnds env (.createPlanRequest tenant planCode id now) notes s t result s'
  | cancelled {tenant : TenantId} {id : RequestId} {now : Time} {notes : List Note} {s : Store}
      {t : ℕ} {result : Result} {s' : Store} (hwrite : writeCancel tenant id now s = .ok s') :
      OpEnds env (.cancelPlanRequest tenant id now) notes s t result s'

/-- A program ends as the request should. -/
abbrev Ends (env : Env) (op : Op) (p : Transaction) (held : List LockKey) (notes : List Note)
    (s : Store) (now : ℕ) : Prop :=
  p.Holds Keeps Grows Valid (OpEnds env op) held notes s now

/-- What a request may find later. -/
abbrev Since (held : List LockKey) (s : Store) (now : ℕ) (s' : Store) (now' : ℕ) : Prop :=
  Later Keeps Grows Valid held s now s' now'

/-- What a request writes keeps to the rules. -/
structure Lawful (held : List LockKey) (s s' : Store) : Prop where
  valid : ForeignKeys s'
  grows : Grows s s'
  keeps : ∀ key, key ∉ held → Keeps key s s'

/-! ## What the requests write is lawful -/

section Lawful

variable {env : Env} {s s' : Store} {held : List LockKey} {user id : UserId} {token : SetupToken}
  {tenant : TenantId} {found : List SetupToken} {now : Time}

/-- A commit, with what it writes. -/
theorem commit_ends {op : Op} {write : Store → Except Constraint Store} {answer : Answer}
    {notes : List Note} {t : ℕ}
    (hok : ∀ s' t' after, Since held s t s' t' → write s' = .ok after →
      OpEnds env op notes s' t' (.ok answer) after ∧ Lawful held s' after)
    (hfails : ∀ s' t' c, Since held s t s' t' → write s' = .error c →
      OpEnds env op notes s' t' (.error c) s') :
    Ends env op (.commit write answer) held notes s t := by
  intro s' t' hsince
  cases hwrite : write s' with
  | error c => exact hfails s' t' c hsince hwrite
  | ok after =>
      obtain ⟨hends, hlawful⟩ := hok s' t' after hsince hwrite
      exact ⟨hends, hlawful.valid, hlawful.grows, hlawful.keeps⟩

/-- A new token of another user. -/
theorem sameTokens_insert {row : AccountSetupToken} (hfresh : s.tokens.get? token = none)
    (hne : row.user ≠ id) (htokens : s'.tokens = s.tokens.insert token row) :
    SameTokens id s s' := by
  intro key old hold
  rw [htokens, Table.get?_insert _ hfresh]
  split
  · next hkey =>
      rw [hkey, hfresh]
      constructor
      · intro h
        cases h
      · intro h
        obtain rfl := Option.some.inj h
        exact absurd hold hne
  · exact Iff.rfl

/-- A recomputation of the tokens of others. -/
theorem sameTokens_updateWhere {f : SetupToken → AccountSetupToken → AccountSetupToken}
    (huser : ∀ token row, (f token row).user = row.user)
    (hsame : ∀ token row, s.tokens.get? token = some row → row.user = id → f token row = row)
    (htokens : s'.tokens = s.tokens.updateWhere f) : SameTokens id s s' := by
  intro key old hold
  rw [htokens, Table.get?_updateWhere]
  constructor
  · intro h
    rw [h, Option.map_some, hsame key old h hold]
  · intro h
    obtain ⟨row, hrow, rfl⟩ := Option.map_eq_some_iff.mp h
    rw [huser] at hold
    rw [hsame key row hrow hold, hrow]

/-- The tokens that are open. -/
theorem mem_openTokens : token ∈ s.openTokens user ↔
    ∃ row, s.tokens.get? token = some row ∧ row.user = user ∧ row.isOpen = true := by
  simp only [Store.openTokens, Store.tokensOf, List.mem_map, List.mem_filter, decide_eq_true_eq]
  constructor
  · rintro ⟨⟨key, row⟩, ⟨⟨hmem, huser⟩, hopen⟩, rfl⟩
    exact ⟨row, (Table.mem_rows_iff s.tokens).mp hmem, huser, hopen⟩
  · rintro ⟨row, hrow, huser, hopen⟩
    exact ⟨(token, row), ⟨⟨(Table.mem_rows_iff s.tokens).mpr hrow, huser⟩, hopen⟩, rfl⟩

theorem tenantUser_eq_some {row : User} : s.tenantUser tenant user = some row ↔
    s.users.get? user = some row ∧ row.tenant = tenant := by
  rw [Store.tenantUser, Option.filter_eq_some_iff, decide_eq_true_eq]

/-- Users and tokens are written by registration, invitations and password setup alone. -/
structure SameMembers (s s' : Store) : Prop where
  tenants : s'.tenants = s.tenants
  users : s'.users = s.users
  tokens : s'.tokens = s.tokens
  registrations : s'.registrations = s.registrations

/-- A request that leaves the members alone. -/
theorem SameMembers.lawful (h : SameMembers s s') (hvalid : ForeignKeys s)
    (hrequests : s.planRequests.Stays SameRequest s'.planRequests)
    (hplans : ∀ id, .plan id ∉ held → s.plans.KeepsRow id s'.plans)
    (hsubscriptions : ∀ tenant, .subscription tenant ∉ held →
      s.subscriptions.KeepsRow tenant s'.subscriptions)
    (hquotas : ∀ tenant, .quota tenant ∉ held → s.quotas.KeepsRow tenant s'.quotas)
    (hlocked : ∀ id, .planRequest id ∉ held → s.planRequests.KeepsRow id s'.planRequests) :
    Lawful held s s' where
  valid := by
    refine ⟨?_, ?_⟩
    · rw [h.users, h.tenants]
      exact hvalid.users
    · rw [h.tokens, h.users]
      exact hvalid.tokens
  grows := by
    refine ⟨?_, ?_, ?_, hrequests⟩
    · rw [h.registrations]
      exact fun key => .refl key s.registrations
    · rw [h.users]
      exact .refl SameAccount.refl s.users
    · rw [h.tokens]
      exact .refl SameToken.refl s.tokens
  keeps := by
    intro key hkey
    cases key with
    | user id =>
        refine ⟨?_, ?_⟩
        · rw [h.users]
          exact .refl id s.users
        · intro _ token row _
          rw [h.tokens]
    | token token =>
        rw [Keeps, h.tokens]
        exact .refl token s.tokens
    | plan id => exact hplans id hkey
    | subscription tenant => exact hsubscriptions tenant hkey
    | quota tenant => exact hquotas tenant hkey
    | planRequest id => exact hlocked id hkey

theorem lawful_onlyEvents (hvalid : ForeignKeys s) (h : OnlyEvents s s') : Lawful held s s' := by
  obtain ⟨events, rfl⟩ := h
  exact SameMembers.lawful ⟨rfl, rfl, rfl, rfl⟩ hvalid (.refl SameRequest.refl _)
    (fun id _ => .refl id _) (fun tenant _ => .refl tenant _) (fun tenant _ => .refl tenant _)
    fun id _ => .refl id _

/-! ### Registration and invitations -/

/-- What a registration that meets no row has found free. -/
theorem writeRegistration_ok {c : RegisterCall} {plan : PlanId} {limits : Limits}
    (h : writeRegistration env c plan limits s = .ok s') :
    s.tenants.get? c.tenant = none ∧ s.users.get? c.user = none ∧ s.tokens.get? c.token = none ∧
      s.subscriptions.get? c.tenant = none ∧ s.quotas.get? c.tenant = none ∧
      s.registrations.get? c.key = none ∧ s.registrationByRequest c.request = none ∧
      s'.tenants = s.tenants.insert c.tenant (c.tenantRow env) ∧
      s'.users = s.users.insert c.user c.administrator ∧
      s'.tokens = s.tokens.insert c.token (issueSetupToken env c.tenant c.user c.now) ∧
      s'.subscriptions = s.subscriptions.insert c.tenant ⟨plan, c.now, c.now + 30 * 86400⟩ ∧
      s'.quotas = s.quotas.insert c.tenant ⟨limits, .empty⟩ ∧
      s'.registrations = s.registrations.insert c.key ⟨c.request, c.tenant, c.response⟩ ∧
      s'.plans = s.plans ∧ s'.planRequests = s.planRequests := by
  unfold writeRegistration Store.registrationClashes at h
  split at h
  · cases h
  · next hfree =>
      cases h
      simp only [Bool.or_eq_true, not_or, Bool.not_eq_true, Option.isSome_eq_false_iff,
        Option.isNone_iff_eq_none] at hfree
      obtain ⟨⟨⟨⟨⟨⟨⟨htenant, -⟩, huser⟩, hsubscription⟩, hquota⟩, hkey⟩, hrequest⟩, htoken⟩ := hfree
      exact ⟨htenant, huser, htoken, hsubscription, hquota, hkey, hrequest, rfl, rfl, rfl, rfl, rfl,
        rfl, rfl, rfl⟩

/-- A new user with its token keeps the foreign keys and the tokens of the others. -/
theorem valid_insertUser {row : User} (hvalid : ForeignKeys s)
    (hfresh : s.users.get? user = none) (htoken : s.tokens.get? token = none)
    (htenant : (s'.tenants.get? row.tenant).isSome = true)
    (htenants : ∀ id, (s.tenants.get? id).isSome = true → (s'.tenants.get? id).isSome = true)
    (husers : s'.users = s.users.insert user row)
    (htokens : s'.tokens = s.tokens.insert token (issueSetupToken env tenant user now)) :
    ForeignKeys s' := by
  refine ⟨?_, ?_⟩
  · rw [husers]
    exact (hvalid.users.mono fun _ old hold => htenants old.tenant hold).insert hfresh htenant
  · rw [htokens, husers]
    refine (hvalid.tokens.mono ?_).insert htoken ?_
    · intro _ old hold
      rw [Table.get?_insert _ hfresh]
      split
      · rfl
      · exact hold
    · simp [issueSetupToken, Table.get?_insert _ hfresh]

/-- What is kept of a user when another is added. -/
theorem keeps_insertUser {row : User} (hfresh : s.users.get? user = none)
    (htoken : s.tokens.get? token = none) (husers : s'.users = s.users.insert user row)
    (htokens : s'.tokens = s.tokens.insert token (issueSetupToken env tenant user now)) :
    Keeps (.user id) s s' := by
  refine ⟨?_, ?_⟩
  · rw [husers]
    exact Table.keepsRow_insert user row id
  · intro hstored
    refine sameTokens_insert htoken ?_ htokens
    rintro rfl
    simp only [issueSetupToken] at hstored
    rw [hfresh] at hstored
    cases hstored

theorem writeRegistration_lawful {c : RegisterCall} {plan : PlanId} {limits : Limits}
    (hvalid : ForeignKeys s) (h : writeRegistration env c plan limits s = .ok s') :
    Lawful held s s' := by
  obtain ⟨htenant, huser, htoken, -, -, -, -, htenants, husers, htokens, hsubscriptions, hquotas,
    hregistrations, hplans, hrequests⟩ := writeRegistration_ok h
  refine ⟨?_, ⟨?_, ?_, ?_, ?_⟩, ?_⟩
  · refine valid_insertUser hvalid huser htoken ?_ ?_ husers htokens
    · rw [htenants, Table.get?_insert _ htenant, RegisterCall.administrator, if_pos rfl,
        Option.isSome_some]
    · intro id hid
      rw [htenants, Table.get?_insert _ htenant]
      split
      · rfl
      · exact hid
  · rw [hregistrations]
    exact fun key => Table.keepsRow_insert c.key _ key
  · rw [husers]
    exact Table.stays_insert SameAccount.refl c.user _
  · rw [htokens]
    exact Table.stays_insert SameToken.refl c.token _
  · rw [hrequests]
    exact .refl SameRequest.refl s.planRequests
  · intro key _
    cases key with
    | user id => exact keeps_insertUser huser htoken husers htokens
    | token token =>
        rw [Keeps, htokens]
        exact Table.keepsRow_insert c.token _ token
    | plan id =>
        rw [Keeps, hplans]
        exact .refl id s.plans
    | subscription tenant =>
        rw [Keeps, hsubscriptions]
        exact Table.keepsRow_insert c.tenant _ tenant
    | quota tenant =>
        rw [Keeps, hquotas]
        exact Table.keepsRow_insert c.tenant _ tenant
    | planRequest id =>
        rw [Keeps, hrequests]
        exact .refl id s.planRequests

/-- What an invitation has found free. -/
theorem writeInvite_ok {payload : TenantUserInvite}
    (h : writeInvite env tenant payload user token now s = .ok s') :
    s.users.get? user = none ∧ s.tokens.get? token = none ∧
      (s.tenants.get? tenant).isSome = true ∧ s.hasMember tenant payload.email = false ∧
      s' = { s with
        users := s.users.insert user (payload.row tenant)
        tokens := s.tokens.insert token (issueSetupToken env tenant user now)
        auditLogs := s.auditLogs ++ [.tenantUserInvited tenant user payload.role] } := by
  unfold writeInvite at h
  split at h
  · cases h
  · next hfree =>
      cases h
      simp only [Bool.or_eq_true, not_or, Bool.not_eq_true, Option.isSome_eq_false_iff,
        Option.isNone_iff_eq_none] at hfree
      obtain ⟨⟨⟨huser, hmember⟩, htoken⟩, htenant⟩ := hfree
      exact ⟨huser, htoken, Option.isSome_iff_ne_none.mpr htenant, hmember, rfl⟩

theorem writeInvite_lawful {payload : TenantUserInvite} (hvalid : ForeignKeys s)
    (h : writeInvite env tenant payload user token now s = .ok s') : Lawful held s s' := by
  obtain ⟨huser, htoken, htenant, -, rfl⟩ := writeInvite_ok h
  refine ⟨?_, ⟨?_, ?_, ?_, ?_⟩, ?_⟩
  · exact valid_insertUser hvalid huser htoken htenant (fun _ hid => hid) rfl rfl
  · exact fun key => .refl key s.registrations
  · exact Table.stays_insert SameAccount.refl user _
  · exact Table.stays_insert SameToken.refl token _
  · exact .refl SameRequest.refl s.planRequests
  · intro key _
    cases key with
    | user id => exact keeps_insertUser huser htoken rfl rfl
    | token key => exact Table.keepsRow_insert token _ key
    | plan | subscription | quota | planRequest => exact Table.KeepsRow.refl _ _

/-! ### Changing an invitation -/

theorem Lawful.trans {s'' : Store} (h : Lawful held s s') (h' : Lawful held s' s'') :
    Lawful held s s'' :=
  ⟨h'.valid, h.grows.trans _ _ _ h'.grows,
    fun key hkey => (h.keeps key hkey).trans key _ _ _ (h'.keeps key hkey)⟩

/-- Closing tokens of a user whose row is locked. -/
theorem lawful_closeTokens (f : SetupToken → AccountSetupToken → AccountSetupToken)
    (hvalid : ForeignKeys s) (huser : .user user ∈ held)
    (hsame : ∀ token row, SameToken row (f token row))
    (hothers : ∀ token row, s.tokens.get? token = some row →
      row.user ≠ user ∨ .token token ∉ held → f token row = row) :
    Lawful held s { s with tokens := s.tokens.updateWhere f } := by
  refine ⟨⟨hvalid.users, ?_⟩, ⟨?_, ?_, ?_, ?_⟩, ?_⟩
  · refine Table.All.updateWhere (hvalid.tokens.mono ?_)
    intro token row hrow
    rw [(hsame token row).user]
    exact hrow
  · exact fun key => .refl key s.registrations
  · exact .refl SameAccount.refl s.users
  · exact Table.stays_updateWhere fun token row _ => hsame token row
  · exact .refl SameRequest.refl s.planRequests
  · intro key hkey
    cases key with
    | user id =>
        refine ⟨.refl id s.users, fun _ => ?_⟩
        refine sameTokens_updateWhere (fun token row => (hsame token row).user) ?_ rfl
        intro token row hrow hid
        refine hothers token row hrow (Or.inl ?_)
        rintro rfl
        exact hkey (hid ▸ huser)
    | token token =>
        exact Table.keepsRow_updateWhere fun row hrow => hothers token row hrow (Or.inr hkey)
    | plan | subscription | quota | planRequest => exact Table.KeepsRow.refl _ _

/-- A new token of a user whose row is locked. -/
theorem lawful_insertToken (row : AccountSetupToken) (hvalid : ForeignKeys s)
    (huser : .user row.user ∈ held) (hstored : (s.users.get? row.user).isSome = true)
    (hfresh : s.tokens.get? token = none) :
    Lawful held s { s with tokens := s.tokens.insert token row } := by
  refine ⟨⟨hvalid.users, hvalid.tokens.insert hfresh hstored⟩, ⟨?_, ?_, ?_, ?_⟩, ?_⟩
  · exact fun key => .refl key s.registrations
  · exact .refl SameAccount.refl s.users
  · exact Table.stays_insert SameToken.refl token row
  · exact .refl SameRequest.refl s.planRequests
  · intro key hkey
    cases key with
    | user id =>
        refine ⟨.refl id s.users, fun _ => sameTokens_insert hfresh ?_ rfl⟩
        rintro rfl
        exact hkey huser
    | token key => exact Table.keepsRow_insert token row key
    | plan | subscription | quota | planRequest => exact Table.KeepsRow.refl _ _

/-- A change of a user whose row is locked. -/
theorem lawful_updateUser (f : User → User) (hvalid : ForeignKeys s) (huser : .user user ∈ held)
    (hsame : ∀ row, SameAccount row (f row)) :
    Lawful held s { s with users := s.users.update user f } := by
  refine ⟨⟨?_, ?_⟩, ⟨?_, ?_, ?_, ?_⟩, ?_⟩
  · refine Table.All.updateWhere (hvalid.users.mono ?_)
    intro id row hrow
    split
    · rw [(hsame row).tenant]
      exact hrow
    · exact hrow
  · refine hvalid.tokens.mono ?_
    intro token row hrow
    rw [Table.get?_update]
    split
    · rw [Option.isSome_map]
      exact hrow
    · exact hrow
  · exact fun key => .refl key s.registrations
  · exact Table.stays_update SameAccount.refl fun row _ => hsame row
  · exact .refl SameToken.refl s.tokens
  · exact .refl SameRequest.refl s.planRequests
  · intro key hkey
    cases key with
    | user id =>
        refine ⟨Table.keepsRow_update ?_ f, fun _ _ _ _ => Iff.rfl⟩
        rintro rfl
        exact hkey huser
    | token | plan | subscription | quota | planRequest => exact Table.KeepsRow.refl _ _

/-- `revoke_open_setup_tokens`, on locked tokens of a locked user. -/
theorem revokeTokens_lawful (now : Time) (hvalid : ForeignKeys s) (huser : .user user ∈ held)
    (hlocked : ∀ token ∈ found, .token token ∈ held)
    (hfound : ∀ token ∈ found, ∀ row, s.tokens.get? token = some row → row.user = user) :
    Lawful held s (s.revokeTokens found now) := by
  refine lawful_closeTokens _ hvalid huser ?_ ?_
  · intro token row
    split
    · refine ⟨rfl, rfl, rfl, ?_⟩
      simp [AccountSetupToken.isOpen]
    · exact SameToken.refl row
  · intro token row hrow hother
    rw [if_neg]
    rintro ⟨hmem, -⟩
    rcases hother with hne | hfree
    · exact hne (hfound token hmem row hrow)
    · exact hfree (hlocked token hmem)

/-- Audit rows and security events are no one's to lock. -/
theorem lawful_logs (hvalid : ForeignKeys s) (audit : List AuditLog)
    (events : List SecurityEvent) :
    Lawful held s { s with auditLogs := audit, securityEvents := events } :=
  SameMembers.lawful ⟨rfl, rfl, rfl, rfl⟩ hvalid (.refl SameRequest.refl _)
    (fun id _ => .refl id _) (fun tenant _ => .refl tenant _) (fun tenant _ => .refl tenant _)
    fun id _ => .refl id _

/-- The open tokens of a user are the user's. -/
theorem openTokens_user (h : token ∈ s.openTokens user) {row : AccountSetupToken}
    (hrow : s.tokens.get? token = some row) : row.user = user := by
  obtain ⟨row', hrow', huser, -⟩ := mem_openTokens.mp h
  rw [hrow] at hrow'
  rw [Option.some.inj hrow']
  exact huser

theorem writeResend_lawful (hvalid : ForeignKeys s) (huser : .user user ∈ held)
    (hstored : (s.users.get? user).isSome = true)
    (hlocked : ∀ token ∈ found, .token token ∈ held)
    (hfound : ∀ token, token ∈ found ↔ token ∈ s.openTokens user)
    (h : writeResend env tenant user found token now s = .ok s') : Lawful held s s' := by
  have hrevoke : Lawful held s (s.revokeTokens found now) :=
    revokeTokens_lawful now hvalid huser hlocked fun token hmem row hrow =>
      openTokens_user ((hfound token).mp hmem) hrow
  unfold writeResend at h
  dsimp only at h
  split at h
  · cases h
  · next hfresh =>
      cases h
      rw [Bool.not_eq_true, Option.isSome_eq_false_iff, Option.isNone_iff_eq_none] at hfresh
      have hinsert := lawful_insertToken (issueSetupToken env tenant user now) hrevoke.valid huser
        hstored hfresh
      exact (hrevoke.trans hinsert).trans (lawful_logs hinsert.valid _ _)

theorem writeRevoke_lawful (hvalid : ForeignKeys s) (huser : .user user ∈ held)
    (hlocked : ∀ token ∈ found, .token token ∈ held)
    (hfound : ∀ token, token ∈ found ↔ token ∈ s.openTokens user) :
    Lawful held s (writeRevoke tenant user found now s) := by
  have hrevoke : Lawful held s (s.revokeTokens found now) :=
    revokeTokens_lawful now hvalid huser hlocked fun token hmem row hrow =>
      openTokens_user ((hfound token).mp hmem) hrow
  have hdisable := lawful_updateUser (fun row =>
    if row.status = .invited then { row with status := .disabled } else row) hrevoke.valid huser (by
      intro row
      split
      · refine ⟨rfl, rfl, ?_⟩
        intro hcontra
        cases hcontra
      · exact SameAccount.refl row)
  exact (hrevoke.trans hdisable).trans (lawful_logs hdisable.valid _ _)

theorem writeSetup_lawful {payload : SetupPasswordRequest} {notes : List Note}
    {record : SetupTokenRecord} {digest : Auth.Digest} (hvalid : ForeignKeys s)
    (huser : .user record.user ∈ held) (htoken : .token record.token ∈ held)
    (hlocked : ∀ token ∈ found, .token token ∈ held)
    (h : Activates payload now notes s record found) :
    Lawful held s (writeSetup record digest found now s) := by
  have hused := lawful_closeTokens (fun key row =>
    if key = record.token then { row with usedAt := some now } else row) hvalid huser (by
      intro token row
      split
      · refine ⟨rfl, rfl, rfl, ?_⟩
        simp [AccountSetupToken.isOpen]
      · exact SameToken.refl row) (by
      intro token row hrow hother
      rw [if_neg]
      rintro rfl
      rcases hother with hne | hfree
      · exact hne (h.tokenUser row hrow)
      · exact hfree htoken)
  have hrevoke := revokeTokens_lawful now hused.valid huser hlocked (by
    intro token hmem row hrow
    obtain ⟨hopen, hne⟩ := (h.found token).mp hmem
    rw [Table.get?_updateWhere, Option.map_eq_some_iff] at hrow
    obtain ⟨old, hold, rfl⟩ := hrow
    rw [if_neg hne]
    exact openTokens_user hopen hold)
  have hactive := lawful_updateUser (fun row =>
    { row with credentialDigest := some digest, status := .active, lastAuthenticatedAt := some now })
    hrevoke.valid huser (by
      intro row
      refine ⟨rfl, rfl, ?_⟩
      intro hcontra
      cases hcontra)
  exact ((hused.trans hrevoke).trans hactive).trans (lawful_logs hactive.valid _ _)

/-! ### Plans -/

variable {plan : PlanId} {request : RequestId}

theorem writePlan_lawful {limits : Limits} (hvalid : ForeignKeys s)
    (hsubscription : .subscription tenant ∈ held) (hquota : .quota tenant ∈ held) :
    Lawful held s (writePlan tenant plan limits s) := by
  refine SameMembers.lawful ⟨rfl, rfl, rfl, rfl⟩ hvalid (.refl SameRequest.refl _)
    (fun id _ => .refl id _) ?_ ?_ fun id _ => .refl id _
  · intro id hid
    refine Table.keepsRow_update ?_ _
    rintro rfl
    exact hid hsubscription
  · intro id hid
    refine Table.keepsRow_update ?_ _
    rintro rfl
    exact hid hquota

/-- A pending request that is locked may be decided. -/
theorem decided_lawful {status : RequestStatus} {row : PlanChangeRequest} (log : AuditLog)
    (hvalid : ForeignKeys s) (hlock : .planRequest request ∈ held)
    (hrow : s.planRequests.get? request = some row) (hpending : row.status = .pending) :
    Lawful held s { s with
      planRequests := s.planRequests.update request fun row =>
        { row with status := status, decidedAt := some now }
      auditLogs := s.auditLogs ++ [log] } := by
  refine SameMembers.lawful ⟨rfl, rfl, rfl, rfl⟩ hvalid ?_ (fun id _ => .refl id _)
    (fun tenant _ => .refl tenant _) (fun tenant _ => .refl tenant _) ?_
  · refine Table.stays_update SameRequest.refl ?_
    intro old hold
    rw [hrow] at hold
    obtain rfl := Option.some.inj hold
    exact ⟨rfl, rfl, fun hdecided => absurd hpending hdecided⟩
  · intro id hid
    refine Table.keepsRow_update ?_ _
    rintro rfl
    exact hid hlock

theorem writeDecision_lawful {status : RequestStatus} {row : PlanChangeRequest}
    (hvalid : ForeignKeys s) (hlock : .planRequest request ∈ held)
    (hrow : s.planRequests.get? request = some row) (hpending : row.status = .pending) :
    Lawful held s (writeDecision request status now s) := by
  unfold writeDecision
  rw [hrow]
  exact decided_lawful _ hvalid hlock hrow hpending

theorem writePlanUpdate_lawful {payload : PlanUpdate} {found audited : List TenantId}
    (hvalid : ForeignKeys s) (hplan : .plan plan ∈ held)
    (hquotas : ∀ tenant ∈ found, .quota tenant ∈ held) :
    Lawful held s (writePlanUpdate plan payload found audited s) := by
  refine SameMembers.lawful ⟨rfl, rfl, rfl, rfl⟩ hvalid (.refl SameRequest.refl _) ?_
    (fun tenant _ => .refl tenant _) ?_ fun id _ => .refl id _
  · intro id hid
    refine Table.keepsRow_update ?_ _
    rintro rfl
    exact hid hplan
  · intro tenant htenant
    refine Table.keepsRow_updateWhere ?_
    intro row _
    rw [if_neg]
    exact fun hmem => htenant (hquotas tenant hmem)

theorem writeOverrides_lawful {overrides : Limits} (hvalid : ForeignKeys s)
    (hquota : .quota tenant ∈ held) : Lawful held s (writeOverrides tenant overrides s) := by
  refine SameMembers.lawful ⟨rfl, rfl, rfl, rfl⟩ hvalid (.refl SameRequest.refl _)
    (fun id _ => .refl id _) (fun tenant _ => .refl tenant _) ?_ fun id _ => .refl id _
  intro id hid
  refine Table.keepsRow_update ?_ _
  rintro rfl
  exact hid hquota

/-- What a new request has found free. -/
theorem writePlanRequest_ok {row : PlanChangeRequest} (h : writePlanRequest request row s = .ok s') :
    s.planRequests.get? request = none ∧ s.pendingRequest row.tenant = none ∧
      row.requestedPlan ≠ row.currentPlan ∧
      s' = { s with
        planRequests := s.planRequests.insert request row
        auditLogs := s.auditLogs ++ [.planRequest row.tenant request .pending] } := by
  unfold writePlanRequest at h
  split at h
  · cases h
  · next hfree =>
      cases h
      simp only [Bool.or_eq_true, not_or, Bool.not_eq_true, Option.isSome_eq_false_iff,
        Option.isNone_iff_eq_none, decide_eq_false_iff_not] at hfree
      exact ⟨hfree.1.1, hfree.1.2, hfree.2, rfl⟩

theorem writePlanRequest_lawful {row : PlanChangeRequest} (hvalid : ForeignKeys s)
    (h : writePlanRequest request row s = .ok s') : Lawful held s s' := by
  obtain ⟨-, -, -, rfl⟩ := writePlanRequest_ok h
  exact SameMembers.lawful ⟨rfl, rfl, rfl, rfl⟩ hvalid
    (Table.stays_insert SameRequest.refl request row) (fun id _ => .refl id _)
    (fun tenant _ => .refl tenant _) (fun tenant _ => .refl tenant _)
    fun id _ => Table.keepsRow_insert request row id

/-- A request that is cancelled was pending. -/
theorem writeCancel_ok (h : writeCancel tenant request now s = .ok s') :
    ∃ row, s.planRequests.get? request = some row ∧ row.status = .pending ∧
      s' = { s with
        planRequests := s.planRequests.update request fun row =>
          { row with status := .cancelled, decidedAt := some now }
        auditLogs := s.auditLogs ++ [.planRequest tenant request .cancelled] } := by
  unfold writeCancel at h
  split at h
  · cases h
  · next row hrow =>
      cases h
      rw [Option.filter_eq_some_iff, decide_eq_true_eq] at hrow
      exact ⟨row, hrow.1, hrow.2, rfl⟩

theorem writeCancel_lawful (hvalid : ForeignKeys s) (hlock : .planRequest request ∈ held)
    (h : writeCancel tenant request now s = .ok s') : Lawful held s s' := by
  obtain ⟨row, hrow, hpending, rfl⟩ := writeCancel_ok h
  exact decided_lawful _ hvalid hlock hrow hpending

/-! ### Every request -/

variable {op : Op} {notes : List Note} {t : ℕ} {result : Result}

/-- Under the locks it takes, every request keeps to the rules. -/
theorem OpEnds.lawful (hvalid : ForeignKeys s) (h : OpEnds env op notes s t result s') :
    ∃ held, Lawful held s s' := by
  cases h with
  | register h =>
      cases h with
      | replayed _ _ _ hafter | conflict _ _ _ hafter | denied _ _ hafter =>
          exact ⟨[], lawful_onlyEvents hvalid hafter⟩
      | created _ hwrite => exact ⟨[], writeRegistration_lawful hvalid hwrite⟩
  | unchanged _ _ hafter => exact ⟨[], lawful_onlyEvents hvalid hafter⟩
  | invited hwrite => exact ⟨[], writeInvite_lawful hvalid hwrite⟩
  | @resent _ user _ _ _ _ _ _ _ row found hrow _ hfound hwrite =>
      refine ⟨.user user :: found.map .token, writeResend_lawful hvalid List.mem_cons_self ?_ ?_
        hfound hwrite⟩
      · rw [(tenantUser_eq_some.mp hrow).1, Option.isSome_some]
      · exact fun token hmem => List.mem_cons_of_mem _ (List.mem_map_of_mem hmem)
  | @revoked _ user _ _ _ _ _ row found _ _ hfound =>
      exact ⟨.user user :: found.map .token, writeRevoke_lawful hvalid List.mem_cons_self
        (fun token hmem => List.mem_cons_of_mem _ (List.mem_map_of_mem hmem)) hfound⟩
  | @setUp _ _ _ _ _ _ record found hactivates =>
      refine ⟨.user record.user :: .token record.token :: found.map .token, writeSetup_lawful
        hvalid List.mem_cons_self (List.mem_cons_of_mem _ List.mem_cons_self) ?_ hactivates⟩
      exact fun token hmem =>
        List.mem_cons_of_mem _ (List.mem_cons_of_mem _ (List.mem_map_of_mem hmem))
  | @planUpdated plan _ _ _ _ _ _ _ found _ _ =>
      exact ⟨.plan plan :: found.map .quota, writePlanUpdate_lawful hvalid List.mem_cons_self
        fun tenant hmem => List.mem_cons_of_mem _ (List.mem_map_of_mem hmem)⟩
  | @assigned tenant =>
      exact ⟨[.quota tenant, .subscription tenant], writePlan_lawful hvalid
        (List.mem_cons_of_mem _ (List.mem_singleton_self _)) List.mem_cons_self⟩
  | @approved _ id row _ _ _ _ _ limits _ hrow hpending _ _ =>
      have hplan : Lawful [.quota row.tenant, .subscription row.tenant, .planRequest id] s
          (writePlan row.tenant row.requestedPlan limits s) :=
        writePlan_lawful hvalid (List.mem_cons_of_mem _ List.mem_cons_self) List.mem_cons_self
      exact ⟨_, hplan.trans (writeDecision_lawful hplan.valid (List.mem_cons_of_mem _
        (List.mem_cons_of_mem _ (List.mem_singleton_self _))) hrow hpending)⟩
  | @rejected _ id _ _ _ _ _ _ _ hrow hpending =>
      exact ⟨[.planRequest id],
        writeDecision_lawful hvalid (List.mem_singleton_self _) hrow hpending⟩
  | @overridden tenant =>
      exact ⟨[.quota tenant], writeOverrides_lawful hvalid (List.mem_singleton_self _)⟩
  | requested _ _ _ hwrite => exact ⟨[], writePlanRequest_lawful hvalid hwrite⟩
  | @cancelled _ id _ _ _ _ _ _ hwrite =>
      exact ⟨[.planRequest id], writeCancel_lawful hvalid (List.mem_singleton_self _) hwrite⟩

/-- How a call of `register` has ended. -/
theorem OpEnds.registered {c : RegisterCall} (h : OpEnds env (.register c) notes s t result s') :
    RegisterEnds env c notes s result s' := by
  cases h with
  | register h => exact h
  | unchanged hop => exact absurd rfl (hop c)
  | approved hop => cases hop
  | rejected hop => cases hop

theorem OpEnds.grows (hvalid : ForeignKeys s) (h : OpEnds env op notes s t result s') :
    Grows s s' := by
  obtain ⟨held, hlawful⟩ := h.lawful hvalid
  exact hlawful.grows

end Lawful

end Tenants
