import GraphRec.Tenants.Plans

/-!
# The requests as transactions

All requests of the development run together as transactions of one store.

* `Keeps` — what a locked row protects: the row, and with the row of a user its setup tokens,
  which change under the lock of the user alone;
* `Grows` — what no request undoes: registrations stay, a user keeps its tenant and address
  and is not invited again, a token stays the user's and closed, a decided plan request
  stays decided;
* `ForeignKeys` — users belong to stored tenants, tokens to stored users.
-/

namespace Tenants

open Transactions
open Auth (TenantId UserId Time User UserStatus Principal)

/-- The requests. -/
inductive Op
  | register (call : RegisterCall)
  | inviteUser (principal : Principal) (payload : TenantUserInvite) (user : UserId)
      (token : SetupToken) (now : Time)
  | resendInvitation (principal : Principal) (user : UserId) (token : SetupToken) (now : Time)
  | revokeInvitation (principal : Principal) (user : UserId) (now : Time)
  | setupPassword (payload : SetupPasswordRequest) (now : Time)
  | updatePlatformPlan (plan : PlanId) (payload : PlanUpdate) (conflicts : Conflicts)
      (acknowledged : Bool)
  | assignTenantPlan (tenant : TenantId) (plan : PlanId) (conflicts : Conflicts)
      (acknowledged : Bool) (now : Time)
  | decideRequest (id : RequestId) (approve : Bool) (conflicts : Conflicts) (acknowledged : Bool)
      (now : Time)
  | setTenantQuotaOverride (tenant : TenantId) (overrides : Limits) (conflicts : Conflicts)
      (acknowledged : Bool)
  | createPlanRequest (tenant : TenantId) (planCode : String) (id : RequestId) (now : Time)
  | cancelPlanRequest (tenant : TenantId) (id : RequestId) (now : Time)
  deriving DecidableEq

/-- The transaction of a request. -/
def program (env : Env) : Op → Transaction
  | .register call => register env call
  | .inviteUser principal payload user token now =>
      inviteUser env principal payload user token now
  | .resendInvitation principal user token now => resendInvitation env principal user token now
  | .revokeInvitation principal user now => revokeInvitation principal user now
  | .setupPassword payload now => setupPassword payload now
  | .updatePlatformPlan plan payload conflicts acknowledged =>
      updatePlatformPlan plan payload conflicts acknowledged
  | .assignTenantPlan tenant plan conflicts acknowledged now =>
      assignTenantPlan tenant plan conflicts acknowledged now
  | .decideRequest id approve conflicts acknowledged now =>
      decideRequest id approve conflicts acknowledged now
  | .setTenantQuotaOverride tenant overrides conflicts acknowledged =>
      setTenantQuotaOverride tenant overrides conflicts acknowledged
  | .createPlanRequest tenant planCode id now => createPlanRequest tenant planCode id now
  | .cancelPlanRequest tenant id now => cancelPlanRequest tenant id now

abbrev Result := Except Constraint Answer
abbrev State := Transactions.State LockKey Store Note Constraint Answer Op
abbrev Entry := Transactions.Entry Store Note Constraint Answer Op

/-- The requests, from the given rows. -/
def requests (env : Env) (first : Store) : Transition.System State (Action Op) :=
  system (program env) first 0

/-! ## What the requests rely on -/

/-- The tokens of a user are the same. -/
def SameTokens (user : UserId) (s s' : Store) : Prop :=
  ∀ token row, row.user = user → (s.tokens.get? token = some row ↔ s'.tokens.get? token = some row)

/-- What a locked row protects; a row that is not stored yet is not locked. -/
def Keeps : LockKey → Store → Store → Prop
  | .user id, s, s' => s.users.KeepsRow id s'.users ∧
      ((s.users.get? id).isSome = true → SameTokens id s s')
  | .token token, s, s' => s.tokens.KeepsRow token s'.tokens
  | .plan id, s, s' => s.plans.KeepsRow id s'.plans
  | .subscription tenant, s, s' => s.subscriptions.KeepsRow tenant s'.subscriptions
  | .quota tenant, s, s' => s.quotas.KeepsRow tenant s'.quotas
  | .planRequest id, s, s' => s.planRequests.KeepsRow id s'.planRequests

/-- A user keeps its tenant and its address, and is not invited again. -/
structure SameAccount (row row' : User) : Prop where
  tenant : row'.tenant = row.tenant
  email : row'.email = row.email
  invited : row'.status = .invited → row.status = .invited

/-- A token stays the user's, with its expiry, and closed. -/
structure SameToken (row row' : AccountSetupToken) : Prop where
  tenant : row'.tenant = row.tenant
  user : row'.user = row.user
  expiresAt : row'.expiresAt = row.expiresAt
  isOpen : row'.isOpen = true → row.isOpen = true

/-- A plan request stays the tenant's, and decided. -/
structure SameRequest (row row' : PlanChangeRequest) : Prop where
  tenant : row'.tenant = row.tenant
  requestedPlan : row'.requestedPlan = row.requestedPlan
  decided : row.status ≠ .pending → row' = row

/-- What no request undoes. -/
structure Grows (s s' : Store) : Prop where
  registrations : ∀ key, s.registrations.KeepsRow key s'.registrations
  users : s.users.Stays SameAccount s'.users
  tokens : s.tokens.Stays SameToken s'.tokens
  planRequests : s.planRequests.Stays SameRequest s'.planRequests

/-- Users belong to stored tenants, and tokens to stored users. -/
structure ForeignKeys (s : Store) : Prop where
  users : s.users.All fun _ row => (s.tenants.get? row.tenant).isSome = true
  tokens : s.tokens.All fun _ row => (s.users.get? row.user).isSome = true

/-- The foreign keys hold at any time. -/
def Valid (s : Store) (_ : ℕ) : Prop := ForeignKeys s


theorem SameAccount.refl (row : User) : SameAccount row row := ⟨rfl, rfl, id⟩

theorem SameAccount.trans (r r' r'' : User) (h : SameAccount r r') (h' : SameAccount r' r'') :
    SameAccount r r'' :=
  ⟨h'.tenant.trans h.tenant, h'.email.trans h.email, fun hr => h.invited (h'.invited hr)⟩

theorem SameToken.refl (row : AccountSetupToken) : SameToken row row := ⟨rfl, rfl, rfl, id⟩

theorem SameToken.trans (r r' r'' : AccountSetupToken) (h : SameToken r r')
    (h' : SameToken r' r'') : SameToken r r'' :=
  ⟨h'.tenant.trans h.tenant, h'.user.trans h.user, h'.expiresAt.trans h.expiresAt,
    fun hr => h.isOpen (h'.isOpen hr)⟩

theorem SameRequest.refl (row : PlanChangeRequest) : SameRequest row row :=
  ⟨rfl, rfl, fun _ => rfl⟩

theorem SameRequest.trans (r r' r'' : PlanChangeRequest) (h : SameRequest r r')
    (h' : SameRequest r' r'') : SameRequest r r'' := by
  refine ⟨h'.tenant.trans h.tenant, h'.requestedPlan.trans h.requestedPlan, ?_⟩
  intro hdecided
  obtain rfl := h.decided hdecided
  exact h'.decided hdecided

theorem Grows.refl (s : Store) : Grows s s :=
  ⟨fun key => .refl key s.registrations, .refl SameAccount.refl s.users,
    .refl SameToken.refl s.tokens, .refl SameRequest.refl s.planRequests⟩

theorem Grows.trans (s s' s'' : Store) (h : Grows s s') (h' : Grows s' s'') : Grows s s'' where
  registrations := fun key => (h.registrations key).trans (h'.registrations key)
  users := h.users.trans SameAccount.trans h'.users
  tokens := h.tokens.trans SameToken.trans h'.tokens
  planRequests := h.planRequests.trans SameRequest.trans h'.planRequests

theorem Keeps.refl (key : LockKey) (s : Store) : Keeps key s s := by
  cases key with
  | user id => exact ⟨.refl id s.users, fun _ _ _ _ => Iff.rfl⟩
  | token | plan | subscription | quota | planRequest => exact Table.KeepsRow.refl _ _

theorem Keeps.trans (key : LockKey) (s s' s'' : Store) (h : Keeps key s s')
    (h' : Keeps key s' s'') : Keeps key s s'' := by
  cases key with
  | user id =>
      refine ⟨h.1.trans h'.1, ?_⟩
      intro hstored token row hrow
      obtain ⟨user, huser⟩ := Option.isSome_iff_exists.mp hstored
      exact (h.2 hstored token row hrow).trans
        (h'.2 (by rw [h.1 user huser, Option.isSome_some]) token row hrow)
  | token | plan | subscription | quota | planRequest => exact Table.KeepsRow.trans h h'

theorem rules : Rules Keeps Grows Valid where
  refl := Keeps.refl
  trans := Keeps.trans
  grows_refl := Grows.refl
  grows_trans := Grows.trans
  tick := fun _ _ _ h _ => h

end Tenants
