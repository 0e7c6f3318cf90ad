import GraphRec.Lib.Transition
import GraphRec.Auth.Account
import Mathlib.Logic.Function.Basic

/-!
# Authentication as a transition system

Any number of calls of `login`, `refresh`, `logout`, `recover_password` and
`update_user` run at once, statement by statement, on one database.  Statements
read what is committed; an `UPDATE` waits for the locks of its rows, looks at them
again, and its writes become visible at the commit, when the locks are released.

* `begin` — the first statements of a call, up to its first write: what a login
  resolves and verifies, the session a refresh presents;
* `consume` — the guarded update of the presented session;
* `readEpoch`, `touch`, `insert` — `_issue_session`: the epoch is read, the user's
  row is updated, the new session is inserted and all is committed;
* `bump`, `snapshot`, `sweep`, `commit` — what a logout, a recovery, a change of a
  member and `_revoke_family` share: the user's row is updated, then the open
  sessions that the second statement sees, one row after the other;
* `abort` — the transaction is rolled back.

A recovery is one whose token passed the checks of `recover_password`.
-/

namespace Auth

open Transition

/-- The lifetimes in seconds, `access_token_ttl_seconds` and
`refresh_token_ttl_seconds`. -/
structure Settings where
  accessTokenTtl : Nat
  refreshTokenTtl : Nat

/-- The calls. -/
inductive Request
  | login (email password : String)
  | refresh (session : SessionId) (now : Time)
  | logout (user : UserId) (now : Time)
  | recover (user : UserId) (password : String) (now : Time)
  | update (principal : Principal) (user : UserId) (payload : MemberUpdate) (now : Time)
  deriving DecidableEq

/-- Why the sessions of a user are revoked. -/
inductive Cause
  /-- `_revoke_family`, because this session was presented again. -/
  | reuse (session : SessionId)
  | logout
  /-- With the digest `recover_password` computed. -/
  | recovery (digest : Digest)
  /-- By an administrator of this tenant. -/
  | update (tenant : TenantId) (payload : MemberUpdate)
  deriving DecidableEq

/-- A revocation of all sessions of a user. -/
structure Revocation where
  cause : Cause
  user : UserId
  now : Time
  deriving DecidableEq

/-- What `_issue_session` read first: the epoch and the clock. -/
structure Issue where
  av : Nat
  now : Time
  deriving DecidableEq

/-- Where a call is. -/
inductive Phase
  | consuming (identity : LoginIdentity) (rotation : Rotation)
  | issuing (grant : Grant)
  | touching (grant : Grant) (issue : Issue)
  /-- Holding the user's row. -/
  | inserting (grant : Grant) (issue : Issue)
  | bumping (rev : Revocation)
  /-- Holding the user's row. -/
  | revoking (rev : Revocation)
  /-- The sessions still to update, and those updated. -/
  | sweeping (rev : Revocation) (remaining pending : List SessionId)
  | issued (grant : Grant) (session : SessionId) (claims : AccessClaims)
  | revoked (rev : Revocation)
  | unchanged
  | refused (error : ApiError)
  | aborted
  deriving DecidableEq

/-- Has the call been answered? -/
def Phase.ended : Phase → Bool
  | .issued _ _ _ | .revoked _ | .unchanged | .refused _ | .aborted => true
  | .consuming _ _ | .issuing _ | .touching _ _ | .inserting _ _ | .bumping _ | .revoking _
  | .sweeping _ _ _ => false

/-- A call and where it is. -/
structure Call where
  request : Request
  phase : Phase
  deriving DecidableEq

/-- The committed rows, the locks, and the calls. -/
structure State where
  users : Table UserId User
  sessions : Table SessionId RefreshSession
  tenants : TenantId → TenantStatus
  userLock : UserId → Option CallId
  sessionLock : SessionId → Option CallId
  /-- The advisory lock of `update_user`. -/
  memberLock : TenantId → Option CallId
  calls : CallId → Option Call

/-- The accounts a run starts from; their digests are of their set-up. -/
structure Setup where
  users : Table UserId User
  tenants : TenantId → TenantStatus
  drawn : ∀ u user digest, users.get? u = some user → user.credentialDigest = some digest →
    digest.salt = .setup

/-- No session yet, no call. -/
def Setup.initial (setup : Setup) : State where
  users := setup.users
  sessions := .empty
  tenants := setup.tenants
  userLock := fun _ => none
  sessionLock := fun _ => none
  memberLock := fun _ => none
  calls := fun _ => none

/-- The steps. -/
inductive Action
  | begin (c : CallId) (request : Request)
  | consume (c : CallId)
  | readEpoch (c : CallId) (now : Time)
  | touch (c : CallId)
  | insert (c : CallId) (session : SessionId)
  | bump (c : CallId)
  | snapshot (c : CallId)
  | sweep (c : CallId)
  | commit (c : CallId)
  | abort (c : CallId)
  | setTenantStatus (tenant : TenantId) (status : TenantStatus)

/-- The locks without those of call `c`. -/
def release {κ : Type} (c : CallId) (lock : κ → Option CallId) (k : κ) : Option CallId :=
  if lock k = some c then none else lock k

/-- The end of a call releases only its own locks. -/
theorem release_other {κ : Type} {lock : κ → Option CallId} {c c' : CallId} (hc : c' ≠ c)
    {k : κ} (h : lock k = some c') : release c lock k = some c' := by
  have hne : some c' ≠ some c := fun heq => hc (Option.some.inj heq)
  rw [release, h, if_neg hne]

namespace State

variable (s : State)

/-- Move a call to another phase. -/
def setPhase (c : CallId) (call : Call) (phase : Phase) : State :=
  { s with calls := Function.update s.calls c (some { call with phase := phase }) }

/-- A transaction ends: its locks are released. -/
def finish (c : CallId) (call : Call) (phase : Phase) : State :=
  { s.setPhase c call phase with
    userLock := release c s.userLock
    sessionLock := release c s.sessionLock
    memberLock := release c s.memberLock }

@[simp] theorem setPhase_users (c call p) : (s.setPhase c call p).users = s.users := rfl
@[simp] theorem setPhase_sessions (c call p) :
    (s.setPhase c call p).sessions = s.sessions := rfl
@[simp] theorem setPhase_calls (c call p) : (s.setPhase c call p).calls =
    Function.update s.calls c (some { call with phase := p }) := rfl
@[simp] theorem finish_users (c call p) : (s.finish c call p).users = s.users := rfl
@[simp] theorem finish_sessions (c call p) : (s.finish c call p).sessions = s.sessions := rfl
@[simp] theorem finish_calls (c call p) : (s.finish c call p).calls =
    Function.update s.calls c (some { call with phase := p }) := rfl

/-! ## The first statements of a call -/

/-- Does the session have a child? -/
def rotated (session : SessionId) : Bool :=
  s.sessions.rows.any fun row => decide (row.2.rotatedFrom = some session)

/-- What `refresh` decides on the row of the presented token. -/
def resolveRefresh (session : SessionId) (now : Time) : Phase :=
  match s.sessions.get? session with
  | none => .refused .invalidRefreshToken
  | some row =>
      match s.users.get? row.user with
      | none => .refused .invalidRefreshToken
      | some user =>
          if row.revokedAt.isSome ∧ s.rotated session = true then
            .bumping ⟨.reuse session, row.user, now⟩
          else if row.revokedAt.isSome ∨ row.expiresAt ≤ now ∨ user.status ≠ .active
              ∨ s.tenants user.tenant ≠ .active then .refused .invalidRefreshToken
          else .consuming ⟨row.user, user.tenant, user.email, none, user.status,
            s.tenants user.tenant, user.role⟩ ⟨session, row.expiresAt, now⟩

/-- Where a call is after its first statements. -/
def start (c : CallId) : Request → Phase
  | .login email password =>
      match login (resolveLoginIdentities s.users s.tenants email) password with
      | some grant => .issuing grant
      | none => .refused .authenticationFailed
  | .refresh session now => s.resolveRefresh session now
  | .logout user now => .bumping ⟨.logout, user, now⟩
  | .recover user password now =>
      match s.users.get? user with
      | some row =>
          if row.status = .active ∧ s.tenants row.tenant = .active then
            .bumping ⟨.recovery ⟨password, .recovery c⟩, user, now⟩
          else .refused .invalidRecoveryToken
      | none => .refused .invalidRecoveryToken
  | .update principal user payload now =>
      match updateAllowed principal user payload with
      | .ok () => .bumping ⟨.update principal.tenant payload, user, now⟩
      | .error e => .refused e

/-! ## Updating the user's row -/

/-- The active administrators of a tenant. -/
def activeAdministrators (tenant : TenantId) : List UserId :=
  (s.users.rows.filter fun row =>
    decide (row.2.tenant = tenant) && row.2.administers).map Prod.fst

/-- The rows of `tenant_users` a revocation locks: its user's, and the active
administrators' when an administrator may stop being one. -/
def bumpRows (rev : Revocation) : List UserId :=
  rev.user ::
    match rev.cause, s.users.get? rev.user with
    | .update tenant payload, some u =>
        if u.administers && !(payload.apply u).administers then s.activeAdministrators tenant
        else []
    | _, _ => []

/-- The answer of a revocation that does not go on, after it locked the rows. -/
def bumpAnswer (rev : Revocation) : Option Phase :=
  match rev.cause with
  | .reuse _ | .logout => none
  | .recovery _ =>
      match s.users.get? rev.user with
      | some u => if u.status = .active then none else some (.refused .invalidRecoveryToken)
      | none => some (.refused .invalidRecoveryToken)
  | .update tenant payload =>
      match memberChange tenant (s.activeAdministrators tenant).length
          (s.users.get? rev.user) payload with
      | .refused e => some (.refused e)
      | .unchanged => some .unchanged
      | .change => none

/-- The advisory locks after a revocation took the one of its tenant, if it takes one. -/
def lockMembers (c : CallId) (rev : Revocation) : TenantId → Option CallId :=
  match rev.cause with
  | .update tenant _ => Function.update s.memberLock tenant (some c)
  | _ => s.memberLock

/-- Are all the locks of a revocation free? -/
def bumpFree (rev : Revocation) : Bool :=
  (s.bumpRows rev).all (fun u => decide (s.userLock u = none)) &&
    match rev.cause with
    | .update tenant _ => decide (s.memberLock tenant = none)
    | _ => true

end State

/-- The user's row after the update of a revocation. -/
def Revocation.apply (rev : Revocation) (u : User) : User :=
  let bumped := { u with authEpoch := u.authEpoch + 1 }
  match rev.cause with
  | .reuse _ | .logout => bumped
  | .recovery digest => { bumped with credentialDigest := some digest }
  | .update _ payload => payload.apply bumped

@[simp] theorem Revocation.apply_authEpoch (rev : Revocation) (u : User) :
    (rev.apply u).authEpoch = u.authEpoch + 1 := by
  unfold Revocation.apply
  cases rev.cause <;> rfl

/-- A session after a revocation updated it. -/
def revokeAt (now : Time) (row : RefreshSession) : RefreshSession :=
  { row with revokedAt := some now }

/-! ## The steps -/

/-- The guarded update: the first to consume a session goes on, a later one revokes the
family. -/
def stepConsume (s : State) (c : CallId) : Option State :=
  match s.calls c with
  | some call =>
      match call.phase with
      | .consuming identity r =>
          match s.sessionLock r.session, s.sessions.get? r.session with
          | none, some row =>
              if row.revokedAt = none then
                some { s.setPhase c call (.issuing ⟨identity, false, some r⟩) with
                  sessionLock := Function.update s.sessionLock r.session (some c) }
              else
                some (s.setPhase c call
                  (.bumping ⟨.reuse r.session, identity.user, r.consumedAt⟩))
          | _, _ => none
      | _ => none
  | none => none

/-- `SELECT auth_epoch`, without a lock. -/
def stepReadEpoch (s : State) (c : CallId) (now : Time) : Option State :=
  match s.calls c with
  | some call =>
      match call.phase with
      | .issuing g =>
          match s.users.get? g.identity.user with
          | some user => some (s.setPhase c call (.touching g ⟨user.authEpoch, now⟩))
          | none => none
      | _ => none
  | none => none

/-- `UPDATE tenant_users SET last_authenticated_at`. -/
def stepTouch (s : State) (c : CallId) : Option State :=
  match s.calls c with
  | some call =>
      match call.phase with
      | .touching g i =>
          if s.userLock g.identity.user = none then
            some { s.setPhase c call (.inserting g i) with
              userLock := Function.update s.userLock g.identity.user (some c) }
          else none
      | _ => none
  | none => none

/-- The expiry of a new session: its parent's, or the full lifetime. -/
def Grant.refreshExpires (settings : Settings) (g : Grant) (i : Issue) : Time :=
  match g.rotation with
  | some r => r.expiresAt
  | none => i.now + settings.refreshTokenTtl

/-- The row of a new session. -/
def Grant.session (settings : Settings) (g : Grant) (i : Issue) : RefreshSession where
  user := g.identity.user
  createdAt := i.now
  expiresAt := g.refreshExpires settings i
  revokedAt := none
  rotatedFrom := g.rotation.map Rotation.session

/-- The consumed session is revoked. -/
def consumed (sessions : Table SessionId RefreshSession) (g : Grant) :
    Table SessionId RefreshSession :=
  match g.rotation with
  | some r => sessions.update r.session (revokeAt r.consumedAt)
  | none => sessions

/-- The state after the session is inserted and the transaction committed. -/
def State.insertSession (s : State) (settings : Settings) (c : CallId) (call : Call)
    (g : Grant) (i : Issue) (id : SessionId) : State :=
  { s.finish c call (.issued g id (g.claims i.av (i.now + settings.accessTokenTtl))) with
    users := s.users.update g.identity.user fun u =>
      { u with lastAuthenticatedAt := some i.now }
    sessions := (consumed s.sessions g).insert id (g.session settings i) }

/-- The session is inserted and the transaction committed; the check constraint of the
table refuses a session that is expired when it is created. -/
def stepInsert (settings : Settings) (s : State) (c : CallId) (id : SessionId) :
    Option State :=
  match s.calls c with
  | some call =>
      match call.phase with
      | .inserting g i =>
          if s.sessions.get? id = none then
            if i.now < g.refreshExpires settings i then
              some (s.insertSession settings c call g i id)
            else some (s.finish c call .aborted)
          else none
      | _ => none
  | none => none

/-- The user's row is locked and updated, or the call is answered. -/
def stepBump (s : State) (c : CallId) : Option State :=
  match s.calls c with
  | some call =>
      match call.phase with
      | .bumping rev =>
          if s.bumpFree rev then
            match s.bumpAnswer rev with
            | some answer => some (s.setPhase c call answer)
            | none =>
                some { s.setPhase c call (.revoking rev) with
                  userLock := fun u => if u ∈ s.bumpRows rev then some c else s.userLock u
                  memberLock := s.lockMembers c rev }
          else none
      | _ => none
  | none => none

/-- The open sessions of the user, as the second statement sees them. -/
def openSessions (s : State) (user : UserId) : List SessionId :=
  (s.sessions.rows.filter fun row =>
    decide (row.2.user = user) && decide (row.2.revokedAt = none)).map Prod.fst

/-- The second statement starts. -/
def stepSnapshot (s : State) (c : CallId) : Option State :=
  match s.calls c with
  | some call =>
      match call.phase with
      | .revoking rev => some (s.setPhase c call (.sweeping rev (openSessions s rev.user) []))
      | _ => none
  | none => none

/-- The second statement locks the next session and updates it, if it is still open. -/
def stepSweep (s : State) (c : CallId) : Option State :=
  match s.calls c with
  | some call =>
      match call.phase with
      | .sweeping rev (id :: rest) pending =>
          match s.sessionLock id, s.sessions.get? id with
          | none, some row =>
              if row.revokedAt = none then
                some { s.setPhase c call (.sweeping rev rest (id :: pending)) with
                  sessionLock := Function.update s.sessionLock id (some c) }
              else some (s.setPhase c call (.sweeping rev rest pending))
          | _, _ => none
      | _ => none
  | none => none

/-- The sessions after a revocation has updated some of them. -/
def swept (t : Table SessionId RefreshSession) (now : Time) (pending : List SessionId) :
    Table SessionId RefreshSession :=
  t.updateWhere fun id row => if id ∈ pending then revokeAt now row else row

/-- The state after a revocation is committed. -/
def State.commitRevocation (s : State) (c : CallId) (call : Call) (rev : Revocation)
    (pending : List SessionId) : State :=
  { s.finish c call (.revoked rev) with
    users := s.users.update rev.user rev.apply
    sessions := swept s.sessions rev.now pending }

/-- The revocation is committed. -/
def stepCommit (s : State) (c : CallId) : Option State :=
  match s.calls c with
  | some call =>
      match call.phase with
      | .sweeping rev [] pending => some (s.commitRevocation c call rev pending)
      | _ => none
  | none => none

namespace State

variable (s : State)

@[simp] theorem insertSession_users (settings c call g i id) :
    (s.insertSession settings c call g i id).users =
      s.users.update g.identity.user fun u => { u with lastAuthenticatedAt := some i.now } := rfl
@[simp] theorem insertSession_sessions (settings c call g i id) :
    (s.insertSession settings c call g i id).sessions =
      (consumed s.sessions g).insert id (g.session settings i) := rfl
@[simp] theorem insertSession_calls (settings c call g i id) :
    (s.insertSession settings c call g i id).calls = Function.update s.calls c (some { call with
      phase := .issued g id (g.claims i.av (i.now + settings.accessTokenTtl)) }) := rfl
@[simp] theorem commitRevocation_users (c call rev pending) :
    (s.commitRevocation c call rev pending).users = s.users.update rev.user rev.apply := rfl
@[simp] theorem commitRevocation_sessions (c call rev pending) :
    (s.commitRevocation c call rev pending).sessions =
      swept s.sessions rev.now pending := rfl
@[simp] theorem commitRevocation_calls (c call rev pending) :
    (s.commitRevocation c call rev pending).calls =
      Function.update s.calls c (some { call with phase := .revoked rev }) := rfl

end State

/-- A transaction that has not ended is rolled back. -/
def stepAbort (s : State) (c : CallId) : Option State :=
  match s.calls c with
  | some call => if call.phase.ended then none else some (s.finish c call .aborted)
  | none => none

/-- One step. -/
def step (settings : Settings) (s : State) : Action → Option State
  | .begin c request =>
      match s.calls c with
      | none =>
          some { s with
            calls := Function.update s.calls c (some ⟨request, s.start c request⟩) }
      | some _ => none
  | .consume c => stepConsume s c
  | .readEpoch c now => stepReadEpoch s c now
  | .touch c => stepTouch s c
  | .insert c id => stepInsert settings s c id
  | .bump c => stepBump s c
  | .snapshot c => stepSnapshot s c
  | .sweep c => stepSweep s c
  | .commit c => stepCommit s c
  | .abort c => stepAbort s c
  | .setTenantStatus tenant status =>
      some { s with tenants := Function.update s.tenants tenant status }

/-- Authentication, from the given accounts. -/
def system (settings : Settings) (setup : Setup) : System State Action where
  init := setup.initial
  step := step settings

/-- The successful steps from `s`, with what each one checked. -/
inductive StepCase (settings : Settings) (s : State) : Action → State → Prop
  | begin {c : CallId} {request : Request} (hnew : s.calls c = none) :
      StepCase settings s (.begin c request)
        { s with calls := Function.update s.calls c (some ⟨request, s.start c request⟩) }
  | consumed {c : CallId} {call : Call} {identity : LoginIdentity} {r : Rotation}
      {row : RefreshSession} (hcall : s.calls c = some call)
      (hphase : call.phase = .consuming identity r) (hfree : s.sessionLock r.session = none)
      (hrow : s.sessions.get? r.session = some row) (hopen : row.revokedAt = none) :
      StepCase settings s (.consume c)
        { s.setPhase c call (.issuing ⟨identity, false, some r⟩) with
          sessionLock := Function.update s.sessionLock r.session (some c) }
  | raced {c : CallId} {call : Call} {identity : LoginIdentity} {r : Rotation}
      {row : RefreshSession} (hcall : s.calls c = some call)
      (hphase : call.phase = .consuming identity r)
      (hrow : s.sessions.get? r.session = some row) (hclosed : row.revokedAt ≠ none) :
      StepCase settings s (.consume c)
        (s.setPhase c call (.bumping ⟨.reuse r.session, identity.user, r.consumedAt⟩))
  | readEpoch {c : CallId} {now : Time} {call : Call} {g : Grant} {user : User}
      (hcall : s.calls c = some call) (hphase : call.phase = .issuing g)
      (huser : s.users.get? g.identity.user = some user) :
      StepCase settings s (.readEpoch c now)
        (s.setPhase c call (.touching g ⟨user.authEpoch, now⟩))
  | touched {c : CallId} {call : Call} {g : Grant} {i : Issue}
      (hcall : s.calls c = some call) (hphase : call.phase = .touching g i)
      (hfree : s.userLock g.identity.user = none) :
      StepCase settings s (.touch c)
        { s.setPhase c call (.inserting g i) with
          userLock := Function.update s.userLock g.identity.user (some c) }
  | inserted {c : CallId} {id : SessionId} {call : Call} {g : Grant} {i : Issue}
      (hcall : s.calls c = some call) (hphase : call.phase = .inserting g i)
      (hfresh : s.sessions.get? id = none) (hlive : i.now < g.refreshExpires settings i) :
      StepCase settings s (.insert c id) (s.insertSession settings c call g i id)
  | expired {c : CallId} {id : SessionId} {call : Call} {g : Grant} {i : Issue}
      (hcall : s.calls c = some call) (hphase : call.phase = .inserting g i) :
      StepCase settings s (.insert c id) (s.finish c call .aborted)
  | bumped {c : CallId} {call : Call} {rev : Revocation} (hcall : s.calls c = some call)
      (hphase : call.phase = .bumping rev) (hfree : s.bumpFree rev = true)
      (hgoes : s.bumpAnswer rev = none) :
      StepCase settings s (.bump c)
        { s.setPhase c call (.revoking rev) with
          userLock := fun u => if u ∈ s.bumpRows rev then some c else s.userLock u
          memberLock := s.lockMembers c rev }
  | answered {c : CallId} {call : Call} {rev : Revocation} {answer : Phase}
      (hcall : s.calls c = some call) (hphase : call.phase = .bumping rev)
      (hanswer : s.bumpAnswer rev = some answer) :
      StepCase settings s (.bump c) (s.setPhase c call answer)
  | snapshot {c : CallId} {call : Call} {rev : Revocation} (hcall : s.calls c = some call)
      (hphase : call.phase = .revoking rev) :
      StepCase settings s (.snapshot c)
        (s.setPhase c call (.sweeping rev (openSessions s rev.user) []))
  | swept {c : CallId} {call : Call} {rev : Revocation} {id : SessionId}
      {rest pending : List SessionId} {row : RefreshSession} (hcall : s.calls c = some call)
      (hphase : call.phase = .sweeping rev (id :: rest) pending)
      (hfree : s.sessionLock id = none) (hrow : s.sessions.get? id = some row)
      (hopen : row.revokedAt = none) :
      StepCase settings s (.sweep c)
        { s.setPhase c call (.sweeping rev rest (id :: pending)) with
          sessionLock := Function.update s.sessionLock id (some c) }
  | skipped {c : CallId} {call : Call} {rev : Revocation} {id : SessionId}
      {rest pending : List SessionId} {row : RefreshSession} (hcall : s.calls c = some call)
      (hphase : call.phase = .sweeping rev (id :: rest) pending)
      (hrow : s.sessions.get? id = some row) (hclosed : row.revokedAt ≠ none) :
      StepCase settings s (.sweep c) (s.setPhase c call (.sweeping rev rest pending))
  | committed {c : CallId} {call : Call} {rev : Revocation} {pending : List SessionId}
      (hcall : s.calls c = some call) (hphase : call.phase = .sweeping rev [] pending) :
      StepCase settings s (.commit c) (s.commitRevocation c call rev pending)
  | aborted {c : CallId} {call : Call} (hcall : s.calls c = some call)
      (hactive : call.phase.ended = false) :
      StepCase settings s (.abort c) (s.finish c call .aborted)
  | tenant {tenant : TenantId} {status : TenantStatus} :
      StepCase settings s (.setTenantStatus tenant status)
        { s with tenants := Function.update s.tenants tenant status }

/-- **Inversion.**  A successful step is one of the listed cases. -/
theorem step_cases {settings : Settings} {s s' : State} {act : Action}
    (h : step settings s act = some s') : StepCase settings s act s' := by
  cases act with
  | begin c request =>
      simp only [step] at h
      split at h
      · next hnew => cases h; exact .begin hnew
      · cases h
  | consume c =>
      simp only [step, stepConsume] at h
      split at h
      · next call hcall =>
          split at h
          · next hphase =>
              split at h
              · next hfree hrow =>
                  split at h
                  · next hopen => cases h; exact .consumed hcall hphase hfree hrow hopen
                  · next hclosed => cases h; exact .raced hcall hphase hrow hclosed
              · cases h
          · cases h
      · cases h
  | readEpoch c now =>
      simp only [step, stepReadEpoch] at h
      split at h
      · next call hcall =>
          split at h
          · next hphase =>
              split at h
              · next huser => cases h; exact .readEpoch hcall hphase huser
              · cases h
          · cases h
      · cases h
  | touch c =>
      simp only [step, stepTouch] at h
      split at h
      · next call hcall =>
          split at h
          · next hphase =>
              split at h
              · next hfree => cases h; exact .touched hcall hphase hfree
              · cases h
          · cases h
      · cases h
  | insert c id =>
      simp only [step, stepInsert] at h
      split at h
      · next call hcall =>
          split at h
          · next hphase =>
              split at h
              · next hfresh =>
                  split at h
                  · next hlive => cases h; exact .inserted hcall hphase hfresh hlive
                  · cases h; exact .expired hcall hphase
              · cases h
          · cases h
      · cases h
  | bump c =>
      simp only [step, stepBump] at h
      split at h
      · next call hcall =>
          split at h
          · next hphase =>
              split at h
              · next hfree =>
                  split at h
                  · next hanswer => cases h; exact .answered hcall hphase hanswer
                  · next hgoes => cases h; exact .bumped hcall hphase hfree hgoes
              · cases h
          · cases h
      · cases h
  | snapshot c =>
      simp only [step, stepSnapshot] at h
      split at h
      · next call hcall =>
          split at h
          · next hphase => cases h; exact .snapshot hcall hphase
          · cases h
      · cases h
  | sweep c =>
      simp only [step, stepSweep] at h
      split at h
      · next call hcall =>
          split at h
          · next hphase =>
              split at h
              · next hfree hrow =>
                  split at h
                  · next hopen => cases h; exact .swept hcall hphase hfree hrow hopen
                  · next hclosed => cases h; exact .skipped hcall hphase hrow hclosed
              · cases h
          · cases h
      · cases h
  | commit c =>
      simp only [step, stepCommit] at h
      split at h
      · next call hcall =>
          split at h
          · next hphase => cases h; exact .committed hcall hphase
          · cases h
      · cases h
  | abort c =>
      simp only [step, stepAbort] at h
      split at h
      · next call hcall =>
          split at h
          · cases h
          · next hactive =>
              cases h
              exact .aborted hcall (by simpa using hactive)
      · cases h
  | setTenantStatus tenant status => cases h; exact .tenant

/-! ## The life of one call -/

/-- The phases of call `c` that can follow each other, and the step between them. -/
inductive Moves (c : CallId) : Action → Phase → Phase → Prop
  | consumed (identity : LoginIdentity) (r : Rotation) :
      Moves c (.consume c) (.consuming identity r) (.issuing ⟨identity, false, some r⟩)
  | raced (identity : LoginIdentity) (r : Rotation) :
      Moves c (.consume c) (.consuming identity r)
        (.bumping ⟨.reuse r.session, identity.user, r.consumedAt⟩)
  | readEpoch (g : Grant) (av : Nat) (now : Time) :
      Moves c (.readEpoch c now) (.issuing g) (.touching g ⟨av, now⟩)
  | touched (g : Grant) (i : Issue) : Moves c (.touch c) (.touching g i) (.inserting g i)
  | inserted (g : Grant) (i : Issue) (id : SessionId) (exp : Time) :
      Moves c (.insert c id) (.inserting g i) (.issued g id (g.claims i.av exp))
  | expired (g : Grant) (i : Issue) (id : SessionId) :
      Moves c (.insert c id) (.inserting g i) .aborted
  | bumped (rev : Revocation) : Moves c (.bump c) (.bumping rev) (.revoking rev)
  | refused (rev : Revocation) (error : ApiError)
      (hcause : ∀ session, rev.cause ≠ .reuse session) :
      Moves c (.bump c) (.bumping rev) (.refused error)
  | unchanged (rev : Revocation) (hcause : ∀ session, rev.cause ≠ .reuse session) :
      Moves c (.bump c) (.bumping rev) .unchanged
  | snapshot (rev : Revocation) (ids : List SessionId) :
      Moves c (.snapshot c) (.revoking rev) (.sweeping rev ids [])
  | swept (rev : Revocation) (id : SessionId) (rest pending pending' : List SessionId) :
      Moves c (.sweep c) (.sweeping rev (id :: rest) pending) (.sweeping rev rest pending')
  | committed (rev : Revocation) (pending : List SessionId) :
      Moves c (.commit c) (.sweeping rev [] pending) (.revoked rev)
  | aborted {phase : Phase} (hactive : phase.ended = false) :
      Moves c (.abort c) phase .aborted

/-- The answers of a revocation that does not go on; a family is always revoked. -/
theorem bumpAnswer_cases {s : State} {rev : Revocation} {answer : Phase}
    (h : s.bumpAnswer rev = some answer) :
    (∀ session, rev.cause ≠ .reuse session) ∧
      ((∃ e, answer = .refused e) ∨ answer = .unchanged) := by
  unfold State.bumpAnswer at h
  split at h
  · cases h
  · cases h
  · next hcause =>
      refine ⟨fun _ hreuse => (by rw [hreuse] at hcause; cases hcause), ?_⟩
      split at h
      · split at h
        · cases h
        · cases h; exact Or.inl ⟨_, rfl⟩
      · cases h; exact Or.inl ⟨_, rfl⟩
  · next hcause =>
      refine ⟨fun _ hreuse => (by rw [hreuse] at hcause; cases hcause), ?_⟩
      split at h
      · cases h; exact Or.inl ⟨_, rfl⟩
      · cases h; exact Or.inr rfl
      · cases h

/-- A step leaves a call where it is or moves it on. -/
theorem moves_step {settings : Settings} {s s' : State} {act : Action}
    (hstep : step settings s act = some s') {c : CallId} {call : Call}
    (hcall : s.calls c = some call) :
    ∃ phase, s'.calls c = some { call with phase := phase } ∧
      (phase = call.phase ∨ Moves c act call.phase phase) := by
  -- What a step of call `d` to a new phase does to call `c`.
  have hmove : ∀ d calld phase, s.calls d = some calld → Moves d act calld.phase phase →
      s'.calls = Function.update s.calls d (some { calld with phase := phase }) →
      ∃ phase, s'.calls c = some { call with phase := phase } ∧
        (phase = call.phase ∨ Moves c act call.phase phase) := by
    intro d calld phase hd hmoves hcalls
    by_cases hc : c = d
    · subst hc
      obtain rfl := Option.some.inj (hcall.symm.trans hd)
      exact ⟨phase, by rw [hcalls, Function.update_self], Or.inr hmoves⟩
    · exact ⟨call.phase, by rw [hcalls, Function.update_of_ne hc, hcall], Or.inl rfl⟩
  cases step_cases hstep with
  | @begin d request hnew =>
      have hne : c ≠ d := by
        intro heq
        rw [heq, hnew] at hcall
        cases hcall
      exact ⟨call.phase, (Function.update_of_ne hne ..).trans hcall, Or.inl rfl⟩
  | @consumed d calld identity r row hd hphase hfree hrow hopen =>
      exact hmove d calld _ hd (hphase ▸ .consumed identity r) rfl
  | @raced d calld identity r row hd hphase hrow hclosed =>
      exact hmove d calld _ hd (hphase ▸ .raced identity r) rfl
  | @readEpoch d now calld g user hd hphase huser =>
      exact hmove d calld _ hd (hphase ▸ .readEpoch g _ now) rfl
  | @touched d calld g i hd hphase hfree =>
      exact hmove d calld _ hd (hphase ▸ .touched g i) rfl
  | @inserted d id calld g i hd hphase hfresh hlive =>
      exact hmove d calld _ hd (hphase ▸ .inserted g i id _) rfl
  | @expired d id calld g i hd hphase =>
      exact hmove d calld _ hd (hphase ▸ .expired g i id) rfl
  | @bumped d calld rev hd hphase hfree hgoes =>
      exact hmove d calld _ hd (hphase ▸ .bumped rev) rfl
  | @answered d calld rev answer hd hphase hanswer =>
      obtain ⟨hcause, hkind⟩ := bumpAnswer_cases hanswer
      rcases hkind with ⟨e, rfl⟩ | rfl
      · exact hmove d calld _ hd (hphase ▸ .refused rev e hcause) rfl
      · exact hmove d calld _ hd (hphase ▸ .unchanged rev hcause) rfl
  | @snapshot d calld rev hd hphase =>
      exact hmove d calld _ hd (hphase ▸ .snapshot rev _) rfl
  | @swept d calld rev id rest pending row hd hphase hfree hrow hopen =>
      exact hmove d calld _ hd (hphase ▸ .swept rev id rest pending _) rfl
  | @skipped d calld rev id rest pending row hd hphase hrow hclosed =>
      exact hmove d calld _ hd (hphase ▸ .swept rev id rest pending _) rfl
  | @committed d calld rev pending hd hphase =>
      exact hmove d calld _ hd (hphase ▸ .committed rev pending) rfl
  | @aborted d calld hd hactive => exact hmove d calld _ hd (.aborted hactive) rfl
  | tenant => exact ⟨call.phase, hcall, Or.inl rfl⟩

/-- The phases in which the first statements of a request can leave its call. -/
inductive Starts (s : State) (c : CallId) : Request → Phase → Prop
  | refused {request : Request} {e : ApiError} : Starts s c request (.refused e)
  | granted {email password : String} {grant : Grant}
      (hgrant : login (resolveLoginIdentities s.users s.tenants email) password = some grant) :
      Starts s c (.login email password) (.issuing grant)
  | reused {session : SessionId} {now : Time} {row : RefreshSession}
      (hrow : s.sessions.get? session = some row) (hclosed : row.revokedAt.isSome)
      (hrotated : s.rotated session = true) :
      Starts s c (.refresh session now) (.bumping ⟨.reuse session, row.user, now⟩)
  | consuming {session : SessionId} {now : Time} {row : RefreshSession} {user : User}
      (hrow : s.sessions.get? session = some row) (huser : s.users.get? row.user = some user)
      (hopen : row.revokedAt = none) (hlive : now < row.expiresAt)
      (hactive : user.status = .active ∧ s.tenants user.tenant = .active) :
      Starts s c (.refresh session now)
        (.consuming ⟨row.user, user.tenant, user.email, none, user.status, s.tenants user.tenant,
          user.role⟩ ⟨session, row.expiresAt, now⟩)
  | logout {user : UserId} {now : Time} :
      Starts s c (.logout user now) (.bumping ⟨.logout, user, now⟩)
  | recovery {user : UserId} {password : String} {now : Time} {row : User}
      (hrow : s.users.get? user = some row)
      (hactive : row.status = .active ∧ s.tenants row.tenant = .active) :
      Starts s c (.recover user password now)
        (.bumping ⟨.recovery ⟨password, .recovery c⟩, user, now⟩)
  | update {principal : Principal} {user : UserId} {payload : MemberUpdate} {now : Time}
      (hallowed : updateAllowed principal user payload = .ok ()) :
      Starts s c (.update principal user payload now)
        (.bumping ⟨.update principal.tenant payload, user, now⟩)

theorem start_starts (s : State) (c : CallId) (request : Request) :
    Starts s c request (s.start c request) := by
  cases request with
  | login email password =>
      simp only [State.start]
      split
      · next hgrant => exact .granted hgrant
      · exact .refused
  | refresh session now =>
      simp only [State.start, State.resolveRefresh]
      split
      · exact .refused
      · next hrow =>
          split
          · exact .refused
          · split
            · next hreuse => exact .reused hrow hreuse.1 hreuse.2
            · split
              · exact .refused
              · next huser _ hpass =>
                  simp only [not_or, ne_eq, not_not, not_le, Bool.not_eq_true,
                    Option.isSome_eq_false_iff, Option.isNone_iff_eq_none] at hpass
                  obtain ⟨hopen, hlive, hstatus, htenant⟩ := hpass
                  exact .consuming hrow huser hopen hlive ⟨hstatus, htenant⟩
  | logout user now => exact .logout
  | recover user password now =>
      simp only [State.start]
      split
      · next hrow =>
          split
          · next hactive => exact .recovery hrow hactive
          · exact .refused
      · exact .refused
  | update principal user payload now =>
      simp only [State.start]
      split
      · next hallowed => exact .update hallowed
      · exact .refused

/-- A call that a step adds is where its first statements left it. -/
theorem started_step {settings : Settings} {s s' : State} {act : Action}
    (hstep : step settings s act = some s') {c : CallId} {call : Call}
    (hnone : s.calls c = none) (hcall : s'.calls c = some call) :
    act = .begin c call.request ∧ call.phase = s.start c call.request := by
  -- A step that moves another call adds none.
  have hother : ∀ d calld moved, s.calls d = some calld →
      s'.calls = Function.update s.calls d (some moved) → False := by
    intro d calld moved hd hcalls
    have hne : c ≠ d := by
      intro heq
      rw [heq, hd] at hnone
      cases hnone
    rw [hcalls, Function.update_of_ne hne, hnone] at hcall
    cases hcall
  cases step_cases hstep with
  | @begin d request hnew =>
      dsimp only at hcall
      by_cases hc : c = d
      · subst hc
        rw [Function.update_self] at hcall
        obtain rfl := Option.some.inj hcall
        exact ⟨rfl, rfl⟩
      · rw [Function.update_of_ne hc, hnone] at hcall
        cases hcall
  | consumed hd | raced hd | readEpoch hd | touched hd | inserted hd | expired hd
  | bumped hd | answered hd | snapshot hd | swept hd | skipped hd | committed hd
  | aborted hd => exact (hother _ _ _ hd rfl).elim
  | tenant =>
      rw [hnone] at hcall
      cases hcall

end Auth
