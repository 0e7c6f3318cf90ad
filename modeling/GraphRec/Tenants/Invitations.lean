import GraphRec.Tenants.Registration

/-!
# Setup tokens

A setup token is looked up in one statement and consumed in another, while other requests
may consume it, revoke it or issue a new one.  The row of the user is what orders them: who
changes a user's tokens holds it.

`setup_tokens_single_use` — an invited user gets its password once at most, by a token
that is open and not expired, never by one that a resent or revoked invitation left behind;
and an invited user has one open token at most.
-/

namespace Tenants

open Api Transactions Transition
open Auth (TenantId UserId Time User UserStatus Principal)

/-! ## What becomes of users and tokens -/

/-- What a request does to the users and their tokens. -/
inductive MemberChange (env : Env) (notes : List Note) (s : Store) : Op → Store → Prop
  | same {op : Op} {s' : Store} (h : SameMembers s s') : MemberChange env notes s op s'
  | registered {c : RegisterCall} {plan : PlanId} {limits : Limits} {s' : Store}
      (hwrite : writeRegistration env c plan limits s = .ok s') :
      MemberChange env notes s (.register c) s'
  | invited {principal : Principal} {payload : TenantUserInvite} {user : UserId}
      {token : SetupToken} {now : Time} {s' : Store}
      (hwrite : writeInvite env principal.tenant payload user token now s = .ok s') :
      MemberChange env notes s (.inviteUser principal payload user token now) s'
  | resent {principal : Principal} {user : UserId} {token : SetupToken} {now : Time} {row : User}
      {found : List SetupToken} {s' : Store} (hrow : s.users.get? user = some row)
      (hfound : ∀ token, token ∈ found ↔ token ∈ s.openTokens user)
      (hwrite : writeResend env principal.tenant user found token now s = .ok s') :
      MemberChange env notes s (.resendInvitation principal user token now) s'
  | revoked {principal : Principal} {user : UserId} {now : Time} {row : User}
      {found : List SetupToken} (hrow : s.users.get? user = some row)
      (hinvited : row.status = .invited)
      (hfound : ∀ token, token ∈ found ↔ token ∈ s.openTokens user) :
      MemberChange env notes s (.revokeInvitation principal user now)
        (writeRevoke principal.tenant user found now s)
  | setUp {payload : SetupPasswordRequest} {now : Time} {record : SetupTokenRecord}
      {found : List SetupToken} (h : Activates payload now notes s record found) :
      MemberChange env notes s (.setupPassword payload now)
        (writeSetup record ⟨payload.password, .setup⟩ found now s)

theorem OnlyEvents.sameMembers {s s' : Store} (h : OnlyEvents s s') : SameMembers s s' := by
  obtain ⟨events, rfl⟩ := h
  exact ⟨rfl, rfl, rfl, rfl⟩

theorem SameMembers.trans {s s' s'' : Store} (h : SameMembers s s') (h' : SameMembers s' s'') :
    SameMembers s s'' :=
  ⟨h'.tenants.trans h.tenants, h'.users.trans h.users, h'.tokens.trans h.tokens,
    h'.registrations.trans h.registrations⟩

theorem writeDecision_sameMembers (id : RequestId) (status : RequestStatus) (now : Time)
    (s : Store) : SameMembers s (writeDecision id status now s) := by
  unfold writeDecision
  split <;> exact ⟨rfl, rfl, rfl, rfl⟩

/-- What a request that has ended did to the users and their tokens. -/
theorem OpEnds.members {env : Env} {op : Op} {notes : List Note} {s s' : Store} {t : ℕ}
    {result : Result} (h : OpEnds env op notes s t result s') : MemberChange env notes s op s' := by
  cases h with
  | register h =>
      cases h with
      | replayed _ _ _ hafter | conflict _ _ _ hafter | denied _ _ hafter =>
          exact .same hafter.sameMembers
      | created _ hwrite => exact .registered hwrite
  | unchanged _ _ hafter => exact .same hafter.sameMembers
  | invited hwrite => exact .invited hwrite
  | resent hrow _ hfound hwrite => exact .resent (tenantUser_eq_some.mp hrow).1 hfound hwrite
  | revoked hrow hinvited hfound =>
      exact .revoked (tenantUser_eq_some.mp hrow).1 hinvited hfound
  | setUp h => exact .setUp h
  | planUpdated | assigned | overridden => exact .same ⟨rfl, rfl, rfl, rfl⟩
  | @approved _ _ row _ _ _ _ _ limits =>
      have hplan : SameMembers s (writePlan row.tenant row.requestedPlan limits s) :=
        ⟨rfl, rfl, rfl, rfl⟩
      exact .same (hplan.trans (writeDecision_sameMembers _ _ _ _))
  | rejected => exact .same (writeDecision_sameMembers _ _ _ _)
  | requested _ _ _ hwrite =>
      obtain ⟨-, -, -, rfl⟩ := writePlanRequest_ok hwrite
      exact .same ⟨rfl, rfl, rfl, rfl⟩
  | cancelled hwrite =>
      obtain ⟨_, -, -, rfl⟩ := writeCancel_ok hwrite
      exact .same ⟨rfl, rfl, rfl, rfl⟩

/-- What a resent invitation writes. -/
theorem writeResend_ok {env : Env} {tenant : TenantId} {user : UserId} {found : List SetupToken}
    {token : SetupToken} {now : Time} {s s' : Store}
    (h : writeResend env tenant user found token now s = .ok s') :
    (s.revokeTokens found now).tokens.get? token = none ∧ s'.tenants = s.tenants ∧
      s'.users = s.users ∧ s'.tokens = (s.revokeTokens found now).tokens.insert token
        (issueSetupToken env tenant user now) := by
  unfold writeResend at h
  dsimp only at h
  split at h
  · cases h
  · next hfresh =>
      cases h
      rw [Bool.not_eq_true, Option.isSome_eq_false_iff, Option.isNone_iff_eq_none] at hfresh
      exact ⟨hfresh, rfl, rfl, rfl⟩

/-- A row after `revoke_open_setup_tokens`. -/
def AccountSetupToken.revokedAmong (row : AccountSetupToken) (found : List SetupToken)
    (token : SetupToken) (now : Time) : AccountSetupToken :=
  if token ∈ found ∧ row.isOpen = true then { row with revokedAt := some now } else row

theorem revokeTokens_get? (s : Store) (found : List SetupToken) (now : Time) (token : SetupToken) :
    (s.revokeTokens found now).tokens.get? token =
      (s.tokens.get? token).map fun row => row.revokedAmong found token now :=
  Table.get?_updateWhere s.tokens _ token

/-- A token that is open after the open ones among some are revoked was open, and none of them. -/
theorem revokedAmong_isOpen {row : AccountSetupToken} {found : List SetupToken}
    {token : SetupToken} {now : Time} (h : (row.revokedAmong found token now).isOpen = true) :
    row.isOpen = true ∧ token ∉ found ∧ row.revokedAmong found token now = row := by
  unfold AccountSetupToken.revokedAmong at h ⊢
  split at h
  · simp [AccountSetupToken.isOpen] at h
  · next hnot =>
      rw [if_neg hnot]
      exact ⟨h, fun hmem => hnot ⟨hmem, h⟩, rfl⟩

@[simp] theorem revokedAmong_user (row : AccountSetupToken) (found : List SetupToken)
    (token : SetupToken) (now : Time) : (row.revokedAmong found token now).user = row.user := by
  unfold AccountSetupToken.revokedAmong
  split <;> rfl

/-! ## One open token -/

/-- An invited user has one open token at most. -/
def OneOpenToken (s : Store) : Prop :=
  ∀ user row, s.users.get? user = some row → row.status = .invited →
    ∀ token ∈ s.openTokens user, ∀ token' ∈ s.openTokens user, token = token'

section Changes

variable {env : Env} {op : Op} {notes : List Note} {s s' : Store} {user : UserId}

/-- A new user has the new token. -/
theorem oneOpenToken_insertUser {row : User} {token : SetupToken} {tenant : TenantId}
    {new : UserId} {now : Time} (hvalid : ForeignKeys s) (h : OneOpenToken s)
    (hfresh : s.users.get? new = none) (htoken : s.tokens.get? token = none)
    (husers : s'.users = s.users.insert new row)
    (htokens : s'.tokens = s.tokens.insert token (issueSetupToken env tenant new now)) :
    OneOpenToken s' := by
  intro user old hold hinvited
  rw [husers, Table.get?_insert _ hfresh] at hold
  -- the tokens of the new user are the new one, those of the others are as they were
  have hopen : ∀ key ∈ s'.openTokens user,
      (user = new → key = token) ∧ (user ≠ new → key ∈ s.openTokens user) := by
    intro key hkey
    obtain ⟨k, hk, huser, hisOpen⟩ := mem_openTokens.mp hkey
    rw [htokens, Table.get?_insert _ htoken] at hk
    split at hk
    · next hnew =>
        obtain rfl := Option.some.inj hk
        exact ⟨fun _ => hnew, fun hne => absurd huser.symm hne⟩
    · refine ⟨?_, fun _ => mem_openTokens.mpr ⟨k, hk, huser, hisOpen⟩⟩
      rintro rfl
      have hstored : (s.users.get? k.user).isSome = true := hvalid.tokens key k hk
      rw [huser, hfresh] at hstored
      cases hstored
  intro key hkey key' hkey'
  split at hold
  · next hnew => rw [(hopen key hkey).1 hnew, (hopen key' hkey').1 hnew]
  · next hne =>
      exact h user old hold hinvited key ((hopen key hkey).2 hne) key' ((hopen key' hkey').2 hne)

/-- Closing tokens leaves one open at most. -/
theorem oneOpenToken_of_closed (h : OneOpenToken s)
    (husers : ∀ user row', s'.users.get? user = some row' → row'.status = .invited →
      ∃ row, s.users.get? user = some row ∧ row.status = .invited)
    (htokens : ∀ user, ∀ token ∈ s'.openTokens user, token ∈ s.openTokens user) :
    OneOpenToken s' := by
  intro user row' hrow' hinvited token htoken token' htoken'
  obtain ⟨row, hrow, hwas⟩ := husers user row' hrow' hinvited
  exact h user row hrow hwas token (htokens user token htoken) token' (htokens user token' htoken')

/-- What is open after the open ones among some are revoked was open. -/
theorem openTokens_of_revokeTokens {found : List SetupToken} {now : Time} {token : SetupToken}
    (h : token ∈ (s.revokeTokens found now).openTokens user) : token ∈ s.openTokens user := by
  obtain ⟨row, hrow, huser, hisOpen⟩ := mem_openTokens.mp h
  rw [revokeTokens_get?] at hrow
  obtain ⟨old, hold, rfl⟩ := Option.map_eq_some_iff.mp hrow
  rw [revokedAmong_user] at huser
  exact mem_openTokens.mpr ⟨old, hold, huser, (revokedAmong_isOpen hisOpen).1⟩

/-- Who is invited after a change of one user that invites no one was invited. -/
theorem users_of_update {users : Table UserId User} {changed id : UserId} {f : User → User}
    {row' : User} (hf : ∀ row, (f row).status = .invited → row.status = .invited)
    (hrow' : (users.update changed f).get? id = some row') (hinvited : row'.status = .invited) :
    ∃ row, users.get? id = some row ∧ row.status = .invited := by
  rw [Table.get?_update] at hrow'
  split at hrow'
  · obtain ⟨row, hrow, rfl⟩ := Option.map_eq_some_iff.mp hrow'
    exact ⟨row, hrow, hf row hinvited⟩
  · exact ⟨row', hrow', hinvited⟩

/-- **Step.**  A request leaves an invited user one open token at most. -/
theorem MemberChange.oneOpenToken (hvalid : ForeignKeys s) (h : OneOpenToken s)
    (hchange : MemberChange env notes s op s') : OneOpenToken s' := by
  cases hchange with
  | same hsame =>
      intro user row hrow hinvited token htoken token' htoken'
      rw [hsame.users] at hrow
      rw [mem_openTokens, hsame.tokens, ← mem_openTokens] at htoken htoken'
      exact h user row hrow hinvited token htoken token' htoken'
  | registered hwrite =>
      obtain ⟨-, hfresh, htoken, -, -, -, -, -, husers, htokens, -⟩ := writeRegistration_ok hwrite
      exact oneOpenToken_insertUser hvalid h hfresh htoken husers htokens
  | invited hwrite =>
      obtain ⟨hfresh, htoken, -, -, rfl⟩ := writeInvite_ok hwrite
      exact oneOpenToken_insertUser hvalid h hfresh htoken rfl rfl
  | @resent _ user token _ _ found _ _ hfound hwrite =>
      obtain ⟨hfresh, -, husers, htokens⟩ := writeResend_ok hwrite
      -- what is open of the user afterwards is the new token
      have hopen : ∀ id, ∀ key ∈ s'.openTokens id,
          (id = user → key = token) ∧ (id ≠ user → key ∈ s.openTokens id) := by
        intro id key hkey
        obtain ⟨k, hk, huser, hisOpen⟩ := mem_openTokens.mp hkey
        rw [htokens, Table.get?_insert _ hfresh] at hk
        split at hk
        · next hnew =>
            obtain rfl := Option.some.inj hk
            exact ⟨fun _ => hnew, fun hne => absurd huser.symm hne⟩
        · rw [revokeTokens_get?] at hk
          obtain ⟨old, hold, rfl⟩ := Option.map_eq_some_iff.mp hk
          obtain ⟨hwas, hnot, hsame⟩ := revokedAmong_isOpen hisOpen
          rw [hsame] at huser
          have hmem := mem_openTokens.mpr ⟨old, hold, huser, hwas⟩
          refine ⟨?_, fun _ => hmem⟩
          rintro rfl
          exact absurd ((hfound key).mpr hmem) hnot
      intro id row hrow hinvited key hkey key' hkey'
      rw [husers] at hrow
      by_cases hid : id = user
      · rw [(hopen id key hkey).1 hid, (hopen id key' hkey').1 hid]
      · exact h id row hrow hinvited key ((hopen id key hkey).2 hid) key'
          ((hopen id key' hkey').2 hid)
  | revoked =>
      refine oneOpenToken_of_closed h ?_ fun id key hkey => openTokens_of_revokeTokens hkey
      intro id row' hrow' hinvited
      refine users_of_update ?_ hrow' hinvited
      intro row hstill
      split at hstill
      · cases hstill
      · exact hstill
  | setUp =>
      refine oneOpenToken_of_closed h ?_ ?_
      · intro id row' hrow' hinvited
        refine users_of_update ?_ hrow' hinvited
        intro row hstill
        cases hstill
      · intro id key hkey
        obtain ⟨k, hk, huser, hisOpen⟩ := mem_openTokens.mp (openTokens_of_revokeTokens hkey)
        rw [Table.get?_update] at hk
        split at hk
        · obtain ⟨old, -, rfl⟩ := Option.map_eq_some_iff.mp hk
          simp [AccountSetupToken.isOpen] at hisOpen
        · exact mem_openTokens.mpr ⟨k, hk, huser, hisOpen⟩

end Changes

/-! ## Setting a password -/

/-- The credential of an invited user is set. -/
def SetsCredential (s s' : Store) (user : UserId) : Prop :=
  ∃ row row', s.users.get? user = some row ∧ row.status = .invited ∧
    s'.users.get? user = some row' ∧ row'.credentialDigest ≠ row.credentialDigest

/-- The token of a request can be used: it is the user's, neither used nor revoked, and not
expired by the request's clock. -/
def UsesToken (op : Op) (s : Store) (user : UserId) : Prop :=
  ∃ payload now row, op = .setupPassword payload now ∧
    s.tokens.get? payload.setupToken = some row ∧ row.user = user ∧ row.usedAt = none ∧
    row.revokedAt = none ∧ now < row.expiresAt

/-- The invitation of a user has been resent or revoked. -/
def Withdraws (e : Entry) (user : UserId) : Prop :=
  (∃ principal now row, e.op = .revokeInvitation principal user now ∧
      e.result = .ok (.member user row)) ∨
    ∃ principal token now row expiresAt, e.op = .resendInvitation principal user token now ∧
      e.result = .ok (.invited user row token expiresAt)

section Credentials

variable {env : Env} {op : Op} {notes : List Note} {s s' : Store} {user : UserId} {t : ℕ}
  {result : Result}

theorem isOpen_iff {row : AccountSetupToken} :
    row.isOpen = true ↔ row.usedAt = none ∧ row.revokedAt = none := by
  rw [AccountSetupToken.isOpen, Bool.and_eq_true, Option.isNone_iff_eq_none,
    Option.isNone_iff_eq_none]

/-- What an account setup has found. -/
theorem Activates.usesToken {payload : SetupPasswordRequest} {now : Time}
    {record : SetupTokenRecord} {found : List SetupToken}
    (h : Activates payload now notes s record found) :
    UsesToken (.setupPassword payload now) s record.user := by
  obtain ⟨row, hrow, hguard⟩ := (Option.any_eq_true _ _).mp h.consumable
  rw [Bool.and_eq_true, Bool.and_eq_true, decide_eq_true_eq, decide_eq_true_eq] at hguard
  obtain ⟨hused, hrevoked⟩ := isOpen_iff.mp hguard.1.2
  exact ⟨payload, now, row, rfl, h.token ▸ hrow, h.tokenUser row hrow, hused, hrevoked, hguard.2⟩

/-- The credential of an invited user is set by `setup_password`, with a token that can be used. -/
theorem MemberChange.usesToken (h : MemberChange env notes s op s')
    (hsets : SetsCredential s s' user) :
    UsesToken op s user ∧ ∃ row', s'.users.get? user = some row' ∧ row'.status ≠ .invited := by
  obtain ⟨row, row', hrow, hinvited, hrow', hne⟩ := hsets
  -- in every other case the row has the same credential
  have hsame : s'.users.get? user = some row → False := by
    intro hkept
    rw [hkept] at hrow'
    exact hne (congrArg User.credentialDigest (Option.some.inj hrow').symm)
  cases h with
  | same h => exact (hsame (h.users ▸ hrow)).elim
  | registered hwrite =>
      obtain ⟨-, -, -, -, -, -, -, -, husers, -⟩ := writeRegistration_ok hwrite
      exact (hsame (husers ▸ Table.keepsRow_insert _ _ user row hrow)).elim
  | invited hwrite =>
      obtain ⟨-, -, -, -, rfl⟩ := writeInvite_ok hwrite
      exact (hsame (Table.keepsRow_insert _ _ user row hrow)).elim
  | resent _ _ hwrite => exact (hsame ((writeResend_ok hwrite).2.2.1 ▸ hrow)).elim
  | revoked =>
      simp only [writeRevoke, Store.revokeTokens, Table.get?_update, hrow] at hrow'
      split at hrow'
      · obtain rfl := Option.some.inj hrow'
        refine absurd ?_ hne
        dsimp only
        split <;> rfl
      · exact absurd (congrArg User.credentialDigest (Option.some.inj hrow').symm) hne
  | @setUp _ _ record _ hactivates =>
      simp only [writeSetup, Store.revokeTokens, Table.get?_update, hrow] at hrow' ⊢
      split at hrow'
      · next huser =>
          obtain rfl := Option.some.inj hrow'
          refine ⟨huser ▸ hactivates.usesToken, _, if_pos huser, ?_⟩
          intro hcontra
          cases hcontra
      · exact absurd (congrArg User.credentialDigest (Option.some.inj hrow').symm) hne

/-- Every token of the user is closed when its open tokens are revoked. -/
theorem revokeTokens_closed {found : List SetupToken} {now : Time} {token : SetupToken}
    {row : AccountSetupToken} (hfound : ∀ token, token ∈ found ↔ token ∈ s.openTokens user)
    (hrow : s.tokens.get? token = some row) (huser : row.user = user) :
    ∃ row', (s.revokeTokens found now).tokens.get? token = some row' ∧ row'.isOpen = false := by
  refine ⟨_, by rw [revokeTokens_get?, hrow, Option.map_some], ?_⟩
  rw [← Bool.not_eq_true]
  intro hopen
  obtain ⟨hwas, hnot, -⟩ := revokedAmong_isOpen hopen
  exact hnot ((hfound token).mpr (mem_openTokens.mpr ⟨row, hrow, huser, hwas⟩))

/-- A resent or revoked invitation leaves the earlier tokens of the user closed. -/
theorem withdraws_closed (h : OpEnds env op notes s t result s') (hok : ¬ Refused result)
    (hop : (∃ principal now, op = .revokeInvitation principal user now) ∨
      ∃ principal token now, op = .resendInvitation principal user token now)
    {token : SetupToken} {row : AccountSetupToken} (hrow : s.tokens.get? token = some row)
    (huser : row.user = user) :
    ∃ row', s'.tokens.get? token = some row' ∧ row'.isOpen = false := by
  rcases hop with ⟨principal, now, rfl⟩ | ⟨principal, new, now, rfl⟩
  · cases h with
    | unchanged _ hrefused => exact absurd hrefused hok
    | approved hop => cases hop
    | rejected hop => cases hop
    | revoked _ _ hfound => exact revokeTokens_closed hfound hrow huser
  · cases h with
    | unchanged _ hrefused => exact absurd hrefused hok
    | approved hop => cases hop
    | rejected hop => cases hop
    | resent _ _ hfound hwrite =>
        obtain ⟨row', hrow', hclosed⟩ := revokeTokens_closed hfound hrow huser
        obtain ⟨-, -, -, htokens⟩ := writeResend_ok hwrite
        exact ⟨row', htokens ▸ Table.keepsRow_insert _ _ token row' hrow', hclosed⟩

end Credentials

/-! ## Runs -/

/-- What a request that ended has left of the users and tokens of before. -/
structure LeavesMembers (e : Entry) (s : Store) : Prop where
  /-- A user whose credential was set is not invited. -/
  set : ∀ user, SetsCredential e.before e.after user →
    ∃ row, s.users.get? user = some row ∧ row.status ≠ .invited
  /-- A token that an invitation left behind is closed. -/
  withdrawn : ∀ user, Withdraws e user → ∀ token row, e.before.tokens.get? token = some row →
    ∃ row', s.tokens.get? token = some row' ∧ row'.user = row.user ∧
      (row.user = user → row'.isOpen = false)

/-- The credential of an invited user is set by a token that can be used. -/
def SetByUsableTokens (log : List Entry) : Prop :=
  ∀ e ∈ log, ∀ user, SetsCredential e.before e.after user → UsesToken e.op e.before user

/-- The credential of a user is set once from the invited state. -/
def SetOnce (log : List Entry) : Prop :=
  log.Pairwise fun e e' => ∀ user, SetsCredential e.before e.after user →
    ¬ SetsCredential e'.before e'.after user

/-- After an invitation has been resent or revoked, the credential is set by no token that was
there before. -/
def NotByWithdrawnTokens (log : List Entry) : Prop :=
  log.Pairwise fun e e' => ∀ user payload now, Withdraws e user →
    e'.op = .setupPassword payload now → SetsCredential e'.before e'.after user →
    e.before.tokens.get? payload.setupToken = none

/-- **Setup tokens.**  In every run: the credential of an invited user is set by a token of the
user that is neither used nor revoked nor expired, and at most once; after an invitation has been
resent or revoked, by no token that was there before; and an invited user has one open token
at most. -/
theorem setup_tokens_single_use {env : Env} {first : Store} (hfirst : ForeignKeys first)
    (hopen : OneOpenToken first) {as : List (Action Op)} {st : State}
    (h : Run (requests env first) anyStep (requests env first).init as st) :
    SetByUsableTokens st.log ∧ SetOnce st.log ∧ NotByWithdrawnTokens st.log ∧
      OneOpenToken st.store := by
  obtain ⟨t, -, hserial⟩ := (requests_sound hfirst h).serial
  have hpairs : st.log.Pairwise fun e e' =>
      LeavesMembers e e'.before ∧ OpEnds env e'.op e'.notes e'.before e'.time e'.result e'.after := by
    refine (hserial.pairwise (K := LeavesMembers) ?_ ?_ ?_).1
    · intro e hvalid hgood
      refine ⟨fun user hsets => (hgood.members.usesToken hsets).2, ?_⟩
      intro user hwithdraws token row hrow
      obtain ⟨row', hrow', hsame⟩ := (hgood.grows hvalid).tokens token row hrow
      refine ⟨row', hrow', hsame.user, ?_⟩
      intro huser
      have hclosed : ∃ row', e.after.tokens.get? token = some row' ∧ row'.isOpen = false := by
        rcases hwithdraws with ⟨principal, now, _, hop, hresult⟩ |
          ⟨principal, new, now, _, _, hop, hresult⟩
        · exact withdraws_closed hgood (by rw [hresult]; exact id) (Or.inl ⟨_, _, hop⟩) hrow huser
        · exact withdraws_closed hgood (by rw [hresult]; exact id) (Or.inr ⟨_, _, _, hop⟩) hrow
            huser
      obtain ⟨row'', hrow'', hnot⟩ := hclosed
      rw [hrow'] at hrow''
      rw [Option.some.inj hrow'']
      exact hnot
    · intro e op notes s t result s' hvalid hleft hgood
      have hgrows := hgood.grows hvalid
      refine ⟨?_, ?_⟩
      · intro user hsets
        obtain ⟨row, hrow, hnot⟩ := hleft.set user hsets
        obtain ⟨row', hrow', hsame⟩ := hgrows.users user row hrow
        exact ⟨row', hrow', fun hinvited => hnot (hsame.invited hinvited)⟩
      · intro user hwithdraws token row hrow
        obtain ⟨row₁, hrow₁, huser₁, hclosed⟩ := hleft.withdrawn user hwithdraws token row hrow
        obtain ⟨row₂, hrow₂, hsame⟩ := hgrows.tokens token row₁ hrow₁
        refine ⟨row₂, hrow₂, hsame.user.trans huser₁, ?_⟩
        intro huser
        rw [← Bool.not_eq_true]
        intro hisOpen
        have hwas := hsame.isOpen hisOpen
        rw [hclosed huser] at hwas
        cases hwas
    · exact fun e e' _ hleft hgood => ⟨hleft, hgood⟩
  refine ⟨?_, hpairs.imp ?_, hpairs.imp ?_, ?_⟩
  · intro e he user hsets
    exact ((hserial.each he).2.members.usesToken hsets).1
  · rintro e e' ⟨hleft, -⟩ user hsets ⟨row', -, hrow', hinvited, -⟩
    obtain ⟨row, hrow, hnot⟩ := hleft.set user hsets
    rw [hrow] at hrow'
    exact hnot (Option.some.inj hrow' ▸ hinvited)
  · rintro e e' ⟨hleft, hgood⟩ user payload now hwithdraws hop hsets
    obtain ⟨payload', now', row', hop', hrow', huser, hused, hrevoked, -⟩ :=
      (hgood.members.usesToken hsets).1
    rw [hop] at hop'
    cases hop'
    by_contra hissued
    obtain ⟨row, hrow⟩ := Option.ne_none_iff_exists'.mp hissued
    obtain ⟨row₁, hrow₁, huser₁, hclosed⟩ := hleft.withdrawn user hwithdraws _ row hrow
    rw [hrow'] at hrow₁
    obtain rfl := Option.some.inj hrow₁
    have hnot := hclosed (huser₁.symm.trans huser)
    rw [isOpen_iff.mpr ⟨hused, hrevoked⟩] at hnot
    cases hnot
  · refine (hserial.invariant (P := fun s _ => OneOpenToken s) hopen (fun _ _ _ hs _ => hs) ?_)
    intro op notes s t result s' hvalid hs hgood
    exact hgood.members.oneOpenToken hvalid hs

/-- The administrator of a tenant, signed in. -/
def signedInAdministrator (user : UserId) (tenant : TenantId) : Principal :=
  ⟨user, tenant, .tenantAdministrator, Auth.roleScopes .tenantAdministrator, false⟩

/-- The administrator of a new tenant sets a password and invites a developer; the invitation is
resent, and both tokens are tried. -/
def resentInvitation : List (Action Op) :=
  [.start 0 (.register (acmeCall 10))] ++ statements 0 8 ++
    [.start 1 (.setupPassword ⟨10, "password", none⟩ 200)] ++ statements 1 9 ++
    [.start 2 (.inviteUser (signedInAdministrator 10 10) ⟨"bob@acme", .tenantDeveloper⟩ 30 31
      300)] ++ statements 2 4 ++
    [.start 3 (.resendInvitation (signedInAdministrator 10 10) 30 32 400)] ++ statements 3 5 ++
    [.start 4 (.setupPassword ⟨31, "password", none⟩ 500)] ++ statements 4 2 ++
    [.start 5 (.setupPassword ⟨32, "password", none⟩ 600)] ++ statements 5 9

/-- The first token is refused, and the second signs the developer in. -/
theorem setup_tokens_single_use_resent :
    ∃ st, Run (requests plainEnv newDeployment) anyStep (requests plainEnv newDeployment).init
        resentInvitation st ∧
      (st.log.map Transactions.Entry.result).drop 4 =
        [.ok (.error setupFailed), .ok (.signedIn 30 10 .tenantDeveloper)] ∧
      SetByUsableTokens st.log ∧ SetOnce st.log ∧ NotByWithdrawnTokens st.log ∧
      OneOpenToken st.store := by
  have hdone : (exec (requests plainEnv newDeployment) (requests plainEnv newDeployment).init
      resentInvitation).map (fun st => (st.log.map Transactions.Entry.result).drop 4) =
      some [.ok (.error setupFailed), .ok (.signedIn 30 10 .tenantDeveloper)] := by
    decide +kernel
  obtain ⟨st, hexec, hst⟩ := Option.map_eq_some_iff.mp hdone
  have hrun := run_of_exec hexec
  have hopen : OneOpenToken newDeployment := by
    intro user row hrow
    cases hrow
  exact ⟨st, hrun, hst, setup_tokens_single_use newDeployment_valid hopen hrun⟩

end Tenants
