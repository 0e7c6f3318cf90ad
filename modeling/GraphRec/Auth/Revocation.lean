import GraphRec.Auth.Invariant

/-!
# Access tokens and the epoch

An access token carries the `auth_epoch` that was read for it.  Every revocation of a
user's sessions — a logout, a recovery, a change of role or status, a family revoked
because a token was reused — advances the epoch by one when it commits, and nothing
else changes it (`user_step`).  A token is accepted only while its epoch is the user's
own, so between the reading of its epoch and its use no revocation has committed
(`access_token_revocation`).
-/

namespace Auth

open Transition

/-- Does this step commit a revocation of the sessions of `u`? -/
def revokes (u : UserId) (s : State) : Action → Bool
  | .commit c =>
      match s.calls c with
      | some call =>
          match call.phase with
          | .sweeping rev [] _ => decide (rev.user = u)
          | _ => false
      | none => false
  | _ => false

@[simp] theorem Revocation.apply_tenant (rev : Revocation) (u : User) :
    (rev.apply u).tenant = u.tenant := by
  unfold Revocation.apply
  cases rev.cause <;> rfl

section Users

variable {settings : Settings} {s s' : State} {act : Action} {u : UserId} {user : User}

/-- **The epoch counts the revocations**: a step keeps a user in its tenant and advances
the epoch exactly when it commits a revocation. -/
theorem user_step (hstep : step settings s act = some s') (huser : s.users.get? u = some user) :
    ∃ user', s'.users.get? u = some user' ∧ user'.tenant = user.tenant ∧
      user'.authEpoch = user.authEpoch + (if revokes u s act then 1 else 0) := by
  cases step_cases hstep with
  | @inserted c id call g i hcall hphase hfresh hlive =>
      by_cases hu : u = g.identity.user
      · exact ⟨{ user with lastAuthenticatedAt := some i.now },
          by rw [State.insertSession_users, Table.get?_update, if_pos hu, huser]; rfl, rfl, rfl⟩
      · exact ⟨user, by rw [State.insertSession_users, Table.get?_update, if_neg hu, huser],
          rfl, rfl⟩
  | @committed c call rev pending hcall hphase =>
      have hrevokes : revokes u s (.commit c) = decide (rev.user = u) := by
        simp only [revokes, hcall, hphase]
      rw [hrevokes]
      by_cases hu : u = rev.user
      · refine ⟨rev.apply user,
          by rw [State.commitRevocation_users, Table.get?_update, if_pos hu, huser]; rfl,
          Revocation.apply_tenant rev user, ?_⟩
        simp [hu]
      · refine ⟨user,
          by rw [State.commitRevocation_users, Table.get?_update, if_neg hu, huser], rfl, ?_⟩
        have hne : ¬ rev.user = u := fun h => hu h.symm
        simp [hne]
  | _ => exact ⟨user, huser, rfl, rfl⟩

/-- Over a run, the epoch advances by the number of revocations committed in it. -/
theorem user_run {setup : Setup} {ok : State → Action → Prop} {t : State} {as : List Action}
    (hrun : Run (system settings setup) ok s as t) (huser : s.users.get? u = some user) :
    ∃ user', t.users.get? u = some user' ∧ user'.tenant = user.tenant ∧
      user'.authEpoch = user.authEpoch + countSteps (system settings setup) (revokes u) s as := by
  induction hrun generalizing user with
  | nil s => exact ⟨user, huser, rfl, rfl⟩
  | @cons s s' t a as hok hstep _ ih =>
      obtain ⟨middle, hmiddle, htenant, hepoch⟩ := user_step hstep huser
      obtain ⟨last, hlast, htenant', hepoch'⟩ := ih hmiddle
      refine ⟨last, hlast, htenant'.trans htenant, ?_⟩
      rw [countSteps_cons (revokes u) hstep, hepoch', hepoch]
      omega

end Users

/-! ## What a call carries after it read the epoch -/

/-- The grant and the epoch of a call that has read it. -/
def Phase.carries (g : Grant) (av : Nat) : Phase → Prop
  | .touching g' i | .inserting g' i => g' = g ∧ i.av = av
  | .issued g' _ claims => g' = g ∧ ∃ exp, claims = g.claims av exp
  | .aborted => True
  | _ => False

/-- Has the call read the epoch? -/
def Phase.reads : Phase → Bool
  | .touching _ _ | .inserting _ _ | .issued _ _ _ => true
  | _ => false

/-- The call does not read the epoch again. -/
theorem carries_moves {c : CallId} {act : Action} {g : Grant} {av : Nat} {phase phase' : Phase}
    (h : phase.carries g av) (hmoves : Moves c act phase phase') : phase'.carries g av := by
  cases hmoves with
  | touched g' i => exact h
  | inserted g' i id exp =>
      obtain ⟨rfl, rfl⟩ := h
      exact ⟨rfl, exp, rfl⟩
  | expired | aborted => trivial
  | consumed | raced | readEpoch | bumped | refused | unchanged | snapshot | swept | committed =>
      exact absurd h (fun hfalse => hfalse)

/-- A call that has not read the epoch reads it in the step that lets it carry one. -/
theorem reads_moves {c : CallId} {act : Action} {phase phase' : Phase}
    (h : phase.reads = false) (hmoves : Moves c act phase phase') (h' : phase'.reads = true) :
    ∃ now, act = .readEpoch c now := by
  cases hmoves with
  | readEpoch g av now => exact ⟨now, rfl⟩
  | touched | inserted => cases h
  | expired | aborted | consumed | raced | bumped | refused | unchanged | snapshot | swept | committed =>
      cases h'

section Carried

variable {settings : Settings} {setup : Setup} {ok : State → Action → Prop}

/-- What a call carries, it carries to its end. -/
theorem carries_run {s t : State} {as : List Action}
    (hrun : Run (system settings setup) ok s as t) {c : CallId} {call : Call} {g : Grant}
    {av : Nat} (hcall : s.calls c = some call) (h : call.phase.carries g av) :
    ∃ call', t.calls c = some call' ∧ call'.phase.carries g av := by
  refine hrun.invariant
    (P := fun u => ∃ call, u.calls c = some call ∧ call.phase.carries g av) ?_ ⟨call, hcall, h⟩
  intro u act u' hnow _ hstep
  obtain ⟨now, hnow, hcarries⟩ := hnow
  obtain ⟨phase, hphase, hmoves⟩ := moves_step hstep hnow
  refine ⟨_, hphase, ?_⟩
  rcases hmoves with rfl | hmoves
  · exact hcarries
  · exact carries_moves hcarries hmoves

/-- A call does not carry an epoch after its first statements. -/
theorem reads_start (s : State) (c : CallId) (request : Request) :
    (s.start c request).reads = false := by
  have hstarts := start_starts s c request
  generalize s.start c request = phase at hstarts ⊢
  cases hstarts <;> rfl

/-- The calls that carry no epoch in a state. -/
def Unread (s : State) (c : CallId) : Prop :=
  ∀ call, s.calls c = some call → call.phase.reads = false

/-- A call carries no epoch before the step that reads it. -/
theorem unread_step {s s' : State} {act : Action} {c : CallId} (h : Unread s c)
    (hstep : step settings s act = some s') (hact : ∀ now, act ≠ .readEpoch c now) :
    Unread s' c := by
  intro call' hcall'
  cases hcall : s.calls c with
  | some call =>
      obtain ⟨phase, hphase, hmoves⟩ := moves_step hstep hcall
      obtain rfl := Option.some.inj (hphase.symm.trans hcall')
      rcases hmoves with rfl | hmoves
      · exact h call hcall
      · by_contra hreads
        obtain ⟨now, rfl⟩ := reads_moves (h call hcall) hmoves (by simpa using hreads)
        exact hact now rfl
  | none =>
      rw [(started_step hstep hcall hcall').2]
      exact reads_start s c call'.request

/-- **Every token's epoch was read once**: a run to a state in which a call has issued a
token splits at the step that read the token's epoch. -/
theorem issued_read {s t : State} {as : List Action}
    (hrun : Run (system settings setup) ok s as t) {c : CallId} {call : Call} {g : Grant}
    {id : SessionId} {claims : AccessClaims} (hunread : Unread s c)
    (hcall : t.calls c = some call) (hissued : call.phase = .issued g id claims) :
    ∃ before now r r' after user, as = before ++ .readEpoch c now :: after ∧
      Run (system settings setup) ok s before r ∧
      step settings r (.readEpoch c now) = some r' ∧
      Run (system settings setup) ok r' after t ∧
      r'.users.get? g.identity.user = some user ∧
      ∃ exp, claims = g.claims user.authEpoch exp := by
  induction hrun with
  | nil s =>
      have hreads := hunread call hcall
      rw [hissued] at hreads
      cases hreads
  | @cons s s' t a as hok hstep tail ih =>
      by_cases hread : ∃ now, a = .readEpoch c now
      · obtain ⟨now, rfl⟩ := hread
        refine ⟨[], now, s, s', as, ?_⟩
        have hread : step settings s (.readEpoch c now) = some s' := hstep
        cases step_cases hread with
        | @readEpoch _ _ calld g' user hd hphase huser =>
            have hstart : (s.setPhase c calld (.touching g' ⟨user.authEpoch, now⟩)).calls c =
                some ⟨calld.request, .touching g' ⟨user.authEpoch, now⟩⟩ :=
              Function.update_self ..
            have hfirst : (Phase.touching g' ⟨user.authEpoch, now⟩).carries g' user.authEpoch :=
              ⟨rfl, rfl⟩
            obtain ⟨call', hcall', hcarries⟩ := carries_run tail hstart hfirst
            obtain rfl := Option.some.inj (hcall'.symm.trans hcall)
            rw [hissued] at hcarries
            obtain ⟨rfl, exp, rfl⟩ := hcarries
            exact ⟨user, rfl, .nil s, hstep, tail, huser, exp, rfl⟩
      · have hact : ∀ now, a ≠ .readEpoch c now := fun now heq => hread ⟨now, heq⟩
        obtain ⟨before, now, r, r', after, user, rfl, hbefore, hrest⟩ :=
          ih (unread_step hunread hstep hact) hcall
        exact ⟨a :: before, now, r, r', after, user, rfl, .cons hok hstep hbefore, hrest⟩

end Carried

/-! ## An epoch that was read is not ahead -/

/-- The epochs that were read are at most the users' own, and sessions belong to users. -/
structure EpochInv (s : State) : Prop where
  read : ∀ c call g av, s.calls c = some call → call.phase.reads = true →
    call.phase.carries g av →
    ∃ user, s.users.get? g.identity.user = some user ∧ av ≤ user.authEpoch
  owned : ∀ id row, s.sessions.get? id = some row →
    ∃ user, s.users.get? row.user = some user

/-- A phase carries what the phase before it carried. -/
theorem carries_back {c : CallId} {act : Action} {g : Grant} {av : Nat} {phase phase' : Phase}
    (hreads : phase.reads = true) (hmoves : Moves c act phase phase')
    (h : phase'.carries g av) (hreads' : phase'.reads = true) : phase.carries g av := by
  cases hmoves with
  | touched g' i => exact h
  | inserted g' i id exp =>
      obtain ⟨rfl, exp', hclaims⟩ := h
      exact ⟨rfl, congrArg AccessClaims.av hclaims⟩
  | expired | aborted => cases hreads'
  | consumed | raced | readEpoch | bumped | refused | unchanged | snapshot | swept | committed =>
      cases hreads

/-- **Step lemma.**  Every step keeps the invariant. -/
theorem epochInv_step {settings : Settings} {s s' : State} {act : Action} (hinv : EpochInv s)
    (hstep : step settings s act = some s') : EpochInv s' where
  read := by
    intro c call' g av hcall' hreads' hcarries'
    have hgrow : ∀ u, (∃ user, s.users.get? u = some user ∧ av ≤ user.authEpoch) →
        ∃ user, s'.users.get? u = some user ∧ av ≤ user.authEpoch := by
      intro u hcase
      obtain ⟨user, huser, hle⟩ := hcase
      obtain ⟨user', huser', _, hepoch⟩ := user_step hstep huser
      exact ⟨user', huser', by omega⟩
    by_cases hunread : Unread s c
    · -- The step reads the epoch.
      have hread : ∃ now, act = .readEpoch c now := by
        by_contra hact
        have hstill := unread_step hunread hstep (fun now heq => hact ⟨now, heq⟩) call' hcall'
        rw [hstill] at hreads'
        cases hreads'
      obtain ⟨now, rfl⟩ := hread
      cases step_cases hstep with
      | @readEpoch _ _ calld g' user hd hphase huser =>
          rw [State.setPhase_calls, Function.update_self] at hcall'
          obtain rfl := Option.some.inj hcall'
          obtain ⟨rfl, hav⟩ := hcarries'
          exact ⟨user, huser, le_of_eq hav.symm⟩
    · unfold Unread at hunread
      push Not at hunread
      obtain ⟨call, hcall, hreads⟩ := hunread
      have hreads : call.phase.reads = true := by simpa using hreads
      obtain ⟨phase, hphase, hmoves⟩ := moves_step hstep hcall
      obtain rfl := Option.some.inj (hphase.symm.trans hcall')
      apply hgrow
      rcases hmoves with rfl | hmoves
      · exact hinv.read c call g av hcall hreads hcarries'
      · exact hinv.read c call g av hcall hreads (carries_back hreads hmoves hcarries' hreads')
  owned := by
    have hgrow : ∀ u, (∃ user, s.users.get? u = some user) →
        ∃ user, s'.users.get? u = some user := by
      intro u hcase
      obtain ⟨user, huser⟩ := hcase
      obtain ⟨user', huser', _⟩ := user_step hstep huser
      exact ⟨user', huser'⟩
    intro id row hrow
    cases step_cases hstep with
    | @inserted c new call g i hcall hphase hfresh hlive =>
        apply hgrow
        rw [State.insertSession_sessions] at hrow
        by_cases hid : id = new
        · rw [get?_inserted hfresh, if_pos hid] at hrow
          obtain rfl := Option.some.inj hrow
          obtain ⟨user, huser, _⟩ := hinv.read c call g i.av hcall (by rw [hphase]; rfl)
            (by rw [hphase]; exact ⟨rfl, rfl⟩)
          exact ⟨user, huser⟩
        · obtain ⟨old, hold, hkept, _⟩ := came_inserted hfresh hid row hrow
          rw [hkept.user]
          exact hinv.owned id old hold
    | @committed c call rev pending hcall hphase =>
        apply hgrow
        obtain ⟨old, hold, hkept, _⟩ := came_swept id row hrow
        rw [hkept.user]
        exact hinv.owned id old hold
    | _ => exact hgrow _ (hinv.owned id row hrow)

/-- The invariant holds in every reachable state. -/
theorem epochInv_reachable {settings : Settings} {setup : Setup} {ok : State → Action → Prop}
    {s : State} (hs : Reachable (system settings setup) ok s) : EpochInv s := by
  refine Reachable.invariant (P := EpochInv) ⟨?_, ?_⟩ ?_ hs
  · intro c call g av hcall
    cases hcall
  · intro id row hrow
    cases hrow
  · exact fun s act s' hinv _ hstep => epochInv_step hinv hstep

/-- What an accepted token grants. -/
structure Grants (t : State) (claims : AccessClaims) (p : Principal) : Prop where
  role : ∃ user, t.users.get? claims.sub = some user ∧ p.role = user.role ∧
    (claims.restricted = false → ∀ scope ∈ p.scopes, scope ∈ roleScopes user.role)
  restricted : claims.restricted = true →
    p.scopes = [restrictedScope] ∧ t.tenants claims.tid ≠ .active

/-- **Revocation of access tokens.**  In every run, a token is accepted only if no
revocation of its user has committed since the step that read its epoch, and it grants
no more than the user's current role, or the status alone while the tenant is not
active. -/
theorem access_token_revocation {settings : Settings} {setup : Setup} {t : State}
    {as : List Action} (hrun : Run (system settings setup) anyStep setup.initial as t)
    {c : CallId} {call : Call} {g : Grant} {id : SessionId} {claims : AccessClaims}
    (hcall : t.calls c = some call) (hissued : call.phase = .issued g id claims)
    {now : Time} {p : Principal}
    (haccepted : bearerPrincipal t.users t.tenants claims now = .ok p) :
    (∃ before read r r' after, as = before ++ .readEpoch c read :: after ∧
      Run (system settings setup) anyStep setup.initial before r ∧
      step settings r (.readEpoch c read) = some r' ∧
      Run (system settings setup) anyStep r' after t ∧
      countSteps (system settings setup) (revokes claims.sub) r' after = 0) ∧
    Grants t claims p := by
  obtain ⟨user, huser, _, _, _, hav, hadmits, _, _, hrole, _, hrestricted, hscopes⟩ :=
    bearerPrincipal_ok haccepted
  refine ⟨?_, ⟨user, huser, hrole, hscopes⟩, ?_⟩
  · have hunread : Unread setup.initial c := by
      intro call' hcall'
      cases hcall'
    obtain ⟨before, read, r, r', after, first, has, hbefore, hread, hafter, hfirst, exp, rfl⟩ :=
      issued_read hrun hunread hcall hissued
    refine ⟨before, read, r, r', after, has, hbefore, hread, hafter, ?_⟩
    obtain ⟨last, hlast, _, hepoch⟩ := user_run hafter hfirst
    obtain rfl := Option.some.inj (hlast.symm.trans huser)
    have hsame : first.authEpoch = last.authEpoch := hav
    change countSteps (system settings setup) (revokes g.identity.user) r' after = 0
    omega
  · intro hkind
    refine ⟨hrestricted hkind, ?_⟩
    intro hactive
    rw [hkind, hactive] at hadmits
    cases hadmits

/-! ## A login and a logout -/

/-- An administrator of tenant 1 and a developer of it. -/
def twoAccounts : Setup where
  users := (Table.empty.insert 1
    ⟨1, "ada@shop", .tenantAdministrator, .active, some ⟨"first", .setup⟩, 0, none⟩).insert 2
    ⟨1, "dev@shop", .tenantDeveloper, .active, some ⟨"second", .setup⟩, 0, none⟩
  tenants := fun _ => .active
  drawn := by
    intro u user digest huser hdigest
    rw [Table.get?_insert _ (by decide)] at huser
    split at huser
    · cases huser; cases hdigest; rfl
    · rw [Table.get?_insert _ (by decide)] at huser
      split at huser
      · cases huser; cases hdigest; rfl
      · cases huser

/-- Ten minutes of an access token, an hour of a session. -/
def shortLived : Settings := ⟨600, 3600⟩

/-- User 1 signs in and out, and signs in again. -/
def signInAgain : List Action :=
  [.begin 1 (.login "ada@shop" "first"), .readEpoch 1 10, .touch 1, .insert 1 1,
    .begin 2 (.logout 1 20), .bump 2, .snapshot 2, .sweep 2, .commit 2,
    .begin 3 (.login "ada@shop" "first"), .readEpoch 3 30, .touch 3, .insert 3 2]

/-- The claims of a token of user 1 with this epoch. -/
def adaClaims (av : Nat) : AccessClaims :=
  ⟨1, 1, .tenantAdministrator, av, roleScopes .tenantAdministrator, false, 630⟩

/-- What user 1 is granted. -/
def adaPrincipal : Principal :=
  ⟨1, 1, .tenantAdministrator, roleScopes .tenantAdministrator, false⟩

/-- The access token a call has issued. -/
def Phase.token : Phase → Option AccessClaims
  | .issued _ _ claims => some claims
  | _ => none

/-- A token with the epoch of the first login is refused, and the token of the second
accepted: no revocation has committed since its epoch was read. -/
theorem access_token_revocation_signInAgain :
    ∃ t, Run (system shortLived twoAccounts) anyStep twoAccounts.initial signInAgain t ∧
      bearerPrincipal t.users t.tenants (adaClaims 0) 40 = .error .authenticationFailed ∧
      bearerPrincipal t.users t.tenants (adaClaims 1) 40 = .ok adaPrincipal ∧
      (∃ before read r r' after, signInAgain = before ++ .readEpoch 3 read :: after ∧
        Run (system shortLived twoAccounts) anyStep twoAccounts.initial before r ∧
        step shortLived r (.readEpoch 3 read) = some r' ∧
        Run (system shortLived twoAccounts) anyStep r' after t ∧
        countSteps (system shortLived twoAccounts) (revokes 1) r' after = 0) ∧
      Grants t (adaClaims 1) adaPrincipal := by
  have hdone : (exec (system shortLived twoAccounts) twoAccounts.initial signInAgain).map
      (fun t => ((t.calls 3).map fun call => call.phase.token,
        bearerPrincipal t.users t.tenants (adaClaims 0) 40,
        bearerPrincipal t.users t.tenants (adaClaims 1) 40)) =
      some (some (some (adaClaims 1)), .error .authenticationFailed, .ok adaPrincipal) := by
    decide +kernel
  obtain ⟨t, hexec, ht⟩ := Option.map_eq_some_iff.mp hdone
  simp only [Prod.mk.injEq] at ht
  obtain ⟨hcall, hrefused, haccepted⟩ := ht
  obtain ⟨call, hcall, hphase⟩ := Option.map_eq_some_iff.mp hcall
  have hrun := run_of_exec hexec
  unfold Phase.token at hphase
  split at hphase
  · next g id issued hissued =>
      obtain rfl := Option.some.inj hphase
      obtain ⟨hread, hgrants⟩ := access_token_revocation hrun hcall hissued haccepted
      exact ⟨t, hrun, hrefused, haccepted, hread, hgrants⟩
  · cases hphase

end Auth
