import GraphRec.Auth.Rotation

/-!
# A recovery and the logins before it

`recover_password` stores a new digest, advances the epoch and revokes the open
sessions.  A login verifies the digest it read in its first statements; it reads the
epoch and inserts its session later, and does not look at the digest again.  A login
that is overtaken by a recovery between the two obtains a session of its own, with the
new epoch, on the old password.

`recovery_shuts_out` shows that the rest is sound: as long as a login updates the
user's row only while the digest it verified is the stored one, a recovery ends every
token and every session of the earlier logins, and of all refreshes that descend from
them.
-/

namespace Auth

open Transition

/-- The steps at which a login, if it is one that updates the row of its user, finds the
digest it verified still stored. -/
def verifiesCurrent (s : State) : Action → Bool
  | .touch c =>
      match s.calls c with
      | some call =>
          match call.phase with
          | .touching g _ =>
              g.rotation.isSome ||
                match s.users.get? g.identity.user with
                | some user => decide (user.credentialDigest = g.identity.credentialDigest)
                | none => true
          | _ => true
      | none => true
  | _ => true

/-- Does `root` come from a login that verified the digest of `g`? -/
structure SignedIn (s : State) (c : CallId) (g : Grant) (root : SessionId)
    (claims : AccessClaims) : Prop where
  issued : ∃ call, s.calls c = some call ∧ call.phase = .issued g root claims
  login : g.rotation = none

/-- The stored digest of the user of a grant is the one the login verified. -/
def Verified (s : State) (g : Grant) : Prop :=
  ∀ user, s.users.get? g.identity.user = some user →
    user.credentialDigest = g.identity.credentialDigest

/-- What holds of the logins and of what descends from them. -/
structure LoginInv (s : State) : Prop where
  /-- A token was issued with a session of its user, which is stored. -/
  stored : ∀ c call g id claims, s.calls c = some call → call.phase = .issued g id claims →
    (∃ exp, claims = g.claims claims.av exp) ∧
      ∃ row, s.sessions.get? id = some row ∧ row.user = g.identity.user
  inserting : ∀ c call g i, s.calls c = some call → call.phase = .inserting g i →
    g.rotation = none → Verified s g
  sessions : ∀ c g root claims, SignedIn s c g root claims → ∀ id row,
    Descends s.sessions root id → s.sessions.get? id = some row → row.revokedAt = none →
    Verified s g
  tokens : ∀ c g root claims, SignedIn s c g root claims → ∀ c' call' g' id claims',
    s.calls c' = some call' → call'.phase = .issued g' id claims' →
    Descends s.sessions root id → Verified s g ∨
      ∀ user, s.users.get? g.identity.user = some user → claims'.av < user.authEpoch

/-- The revocation a call is at. -/
def Phase.revocation : Phase → Option Revocation
  | .bumping rev | .revoking rev | .sweeping rev _ _ | .revoked rev => some rev
  | _ => none

/-! ## Descent under the changes of the sessions -/

section Descent

variable {t t' : Table SessionId RefreshSession} {root id : SessionId}

/-- A session descended before, when rows keep their origin. -/
theorem descends_came (hcame : ∀ k, Came t t' k) (h : Descends t' root id) :
    Descends t root id := by
  induction h with
  | root => exact .root
  | @child p k row hp hrow hfrom ih =>
      obtain ⟨old, hold, hkept, _⟩ := hcame k row hrow
      exact .child ih hold (hkept.rotatedFrom ▸ hfrom)

/-- After an insert, what descends from an older session is older itself and descended
from it, or it is the new session and its parent descended. -/
theorem descends_inserted (hinv : SessionInv t) {g : Grant} {settings : Settings} {i : Issue}
    {new : SessionId} (hfresh : t.get? new = none) (hroot : root ≠ new)
    (h : Descends ((consumed t g).insert new (g.session settings i)) root id) :
    (id ≠ new ∧ Descends t root id) ∨
      (id = new ∧ ∃ r, g.rotation = some r ∧ Descends t root r.session) := by
  induction h with
  | root => exact Or.inl ⟨hroot, .root⟩
  | @child p k row hp hrow hfrom ih =>
      by_cases hk : k = new
      · rw [get?_inserted hfresh, if_pos hk] at hrow
        obtain rfl := Option.some.inj hrow
        obtain ⟨r, hr, rfl⟩ := Option.map_eq_some_iff.mp hfrom
        rcases ih with ⟨_, hdescends⟩ | ⟨_, r', hr', hdescends⟩
        · exact Or.inr ⟨hk, r, hr, hdescends⟩
        · obtain rfl := Option.some.inj (hr.symm.trans hr')
          exact Or.inr ⟨hk, r, hr, hdescends⟩
      · obtain ⟨old, hold, hkept, _⟩ := came_inserted hfresh hk row hrow
        have hfrom' : old.rotatedFrom = some p := hkept.rotatedFrom ▸ hfrom
        obtain ⟨prow, hprow, _⟩ := hinv.parent k old p hold hfrom'
        rcases ih with ⟨_, hdescends⟩ | ⟨hp', _⟩
        · exact Or.inl ⟨hk, .child hdescends hold hfrom'⟩
        · rw [hp', hfresh] at hprow
          cases hprow

end Descent

/-! ## The invariant over a step -/

section Step

variable {s s' : State} {c : CallId}

/-- The users as far as a login is concerned. -/
structure SameUsers (s s' : State) (u : UserId) : Prop where
  same : ∀ user', s'.users.get? u = some user' → ∃ user, s.users.get? u = some user ∧
    user'.credentialDigest = user.credentialDigest ∧ user'.authEpoch = user.authEpoch

theorem verified_same {g : Grant} (hsame : SameUsers s s' g.identity.user)
    (h : Verified s g) : Verified s' g := by
  intro user' huser'
  obtain ⟨user, huser, hdigest, _⟩ := hsame.same user' huser'
  exact hdigest.trans (h user huser)

theorem outdated_same {u : UserId} {av : Nat} (hsame : SameUsers s s' u)
    (h : ∀ user, s.users.get? u = some user → av < user.authEpoch) :
    ∀ user, s'.users.get? u = some user → av < user.authEpoch := by
  intro user' huser'
  obtain ⟨user, huser, _, hepoch⟩ := hsame.same user' huser'
  rw [hepoch]
  exact h user huser

theorem sameUsers_of_eq (h : s'.users = s.users) (u : UserId) : SameUsers s s' u :=
  ⟨fun user' huser' => ⟨user', by rw [← h]; exact huser', rfl, rfl⟩⟩

/-- The time of the last sign-in is none of a login's concern. -/
theorem sameUsers_touched {k : UserId} {now : Time}
    (h : s'.users = s.users.update k fun u => { u with lastAuthenticatedAt := some now })
    (u : UserId) : SameUsers s s' u := by
  constructor
  intro user' huser'
  rw [h, Table.get?_update] at huser'
  by_cases hu : u = k
  · rw [if_pos hu] at huser'
    obtain ⟨user, huser, rfl⟩ := Option.map_eq_some_iff.mp huser'
    exact ⟨user, huser, rfl, rfl⟩
  · rw [if_neg hu] at huser'
    exact ⟨user', huser', rfl, rfl⟩

/-- A revocation changes no other user. -/
theorem sameUsers_other {rev : Revocation} (h : s'.users = s.users.update rev.user rev.apply)
    {u : UserId} (hu : u ≠ rev.user) : SameUsers s s' u := by
  constructor
  intro user' huser'
  rw [h, Table.get?_update, if_neg hu] at huser'
  exact ⟨user', huser', rfl, rfl⟩

/-- A step of call `c` to a phase in which no token is issued, without a change of users
and sessions. -/
theorem loginInv_own {moved : Call} (hinv : LoginInv s)
    (hcalls : s'.calls = Function.update s.calls c (some moved))
    (husers : s'.users = s.users) (hsessions : s'.sessions = s.sessions)
    (hissued : ∀ g id claims, moved.phase ≠ .issued g id claims)
    (hinserting : ∀ g i, moved.phase = .inserting g i → g.rotation = none → Verified s g) :
    LoginInv s' := by
  have hold : ∀ d call g id claims, s'.calls d = some call → call.phase = .issued g id claims →
      s.calls d = some call := by
    intro d call g id claims hd hphase
    rw [hcalls] at hd
    rcases stored_cases hd with ⟨_, rfl⟩ | ⟨_, hd⟩
    · exact absurd hphase (hissued g id claims)
    · exact hd
  have hsigned : ∀ d g root claims, SignedIn s' d g root claims →
      SignedIn s d g root claims := by
    intro d g root claims h
    obtain ⟨call, hd, hphase⟩ := h.issued
    exact ⟨⟨call, hold d call g root claims hd hphase, hphase⟩, h.login⟩
  have hsame := fun u => sameUsers_of_eq husers u
  refine ⟨?_, ?_, ?_, ?_⟩
  · intro d call g id claims hd hphase
    rw [hsessions]
    exact hinv.stored d call g id claims (hold d call g id claims hd hphase) hphase
  · intro d call g i hd hphase hlogin
    rw [hcalls] at hd
    rcases stored_cases hd with ⟨_, rfl⟩ | ⟨_, hd⟩
    · exact verified_same (hsame _) (hinserting g i hphase hlogin)
    · exact verified_same (hsame _) (hinv.inserting d call g i hd hphase hlogin)
  · intro d g root claims h id row hdescends hrow hopen
    rw [hsessions] at hdescends hrow
    exact verified_same (hsame _)
      (hinv.sessions d g root claims (hsigned d g root claims h) id row hdescends hrow hopen)
  · intro d g root claims h d' call' g' id claims' hd' hphase' hdescends
    rw [hsessions] at hdescends
    rcases hinv.tokens d g root claims (hsigned d g root claims h) d' call' g' id claims'
      (hold d' call' g' id claims' hd' hphase') hphase' hdescends with hverified | houtdated
    · exact Or.inl (verified_same (hsame _) hverified)
    · exact Or.inr (outdated_same (hsame _) houtdated)

/-- A session is inserted. -/
theorem loginInv_inserted {settings : Settings} {call : Call} {g : Grant} {i : Issue}
    {new : SessionId} (hinv : LoginInv s) (hauth : AuthInv s)
    (hcall : s.calls c = some call) (hphase : call.phase = .inserting g i)
    (hfresh : s.sessions.get? new = none) :
    LoginInv (s.insertSession settings c call g i new) := by
  have hrelies := hauth.relies c call hcall
  rw [hphase] at hrelies
  have hsame : ∀ u, SameUsers s (s.insertSession settings c call g i new) u :=
    sameUsers_touched rfl
  -- An issued token is the new one or an older one, whose session is not the new one.
  have hcase : ∀ d calld g' id claims,
      (s.insertSession settings c call g i new).calls d = some calld →
      calld.phase = .issued g' id claims →
      (d = c ∧ g' = g ∧ id = new ∧
          claims = g.claims i.av (i.now + settings.accessTokenTtl)) ∨
        (s.calls d = some calld ∧ id ≠ new) := by
    intro d calld g' id claims hd hphase'
    rw [State.insertSession_calls] at hd
    rcases stored_cases hd with ⟨hc, rfl⟩ | ⟨_, hd⟩
    · cases hphase'
      exact Or.inl ⟨hc, rfl, rfl, rfl⟩
    · refine Or.inr ⟨hd, ?_⟩
      intro hid
      obtain ⟨_, row, hrow, _⟩ := hinv.stored d calld g' id claims hd hphase'
      rw [hid, hfresh] at hrow
      cases hrow
  have hchild : ∀ d g' root claims, SignedIn s d g' root claims → ∀ r, g.rotation = some r →
      Descends s.sessions root r.session → Verified s g' := by
    intro d g' root claims hsigned r hr hdescends
    obtain ⟨_, row, hrow, _, _, hopen⟩ := hrelies.1 r hr
    exact hinv.sessions d g' root claims hsigned r.session row hdescends hrow hopen
  refine ⟨?_, ?_, ?_, ?_⟩
  · intro d calld g' id claims hd hphase'
    rcases hcase d calld g' id claims hd hphase' with ⟨_, rfl, rfl, rfl⟩ | ⟨hd, hne⟩
    · exact ⟨⟨_, rfl⟩, _, by rw [State.insertSession_sessions, get?_inserted hfresh, if_pos rfl], rfl⟩
    · obtain ⟨hclaims, row, hrow, huser⟩ := hinv.stored d calld g' id claims hd hphase'
      have hgrows : Grows s.sessions ((consumed s.sessions g).insert new (g.session settings i)) :=
        grows_inserted hfresh
      obtain ⟨row', hrow', hkept⟩ := hgrows id row hrow
      exact ⟨hclaims, row', hrow', hkept.user.trans huser⟩
  · intro d calld g' i' hd hphase' hlogin
    rw [State.insertSession_calls] at hd
    rcases stored_cases hd with ⟨_, rfl⟩ | ⟨_, hd⟩
    · cases hphase'
    · exact verified_same (hsame _) (hinv.inserting d calld g' i' hd hphase' hlogin)
  · intro d g' root claims hsigned id row hdescends hrow hopen
    obtain ⟨calld, hd, hphase'⟩ := hsigned.issued
    apply verified_same (hsame _)
    rcases hcase d calld g' root claims hd hphase' with ⟨_, rfl, rfl, _⟩ | ⟨hd, hne⟩
    · exact hinv.inserting c call g' i hcall hphase hsigned.login
    · have hold : SignedIn s d g' root claims := ⟨⟨calld, hd, hphase'⟩, hsigned.login⟩
      rcases descends_inserted hauth.sessions hfresh hne hdescends with
        ⟨hid, hdescends⟩ | ⟨_, r, hr, hdescends⟩
      · obtain ⟨old, hrow', _, hsame'⟩ := came_inserted hfresh hid row hrow
        obtain rfl := hsame' hopen
        exact hinv.sessions d g' root claims hold id old hdescends hrow' hopen
      · exact hchild d g' root claims hold r hr hdescends
  · intro d g' root claims hsigned d' calld' g'' id claims' hd' hphase'' hdescends
    obtain ⟨calld, hd, hphase'⟩ := hsigned.issued
    rcases hcase d calld g' root claims hd hphase' with ⟨_, rfl, rfl, _⟩ | ⟨hd, hne⟩
    · exact Or.inl (verified_same (hsame _)
        (hinv.inserting c call g' i hcall hphase hsigned.login))
    · have hold : SignedIn s d g' root claims := ⟨⟨calld, hd, hphase'⟩, hsigned.login⟩
      rcases descends_inserted hauth.sessions hfresh hne hdescends with
        ⟨hid, hdescends⟩ | ⟨_, r, hr, hdescends⟩
      · rcases hcase d' calld' g'' id claims' hd' hphase'' with ⟨_, _, hnew, _⟩ | ⟨hd', _⟩
        · exact absurd hnew hid
        · rcases hinv.tokens d g' root claims hold d' calld' g'' id claims' hd' hphase''
            hdescends with hverified | houtdated
          · exact Or.inl (verified_same (hsame _) hverified)
          · exact Or.inr (outdated_same (hsame _) houtdated)
      · exact Or.inl (verified_same (hsame _) (hchild d g' root claims hold r hr hdescends))

/-- A revocation is committed. -/
theorem loginInv_committed {call : Call} {rev : Revocation} {pending : List SessionId}
    (hinv : LoginInv s) (hauth : AuthInv s) (hepoch : EpochInv s)
    (hcall : s.calls c = some call) (hphase : call.phase = .sweeping rev [] pending) :
    LoginInv (s.commitRevocation c call rev pending) := by
  have hrelies := hauth.relies c call hcall
  rw [hphase] at hrelies
  have hsame : ∀ u, u ≠ rev.user → SameUsers s (s.commitRevocation c call rev pending) u :=
    fun u hu => sameUsers_other rfl hu
  have hold : ∀ d calld g id claims,
      (s.commitRevocation c call rev pending).calls d = some calld →
      calld.phase = .issued g id claims → s.calls d = some calld := by
    intro d calld g id claims hd hissued
    rw [State.commitRevocation_calls] at hd
    rcases stored_cases hd with ⟨_, rfl⟩ | ⟨_, hd⟩
    · cases hissued
    · exact hd
  have hsigned : ∀ d g root claims,
      SignedIn (s.commitRevocation c call rev pending) d g root claims →
      SignedIn s d g root claims := by
    intro d g root claims h
    obtain ⟨calld, hd, hissued⟩ := h.issued
    exact ⟨⟨calld, hold d calld g root claims hd hissued, hissued⟩, h.login⟩
  -- What descends from a login belongs to its user.
  have hfamily : ∀ d g root claims, SignedIn s d g root claims → ∀ id,
      Descends s.sessions root id →
      ∃ row, s.sessions.get? id = some row ∧ row.user = g.identity.user := by
    intro d g root claims h id hdescends
    obtain ⟨calld, hd, hissued⟩ := h.issued
    obtain ⟨_, row, hrow, huser⟩ := hinv.stored d calld g root claims hd hissued
    obtain ⟨row', hrow', huser', _⟩ := descends_kept hauth.sessions hrow hdescends
    exact ⟨row', hrow', huser'.trans huser⟩
  refine ⟨?_, ?_, ?_, ?_⟩
  · intro d calld g id claims hd hissued
    obtain ⟨hclaims, row, hrow, huser⟩ :=
      hinv.stored d calld g id claims (hold d calld g id claims hd hissued) hissued
    have hgrows : Grows s.sessions (swept s.sessions rev.now pending) := grows_swept
    obtain ⟨row', hrow', hkept⟩ := hgrows id row hrow
    exact ⟨hclaims, row', hrow', hkept.user.trans huser⟩
  · intro d calld g i hd hinserting hlogin
    rw [State.commitRevocation_calls] at hd
    rcases stored_cases hd with ⟨_, rfl⟩ | ⟨hne, hd⟩
    · cases hinserting
    · -- Both calls hold the row of their user.
      have hlock := hauth.relies d calld hd
      rw [hinserting] at hlock
      have huser : g.identity.user ≠ rev.user := by
        intro heq
        have hheld := hlock.2
        rw [heq, hrelies.2.1] at hheld
        exact hne (Option.some.inj hheld).symm
      exact verified_same (hsame _ huser) (hinv.inserting d calld g i hd hinserting hlogin)
  · intro d g root claims h id row hdescends hrow hopen
    have hsigned' := hsigned d g root claims h
    have hdescends' := descends_came (fun k => came_swept k) hdescends
    obtain ⟨old, hold', hkept, hsame'⟩ := came_swept id row hrow
    obtain ⟨row', hrow', huser⟩ := hfamily d g root claims hsigned' id hdescends'
    obtain rfl := Option.some.inj (hold'.symm.trans hrow')
    have hother : g.identity.user ≠ rev.user := by
      intro heq
      exact closed_of_committed hrelies hrow (hkept.user.trans (huser.trans heq)) hopen
    obtain rfl := hsame' hopen
    exact verified_same (hsame _ hother)
      (hinv.sessions d g root claims hsigned' id old hdescends' hold' hopen)
  · intro d g root claims h d' calld' g' id claims' hd' hissued' hdescends
    have hsigned' := hsigned d g root claims h
    have hdescends' := descends_came (fun k => came_swept k) hdescends
    have hd := hold d' calld' g' id claims' hd' hissued'
    by_cases hu : g.identity.user = rev.user
    · -- The epoch that was read for the token is not ahead of the one that is advanced.
      refine Or.inr ?_
      intro user' huser'
      obtain ⟨row, hrow, huser⟩ := hfamily d g root claims hsigned' id hdescends'
      obtain ⟨⟨exp, hclaims⟩, row', hrow', hother⟩ :=
        hinv.stored d' calld' g' id claims' hd hissued'
      obtain rfl := Option.some.inj (hrow.symm.trans hrow')
      obtain ⟨user, hstored, hle⟩ := hepoch.read d' calld' g' claims'.av hd
        (by rw [hissued']; rfl) (by rw [hissued']; exact ⟨rfl, exp, hclaims⟩)
      rw [hu, State.commitRevocation_users, Table.get?_update, if_pos rfl] at huser'
      obtain ⟨user'', hstored', rfl⟩ := Option.map_eq_some_iff.mp huser'
      rw [← hother, huser, hu, hstored'] at hstored
      obtain rfl := Option.some.inj hstored
      rw [Revocation.apply_authEpoch]
      omega
    · rcases hinv.tokens d g root claims hsigned' d' calld' g' id claims' hd hissued'
        hdescends' with hverified | houtdated
      · exact Or.inl (verified_same (hsame _ hu) hverified)
      · exact Or.inr (outdated_same (hsame _ hu) houtdated)

/-- **Step lemma.**  Every step at which a login finds its digest still stored keeps the
invariant. -/
theorem loginInv_step {settings : Settings} {act : Action} (hinv : LoginInv s)
    (hauth : AuthInv s) (hepoch : EpochInv s) (hok : verifiesCurrent s act = true)
    (hstep : step settings s act = some s') : LoginInv s' := by
  cases step_cases hstep with
  | @begin d request hnew =>
      have hreads := reads_start s d request
      refine loginInv_own (c := d) hinv rfl rfl rfl ?_ ?_
      · intro g id claims hissued
        rw [show (s.start d request) = .issued g id claims from hissued] at hreads
        cases hreads
      · intro g i hinserting
        rw [show (s.start d request) = .inserting g i from hinserting] at hreads
        cases hreads
  | @touched d call g i hcall hphase hfree =>
      refine loginInv_own (c := d) hinv rfl rfl rfl (fun _ _ _ h => by cases h) ?_
      intro g' i' hinserting hlogin user huser
      cases hinserting
      simpa [verifiesCurrent, hcall, hphase, hlogin, huser] using hok
  | @inserted d id call g i hcall hphase hfresh hlive =>
      exact loginInv_inserted hinv hauth hcall hphase hfresh
  | @committed d call rev pending hcall hphase =>
      exact loginInv_committed hinv hauth hepoch hcall hphase
  | @answered d call rev answer hcall hphase hanswer =>
      refine loginInv_own (c := d) hinv rfl rfl rfl ?_ ?_
      · intro g id claims hissued
        rcases (bumpAnswer_cases hanswer).2 with ⟨e, rfl⟩ | rfl <;> cases hissued
      · intro g i hinserting
        rcases (bumpAnswer_cases hanswer).2 with ⟨e, rfl⟩ | rfl <;> cases hinserting
  | tenant =>
      exact ⟨hinv.stored, hinv.inserting,
        fun d g root claims h => hinv.sessions d g root claims ⟨h.issued, h.login⟩,
        fun d g root claims h => hinv.tokens d g root claims ⟨h.issued, h.login⟩⟩
  | @consumed d | @raced d | @readEpoch d | @expired d | @bumped d | @snapshot d | @swept d
  | @skipped d | @aborted d =>
      exact loginInv_own (c := d) hinv rfl rfl rfl (fun _ _ _ h => by cases h)
        (fun _ _ h => by cases h)

end Step

/-! ## A digest that was replaced -/

/-- A digest drawn by a call of `recover_password` belongs to that call: the call holds it
until it ends, and it is stored only by then. -/
structure DigestInv (s : State) : Prop where
  held : ∀ c call rev d, s.calls c = some call → call.phase.revocation = some rev →
    rev.cause = .recovery d → d.salt = .recovery c
  stored : ∀ u user d c, s.users.get? u = some user → user.credentialDigest = some d →
    d.salt = .recovery c → ∃ call, s.calls c = some call ∧ call.phase.ended = true

/-- The digest is not stored for the user, and no call is to store it. -/
structure Gone (s : State) (u : UserId) (d : Digest) : Prop where
  replaced : ∀ user, s.users.get? u = some user → user.credentialDigest ≠ some d
  drawn : ∀ c, d.salt = .recovery c → ∃ call, s.calls c = some call ∧ call.phase.ended = true

section Digest

variable {settings : Settings} {s s' : State} {act : Action}

/-- A call that has ended stays so. -/
theorem ended_step (hstep : step settings s act = some s') {c : CallId}
    (h : ∃ call, s.calls c = some call ∧ call.phase.ended = true) :
    ∃ call, s'.calls c = some call ∧ call.phase.ended = true := by
  obtain ⟨⟨request, before⟩, hcall, hended⟩ := h
  obtain ⟨phase, hphase, hmoves⟩ := moves_step hstep hcall
  refine ⟨_, hphase, ?_⟩
  rcases hmoves with rfl | hmoves
  · exact hended
  · exfalso
    dsimp only at hmoves hended
    cases hmoves with
    | aborted hactive =>
        rw [hended] at hactive
        cases hactive
    | _ => cases hended

/-- Where a stored digest comes from: it was stored before, or a recovery commits it. -/
theorem digest_step (hstep : step settings s act = some s') {u : UserId} {user' : User}
    {d : Digest} (huser' : s'.users.get? u = some user')
    (hdigest : user'.credentialDigest = some d) :
    (∃ user, s.users.get? u = some user ∧ user.credentialDigest = some d) ∨
      ∃ c call rev, s.calls c = some call ∧ call.phase.revocation = some rev ∧
        call.phase.ended = false ∧ rev.cause = .recovery d ∧
        ∃ call', s'.calls c = some call' ∧ call'.phase.ended = true := by
  cases step_cases hstep with
  | @inserted c id call g i hcall hphase hfresh hlive =>
      have hsame : SameUsers s (s.insertSession settings c call g i id) u :=
        sameUsers_touched rfl u
      obtain ⟨user, huser, hsame, _⟩ := hsame.same user' huser'
      exact Or.inl ⟨user, huser, hsame.symm.trans hdigest⟩
  | @committed c call rev pending hcall hphase =>
      rw [State.commitRevocation_users, Table.get?_update] at huser'
      by_cases hu : u = rev.user
      · rw [if_pos hu] at huser'
        obtain ⟨user, huser, rfl⟩ := Option.map_eq_some_iff.mp huser'
        cases hcause : rev.cause with
        | recovery digest =>
            simp only [Revocation.apply, hcause, Option.some.injEq] at hdigest
            subst hdigest
            exact Or.inr ⟨c, call, rev, hcall, by rw [hphase]; rfl, by rw [hphase]; rfl, hcause,
              _, Function.update_self .., rfl⟩
        | reuse session | logout | update tenant payload =>
            simp only [Revocation.apply, MemberUpdate.apply, hcause] at hdigest
            exact Or.inl ⟨user, huser, hdigest⟩
      · rw [if_neg hu] at huser'
        exact Or.inl ⟨user', huser', hdigest⟩
  | _ => exact Or.inl ⟨user', huser', hdigest⟩

/-- A call keeps its revocation as long as it has one. -/
theorem revocation_moves {c : CallId} {phase phase' : Phase} (hmoves : Moves c act phase phase')
    {rev : Revocation} {d : Digest} (h : phase'.revocation = some rev)
    (hcause : rev.cause = .recovery d) : phase.revocation = some rev := by
  cases hmoves with
  | raced identity r =>
      obtain rfl := Option.some.inj h
      cases hcause
  | bumped | snapshot | swept | committed => exact h
  | consumed | readEpoch | touched | inserted | expired | refused | unchanged | aborted => cases h

/-- The recovery a call starts with holds a digest with the salt of the call. -/
theorem digest_start (c : CallId) (request : Request) {rev : Revocation} {d : Digest}
    (h : (s.start c request).revocation = some rev) (hcause : rev.cause = .recovery d) :
    d.salt = .recovery c := by
  have hstarts := start_starts s c request
  generalize s.start c request = phase at hstarts h
  cases hstarts with
  | refused | granted | consuming => cases h
  | reused | logout | update =>
      cases h
      cases hcause
  | recovery =>
      cases h
      cases hcause
      rfl

/-- **Step lemma.**  Every step keeps the digests with their calls. -/
theorem digestInv_step (hinv : DigestInv s) (hstep : step settings s act = some s') :
    DigestInv s' where
  held := by
    intro c call' rev d hcall' hrev hcause
    cases hcall : s.calls c with
    | none =>
        rw [(started_step hstep hcall hcall').2] at hrev
        exact digest_start c call'.request hrev hcause
    | some call =>
        obtain ⟨phase, hphase, hmoves⟩ := moves_step hstep hcall
        obtain rfl := Option.some.inj (hphase.symm.trans hcall')
        rcases hmoves with rfl | hmoves
        · exact hinv.held c call rev d hcall hrev hcause
        · exact hinv.held c call rev d hcall (revocation_moves hmoves hrev hcause) hcause
  stored := by
    intro u user' d c huser' hdigest hsalt
    rcases digest_step hstep huser' hdigest with
      ⟨user, huser, hold⟩ | ⟨c', call, rev, hcall, hrev, _, hcause, hended⟩
    · exact ended_step hstep (hinv.stored u user d c huser hold hsalt)
    · have hsame := (hinv.held c' call rev d hcall hrev hcause).symm.trans hsalt
      cases hsame
      exact hended

/-- **Step lemma.**  A digest that was replaced does not come back. -/
theorem gone_step {u : UserId} {d : Digest} (hinv : DigestInv s) (h : Gone s u d)
    (hstep : step settings s act = some s') : Gone s' u d where
  replaced := by
    intro user' huser' hdigest
    rcases digest_step hstep huser' hdigest with
      ⟨user, huser, hold⟩ | ⟨c, call, rev, hcall, hrev, hactive, hcause, _⟩
    · exact h.replaced user huser hold
    · obtain ⟨call', hcall', hended⟩ := h.drawn c (hinv.held c call rev d hcall hrev hcause)
      obtain rfl := Option.some.inj (hcall.symm.trans hcall')
      rw [hended] at hactive
      cases hactive
  drawn := fun c hsalt => ended_step hstep (h.drawn c hsalt)

/-- The commit of a recovery replaces the digest it finds. -/
theorem gone_of_recovery (hinv : DigestInv s) {r : CallId} {call : Call} {rev : Revocation}
    {pending : List SessionId} {d new : Digest} {user : User}
    (hstep : step settings s (.commit r) = some s') (hcall : s.calls r = some call)
    (hphase : call.phase = .sweeping rev [] pending) (hcause : rev.cause = .recovery new)
    (huser : s.users.get? rev.user = some user) (hd : user.credentialDigest = some d) :
    Gone s' rev.user d where
  replaced := by
    intro user' huser' hdigest
    cases step_cases hstep with
    | @committed _ call' rev' pending' hcall' hphase' =>
        obtain rfl := Option.some.inj (hcall.symm.trans hcall')
        rw [hphase] at hphase'
        cases hphase'
        rw [State.commitRevocation_users, Table.get?_update, if_pos rfl, huser,
          Option.map_some, Option.some.injEq] at huser'
        subst huser'
        simp only [Revocation.apply, hcause, Option.some.injEq] at hdigest
        subst hdigest
        -- The new digest is stored for the first time: its call has not ended.
        have hsalt := hinv.held r call rev new hcall (by rw [hphase]; rfl) hcause
        obtain ⟨ended, hended, hdone⟩ := hinv.stored rev.user user new r huser hd hsalt
        obtain rfl := Option.some.inj (hcall.symm.trans hended)
        rw [hphase] at hdone
        cases hdone
  drawn := fun c hsalt => ended_step hstep (hinv.stored rev.user user d c huser hd hsalt)

end Digest

/-! ## After a recovery -/

/-- Some step answers a refresh of this session with new tokens. -/
def AcceptedByRefresh (settings : Settings) (t : State) (session : SessionId) : Prop :=
  ∃ c new t' call g claims, step settings t (.insert c new) = some t' ∧
    t'.calls c = some call ∧ call.phase = .issued g new claims ∧
    g.rotation.map Rotation.session = some session

/-- Neither the tokens issued with `root` and its descendants nor their refresh tokens are
accepted. -/
def ShutOut (settings : Settings) (t : State) (root : SessionId) : Prop :=
  ∀ id, Descends t.sessions root id →
    (∀ c call g claims now p, t.calls c = some call → call.phase = .issued g id claims →
      bearerPrincipal t.users t.tenants claims now ≠ .ok p) ∧
    (∀ c now identity r, t.start c (.refresh id now) ≠ .consuming identity r) ∧
    ¬ AcceptedByRefresh settings t id

/-- The digest a login verified is no longer the stored one: it is shut out. -/
theorem shutOut_of_gone {settings : Settings} {t : State} (hauth : AuthInv t)
    (hlogin : LoginInv t) {u : UserId} {d : Digest} (hgone : Gone t u d) {c : CallId}
    {g : Grant} {root : SessionId} {claims : AccessClaims} (hsigned : SignedIn t c g root claims)
    (huser : g.identity.user = u) (hverified : g.identity.credentialDigest = some d)
    (hstored : ∃ user, t.users.get? u = some user) : ShutOut settings t root := by
  obtain ⟨user, hstored⟩ := hstored
  have hnot : ¬ Verified t g := by
    intro h
    have hsame := h user (by rw [huser]; exact hstored)
    exact hgone.replaced user hstored (hsame.trans hverified)
  have hclosed : ∀ id row, Descends t.sessions root id → t.sessions.get? id = some row →
      row.revokedAt ≠ none := fun id row hdescends hrow hopen =>
    hnot (hlogin.sessions c g root claims hsigned id row hdescends hrow hopen)
  intro id hdescends
  refine ⟨?_, ?_, ?_⟩
  · intro c' call' g' claims' now p hcall' hissued' haccepted
    obtain ⟨call, hcall, hissued⟩ := hsigned.issued
    obtain ⟨_, row, hrow, hrowUser⟩ := hlogin.stored c call g root claims hcall hissued
    obtain ⟨row', hrow', huser', _⟩ := descends_kept hauth.sessions hrow hdescends
    obtain ⟨⟨exp, hclaims⟩, row'', hrow'', hother⟩ :=
      hlogin.stored c' call' g' id claims' hcall' hissued'
    obtain rfl := Option.some.inj (hrow'.symm.trans hrow'')
    obtain ⟨holder, hholder, _, _, _, hav, _⟩ := bearerPrincipal_ok haccepted
    rcases hlogin.tokens c g root claims hsigned c' call' g' id claims' hcall' hissued'
      hdescends with hstill | houtdated
    · exact hnot hstill
    · have hsub : claims'.sub = g.identity.user := by
        rw [hclaims]
        exact hother.symm.trans (huser'.trans hrowUser)
      have hlt := houtdated holder (by rw [← hsub]; exact hholder)
      omega
  · intro c' now identity r hstart
    have hstarts := start_starts t c' (.refresh id now)
    rw [hstart] at hstarts
    cases hstarts with
    | consuming hrow _ hopen => exact hclosed id _ hdescends hrow hopen
  · intro haccepted
    obtain ⟨c', new, t', call', g', claims', hstep, hcall', hissued', hsession⟩ := haccepted
    cases step_cases hstep with
    | @inserted _ _ call g'' i hcall hphase hfresh hlive =>
        rw [State.insertSession_calls, Function.update_self] at hcall'
        obtain rfl := Option.some.inj hcall'
        cases hissued'
        have hrelies := hauth.relies c' call hcall
        rw [hphase] at hrelies
        obtain ⟨r, hr, rfl⟩ := Option.map_eq_some_iff.mp hsession
        obtain ⟨_, row, hrow, _, _, hopen⟩ := hrelies.1 r hr
        exact hclosed r.session row hdescends hrow hopen
    | @expired _ _ call g'' i hcall hphase =>
        rw [State.finish_calls, Function.update_self] at hcall'
        obtain rfl := Option.some.inj hcall'
        cases hissued'

/-- The invariants of the runs in which logins find their digest still stored. -/
structure RecoveryInv (s : State) : Prop where
  auth : AuthInv s
  epoch : EpochInv s
  login : LoginInv s
  digest : DigestInv s

theorem recoveryInv_step {settings : Settings} {s s' : State} {act : Action}
    (hinv : RecoveryInv s) (hok : verifiesCurrent s act = true)
    (hstep : step settings s act = some s') : RecoveryInv s' where
  auth := authInv_step hinv.auth hstep
  epoch := epochInv_step hinv.epoch hstep
  login := loginInv_step hinv.login hinv.auth hinv.epoch hok hstep
  digest := digestInv_step hinv.digest hstep

theorem recoveryInv_initial (setup : Setup) : RecoveryInv setup.initial where
  auth := by
    have hstart : Reachable (system ⟨0, 0⟩ setup) anyStep setup.initial := ⟨[], .nil _⟩
    exact authInv_reachable hstart
  epoch := by
    have hstart : Reachable (system ⟨0, 0⟩ setup) anyStep setup.initial := ⟨[], .nil _⟩
    exact epochInv_reachable hstart
  login := by
    refine ⟨?_, ?_, ?_, ?_⟩
    · intro c call g id claims hcall
      cases hcall
    · intro c call g i hcall
      cases hcall
    · intro c g root claims h
      obtain ⟨call, hcall, _⟩ := h.issued
      cases hcall
    · intro c g root claims h
      obtain ⟨call, hcall, _⟩ := h.issued
      cases hcall
  digest := by
    refine ⟨?_, ?_⟩
    · intro c call rev d hcall
      cases hcall
    · intro u user d c huser hdigest hsalt
      rw [setup.drawn u user d huser hdigest] at hsalt
      cases hsalt

/-- What is promised of the runs whose steps meet `ok`: once a recovery has committed, the
logins that verified the digest it replaced are shut out. -/
def RecoveryShutsOut (settings : Settings) (setup : Setup) (ok : State → Action → Prop) : Prop :=
  ∀ before s r s' after t callr rev pending new user d c g root claims,
    Run (system settings setup) ok setup.initial before s →
    s.calls r = some callr → callr.phase = .sweeping rev [] pending →
    rev.cause = .recovery new → s.users.get? rev.user = some user →
    user.credentialDigest = some d → step settings s (.commit r) = some s' →
    Run (system settings setup) ok s' after t → SignedIn t c g root claims →
    g.identity.user = rev.user → g.identity.credentialDigest = some d →
    ShutOut settings t root

/-- **A recovery shuts out the logins before it**, in every run in which a login updates
the row of its user only while the digest it verified is stored. -/
theorem recovery_shuts_out (settings : Settings) (setup : Setup) :
    RecoveryShutsOut settings setup fun s act => verifiesCurrent s act = true := by
  intro before s r s' after t callr rev pending new user d c g root claims hbefore hcall hphase
    hcause huser hd hstep hafter hsigned hgrant hverified
  have hs : RecoveryInv s := hbefore.invariant (P := RecoveryInv)
    (fun _ _ _ hnow hok hnext => recoveryInv_step hnow hok hnext) (recoveryInv_initial setup)
  have hs' : RecoveryInv s' := recoveryInv_step hs rfl hstep
  have hgone := gone_of_recovery hs.digest hstep hcall hphase hcause huser hd
  have hend : RecoveryInv t ∧ Gone t rev.user d := by
    refine hafter.invariant (P := fun u => RecoveryInv u ∧ Gone u rev.user d) ?_ ⟨hs', hgone⟩
    intro u act u' hnow hok hnext
    exact ⟨recoveryInv_step hnow.1 hok hnext, gone_step hnow.1.digest hnow.2 hnext⟩
  obtain ⟨user', huser', _⟩ := user_step hstep huser
  obtain ⟨user'', huser'', _⟩ := user_run hafter huser'
  exact shutOut_of_gone hend.1.auth hend.1.login hend.2 hsigned hgrant hverified
    ⟨user'', huser''⟩

/-! ## A login before a recovery, and one that is overtaken -/

/-- What the login of user 1 is granted. -/
def adaGrant : Grant :=
  ⟨⟨1, 1, "ada@shop", some ⟨"first", .setup⟩, .active, .active, .tenantAdministrator⟩,
    false, none⟩

/-- User 1 signs in; then a recovery of the password is about to commit. -/
def loginThenRecovery : List Action :=
  [.begin 1 (.login "ada@shop" "first"), .readEpoch 1 10, .touch 1, .insert 1 1,
    .begin 2 (.recover 1 "second" 20), .bump 2, .snapshot 2, .sweep 2]

/-- The session of the login is presented afterwards. -/
def refreshAfterRecovery : List Action := [.begin 3 (.refresh 1 30)]

/-- The login that came first is shut out. -/
theorem recovery_shuts_out_ordered :
    ∃ s s' t, Run (system shortLived twoAccounts) (fun s act => verifiesCurrent s act = true)
        twoAccounts.initial loginThenRecovery s ∧
      step shortLived s (.commit 2) = some s' ∧
      Run (system shortLived twoAccounts) (fun s act => verifiesCurrent s act = true)
        s' refreshAfterRecovery t ∧
      ShutOut shortLived t 1 := by
  have hdone : ((execWhile (system shortLived twoAccounts) verifiesCurrent
        twoAccounts.initial loginThenRecovery).bind fun s =>
      (step shortLived s (.commit 2)).bind fun s' =>
      (execWhile (system shortLived twoAccounts) verifiesCurrent s'
        refreshAfterRecovery).map fun t =>
          (s.calls 2, (s.users.get? 1).map User.credentialDigest, t.calls 1)) =
      some (some ⟨.recover 1 "second" 20,
          .sweeping ⟨.recovery ⟨"second", .recovery 2⟩, 1, 20⟩ [] [1]⟩,
        some (some ⟨"first", .setup⟩),
        some ⟨.login "ada@shop" "first", .issued adaGrant 1 (adaGrant.claims 0 610)⟩) := by
    decide +kernel
  obtain ⟨s, hbefore, hdone⟩ := Option.bind_eq_some_iff.mp hdone
  obtain ⟨s', hstep, hdone⟩ := Option.bind_eq_some_iff.mp hdone
  obtain ⟨t, hafter, hdone⟩ := Option.map_eq_some_iff.mp hdone
  simp only [Prod.mk.injEq] at hdone
  obtain ⟨hcall, hstored, hissued⟩ := hdone
  obtain ⟨user, huser, hdigest⟩ := Option.map_eq_some_iff.mp hstored
  have hbefore := run_of_execWhile hbefore
  have hafter := run_of_execWhile hafter
  exact ⟨s, s', t, hbefore, hstep, hafter,
    recovery_shuts_out shortLived twoAccounts _ s 2 s' _ t _ _ _ _ _ _ 1 _ 1 _ hbefore hcall rfl rfl
      huser hdigest hstep hafter ⟨⟨_, hissued, rfl⟩, rfl⟩ rfl rfl⟩

/-- The login verifies the first password; the recovery is about to commit. -/
def overtakenLogin : List Action :=
  [.begin 1 (.login "ada@shop" "first"), .begin 2 (.recover 1 "second" 20), .bump 2,
    .snapshot 2]

/-- The login goes on: it reads the new epoch and inserts its session. -/
def loginGoesOn : List Action := [.readEpoch 1 30, .touch 1, .insert 1 1]

/-- **A login overtaken by a recovery is not shut out**: its access token is accepted. -/
theorem overtaken_login_accepted : ¬ RecoveryShutsOut shortLived twoAccounts anyStep := by
  intro hshuts
  have hdone : ((exec (system shortLived twoAccounts) twoAccounts.initial
        overtakenLogin).bind fun s =>
      (step shortLived s (.commit 2)).bind fun s' =>
      (exec (system shortLived twoAccounts) s' loginGoesOn).map fun t =>
          (s.calls 2, (s.users.get? 1).map User.credentialDigest, t.calls 1,
            bearerPrincipal t.users t.tenants (adaGrant.claims 1 630) 40)) =
      some (some ⟨.recover 1 "second" 20,
          .sweeping ⟨.recovery ⟨"second", .recovery 2⟩, 1, 20⟩ [] []⟩,
        some (some ⟨"first", .setup⟩),
        some ⟨.login "ada@shop" "first", .issued adaGrant 1 (adaGrant.claims 1 630)⟩,
        .ok adaPrincipal) := by
    decide +kernel
  obtain ⟨s, hbefore, hdone⟩ := Option.bind_eq_some_iff.mp hdone
  obtain ⟨s', hstep, hdone⟩ := Option.bind_eq_some_iff.mp hdone
  obtain ⟨t, hafter, hdone⟩ := Option.map_eq_some_iff.mp hdone
  simp only [Prod.mk.injEq] at hdone
  obtain ⟨hcall, hstored, hissued, haccepted⟩ := hdone
  obtain ⟨user, huser, hdigest⟩ := Option.map_eq_some_iff.mp hstored
  have hshut : ShutOut shortLived t 1 :=
    hshuts overtakenLogin s 2 s' loginGoesOn t _ _ _ _ _ _ 1 _ 1 _ (run_of_exec hbefore)
      hcall rfl rfl huser hdigest hstep (run_of_exec hafter) ⟨⟨_, hissued, rfl⟩, rfl⟩ rfl rfl
  obtain ⟨htokens, _, _⟩ := hshut 1 .root
  exact htokens 1 _ _ _ 40 _ hissued rfl haccepted

end Auth
