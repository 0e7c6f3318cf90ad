import GraphRec.Auth.Revocation

/-!
# Rotation of refresh tokens

A refresh consumes the session it presents by a guarded update and inserts a child of
it.  Two refreshes of one session cannot both pass the guard, so a session has one
child; a token whose session has a child already ends in the revocation of the user's
whole family, also when the child is inserted while the refresh is under way.  The
revocation takes the row of the user before it reads which sessions are open, and a
session is inserted under that row, so none escapes it.  A child keeps its parent's
expiry, so a chain of refreshes ends with its login.
-/

namespace Auth

open Transition

/-- The sessions that come from `root` by refreshes. -/
inductive Descends (t : Table SessionId RefreshSession) (root : SessionId) : SessionId → Prop
  | root : Descends t root root
  | child {p id : SessionId} {row : RefreshSession} (hp : Descends t root p)
      (hrow : t.get? id = some row) (hfrom : row.rotatedFrom = some p) : Descends t root id

/-- Every descendant has the user and the expiry of its root. -/
theorem descends_kept {t : Table SessionId RefreshSession} (hinv : SessionInv t)
    {root id : SessionId} {row : RefreshSession} (hroot : t.get? root = some row)
    (h : Descends t root id) :
    ∃ row', t.get? id = some row' ∧ row'.user = row.user ∧ row'.expiresAt = row.expiresAt := by
  induction h with
  | root => exact ⟨row, hroot, rfl, rfl⟩
  | @child p id crow hp hrow hfrom ih =>
      obtain ⟨prow, hprow, huser, hexpires⟩ := ih
      obtain ⟨prow', hprow', _, hcuser, hcexpires⟩ := hinv.parent id crow p hrow hfrom
      obtain rfl := Option.some.inj (hprow.symm.trans hprow')
      exact ⟨crow, hrow, hcuser.trans huser, hcexpires.trans hexpires⟩

section Presentation

variable {s s' : State} {session : SessionId}

/-- A session that was rotated has been revoked. -/
theorem closed_of_rotated (hinv : SessionInv s.sessions) (h : s.rotated session = true) :
    ∃ row, s.sessions.get? session = some row ∧ row.revokedAt ≠ none := by
  obtain ⟨child, hmem, hfrom⟩ := List.any_eq_true.mp h
  have hchild := (Table.mem_rows_iff s.sessions).mp hmem
  obtain ⟨prow, hprow, hclosed, _⟩ :=
    hinv.parent child.1 child.2 session hchild (by simpa using hfrom)
  exact ⟨prow, hprow, hclosed⟩

/-- A refresh that holds the session it consumed holds one without a child. -/
theorem not_rotated_of_consumed (hinv : SessionInv s.sessions) {c : CallId} {g : Grant}
    (hconsumed : Consumed s c g) (hsession : g.rotation.map Rotation.session = some session) :
    s.rotated session = false := by
  obtain ⟨r, hr, rfl⟩ := Option.map_eq_some_iff.mp hsession
  obtain ⟨_, row, hrow, _, _, hopen⟩ := hconsumed r hr
  by_contra hrotated
  obtain ⟨row', hrow', hclosed⟩ := closed_of_rotated hinv (by simpa using hrotated)
  obtain rfl := Option.some.inj (hrow.symm.trans hrow')
  exact hclosed hopen

/-- The step answers call `c`, a refresh of this session. -/
structure AnswersRefresh (s s' : State) (c : CallId) (session : SessionId) : Prop where
  open' : ∀ call, s.calls c = some call → call.phase.ended = false
  answered : ∃ call now, s'.calls c = some call ∧ call.request = .refresh session now ∧
    call.phase.ended = true

/-- Between the two states all sessions of the session's user are revoked and its epoch
is advanced. -/
def FamilyRevoked (s s' : State) (session : SessionId) : Prop :=
  ∃ row user user', s.sessions.get? session = some row ∧
    s.users.get? row.user = some user ∧ s'.users.get? row.user = some user' ∧
    user'.authEpoch = user.authEpoch + 1 ∧
    ∀ id other, s'.sessions.get? id = some other → other.user = row.user →
      other.revokedAt ≠ none

/-- The commit of a revocation leaves no session of its user open. -/
theorem closed_of_committed {c : CallId} {rev : Revocation}
    {pending : List SessionId} (hrelies : Relies s c (.sweeping rev [] pending))
    {id : SessionId} {row : RefreshSession}
    (hrow : (swept s.sessions rev.now pending).get? id = some row)
    (huser : row.user = rev.user) : row.revokedAt ≠ none := by
  intro hopen
  obtain ⟨old, hold, _, hsame⟩ := came_swept id row hrow
  obtain rfl := hsame hopen
  obtain ⟨_, _, _, hcovers⟩ := hrelies
  have hin : id ∈ pending := by
    rcases hcovers id old hold huser hopen with hnone | hin
    · cases hnone
    · exact hin
  rw [swept, Table.get?_updateWhere, hold, Option.map_some, if_pos hin] at hrow
  rw [← Option.some.inj hrow] at hopen
  cases hopen

/-- A token that has been rotated is not refused at its presentation, nor does its refresh
go on to consume it: the family is to be revoked. -/
theorem start_of_rotated (hinv : AuthInv s) (hepoch : EpochInv s)
    (hrotated : s.rotated session = true) (c : CallId) (now : Time) :
    (s.start c (.refresh session now)).ended = false := by
  obtain ⟨row, hrow, hclosed⟩ := closed_of_rotated hinv.sessions hrotated
  obtain ⟨user, huser⟩ := hepoch.owned session row hrow
  have hsome : row.revokedAt.isSome = true := Option.isSome_iff_ne_none.mpr hclosed
  simp only [State.start, State.resolveRefresh, hrow, huser, hsome, hrotated, and_self, if_true]
  rfl

/-- **A token presented again revokes the family**: whichever step answers a refresh whose
session has a child, other than a rollback, commits the revocation. -/
theorem family_revoked (hinv : AuthInv s) (hepoch : EpochInv s) {settings : Settings}
    {act : Action} (hstep : step settings s act = some s') {c : CallId}
    (hact : act ≠ .abort c) (hanswers : AnswersRefresh s s' c session)
    (hrotated : s.rotated session = true) : FamilyRevoked s s' session := by
  obtain ⟨call', now, hcall', hrequest, hended⟩ := hanswers.answered
  cases hcall : s.calls c with
  | none =>
      -- Answered by its first statements, which a rotated token is not.
      rw [(started_step hstep hcall hcall').2, hrequest,
        start_of_rotated hinv hepoch hrotated] at hended
      cases hended
  | some call =>
      obtain ⟨phase, hphase', hmoves⟩ := moves_step hstep hcall
      obtain rfl := Option.some.inj (hphase'.symm.trans hcall')
      have hactive := hanswers.open' call hcall
      have hpresented := hinv.presents c call session now hcall hrequest hactive
      have hrelies := hinv.relies c call hcall
      rcases hmoves with rfl | hmoves
      · rw [hactive] at hended
        cases hended
      · obtain ⟨request, before⟩ := call
        dsimp only at hmoves hpresented hrelies hactive
        cases hmoves with
        | inserted g i id exp =>
            rw [not_rotated_of_consumed hinv.sessions hrelies.1 hpresented] at hrotated
            cases hrotated
        | expired g i id =>
            rw [not_rotated_of_consumed hinv.sessions hrelies.1 hpresented] at hrotated
            cases hrotated
        | refused rev error hcause =>
            exact absurd (Revocation.cause_of_presented hpresented) (hcause session)
        | unchanged rev hcause =>
            exact absurd (Revocation.cause_of_presented hpresented) (hcause session)
        | committed rev pending =>
            obtain ⟨row, hrow, huser⟩ :=
              hrelies.1 session (Revocation.cause_of_presented hpresented)
            obtain ⟨user, hstored⟩ := hepoch.owned session row hrow
            cases step_cases hstep with
            | @committed _ calld rev' pending' hd hphase =>
                rw [hcall] at hd
                obtain rfl := Option.some.inj hd
                cases hphase
                refine ⟨row, user, rev.apply user, hrow, hstored, ?_,
                  Revocation.apply_authEpoch rev user, ?_⟩
                · rw [huser] at hstored ⊢
                  rw [State.commitRevocation_users, Table.get?_update, if_pos rfl, hstored,
                    Option.map_some]
                · intro id other hother hother'
                  exact closed_of_committed hrelies hother (hother'.trans huser)
        | aborted => exact absurd rfl hact
        | consumed | raced | readEpoch | touched | bumped | snapshot | swept => cases hended

end Presentation

/-- **Rotation is safe** in every run: a session has at most one child, a presentation of
a rotated token ends in the revocation of the whole family, and every descendant of a
session was created before the expiry it shares with it. -/
theorem rotation_safe {settings : Settings} {setup : Setup} {s : State} {as : List Action}
    (hrun : Run (system settings setup) anyStep setup.initial as s) :
    (∀ a b ra rb p, s.sessions.get? a = some ra → s.sessions.get? b = some rb →
      ra.rotatedFrom = some p → rb.rotatedFrom = some p → a = b) ∧
    (∀ act s' c session, step settings s act = some s' → act ≠ .abort c →
      AnswersRefresh s s' c session → s.rotated session = true →
      FamilyRevoked s s' session) ∧
    ∀ root row id, s.sessions.get? root = some row → Descends s.sessions root id →
      ∃ row', s.sessions.get? id = some row' ∧ row'.expiresAt = row.expiresAt ∧
        row'.createdAt < row.expiresAt := by
  have hinv := authInv_reachable ⟨as, hrun⟩
  have hepoch := epochInv_reachable ⟨as, hrun⟩
  refine ⟨hinv.sessions.onlyChild, ?_, ?_⟩
  · intro act s' c session hstep hact hanswers hrotated
    exact family_revoked hinv hepoch hstep hact hanswers hrotated
  · intro root row id hroot hdescends
    obtain ⟨row', hrow', _, hexpires⟩ := descends_kept hinv.sessions hroot hdescends
    refine ⟨row', hrow', hexpires, ?_⟩
    rw [← hexpires]
    exact hinv.sessions.born id row' hrow'

/-- Two refreshes present the session of a login; the first is answered with its child,
the second finds it consumed and is about to commit the revocation. -/
def racedRefreshes : List Action :=
  [.begin 1 (.login "ada@shop" "first"), .readEpoch 1 10, .touch 1, .insert 1 1,
    .begin 2 (.refresh 1 20), .begin 3 (.refresh 1 20),
    .consume 2, .readEpoch 2 20, .touch 2, .insert 2 2,
    .consume 3, .bump 3, .snapshot 3, .sweep 3]

/-- The second refresh ends with both sessions revoked. -/
theorem rotation_safe_raced :
    ∃ s s', Run (system shortLived twoAccounts) anyStep twoAccounts.initial racedRefreshes s ∧
      step shortLived s (.commit 3) = some s' ∧ FamilyRevoked s s' 1 := by
  have hdone : ((exec (system shortLived twoAccounts) twoAccounts.initial racedRefreshes).bind
      fun s => (step shortLived s (.commit 3)).map fun s' =>
        (s.rotated 1, (s.calls 3).map fun call => call.phase.ended, s'.calls 3)) =
      some (true, some false, some ⟨.refresh 1 20, .revoked ⟨.reuse 1, 1, 20⟩⟩) := by
    decide +kernel
  obtain ⟨s, hexec, hdone⟩ := Option.bind_eq_some_iff.mp hdone
  obtain ⟨s', hstep, hdone⟩ := Option.map_eq_some_iff.mp hdone
  simp only [Prod.mk.injEq] at hdone
  obtain ⟨hrotated, hopen, hanswered⟩ := hdone
  have hrun := run_of_exec hexec
  have hanswers : AnswersRefresh s s' 3 1 := by
    refine ⟨?_, _, 20, hanswered, rfl, rfl⟩
    intro call hcall
    rw [hcall] at hopen
    exact Option.some.inj hopen
  obtain ⟨_, hfamily, _⟩ := rotation_safe hrun
  exact ⟨s, s', hrun, hstep,
    hfamily (.commit 3) s' 3 1 hstep (fun h => by cases h) hanswers hrotated⟩

end Auth
