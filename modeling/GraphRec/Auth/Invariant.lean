import GraphRec.Auth.System

/-!
# What a call relies on while it waits

The rows a transaction has updated are locked until it ends, so the statements of a
call may rely on what the earlier ones saw (`Relies`): a refresh that consumed its
session finds it still open and without a child, and a revocation that holds the
user's row has every open session of the user still to update or already updated,
since a session is inserted under the lock of its user.

`authInv_step` shows that every step keeps this for all calls at once, together with
the shape of the sessions: a session with a child is revoked, it has one child only,
and the child keeps its user and its expiry.
-/

namespace Auth

open Transition

/-! ## How rows of sessions change -/

/-- What no step changes in a session; a revoked session stays revoked. -/
structure Kept (row row' : RefreshSession) : Prop where
  user : row'.user = row.user
  createdAt : row'.createdAt = row.createdAt
  expiresAt : row'.expiresAt = row.expiresAt
  rotatedFrom : row'.rotatedFrom = row.rotatedFrom
  closed : row.revokedAt ≠ none → row'.revokedAt ≠ none

theorem Kept.refl (row : RefreshSession) : Kept row row :=
  ⟨rfl, rfl, rfl, rfl, fun h => h⟩

theorem Kept.revokeAt (now : Time) (row : RefreshSession) : Kept row (revokeAt now row) :=
  ⟨rfl, rfl, rfl, rfl, fun _ h => by cases h⟩

/-- No session is lost. -/
def Grows (t t' : Table SessionId RefreshSession) : Prop :=
  ∀ id row, t.get? id = some row → ∃ row', t'.get? id = some row' ∧ Kept row row'

theorem Grows.refl (t : Table SessionId RefreshSession) : Grows t t :=
  fun _ row h => ⟨row, h, Kept.refl row⟩

/-- The row of `id` before the change of a table, if it had one. -/
def Came (t t' : Table SessionId RefreshSession) (id : SessionId) : Prop :=
  ∀ row', t'.get? id = some row' →
    ∃ row, t.get? id = some row ∧ Kept row row' ∧ (row'.revokedAt = none → row = row')

section Changes

variable {t : Table SessionId RefreshSession} {g : Grant} {id : SessionId}

/-- The consumed session is the only one that changes. -/
theorem get?_consumed (k : SessionId) :
    (consumed t g).get? k =
      match g.rotation with
      | some r => if k = r.session then (t.get? k).map (revokeAt r.consumedAt) else t.get? k
      | none => t.get? k := by
  unfold consumed
  cases g.rotation with
  | none => rfl
  | some r => exact Table.get?_update t r.session _ k

/-- A row of the consumed table is an old one, revoked or as it was. -/
theorem consumed_row {k : SessionId} {row : RefreshSession} (h : t.get? k = some row) :
    ∃ row', (consumed t g).get? k = some row' ∧ Kept row row' ∧
      (row'.revokedAt = none → row = row') ∧
      ((∀ r, g.rotation = some r → k ≠ r.session) → row' = row) := by
  rw [get?_consumed]
  cases hrotation : g.rotation with
  | none => exact ⟨row, h, Kept.refl row, fun _ => rfl, fun _ => rfl⟩
  | some r =>
      by_cases hk : k = r.session
      · rw [h]
        refine ⟨revokeAt r.consumedAt row, by simp [hk], Kept.revokeAt _ row, ?_, ?_⟩
        · intro hopen
          cases hopen
        · intro hother
          exact absurd hk (hother r rfl)
      · exact ⟨row, by simp [hk, h], Kept.refl row, fun _ => rfl, fun _ => rfl⟩

theorem consumed_fresh (hfresh : t.get? id = none) : (consumed t g).get? id = none := by
  rw [get?_consumed, hfresh]
  cases g.rotation with
  | none => rfl
  | some r => exact ite_self none

/-- Where a row of the table after an insert comes from. -/
theorem get?_inserted {row : RefreshSession} (hfresh : t.get? id = none) (k : SessionId) :
    ((consumed t g).insert id row).get? k =
      if k = id then some row else (consumed t g).get? k :=
  Table.get?_insert _ (consumed_fresh hfresh) row k

theorem grows_inserted {row : RefreshSession} (hfresh : t.get? id = none) :
    Grows t ((consumed t g).insert id row) := by
  intro k old hold
  have hne : k ≠ id := by
    intro heq
    rw [heq, hfresh] at hold
    cases hold
  obtain ⟨row', hrow', hkept, _⟩ := consumed_row (g := g) hold
  exact ⟨row', by rw [get?_inserted hfresh, if_neg hne, hrow'], hkept⟩

theorem came_inserted {row : RefreshSession} (hfresh : t.get? id = none) {k : SessionId}
    (hk : k ≠ id) : Came t ((consumed t g).insert id row) k := by
  intro row' hrow'
  rw [get?_inserted hfresh, if_neg hk] at hrow'
  cases hold : t.get? k with
  | none =>
      rw [consumed_fresh hold] at hrow'
      cases hrow'
  | some old =>
      obtain ⟨row'', hrow'', hkept, hopen, _⟩ := consumed_row (g := g) hold
      obtain rfl := Option.some.inj (hrow''.symm.trans hrow')
      exact ⟨old, rfl, hkept, hopen⟩

variable {now : Time} {pending : List SessionId}

theorem kept_swept (k : SessionId) (row : RefreshSession) :
    Kept row (if k ∈ pending then revokeAt now row else row) := by
  split
  · exact Kept.revokeAt now row
  · exact Kept.refl row

theorem grows_swept : Grows t (swept t now pending) := by
  intro k row h
  exact ⟨_, by rw [swept, Table.get?_updateWhere, h, Option.map_some], kept_swept k row⟩

theorem came_swept (k : SessionId) : Came t (swept t now pending) k := by
  intro row' hrow'
  rw [swept, Table.get?_updateWhere, Option.map_eq_some_iff] at hrow'
  obtain ⟨row, hrow, rfl⟩ := hrow'
  refine ⟨row, hrow, kept_swept k row, ?_⟩
  intro hopen
  split at hopen
  · cases hopen
  · next hout => rw [if_neg hout]

end Changes

/-! ## What a call relies on -/

/-- The session a refresh consumed is locked by it, open, and the one it presented. -/
def Consumed (s : State) (c : CallId) (g : Grant) : Prop :=
  ∀ r, g.rotation = some r → s.sessionLock r.session = some c ∧
    ∃ row, s.sessions.get? r.session = some row ∧ row.user = g.identity.user ∧
      row.expiresAt = r.expiresAt ∧ row.revokedAt = none

/-- A family is revoked for the user of the session that was presented. -/
def Reuses (s : State) (rev : Revocation) : Prop :=
  ∀ session, rev.cause = .reuse session →
    ∃ row, s.sessions.get? session = some row ∧ row.user = rev.user

/-- Every open session of the user is still to update or already updated. -/
def Covers (s : State) (user : UserId) (remaining pending : List SessionId) : Prop :=
  ∀ id row, s.sessions.get? id = some row → row.user = user → row.revokedAt = none →
    id ∈ remaining ∨ id ∈ pending

/-- What call `c` relies on in each phase. -/
def Relies (s : State) (c : CallId) : Phase → Prop
  | .consuming identity r =>
      ∃ row, s.sessions.get? r.session = some row ∧ row.user = identity.user ∧
        row.expiresAt = r.expiresAt
  | .issuing g | .touching g _ => Consumed s c g
  | .inserting g _ => Consumed s c g ∧ s.userLock g.identity.user = some c
  | .bumping rev => Reuses s rev
  | .revoking rev => Reuses s rev ∧ s.userLock rev.user = some c
  | .sweeping rev remaining pending =>
      Reuses s rev ∧ s.userLock rev.user = some c ∧
        (∀ id ∈ pending, s.sessionLock id = some c) ∧ Covers s rev.user remaining pending
  | .issued _ _ _ | .revoked _ | .unchanged | .refused _ | .aborted => True

/-- A call that has been answered relies on nothing. -/
theorem relies_of_ended {s : State} {c : CallId} {phase : Phase} (h : phase.ended = true) :
    Relies s c phase := by
  cases phase with
  | consuming | issuing | touching | inserting | bumping | revoking | sweeping => cases h
  | issued | revoked | unchanged | refused | aborted => trivial

/-- What a step of another call leaves to call `c`: its locks, the rows it has locked,
and the open sessions of the users it has locked. -/
structure Spares (s s' : State) (c : CallId) : Prop where
  userLock : ∀ u, s.userLock u = some c → s'.userLock u = some c
  sessionLock : ∀ id, s.sessionLock id = some c → s'.sessionLock id = some c
  grows : Grows s.sessions s'.sessions
  rows : ∀ id row, s.sessionLock id = some c → s.sessions.get? id = some row →
    row.revokedAt = none → s'.sessions.get? id = some row
  opened : ∀ id row, s'.sessions.get? id = some row → s.userLock row.user = some c →
    row.revokedAt = none → s.sessions.get? id = some row

section Spares

variable {s s' : State} {c : CallId}

theorem consumed_spares (hspares : Spares s s' c) {g : Grant} (h : Consumed s c g) :
    Consumed s' c g := by
  intro r hr
  obtain ⟨hlock, row, hrow, huser, hexpires, hopen⟩ := h r hr
  exact ⟨hspares.sessionLock _ hlock, row, hspares.rows _ row hlock hrow hopen, huser,
    hexpires, hopen⟩

theorem reuses_spares (hgrows : Grows s.sessions s'.sessions) {rev : Revocation}
    (h : Reuses s rev) : Reuses s' rev := by
  intro session hcause
  obtain ⟨row, hrow, huser⟩ := h session hcause
  obtain ⟨row', hrow', hkept⟩ := hgrows _ row hrow
  exact ⟨row', hrow', hkept.user.trans huser⟩

/-- A call keeps what it relies on through the steps that spare it. -/
theorem relies_spares (hspares : Spares s s' c) {phase : Phase} (h : Relies s c phase) :
    Relies s' c phase := by
  cases phase with
  | consuming identity r =>
      obtain ⟨row, hrow, huser, hexpires⟩ := h
      obtain ⟨row', hrow', hkept⟩ := hspares.grows _ row hrow
      exact ⟨row', hrow', hkept.user.trans huser, hkept.expiresAt.trans hexpires⟩
  | issuing g => exact consumed_spares hspares h
  | touching g i => exact consumed_spares hspares h
  | inserting g i => exact ⟨consumed_spares hspares h.1, hspares.userLock _ h.2⟩
  | bumping rev => exact reuses_spares hspares.grows h
  | revoking rev => exact ⟨reuses_spares hspares.grows h.1, hspares.userLock _ h.2⟩
  | sweeping rev remaining pending =>
      obtain ⟨hreuses, hlock, hpending, hcovers⟩ := h
      refine ⟨reuses_spares hspares.grows hreuses, hspares.userLock _ hlock, ?_, ?_⟩
      · exact fun id hid => hspares.sessionLock id (hpending id hid)
      · intro id row hrow huser hopen
        have hold := hspares.opened id row hrow (by rw [huser]; exact hlock) hopen
        exact hcovers id row hold huser hopen
  | issued | revoked | unchanged | refused | aborted => trivial

/-- A step that changes no session spares everyone whose locks it leaves. -/
theorem spares_of_sessions (hsessions : s'.sessions = s.sessions)
    (huser : ∀ u, s.userLock u = some c → s'.userLock u = some c)
    (hsession : ∀ id, s.sessionLock id = some c → s'.sessionLock id = some c) :
    Spares s s' c where
  userLock := huser
  sessionLock := hsession
  grows := by
    rw [hsessions]
    exact Grows.refl _
  rows := by
    intro id row _ hrow _
    rw [hsessions]
    exact hrow
  opened := by
    intro id row hrow _ _
    rw [hsessions] at hrow
    exact hrow

end Spares

/-! ## The invariant -/

/-- The session whose second presentation a revocation answers. -/
def Revocation.presented (rev : Revocation) : Option SessionId :=
  match rev.cause with
  | .reuse session => some session
  | .logout | .recovery _ | .update _ _ => none

theorem Revocation.cause_of_presented {rev : Revocation} {session : SessionId}
    (h : rev.presented = some session) : rev.cause = .reuse session := by
  unfold Revocation.presented at h
  split at h
  · next other hcause => rw [hcause, Option.some.inj h]
  · cases h
  · cases h
  · cases h

/-- The session a refresh was asked for, as long as it has not been answered. -/
def Phase.presented : Phase → Option SessionId
  | .consuming _ r => some r.session
  | .issuing g | .touching g _ | .inserting g _ => g.rotation.map Rotation.session
  | .bumping rev | .revoking rev | .sweeping rev _ _ => rev.presented
  | .issued _ _ _ | .revoked _ | .unchanged | .refused _ | .aborted => none

/-- The shape of the sessions: a parent is revoked, has one child, and passes on its user
and its expiry; a session is created before it expires. -/
structure SessionInv (t : Table SessionId RefreshSession) : Prop where
  parent : ∀ id row p, t.get? id = some row → row.rotatedFrom = some p →
    ∃ prow, t.get? p = some prow ∧ prow.revokedAt ≠ none ∧ row.user = prow.user ∧
      row.expiresAt = prow.expiresAt
  onlyChild : ∀ a b ra rb p, t.get? a = some ra → t.get? b = some rb →
    ra.rotatedFrom = some p → rb.rotatedFrom = some p → a = b
  born : ∀ id row, t.get? id = some row → row.createdAt < row.expiresAt

structure AuthInv (s : State) : Prop where
  relies : ∀ c call, s.calls c = some call → Relies s c call.phase
  presents : ∀ c call session now, s.calls c = some call →
    call.request = .refresh session now → call.phase.ended = false →
    call.phase.presented = some session
  sessions : SessionInv s.sessions

/-- A change of the sessions that adds none keeps their shape. -/
theorem sessionInv_of_came {t t' : Table SessionId RefreshSession} (hinv : SessionInv t)
    (hgrows : Grows t t') (hcame : ∀ id, Came t t' id) : SessionInv t' where
  parent := by
    intro id row' p hrow' hfrom
    obtain ⟨row, hrow, hkept, _⟩ := hcame id row' hrow'
    obtain ⟨prow, hprow, hclosed, huser, hexpires⟩ :=
      hinv.parent id row p hrow (hkept.rotatedFrom ▸ hfrom)
    obtain ⟨prow', hprow', hpkept⟩ := hgrows p prow hprow
    refine ⟨prow', hprow', hpkept.closed hclosed, ?_, ?_⟩
    · rw [hkept.user, huser, hpkept.user]
    · rw [hkept.expiresAt, hexpires, hpkept.expiresAt]
  onlyChild := by
    intro a b ra' rb' p ha hb hpa hpb
    obtain ⟨ra, hra, hkepta, _⟩ := hcame a ra' ha
    obtain ⟨rb, hrb, hkeptb, _⟩ := hcame b rb' hb
    exact hinv.onlyChild a b ra rb p hra hrb (hkepta.rotatedFrom ▸ hpa)
      (hkeptb.rotatedFrom ▸ hpb)
  born := by
    intro id row' hrow'
    obtain ⟨row, hrow, hkept, _⟩ := hcame id row' hrow'
    rw [hkept.createdAt, hkept.expiresAt]
    exact hinv.born id row hrow

/-- Inserting a session that is alive, as the first child of an open parent if it has
one, keeps their shape. -/
theorem sessionInv_inserted {t : Table SessionId RefreshSession} (hinv : SessionInv t)
    {settings : Settings} {g : Grant} {i : Issue} {id : SessionId}
    (hfresh : t.get? id = none)
    (hparent : ∀ r, g.rotation = some r → ∃ row, t.get? r.session = some row ∧
      row.user = g.identity.user ∧ row.expiresAt = r.expiresAt ∧ row.revokedAt = none)
    (hlive : i.now < g.refreshExpires settings i) :
    SessionInv ((consumed t g).insert id (g.session settings i)) where
  parent := by
    intro k row p hrow hfrom
    by_cases hk : k = id
    · rw [get?_inserted hfresh, if_pos hk] at hrow
      obtain rfl := Option.some.inj hrow
      obtain ⟨r, hr, rfl⟩ := Option.map_eq_some_iff.mp hfrom
      obtain ⟨prow, hprow, huser, hexpires, _⟩ := hparent r hr
      have hne : r.session ≠ id := by
        intro heq
        rw [heq, hfresh] at hprow
        cases hprow
      refine ⟨revokeAt r.consumedAt prow, ?_, fun h => (by cases h), huser.symm, ?_⟩
      · rw [get?_inserted hfresh, if_neg hne, get?_consumed]
        simp [hr, hprow]
      · simp only [Grant.session, Grant.refreshExpires, hr]
        exact hexpires.symm
    · obtain ⟨old, hold, hkept, _⟩ := came_inserted hfresh hk row hrow
      obtain ⟨prow, hprow, hclosed, huser, hexpires⟩ :=
        hinv.parent k old p hold (hkept.rotatedFrom ▸ hfrom)
      have hgrows : Grows t ((consumed t g).insert id (g.session settings i)) :=
        grows_inserted hfresh
      obtain ⟨prow', hprow', hpkept⟩ := hgrows p prow hprow
      refine ⟨prow', hprow', hpkept.closed hclosed, ?_, ?_⟩
      · rw [hkept.user, huser, hpkept.user]
      · rw [hkept.expiresAt, hexpires, hpkept.expiresAt]
  onlyChild := by
    -- An earlier child of the same parent would have left it revoked.
    have hfirst : ∀ k row p, k ≠ id →
        ((consumed t g).insert id (g.session settings i)).get? k = some row →
        row.rotatedFrom = some p → (g.session settings i).rotatedFrom ≠ some p := by
      intro k row p hk hrow hfrom hnew
      obtain ⟨old, hold, hkept, _⟩ := came_inserted hfresh hk row hrow
      obtain ⟨prow, hprow, hclosed, _⟩ :=
        hinv.parent k old p hold (hkept.rotatedFrom ▸ hfrom)
      obtain ⟨r, hr, rfl⟩ := Option.map_eq_some_iff.mp hnew
      obtain ⟨open', hopen', _, _, hnone⟩ := hparent r hr
      obtain rfl := Option.some.inj (hprow.symm.trans hopen')
      exact hclosed hnone
    intro a b ra rb p ha hb hpa hpb
    by_cases hka : a = id
    · by_cases hkb : b = id
      · rw [hka, hkb]
      · rw [get?_inserted hfresh, if_pos hka] at ha
        obtain rfl := Option.some.inj ha
        exact absurd hpa (hfirst b rb p hkb hb hpb)
    · by_cases hkb : b = id
      · rw [get?_inserted hfresh, if_pos hkb] at hb
        obtain rfl := Option.some.inj hb
        exact absurd hpb (hfirst a ra p hka ha hpa)
      · obtain ⟨olda, holda, hkepta, _⟩ := came_inserted hfresh hka ra ha
        obtain ⟨oldb, holdb, hkeptb, _⟩ := came_inserted hfresh hkb rb hb
        exact hinv.onlyChild a b olda oldb p holda holdb (hkepta.rotatedFrom ▸ hpa)
          (hkeptb.rotatedFrom ▸ hpb)
  born := by
    intro k row hrow
    by_cases hk : k = id
    · rw [get?_inserted hfresh, if_pos hk] at hrow
      obtain rfl := Option.some.inj hrow
      exact hlive
    · obtain ⟨old, hold, hkept, _⟩ := came_inserted hfresh hk row hrow
      rw [hkept.createdAt, hkept.expiresAt]
      exact hinv.born k old hold

/-! ## Every step keeps the invariant -/

section Step

variable {s s' : State} {c : CallId}

/-- A step of call `c` that spares the others keeps the invariant when the call relies on
what is so and the sessions keep their shape. -/
theorem authInv_own {call : Call} (hinv : AuthInv s)
    (hcalls : s'.calls = Function.update s.calls c (some call))
    (hspares : ∀ c', c' ≠ c → Spares s s' c') (hrelies : Relies s' c call.phase)
    (hpresents : ∀ session now, call.request = .refresh session now →
      call.phase.ended = false → call.phase.presented = some session)
    (hsessions : SessionInv s'.sessions) : AuthInv s' where
  relies := by
    intro c' call' hcall'
    rw [hcalls] at hcall'
    rcases stored_cases hcall' with ⟨hc, rfl⟩ | ⟨hc, hcall'⟩
    · rw [hc]
      exact hrelies
    · exact relies_spares (hspares c' hc) (hinv.relies c' call' hcall')
  presents := by
    intro c' call' session now hcall' hrequest hactive
    rw [hcalls] at hcall'
    rcases stored_cases hcall' with ⟨_, rfl⟩ | ⟨_, hcall'⟩
    · exact hpresents session now hrequest hactive
    · exact hinv.presents c' call' session now hcall' hrequest hactive
  sessions := hsessions

/-- A step that moves call `c` to another phase, without a change of the sessions. -/
theorem authInv_move {call : Call} {phase : Phase} (hinv : AuthInv s)
    (hcall : s.calls c = some call)
    (hcalls : s'.calls = Function.update s.calls c (some { call with phase := phase }))
    (hsessions : s'.sessions = s.sessions)
    (huser : ∀ c', c' ≠ c → ∀ u, s.userLock u = some c' → s'.userLock u = some c')
    (hsession : ∀ c', c' ≠ c → ∀ id, s.sessionLock id = some c' →
      s'.sessionLock id = some c')
    (hrelies : Relies s' c phase)
    (hpresented : phase.ended = false →
      call.phase.ended = false ∧ phase.presented = call.phase.presented) : AuthInv s' := by
  refine authInv_own hinv hcalls ?_ hrelies ?_ (by rw [hsessions]; exact hinv.sessions)
  · exact fun c' hc => spares_of_sessions hsessions (huser c' hc) (hsession c' hc)
  · intro session now hrequest hactive
    obtain ⟨hwas, hsame⟩ := hpresented hactive
    exact hsame.trans (hinv.presents c call session now hcall hrequest hwas)

/-- A lock that is free is not another call's. -/
theorem update_lock {κ : Type} [DecidableEq κ] {lock : κ → Option CallId} {k k' : κ}
    {c' : CallId} (hfree : lock k = none) (h : lock k' = some c') :
    Function.update lock k (some c) k' = some c' := by
  have hne : k' ≠ k := by
    intro heq
    rw [heq, hfree] at h
    cases h
  rw [Function.update_of_ne hne, h]

/-- The rows a revocation is about to lock are free. -/
theorem free_of_bumpFree {rev : Revocation} (h : s.bumpFree rev = true) {u : UserId}
    (hu : u ∈ s.bumpRows rev) : s.userLock u = none := by
  rw [State.bumpFree, Bool.and_eq_true, List.all_eq_true] at h
  simpa using h.1 u hu

theorem mem_bumpRows (rev : Revocation) : rev.user ∈ s.bumpRows rev :=
  List.mem_cons_self

/-- The answer of a revocation ends the call. -/
theorem ended_of_bumpAnswer {rev : Revocation} {answer : Phase}
    (h : s.bumpAnswer rev = some answer) : answer.ended = true := by
  rcases (bumpAnswer_cases h).2 with ⟨e, rfl⟩ | rfl
  · rfl
  · rfl

/-- What a call relies on after its first statements. -/
theorem relies_start (c : CallId) (request : Request) :
    Relies s c (s.start c request) ∧
      ∀ session now, request = .refresh session now → (s.start c request).ended = false →
        (s.start c request).presented = some session := by
  have hstarts := start_starts s c request
  generalize s.start c request = phase at hstarts ⊢
  cases hstarts with
  | refused => exact ⟨trivial, fun _ _ _ h => by cases h⟩
  | granted hgrant =>
      have hrotation := (login_spec hgrant).2.1
      refine ⟨?_, fun _ _ h => by cases h⟩
      intro r hr
      rw [hrotation] at hr
      cases hr
  | reused hrow _ _ =>
      refine ⟨?_, fun session' now' h _ => by cases h; rfl⟩
      intro session' hcause
      cases hcause
      exact ⟨_, hrow, rfl⟩
  | consuming hrow _ _ _ _ => exact ⟨⟨_, hrow, rfl, rfl⟩, fun session' now' h _ => by cases h; rfl⟩
  | logout | recovery | update =>
      exact ⟨fun _ h => (by cases h), fun _ _ h => (by cases h)⟩

/-- A session that is stored and open is in the snapshot. -/
theorem mem_openSessions {user : UserId} {id : SessionId} {row : RefreshSession}
    (hrow : s.sessions.get? id = some row) (huser : row.user = user)
    (hopen : row.revokedAt = none) : id ∈ openSessions s user := by
  refine List.mem_map.mpr ⟨(id, row), ?_, rfl⟩
  rw [List.mem_filter]
  exact ⟨(Table.mem_rows_iff _).mpr hrow, by simp [huser, hopen]⟩

/-- A call that inserts a session spares the others: the row it revokes is locked by it,
and it has locked the user of the new one. -/
theorem spares_inserted {settings : Settings} {call : Call} {g : Grant} {i : Issue}
    {id : SessionId} (hconsumed : Consumed s c g)
    (hlock : s.userLock g.identity.user = some c) (hfresh : s.sessions.get? id = none)
    {c' : CallId} (hc : c' ≠ c) : Spares s (s.insertSession settings c call g i id) c' where
  userLock := fun _ h => release_other hc h
  sessionLock := fun _ h => release_other hc h
  grows := grows_inserted hfresh
  rows := by
    intro k row hheld hrow hopen
    have hne : k ≠ id := by
      intro heq
      rw [heq, hfresh] at hrow
      cases hrow
    obtain ⟨row', hrow', _, _, hother⟩ := consumed_row (g := g) hrow
    have hsame : row' = row := by
      apply hother
      intro r hr heq
      rw [heq, (hconsumed r hr).1] at hheld
      exact hc (Option.some.inj hheld).symm
    rw [State.insertSession_sessions, get?_inserted hfresh, if_neg hne, hrow', hsame]
  opened := by
    intro k row hrow hheld hopen
    rw [State.insertSession_sessions] at hrow
    have hne : k ≠ id := by
      intro heq
      rw [get?_inserted hfresh, if_pos heq] at hrow
      obtain rfl := Option.some.inj hrow
      rw [show (g.session settings i).user = g.identity.user from rfl, hlock] at hheld
      exact hc (Option.some.inj hheld).symm
    obtain ⟨old, hold, _, hsame⟩ := came_inserted hfresh hne row hrow
    rw [hold, hsame hopen]

/-- A revocation spares the others: the rows it revokes are locked by it. -/
theorem spares_committed {call : Call} {rev : Revocation} {pending : List SessionId}
    (hpending : ∀ id ∈ pending, s.sessionLock id = some c) {c' : CallId} (hc : c' ≠ c) :
    Spares s (s.commitRevocation c call rev pending) c' where
  userLock := fun _ h => release_other hc h
  sessionLock := fun _ h => release_other hc h
  grows := grows_swept
  rows := by
    intro k row hheld hrow hopen
    have hout : k ∉ pending := by
      intro hin
      rw [hpending k hin] at hheld
      exact hc (Option.some.inj hheld).symm
    rw [State.commitRevocation_sessions, swept, Table.get?_updateWhere, hrow, Option.map_some,
      if_neg hout]
  opened := by
    intro k row hrow _ hopen
    obtain ⟨old, hold, _, hsame⟩ := came_swept k row hrow
    rw [hold, hsame hopen]

/-- **Step lemma.**  Every step keeps the invariant. -/
theorem authInv_step {settings : Settings} {act : Action} (hinv : AuthInv s)
    (hstep : step settings s act = some s') : AuthInv s' := by
  cases step_cases hstep with
  | @begin c request hnew =>
      obtain ⟨hrelies, hpresents⟩ := relies_start (s := s) c request
      have hsame : Spares s { s with
          calls := Function.update s.calls c (some ⟨request, s.start c request⟩) } c :=
        spares_of_sessions rfl (fun _ h => h) fun _ h => h
      refine authInv_own hinv rfl ?_ (relies_spares hsame hrelies) hpresents hinv.sessions
      exact fun c' _ => spares_of_sessions rfl (fun _ h => h) fun _ h => h
  | @consumed c call identity r row hcall hphase hfree hrow hopen =>
      have hrelies := hinv.relies c call hcall
      rw [hphase] at hrelies
      obtain ⟨row', hrow', huser, hexpires⟩ := hrelies
      obtain rfl := Option.some.inj (hrow.symm.trans hrow')
      refine authInv_move hinv hcall rfl rfl (fun _ _ _ h => h)
        (fun _ _ _ h => update_lock hfree h) ?_ (fun _ => ⟨by rw [hphase]; rfl, by rw [hphase]; rfl⟩)
      intro r' hr'
      cases hr'
      exact ⟨Function.update_self .., row, hrow, huser, hexpires, hopen⟩
  | @raced c call identity r row hcall hphase hrow hclosed =>
      have hrelies := hinv.relies c call hcall
      rw [hphase] at hrelies
      refine authInv_move hinv hcall rfl rfl (fun _ _ _ h => h) (fun _ _ _ h => h) ?_
        (fun _ => ⟨by rw [hphase]; rfl, by rw [hphase]; rfl⟩)
      intro session hcause
      cases hcause
      obtain ⟨row', hrow', huser, _⟩ := hrelies
      exact ⟨row', hrow', huser⟩
  | @readEpoch c now call g user hcall hphase huser =>
      have hrelies := hinv.relies c call hcall
      rw [hphase] at hrelies
      exact authInv_move hinv hcall rfl rfl (fun _ _ _ h => h) (fun _ _ _ h => h) hrelies
        (fun _ => ⟨by rw [hphase]; rfl, by rw [hphase]; rfl⟩)
  | @touched c call g i hcall hphase hfree =>
      have hrelies := hinv.relies c call hcall
      rw [hphase] at hrelies
      exact authInv_move hinv hcall rfl rfl (fun _ _ _ h => update_lock hfree h)
        (fun _ _ _ h => h) ⟨hrelies, Function.update_self ..⟩
        (fun _ => ⟨by rw [hphase]; rfl, by rw [hphase]; rfl⟩)
  | @inserted c id call g i hcall hphase hfresh hlive =>
      have hrelies := hinv.relies c call hcall
      rw [hphase] at hrelies
      obtain ⟨hconsumed, hlock⟩ := hrelies
      refine authInv_own hinv rfl (fun c' hc => spares_inserted hconsumed hlock hfresh hc)
        trivial (fun _ _ _ hactive => by cases hactive) ?_
      exact sessionInv_inserted hinv.sessions hfresh (fun r hr => (hconsumed r hr).2) hlive
  | @expired c id call g i hcall hphase =>
      exact authInv_move hinv hcall rfl rfl (fun _ hc _ h => release_other hc h)
        (fun _ hc _ h => release_other hc h) trivial (fun h => by cases h)
  | @bumped c call rev hcall hphase hfree hgoes =>
      have hrelies := hinv.relies c call hcall
      rw [hphase] at hrelies
      refine authInv_move hinv hcall rfl rfl ?_ (fun _ _ _ h => h)
        ⟨hrelies, if_pos (mem_bumpRows rev)⟩
        (fun _ => ⟨by rw [hphase]; rfl, by rw [hphase]; rfl⟩)
      intro c' _ u hheld
      have hout : u ∉ s.bumpRows rev := by
        intro hin
        rw [free_of_bumpFree hfree hin] at hheld
        cases hheld
      exact (if_neg hout).trans hheld
  | @answered c call rev answer hcall hphase hanswer =>
      have hended := ended_of_bumpAnswer hanswer
      exact authInv_move hinv hcall rfl rfl (fun _ _ _ h => h) (fun _ _ _ h => h)
        (relies_of_ended hended) (fun h => by rw [hended] at h; cases h)
  | @snapshot c call rev hcall hphase =>
      have hrelies := hinv.relies c call hcall
      rw [hphase] at hrelies
      refine authInv_move hinv hcall rfl rfl (fun _ _ _ h => h) (fun _ _ _ h => h)
        ⟨hrelies.1, hrelies.2, fun id h => (by cases h), ?_⟩
        (fun _ => ⟨by rw [hphase]; rfl, by rw [hphase]; rfl⟩)
      exact fun id row hrow huser hopen => Or.inl (mem_openSessions hrow huser hopen)
  | @swept c call rev id rest pending row hcall hphase hfree hrow hopen =>
      have hrelies := hinv.relies c call hcall
      rw [hphase] at hrelies
      obtain ⟨hreuses, hlock, hpending, hcovers⟩ := hrelies
      refine authInv_move hinv hcall rfl rfl (fun _ _ _ h => h)
        (fun _ _ _ h => update_lock hfree h) ⟨hreuses, hlock, ?_, ?_⟩
        (fun _ => ⟨by rw [hphase]; rfl, by rw [hphase]; rfl⟩)
      · intro k hk
        rcases List.mem_cons.mp hk with rfl | hk
        · exact Function.update_self ..
        · exact update_lock hfree (hpending k hk)
      · intro k row' hrow' huser' hopen'
        rcases hcovers k row' hrow' huser' hopen' with hin | hin
        · rcases List.mem_cons.mp hin with rfl | hin
          · exact Or.inr List.mem_cons_self
          · exact Or.inl hin
        · exact Or.inr (List.mem_cons_of_mem _ hin)
  | @skipped c call rev id rest pending row hcall hphase hrow hclosed =>
      have hrelies := hinv.relies c call hcall
      rw [hphase] at hrelies
      obtain ⟨hreuses, hlock, hpending, hcovers⟩ := hrelies
      refine authInv_move hinv hcall rfl rfl (fun _ _ _ h => h) (fun _ _ _ h => h)
        ⟨hreuses, hlock, hpending, ?_⟩
        (fun _ => ⟨by rw [hphase]; rfl, by rw [hphase]; rfl⟩)
      intro k row' hrow' huser' hopen'
      rcases hcovers k row' hrow' huser' hopen' with hin | hin
      · rcases List.mem_cons.mp hin with rfl | hin
        · obtain rfl := Option.some.inj (hrow.symm.trans hrow')
          exact absurd hopen' hclosed
        · exact Or.inl hin
      · exact Or.inr hin
  | @committed c call rev pending hcall hphase =>
      have hrelies := hinv.relies c call hcall
      rw [hphase] at hrelies
      obtain ⟨_, _, hpending, _⟩ := hrelies
      refine authInv_own hinv rfl (fun c' hc => spares_committed hpending hc) trivial
        (fun _ _ _ hactive => by cases hactive) ?_
      exact sessionInv_of_came hinv.sessions grows_swept came_swept
  | @aborted c call hcall hactive =>
      exact authInv_move hinv hcall rfl rfl (fun _ hc _ h => release_other hc h)
        (fun _ hc _ h => release_other hc h) trivial (fun h => by cases h)
  | @tenant tenant status =>
      refine ⟨?_, hinv.presents, hinv.sessions⟩
      intro c call hcall
      refine relies_spares ?_ (hinv.relies c call hcall)
      exact spares_of_sessions rfl (fun _ h => h) fun _ h => h

end Step

/-- The invariant holds in every reachable state. -/
theorem authInv_reachable {settings : Settings} {setup : Setup} {ok : State → Action → Prop}
    {s : State} (hs : Reachable (system settings setup) ok s) : AuthInv s := by
  refine Reachable.invariant (P := AuthInv) ?_ ?_ hs
  · refine ⟨?_, ?_, ?_, ?_, ?_⟩
    · intro c call hcall
      cases hcall
    · intro c call session now hcall
      cases hcall
    · intro id row p hrow
      cases hrow
    · intro a b ra rb p ha
      cases ha
    · intro id row hrow
      cases hrow
  · exact fun s act s' hinv _ hstep => authInv_step hinv hstep

end Auth
