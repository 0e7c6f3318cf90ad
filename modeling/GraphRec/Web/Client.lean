import GraphRec.Lib.Transition
import Mathlib.Data.Int.Notation
import Mathlib.Data.List.Basic

/-!
# The session of the console and its refresh

`session.ts` and `client.ts` of the console: one stored session, requests that may have to refresh
it, and the promise that they share while they do.  A step is what runs between two awaits.

The refresh works on the session that it found when it began.  A response of success that cannot be
read is an error like any other to it, and it keeps the token, which is used up; and what it comes
to is stored whatever the session is by then.

* `Inv` — what every considerate step keeps;
* `refresh_sound` — one refresh at a time, no used token is presented again and no other session is
  touched, where every step is considerate;
* `unreadable_presented_again` — a token that is presented again.
-/

namespace Web

open Transition

/-! ## The session -/

/-- A refresh token. -/
abbrev Token := ℕ

/-- `AuthTokenPair`, with what is read of it; a field may be missing, an empty refresh token is
none. -/
structure AuthTokenPair where
  accessToken : Option ℕ
  refreshToken : Option Token
  expiresIn : Option ℤ
  deriving DecidableEq

/-- `TenantSession`.  `signIn` says which sign-in it comes from. -/
structure TenantSession where
  signIn : ℕ
  accessToken : Option ℕ
  refreshToken : Option Token
  expiresAt : Option ℤ
  deriving DecidableEq

/-- Milliseconds before the expiry. -/
def refreshMargin : ℤ := 30000

namespace TenantSession

/-- `setTenantSession`: the session that it stores. -/
def ofPair (signIn : ℕ) (pair : AuthTokenPair) (now : ℤ) : TenantSession where
  signIn := signIn
  accessToken := pair.accessToken
  refreshToken := pair.refreshToken
  expiresAt := pair.expiresIn.map fun seconds => now + seconds * 1000

variable (session : TenantSession) (now : ℤ)

/-- Does `getTenantSession` keep it? -/
def isLive : Bool :=
  !(session.expiresAt.any (fun expiresAt => decide (expiresAt ≤ now)) &&
    session.refreshToken.isNone)

/-- `needsRefresh`. -/
def needsRefresh : Bool :=
  session.refreshToken.isSome &&
    session.expiresAt.any fun expiresAt => decide (expiresAt - refreshMargin ≤ now)

end TenantSession

/-! ## Requests -/

/-- What `fetch` and the body come to. -/
inductive Reply (β : Type)
  | unreachable
  /-- The body breaks off. -/
  | broken (status : ℕ)
  /-- The body, if it can be read. -/
  | response (status : ℕ) (body : Option β)
  deriving DecidableEq

/-- `response.ok`. -/
def isOk (status : ℕ) : Bool := decide (200 ≤ status ∧ status ≤ 299)

/-- What a refresh does with its reply. -/
inductive Verdict
  | store (pair : AuthTokenPair)
  | clear
  | keep
  deriving DecidableEq

/-- `performRequest` and the rest of the refresh. -/
def Reply.verdict : Reply AuthTokenPair → Verdict
  | .unreachable => .keep
  -- not a `GraphRecApiError`
  | .broken _ => .clear
  | .response status body =>
    if isOk status then
      match body with
      | some pair => .store pair
      -- an empty response has no `email`; another is an error that is not a 401
      | none => if status = 204 then .clear else .keep
    else if status = 401 then .clear else .keep

/-- Is it a response of success? -/
def Reply.isSuccess {β : Type} : Reply β → Bool
  | .unreachable => false
  | .broken status | .response status _ => isOk status

abbrev RequestId := ℕ

/-- The shared promise. -/
abbrev PromiseId := ℕ

/-- Where a request is. -/
inductive Phase
  /-- Not sent yet, or over. -/
  | idle
  /-- It awaits a refresh, before its first send or its second. -/
  | waiting (again : Bool) (promise : PromiseId)
  /-- It was sent with an access token. -/
  | sent (again : Bool) (auth : Option ℕ)
  /-- The first send failed, with an error code. -/
  | failed (code : Option String) (sentWith : Option ℕ)
  deriving DecidableEq

/-- A refresh that runs, with the session it found, and its reply once it is there. -/
structure Flight where
  promise : PromiseId
  token : Token
  signIn : ℕ
  reply : Option (Reply AuthTokenPair)
  deriving DecidableEq

/-- What happened, for what is proved. -/
inductive Event
  /-- A refresh token is sent. -/
  | presented (token : Token)
  /-- A response of success to it arrives. -/
  | received (token : Token)
  /-- A refresh that began under a sign-in is over. -/
  | settled (signIn : ℕ) (before after : Option TenantSession)
  deriving DecidableEq

/-- One tab of the console. -/
structure State where
  session : Option TenantSession
  refreshing : Option PromiseId
  flights : List Flight
  /-- The promises that are over, and whether they were kept. -/
  outcomes : PromiseId → Option Bool
  promises : ℕ
  requests : RequestId → Phase
  signIns : ℕ
  /-- The refresh tokens that the server issued. -/
  issued : List Token
  events : List Event

namespace State

variable (s : State) (now : ℤ)

/-- Nobody is signed in. -/
def init : State := ⟨none, none, [], fun _ => none, 0, fun _ => .idle, 0, [], []⟩

/-- `getTenantSession`, which forgets a session that has expired. -/
def read : State := { s with session := s.session.filter fun session => session.isLive now }

def goTo (i : RequestId) (phase : Phase) : State :=
  { s with requests := Function.update s.requests i phase }

/-- The server does not issue a token twice. -/
def isFresh (pair : AuthTokenPair) : Bool :=
  pair.refreshToken.all fun token => decide (token ∉ s.issued)

/-- `refreshTenantSession`: the promise that it returns. -/
def refresh : State × PromiseId :=
  match s.refreshing with
  | some promise => (s, promise)
  | none =>
    let promise := s.promises
    match s.session.bind fun session => session.refreshToken.map fun token => (session, token) with
    | some (session, token) =>
      ({ s with
          refreshing := some promise
          promises := promise + 1
          flights := s.flights ++ [⟨promise, token, session.signIn, none⟩]
          events := s.events ++ [.presented token] }, promise)
    | none =>
      -- it fails before its first await: the promise is assigned after it was reset
      ({ s with
          session := none
          refreshing := some promise
          promises := promise + 1
          outcomes := Function.update s.outcomes promise (some false) }, promise)

/-- A request awaits a refresh. -/
def awaitRefresh (i : RequestId) (again : Bool) : State :=
  let r := s.refresh
  r.1.goTo i (.waiting again r.2)

/-- `dispatch`, up to its await. -/
def dispatch (i : RequestId) (again : Bool) : State :=
  match s.session with
  | some session => s.goTo i (.sent again session.accessToken)
  -- `authorization` raises a 401 of its own
  | none => s.goTo i (if again then .idle else .failed (some "no_session") none)

end State

/-- The steps. -/
inductive Action
  | request (i : RequestId) (now : ℤ)
  /-- A request goes on after a refresh. -/
  | resume (i : RequestId) (now : ℤ)
  /-- A request is answered; the body has the code of an error. -/
  | answer (i : RequestId) (reply : Reply String) (now : ℤ)
  /-- The `catch` of a request. -/
  | rescue (i : RequestId) (now : ℤ)
  /-- A refresh is answered. -/
  | receive (promise : PromiseId) (reply : Reply AuthTokenPair)
  /-- A refresh goes on with its answer. -/
  | settle (promise : PromiseId) (now : ℤ)
  | signIn (pair : AuthTokenPair) (now : ℤ)
  | signOut
  deriving DecidableEq

/-- The error code of a reply that is not a success. -/
def Reply.code : Reply String → Option String
  | .unreachable => some "network_error"
  | .broken _ => none
  | .response _ body => body

/-- What a request does with its reply to the session. -/
def answerSession (s : State) (auth : Option ℕ) : Reply String → State
  | .response status body =>
    if isOk status then s
    else
      let refreshable :=
        body == some "token_expired" && (s.session.bind (·.refreshToken)).isSome
      if status = 401 ∧ refreshable = false ∧ auth = s.session.bind (·.accessToken) then
        { s with session := none }
      else s
  | _ => s

/-- The refresh that runs under a promise. -/
def State.flight (s : State) (promise : PromiseId) : Option Flight :=
  s.flights.find? fun flight => flight.promise == promise

/-- What a verdict makes of the session. -/
def Verdict.apply (signIn : ℕ) (now : ℤ) (session : Option TenantSession) :
    Verdict → Option TenantSession
  | .store pair => some (.ofPair signIn pair now)
  | .clear => none
  | .keep => session

/-- Is the promise kept? -/
def Verdict.isKept : Verdict → Bool
  | .store _ => true
  | _ => false

/-- The tokens that come with a reply. -/
def Reply.pair : Reply AuthTokenPair → Option AuthTokenPair
  | .response status body => if isOk status then body else none
  | _ => none

/-- One step. -/
def step (s : State) : Action → Option State
  | .request i now =>
    match s.requests i with
    | .idle =>
      let s := s.read now
      some (if s.session.any (·.needsRefresh now) then s.awaitRefresh i false
        else s.dispatch i false)
    | _ => none
  | .resume i now =>
    match s.requests i with
    | .waiting again promise =>
      match s.outcomes promise with
      | some true => some ((s.read now).dispatch i again)
      | some false => some (s.goTo i .idle)
      | none => none
    | _ => none
  | .answer i reply now =>
    match s.requests i with
    | .sent again auth =>
      let s := answerSession (s.read now) auth reply
      some (s.goTo i (if again || reply.isSuccess then .idle else .failed reply.code auth))
    | _ => none
  | .rescue i now =>
    match s.requests i with
    | .failed code sentWith =>
      let s := s.read now
      some (if code = some "token_expired" ∧ (s.session.bind (·.refreshToken)).isSome = true ∧
          s.session.bind (·.accessToken) = sentWith then s.awaitRefresh i true
        else s.goTo i .idle)
    | _ => none
  | .receive promise reply =>
    match s.flight promise with
    | some ⟨_, token, _, none⟩ =>
      if reply.pair.all s.isFresh then
        some { s with
          flights := s.flights.map fun flight =>
            if flight.promise = promise then { flight with reply := some reply } else flight
          issued := s.issued ++ (reply.pair.bind (·.refreshToken)).toList
          events := if reply.isSuccess then s.events ++ [.received token] else s.events }
      else none
    | _ => none
  | .settle promise now =>
    match s.flight promise with
    | some ⟨_, _, signIn, some reply⟩ =>
      let session := reply.verdict.apply signIn now s.session
      some { s with
        session := session
        refreshing := none
        flights := s.flights.filter fun flight => flight.promise != promise
        outcomes := Function.update s.outcomes promise (some reply.verdict.isKept)
        events := s.events ++ [.settled signIn s.session session] }
    | _ => none
  | .signIn pair now =>
    if s.isFresh pair then
      some { s with
        session := some (.ofPair s.signIns pair now)
        signIns := s.signIns + 1
        issued := s.issued ++ pair.refreshToken.toList }
    else none
  | .signOut => some { s with session := none }

/-- The console as a transition system. -/
def console : System State Action where
  init := .init
  step := step

/-! ## What a step keeps -/

namespace State

variable (s : State)

/-- The refresh token of the session. -/
def token : Option Token := s.session.bind (·.refreshToken)

/-- One refresh at a time; a token to which a response of success came is not presented again; a
refresh leaves the session of another sign-in alone. -/
structure Sound : Prop where
  single : s.flights.length ≤ 1
  unrepeated : s.events.Pairwise fun a b => ∀ t, a = .received t → b ≠ .presented t
  respectful : ∀ signIn before after, .settled signIn before after ∈ s.events →
    ∀ session ∈ before, session.signIn ≠ signIn → after = before

end State

/-- The refresh token of a reply. -/
def Reply.token (reply : Reply AuthTokenPair) : Option Token := reply.pair.bind (·.refreshToken)

/-- What is stored came with the reply. -/
theorem Reply.pair_of_store {reply : Reply AuthTokenPair} {pair : AuthTokenPair}
    (h : reply.verdict = .store pair) : reply.pair = some pair := by
  cases reply with
  | unreachable => cases h
  | broken status => cases h
  | response status body =>
    simp only [Reply.verdict] at h
    split at h
    next hok =>
      cases body with
      | none =>
        dsimp only at h
        split at h
        all_goals cases h
      | some stored =>
        obtain rfl := Verdict.store.inj h
        rw [Reply.pair, if_pos hok]
    next =>
      split at h
      all_goals cases h

/-- What every considerate step keeps. -/
structure Inv (s : State) : Prop where
  single : s.flights = [] ∨ ∃ flight, s.flights = [flight] ∧ s.refreshing = some flight.promise
  session_issued : ∀ t, s.token = some t → t ∈ s.issued
  flight_issued : ∀ flight ∈ s.flights, flight.token ∈ s.issued
  reply_issued : ∀ flight ∈ s.flights, ∀ reply, flight.reply = some reply →
    ∀ t, reply.token = some t → t ∈ s.issued ∧ .received t ∉ s.events
  received_issued : ∀ t, .received t ∈ s.events → t ∈ s.issued
  unsettled : ∀ t, s.token = some t → .received t ∈ s.events →
    ∃ flight ∈ s.flights, flight.token = t
  answered : ∀ flight ∈ s.flights, .received flight.token ∈ s.events →
    ∃ reply, flight.reply = some reply ∧ reply.isSuccess = true
  unrepeated : s.events.Pairwise fun a b => ∀ t, a = .received t → b ≠ .presented t
  respectful : ∀ signIn before after, .settled signIn before after ∈ s.events →
    ∀ session ∈ before, session.signIn ≠ signIn → after = before

theorem Inv.sound {s : State} (h : Inv s) : s.Sound := by
  refine ⟨?_, h.unrepeated, h.respectful⟩
  rcases h.single with hnone | ⟨flight, hone, -⟩
  · rw [hnone]
    exact Nat.zero_le _
  · rw [hone]
    exact Nat.le_refl _

theorem inv_init : Inv .init := by
  refine ⟨.inl rfl, ?_, ?_, ?_, ?_, ?_, ?_, List.Pairwise.nil, ?_⟩
  all_goals
    intros
    contradiction

section Steps

variable {s : State} (h : Inv s)

include h

/-- A request moves. -/
theorem inv_goTo (i : RequestId) (phase : Phase) : Inv (s.goTo i phase) :=
  ⟨h.single, h.session_issued, h.flight_issued, h.reply_issued, h.received_issued, h.unsettled,
    h.answered, h.unrepeated, h.respectful⟩

/-- The session is the same or forgotten. -/
theorem inv_forget {session : Option TenantSession}
    (hsession : session = s.session ∨ session = none) : Inv { s with session := session } := by
  rcases hsession with rfl | rfl
  · exact h
  · refine ⟨h.single, ?_, h.flight_issued, h.reply_issued, h.received_issued, ?_, h.answered,
      h.unrepeated, h.respectful⟩
    · intro t ht
      cases ht
    · intro t ht
      cases ht

theorem inv_read (now : ℤ) : Inv (s.read now) := by
  refine inv_forget h ?_
  cases s.session with
  | none => exact .inl rfl
  | some session =>
    rw [Option.filter_some]
    split
    · exact .inl rfl
    · exact .inr rfl

/-- A token that can be presented was not received. -/
theorem not_received (hnone : s.refreshing = none) {t : Token} (ht : s.token = some t) :
    .received t ∉ s.events := by
  intro hreceived
  obtain ⟨flight, hflight, -⟩ := h.unsettled t ht hreceived
  rcases h.single with hempty | ⟨only, -, hsome⟩
  · rw [hempty] at hflight
    cases hflight
  · rw [hnone] at hsome
    cases hsome

/-- One more event that presents nothing. -/
theorem unrepeated_append {e : Event} (hpresents : ∀ t, e ≠ .presented t) :
    (s.events ++ [e]).Pairwise fun a b => ∀ t, a = .received t → b ≠ .presented t := by
  rw [List.pairwise_append]
  refine ⟨h.unrepeated, List.pairwise_singleton _ _, ?_⟩
  intro a _ b hb t _
  rw [List.mem_singleton] at hb
  rw [hb]
  exact hpresents t

/-- A refresh begins, or another one is awaited. -/
theorem inv_refresh : Inv s.refresh.1 := by
  unfold State.refresh
  cases hrefreshing : s.refreshing with
  | some promise => exact h
  | none =>
    have hflights : s.flights = [] := by
      rcases h.single with hempty | ⟨only, -, hsome⟩
      · exact hempty
      · rw [hrefreshing] at hsome
        cases hsome
    cases htoken : s.session.bind fun session =>
        session.refreshToken.map fun token => (session, token) with
    | none =>
      have hforgot := inv_forget h (.inr rfl)
      exact ⟨.inl hflights, hforgot.session_issued, h.flight_issued, h.reply_issued,
        h.received_issued, hforgot.unsettled, h.answered, h.unrepeated, h.respectful⟩
    | some pair =>
      obtain ⟨session, token⟩ := pair
      have hstored : s.token = some token := by
        obtain ⟨stored, hsession, hmap⟩ := Option.bind_eq_some_iff.mp htoken
        obtain ⟨t, ht, heq⟩ := Option.map_eq_some_iff.mp hmap
        obtain ⟨-, rfl⟩ := Prod.mk.inj heq
        rw [State.token, hsession, Option.bind_some, ht]
      have hnew := not_received h hrefreshing hstored
      have hreceived : ∀ t, .received t ∈ s.events ++ [.presented token] ↔
          .received t ∈ s.events := by
        intro t
        simp
      dsimp only
      rw [hflights, List.nil_append]
      refine ⟨.inr ⟨_, rfl, rfl⟩, h.session_issued, ?_, ?_, ?_, ?_, ?_, ?_, ?_⟩
      · intro flight hflight
        obtain rfl := List.mem_singleton.mp hflight
        exact h.session_issued token hstored
      · intro flight hflight reply hreply
        obtain rfl := List.mem_singleton.mp hflight
        cases hreply
      · intro t ht
        exact h.received_issued t ((hreceived t).mp ht)
      · intro t ht hmem
        exact absurd ((hreceived t).mp hmem) (not_received h hrefreshing ht)
      · intro flight hflight hmem
        obtain rfl := List.mem_singleton.mp hflight
        exact absurd ((hreceived token).mp hmem) hnew
      · rw [List.pairwise_append]
        refine ⟨h.unrepeated, List.pairwise_singleton _ _, ?_⟩
        rintro a ha b hb t rfl
        obtain rfl := List.mem_singleton.mp hb
        intro heq
        obtain rfl := Event.presented.inj heq
        exact hnew ha
      · intro signIn before after hmem
        refine h.respectful signIn before after ?_
        simpa using hmem

theorem inv_awaitRefresh (i : RequestId) (again : Bool) : Inv (s.awaitRefresh i again) :=
  inv_goTo (inv_refresh h) i _

theorem inv_dispatch (i : RequestId) (again : Bool) : Inv (s.dispatch i again) := by
  unfold State.dispatch
  split
  all_goals exact inv_goTo h i _

theorem inv_answerSession (auth : Option ℕ) (reply : Reply String) :
    Inv (answerSession s auth reply) := by
  unfold answerSession
  split
  next =>
    split
    next => exact h
    next =>
      dsimp only
      split
      next => exact inv_forget h (.inr rfl)
      next => exact h
  next => exact h

/-- Somebody signs in. -/
theorem inv_signIn {pair : AuthTokenPair} (hfresh : s.isFresh pair = true) (now : ℤ) :
    Inv { s with
      session := some (.ofPair s.signIns pair now)
      signIns := s.signIns + 1
      issued := s.issued ++ pair.refreshToken.toList } := by
  have hmem : ∀ t, t ∈ s.issued → t ∈ s.issued ++ pair.refreshToken.toList :=
    fun t ht => List.mem_append_left _ ht
  refine ⟨h.single, ?_, ?_, ?_, ?_, ?_, h.answered, h.unrepeated, h.respectful⟩
  · intro t ht
    have htoken : pair.refreshToken = some t := ht
    simp [htoken]
  · exact fun flight hflight => hmem _ (h.flight_issued flight hflight)
  · intro flight hflight reply hreply t ht
    obtain ⟨hissued, hnew⟩ := h.reply_issued flight hflight reply hreply t ht
    exact ⟨hmem t hissued, hnew⟩
  · exact fun t ht => hmem t (h.received_issued t ht)
  · intro t ht hreceived
    have htoken : pair.refreshToken = some t := ht
    rw [State.isFresh, htoken, Option.all_some] at hfresh
    exact absurd (h.received_issued t hreceived) (of_decide_eq_true hfresh)

/-- The refresh that runs is the only one. -/
theorem flights_eq {promise : PromiseId} {flight : Flight} (hfound : s.flight promise = some flight) :
    s.flights = [flight] ∧ flight.promise = promise := by
  have hmem := List.mem_of_find?_eq_some hfound
  have hpromise := List.find?_some hfound
  refine ⟨?_, eq_of_beq hpromise⟩
  rcases h.single with hempty | ⟨only, hone, -⟩
  · rw [hempty] at hmem
    cases hmem
  · rw [hone] at hmem ⊢
    rw [List.mem_singleton.mp hmem]

/-- A refresh is answered. -/
theorem inv_receive {promise : PromiseId} {token : Token} {signIn : ℕ}
    (hfound : s.flight promise = some ⟨promise, token, signIn, none⟩)
    {reply : Reply AuthTokenPair} (hfresh : reply.pair.all s.isFresh = true) :
    Inv { s with
      flights := [⟨promise, token, signIn, some reply⟩]
      issued := s.issued ++ reply.token.toList
      events := if reply.isSuccess then s.events ++ [.received token] else s.events } := by
  obtain ⟨hflights, -⟩ := flights_eq h hfound
  have hmem : ∀ t, t ∈ s.issued → t ∈ s.issued ++ reply.token.toList :=
    fun t ht => List.mem_append_left _ ht
  have hown : token ∈ s.issued := h.flight_issued ⟨promise, token, signIn, none⟩ (by simp [hflights])
  have hunanswered : .received token ∉ s.events := by
    intro hreceived
    obtain ⟨r, hr, -⟩ :=
      h.answered ⟨promise, token, signIn, none⟩ (by simp [hflights]) hreceived
    cases hr
  have hevents : ∀ t, .received t ∈ (if reply.isSuccess then s.events ++ [.received token]
      else s.events) → .received t ∈ s.events ∨ (t = token ∧ reply.isSuccess = true) := by
    intro t ht
    split at ht
    next hsuccess =>
      rcases List.mem_append.mp ht with hold | hnew
      · exact .inl hold
      · exact .inr ⟨Event.received.inj (List.mem_singleton.mp hnew), hsuccess⟩
    next => exact .inl ht
  refine ⟨?_, ?_, ?_, ?_, ?_, ?_, ?_, ?_, ?_⟩
  · refine .inr ⟨_, rfl, ?_⟩
    rcases h.single with hempty | ⟨only, hone, hsome⟩
    · rw [hempty] at hflights
      cases hflights
    · rw [hone] at hflights
      obtain rfl := (List.cons.inj hflights).1
      exact hsome
  · exact fun t ht => hmem t (h.session_issued t ht)
  · intro flight hflight
    obtain rfl := List.mem_singleton.mp hflight
    exact hmem token hown
  · intro flight hflight r hr t ht
    obtain rfl := List.mem_singleton.mp hflight
    obtain rfl := Option.some.inj hr
    refine ⟨by simp [ht], ?_⟩
    have hnew : t ∉ s.issued := by
      obtain ⟨pair, hpair, htoken⟩ := Option.bind_eq_some_iff.mp ht
      rw [hpair, Option.all_some, State.isFresh, htoken, Option.all_some] at hfresh
      exact of_decide_eq_true hfresh
    intro hreceived
    rcases hevents t hreceived with hold | ⟨rfl, -⟩
    · exact hnew (h.received_issued t hold)
    · exact hnew hown
  · intro t ht
    rcases hevents t ht with hold | ⟨rfl, -⟩
    · exact hmem t (h.received_issued t hold)
    · exact hmem t hown
  · intro t ht hreceived
    rcases hevents t hreceived with hold | ⟨rfl, -⟩
    · obtain ⟨flight, hflight, rfl⟩ := h.unsettled t ht hold
      rw [hflights, List.mem_singleton] at hflight
      exact ⟨_, List.mem_singleton_self _, by rw [hflight]⟩
    · exact ⟨_, List.mem_singleton_self _, rfl⟩
  · intro flight hflight hreceived
    obtain rfl := List.mem_singleton.mp hflight
    rcases hevents token hreceived with hold | ⟨-, hsuccess⟩
    · exact absurd hold hunanswered
    · exact ⟨reply, rfl, hsuccess⟩
  · dsimp only
    split
    · exact unrepeated_append h nofun
    · exact h.unrepeated
  · intro started before after hsettled
    refine h.respectful started before after ?_
    split at hsettled
    · simpa using hsettled
    · exact hsettled

/-- A refresh is over, and what it does to the session is considerate. -/
theorem inv_settle {promise : PromiseId} {token : Token} {signIn : ℕ} {reply : Reply AuthTokenPair}
    (hfound : s.flight promise = some ⟨promise, token, signIn, some reply⟩) (now : ℤ)
    (hused : reply.verdict = .keep → reply.isSuccess = true → s.token ≠ some token)
    (hother : reply.verdict ≠ .keep → ∀ session ∈ s.session, session.signIn = signIn) :
    Inv { s with
      session := reply.verdict.apply signIn now s.session
      refreshing := none
      flights := []
      outcomes := Function.update s.outcomes promise (some reply.verdict.isKept)
      events := s.events ++ [.settled signIn s.session (reply.verdict.apply signIn now s.session)] }
    := by
  obtain ⟨hflights, -⟩ := flights_eq h hfound
  have hmem : (⟨promise, token, signIn, some reply⟩ : Flight) ∈ s.flights := by simp [hflights]
  have hevents : ∀ t before after, .received t ∈ s.events ++ [.settled signIn before after] ↔
      .received t ∈ s.events := by
    intro t before after
    simp
  -- what the session has now, it has from the reply, or had before and did not use it up
  have htoken : ∀ t, (reply.verdict.apply signIn now s.session).bind (·.refreshToken) = some t →
      t ∈ s.issued ∧ .received t ∉ s.events := by
    intro t ht
    cases hverdict : reply.verdict with
    | store pair =>
      rw [hverdict] at ht
      have hreply : reply.token = some t := by
        rw [Reply.token, Reply.pair_of_store hverdict]
        exact ht
      exact h.reply_issued _ hmem reply rfl t hreply
    | clear =>
      rw [hverdict] at ht
      cases ht
    | keep =>
      rw [hverdict] at ht
      refine ⟨h.session_issued t ht, ?_⟩
      intro hreceived
      obtain ⟨flight, hflight, rfl⟩ := h.unsettled t ht hreceived
      rw [hflights, List.mem_singleton] at hflight
      subst hflight
      obtain ⟨r, hr, hsuccess⟩ := h.answered _ hmem hreceived
      obtain rfl := Option.some.inj hr
      exact hused hverdict hsuccess ht
  refine ⟨.inl rfl, fun t ht => (htoken t ht).1, nofun, nofun, ?_, ?_, nofun, ?_, ?_⟩
  · intro t ht
    exact h.received_issued t ((hevents t _ _).mp ht)
  · intro t ht hreceived
    exact absurd ((hevents t _ _).mp hreceived) (htoken t ht).2
  · exact unrepeated_append h nofun
  · intro started before after hsettled session hsession hne
    rcases List.mem_append.mp hsettled with hold | hnew
    · exact h.respectful started before after hold session hsession hne
    · obtain ⟨rfl, rfl, rfl⟩ := Event.settled.inj (List.mem_singleton.mp hnew)
      cases hverdict : reply.verdict with
      | keep => rfl
      | clear => exact absurd (hother (by simp [hverdict]) session hsession) hne
      | store pair => exact absurd (hother (by simp [hverdict]) session hsession) hne

end Steps

/-! ## Runs -/

/-- A step is considerate if it does not keep a token that is used up, and neither stores nor ends a
session where somebody signed in since. -/
def considerate (s : State) : Action → Bool
  | .settle promise _ =>
    match s.flight promise with
    | some ⟨_, token, signIn, some reply⟩ =>
      match reply.verdict with
      | .keep => !(reply.isSuccess && s.token == some token)
      | _ => s.session.all fun session => session.signIn == signIn
    | _ => true
  | _ => true

/-- **Every considerate step keeps the invariant.** -/
theorem inv_step {s s' : State} {a : Action} (h : Inv s) (hok : considerate s a = true)
    (hstep : step s a = some s') : Inv s' := by
  cases a with
  | request i now =>
    simp only [step] at hstep
    split at hstep
    next =>
      obtain rfl := Option.some.inj hstep
      split
      next => exact inv_awaitRefresh (inv_read h now) i false
      next => exact inv_dispatch (inv_read h now) i false
    next => cases hstep
  | resume i now =>
    simp only [step] at hstep
    split at hstep
    next =>
      split at hstep
      next =>
        obtain rfl := Option.some.inj hstep
        exact inv_dispatch (inv_read h now) i _
      next =>
        obtain rfl := Option.some.inj hstep
        exact inv_goTo h i .idle
      next => cases hstep
    next => cases hstep
  | answer i reply now =>
    simp only [step] at hstep
    split at hstep
    next =>
      obtain rfl := Option.some.inj hstep
      exact inv_goTo (inv_answerSession (inv_read h now) _ reply) i _
    next => cases hstep
  | rescue i now =>
    simp only [step] at hstep
    split at hstep
    next =>
      obtain rfl := Option.some.inj hstep
      split
      next => exact inv_awaitRefresh (inv_read h now) i true
      next => exact inv_goTo (inv_read h now) i .idle
    next => cases hstep
  | receive promise reply =>
    simp only [step] at hstep
    split at hstep
    next own token signIn hfound =>
      obtain ⟨hflights, hown⟩ := flights_eq h hfound
      dsimp only at hown
      subst hown
      split at hstep
      next hfresh =>
        obtain rfl := Option.some.inj hstep
        have hkept := inv_receive h hfound hfresh
        simpa only [hflights, List.map_cons, List.map_nil, if_true, Reply.token] using hkept
      next => cases hstep
    next => cases hstep
  | settle promise now =>
    simp only [step] at hstep
    split at hstep
    next own token signIn reply hfound =>
      obtain ⟨hflights, hown⟩ := flights_eq h hfound
      dsimp only at hown
      subst hown
      obtain rfl := Option.some.inj hstep
      rw [considerate, hfound] at hok
      dsimp only at hok
      have hkept := inv_settle h hfound now ?_ ?_
      · simpa [hflights] using hkept
      · intro hverdict hsuccess
        rw [hverdict, hsuccess] at hok
        simpa using hok
      · intro hverdict session hsession
        cases hreply : reply.verdict with
        | keep => exact absurd hreply hverdict
        | clear =>
          rw [hreply, hsession] at hok
          exact eq_of_beq hok
        | store pair =>
          rw [hreply, hsession] at hok
          exact eq_of_beq hok
    next => cases hstep
  | signIn pair now =>
    simp only [step] at hstep
    split at hstep
    next hfresh =>
      obtain rfl := Option.some.inj hstep
      exact inv_signIn h hfresh now
    next => cases hstep
  | signOut =>
    obtain rfl := Option.some.inj hstep
    exact inv_forget h (.inr rfl)

/-- **The refresh is sound** in every run of considerate steps. -/
theorem refresh_sound {as : List Action} {s : State}
    (h : Run console (fun s a => considerate s a = true) .init as s) : s.Sound := by
  have hinv : Inv s := h.invariant (fun _ _ _ hs hok hstep => inv_step hs hok hstep) inv_init
  exact hinv.sound

/-- The tokens of a sign-in or a refresh, good for a minute. -/
def pairOf (token : Token) : AuthTokenPair := ⟨some token, some token, some 60⟩

/-- Two requests that share a refresh while a third fails, and the next sign-in. -/
def sharedRefresh : List Action :=
  [.signIn (pairOf 1) 0, .request 0 50000, .request 1 50000,
    .receive 0 (.response 200 (some (pairOf 2))), .settle 0 50100, .resume 0 50200,
    .resume 1 50200, .answer 1 (.response 401 (some "token_expired")) 50300,
    .answer 0 (.response 200 none) 50300, .rescue 1 50400, .signOut, .signIn (pairOf 3) 50500,
    .receive 1 .unreachable, .settle 1 50600]

/-- In that run the refresh is sound. -/
theorem refresh_sound_shared :
    ∃ s : State, Run console (fun s a => considerate s a = true) .init sharedRefresh s ∧
      s.Sound := by
  have hrun : Run console (fun s a => considerate s a = true) .init sharedRefresh _ :=
    run_of_execWhile rfl
  exact ⟨_, hrun, refresh_sound hrun⟩

/-- A refresh is answered with a page that is not JSON, and the next request presents its token
again. -/
theorem unreadable_presented_again :
    ¬ ∀ (as : List Action) (s : State), Run console anyStep .init as s → s.Sound := by
  intro h
  have hrun : Run console anyStep .init
      [.signIn (pairOf 1) 0, .request 0 50000, .receive 0 (.response 200 none), .settle 0 50100,
        .resume 0 50200, .request 0 50300] _ := run_of_exec rfl
  have hpairs := (h _ _ hrun).unrepeated
  have hlater := (List.pairwise_cons.mp (List.pairwise_cons.mp hpairs).2).1
  exact hlater (.presented 1) (by simp) 1 rfl rfl

/-- A refresh that began before a sign-in ends the session of that sign-in. -/
theorem ends_newer_session :
    ∃ s : State, Run console anyStep .init
        [.signIn (pairOf 1) 0, .request 0 50000, .signOut, .signIn (pairOf 2) 50100,
          .receive 0 (.response 401 none), .settle 0 50200] s ∧
      s.session = none :=
  ⟨_, run_of_exec rfl, rfl⟩

end Web
