import GraphRec.Lib.Transition
import GraphRec.Sdk.Retry
import Mathlib.Algebra.Field.Rat
import Mathlib.Data.List.Chain
import Mathlib.Data.NNRat.Defs

/-!
# A request of the SDK

The loop of `request` in `_base_client.py`, once for each client.  A round of the loop gets the
headers, for which it may have to sign in, sends the request and gives up or waits; what the world
answers is in a `Turn`.

The clients differ where they wait: `time.sleep` raises if it is asked for a negative time,
`asyncio.sleep` does not wait then.  And a response counts as a 401 by its code, whatever its
status.

* `Inv` — what every round keeps;
* `retries_bounded` — the sends are bounded and none repeats an ambiguous write, and the clients do
  the same, where no response asks for a negative time or has the code of a 401 without being one;
* `clients_differ` — a response that asks for a negative time.
-/

namespace Sdk.Client

open Transition

/-! ## Credentials -/

/-- `AuthTokenPair`. -/
structure Tokens where
  accessToken : String
  expiresIn : ℤ
  deriving DecidableEq

/-- What a sign-in raises. -/
inductive SignInError (ε : Type)
  | request (e : ε)
  /-- `_no_sync_login`. -/
  | notAvailable
  deriving DecidableEq

/-- A sign-in with an email and a password. -/
abbrev Login (ε : Type) := String → String → Except (SignInError ε) Tokens

/-- `PasswordAuth`. -/
structure PasswordAuth where
  email : String
  password : String
  skew : ℚ
  tokens : Option Tokens
  expiresAt : ℚ
  deriving DecidableEq

/-- `Auth`. -/
inductive Auth
  | apiKey (secret : String)
  | bearer (token : String)
  | password (auth : PasswordAuth)
  deriving DecidableEq

variable {ε : Type}

namespace PasswordAuth

variable (auth : PasswordAuth)

/-- `_fresh`. -/
def fresh (now : ℚ≥0) : Bool := auth.tokens.isSome && decide ((now : ℚ) < auth.expiresAt)

/-- `_store`. -/
def store (tokens : Tokens) (now : ℚ≥0) : String × PasswordAuth :=
  let lifetime := max ((tokens.expiresIn : ℚ) - auth.skew) 0
  ("Bearer " ++ tokens.accessToken,
    { auth with tokens := some tokens, expiresAt := now + lifetime })

/-- `headers`; the clock is read before the sign-in and after it. -/
def headers (now later : ℚ≥0) (login : Login ε) :
    Except (SignInError ε) (String × PasswordAuth) :=
  match auth.tokens, auth.fresh now with
  | some tokens, true => .ok ("Bearer " ++ tokens.accessToken, auth)
  | _, _ => (login auth.email auth.password).map fun tokens => auth.store tokens later

/-- `async_headers`. -/
def asyncHeaders (now later : ℚ≥0) (login : Login ε) :
    Except (SignInError ε) (String × PasswordAuth) :=
  match auth.tokens, auth.fresh now with
  | some tokens, true => .ok ("Bearer " ++ tokens.accessToken, auth)
  | _, _ => (login auth.email auth.password).map fun tokens => auth.store tokens later

end PasswordAuth

namespace Auth

/-- `credential_type == "bearer"`. -/
def isBearer : Auth → Bool
  | .apiKey _ => false
  | .bearer _ | .password _ => true

/-- `can_refresh`. -/
def canRefresh : Auth → Bool
  | .apiKey _ | .bearer _ => false
  | .password _ => true

/-- `invalidate`. -/
def invalidate : Auth → Auth
  | .password auth => .password { auth with expiresAt := 0 }
  | auth => auth

/-- `headers`. -/
def headers (now later : ℚ≥0) (login : Login ε) : Auth → Except (SignInError ε) (String × Auth)
  | .apiKey secret => .ok ("ApiKey " ++ secret, .apiKey secret)
  | .bearer token => .ok ("Bearer " ++ token, .bearer token)
  | .password auth => (auth.headers now later login).map fun (h, auth') => (h, .password auth')

/-- `async_headers`; without a password it is `headers`. -/
def asyncHeaders (now later : ℚ≥0) (login : Login ε) :
    Auth → Except (SignInError ε) (String × Auth)
  | .password auth =>
    (auth.asyncHeaders now later login).map fun (h, auth') => (h, .password auth')
  | auth => auth.headers now later fun _ _ => .error .notAvailable

/-- Do the headers need a sign-in? -/
def signsIn (now : ℚ≥0) : Auth → Bool
  | .password auth => !auth.fresh now
  | _ => false

end Auth

/-- `_check_auth`: may the route be requested with these credentials? -/
def checkAuth (route : Route) (auth : Option Auth) : Bool :=
  match route.auth, auth with
  | .none, _ | .optional, _ => true
  | _, none => false
  | .any, some _ => true
  | .bearer, some auth => auth.isBearer

/-! ## The loop -/

/-- What a send comes to. -/
inductive Answer
  | raises (e : TransportError)
  | responds (r : Response)
  deriving DecidableEq

/-- What the world answers in a round. -/
structure Turn (ε : Type) where
  /-- The clock before a sign-in and after it. -/
  now : ℚ≥0
  later : ℚ≥0
  login : Login ε
  answer : Answer
  /-- What `random()` returns. -/
  draw : ℚ

/-- How a round ends. -/
inductive Next
  | stop
  | refresh
  | wait (delay : Seconds)
  deriving DecidableEq

/-- A round in which the request was sent. -/
structure Round where
  signedIn : Bool
  authorization : Option String
  answer : Answer
  next : Next
  deriving DecidableEq

/-- How a request ends. -/
inductive Outcome (ε : Type)
  /-- What `_parse` makes of the response. -/
  | parsed (r : Response)
  | statusError (error : APIStatusError)
  | timeoutError (e : TransportError)
  | connectionError (e : TransportError)
  | configurationError
  /-- What the sign-in raised. -/
  | signInError (e : SignInError ε)
  /-- The delay could not be computed, or slept. -/
  | overflowError
  | valueError
  deriving DecidableEq

/-- A request: the credentials, the variables of the loop, the rounds so far and the outcome. -/
structure State (ε : Type) where
  auth : Option Auth
  attempt : ℕ
  refreshed : Bool
  rounds : List Round
  outcome : Option (Outcome ε)
  deriving DecidableEq

namespace State

variable (s : State ε)

/-- `request` before its loop. -/
def start (route : Route) (auth : Option Auth) : State ε where
  auth := auth
  attempt := 0
  refreshed := false
  rounds := []
  outcome := if checkAuth route auth then none else some .configurationError

/-- The round is the last one. -/
def stop (round : Next → Round) (outcome : Outcome ε) : State ε :=
  { s with rounds := s.rounds ++ [round .stop], outcome := some outcome }

/-- The round is followed by another, after a wait. -/
def retry (round : Next → Round) (delay : Seconds) : State ε :=
  { s with rounds := s.rounds ++ [round (.wait delay)], attempt := s.attempt + 1 }

/-- The round is followed by another, with new credentials. -/
def refresh (round : Next → Round) : State ε :=
  { s with
    rounds := s.rounds ++ [round .refresh]
    auth := s.auth.map Auth.invalidate
    refreshed := true }

/-- Does an error response make the client sign in again? -/
def refreshes (route : Route) (error : APIStatusError) : Bool :=
  error.errorClass.isAuthentication && decide (route.auth ≠ .none) &&
    s.auth.any Auth.canRefresh && !s.refreshed

end State

/-- What is raised after a transport error. -/
def transportOutcome (e : TransportError) : Outcome ε :=
  if e.isTimeout then .timeoutError e else .connectionError e

/-- Are credentials sent? -/
def sendsAuth (route : Route) : Option Auth → Option Auth
  | some auth => if route.auth = .none then none else some auth
  | none => none

/-- Does the round sign in? -/
def signsIn (route : Route) (auth : Option Auth) (now : ℚ≥0) : Bool :=
  (sendsAuth route auth).any (Auth.signsIn now)

/-- The authorization of a send, and the credentials after it. -/
def syncHeaders (route : Route) (auth : Option Auth) (turn : Turn ε) :
    Except (SignInError ε) (Option String × Option Auth) :=
  match sendsAuth route auth with
  | none => .ok (none, auth)
  | some sent =>
    (sent.headers turn.now turn.later turn.login).map fun (h, auth') => (some h, some auth')

def asyncHeaders (route : Route) (auth : Option Auth) (turn : Turn ε) :
    Except (SignInError ε) (Option String × Option Auth) :=
  match sendsAuth route auth with
  | none => .ok (none, auth)
  | some sent =>
    (sent.asyncHeaders turn.now turn.later turn.login).map fun (h, auth') => (some h, some auth')

section Loop

variable (policy : RetryPolicy) (route : Route)

/-- One round of `SyncAPIClient.request`. -/
def syncStep (s : State ε) (turn : Turn ε) : Option (State ε) :=
  if s.outcome.isSome then none
  else some <|
    match syncHeaders route s.auth turn with
    | .error e => { s with outcome := some (.signInError e) }
    | .ok (authorization, auth) =>
      let round := Round.mk (signsIn route s.auth turn.now) authorization turn.answer
      let s := { s with auth := auth }
      match turn.answer with
      | .raises e =>
        match policy.delayForException e route s.attempt turn.draw with
        | .giveUp => s.stop round (transportOutcome e)
        | .overflow => s.stop round .overflowError
        | .wait delay =>
          -- `time.sleep`
          if delay.atLeastZero then s.retry round delay
          else s.stop round .valueError
      | .responds r =>
        if r.isSuccess then s.stop round (.parsed r)
        else
          let error := errorFromResponse r
          if s.refreshes route error then s.refresh round
          else
            match policy.delayForStatus error route s.attempt turn.draw with
            | .giveUp => s.stop round (.statusError error)
            | .overflow => s.stop round .overflowError
            | .wait delay =>
              if delay.atLeastZero then s.retry round delay
              else s.stop round .valueError

/-- One round of `AsyncAPIClient.request`. -/
def asyncStep (s : State ε) (turn : Turn ε) : Option (State ε) :=
  if s.outcome.isSome then none
  else some <|
    match asyncHeaders route s.auth turn with
    | .error e => { s with outcome := some (.signInError e) }
    | .ok (authorization, auth) =>
      let round := Round.mk (signsIn route s.auth turn.now) authorization turn.answer
      let s := { s with auth := auth }
      match turn.answer with
      | .raises e =>
        match policy.delayForException e route s.attempt turn.draw with
        | .giveUp => s.stop round (transportOutcome e)
        | .overflow => s.stop round .overflowError
        -- `asyncio.sleep` takes any number, and does not wait for less than zero
        | .wait delay => s.retry round delay
      | .responds r =>
        if r.isSuccess then s.stop round (.parsed r)
        else
          let error := errorFromResponse r
          if s.refreshes route error then s.refresh round
          else
            match policy.delayForStatus error route s.attempt turn.draw with
            | .giveUp => s.stop round (.statusError error)
            | .overflow => s.stop round .overflowError
            | .wait delay => s.retry round delay

/-- The clients as transition systems. -/
def syncClient (auth : Option Auth) : System (State ε) (Turn ε) where
  init := .start route auth
  step := syncStep policy route

def asyncClient (auth : Option Auth) : System (State ε) (Turn ε) where
  init := .start route auth
  step := asyncStep policy route

/-- A response that is answered with a wait does not ask for a negative one, and a response that is
answered with a sign-in is a 401, unless the request may be repeated anyway. -/
def clean (s : State ε) (turn : Turn ε) : Bool :=
  match turn.answer with
  | .raises _ => true
  | .responds r =>
    r.isSuccess ||
      (let error := errorFromResponse r
       if s.refreshes route error then decide (r.status = 401) || route.idempotent
       else
         match policy.delayForStatus error route s.attempt turn.draw with
         | .wait delay => delay.atLeastZero
         | _ => true)

end Loop

/-! ## The clients do the same -/

section Alike

variable {policy : RetryPolicy} {route : Route} {s s' : State ε} {turn : Turn ε}

/-- `headers` and `async_headers`. -/
theorem asyncHeaders_eq (auth : Option Auth) :
    asyncHeaders route auth turn = syncHeaders route auth turn := by
  unfold asyncHeaders syncHeaders
  cases sendsAuth route auth with
  | none => rfl
  | some sent =>
    cases sent with
    | apiKey secret => rfl
    | bearer token => rfl
    | password sent => rfl

/-- The credentials stay of their kind. -/
theorem canRefresh_of_headers {auth auth' : Option Auth} {authorization : Option String}
    (h : syncHeaders route auth turn = .ok (authorization, auth')) :
    auth'.any Auth.canRefresh = auth.any Auth.canRefresh := by
  unfold syncHeaders at h
  cases auth with
  | none =>
    cases h
    rfl
  | some sent =>
    by_cases hnone : route.auth = .none
    · rw [sendsAuth, if_pos hnone] at h
      cases h
      rfl
    · rw [sendsAuth, if_neg hnone] at h
      cases sent with
      | apiKey secret =>
        cases h
        rfl
      | bearer token =>
        cases h
        rfl
      | password sent =>
        simp only [Auth.headers] at h
        cases hsent : sent.headers turn.now turn.later turn.login with
        | error e =>
          rw [hsent] at h
          cases h
        | ok pair =>
          rw [hsent] at h
          cases h
          rfl

theorem refreshes_of_headers {auth : Option Auth} {authorization : Option String}
    (h : syncHeaders route s.auth turn = .ok (authorization, auth)) (error : APIStatusError) :
    State.refreshes { s with auth := auth } route error = s.refreshes route error := by
  unfold State.refreshes
  rw [canRefresh_of_headers h]

/-- Where the response is clean, either client does the same in a round. -/
theorem asyncStep_eq (hclean : clean policy route s turn = true) :
    asyncStep policy route s turn = syncStep policy route s turn := by
  unfold asyncStep syncStep
  split
  next => rfl
  next =>
    rw [asyncHeaders_eq]
    split
    next => rfl
    next authorization auth hheaders =>
      simp only [refreshes_of_headers hheaders]
      unfold clean at hclean
      split
      next e _ =>
        split
        next => rfl
        next => rfl
        next delay hdelay => rw [if_pos (RetryPolicy.wait_of_exception hdelay)]
      next r hanswer =>
        rw [hanswer] at hclean
        dsimp only at hclean
        split
        next => rfl
        next hsuccess =>
          rw [Bool.eq_false_iff.mpr hsuccess, Bool.false_or] at hclean
          split
          next => rfl
          next hrefresh =>
            rw [if_neg hrefresh] at hclean
            split
            next => rfl
            next => rfl
            next delay hdelay =>
              rw [hdelay] at hclean
              rw [if_pos hclean]

end Alike

/-! ## What a round does -/

/-- A 401. -/
def Answer.isUnauthorized : Answer → Bool
  | .raises _ => false
  | .responds r => decide (r.status = 401)

/-- An error before the request was sent, a 429 or a 503 that may be retried. -/
def Answer.isSafe : Answer → Bool
  | .raises e => e.isPreSend
  | .responds r =>
    decide (r.status = 429) || (decide (r.status = 503) && (errorFromResponse r).retryable)

/-- May the second round follow the first, if the request is not idempotent? -/
def MayResend (first second : Round) : Prop :=
  (first.answer.isUnauthorized = true ∧ second.signedIn = true) ∨ first.answer.isSafe = true

section Rounds

variable {policy : RetryPolicy} {route : Route} {s s' : State ε} {turn : Turn ε}

/-- What a round may do to a request. -/
theorem syncStep_cases (h : syncStep policy route s turn = some s') :
    s.outcome = none ∧
      ((∃ e, s' = { s with outcome := some (.signInError e) }) ∨
        ∃ authorization auth, syncHeaders route s.auth turn = .ok (authorization, auth) ∧
          let round := Round.mk (signsIn route s.auth turn.now) authorization turn.answer
          let s₁ : State ε := { s with auth := auth }
          (∃ outcome, s' = s₁.stop round outcome) ∨
            (∃ r, turn.answer = .responds r ∧ r.isSuccess = false ∧
              s₁.refreshes route (errorFromResponse r) = true ∧ s' = s₁.refresh round) ∨
            ∃ delay, s.attempt < policy.maxRetries ∧
              (route.idempotent = false → turn.answer.isSafe = true) ∧
              s' = s₁.retry round delay) := by
  unfold syncStep at h
  split at h
  next => cases h
  next hgoing =>
    refine ⟨by simpa using hgoing, ?_⟩
    have h := Option.some.inj h
    split at h
    next e _ => exact .inl ⟨e, h.symm⟩
    next authorization auth hheaders =>
      refine .inr ⟨authorization, auth, hheaders, ?_⟩
      dsimp only at h
      split at h
      next e hanswer =>
        split at h
        next => exact .inl ⟨_, h.symm⟩
        next => exact .inl ⟨_, h.symm⟩
        next delay hdelay =>
          split at h
          next =>
            refine .inr (.inr ⟨delay, RetryPolicy.attempt_lt_of_exception hdelay, ?_, h.symm⟩)
            intro hroute
            rw [hanswer]
            exact RetryPolicy.safe_of_exception hdelay hroute
          next => exact .inl ⟨_, h.symm⟩
      next r hanswer =>
        split at h
        next => exact .inl ⟨_, h.symm⟩
        next hsuccess =>
          split at h
          next hrefresh =>
            exact .inr (.inl ⟨r, hanswer, Bool.eq_false_iff.mpr hsuccess, hrefresh, h.symm⟩)
          next =>
            split at h
            next => exact .inl ⟨_, h.symm⟩
            next => exact .inl ⟨_, h.symm⟩
            next delay hdelay =>
              split at h
              next =>
                refine .inr (.inr ⟨delay, RetryPolicy.attempt_lt_of_status hdelay, ?_, h.symm⟩)
                intro hroute
                rw [hanswer]
                exact RetryPolicy.safe_of_status hdelay hroute
              next => exact .inl ⟨_, h.symm⟩

/-- After a refresh the next round signs in. -/
theorem signsIn_of_refreshes {error : APIStatusError} (h : s.refreshes route error = true)
    (now : ℚ≥0) : signsIn route (s.auth.map Auth.invalidate) now = true := by
  simp only [State.refreshes, Bool.and_eq_true, decide_eq_true_eq] at h
  obtain ⟨⟨⟨-, hroute⟩, hauth⟩, -⟩ := h
  cases hsent : s.auth with
  | none =>
    rw [hsent] at hauth
    cases hauth
  | some sent =>
    rw [hsent] at hauth
    cases sent with
    | apiKey secret => cases hauth
    | bearer token => cases hauth
    | password sent =>
      have hstale : ¬ (now : ℚ) < 0 := not_lt.mpr now.2
      simp only [Option.map_some, Auth.invalidate, signsIn, sendsAuth, if_neg hroute,
        Option.any_some, Auth.signsIn, PasswordAuth.fresh, decide_eq_false hstale, Bool.and_false,
        Bool.not_false]

theorem not_refreshed {error : APIStatusError} (h : s.refreshes route error = true) :
    s.refreshed = false := by
  simp only [State.refreshes, Bool.and_eq_true, Bool.not_eq_true'] at h
  exact h.2

end Rounds

/-! ## Runs -/

/-- A round that is followed by a refresh. -/
def Round.isRefresh (round : Round) : Bool := decide (round.next = .refresh)

/-- What every round keeps. -/
structure Inv (policy : RetryPolicy) (route : Route) (s : State ε) : Prop where
  attempts : s.attempt ≤ policy.maxRetries
  length : s.rounds.length ≤ policy.maxRetries + 2
  going : s.outcome = none → s.rounds.length = s.attempt + s.refreshed.toNat
  once : s.rounds.countP Round.isRefresh ≤ s.refreshed.toNat
  chain : route.idempotent = false → s.rounds.IsChain MayResend
  last : s.outcome = none → route.idempotent = false → ∀ round ∈ s.rounds.getLast?,
    (round.answer.isUnauthorized = true ∧ ∀ now, signsIn route s.auth now = true) ∨
      round.answer.isSafe = true

section Runs

variable {policy : RetryPolicy} {route : Route} {s s' : State ε} {turn : Turn ε}

theorem inv_start (auth : Option Auth) : Inv policy route (.start route auth : State ε) where
  attempts := Nat.zero_le _
  length := Nat.zero_le _
  going := fun _ => rfl
  once := Nat.zero_le _
  chain := fun _ => List.isChain_nil
  last := fun _ _ _ h => nomatch h

/-- There is room for a round. -/
theorem length_lt (h : Inv policy route s) (hgoing : s.outcome = none) :
    s.rounds.length < policy.maxRetries + 2 := by
  have hlength := h.going hgoing
  have hattempts := h.attempts
  have hone := Bool.toNat_le s.refreshed
  omega

/-- A round that follows the others. -/
theorem chain_round (h : Inv policy route s) (hgoing : s.outcome = none)
    (hroute : route.idempotent = false) (authorization : Option String) (answer : Answer)
    (next : Next) (now : ℚ≥0) :
    (s.rounds ++ [Round.mk (signsIn route s.auth now) authorization answer next]).IsChain
      MayResend := by
  refine (h.chain hroute).append (List.isChain_singleton _) ?_
  intro first hfirst second hsecond
  obtain rfl := Option.some.inj hsecond
  rcases h.last hgoing hroute first hfirst with ⟨hunauthorized, hsigns⟩ | hsafe
  · exact .inl ⟨hunauthorized, hsigns now⟩
  · exact .inr hsafe

/-- **Every round keeps the invariant**, if its response is clean. -/
theorem inv_step (h : Inv policy route s) (hclean : clean policy route s turn = true)
    (hstep : syncStep policy route s turn = some s') : Inv policy route s' := by
  obtain ⟨hgoing, ⟨e, rfl⟩ | ⟨authorization, auth, hheaders, hround⟩⟩ := syncStep_cases hstep
  · exact ⟨h.attempts, h.length, nofun, h.once, h.chain, nofun⟩
  · have hroom := length_lt h hgoing
    have hcount := h.going hgoing
    have honce := h.once
    rcases hround with ⟨outcome, rfl⟩ | ⟨r, hanswer, hsuccess, hrefresh, rfl⟩ |
      ⟨delay, hattempt, hsafe, rfl⟩
    · refine ⟨h.attempts, ?_, nofun, ?_, ?_, nofun⟩
      · simp only [State.stop, List.length_append, List.length_singleton]
        omega
      · simpa [State.stop, Round.isRefresh] using honce
      · exact fun hroute => chain_round h hgoing hroute _ _ _ _
    · have hfirst := not_refreshed hrefresh
      dsimp only at hfirst
      rw [hfirst] at hcount honce
      refine ⟨h.attempts, ?_, ?_, ?_, ?_, ?_⟩
      · simp only [State.refresh, List.length_append, List.length_singleton]
        omega
      · intro _
        simp only [State.refresh, List.length_append, List.length_singleton, hcount]
        rfl
      · simpa [State.refresh, Round.isRefresh] using honce
      · exact fun hroute => chain_round h hgoing hroute _ _ _ _
      · intro _ hroute round hlast
        simp only [State.refresh, List.getLast?_append, List.getLast?_singleton, Option.some_or,
          Option.mem_some_iff] at hlast
        subst hlast
        refine .inl ⟨?_, signsIn_of_refreshes hrefresh⟩
        rw [refreshes_of_headers hheaders] at hrefresh
        rw [clean, hanswer] at hclean
        dsimp only at hclean
        rw [hsuccess, Bool.false_or, if_pos hrefresh, hroute, Bool.or_false] at hclean
        dsimp only
        rw [hanswer]
        exact hclean
    · refine ⟨hattempt, ?_, ?_, ?_, ?_, ?_⟩
      · simp only [State.retry, List.length_append, List.length_singleton]
        omega
      · intro _
        simp only [State.retry, List.length_append, List.length_singleton]
        omega
      · simpa [State.retry, Round.isRefresh] using honce
      · exact fun hroute => chain_round h hgoing hroute _ _ _ _
      · intro _ hroute round hlast
        simp only [State.retry, List.getLast?_append, List.getLast?_singleton, Option.some_or,
          Option.mem_some_iff] at hlast
        subst hlast
        exact .inr (hsafe hroute)

/-- A request goes on as long as it has not ended. -/
theorem syncStep_isSome (hgoing : s.outcome = none) (turn : Turn ε) :
    (syncStep policy route s turn).isSome = true := by
  rw [syncStep, hgoing]
  rfl

/-- Every round but the last one sends the request, and leaves it to go on. -/
theorem length_of_run {ok : State ε → Turn ε → Prop} {auth : Option Auth} {turns : List (Turn ε)}
    (h : Run (syncClient policy route auth) ok s turns s') (hgoing : s'.outcome = none) :
    s.outcome = none ∧ s'.rounds.length = s.rounds.length + turns.length := by
  induction h with
  | nil => exact ⟨hgoing, rfl⟩
  | @cons s s' t turn turns _ hstep _ ih =>
    obtain ⟨hgoing', hrest⟩ := ih hgoing
    obtain ⟨hbefore, ⟨e, rfl⟩ | ⟨authorization, auth, -, hround⟩⟩ :=
      @syncStep_cases ε _ _ _ _ _ hstep
    · cases hgoing'
    · refine ⟨hbefore, ?_⟩
      rcases hround with ⟨outcome, rfl⟩ | ⟨r, -, -, -, rfl⟩ | ⟨delay, -, -, rfl⟩
      · cases hgoing'
      · simp only [State.refresh, List.length_append, List.length_singleton] at hrest
        rw [hrest, List.length_cons]
        omega
      · simp only [State.retry, List.length_append, List.length_singleton] at hrest
        rw [hrest, List.length_cons]
        omega

end Runs

/-! ## The law -/

/-- The law of a request to which the world answered with these turns. -/
structure RetriesWell (policy : RetryPolicy) (route : Route) (auth : Option Auth)
    (turns : List (Turn ε)) (s : State ε) : Prop where
  /-- There are not many sends. -/
  sends : s.rounds.length ≤ policy.maxRetries + 2
  /-- A request that has not ended goes on, and does not go on for ever. -/
  goes : s.outcome = none → ∀ turn, (syncStep policy route s turn).isSome = true
  ends : s.outcome = none → turns.length < policy.maxRetries + 2
  /-- No ambiguous write is sent again, and there is one refresh. -/
  resends : route.idempotent = false → s.rounds.IsChain MayResend
  once : s.rounds.countP Round.isRefresh ≤ 1
  /-- Either client comes to this. -/
  sync : Run (syncClient policy route auth) anyStep (.start route auth) turns s
  async : Run (asyncClient policy route auth) anyStep (.start route auth) turns s

/-- **Retries are bounded**, repeat no ambiguous write and are those of either client, in every
request whose responses are clean. -/
theorem retries_bounded {policy : RetryPolicy} {route : Route} {auth : Option Auth}
    {turns : List (Turn ε)} {s : State ε}
    (h : Run (syncClient policy route auth) (fun s turn => clean policy route s turn = true)
        (.start route auth) turns s ∨
      Run (asyncClient policy route auth) (fun s turn => clean policy route s turn = true)
        (.start route auth) turns s) : RetriesWell policy route auth turns s := by
  have hsync : Run (syncClient policy route auth)
      (fun s turn => clean policy route s turn = true) (.start route auth) turns s := by
    rcases h with hsync | hasync
    · exact hsync
    · exact hasync.of_step_eq fun _ _ hclean => (asyncStep_eq hclean).symm
  have hasync : Run (asyncClient policy route auth)
      (fun s turn => clean policy route s turn = true) (.start route auth) turns s :=
    hsync.of_step_eq fun _ _ hclean => asyncStep_eq hclean
  have hinv : Inv policy route s :=
    hsync.invariant (fun _ _ _ hs hclean hstep => inv_step hs hclean hstep) (inv_start auth)
  refine ⟨hinv.length, fun hgoing turn => syncStep_isSome hgoing turn, ?_, hinv.chain, ?_,
    hsync.weaken fun _ _ _ => trivial, hasync.weaken fun _ _ _ => trivial⟩
  · intro hgoing
    obtain ⟨-, hlength⟩ := length_of_run hsync hgoing
    have hroom := length_lt hinv hgoing
    rw [hlength] at hroom
    simpa [State.start] using hroom
  · have honce := hinv.once
    have hone := Bool.toNat_le s.refreshed
    omega

/-- One retry, after up to a minute. -/
def oneRetry : RetryPolicy := ⟨1, 1 / 2, 8, 60, 1 / 4⟩

/-- A write that is not safe to repeat, and a user who signs in for it. -/
def writeRoute : Route := ⟨.any, false⟩

def user : Auth := .password ⟨"user@shop.test", "secret", 30, none, 0⟩

/-- The clock stands still, a sign-in succeeds and `random()` is a half. -/
def turnWith (answer : Answer) : Turn String :=
  ⟨0, 0, fun _ _ => .ok ⟨"token", 900⟩, answer, 1 / 2⟩

/-- A response without a body that says more. -/
def bare (status : ℕ) : Response := ⟨status, none, none, none, none⟩

/-- A refused connection, an expired token and a success. -/
def patientTurns : List (Turn String) :=
  [turnWith (.raises .connectError), turnWith (.responds (bare 401)),
    turnWith (.responds (bare 200))]

/-- The request is sent three times. -/
theorem retries_bounded_patient :
    ∃ s : State String, s.rounds.length = 3 ∧
      RetriesWell oneRetry writeRoute (some user) patientTurns s := by
  have hrun : (execWhile (syncClient oneRetry writeRoute (some user))
      (clean oneRetry writeRoute) (.start writeRoute (some user)) patientTurns).any
        (fun s => s.rounds.length == 3) = true := by decide +kernel
  obtain ⟨s, hs, hthree⟩ := (Option.any_eq_true _ _).mp hrun
  exact ⟨s, eq_of_beq hthree, retries_bounded (.inl (run_of_execWhile hs))⟩

/-- A rate limit that asks for minus one second. -/
def negativeWait : Turn String :=
  turnWith (.responds { bare 429 with retryAfterSeconds := some (.finite (-1)) })

/-- The one client raises `ValueError`, the other sends again. -/
theorem clients_differ :
    ¬ ∀ (policy : RetryPolicy) (route : Route) (auth : Option Auth) (turns : List (Turn String))
      (s : State String),
      Run (syncClient policy route auth) anyStep (.start route auth) turns s →
        RetriesWell policy route auth turns s := by
  intro h
  have hended : (exec (syncClient oneRetry writeRoute (some user))
      (.start writeRoute (some user)) [negativeWait]).any
        (fun s => s.outcome == some .valueError) = true := by decide +kernel
  obtain ⟨s, hs, houtcome⟩ := (Option.any_eq_true _ _).mp hended
  have hasync := (h _ _ _ _ _ (run_of_exec hs)).async
  have hgoing : (asyncStep oneRetry writeRoute (.start writeRoute (some user))
      negativeWait).any (fun s => s.outcome == some .valueError) = false := by decide +kernel
  cases hasync with
  | cons _ hstep htail =>
    cases htail
    change asyncStep oneRetry writeRoute (.start writeRoute (some user)) negativeWait = some s
      at hstep
    rw [hstep, Option.any_some, houtcome] at hgoing
    cases hgoing

/-- A failure of the server whose envelope has the code of an expired token: a write that is not
safe to repeat is sent again. -/
theorem resent_by_code :
    ∃ s : State String, Run (syncClient oneRetry writeRoute (some user)) anyStep
        (.start writeRoute (some user))
        [turnWith (.responds { bare 500 with code := some "token_expired" }),
          turnWith (.responds (bare 200))] s ∧
      s.rounds.map Round.next = [.refresh, .stop] := by
  have hended : (exec (syncClient oneRetry writeRoute (some user))
      (.start writeRoute (some user))
      [turnWith (.responds { bare 500 with code := some "token_expired" }),
        turnWith (.responds (bare 200))]).any
        (fun s => s.rounds.map Round.next == [.refresh, .stop]) = true := by decide +kernel
  obtain ⟨s, hs, hrounds⟩ := (Option.any_eq_true _ _).mp hended
  exact ⟨s, run_of_exec hs, eq_of_beq hrounds⟩

end Sdk.Client
