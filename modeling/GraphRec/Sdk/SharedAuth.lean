import GraphRec.Sdk.Client
import Mathlib.Algebra.Order.Field.Rat
import Mathlib.Algebra.Order.Ring.Rat
import Mathlib.Tactic.Linarith

/-!
# Credentials that several threads share

The threads of one client ask its `PasswordAuth` for headers.  The one that has the lock looks at
the tokens and may sign in; a thread whose request is refused invalidates them without the lock,
also between the two assignments of `_store`.

* `Backed.step`, `Counted.step` — what every step keeps;
* `shared_auth` — the tokens are good when they are handed out, there are no more sign-ins than
  there are reasons for, and the lock can always be given back.
-/

namespace Sdk.SharedAuth

open Transition
open Client (PasswordAuth Tokens)

abbrev ThreadId := Nat

/-- A sign-in that was answered. -/
structure SignIn where
  tokens : Tokens
  issuedAt : ℚ≥0
  storedAt : ℚ≥0
  deriving DecidableEq

/-- Where the thread is that has the lock. -/
inductive Phase
  | checking
  | signingIn
  /-- The server has issued tokens. -/
  | issued (tokens : Tokens) (issuedAt : ℚ≥0)
  /-- The tokens are assigned, and not when they expire. -/
  | storing (tokens : Tokens) (issuedAt : ℚ≥0)
  deriving DecidableEq

/-- The thread has begun to sign in. -/
def Phase.busy : Phase → Bool
  | .checking => false
  | _ => true

/-- The credentials, the threads that wait for the lock and the one that has it; what was counted
and handed out. -/
structure State where
  auth : PasswordAuth
  now : ℚ≥0
  waiting : List ThreadId
  holder : Option (ThreadId × Phase)
  signIns : List SignIn
  begun : ℕ
  failed : ℕ
  invalidated : ℕ
  /-- The tokens of the headers that were returned, to whom and when. -/
  handed : List (ThreadId × Tokens × ℚ≥0)

/-- The steps. -/
inductive Action
  | call (i : ThreadId)
  | acquire (i : ThreadId)
  | check
  /-- The server answers the sign-in. -/
  | issue (tokens : Tokens)
  | receive
  /-- The sign-in raises, before or after the server has answered it. -/
  | fail
  | store
  | invalidate
  | tick (d : ℚ≥0)

/-- When tokens that are stored at a time expire for the client. -/
def expiry (skew : ℚ) (tokens : Tokens) (storedAt : ℚ≥0) : ℚ :=
  storedAt + max ((tokens.expiresIn : ℚ) - skew) 0

/-- The lock is left with a header. -/
def State.hand (s : State) (i : ThreadId) (tokens : Tokens) : State :=
  { s with holder := none, handed := s.handed ++ [(i, tokens, s.now)] }

/-- One step. -/
def step (s : State) : Action → Option State
  | .call i => some { s with waiting := i :: s.waiting }
  | .acquire i =>
    if i ∈ s.waiting ∧ s.holder = none then
      some { s with waiting := s.waiting.erase i, holder := some (i, .checking) }
    else none
  | .check =>
    match s.holder with
    | some (i, .checking) =>
      match s.auth.tokens, s.auth.fresh s.now with
      | some tokens, true => some (s.hand i tokens)
      | _, _ => some { s with holder := some (i, .signingIn), begun := s.begun + 1 }
    | _ => none
  | .issue tokens =>
    match s.holder with
    | some (i, .signingIn) => some { s with holder := some (i, .issued tokens s.now) }
    | _ => none
  | .receive =>
    match s.holder with
    | some (i, .issued tokens issuedAt) =>
      some { s with
        holder := some (i, .storing tokens issuedAt)
        auth := { s.auth with tokens := some tokens } }
    | _ => none
  | .fail =>
    match s.holder with
    | some (_, .signingIn) | some (_, .issued _ _) =>
      some { s with holder := none, failed := s.failed + 1 }
    | _ => none
  | .store =>
    match s.holder with
    | some (i, .storing tokens issuedAt) =>
      some { s.hand i tokens with
        auth := { s.auth with expiresAt := expiry s.auth.skew tokens s.now }
        signIns := s.signIns ++ [⟨tokens, issuedAt, s.now⟩] }
    | _ => none
  | .invalidate =>
    some { s with auth := { s.auth with expiresAt := 0 }, invalidated := s.invalidated + 1 }
  | .tick d => some { s with now := s.now + d }

/-- A client that has not signed in yet. -/
def system (email password : String) (skew : ℚ) : System State Action :=
  ⟨⟨⟨email, password, skew, none, 0⟩, 0, [], none, [], 0, 0, 0, []⟩, step⟩

/-- The two assignments are `_store`, if nothing comes between. -/
theorem store_eq {s s' s'' : State} {i : ThreadId} {tokens : Tokens} {issuedAt : ℚ≥0}
    (hholder : s.holder = some (i, .issued tokens issuedAt))
    (hreceive : step s .receive = some s') (hstore : step s' .store = some s'') :
    s''.auth = (s.auth.store tokens s.now).2 := by
  simp only [step, hholder] at hreceive
  obtain rfl := Option.some.inj hreceive
  simp only [step] at hstore
  obtain rfl := Option.some.inj hstore
  rfl

/-! ## What is kept -/

section Steps

variable {s s' : State} {a : Action}

/-- The sign-ins whose tokens the client does not take for expired. -/
def live (skew : ℚ) (now : ℚ≥0) (signIns : List SignIn) : List SignIn :=
  signIns.filter fun r => decide ((now : ℚ) < expiry skew r.tokens r.storedAt)

/-- A thread signs in. -/
def State.signing (s : State) : Bool := s.holder.any fun h => h.2.busy

/-- The tokens are being assigned. -/
def State.storing (s : State) : Option (Tokens × ℚ≥0) :=
  match s.holder with
  | some (_, .storing tokens issuedAt) => some (tokens, issuedAt)
  | _ => none

/-- Tokens that were handed out: they had just been stored, or the client did not take them for
expired. -/
def HandedOut (skew : ℚ) (signIns : List SignIn) (tokens : Tokens) (time : ℚ≥0) : Prop :=
  ∃ r ∈ signIns, r.tokens = tokens ∧ r.storedAt ≤ time ∧
    (time = r.storedAt ∨ (time : ℚ) < expiry skew tokens r.storedAt)

/-- What the credentials are: those of the last sign-in, unless they are being assigned. -/
structure Backed (s : State) : Prop where
  issued : ∀ i tokens t, s.holder = some (i, .issued tokens t) → t ≤ s.now
  assigned : ∀ tokens t, s.storing = some (tokens, t) → s.auth.tokens = some tokens ∧ t ≤ s.now
  stored : ∀ r ∈ s.signIns, r.issuedAt ≤ r.storedAt ∧ r.storedAt ≤ s.now
  last : s.storing = none → ∀ tokens, s.auth.tokens = some tokens →
    ∃ before r, s.signIns = before ++ [r] ∧ r.tokens = tokens ∧
      (s.auth.expiresAt = 0 ∨ s.auth.expiresAt = expiry s.auth.skew tokens r.storedAt)
  handed : ∀ h ∈ s.handed, HandedOut s.auth.skew s.signIns h.2.1 h.2.2

/-- A sign-in has a reason: the first one, an invalidation or the end of a lifetime. -/
structure Counted (s : State) : Prop where
  begun : s.begun = s.signIns.length + s.failed + if s.signing = true then 1 else 0
  reasons : (live s.auth.skew s.now s.signIns).length + (if s.signing = true then 1 else 0) ≤
    s.invalidated + 1
  stale : s.signing = false → s.auth.fresh s.now = false →
    (live s.auth.skew s.now s.signIns).length ≤ s.invalidated

/-- Tokens that are fresh. -/
theorem fresh_eq {auth : PasswordAuth} {now : ℚ≥0} (h : auth.fresh now = true) :
    (∃ tokens, auth.tokens = some tokens) ∧ (now : ℚ) < auth.expiresAt := by
  rw [PasswordAuth.fresh, Bool.and_eq_true, Option.isSome_iff_exists, decide_eq_true_eq] at h
  exact h

/-- The tokens that a check finds are those of a sign-in that has not expired. -/
theorem Backed.found (h : Backed s) (hstoring : s.storing = none)
    (hfresh : s.auth.fresh s.now = true) :
    ∃ before r tokens, s.signIns = before ++ [r] ∧ s.auth.tokens = some tokens ∧
      r.tokens = tokens ∧ (s.now : ℚ) < expiry s.auth.skew tokens r.storedAt ∧
      s.auth.expiresAt = expiry s.auth.skew tokens r.storedAt := by
  obtain ⟨⟨tokens, htokens⟩, hlt⟩ := fresh_eq hfresh
  obtain ⟨before, r, hlast, hr, hzero | hexpires⟩ := h.last hstoring tokens htokens
  · have hpos : (0 : ℚ) ≤ s.now := s.now.2
    rw [hzero] at hlt
    exact absurd hlt (not_lt.mpr hpos)
  · exact ⟨before, r, tokens, hlast, htokens, hr, hexpires ▸ hlt, hexpires⟩

theorem HandedOut.mono {skew : ℚ} {signIns : List SignIn} {tokens : Tokens} {time : ℚ≥0}
    (h : HandedOut skew signIns tokens time) (r : SignIn) :
    HandedOut skew (signIns ++ [r]) tokens time := by
  obtain ⟨r', hmem, hrest⟩ := h
  exact ⟨r', List.mem_append_left _ hmem, hrest⟩

/-- The lock passes on, and nobody stores tokens. -/
theorem Backed.frame (h : Backed s) (hnone : s.storing = none) (hnone' : s'.storing = none)
    (hissued : ∀ i tokens t, s'.holder = some (i, .issued tokens t) → t ≤ s'.now)
    (hauth : s'.auth = s.auth) (hnow : s'.now = s.now) (hsignIns : s'.signIns = s.signIns)
    (hhanded : s'.handed = s.handed) : Backed s' := by
  refine ⟨hissued, ?_, ?_, ?_, ?_⟩
  · intro tokens t hj
    rw [hnone'] at hj
    cases hj
  · rw [hsignIns, hnow]
    exact h.stored
  · intro _
    rw [hauth, hsignIns]
    exact h.last hnone
  · rw [hhanded, hauth, hsignIns]
    exact h.handed

theorem backed_acquire {i : ThreadId} (h : Backed s) (hstep : step s (.acquire i) = some s') :
    Backed s' := by
  simp only [step] at hstep
  split at hstep
  case isFalse => cases hstep
  case isTrue hfree =>
    obtain rfl := Option.some.inj hstep
    have hnone : s.storing = none := by rw [State.storing, hfree.2]
    exact h.frame hnone rfl (fun _ _ _ hj => by cases hj) rfl rfl rfl rfl

/-- Tokens that are found fresh are handed out. -/
theorem backed_check (h : Backed s) (hstep : step s .check = some s') : Backed s' := by
  simp only [step] at hstep
  split at hstep
  · next i hholder =>
    have hnone : s.storing = none := by rw [State.storing, hholder]
    split at hstep
    · next tokens htokens hfresh =>
      obtain rfl := Option.some.inj hstep
      refine ⟨?_, ?_, h.stored, fun _ => h.last hnone, ?_⟩
      · intro j tokens t hj
        cases hj
      · intro tokens t hj
        cases hj
      · intro out hout
        rcases List.mem_append.mp hout with hold | hnew
        · exact h.handed out hold
        · obtain rfl := List.mem_singleton.mp hnew
          obtain ⟨before, r, tokens', hlast, htokens', hr, hlt, -⟩ := h.found hnone hfresh
          obtain rfl := Option.some.inj (htokens.symm.trans htokens')
          have hmem : r ∈ s.signIns := by rw [hlast]; simp
          exact ⟨r, hmem, hr, (h.stored r hmem).2, .inr hlt⟩
    · obtain rfl := Option.some.inj hstep
      exact h.frame hnone rfl (fun _ _ _ hj => by cases hj) rfl rfl rfl rfl
  · cases hstep

theorem backed_issue {tokens : Tokens} (h : Backed s) (hstep : step s (.issue tokens) = some s') :
    Backed s' := by
  simp only [step] at hstep
  split at hstep
  · next i hholder =>
    obtain rfl := Option.some.inj hstep
    have hnone : s.storing = none := by rw [State.storing, hholder]
    refine h.frame hnone rfl ?_ rfl rfl rfl rfl
    intro j tokens' t hj
    cases hj
    exact le_rfl
  · cases hstep

/-- The tokens are assigned first. -/
theorem backed_receive (h : Backed s) (hstep : step s .receive = some s') : Backed s' := by
  simp only [step] at hstep
  split at hstep
  · next i tokens issuedAt hholder =>
    obtain rfl := Option.some.inj hstep
    refine ⟨?_, ?_, h.stored, ?_, h.handed⟩
    · intro j tokens' t hj
      cases hj
    · intro tokens' t hj
      cases hj
      exact ⟨rfl, h.issued i tokens issuedAt hholder⟩
    · intro hnone
      cases hnone
  · cases hstep

/-- A sign-in that raises was begun, and stores nothing. -/
theorem step_fail (hstep : step s .fail = some s') :
    s.storing = none ∧ s.signing = true ∧
      s' = { s with holder := none, failed := s.failed + 1 } := by
  simp only [step] at hstep
  split at hstep
  · next hholder =>
    refine ⟨by rw [State.storing, hholder], ?_, (Option.some.inj hstep).symm⟩
    rw [State.signing, hholder]
    rfl
  · next hholder =>
    refine ⟨by rw [State.storing, hholder], ?_, (Option.some.inj hstep).symm⟩
    rw [State.signing, hholder]
    rfl
  · cases hstep

theorem backed_fail (h : Backed s) (hstep : step s .fail = some s') : Backed s' := by
  obtain ⟨hnone, -, rfl⟩ := step_fail hstep
  exact h.frame hnone rfl (fun _ _ _ hj => by cases hj) rfl rfl rfl rfl

/-- The sign-in is the last one, and its tokens are handed out. -/
theorem backed_store (h : Backed s) (hstep : step s .store = some s') : Backed s' := by
  simp only [step] at hstep
  split at hstep
  · next i tokens issuedAt hholder =>
    obtain rfl := Option.some.inj hstep
    obtain ⟨htokens, hissued⟩ := h.assigned tokens issuedAt (by rw [State.storing, hholder])
    refine ⟨?_, ?_, ?_, ?_, ?_⟩
    · intro j tokens' t hj
      cases hj
    · intro tokens' t hj
      cases hj
    · intro r hr
      rcases List.mem_append.mp hr with hold | hnew
      · exact h.stored r hold
      · obtain rfl := List.mem_singleton.mp hnew
        exact ⟨hissued, le_rfl⟩
    · intro _ tokens' htokens'
      obtain rfl := Option.some.inj (htokens.symm.trans htokens')
      exact ⟨s.signIns, _, rfl, rfl, .inr rfl⟩
    · intro out hout
      rcases List.mem_append.mp hout with hold | hnew
      · exact (h.handed out hold).mono _
      · obtain rfl := List.mem_singleton.mp hnew
        exact ⟨_, List.mem_append_right _ List.mem_cons_self, rfl, le_rfl, .inl rfl⟩
  · cases hstep

theorem backed_invalidate (h : Backed s) (hstep : step s .invalidate = some s') : Backed s' := by
  obtain rfl := Option.some.inj hstep
  refine ⟨h.issued, h.assigned, h.stored, ?_, h.handed⟩
  intro hnone tokens htokens
  obtain ⟨before, r, hlast, hr, -⟩ := h.last hnone tokens htokens
  exact ⟨before, r, hlast, hr, .inl rfl⟩

/-- Time goes on. -/
theorem le_add_elapsed (now d : ℚ≥0) : now ≤ now + d := by
  have hd : (0 : ℚ) ≤ d := d.2
  rw [← NNRat.coe_le_coe, NNRat.coe_add]
  linarith

theorem backed_tick {d : ℚ≥0} (h : Backed s) (hstep : step s (.tick d) = some s') : Backed s' := by
  obtain rfl := Option.some.inj hstep
  have hlater := le_add_elapsed s.now d
  refine ⟨?_, ?_, ?_, h.last, h.handed⟩
  · exact fun i tokens t hi => (h.issued i tokens t hi).trans hlater
  · exact fun tokens t ht => ⟨(h.assigned tokens t ht).1, (h.assigned tokens t ht).2.trans hlater⟩
  · exact fun r hr => ⟨(h.stored r hr).1, (h.stored r hr).2.trans hlater⟩

/-- **Steps** and the credentials. -/
theorem Backed.step (h : Backed s) (hstep : step s a = some s') : Backed s' := by
  cases a with
  | call i =>
    obtain rfl := Option.some.inj hstep
    exact ⟨h.issued, h.assigned, h.stored, h.last, h.handed⟩
  | acquire i => exact backed_acquire h hstep
  | check => exact backed_check h hstep
  | issue tokens => exact backed_issue h hstep
  | receive => exact backed_receive h hstep
  | fail => exact backed_fail h hstep
  | store => exact backed_store h hstep
  | invalidate => exact backed_invalidate h hstep
  | tick d => exact backed_tick h hstep

/-- A sign-in that has expired stays so. -/
theorem live_mono (skew : ℚ) {now later : ℚ≥0} (h : now ≤ later) (signIns : List SignIn) :
    (live skew later signIns).length ≤ (live skew now signIns).length := by
  refine (List.monotone_filter_right signIns ?_).length_le
  intro r hr
  rw [decide_eq_true_eq] at hr ⊢
  exact (NNRat.coe_le_coe.mpr h).trans_lt hr

/-- The thread that signs in goes on to, and is not done. -/
theorem Counted.signs_on (h : Counted s) (hbusy : s.signing = true) (hbusy' : s'.signing = true)
    (hbegun : s'.begun = s.begun) (hfailed : s'.failed = s.failed)
    (hsignIns : s'.signIns = s.signIns) (hskew : s'.auth.skew = s.auth.skew)
    (hnow : s'.now = s.now) (hinvalidated : s'.invalidated = s.invalidated) : Counted s' := by
  refine ⟨?_, ?_, fun hquiet => ?_⟩
  · rw [hbusy'.trans hbusy.symm, hbegun, hfailed, hsignIns]
    exact h.begun
  · rw [hbusy'.trans hbusy.symm, hskew, hnow, hsignIns, hinvalidated]
    exact h.reasons
  · rw [hbusy'] at hquiet
    cases hquiet

theorem counted_acquire {i : ThreadId} (h : Counted s) (hstep : step s (.acquire i) = some s') :
    Counted s' := by
  simp only [step] at hstep
  split at hstep
  case isFalse => cases hstep
  case isTrue hfree =>
    obtain rfl := Option.some.inj hstep
    have hquiet : s.signing = false := by rw [State.signing, hfree.2]; rfl
    obtain ⟨hbegun, hreasons, hstale⟩ := h
    rw [hquiet] at hbegun hreasons
    exact ⟨hbegun, hreasons, fun _ => hstale hquiet⟩

/-- A sign-in is begun when the tokens are not fresh. -/
theorem counted_check (h : Counted s) (hstep : step s .check = some s') : Counted s' := by
  simp only [step] at hstep
  split at hstep
  · next i hholder =>
    have hquiet : s.signing = false := by rw [State.signing, hholder]; rfl
    obtain ⟨hbegun, hreasons, hstale⟩ := h
    rw [hquiet] at hbegun hreasons
    split at hstep
    · obtain rfl := Option.some.inj hstep
      exact ⟨hbegun, hreasons, fun _ => hstale hquiet⟩
    · next hneither =>
      obtain rfl := Option.some.inj hstep
      have hstaleNow : s.auth.fresh s.now = false := by
        by_contra hfresh
        obtain ⟨⟨tokens, htokens⟩, -⟩ := fresh_eq (eq_true_of_ne_false hfresh)
        exact hneither tokens htokens (eq_true_of_ne_false hfresh)
      refine ⟨?_, ?_, fun hsigning => by cases hsigning⟩
      · change s.begun + 1 = s.signIns.length + s.failed + 1
        simpa using hbegun
      · exact Nat.succ_le_succ (hstale hquiet hstaleNow)
  · cases hstep

theorem counted_issue {tokens : Tokens} (h : Counted s)
    (hstep : step s (.issue tokens) = some s') : Counted s' := by
  simp only [step] at hstep
  split at hstep
  · next i hholder =>
    obtain rfl := Option.some.inj hstep
    exact h.signs_on (by rw [State.signing, hholder]; rfl) rfl rfl rfl rfl rfl rfl rfl
  · cases hstep

theorem counted_receive (h : Counted s) (hstep : step s .receive = some s') : Counted s' := by
  simp only [step] at hstep
  split at hstep
  · next i tokens issuedAt hholder =>
    obtain rfl := Option.some.inj hstep
    exact h.signs_on (by rw [State.signing, hholder]; rfl) rfl rfl rfl rfl rfl rfl rfl
  · cases hstep

theorem counted_fail (h : Counted s) (hstep : step s .fail = some s') : Counted s' := by
  obtain ⟨-, hbusy, rfl⟩ := step_fail hstep
  obtain ⟨hbegun, hreasons, -⟩ := h
  rw [hbusy, if_pos rfl] at hbegun hreasons
  refine ⟨?_, ?_, fun _ _ => Nat.le_of_succ_le_succ hreasons⟩
  · change s.begun = s.signIns.length + (s.failed + 1) + 0
    omega
  · exact (Nat.le_succ _).trans hreasons

theorem live_append (skew : ℚ) (now : ℚ≥0) (signIns : List SignIn) (r : SignIn) :
    live skew now (signIns ++ [r]) = live skew now signIns ++ live skew now [r] :=
  List.filter_append _ _

/-- A sign-in that was begun is done. -/
theorem counted_store (h : Counted s) (hbacked : Backed s) (hstep : step s .store = some s') :
    Counted s' := by
  simp only [step] at hstep
  split at hstep
  · next i tokens issuedAt hholder =>
    obtain rfl := Option.some.inj hstep
    have hbusy : s.signing = true := by rw [State.signing, hholder]; rfl
    obtain ⟨hbegun, hreasons, -⟩ := h
    rw [hbusy, if_pos rfl] at hbegun hreasons
    have hlive := live_append s.auth.skew s.now s.signIns ⟨tokens, issuedAt, s.now⟩
    refine ⟨?_, ?_, ?_⟩
    · change s.begun = (s.signIns ++ _).length + s.failed + 0
      rw [List.length_append, List.length_singleton]
      omega
    · change (live s.auth.skew s.now (s.signIns ++ _)).length + 0 ≤ s.invalidated + 1
      have hone : (live s.auth.skew s.now [⟨tokens, issuedAt, s.now⟩]).length ≤ 1 :=
        List.length_filter_le _ _
      rw [hlive, List.length_append]
      omega
    · intro _ hstale
      change (live s.auth.skew s.now (s.signIns ++ _)).length ≤ s.invalidated
      -- tokens that are stale at once are not live
      have hnone : live s.auth.skew s.now [⟨tokens, issuedAt, s.now⟩] = [] := by
        have htokens := (hbacked.assigned tokens issuedAt (by rw [State.storing, hholder])).1
        simp only [PasswordAuth.fresh, State.hand, htokens, Option.isSome_some,
          Bool.true_and] at hstale
        rw [live, List.filter_singleton, decide_eq_false (of_decide_eq_false hstale)]
        rfl
      rw [hlive, hnone, List.append_nil]
      omega
  · cases hstep

theorem counted_invalidate (h : Counted s) (hstep : step s .invalidate = some s') :
    Counted s' := by
  obtain rfl := Option.some.inj hstep
  obtain ⟨hbegun, hreasons, -⟩ := h
  refine ⟨hbegun, hreasons.trans (Nat.le_succ _), fun _ _ => ?_⟩
  exact (Nat.le_add_right _ _).trans hreasons

/-- Nobody signs in: nobody stores tokens. -/
theorem storing_of_quiet (hquiet : s.signing = false) : s.storing = none := by
  unfold State.storing
  split
  · next i tokens t hholder =>
    rw [State.signing, hholder] at hquiet
    cases hquiet
  · rfl

/-- The tokens expire, or did not count before. -/
theorem counted_tick {d : ℚ≥0} (h : Counted s) (hbacked : Backed s)
    (hstep : step s (.tick d) = some s') : Counted s' := by
  obtain rfl := Option.some.inj hstep
  have hlater := le_add_elapsed s.now d
  have hmono := live_mono s.auth.skew hlater s.signIns
  obtain ⟨hbegun, hreasons, hstale⟩ := h
  refine ⟨hbegun, (Nat.add_le_add_right hmono _).trans hreasons, fun hquiet hnow => ?_⟩
  change s.signing = false at hquiet
  change (live s.auth.skew (s.now + d) s.signIns).length ≤ s.invalidated
  by_cases hfresh : s.auth.fresh s.now = true
  · -- the last sign-in was live, and is not any more
    obtain ⟨before, r, tokens, hlast, htokens, rfl, hlt, hexpires⟩ :=
      hbacked.found (storing_of_quiet hquiet) hfresh
    have hover : ¬ ((s.now + d : ℚ≥0) : ℚ) < expiry s.auth.skew r.tokens r.storedAt := by
      rw [← hexpires]
      simpa only [PasswordAuth.fresh, htokens, Option.isSome_some, Bool.true_and,
        decide_eq_false_iff_not] using hnow
    have hbefore := live_mono s.auth.skew hlater before
    rw [hquiet] at hreasons
    rw [hlast] at hreasons ⊢
    rw [live_append, List.length_append] at hreasons ⊢
    unfold live at hreasons hbefore ⊢
    rw [List.filter_singleton, decide_eq_true hlt] at hreasons
    rw [List.filter_singleton, decide_eq_false hover]
    simp only [Bool.false_eq_true, if_false, cond_true, cond_false, List.length_singleton,
      List.length_nil] at hreasons ⊢
    omega
  · exact hmono.trans (hstale hquiet (eq_false_of_ne_true hfresh))

/-- **Steps** and the sign-ins. -/
theorem Counted.step (h : Counted s) (hbacked : Backed s) (hstep : step s a = some s') :
    Counted s' := by
  cases a with
  | call i =>
    obtain rfl := Option.some.inj hstep
    exact ⟨h.begun, h.reasons, h.stale⟩
  | acquire i => exact counted_acquire h hstep
  | check => exact counted_check h hstep
  | issue tokens => exact counted_issue h hstep
  | receive => exact counted_receive h hstep
  | fail => exact counted_fail h hstep
  | store => exact counted_store h hbacked hstep
  | invalidate => exact counted_invalidate h hstep
  | tick d => exact counted_tick h hbacked hstep

/-- No step changes the skew. -/
theorem skew_step (hstep : step s a = some s') : s'.auth.skew = s.auth.skew := by
  cases a <;> simp only [SharedAuth.step] at hstep
  case call | invalidate | tick => rw [← Option.some.inj hstep]
  case acquire | issue | receive | fail | store =>
    split at hstep <;> first | cases hstep; rfl | cases hstep
  case check =>
    split at hstep
    · split at hstep
      · rw [← Option.some.inj hstep]
        rfl
      · rw [← Option.some.inj hstep]
    · cases hstep

end Steps

/-! ## Runs -/

section Runs

variable {email password : String} {skew : ℚ} {s : State}

/-- What holds in every run. -/
theorem invariant (hs : Reachable (system email password skew) anyStep s) :
    s.auth.skew = skew ∧ Backed s ∧ Counted s := by
  refine hs.invariant (P := fun s => s.auth.skew = skew ∧ Backed s ∧ Counted s) ?_ ?_
  · refine ⟨rfl, ⟨?_, ?_, ?_, ?_, ?_⟩, ⟨rfl, Nat.zero_le _, fun _ _ => le_rfl⟩⟩
    · intro i tokens t h
      cases h
    · intro tokens t h
      cases h
    · intro r hr
      cases hr
    · intro _ tokens h
      cases h
    · intro h hh
      cases hh
  · intro s a s' h _ hstep
    exact ⟨(skew_step hstep).trans h.1, h.2.1.step hstep, h.2.2.step h.2.1 hstep⟩

/-- The sign-ins whose tokens have expired for the client. -/
def State.expired (s : State) : List SignIn :=
  s.signIns.filter fun r => !decide ((s.now : ℚ) < expiry s.auth.skew r.tokens r.storedAt)

/-- The lock can be free after so many steps. -/
def Releases (sys : System State Action) (s : State) (n : ℕ) : Prop :=
  ∃ as s', as.length ≤ n ∧ exec sys s as = some s' ∧ s'.holder = none

theorem Releases.step {sys : System State Action} {a : Action} {n : ℕ}
    (h : ∃ s', sys.step s a = some s' ∧ Releases sys s' n) : Releases sys s (n + 1) := by
  obtain ⟨s', hstep, as, t, hlength, hexec, hfree⟩ := h
  refine ⟨a :: as, t, Nat.succ_le_succ hlength, ?_, hfree⟩
  rw [exec, hstep]
  exact hexec

/-- The thread that has the lock gives it back, if the server answers. -/
theorem releases (s : State) : Releases (system email password skew) s 4 := by
  have hfree : ∀ s : State, s.holder = none → ∀ n, Releases (system email password skew) s n :=
    fun s hs n => ⟨[], s, Nat.zero_le n, rfl, hs⟩
  have hstoring : ∀ (s : State) i tokens t, s.holder = some (i, .storing tokens t) →
      Releases (system email password skew) s 1 := by
    intro s i tokens t hholder
    refine .step (a := .store) ?_
    simp only [system, SharedAuth.step, hholder]
    exact ⟨_, rfl, hfree _ rfl 0⟩
  have hissued : ∀ (s : State) i tokens t, s.holder = some (i, .issued tokens t) →
      Releases (system email password skew) s 2 := by
    intro s i tokens t hholder
    refine .step (a := .receive) ?_
    simp only [system, SharedAuth.step, hholder]
    exact ⟨_, rfl, hstoring _ i tokens t rfl⟩
  have hsigning : ∀ (s : State) i, s.holder = some (i, .signingIn) →
      Releases (system email password skew) s 3 := by
    intro s i hholder
    refine .step (a := .issue ⟨"token", 0⟩) ?_
    simp only [system, SharedAuth.step, hholder]
    exact ⟨_, rfl, hissued _ i _ _ rfl⟩
  cases hholder : s.holder with
  | none => exact hfree s hholder 4
  | some held =>
    obtain ⟨i, phase⟩ := held
    cases phase with
    | checking =>
      refine .step (a := .check) ?_
      simp only [system, SharedAuth.step, hholder]
      split
      · exact ⟨_, rfl, hfree _ rfl 3⟩
      · exact ⟨_, rfl, hsigning _ i rfl⟩
    | signingIn =>
      obtain ⟨as, t, hlength, hrest⟩ := hsigning s i hholder
      exact ⟨as, t, hlength.trans (by decide), hrest⟩
    | issued tokens t =>
      obtain ⟨as, t, hlength, hrest⟩ := hissued s i tokens t hholder
      exact ⟨as, t, hlength.trans (by decide), hrest⟩
    | storing tokens t =>
      obtain ⟨as, t, hlength, hrest⟩ := hstoring s i tokens t hholder
      exact ⟨as, t, hlength.trans (by decide), hrest⟩

/-- A sign-in has expired, or it has not. -/
theorem live_add_expired (s : State) :
    (live s.auth.skew s.now s.signIns).length + s.expired.length = s.signIns.length := by
  have hsplit := List.length_eq_countP_add_countP
    (fun r : SignIn => decide ((s.now : ℚ) < expiry s.auth.skew r.tokens r.storedAt))
    (l := s.signIns)
  rw [live, State.expired, ← List.countP_eq_length_filter, ← List.countP_eq_length_filter, hsplit]
  congr 1
  refine List.countP_congr ?_
  intro r _
  simp

/-- **Shared credentials.**  Tokens whose sign-in took no longer than the skew have not expired when
they are handed out; each sign-in after the first has a failure, an invalidation or an expiry of its
own for a reason; and the lock can always be given back, to any thread that waits. -/
theorem shared_auth (hs : Reachable (system email password skew) anyStep s) :
    (∀ out ∈ s.handed, ∃ r ∈ s.signIns, r.tokens = out.2.1 ∧
      ((r.storedAt : ℚ) ≤ r.issuedAt + skew → skew < r.tokens.expiresIn →
        (out.2.2 : ℚ) < r.issuedAt + r.tokens.expiresIn)) ∧
    s.begun ≤ 1 + s.failed + s.invalidated + s.expired.length ∧
    Releases (system email password skew) s 4 ∧
    (∀ i ∈ s.waiting, s.holder = none → (step s (.acquire i)).isSome = true) := by
  obtain ⟨hskew, hbacked, hcounted⟩ := invariant hs
  refine ⟨fun out hout => ?_, ?_, releases s, fun i hi hfree => ?_⟩
  · obtain ⟨r, hr, htokens, hle, hgood⟩ := hbacked.handed out hout
    rw [hskew, ← htokens] at hgood
    refine ⟨r, hr, htokens, fun hquick hlong => ?_⟩
    rcases hgood with htime | hlt
    · rw [htime]
      linarith
    · rw [expiry, max_eq_left (by linarith)] at hlt
      linarith
  · have hbegun := hcounted.begun
    have hreasons := hcounted.reasons
    have hsplit := live_add_expired s
    omega
  · rw [step, if_pos ⟨hi, hfree⟩]
    rfl

/-- Two threads ask at once: one signs in, the other finds its tokens.  They are invalidated while
they are assigned, and once more, after which the next call signs in again. -/
def twoThreads : List Action :=
  [.call 0, .call 1, .acquire 0, .check, .issue ⟨"first", 900⟩, .tick 1, .receive, .invalidate,
    .store, .acquire 1, .check, .invalidate, .call 1, .acquire 1, .check, .issue ⟨"second", 900⟩,
    .receive, .store]

/-- Two sign-ins for three headers. -/
theorem shared_auth_twoThreads : ∃ s,
    Reachable (system "a@b.c" "secret" 30) anyStep s ∧
      s.handed.map (fun out => out.2.1.accessToken) = ["first", "first", "second"] ∧
      s.begun = 2 ∧ s.begun ≤ 1 + s.failed + s.invalidated + s.expired.length := by
  have hdone : (exec (system "a@b.c" "secret" 30) (system "a@b.c" "secret" 30).init
      twoThreads).map (fun s => (s.handed.map fun out => out.2.1.accessToken, s.begun)) =
      some (["first", "first", "second"], 2) := by
    decide +kernel
  obtain ⟨s, hexec, heq⟩ := Option.map_eq_some_iff.mp hdone
  rw [Prod.mk.injEq] at heq
  have hs : Reachable (system "a@b.c" "secret" 30) anyStep s := ⟨_, run_of_exec hexec⟩
  exact ⟨s, hs, heq.1, heq.2, (shared_auth hs).2.1⟩

end Runs

end Sdk.SharedAuth
