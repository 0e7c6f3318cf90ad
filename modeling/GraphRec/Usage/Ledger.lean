import GraphRec.Usage.Refund
import Mathlib.Data.Set.Card

/-!
# The monthly counter and the ledger

A request charges the counter when it is admitted and the ledger when it is recorded; in
between it is in flight.  While Redis answers, the counter is the ledger's sum and the
requests in flight, and a request that is not served is refunded and leaves no row.  So
counter and ledger agree when all requests have finished, and a key that is lost then is
seeded with the value it had.

A key that is lost while requests are in flight is seeded without them: they reach the
ledger, but not the counter.  `ledger_agrees` shows that this is the only way.
-/

namespace Usage

open Transition
open Auth (TenantId Time)

/-! ## Conditions on a step -/

/-- Redis answers, the request is one of the route, and it is recorded in its month. -/
def undisturbed (cal : Calendar) (s : State) : Action → Bool
  | .begin _ request => decide (request.quantity = 1)
  | .serve c telemetry _ =>
      match s.calls c with
      | some call => cal.contains call.request.month telemetry.now
      | none => true
  | act => !act.fails

/-- Charged in Redis, and neither recorded nor refunded. -/
def Phase.inFlight : Phase → Bool
  | .admitted .redis | .refunding .redis | .decrementing .redis => true
  | _ => false

/-- The requests of a counter that are in flight. -/
def inFlight (s : State) (key : QuotaKey) : Set CallId :=
  {c | ∃ call, s.calls c = some call ∧ call.request.key = key ∧ call.phase.inFlight = true}

/-- The seeds that requests hold for a counter are this sum. -/
def SeedsAre (s : State) (key : QuotaKey) (usage : Nat) : Prop :=
  ∀ c call seed, s.calls c = some call → call.request.key = key →
    call.phase = .setting seed → seed = usage

/-- A key is lost only while no request is in flight and no request holds a seed other than
the ledger's sum. -/
def losesQuietKey (cal : Calendar) (s : State) : Action → Prop
  | .lose key => inFlight s key = ∅ ∧ SeedsAre s key (monthUsage cal s.db key)
  | _ => True

/-! ## The invariant -/

/-- The phases of requests that Redis failed. -/
def Phase.fallen : Phase → Bool
  | .falling | .charging _ | .admitted .fallback | .refunding .fallback
  | .decrementing .fallback | .localRefunding _ _ => true
  | _ => false

/-- A counter is the ledger's sum with the requests in flight; without a counter no request
is in flight, and the seeds are the ledger's sum. -/
def Agrees (cal : Calendar) (s : State) (key : QuotaKey) : Prop :=
  match s.counters key with
  | none => inFlight s key = ∅ ∧ SeedsAre s key (monthUsage cal s.db key)
  | some k => ∃ n : Nat, (inFlight s key).encard = n ∧ k.value = monthUsage cal s.db key + n

/-- What holds of the undisturbed runs. -/
structure LedgerInv (cal : Calendar) (s : State) : Prop where
  closed : ∀ p, s.circuitOpen p = false
  calls : ∀ c call, s.calls c = some call →
    call.phase.fallen = false ∧ call.request.quantity = 1
  keys : ∀ key, Agrees cal s key

/-! ## The ledger after a recording -/

/-- A recorded request adds one to the sum of its tenant and month. -/
theorem monthUsage_recorded (cal : Calendar) (db : Database) (tenant : TenantId)
    (telemetry : Telemetry) (response : Served) (key : QuotaKey) :
    monthUsage cal (db.recorded tenant telemetry response) key =
      monthUsage cal db key +
        if key.tenant = tenant ∧ cal.contains key.month telemetry.now = true then 1 else 0 := by
  simp only [monthUsage, ledgerUsage, Database.recorded, List.filter_append, List.map_append,
    List.sum_append, Nat.add_left_cancel_iff]
  by_cases h : key.tenant = tenant ∧ cal.contains key.month telemetry.now = true
  · obtain ⟨rfl, hmonth⟩ := h
    simp only [Calendar.contains, Bool.and_eq_true, decide_eq_true_eq] at hmonth
    simp [hmonth, Calendar.contains]
  · rw [if_neg h]
    have hnot : ¬ (tenant = key.tenant ∧ cal.monthStart key.month ≤ telemetry.now ∧
        telemetry.now < cal.monthStart (key.month + 1)) := by
      intro hall
      apply h
      simp only [Calendar.contains, Bool.and_eq_true, decide_eq_true_eq]
      exact ⟨hall.1.symm, hall.2⟩
    simp only [List.filter_cons, List.filter_nil]
    rw [if_neg (by simpa [and_assoc] using hnot)]
    rfl

/-- The sums of other counters stay. -/
theorem monthUsage_recorded_other {cal : Calendar} {db : Database} {r : Request}
    {telemetry : Telemetry} {response : Served} {key : QuotaKey} (hkey : key ≠ r.key)
    (hmonth : cal.contains r.month telemetry.now = true) :
    monthUsage cal (db.recorded r.tenant telemetry response) key = monthUsage cal db key := by
  rw [monthUsage_recorded, if_neg]
  · exact Nat.add_zero _
  · intro h
    apply hkey
    obtain ⟨tenant, month⟩ := key
    obtain ⟨rfl, hcontains⟩ := h
    dsimp only at hcontains
    rw [cal.contains_unique hcontains hmonth]
    rfl

/-- The sum of its own counter grows by one. -/
theorem monthUsage_recorded_own {cal : Calendar} {db : Database} {r : Request}
    {telemetry : Telemetry} {response : Served}
    (hmonth : cal.contains r.month telemetry.now = true) :
    monthUsage cal (db.recorded r.tenant telemetry response) r.key =
      monthUsage cal db r.key + 1 := by
  rw [monthUsage_recorded, if_pos ⟨rfl, hmonth⟩]

/-! ## The requests in flight after a move -/

section Flight

variable {cal : Calendar} {s s' : State} {c : CallId} {call moved : Call} {key : QuotaKey}

/-- Who is in flight after a move. -/
theorem inFlight_update (hcalls : s'.calls = Function.update s.calls c (some moved))
    (key : QuotaKey) :
    inFlight s' key =
      if moved.request.key = key ∧ moved.phase.inFlight = true then insert c (inFlight s key)
      else inFlight s key \ {c} := by
  ext d
  have hmem : d ∈ inFlight s' key ↔
      (d = c ∧ moved.request.key = key ∧ moved.phase.inFlight = true) ∨
        (d ≠ c ∧ d ∈ inFlight s key) := by
    simp only [inFlight, Set.mem_ofPred_eq, hcalls]
    by_cases hd : d = c
    · subst hd
      simp [Function.update_self]
    · simp [hd]
  rw [hmem]
  split
  · next hmoved =>
      rw [Set.mem_insert_iff]
      by_cases hd : d = c
      · simp [hd, hmoved]
      · simp [hd]
  · next hmoved =>
      rw [Set.mem_sdiff, Set.mem_singleton_iff]
      constructor
      · intro h
        rcases h with h | h
        · exact absurd h.2 hmoved
        · exact ⟨h.2, h.1⟩
      · intro h
        exact Or.inr ⟨h.2, h.1⟩

theorem mem_inFlight (hcall : s.calls c = some call) :
    c ∈ inFlight s key ↔ call.request.key = key ∧ call.phase.inFlight = true := by
  constructor
  · intro h
    obtain ⟨call', hcall', hflight⟩ := h
    obtain rfl := Option.some.inj (hcall.symm.trans hcall')
    exact hflight
  · intro h
    exact ⟨call, hcall, h⟩

/-- A move that neither enters nor leaves. -/
theorem inFlight_same (hcall : s.calls c = some call)
    (hcalls : s'.calls = Function.update s.calls c (some moved))
    (hrequest : moved.request = call.request)
    (hphase : moved.phase.inFlight = call.phase.inFlight) (key : QuotaKey) :
    inFlight s' key = inFlight s key := by
  rw [inFlight_update hcalls, hrequest, hphase]
  split
  · next h => exact Set.insert_eq_of_mem ((mem_inFlight hcall).mpr h)
  · next h =>
      apply Set.sdiff_singleton_eq_self
      intro hmem
      exact h ((mem_inFlight hcall).mp hmem)

/-- The seeds after a move. -/
theorem seedsAre_update {usage : Nat} (h : SeedsAre s key usage)
    (hcalls : s'.calls = Function.update s.calls c (some moved))
    (hmoved : ∀ seed, moved.request.key = key → moved.phase = .setting seed → seed = usage) :
    SeedsAre s' key usage := by
  intro d call' seed hd hkey hphase
  rw [hcalls] at hd
  rcases stored_cases hd with ⟨_, rfl⟩ | ⟨_, hd⟩
  · exact hmoved seed hkey hphase
  · exact h d call' seed hd hkey hphase

/-- A counter agrees as before, when nothing that concerns it changes. -/
theorem agrees_same (h : Agrees cal s key) (hcounter : s'.counters key = s.counters key)
    (husage : monthUsage cal s'.db key = monthUsage cal s.db key)
    (hflight : inFlight s' key = inFlight s key)
    (hcalls : s'.calls = Function.update s.calls c (some moved))
    (hseed : ∀ seed, moved.request.key = key → moved.phase = .setting seed →
      seed = monthUsage cal s.db key) : Agrees cal s' key := by
  unfold Agrees at h ⊢
  rw [hcounter, husage, hflight]
  cases hk : s.counters key with
  | none =>
      rw [hk] at h
      exact ⟨h.1, seedsAre_update h.2 hcalls hseed⟩
  | some k =>
      rw [hk] at h
      exact h

/-- The counter of a request in flight. -/
theorem counter_of_inFlight (h : Agrees cal s key) (hmem : c ∈ inFlight s key) :
    ∃ k, s.counters key = some k ∧ ∃ n : Nat, (inFlight s key \ {c}).encard = n ∧
      k.value = monthUsage cal s.db key + n + 1 := by
  unfold Agrees at h
  cases hk : s.counters key with
  | none =>
      rw [hk] at h
      rw [h.1] at hmem
      cases hmem
  | some k =>
      rw [hk] at h
      obtain ⟨n, hcard, hvalue⟩ := h
      have hadd := Set.encard_sdiff_singleton_add_one hmem
      rw [hcard] at hadd
      have hfinite : (inFlight s key \ {c}).encard ≠ ⊤ := by
        intro htop
        rw [htop] at hadd
        exact absurd hadd (by simp)
      obtain ⟨m, hm⟩ := ENat.ne_top_iff_exists.mp hfinite
      rw [← hm] at hadd ⊢
      have hnm : m + 1 = n := by exact_mod_cast hadd
      exact ⟨k, rfl, m, rfl, by omega⟩

end Flight

/-! ## The invariant over a step -/

section Step

variable {cal : Calendar} {s s' : State} {act : Action}

/-- Redis does not fail in an undisturbed step. -/
theorem fails_of_undisturbed (hok : undisturbed cal s act = true) : act.fails = false := by
  cases act with
  | begin | serve => rfl
  | _ =>
      simpa [undisturbed] using hok

/-- A quiet move while Redis answers: nothing enters or leaves, nothing falls, and a seed
is the ledger's sum. -/
theorem quiet_undisturbed {r : Request} {phase phase' : Phase}
    (h : Quiet cal s r act phase phase') (hclosed : s.circuitOpen r.process = false)
    (hfails : act.fails = false) (hfallen : phase.fallen = false) :
    phase'.inFlight = phase.inFlight ∧ phase'.fallen = false ∧
      ∀ seed, phase' = .setting seed → seed = monthUsage cal s.db r.key := by
  cases h with
  | available | missing | lost | exhausted | seedFails | present =>
      exact ⟨rfl, rfl, fun _ hsetting => by cases hsetting⟩
  | seed =>
      refine ⟨rfl, rfl, ?_⟩
      intro seed hsetting
      cases hsetting
      rfl
  | @refund c store =>
      cases store with
      | redis => exact ⟨rfl, rfl, fun _ hsetting => by cases hsetting⟩
      | fallback => cases hfallen
  | broken hopen | refundBroken hopen =>
      rw [hclosed] at hopen
      cases hopen
  | scriptFails | setFails | decrFails => cases hfails
  | seedLocal | seedLocalFails | localExhausted => cases hfallen

/-- The calls after a move. -/
theorem calls_update (hinv : LedgerInv cal s) {c : CallId} {moved : Call}
    (hcalls : s'.calls = Function.update s.calls c (some moved))
    (hmoved : moved.phase.fallen = false ∧ moved.request.quantity = 1) :
    ∀ d call, s'.calls d = some call →
      call.phase.fallen = false ∧ call.request.quantity = 1 := by
  intro d call hd
  rw [hcalls] at hd
  rcases stored_cases hd with ⟨_, rfl⟩ | ⟨_, hd⟩
  · exact hmoved
  · exact hinv.calls d call hd

/-- A move that changes no counter, no row and nothing in flight. -/
theorem ledgerInv_moved (hinv : LedgerInv cal s) {c : CallId} {call moved : Call}
    (hcall : s.calls c = some call)
    (hcalls : s'.calls = Function.update s.calls c (some moved))
    (hcircuit : s'.circuitOpen = s.circuitOpen) (hcounters : s'.counters = s.counters)
    (hdb : s'.db = s.db) (hrequest : moved.request = call.request)
    (hflight : moved.phase.inFlight = call.phase.inFlight)
    (hfallen : moved.phase.fallen = false)
    (hseed : ∀ seed, moved.phase = .setting seed →
      seed = monthUsage cal s.db call.request.key) : LedgerInv cal s' where
  closed := by
    rw [hcircuit]
    exact hinv.closed
  calls := calls_update hinv hcalls ⟨hfallen, by rw [hrequest]; exact (hinv.calls c call hcall).2⟩
  keys := by
    intro key
    refine agrees_same (hinv.keys key) (by rw [hcounters]) (by rw [hdb])
      (inFlight_same hcall hcalls hrequest hflight key) hcalls ?_
    intro seed hkey hphase
    rw [hseed seed hphase, ← hkey, hrequest]

/-- An admission charges the counter, and enters. -/
theorem ledgerInv_charged (hinv : LedgerInv cal s) {c : CallId} {call : Call} {again : Bool}
    {k : Counter} (hcall : s.calls c = some call) (hphase : call.phase = .scripting again)
    (hk : s.counters call.request.key = some k) :
    LedgerInv cal ((s.setCounter call.request.key
      (some (k.charge c call.request.quantity))).setPhase c call (.admitted .redis)) where
  closed := hinv.closed
  calls := calls_update hinv rfl ⟨rfl, (hinv.calls c call hcall).2⟩
  keys := by
    intro key
    by_cases hkey : call.request.key = key
    · subst hkey
      have hagrees := hinv.keys call.request.key
      have hout : c ∉ inFlight s call.request.key := by
        rw [mem_inFlight hcall, hphase]
        exact fun h => Bool.false_ne_true h.2
      unfold Agrees at hagrees ⊢
      rw [hk] at hagrees
      obtain ⟨n, hcard, hvalue⟩ := hagrees
      rw [State.setPhase_counters, State.setCounter_counters, Function.update_self]
      refine ⟨n + 1, ?_, ?_⟩
      · rw [inFlight_update rfl, if_pos ⟨rfl, rfl⟩]
        refine (Set.encard_insert_of_notMem hout).trans ?_
        rw [hcard]
        rfl
      · have hquantity := (hinv.calls c call hcall).2
        dsimp only [Counter.charge, State.setPhase, State.setCounter]
        rw [hvalue, hquantity]
        omega
    · refine agrees_same (hinv.keys key) ?_ rfl ?_ rfl (fun _ h => absurd h hkey)
      · rw [State.setPhase_counters, State.setCounter_counters,
          Function.update_of_ne (fun h => hkey h.symm)]
      · rw [inFlight_update rfl, if_neg (fun h => hkey h.1)]
        apply Set.sdiff_singleton_eq_self
        intro hmem
        exact hkey ((mem_inFlight hcall).mp hmem).1

/-- A missing key is seeded with the ledger's sum, and nothing is in flight. -/
theorem ledgerInv_seeded (hinv : LedgerInv cal s) {c : CallId} {call : Call} {seed : Nat}
    (hcall : s.calls c = some call) (hphase : call.phase = .setting seed)
    (hnone : s.counters call.request.key = none) :
    LedgerInv cal (((s.setCounter call.request.key (some (.seeded seed))).afterReply
      call.request.process .ok).setPhase c call (.scripting true)) where
  closed := hinv.closed
  calls := calls_update hinv rfl ⟨rfl, (hinv.calls c call hcall).2⟩
  keys := by
    intro key
    have hflight : inFlight (((s.setCounter call.request.key (some (.seeded seed))).afterReply
        call.request.process .ok).setPhase c call (.scripting true)) key = inFlight s key := by
      exact @inFlight_same s _ c call { call with phase := .scripting true } hcall rfl rfl
        (by rw [hphase]; rfl) key
    by_cases hkey : key = call.request.key
    · subst hkey
      have hagrees := hinv.keys call.request.key
      unfold Agrees at hagrees ⊢
      rw [hnone] at hagrees
      rw [State.setPhase_counters, State.afterReply_counters, State.setCounter_counters,
        Function.update_self, hflight, hagrees.1]
      refine ⟨0, Set.encard_empty, ?_⟩
      have hseed := hagrees.2 c call seed hcall rfl hphase
      dsimp only [Counter.seeded, State.setPhase, State.setCounter, State.afterReply]
      rw [hseed]
      exact (Int.add_zero _).symm
    · refine agrees_same (hinv.keys key) ?_ rfl hflight rfl (fun _ _ h => by cases h)
      rw [State.setPhase_counters, State.afterReply_counters, State.setCounter_counters,
        Function.update_of_ne hkey]

/-- A request in flight leaves: it is recorded, or refunded. -/
theorem ledgerInv_left (hinv : LedgerInv cal s) {c : CallId} {call moved : Call}
    (hcall : s.calls c = some call) (hflight : call.phase.inFlight = true)
    (hcalls : s'.calls = Function.update s.calls c (some moved))
    (hrequest : moved.request = call.request) (hout : moved.phase.inFlight = false)
    (hfallen : moved.phase.fallen = false) (hcircuit : s'.circuitOpen = s.circuitOpen)
    (hother : ∀ key, key ≠ call.request.key → s'.counters key = s.counters key ∧
      monthUsage cal s'.db key = monthUsage cal s.db key)
    (hown : ∀ k, s.counters call.request.key = some k → ∃ k',
      s'.counters call.request.key = some k' ∧
      k'.value - monthUsage cal s'.db call.request.key + 1 =
        k.value - monthUsage cal s.db call.request.key) : LedgerInv cal s' where
  closed := by
    rw [hcircuit]
    exact hinv.closed
  calls := calls_update hinv hcalls ⟨hfallen, by rw [hrequest]; exact (hinv.calls c call hcall).2⟩
  keys := by
    intro key
    have hafter : inFlight s' key = inFlight s key \ {c} := by
      rw [inFlight_update hcalls, if_neg]
      intro h
      rw [hout] at h
      exact Bool.false_ne_true h.2
    by_cases hkey : key = call.request.key
    · subst hkey
      have hmem : c ∈ inFlight s call.request.key := (mem_inFlight hcall).mpr ⟨rfl, hflight⟩
      obtain ⟨k, hk, n, hcard, hvalue⟩ := counter_of_inFlight (hinv.keys _) hmem
      obtain ⟨k', hk', hless⟩ := hown k hk
      unfold Agrees
      rw [hk']
      refine ⟨n, by rw [hafter]; exact hcard, ?_⟩
      omega
    · obtain ⟨hcounter, husage⟩ := hother key hkey
      refine agrees_same (hinv.keys key) hcounter husage ?_ hcalls ?_
      · rw [hafter]
        apply Set.sdiff_singleton_eq_self
        intro hmem
        exact hkey ((mem_inFlight hcall).mp hmem).1.symm
      · intro seed hown'
        rw [hrequest] at hown'
        exact absurd hown'.symm hkey

/-- **Step lemma.**  An undisturbed step that loses no key in use keeps the invariant. -/
theorem ledgerInv_step (hinv : LedgerInv cal s) (hok : undisturbed cal s act = true)
    (hloses : losesQuietKey cal s act) (hstep : step cal s act = some s') :
    LedgerInv cal s' := by
  cases step_cases hstep with
  | @begin c request hnew =>
      have hquantity : request.quantity = 1 := of_decide_eq_true hok
      have hphase : (s.start request).fallen = false ∧ (s.start request).inFlight = false ∧
          ∀ seed, s.start request ≠ .setting seed := by
        unfold State.start
        split <;> exact ⟨rfl, rfl, fun _ h => by cases h⟩
      refine ⟨hinv.closed, calls_update hinv rfl ⟨hphase.1, hquantity⟩, ?_⟩
      intro key
      refine agrees_same (hinv.keys key) rfl rfl ?_ rfl
        (fun seed _ h => absurd h (hphase.2.2 seed))
      rw [inFlight_update rfl, if_neg]
      · apply Set.sdiff_singleton_eq_self
        intro hmem
        obtain ⟨call, hcall, _⟩ := hmem
        rw [hnew] at hcall
        cases hcall
      · intro h
        rw [hphase.2.1] at h
        exact Bool.false_ne_true h.2
  | @moved _ c call phase circuit hcall hquiet hcircuit =>
      have hfails := fails_of_undisturbed hok
      obtain ⟨hflight, hfallen, hseed⟩ := quiet_undisturbed hquiet (hinv.closed _) hfails
        (hinv.calls c call hcall).1
      rcases hcircuit with rfl | hfailed
      · exact ledgerInv_moved hinv hcall rfl rfl rfl rfl rfl hflight hfallen hseed
      · rw [hfails] at hfailed
        cases hfailed
  | charged hcall hphase hk => exact ledgerInv_charged hinv hcall hphase hk
  | unheard => simp [undisturbed, Action.fails] at hok
  | @seeded c call seed reply next hcall hphase hnone hnext hdone =>
      cases reply with
      | ok =>
          rw [hdone rfl]
          exact ledgerInv_seeded hinv hcall hphase hnone
      | error applied => simp [undisturbed, Action.fails] at hok
  | @chargedLocal c call seed used hcall hphase =>
      have hfallen := (hinv.calls c call hcall).1
      rw [hphase] at hfallen
      cases hfallen
  | @served c call store telemetry response hcall hphase hid =>
      have hmonth : cal.contains call.request.month telemetry.now = true := by
        simpa [undisturbed, hcall] using hok
      have hfallen := (hinv.calls c call hcall).1
      rw [hphase] at hfallen
      cases store with
      | fallback => cases hfallen
      | redis =>
          refine ledgerInv_left hinv hcall (by rw [hphase]; rfl) rfl rfl rfl rfl rfl ?_ ?_
          · intro key hkey
            exact ⟨rfl, monthUsage_recorded_other hkey hmonth⟩
          · intro k hk
            refine ⟨k, hk, ?_⟩
            rw [State.setPhase_db, monthUsage_recorded_own hmonth]
            omega
  | @unserved c call store telemetry serve hcall hphase =>
      have hfallen := (hinv.calls c call hcall).1
      rw [hphase] at hfallen
      cases store with
      | fallback => cases hfallen
      | redis =>
          exact ledgerInv_moved hinv hcall rfl rfl rfl rfl rfl (by rw [hphase]; rfl) rfl
            (fun _ h => by cases h)
  | @decremented c call store reply next hcall hphase hnext hdone =>
      have hfallen := (hinv.calls c call hcall).1
      rw [hphase] at hfallen
      cases reply with
      | error applied => simp [undisturbed, Action.fails] at hok
      | ok =>
          rw [hdone rfl]
          cases store with
          | fallback => cases hfallen
          | redis =>
              refine ledgerInv_left hinv hcall (by rw [hphase]; rfl) rfl rfl rfl rfl rfl ?_ ?_
              · intro key hkey
                exact ⟨Function.update_of_ne hkey _ _, rfl⟩
              · intro k hk
                refine ⟨_, Function.update_self .., ?_⟩
                have hquantity := (hinv.calls c call hcall).2
                rw [hk]
                dsimp only [refundCounter, State.setPhase, State.setCounter, State.afterReply]
                rw [hquantity]
                omega
  | @refundedLocal c call store decremented k hcall hphase =>
      have hfallen := (hinv.calls c call hcall).1
      rw [hphase] at hfallen
      cases hfallen
  | @probe p =>
      refine ⟨?_, hinv.calls, hinv.keys⟩
      intro p'
      by_cases hp : p' = p
      · subst hp
        exact Function.update_self ..
      · exact (Function.update_of_ne hp _ _).trans (hinv.closed p')
  | @lost key =>
      refine ⟨hinv.closed, hinv.calls, ?_⟩
      intro key'
      by_cases hkey : key' = key
      · subst hkey
        unfold Agrees
        rw [State.setCounter_counters, Function.update_self]
        exact hloses
      · have hagrees := hinv.keys key'
        unfold Agrees at hagrees ⊢
        rw [State.setCounter_counters, Function.update_of_ne hkey]
        exact hagrees

end Step

/-! ## Every run -/

/-- All requests of the counter have finished. -/
def Finished (s : State) (key : QuotaKey) : Prop :=
  ∀ c call, s.calls c = some call → call.request.key = key → call.phase.finished = true

/-- What is promised of a counter all of whose requests have finished: it is the ledger's
sum, and a request is answered by it, and leaves it, as if the key were missing and seeded
from the ledger. -/
def LedgerAgrees (cal : Calendar) (s : State) : Prop :=
  ∀ key k, s.counters key = some k → Finished s key →
    k.value = monthUsage cal s.db key ∧
    ∀ limit quantity, consumeQuota (some k.value) (monthUsage cal s.db key) limit quantity =
      consumeQuota none (monthUsage cal s.db key) limit quantity

/-- A finished request is not in flight. -/
theorem inFlight_of_finished {s : State} {key : QuotaKey} (h : Finished s key) :
    inFlight s key = ∅ := by
  apply Set.eq_empty_of_forall_notMem
  intro c hc
  obtain ⟨call, hcall, hkey, hflight⟩ := hc
  have hfinished := h c call hcall hkey
  cases hphase : call.phase with
  | admitted store | refunding store | decrementing store =>
      rw [hphase] at hfinished
      cases hfinished
  | _ =>
      rw [hphase] at hflight
      cases hflight

/-- The invariant holds before any request. -/
theorem ledgerInv_initial (cal : Calendar) (db : Database) : LedgerInv cal (initial db) where
  closed := fun _ => rfl
  calls := by
    intro c call hcall
    cases hcall
  keys := by
    intro key
    refine ⟨?_, ?_⟩
    · apply Set.eq_empty_of_forall_notMem
      intro c hc
      obtain ⟨call, hcall, _⟩ := hc
      cases hcall
    · intro c call seed hcall
      cases hcall

/-- **Counter and ledger agree** in every undisturbed run that loses a key only while none
of its requests is in flight and no request holds another seed. -/
theorem ledger_agrees {cal : Calendar} {db : Database} {as : List Action} {t : State}
    (hrun : Run (system cal db)
      (fun s act => undisturbed cal s act = true ∧ losesQuietKey cal s act) (initial db) as t) :
    LedgerAgrees cal t := by
  have hinv : LedgerInv cal t := hrun.invariant (P := LedgerInv cal)
    (fun _ _ _ hnow hok hnext => ledgerInv_step hnow hok.1 hok.2 hnext)
    (ledgerInv_initial cal db)
  intro key k hk hfinished
  have hagrees := hinv.keys key
  unfold Agrees at hagrees
  rw [hk, inFlight_of_finished hfinished] at hagrees
  obtain ⟨n, hcard, hvalue⟩ := hagrees
  have hn : n = 0 := by
    rw [Set.encard_empty] at hcard
    exact_mod_cast hcard.symm
  have hsame : k.value = monthUsage cal t.db key := by
    rw [hvalue, hn]
    exact Int.add_zero _
  refine ⟨hsame, ?_⟩
  intro limit quantity
  rw [hsame, consumeQuota_missing]

/-- An undisturbed step that loses no key at all. -/
def losesNothing (cal : Calendar) (s : State) : Action → Bool
  | .lose _ => false
  | act => undisturbed cal s act

/-- A step that loses no key loses no key in use. -/
theorem losesQuietKey_of_losesNothing {cal : Calendar} {s : State} {act : Action}
    (h : losesNothing cal s act = true) :
    undisturbed cal s act = true ∧ losesQuietKey cal s act := by
  cases act with
  | lose key => cases h
  | _ => exact ⟨h, trivial⟩

/-- Two requests are admitted, one is served and one fails, and the first comes again. -/
def servedRun : List Action :=
  [.begin 1 (shopRequest "r-1"), .look 1, .script 1 .ok, .begin 2 (shopRequest "r-2"), .look 2,
    .seed 1, .set 1 .ok, .script 1 .ok, .script 2 .ok,
    .serve 1 ⟨1, 5, 3⟩ (some ⟨"r-1", none, "popularity", true, ["p-1"]⟩),
    .serve 2 ⟨2, 6, 3⟩ none, .look 2, .decr 2 .ok, .begin 3 (shopRequest "r-1")]

/-- No key is lost in that run, and counter and ledger agree after it. -/
theorem ledger_agrees_served :
    ∃ t, Run (system thirtyDays emptyDatabase)
        (fun s act => undisturbed thirtyDays s act = true ∧ losesQuietKey thirtyDays s act)
        (initial emptyDatabase) servedRun t ∧ LedgerAgrees thirtyDays t := by
  have hdone : (execWhile (system thirtyDays emptyDatabase) (losesNothing thirtyDays)
      (initial emptyDatabase) servedRun).isSome = true := by
    decide +kernel
  obtain ⟨t, hexec⟩ := Option.isSome_iff_exists.mp hdone
  have hrun := (run_of_execWhile hexec).weaken fun _ _ => losesQuietKey_of_losesNothing
  exact ⟨t, hrun, ledger_agrees hrun⟩

/-- The key is lost while the first request is in flight; the second seeds it. -/
def lostRun : List Action :=
  [.begin 1 (shopRequest "r-1"), .look 1, .script 1 .ok, .seed 1, .set 1 .ok, .script 1 .ok,
    .lose ⟨1, 0⟩,
    .begin 2 (shopRequest "r-2"), .look 2, .script 2 .ok, .seed 2, .set 2 .ok, .script 2 .ok,
    .serve 1 ⟨1, 5, 3⟩ (some ⟨"r-1", none, "popularity", true, ["p-1"]⟩),
    .serve 2 ⟨2, 6, 3⟩ (some ⟨"r-2", none, "popularity", true, ["p-1"]⟩)]

/-- **A key lost in use does not agree**: the ledger holds two requests, the counter one. -/
theorem lost_key_disagrees :
    ¬ ∀ (as : List Action) (t : State), Run (system thirtyDays emptyDatabase)
      (fun s act => undisturbed thirtyDays s act = true) (initial emptyDatabase) as t →
      LedgerAgrees thirtyDays t := by
  intro hall
  have hdone : (execWhile (system thirtyDays emptyDatabase) (undisturbed thirtyDays)
      (initial emptyDatabase) lostRun).map (fun t => ((t.counters ⟨1, 0⟩).map Counter.value,
        monthUsage thirtyDays t.db ⟨1, 0⟩, (t.calls 1).map Call.phase,
        (t.calls 2).map Call.phase)) =
      some (some 1, 2, some (.served .redis), some (.served .redis)) := by
    decide +kernel
  obtain ⟨t, hexec, ht⟩ := Option.map_eq_some_iff.mp hdone
  simp only [Prod.mk.injEq] at ht
  obtain ⟨hvalue, husage, hfirst, hsecond⟩ := ht
  obtain ⟨k, hk, hvalue⟩ := Option.map_eq_some_iff.mp hvalue
  have hrun := run_of_execWhile hexec
  have hfinished : Finished t ⟨1, 0⟩ := by
    intro c call hcall _
    obtain ⟨request, hbegun⟩ := begun_of_call hrun hcall rfl
    have hc : c = 1 ∨ c = 2 := by
      simp only [lostRun, List.mem_cons, List.not_mem_nil, Action.begin.injEq, reduceCtorEq,
        or_false, false_or] at hbegun
      exact hbegun.imp And.left And.left
    rcases hc with rfl | rfl
    · rw [hcall] at hfirst
      rw [Option.some.inj hfirst]
      rfl
    · rw [hcall] at hsecond
      rw [Option.some.inj hsecond]
      rfl
  have hagrees := (hall lostRun t hrun ⟨1, 0⟩ k hk hfinished).1
  rw [hvalue, husage] at hagrees
  cases hagrees

end Usage
