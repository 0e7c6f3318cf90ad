import GraphRec.Lib.Transition
import GraphRec.Usage.Quota
import Mathlib.Logic.Function.Basic

/-!
# Recommendation requests as a transition system

Any number of requests, in any number of processes, run `get_recommendations` at once:
they consume the quota, serve and record, and refund when they do not serve.  A step is
one command of Redis, one transaction of the database, or one look at the circuit
breaker of the process.

* `begin` — a request arrives; a recorded request id is answered from its record;
* `look` — `_redis_available`, before the quota is consumed or refunded;
* `script`, `seed`, `set` — `consume_quota` in Redis; `seed`, `chargeLocal` — in the
  process, after a failure;
* `serve` — `_serve_and_record`;
* `decr`, `refundLocal` — `refund_quota`;
* `probe` — the circuit of a process closes;
* `lose` — a key expires or is lost.

A command of Redis that fails may have taken effect or not.
-/

namespace Usage

open Transition
open Auth (TenantId Time)

/-- Where an admission was charged. -/
inductive Store
  | redis | fallback
  deriving DecidableEq, Repr

/-- A request, with the limit in force; `request_id` is given or drawn. -/
structure Request where
  process : ProcessId
  tenant : TenantId
  month : Month
  requestId : String
  limit : Nat
  quantity : Nat
  deriving DecidableEq, Repr

/-- The counter of a request. -/
def Request.key (r : Request) : QuotaKey := ⟨r.tenant, r.month⟩

/-- Where a request is. -/
inductive Phase
  | consuming
  /-- Before the script; `again` after the key was seeded. -/
  | scripting (again : Bool)
  | seeding
  | setting (seed : Nat)
  /-- Without Redis, before the ledger is read. -/
  | falling
  | charging (seed : Nat)
  | admitted (store : Store)
  /-- Not served, before the look at the circuit. -/
  | refunding (store : Store)
  | decrementing (store : Store)
  /-- With whether the `DECRBY` that failed took effect. -/
  | localRefunding (store : Store) (decremented : Bool)
  | served (store : Store)
  | refunded (store : Store) (decremented : Bool)
  | refused (used : Int)
  | replayed
  /-- The ledger could not be read. -/
  | failed
  deriving DecidableEq, Repr

/-- Has the request been answered? -/
def Phase.finished : Phase → Bool
  | .served _ | .refunded _ _ | .refused _ | .replayed | .failed => true
  | _ => false

/-- A request and where it is. -/
structure Call where
  request : Request
  phase : Phase
  deriving DecidableEq, Repr

/-- The counters, the circuits, the database, and the calls. -/
structure State where
  counters : QuotaKey → Option Counter
  localCounters : ProcessId → QuotaKey → Option Nat
  circuitOpen : ProcessId → Bool
  db : Database
  calls : CallId → Option Call

/-- No counter yet, Redis available, and a ledger. -/
def initial (db : Database) : State where
  counters := fun _ => none
  localCounters := fun _ _ => none
  circuitOpen := fun _ => false
  db := db
  calls := fun _ => none

/-- How a command of Redis ends. -/
inductive Reply
  | ok
  | error (applied : Bool)
  deriving DecidableEq, Repr

/-- Did the command take effect? -/
def Reply.applied : Reply → Bool
  | .ok => true
  | .error applied => applied

/-- The steps. -/
inductive Action
  | begin (c : CallId) (request : Request)
  | look (c : CallId)
  | script (c : CallId) (reply : Reply)
  | seed (c : CallId)
  | seedFails (c : CallId)
  | set (c : CallId) (reply : Reply)
  | chargeLocal (c : CallId)
  | serve (c : CallId) (telemetry : Telemetry) (serve : Option Served)
  | decr (c : CallId) (reply : Reply)
  | refundLocal (c : CallId)
  | probe (p : ProcessId)
  | lose (key : QuotaKey)

namespace State

variable (s : State)

/-- Move a call to another phase. -/
def setPhase (c : CallId) (call : Call) (phase : Phase) : State :=
  { s with calls := Function.update s.calls c (some { call with phase := phase }) }

/-- `_fail`: the circuit of the process opens. -/
def openCircuit (p : ProcessId) : State :=
  { s with circuitOpen := Function.update s.circuitOpen p true }

/-- The circuit after a reply. -/
def afterReply (p : ProcessId) (reply : Reply) : State :=
  { s with circuitOpen :=
      match reply with
      | .ok => s.circuitOpen
      | .error _ => Function.update s.circuitOpen p true }

/-- Store a counter. -/
def setCounter (key : QuotaKey) (k : Option Counter) : State :=
  { s with counters := Function.update s.counters key k }

/-- Store a counter of a process. -/
def setLocal (p : ProcessId) (key : QuotaKey) (k : Option Nat) : State :=
  { s with localCounters :=
      Function.update s.localCounters p (Function.update (s.localCounters p) key k) }

end State

/-- `_redis_available`, before the quota is consumed or refunded. -/
def stepLook (s : State) (c : CallId) (call : Call) : Option State :=
  match call.phase with
  | .consuming =>
      some (s.setPhase c call
        (if s.circuitOpen call.request.process then .falling else .scripting false))
  | .refunding store =>
      some (s.setPhase c call
        (if s.circuitOpen call.request.process then .localRefunding store false
          else .decrementing store))
  | _ => none

/-- `_quota_script`. -/
def stepScript (s : State) (c : CallId) (call : Call) (reply : Reply) : Option State :=
  match call.phase with
  | .scripting again =>
      let r := call.request
      let k := s.counters r.key
      match quotaScript (k.map Counter.value) r.limit r.quantity, reply with
      | .missing, .ok => some (s.setPhase c call (if again then .refused 0 else .seeding))
      | .exhausted used, .ok => some (s.setPhase c call (.refused used))
      | .charged _, .ok =>
          some ((s.setCounter r.key (k.map fun k => k.charge c r.quantity)).setPhase c call
            (.admitted .redis))
      | .charged _, .error true =>
          some (((s.setCounter r.key (k.map fun k => k.add r.quantity)).openCircuit
            r.process).setPhase c call .falling)
      | _, .error _ => some ((s.openCircuit r.process).setPhase c call .falling)
  | _ => none

/-- `seed()`: the ledger is read, for Redis or for the process. -/
def stepSeed (cal : Calendar) (s : State) (c : CallId) (call : Call) : Option State :=
  match call.phase with
  | .seeding => some (s.setPhase c call (.setting (monthUsage cal s.db call.request.key)))
  | .falling => some (s.setPhase c call (.charging (monthUsage cal s.db call.request.key)))
  | _ => none

/-- `seed()` raises. -/
def stepSeedFails (s : State) (c : CallId) (call : Call) : Option State :=
  match call.phase with
  | .seeding | .falling => some (s.setPhase c call .failed)
  | _ => none

/-- `SET key seed NX`. -/
def stepSet (s : State) (c : CallId) (call : Call) (reply : Reply) : Option State :=
  match call.phase with
  | .setting seed =>
      let r := call.request
      let next := match reply with
        | .ok => Phase.scripting true
        | .error _ => Phase.falling
      match s.counters r.key, reply.applied with
      | none, true =>
          some (((s.setCounter r.key (some (.seeded seed))).afterReply r.process reply).setPhase
            c call next)
      | _, _ => some ((s.afterReply r.process reply).setPhase c call next)
  | _ => none

/-- `_LocalFallback.quota`. -/
def stepChargeLocal (s : State) (c : CallId) (call : Call) : Option State :=
  match call.phase with
  | .charging seed =>
      let r := call.request
      match localQuota (s.localCounters r.process r.key) r.limit r.quantity seed with
      | (false, used) => some (s.setPhase c call (.refused used))
      | (true, used) =>
          some ((s.setLocal r.process r.key (some used)).setPhase c call (.admitted .fallback))
  | _ => none

/-- `_serve_and_record`; the answer carries the id of the request. -/
def stepServe (s : State) (c : CallId) (call : Call) (telemetry : Telemetry)
    (serve : Option Served) : Option State :=
  match call.phase with
  | .admitted store =>
      if serve.all fun response => decide (response.requestId = call.request.requestId) then
        match serveAndRecord s.db (authenticated call.request.tenant) call.request.tenant
            telemetry serve with
        | (db, .response _) => some ({ s with db := db }.setPhase c call (.served store))
        | (db, _) => some ({ s with db := db }.setPhase c call (.refunding store))
      else none
  | _ => none

/-- `DECRBY`. -/
def stepDecr (s : State) (c : CallId) (call : Call) (reply : Reply) : Option State :=
  match call.phase with
  | .decrementing store =>
      let r := call.request
      let next := match reply with
        | .ok => Phase.refunded store true
        | .error applied => Phase.localRefunding store applied
      if reply.applied then
        some (((s.setCounter r.key
          (some (refundCounter (s.counters r.key) c r.quantity))).afterReply
            r.process reply).setPhase c call next)
      else some ((s.afterReply r.process reply).setPhase c call next)
  | _ => none

/-- `_LocalFallback.refund`. -/
def stepRefundLocal (s : State) (c : CallId) (call : Call) : Option State :=
  match call.phase with
  | .localRefunding store decremented =>
      let r := call.request
      some ((s.setLocal r.process r.key
        (localRefund (s.localCounters r.process r.key) r.quantity)).setPhase c call
          (.refunded store decremented))
  | _ => none

/-- Where a request is after its first statements. -/
def State.start (s : State) (r : Request) : Phase :=
  if (s.db.record? r.tenant r.requestId).isSome then .replayed else .consuming

/-- One step. -/
def step (cal : Calendar) (s : State) : Action → Option State
  | .begin c request =>
      match s.calls c with
      | none =>
          some { s with calls :=
            Function.update s.calls c (some ⟨request, s.start request⟩) }
      | some _ => none
  | .look c => (s.calls c).bind fun call => stepLook s c call
  | .script c reply => (s.calls c).bind fun call => stepScript s c call reply
  | .seed c => (s.calls c).bind fun call => stepSeed cal s c call
  | .seedFails c => (s.calls c).bind fun call => stepSeedFails s c call
  | .set c reply => (s.calls c).bind fun call => stepSet s c call reply
  | .chargeLocal c => (s.calls c).bind fun call => stepChargeLocal s c call
  | .serve c telemetry serve => (s.calls c).bind fun call => stepServe s c call telemetry serve
  | .decr c reply => (s.calls c).bind fun call => stepDecr s c call reply
  | .refundLocal c => (s.calls c).bind fun call => stepRefundLocal s c call
  | .probe p => some { s with circuitOpen := Function.update s.circuitOpen p false }
  | .lose key => some (s.setCounter key none)

/-- The transition system, from a ledger. -/
def system (cal : Calendar) (db : Database) : System State Action := ⟨initial db, step cal⟩

/-! ## What a step does -/

/-- Does a command of Redis fail in this step? -/
def Action.fails : Action → Bool
  | .script _ (.error _) | .set _ (.error _) | .decr _ (.error _) => true
  | _ => false

namespace State

variable (s : State)

@[simp] theorem afterReply_counters (p : ProcessId) (reply : Reply) :
    (s.afterReply p reply).counters = s.counters := rfl
@[simp] theorem afterReply_db (p : ProcessId) (reply : Reply) :
    (s.afterReply p reply).db = s.db := rfl
@[simp] theorem afterReply_calls (p : ProcessId) (reply : Reply) :
    (s.afterReply p reply).calls = s.calls := rfl
@[simp] theorem setPhase_counters (c : CallId) (call : Call) (phase : Phase) :
    (s.setPhase c call phase).counters = s.counters := rfl
@[simp] theorem setPhase_db (c : CallId) (call : Call) (phase : Phase) :
    (s.setPhase c call phase).db = s.db := rfl
@[simp] theorem setPhase_circuitOpen (c : CallId) (call : Call) (phase : Phase) :
    (s.setPhase c call phase).circuitOpen = s.circuitOpen := rfl
@[simp] theorem setPhase_calls (c : CallId) (call : Call) (phase : Phase) :
    (s.setPhase c call phase).calls =
      Function.update s.calls c (some { call with phase := phase }) := rfl
@[simp] theorem setCounter_counters (key : QuotaKey) (k : Option Counter) :
    (s.setCounter key k).counters = Function.update s.counters key k := rfl
@[simp] theorem setCounter_db (key : QuotaKey) (k : Option Counter) :
    (s.setCounter key k).db = s.db := rfl
@[simp] theorem setCounter_calls (key : QuotaKey) (k : Option Counter) :
    (s.setCounter key k).calls = s.calls := rfl
@[simp] theorem setLocal_counters (p : ProcessId) (key : QuotaKey) (k : Option Nat) :
    (s.setLocal p key k).counters = s.counters := rfl
@[simp] theorem setLocal_db (p : ProcessId) (key : QuotaKey) (k : Option Nat) :
    (s.setLocal p key k).db = s.db := rfl
@[simp] theorem setLocal_calls (p : ProcessId) (key : QuotaKey) (k : Option Nat) :
    (s.setLocal p key k).calls = s.calls := rfl

end State

/-- The moves of a request that change no counter and no row. -/
inductive Quiet (cal : Calendar) (s : State) (r : Request) : Action → Phase → Phase → Prop
  | available {c} : Quiet cal s r (.look c) .consuming (.scripting false)
  | broken {c} (hopen : s.circuitOpen r.process = true) :
      Quiet cal s r (.look c) .consuming .falling
  | missing {c} (hnone : s.counters r.key = none) :
      Quiet cal s r (.script c .ok) (.scripting false) .seeding
  | lost {c} : Quiet cal s r (.script c .ok) (.scripting true) (.refused 0)
  | exhausted {c again used} : Quiet cal s r (.script c .ok) (.scripting again) (.refused used)
  | scriptFails {c again applied} :
      Quiet cal s r (.script c (.error applied)) (.scripting again) .falling
  | seed {c} : Quiet cal s r (.seed c) .seeding (.setting (monthUsage cal s.db r.key))
  | seedLocal {c} : Quiet cal s r (.seed c) .falling (.charging (monthUsage cal s.db r.key))
  | seedFails {c} : Quiet cal s r (.seedFails c) .seeding .failed
  | seedLocalFails {c} : Quiet cal s r (.seedFails c) .falling .failed
  | present {c seed} : Quiet cal s r (.set c .ok) (.setting seed) (.scripting true)
  | setFails {c seed applied} :
      Quiet cal s r (.set c (.error applied)) (.setting seed) .falling
  | localExhausted {c seed used} :
      Quiet cal s r (.chargeLocal c) (.charging seed) (.refused used)
  | refund {c store} : Quiet cal s r (.look c) (.refunding store) (.decrementing store)
  | refundBroken {c store} (hopen : s.circuitOpen r.process = true) :
      Quiet cal s r (.look c) (.refunding store) (.localRefunding store false)
  | decrFails {c store} :
      Quiet cal s r (.decr c (.error false)) (.decrementing store) (.localRefunding store false)

/-- The cases of a step. -/
inductive StepCase (cal : Calendar) (s : State) : Action → State → Prop
  | begin {c request} (hnew : s.calls c = none) : StepCase cal s (.begin c request)
      { s with calls := Function.update s.calls c (some ⟨request, s.start request⟩) }
  | moved {act c call phase circuit} (hcall : s.calls c = some call)
      (hquiet : Quiet cal s call.request act call.phase phase)
      (hcircuit : circuit = s.circuitOpen ∨ act.fails = true) :
      StepCase cal s act
        { s with
          calls := Function.update s.calls c (some { call with phase := phase })
          circuitOpen := circuit }
  | charged {c call again k} (hcall : s.calls c = some call)
      (hphase : call.phase = .scripting again) (hk : s.counters call.request.key = some k) :
      StepCase cal s (.script c .ok)
        ((s.setCounter call.request.key (some (k.charge c call.request.quantity))).setPhase c
          call (.admitted .redis))
  | unheard {c call again k} (hcall : s.calls c = some call)
      (hphase : call.phase = .scripting again) (hk : s.counters call.request.key = some k) :
      StepCase cal s (.script c (.error true))
        (((s.setCounter call.request.key (some (k.add call.request.quantity))).openCircuit
          call.request.process).setPhase c call .falling)
  | seeded {c call seed reply next} (hcall : s.calls c = some call)
      (hphase : call.phase = .setting seed) (hnone : s.counters call.request.key = none)
      (hnext : next = .scripting true ∨ next = .falling)
      (hok : reply = .ok → next = .scripting true) :
      StepCase cal s (.set c reply)
        (((s.setCounter call.request.key (some (.seeded seed))).afterReply
          call.request.process reply).setPhase c call next)
  | chargedLocal {c call seed used} (hcall : s.calls c = some call)
      (hphase : call.phase = .charging seed) :
      StepCase cal s (.chargeLocal c)
        ((s.setLocal call.request.process call.request.key (some used)).setPhase c call
          (.admitted .fallback))
  | served {c call store telemetry response} (hcall : s.calls c = some call)
      (hphase : call.phase = .admitted store)
      (hid : response.requestId = call.request.requestId) :
      StepCase cal s (.serve c telemetry (some response))
        ({ s with db := s.db.recorded call.request.tenant telemetry response }.setPhase c call
          (.served store))
  | unserved {c call store telemetry serve} (hcall : s.calls c = some call)
      (hphase : call.phase = .admitted store) :
      StepCase cal s (.serve c telemetry serve) (s.setPhase c call (.refunding store))
  | decremented {c call store reply next} (hcall : s.calls c = some call)
      (hphase : call.phase = .decrementing store)
      (hnext : next = .refunded store true ∨ next = .localRefunding store true)
      (hok : reply = .ok → next = .refunded store true) :
      StepCase cal s (.decr c reply)
        (((s.setCounter call.request.key (some (refundCounter (s.counters call.request.key) c
          call.request.quantity))).afterReply call.request.process reply).setPhase c call next)
  | refundedLocal {c call store decremented k} (hcall : s.calls c = some call)
      (hphase : call.phase = .localRefunding store decremented) :
      StepCase cal s (.refundLocal c)
        ((s.setLocal call.request.process call.request.key k).setPhase c call
          (.refunded store decremented))
  | probe {p} : StepCase cal s (.probe p)
      { s with circuitOpen := Function.update s.circuitOpen p false }
  | lost {key} : StepCase cal s (.lose key) (s.setCounter key none)

section Cases

variable {cal : Calendar} {s s' : State} {c : CallId} {call : Call}

/-- A phase change alone. -/
theorem StepCase.setPhase {act : Action} {phase : Phase} (hcall : s.calls c = some call)
    (hquiet : Quiet cal s call.request act call.phase phase) :
    StepCase cal s act (s.setPhase c call phase) :=
  .moved hcall hquiet (Or.inl rfl)

theorem stepLook_cases (hcall : s.calls c = some call) (h : stepLook s c call = some s') :
    StepCase cal s (.look c) s' := by
  unfold stepLook at h
  split at h
  · next hphase =>
      cases h
      by_cases hopen : s.circuitOpen call.request.process = true
      · rw [if_pos hopen]
        exact .setPhase hcall (hphase ▸ .broken hopen)
      · rw [if_neg hopen]
        exact .setPhase hcall (hphase ▸ .available)
  · next store hphase =>
      cases h
      by_cases hopen : s.circuitOpen call.request.process = true
      · rw [if_pos hopen]
        exact .setPhase hcall (hphase ▸ .refundBroken hopen)
      · rw [if_neg hopen]
        exact .setPhase hcall (hphase ▸ .refund)
  · cases h

theorem stepScript_cases {reply : Reply} (hcall : s.calls c = some call)
    (h : stepScript s c call reply = some s') : StepCase cal s (.script c reply) s' := by
  unfold stepScript at h
  split at h
  · next again hphase =>
      dsimp only at h
      cases hk : s.counters call.request.key with
      | none =>
          rw [hk] at h
          cases reply with
          | ok =>
              cases h
              cases again with
              | true => exact .setPhase hcall (hphase ▸ .lost)
              | false => exact .setPhase hcall (hphase ▸ .missing hk)
          | error applied =>
              cases h
              exact .moved hcall (hphase ▸ .scriptFails) (Or.inr rfl)
      | some k =>
          rw [hk, Option.map_some] at h
          split at h
          · next hmissing =>
              unfold quotaScript at hmissing
              dsimp only at hmissing
              split at hmissing <;> cases hmissing
          · cases h
            exact .setPhase hcall (hphase ▸ .exhausted)
          · cases h
            exact .charged hcall hphase hk
          · cases h
            exact .unheard hcall hphase hk
          · cases h
            exact .moved hcall (hphase ▸ .scriptFails) (Or.inr rfl)
  · cases h

theorem stepSeed_cases (hcall : s.calls c = some call) (h : stepSeed cal s c call = some s') :
    StepCase cal s (.seed c) s' := by
  unfold stepSeed at h
  split at h
  · next hphase =>
      cases h
      exact .setPhase hcall (hphase ▸ .seed)
  · next hphase =>
      cases h
      exact .setPhase hcall (hphase ▸ .seedLocal)
  · cases h

theorem stepSeedFails_cases (hcall : s.calls c = some call)
    (h : stepSeedFails s c call = some s') : StepCase cal s (.seedFails c) s' := by
  unfold stepSeedFails at h
  split at h
  · next hphase =>
      cases h
      exact .setPhase hcall (hphase ▸ .seedFails)
  · next hphase =>
      cases h
      exact .setPhase hcall (hphase ▸ .seedLocalFails)
  · cases h

theorem stepSet_cases {reply : Reply} (hcall : s.calls c = some call)
    (h : stepSet s c call reply = some s') : StepCase cal s (.set c reply) s' := by
  unfold stepSet at h
  split at h
  · next seed hphase =>
      dsimp only at h
      split at h
      · next hnone _ =>
          cases h
          cases reply with
          | ok => exact .seeded hcall hphase hnone (Or.inl rfl) (fun _ => rfl)
          | error applied => exact .seeded hcall hphase hnone (Or.inr rfl) (fun h => by cases h)
      · cases h
        cases reply with
        | ok => exact .setPhase hcall (hphase ▸ .present)
        | error applied => exact .moved hcall (hphase ▸ .setFails) (Or.inr rfl)
  · cases h

theorem stepChargeLocal_cases (hcall : s.calls c = some call)
    (h : stepChargeLocal s c call = some s') : StepCase cal s (.chargeLocal c) s' := by
  unfold stepChargeLocal at h
  split at h
  · next seed hphase =>
      dsimp only at h
      split at h
      · cases h
        exact .setPhase hcall (hphase ▸ .localExhausted)
      · cases h
        exact .chargedLocal hcall hphase
  · cases h

theorem stepServe_cases {telemetry : Telemetry} {serve : Option Served}
    (hcall : s.calls c = some call) (h : stepServe s c call telemetry serve = some s') :
    StepCase cal s (.serve c telemetry serve) s' := by
  unfold stepServe at h
  split at h
  · next store hphase =>
      split at h
      · next hids =>
          cases serve with
          | none =>
              rw [serveAndRecord_raised] at h
              cases h
              exact .unserved hcall hphase
          | some response =>
              have hid : response.requestId = call.request.requestId := by simpa using hids
              rw [serveAndRecord_served] at h
              cases hrecord : s.db.record? call.request.tenant response.requestId with
              | none =>
                  rw [hrecord] at h
                  cases h
                  exact .served hcall hphase hid
              | some row =>
                  rw [hrecord] at h
                  cases h
                  exact .unserved hcall hphase
      · cases h
  · cases h

theorem stepDecr_cases {reply : Reply} (hcall : s.calls c = some call)
    (h : stepDecr s c call reply = some s') : StepCase cal s (.decr c reply) s' := by
  unfold stepDecr at h
  split at h
  · next store hphase =>
      dsimp only at h
      cases reply with
      | ok =>
          cases h
          exact .decremented hcall hphase (Or.inl rfl) (fun _ => rfl)
      | error applied =>
          cases applied with
          | true =>
              cases h
              exact .decremented hcall hphase (Or.inr rfl) (fun h => by cases h)
          | false =>
              cases h
              exact .moved hcall (hphase ▸ .decrFails) (Or.inr rfl)
  · cases h

theorem stepRefundLocal_cases (hcall : s.calls c = some call)
    (h : stepRefundLocal s c call = some s') : StepCase cal s (.refundLocal c) s' := by
  unfold stepRefundLocal at h
  split at h
  · next store decremented hphase =>
      cases h
      exact .refundedLocal hcall hphase
  · cases h

/-- **Inversion.**  Every step is one of the cases. -/
theorem step_cases {act : Action} (h : step cal s act = some s') : StepCase cal s act s' := by
  cases act with
  | begin c request =>
      simp only [step] at h
      split at h
      · next hnew =>
          cases h
          exact .begin hnew
      · cases h
  | look c =>
      obtain ⟨call, hcall, h⟩ := Option.bind_eq_some_iff.mp h
      exact stepLook_cases hcall h
  | script c reply =>
      obtain ⟨call, hcall, h⟩ := Option.bind_eq_some_iff.mp h
      exact stepScript_cases hcall h
  | seed c =>
      obtain ⟨call, hcall, h⟩ := Option.bind_eq_some_iff.mp h
      exact stepSeed_cases hcall h
  | seedFails c =>
      obtain ⟨call, hcall, h⟩ := Option.bind_eq_some_iff.mp h
      exact stepSeedFails_cases hcall h
  | set c reply =>
      obtain ⟨call, hcall, h⟩ := Option.bind_eq_some_iff.mp h
      exact stepSet_cases hcall h
  | chargeLocal c =>
      obtain ⟨call, hcall, h⟩ := Option.bind_eq_some_iff.mp h
      exact stepChargeLocal_cases hcall h
  | serve c telemetry serve =>
      obtain ⟨call, hcall, h⟩ := Option.bind_eq_some_iff.mp h
      exact stepServe_cases hcall h
  | decr c reply =>
      obtain ⟨call, hcall, h⟩ := Option.bind_eq_some_iff.mp h
      exact stepDecr_cases hcall h
  | refundLocal c =>
      obtain ⟨call, hcall, h⟩ := Option.bind_eq_some_iff.mp h
      exact stepRefundLocal_cases hcall h
  | probe p =>
      cases h
      exact .probe
  | lose key =>
      cases h
      exact .lost

/-- Only its `begin` adds a call. -/
theorem calls_step {act : Action} (hstep : step cal s act = some s')
    (hact : ∀ request, act ≠ .begin c request) (hnone : s.calls c = none) :
    s'.calls c = none := by
  have hother : ∀ d calld moved, s.calls d = some calld →
      Function.update s.calls d (some moved) c = none := by
    intro d calld moved hd
    have hne : c ≠ d := by
      intro heq
      rw [heq, hd] at hnone
      cases hnone
    rw [Function.update_of_ne hne]
    exact hnone
  cases step_cases hstep with
  | @begin d request hnew =>
      have hne : c ≠ d := fun heq => hact request (by rw [heq])
      exact (Function.update_of_ne hne _ _).trans hnone
  | moved hd | charged hd | unheard hd | seeded hd | chargedLocal hd | served hd | unserved hd
  | decremented hd | refundedLocal hd => exact hother _ _ _ hd
  | probe | lost => exact hnone

/-- A call of a run was there or began in it. -/
theorem begun_of_call {db : Database} {ok : State → Action → Prop} {as : List Action}
    (hrun : Run (system cal db) ok s as s') (hcall : s'.calls c = some call)
    (hnone : s.calls c = none) : ∃ request, Action.begin c request ∈ as := by
  induction hrun with
  | nil s =>
      rw [hnone] at hcall
      cases hcall
  | @cons s s₁ t act as _ hstep _ ih =>
      by_cases hact : ∃ request, act = .begin c request
      · obtain ⟨request, rfl⟩ := hact
        exact ⟨request, List.mem_cons_self ..⟩
      · have hnone₁ := calls_step hstep (fun request heq => hact ⟨request, heq⟩) hnone
        obtain ⟨request, hmem⟩ := ih hcall hnone₁
        exact ⟨request, List.mem_cons_of_mem _ hmem⟩

end Cases

end Usage
