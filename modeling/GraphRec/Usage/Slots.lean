import GraphRec.Lib.Leases
import GraphRec.Lib.Table
import GraphRec.Lib.Transition
import GraphRec.Usage.Quota

/-!
# Concurrency slots

A recommendation request holds one of the `limit` slots of its tenant.  The slots are
leases in a sorted set of Redis, shared by every process, or a count of the process while
Redis does not answer.

A command for Redis that was sent may be executed when its sender no longer waits for it,
more than once, or never; a process may crash at any point, which leaves its leases to
expire.

* `begin` — `acquire_slot` is called; it sends the script, or falls back at once;
* `acquireRuns` — Redis executes the script;
* `acquireFails` — the script's reply is an error or does not come;
* `acquireLocal` — `_LocalFallback.acquire`;
* `release` — `release` is called; `removeRuns` and `removeFails` are its `ZREM`;
* `redisFails`, `probe` — the circuit of a process opens elsewhere, or closes;
* `crash` — a process loses what it had in memory;
* `lose` — Redis loses the key.
-/

namespace Usage.Slots

open Transition
open Auth (TenantId)

abbrev LeaseId := Nat

/-! ## The set in Redis -/

/-- The sorted set under a key, and when the key expires. -/
structure Key where
  leases : LeaseSet LeaseId
  expires : ℕ

namespace Key

/-- No key. -/
def missing : Key := ⟨.empty, 0⟩

/-- What Redis still has of the set at a time. -/
def present (key : Key) (now : ℕ) : LeaseSet LeaseId :=
  if key.expires ≤ now then .empty else key.leases

/-- The leases that Redis has and that have not expired. -/
def unexpired (key : Key) (now : ℕ) : LeaseSet LeaseId := (key.present now).live now

end Key

/-- `_SLOT_ACQUIRE_LUA`: whether a slot was given, and the key it leaves. -/
def acquireScript (key : Key) (limit ttl : ℕ) (member : LeaseId) (now : ℕ) : Bool × Key :=
  let leases := (key.present now).live now
  if leases.size < limit then
    (true, ⟨leases.grant member (now + ttl), now + (ttl + 1000)⟩)
  else (false, ⟨leases, key.expires⟩)

/-- `ZREM`. -/
def zrem (key : Key) (member : LeaseId) : Key := ⟨key.leases.revoke member, key.expires⟩

/-! ## The count of a process -/

/-- `_LocalFallback.acquire`, when it does not have to wait. -/
def localAcquire (slots : ℤ) (limit : ℕ) : Option ℤ :=
  if (limit : ℤ) ≤ slots then none else some (slots + 1)

/-- `_LocalFallback.release`. -/
def localRelease (slots : ℤ) : ℤ := max 0 (slots - 1)

/-! ## Requests for a slot -/

/-- `Lease`. -/
structure Lease where
  tenantId : TenantId
  leaseId : LeaseId
  isLocal : Bool
  deriving DecidableEq, Repr

/-- The `ApiError` of `_slots_full`. -/
structure SlotsFull where
  statusCode : ℕ
  code : String
  message : String
  retryable : Bool
  retryAfterSeconds : ℕ
  limitName : String
  limit : ℕ
  deriving DecidableEq, Repr

/-- `_slots_full`. -/
def slotsFull (limit : ℕ) : SlotsFull where
  statusCode := 429
  code := "quota_exceeded"
  message := "Concurrent recommendation capacity is in use."
  retryable := true
  retryAfterSeconds := 1
  limitName := "concurrent_recommendation_requests"
  limit := limit

/-- Where a request is. -/
inductive Phase
  /-- In the loop around the script. -/
  | asking
  /-- Before or in `_LocalFallback.acquire`. -/
  | falling
  /-- With the score a lease in Redis was given, which the code does not read. -/
  | held (lease : Lease) (score : ℕ)
  /-- After `ZREM` was sent. -/
  | removing
  | released
  | refused (error : SlotsFull)
  | crashed
  deriving DecidableEq, Repr

/-- A request, with the commands it has sent. -/
structure Request where
  process : ProcessId
  tenant : TenantId
  phase : Phase
  /-- Has it sent the script? -/
  asked : Bool
  /-- Has it sent `ZREM`, and for which lease? -/
  removed : Option Lease
  deriving DecidableEq, Repr

/-- Is a lease of the process's own count held? -/
def Phase.holdsLocal : Phase → Bool
  | .held lease _ => lease.isLocal
  | _ => false

/-- Is a lease in Redis held that has not expired? -/
def Phase.holdsShared (now : ℕ) : Phase → Bool
  | .held lease score => !lease.isLocal && decide (now < score)
  | _ => false

/-- Does the request hold a lease of the count of this process and tenant? -/
def Request.holdsLocal (p : ProcessId) (t : TenantId) (r : Request) : Bool :=
  r.phase.holdsLocal && decide (r.process = p ∧ r.tenant = t)

/-- Does the request hold an unexpired lease of this tenant in Redis? -/
def Request.holdsShared (t : TenantId) (now : ℕ) (r : Request) : Bool :=
  r.phase.holdsShared now && decide (r.tenant = t)

/-- The limits in force, `slot_lease_ms`, and which processes have a client for Redis. -/
structure Config where
  limit : TenantId → ℕ
  slotLeaseMs : ℕ
  hasClient : ProcessId → Bool

/-- The clock and the keys of Redis, and the counts, circuits and requests of the
processes. -/
structure State where
  now : ℕ
  keys : TenantId → Key
  slots : ProcessId → TenantId → ℤ
  circuitOpen : ProcessId → Bool
  requests : Table LeaseId Request

/-- Nothing is held. -/
def initial : State where
  now := 0
  keys := fun _ => .missing
  slots := fun _ _ => 0
  circuitOpen := fun _ => false
  requests := .empty

/-- The steps.  `delivered` says that the reply comes while it is waited for, and `timeUp`
that the deadline has passed by then. -/
inductive Action
  | tick (elapsed : ℕ)
  | begin (process : ProcessId) (tenant : TenantId) (leaseId : LeaseId)
  | acquireRuns (leaseId : LeaseId) (delivered timeUp : Bool)
  | acquireFails (leaseId : LeaseId)
  | acquireLocal (leaseId : LeaseId)
  | release (leaseId : LeaseId)
  | removeRuns (leaseId : LeaseId) (delivered : Bool)
  | removeFails (leaseId : LeaseId)
  | redisFails (process : ProcessId)
  | probe (process : ProcessId)
  | crash (process : ProcessId)
  | lose (tenant : TenantId)
  deriving DecidableEq, Repr

namespace State

variable (s : State)

/-- Add a request. -/
def addRequest (id : LeaseId) (r : Request) : State :=
  { s with requests := s.requests.insert id r }

/-- Move a request to another phase. -/
def setPhase (id : LeaseId) (phase : Phase) : State :=
  { s with requests := s.requests.update id fun r => { r with phase := phase } }

/-- A request sends `ZREM` for its lease. -/
def sendRemove (id : LeaseId) (lease : Lease) : State :=
  { s with requests := s.requests.update id fun r =>
      { r with phase := .removing, removed := some lease } }

/-- Store a key. -/
def setKey (t : TenantId) (key : Key) : State :=
  { s with keys := Function.update s.keys t key }

/-- Store a count of a process. -/
def setSlots (p : ProcessId) (t : TenantId) (n : ℤ) : State :=
  { s with slots := Function.update s.slots p (Function.update (s.slots p) t n) }

/-- Open or close the circuit of a process. -/
def setCircuit (p : ProcessId) (isOpen : Bool) : State :=
  { s with circuitOpen := Function.update s.circuitOpen p isOpen }

/-- How many leases of a process's own count are held. -/
def localLeases (p : ProcessId) (t : TenantId) : ℕ := s.requests.count (Request.holdsLocal p t)

/-- How many leases in Redis are held and have not expired. -/
def sharedLeases (t : TenantId) : ℕ := s.requests.count (Request.holdsShared t s.now)

end State

/-- `_redis_available`. -/
def redisAvailable (cfg : Config) (s : State) (p : ProcessId) : Bool :=
  cfg.hasClient p && !s.circuitOpen p

/-- `acquire_slot` is called, with a fresh `uuid4`. -/
def stepBegin (cfg : Config) (s : State) (p : ProcessId) (t : TenantId) (id : LeaseId) :
    Option State :=
  match s.requests.get? id with
  | some _ => none
  | none =>
      let available := redisAvailable cfg s p
      some (s.addRequest id
        ⟨p, t, if available then .asking else .falling, available, none⟩)

/-- The phase after the script's reply. -/
def afterReply (cfg : Config) (s : State) (id : LeaseId) (r : Request) (given timeUp : Bool) :
    Phase :=
  if given then .held ⟨r.tenant, id, false⟩ (s.now + cfg.slotLeaseMs)
  else if timeUp then .refused (slotsFull (cfg.limit r.tenant))
  else .asking

/-- Redis executes `_SLOT_ACQUIRE_LUA`. -/
def stepAcquireRuns (cfg : Config) (s : State) (id : LeaseId) (r : Request)
    (delivered timeUp : Bool) : Option State :=
  let (given, key) :=
    acquireScript (s.keys r.tenant) (cfg.limit r.tenant) cfg.slotLeaseMs id s.now
  match r.asked, delivered, r.phase with
  | true, false, _ => some (s.setKey r.tenant key)
  | true, true, .asking =>
      some ((s.setKey r.tenant key).setPhase id (afterReply cfg s id r given timeUp))
  | _, _, _ => none

/-- `_fail("slot acquire")`. -/
def stepAcquireFails (s : State) (id : LeaseId) (r : Request) : Option State :=
  match r.phase with
  | .asking => some ((s.setCircuit r.process true).setPhase id .falling)
  | _ => none

/-- `_LocalFallback.acquire` ends; its deadline has passed when it refuses. -/
def stepAcquireLocal (cfg : Config) (s : State) (id : LeaseId) (r : Request) : Option State :=
  match r.phase with
  | .falling =>
      match localAcquire (s.slots r.process r.tenant) (cfg.limit r.tenant) with
      | some n =>
          some ((s.setSlots r.process r.tenant n).setPhase id (.held ⟨r.tenant, id, true⟩ 0))
      | none => some (s.setPhase id (.refused (slotsFull (cfg.limit r.tenant))))
  | _ => none

/-- `release` is called. -/
def stepRelease (cfg : Config) (s : State) (id : LeaseId) (r : Request) : Option State :=
  match r.phase with
  | .held lease _ =>
      if lease.isLocal then
        some ((s.setSlots r.process lease.tenantId
          (localRelease (s.slots r.process lease.tenantId))).setPhase id .released)
      else if redisAvailable cfg s r.process then some (s.sendRemove id lease)
      else some (s.setPhase id .released)
  | _ => none

/-- Redis executes `ZREM`. -/
def stepRemoveRuns (s : State) (id : LeaseId) (r : Request) (delivered : Bool) : Option State :=
  match r.removed, delivered, r.phase with
  | some lease, false, _ =>
      some (s.setKey lease.tenantId (zrem (s.keys lease.tenantId) lease.leaseId))
  | some lease, true, .removing =>
      some ((s.setKey lease.tenantId (zrem (s.keys lease.tenantId) lease.leaseId)).setPhase id
        .released)
  | _, _, _ => none

/-- `_fail("slot release")`. -/
def stepRemoveFails (s : State) (id : LeaseId) (r : Request) : Option State :=
  match r.phase with
  | .removing => some ((s.setCircuit r.process true).setPhase id .released)
  | _ => none

/-- A request of a process, after the process has crashed. -/
def Request.crash (p : ProcessId) (r : Request) : Request :=
  if r.process = p then { r with phase := .crashed } else r

/-- A process crashes; a new one starts with its counts at zero and its circuit closed. -/
def stepCrash (s : State) (p : ProcessId) : State :=
  { s with
    slots := Function.update s.slots p fun _ => 0
    circuitOpen := Function.update s.circuitOpen p false
    requests := s.requests.updateWhere fun _ r => r.crash p }

/-- One step. -/
def step (cfg : Config) (s : State) : Action → Option State
  | .tick elapsed => some { s with now := s.now + elapsed }
  | .begin p t id => stepBegin cfg s p t id
  | .acquireRuns id delivered timeUp =>
      (s.requests.get? id).bind fun r => stepAcquireRuns cfg s id r delivered timeUp
  | .acquireFails id => (s.requests.get? id).bind fun r => stepAcquireFails s id r
  | .acquireLocal id => (s.requests.get? id).bind fun r => stepAcquireLocal cfg s id r
  | .release id => (s.requests.get? id).bind fun r => stepRelease cfg s id r
  | .removeRuns id delivered =>
      (s.requests.get? id).bind fun r => stepRemoveRuns s id r delivered
  | .removeFails id => (s.requests.get? id).bind fun r => stepRemoveFails s id r
  | .redisFails p => some (s.setCircuit p true)
  | .probe p => some (s.setCircuit p false)
  | .crash p => some (stepCrash s p)
  | .lose t => some (s.setKey t .missing)

/-- What a step can do. -/
inductive Step (cfg : Config) (s : State) : Action → State → Prop
  | tick (elapsed : ℕ) : Step cfg s (.tick elapsed) { s with now := s.now + elapsed }
  | begin {p : ProcessId} {t : TenantId} {id : LeaseId} (hfresh : s.requests.get? id = none) :
      Step cfg s (.begin p t id) (s.addRequest id ⟨p, t,
        if redisAvailable cfg s p then .asking else .falling, redisAvailable cfg s p, none⟩)
  | acquireUnheard {id : LeaseId} {r : Request} (timeUp : Bool)
      (hr : s.requests.get? id = some r) (hasked : r.asked = true) :
      Step cfg s (.acquireRuns id false timeUp) (s.setKey r.tenant
        (acquireScript (s.keys r.tenant) (cfg.limit r.tenant) cfg.slotLeaseMs id s.now).2)
  | acquireHeard {id : LeaseId} {r : Request} (timeUp : Bool)
      (hr : s.requests.get? id = some r) (hasked : r.asked = true) (hphase : r.phase = .asking) :
      Step cfg s (.acquireRuns id true timeUp) ((s.setKey r.tenant
        (acquireScript (s.keys r.tenant) (cfg.limit r.tenant) cfg.slotLeaseMs id s.now).2).setPhase
          id (afterReply cfg s id r (acquireScript (s.keys r.tenant) (cfg.limit r.tenant)
            cfg.slotLeaseMs id s.now).1 timeUp))
  | acquireFails {id : LeaseId} {r : Request}
      (hr : s.requests.get? id = some r) (hphase : r.phase = .asking) :
      Step cfg s (.acquireFails id) ((s.setCircuit r.process true).setPhase id .falling)
  | acquireLocal {id : LeaseId} {r : Request}
      (hr : s.requests.get? id = some r) (hphase : r.phase = .falling)
      (hfree : s.slots r.process r.tenant < cfg.limit r.tenant) :
      Step cfg s (.acquireLocal id) ((s.setSlots r.process r.tenant
        (s.slots r.process r.tenant + 1)).setPhase id (.held ⟨r.tenant, id, true⟩ 0))
  | refuseLocal {id : LeaseId} {r : Request}
      (hr : s.requests.get? id = some r) (hphase : r.phase = .falling)
      (hfull : cfg.limit r.tenant ≤ s.slots r.process r.tenant) :
      Step cfg s (.acquireLocal id)
        (s.setPhase id (.refused (slotsFull (cfg.limit r.tenant))))
  | releaseLocal {id : LeaseId} {r : Request} {lease : Lease} {score : ℕ}
      (hr : s.requests.get? id = some r) (hphase : r.phase = .held lease score)
      (hlocal : lease.isLocal = true) :
      Step cfg s (.release id) ((s.setSlots r.process lease.tenantId
        (localRelease (s.slots r.process lease.tenantId))).setPhase id .released)
  | releaseRemoves {id : LeaseId} {r : Request} {lease : Lease} {score : ℕ}
      (hr : s.requests.get? id = some r) (hphase : r.phase = .held lease score)
      (hshared : lease.isLocal = false) :
      Step cfg s (.release id) (s.sendRemove id lease)
  | releaseLeaves {id : LeaseId} {r : Request} {lease : Lease} {score : ℕ}
      (hr : s.requests.get? id = some r) (hphase : r.phase = .held lease score)
      (hshared : lease.isLocal = false) :
      Step cfg s (.release id) (s.setPhase id .released)
  | removeUnheard {id : LeaseId} {r : Request} {lease : Lease}
      (hr : s.requests.get? id = some r) (hremoved : r.removed = some lease) :
      Step cfg s (.removeRuns id false)
        (s.setKey lease.tenantId (zrem (s.keys lease.tenantId) lease.leaseId))
  | removeHeard {id : LeaseId} {r : Request} {lease : Lease}
      (hr : s.requests.get? id = some r) (hremoved : r.removed = some lease)
      (hphase : r.phase = .removing) :
      Step cfg s (.removeRuns id true) ((s.setKey lease.tenantId
        (zrem (s.keys lease.tenantId) lease.leaseId)).setPhase id .released)
  | removeFails {id : LeaseId} {r : Request}
      (hr : s.requests.get? id = some r) (hphase : r.phase = .removing) :
      Step cfg s (.removeFails id) ((s.setCircuit r.process true).setPhase id .released)
  | redisFails (p : ProcessId) : Step cfg s (.redisFails p) (s.setCircuit p true)
  | probe (p : ProcessId) : Step cfg s (.probe p) (s.setCircuit p false)
  | crash (p : ProcessId) : Step cfg s (.crash p) (stepCrash s p)
  | lose (t : TenantId) : Step cfg s (.lose t) (s.setKey t .missing)

/-- Every step is one of these. -/
theorem step_cases {cfg : Config} {s s' : State} {a : Action} (h : step cfg s a = some s') :
    Step cfg s a s' := by
  cases a with
  | tick elapsed =>
      obtain rfl := Option.some.inj h
      exact .tick elapsed
  | begin p t id =>
      simp only [step, stepBegin] at h
      split at h
      · cases h
      · next hfresh =>
          obtain rfl := Option.some.inj h
          exact .begin hfresh
  | acquireRuns id delivered timeUp =>
      obtain ⟨r, hr, h⟩ := Option.bind_eq_some_iff.mp h
      simp only [stepAcquireRuns] at h
      split at h
      · next hasked _ =>
          obtain rfl := Option.some.inj h
          exact .acquireUnheard timeUp hr hasked
      · next hasked hphase _ =>
          obtain rfl := Option.some.inj h
          exact .acquireHeard timeUp hr hasked hphase
      · cases h
  | acquireFails id =>
      obtain ⟨r, hr, h⟩ := Option.bind_eq_some_iff.mp h
      simp only [stepAcquireFails] at h
      split at h
      · next hphase =>
          obtain rfl := Option.some.inj h
          exact .acquireFails hr hphase
      · cases h
  | acquireLocal id =>
      obtain ⟨r, hr, h⟩ := Option.bind_eq_some_iff.mp h
      simp only [stepAcquireLocal, localAcquire] at h
      split at h
      · next hphase =>
          by_cases hfull : (cfg.limit r.tenant : ℤ) ≤ s.slots r.process r.tenant
          · rw [if_pos hfull] at h
            obtain rfl := Option.some.inj h
            exact .refuseLocal hr hphase hfull
          · rw [if_neg hfull] at h
            obtain rfl := Option.some.inj h
            exact .acquireLocal hr hphase (not_le.mp hfull)
      · cases h
  | release id =>
      obtain ⟨r, hr, h⟩ := Option.bind_eq_some_iff.mp h
      simp only [stepRelease] at h
      split at h
      · next lease score hphase =>
          split at h
          · next hlocal =>
              obtain rfl := Option.some.inj h
              exact .releaseLocal hr hphase hlocal
          · next hshared =>
              rw [Bool.not_eq_true] at hshared
              split at h
              · obtain rfl := Option.some.inj h
                exact .releaseRemoves hr hphase hshared
              · obtain rfl := Option.some.inj h
                exact .releaseLeaves hr hphase hshared
      · cases h
  | removeRuns id delivered =>
      obtain ⟨r, hr, h⟩ := Option.bind_eq_some_iff.mp h
      simp only [stepRemoveRuns] at h
      split at h
      · next lease hremoved _ =>
          obtain rfl := Option.some.inj h
          exact .removeUnheard hr hremoved
      · next lease hremoved hphase _ =>
          obtain rfl := Option.some.inj h
          exact .removeHeard hr hremoved hphase
      · cases h
  | removeFails id =>
      obtain ⟨r, hr, h⟩ := Option.bind_eq_some_iff.mp h
      simp only [stepRemoveFails] at h
      split at h
      · next hphase =>
          obtain rfl := Option.some.inj h
          exact .removeFails hr hphase
      · cases h
  | redisFails p =>
      obtain rfl := Option.some.inj h
      exact .redisFails p
  | probe p =>
      obtain rfl := Option.some.inj h
      exact .probe p
  | crash p =>
      obtain rfl := Option.some.inj h
      exact .crash p
  | lose t =>
      obtain rfl := Option.some.inj h
      exact .lose t

/-- The processes and Redis. -/
def system (cfg : Config) : System State Action := ⟨initial, step cfg⟩

end Usage.Slots
