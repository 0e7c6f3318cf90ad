import GraphRec.Usage.Requests

/-!
# Refunds and the store that was charged

`consume_quota` and `refund_quota` each look at the circuit on their own.  A request that
was charged in its process while the circuit was open is refunded in Redis when the
circuit has closed in between; and a refund does not know whether the key it decrements
still holds the charge.

`quota_kept` shows that nothing else goes wrong: as long as every `DECRBY` is for a charge
of the counter as it stands, a counter is never below its seed plus its charges, whatever
fails, recovers or expires.
-/

namespace Usage

open Transition

/-- Does a `DECRBY`, if this step is one, find the charge of its admission in the
counter? -/
def refundsItsCharge (s : State) : Action → Bool
  | .decr c _ =>
      match s.calls c with
      | some call =>
          match call.phase, s.counters call.request.key with
          | .decrementing _, some k => decide ((c, call.request.quantity) ∈ k.charged)
          | .decrementing _, none => false
          | _, _ => true
      | none => true
  | _ => true

/-- A counter was seeded and holds at least its seed and its charges. -/
def Counter.Kept (k : Counter) : Prop :=
  ∃ seed : Nat, k.seed = some seed ∧ (seed : Int) + k.charges ≤ k.value

/-- Where the admission of a call was charged. -/
def Phase.store : Phase → Option Store
  | .admitted store | .refunding store | .decrementing store | .localRefunding store _
  | .served store | .refunded store _ => some store
  | _ => none

/-- Where a call was charged that was refunded in Redis. -/
def Phase.refundedInRedis : Phase → Option Store
  | .localRefunding store true | .refunded store true => some store
  | _ => none

/-- What is promised of the counters and of the refunds. -/
structure QuotaKept (s : State) : Prop where
  counters : ∀ key k, s.counters key = some k → k.Kept ∧ 0 ≤ k.value
  stores : ∀ c call store, s.calls c = some call →
    call.phase.refundedInRedis = some store → store = .redis

/-- The charges of a counter are those of calls that Redis admitted. -/
def ChargedInRedis (s : State) : Prop :=
  ∀ key k c quantity, s.counters key = some k → (c, quantity) ∈ k.charged →
    ∃ call, s.calls c = some call ∧ call.phase.store = some .redis

/-! ## One counter -/

section Counter

variable {k : Counter}

/-- A kept counter is not negative. -/
theorem Counter.Kept.nonneg (h : k.Kept) : 0 ≤ k.value := by
  obtain ⟨seed, _, hvalue⟩ := h
  omega

theorem kept_seeded (seed : Nat) : (Counter.seeded seed).Kept := by
  refine ⟨seed, rfl, ?_⟩
  rw [Counter.seeded_charges]
  exact le_of_eq (Int.add_zero _)

theorem Counter.Kept.charge (h : k.Kept) (c : CallId) (quantity : Nat) :
    (k.charge c quantity).Kept := by
  obtain ⟨seed, hseed, hvalue⟩ := h
  refine ⟨seed, hseed, ?_⟩
  rw [Counter.charge_charges]
  dsimp only [Counter.charge]
  omega

theorem Counter.Kept.add (h : k.Kept) (quantity : Nat) : (k.add quantity).Kept := by
  obtain ⟨seed, hseed, hvalue⟩ := h
  refine ⟨seed, hseed, ?_⟩
  rw [Counter.add_charges]
  dsimp only [Counter.add]
  omega

/-- The refund of a charge keeps the counter. -/
theorem Counter.Kept.refund (h : k.Kept) {c : CallId} {quantity : Nat}
    (hcharged : (c, quantity) ∈ k.charged) : (refundCounter (some k) c quantity).Kept := by
  obtain ⟨seed, hseed, hvalue⟩ := h
  have hcharges := refundCounter_charges hcharged
  refine ⟨seed, hseed, ?_⟩
  have hafter : (refundCounter (some k) c quantity).value = k.value - quantity := rfl
  rw [hafter]
  omega

end Counter

/-! ## The invariant over a step -/

section Step

variable {cal : Calendar} {s s' : State} {act : Action}

/-- One call moves. -/
theorem quotaKept_moved (h : QuotaKept s) {c : CallId} {moved : Call}
    (hcounters : s'.counters = s.counters)
    (hcalls : s'.calls = Function.update s.calls c (some moved))
    (hmoved : ∀ store, moved.phase.refundedInRedis = some store → store = .redis) :
    QuotaKept s' where
  counters := by
    rw [hcounters]
    exact h.counters
  stores := by
    intro d call store hcall hphase
    rw [hcalls] at hcall
    rcases stored_cases hcall with ⟨_, rfl⟩ | ⟨_, hcall⟩
    · exact hmoved store hphase
    · exact h.stores d call store hcall hphase

/-- One counter is stored, and one call moves. -/
theorem quotaKept_stored (h : QuotaKept s) {key : QuotaKey} {k : Counter} {c : CallId}
    {moved : Call} (hcounters : s'.counters = Function.update s.counters key (some k))
    (hk : k.Kept) (hcalls : s'.calls = Function.update s.calls c (some moved))
    (hmoved : ∀ store, moved.phase.refundedInRedis = some store → store = .redis) :
    QuotaKept s' where
  counters := by
    intro key' stored hstored
    rw [hcounters] at hstored
    rcases stored_cases hstored with ⟨_, rfl⟩ | ⟨_, hstored⟩
    · exact ⟨hk, hk.nonneg⟩
    · exact h.counters key' stored hstored
  stores := by
    have hmove : QuotaKept { s with calls := s'.calls } :=
      quotaKept_moved h rfl hcalls hmoved
    exact hmove.stores

/-- A call keeps the store of its admission, so the charges of the counters stay Redis's
as long as a counter gains none but that of the call that moves. -/
theorem chargedInRedis_update (h : ChargedInRedis s) {c : CallId} {moved : Call}
    (hcalls : s'.calls = Function.update s.calls c (some moved))
    (hcounters : ∀ key k d quantity, s'.counters key = some k → (d, quantity) ∈ k.charged →
      (d = c ∧ moved.phase.store = some .redis) ∨
        ∃ old, s.counters key = some old ∧ (d, quantity) ∈ old.charged)
    (hstore : ∀ call, s.calls c = some call → call.phase.store = some .redis →
      moved.phase.store = some .redis) : ChargedInRedis s' := by
  intro key k d quantity hk hcharged
  rw [hcalls]
  rcases hcounters key k d quantity hk hcharged with ⟨rfl, hmoved⟩ | ⟨old, hold, hcharged⟩
  · exact ⟨moved, Function.update_self .., hmoved⟩
  · obtain ⟨call, hcall, hredis⟩ := h key old d quantity hold hcharged
    by_cases hd : d = c
    · subst hd
      exact ⟨moved, Function.update_self .., hstore call hcall hredis⟩
    · exact ⟨call, by rw [Function.update_of_ne hd]; exact hcall, hredis⟩

/-- A quiet move keeps the store. -/
theorem quiet_store {r : Request} {phase phase' : Phase} {store : Store}
    (h : Quiet cal s r act phase phase') (hstore : phase.store = some store) :
    phase'.store = some store := by
  cases h with
  | refund | refundBroken | decrFails => exact hstore
  | _ => cases hstore

/-- The counters after one of them is stored: a charge of it is new or was there. -/
theorem charged_stored {key : QuotaKey} {k : Counter} {c : CallId} {store : Option Store}
    (hk : ∀ d quantity, (d, quantity) ∈ k.charged → (d = c ∧ store = some .redis) ∨
      ∃ old, s.counters key = some old ∧ (d, quantity) ∈ old.charged) :
    ∀ key' k' d quantity, Function.update s.counters key (some k) key' = some k' →
      (d, quantity) ∈ k'.charged → (d = c ∧ store = some .redis) ∨
        ∃ old, s.counters key' = some old ∧ (d, quantity) ∈ old.charged := by
  intro key' k' d quantity hk' hcharged
  rcases stored_cases hk' with ⟨hkey, rfl⟩ | ⟨_, hold⟩
  · rw [hkey]
    exact hk d quantity hcharged
  · exact Or.inr ⟨k', hold, hcharged⟩

/-- A call that leaves a phase keeps its store when the next phase does. -/
theorem store_kept {c : CallId} {call moved : Call} {phase : Phase}
    (hcall : s.calls c = some call) (hphase : call.phase = phase)
    (hkeep : phase.store = some .redis → moved.phase.store = some .redis) :
    ∀ call', s.calls c = some call' → call'.phase.store = some .redis →
      moved.phase.store = some .redis := by
  intro call' hcall' hredis
  obtain rfl := Option.some.inj (hcall.symm.trans hcall')
  rw [hphase] at hredis
  exact hkeep hredis

/-- Nothing is charged when no counter changes. -/
theorem charged_same {c : CallId} {store : Option Store} :
    ∀ key k d quantity, s.counters key = some k → (d, quantity) ∈ k.charged →
      (d = c ∧ store = some .redis) ∨
        ∃ old, s.counters key = some old ∧ (d, quantity) ∈ old.charged :=
  fun _ k _ _ hk hcharged => Or.inr ⟨k, hk, hcharged⟩

/-- **Step lemma.**  Charges are those of calls that Redis admitted. -/
theorem chargedInRedis_step (h : ChargedInRedis s) (hstep : step cal s act = some s') :
    ChargedInRedis s' := by
  cases step_cases hstep with
  | @begin c request hnew =>
      refine chargedInRedis_update h rfl charged_same ?_
      intro call hcall
      rw [hnew] at hcall
      cases hcall
  | @moved _ c call phase circuit hcall hquiet _ =>
      exact chargedInRedis_update h rfl charged_same
        (store_kept hcall rfl (quiet_store hquiet))
  | @charged c call again k hcall hphase hk =>
      refine chargedInRedis_update h rfl (charged_stored ?_) (fun _ _ _ => rfl)
      intro d quantity hcharged
      rcases List.mem_cons.mp hcharged with hnew | hold
      · cases hnew
        exact Or.inl ⟨rfl, rfl⟩
      · exact Or.inr ⟨k, hk, hold⟩
  | @unheard c call again k hcall hphase hk =>
      refine chargedInRedis_update h rfl (charged_stored ?_) ?_
      · intro d quantity hcharged
        exact Or.inr ⟨k, hk, hcharged⟩
      · apply store_kept hcall hphase
        intro hredis
        cases hredis
  | @seeded c call seed reply next hcall hphase hnone hnext _ =>
      refine chargedInRedis_update h rfl (charged_stored ?_) ?_
      · intro d quantity hcharged
        cases hcharged
      · apply store_kept hcall hphase
        intro hredis
        cases hredis
  | @chargedLocal c call seed used hcall hphase =>
      refine chargedInRedis_update h rfl charged_same (store_kept hcall hphase ?_)
      intro hredis
      cases hredis
  | @served c call store telemetry response hcall hphase _ =>
      exact chargedInRedis_update h rfl charged_same (store_kept hcall hphase id)
  | @unserved c call store telemetry serve hcall hphase =>
      exact chargedInRedis_update h rfl charged_same (store_kept hcall hphase id)
  | @decremented c call store reply next hcall hphase hnext _ =>
      refine chargedInRedis_update h rfl (charged_stored ?_) ?_
      · intro d quantity hcharged
        cases hk : s.counters call.request.key with
        | none =>
            rw [hk] at hcharged
            cases hcharged
        | some k =>
            rw [hk] at hcharged
            exact Or.inr ⟨k, rfl, List.mem_of_mem_erase hcharged⟩
      · apply store_kept hcall hphase
        intro hredis
        rcases hnext with rfl | rfl <;> exact hredis
  | @refundedLocal c call store decremented k hcall hphase =>
      exact chargedInRedis_update h rfl charged_same (store_kept hcall hphase id)
  | probe => exact h
  | @lost key =>
      intro key' k d quantity hk hcharged
      rw [State.setCounter_counters] at hk
      exact h key' k d quantity (deleted_cases hk).2 hcharged

/-- A quiet move refunds nothing in Redis. -/
theorem quiet_refundedInRedis {r : Request} {phase phase' : Phase}
    (h : Quiet cal s r act phase phase') : phase'.refundedInRedis = none := by
  cases h <;> rfl

/-- A phase without a refund in Redis meets the condition on them. -/
theorem redis_of_none {phase : Phase} (h : phase.refundedInRedis = none) (store : Store)
    (hsome : phase.refundedInRedis = some store) : store = .redis := by
  rw [h] at hsome
  cases hsome

/-- **Step lemma.**  A step that refunds only charges of the counter keeps the counters. -/
theorem quotaKept_step (h : QuotaKept s) (hcharges : ChargedInRedis s)
    (hok : refundsItsCharge s act = true) (hstep : step cal s act = some s') :
    QuotaKept s' := by
  cases step_cases hstep with
  | @begin c request hnew =>
      refine quotaKept_moved h rfl rfl (redis_of_none ?_)
      dsimp only [State.start]
      split <;> rfl
  | moved hcall hquiet _ =>
      exact quotaKept_moved h rfl rfl (redis_of_none (quiet_refundedInRedis hquiet))
  | @charged c call again k hcall hphase hk =>
      exact quotaKept_stored h rfl ((h.counters _ k hk).1.charge c _) rfl (redis_of_none rfl)
  | @unheard c call again k hcall hphase hk =>
      exact quotaKept_stored h rfl ((h.counters _ k hk).1.add _) rfl (redis_of_none rfl)
  | @seeded c call seed reply next hcall hphase hnone hnext _ =>
      refine quotaKept_stored h rfl (kept_seeded seed) rfl (redis_of_none ?_)
      rcases hnext with rfl | rfl <;> rfl
  | chargedLocal => exact quotaKept_moved h rfl rfl (redis_of_none rfl)
  | served => exact quotaKept_moved h rfl rfl (redis_of_none rfl)
  | unserved => exact quotaKept_moved h rfl rfl (redis_of_none rfl)
  | @decremented c call store reply next hcall hphase hnext _ =>
      -- The condition says that the counter is there and holds the charge.
      cases hk : s.counters call.request.key with
      | none => simp [refundsItsCharge, hcall, hphase, hk] at hok
      | some k =>
          have hcharged : (c, call.request.quantity) ∈ k.charged := by
            simpa [refundsItsCharge, hcall, hphase, hk] using hok
          have hredis : store = .redis := by
            obtain ⟨call', hcall', hstore⟩ := hcharges _ k c _ hk hcharged
            obtain rfl := Option.some.inj (hcall.symm.trans hcall')
            rw [hphase] at hstore
            exact Option.some.inj hstore
          refine quotaKept_stored h rfl ((h.counters _ k hk).1.refund hcharged) rfl ?_
          intro store' hstore
          rcases hnext with rfl | rfl <;> exact (Option.some.inj hstore).symm.trans hredis
  | @refundedLocal c call store decremented k hcall hphase =>
      refine quotaKept_moved h rfl rfl ?_
      intro store' hstore
      apply h.stores c call store' hcall
      rw [hphase]
      cases decremented with
      | true => exact hstore
      | false => cases hstore
  | probe => exact ⟨h.counters, h.stores⟩
  | @lost key =>
      refine ⟨?_, h.stores⟩
      intro key' k hk
      rw [State.setCounter_counters] at hk
      exact h.counters key' k (deleted_cases hk).2

end Step

/-- **Refunds keep the quota** in every run in which every `DECRBY` is for a charge of the
counter as it stands. -/
theorem quota_kept {cal : Calendar} {db : Database} {as : List Action} {t : State}
    (hrun : Run (system cal db) (fun s act => refundsItsCharge s act = true) (initial db) as
      t) : QuotaKept t := by
  have hinitial : QuotaKept (initial db) := by
    refine ⟨?_, ?_⟩
    · intro key k hk
      cases hk
    · intro c call store hcall
      cases hcall
  have hcharges : ChargedInRedis (initial db) := by
    intro key k c quantity hk
    cases hk
  have hend : QuotaKept t ∧ ChargedInRedis t := by
    refine hrun.invariant (P := fun s => QuotaKept s ∧ ChargedInRedis s) ?_
      ⟨hinitial, hcharges⟩
    intro s act s' hnow hok hnext
    exact ⟨quotaKept_step hnow.1 hnow.2 hok hnext, chargedInRedis_step hnow.2 hnext⟩
  exact hend.1

/-- Months of thirty days. -/
def thirtyDays : Calendar where
  monthStart := fun month => 2592000 * month
  increasing := by
    intro a b hab
    exact Nat.mul_lt_mul_of_pos_left hab (by decide)

/-- A request of tenant 1 in process 1, with a limit of ten. -/
def shopRequest (requestId : String) : Request := ⟨1, 1, 0, requestId, 10, 1⟩

/-- A request is charged in Redis, fails, and is refunded there. -/
def refundedRun : List Action :=
  [.begin 1 (shopRequest "r-1"), .look 1, .script 1 .ok, .seed 1, .set 1 .ok, .script 1 .ok,
    .serve 1 ⟨1, 5, 3⟩ none, .look 1, .decr 1 .ok]

/-- That refund keeps the quota. -/
theorem quota_kept_refunded :
    ∃ t, Run (system thirtyDays emptyDatabase) (fun s act => refundsItsCharge s act = true)
        (initial emptyDatabase) refundedRun t ∧ QuotaKept t := by
  have hdone : (execWhile (system thirtyDays emptyDatabase) refundsItsCharge
      (initial emptyDatabase) refundedRun).isSome = true := by
    decide +kernel
  obtain ⟨t, hexec⟩ := Option.isSome_iff_exists.mp hdone
  have hrun := run_of_execWhile hexec
  exact ⟨t, hrun, quota_kept hrun⟩

/-- A request whose script fails is charged in its process; the circuit closes before it
is refunded. -/
def recoveredRun : List Action :=
  [.begin 1 (shopRequest "r-1"), .look 1, .script 1 (.error false), .seed 1, .chargeLocal 1,
    .serve 1 ⟨1, 5, 3⟩ none, .probe 1, .look 1, .decr 1 .ok]

/-- **A local charge is refunded in Redis**: the refund creates a counter of minus one. -/
theorem local_charge_refunded_in_redis :
    ¬ ∀ (as : List Action) (t : State),
      Run (system thirtyDays emptyDatabase) anyStep (initial emptyDatabase) as t →
      QuotaKept t := by
  intro hall
  have hdone : (exec (system thirtyDays emptyDatabase) (initial emptyDatabase)
      recoveredRun).map (fun t => t.counters ⟨1, 0⟩) = some (some ⟨-1, none, []⟩) := by
    decide +kernel
  obtain ⟨t, hexec, ht⟩ := Option.map_eq_some_iff.mp hdone
  have hkept := hall recoveredRun t (run_of_exec hexec)
  have hnegative := (hkept.counters ⟨1, 0⟩ _ ht).2
  exact absurd hnegative (by decide)

end Usage
