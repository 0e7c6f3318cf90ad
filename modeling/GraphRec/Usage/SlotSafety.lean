import GraphRec.Usage.Slots

/-!
# Slots are conserved

Over every interleaving of requests, expiries, failures of Redis and crashes: at most
`limit` leases of a tenant are unexpired in Redis, a release drops the lease it is for and
no other, Redis refuses only when `limit` leases are unexpired, and the count of a process
is the number of leases it gave out itself.
-/

namespace Usage.Slots

open Transition
open Auth (TenantId)

variable {cfg : Config} {s s' : State} {a : Action} {id : LeaseId} {r : Request}
  {t : TenantId} {key : Key} {limit ttl now : ℕ} {member : LeaseId}

/-! ## One key -/

/-- What holds of a key: no deadline is further ahead than a lease lasts, the key outlasts
its leases, and at most `limit` leases are live. -/
structure Key.Ok (limit ttl now : ℕ) (key : Key) : Prop where
  bounded : ∀ entry ∈ key.leases.entries, entry.2 ≤ now + ttl
  outlasts : ∀ entry ∈ key.leases.entries, entry.2 < key.expires
  within : (key.leases.live now).size ≤ limit

theorem Key.missing_ok : Key.missing.Ok limit ttl now where
  bounded := by
    intro entry h
    cases h
  outlasts := by
    intro entry h
    cases h
  within := Nat.zero_le _

/-- The expiry of the key takes no lease that has not expired itself. -/
theorem Key.Ok.unexpired_eq (h : key.Ok limit ttl now) :
    key.unexpired now = key.leases.live now := by
  unfold unexpired present
  split
  · next hgone =>
      have hpast : ∀ entry ∈ key.leases.entries, entry.2 ≤ now := by
        intro entry hentry
        exact Nat.le_of_lt (Nat.lt_of_lt_of_le (h.outlasts entry hentry) hgone)
      rw [LeaseSet.live_eq_empty hpast, LeaseSet.live_empty]
  · rfl

theorem Key.Ok.later (h : key.Ok limit ttl now) (elapsed : ℕ) :
    key.Ok limit ttl (now + elapsed) where
  bounded := by
    intro entry hentry
    have := h.bounded entry hentry
    omega
  outlasts := h.outlasts
  within := Nat.le_trans (LeaseSet.size_live_antitone _ (Nat.le_add_right _ _)) h.within

theorem Key.Ok.zrem (h : key.Ok limit ttl now) (member : LeaseId) :
    (zrem key member).Ok limit ttl now where
  bounded := by
    intro entry hentry
    exact h.bounded entry (LeaseSet.mem_revoke.mp hentry).1
  outlasts := by
    intro entry hentry
    exact h.outlasts entry (LeaseSet.mem_revoke.mp hentry).1
  within := Nat.le_trans (LeaseSet.size_live_revoke_le _ _ _) h.within

/-- The script, on the leases that are live. -/
theorem acquireScript_eq (h : key.Ok limit ttl now) :
    acquireScript key limit ttl member now =
      if (key.leases.live now).size < limit then
        (true, ⟨(key.leases.live now).grant member (now + ttl), now + (ttl + 1000)⟩)
      else (false, ⟨key.leases.live now, key.expires⟩) := by
  rw [← h.unexpired_eq]
  rfl

theorem acquireScript_ok (h : key.Ok limit ttl now) :
    (acquireScript key limit ttl member now).2.Ok limit ttl now := by
  rw [acquireScript_eq h]
  split
  · next hfree =>
      have hentries : ∀ entry ∈ ((key.leases.live now).grant member (now + ttl)).entries,
          entry.2 ≤ now + ttl := by
        intro entry hentry
        rcases LeaseSet.mem_grant.mp hentry with ⟨hold, -⟩ | rfl
        · exact h.bounded entry (LeaseSet.mem_live.mp hold).1
        · exact Nat.le_refl _
      refine ⟨hentries, ?_, ?_⟩
      · intro entry hentry
        have := hentries entry hentry
        change entry.2 < now + (ttl + 1000)
        omega
      · have hlive := LeaseSet.size_keep_le ((key.leases.live now).grant member (now + ttl))
          fun entry => decide (now < entry.2)
        have hgrant := LeaseSet.size_grant_le (key.leases.live now) member (now + ttl)
        exact Nat.le_trans hlive (Nat.le_trans hgrant hfree)
  · refine ⟨?_, ?_, ?_⟩
    · intro entry hentry
      exact h.bounded entry (LeaseSet.mem_live.mp hentry).1
    · intro entry hentry
      exact h.outlasts entry (LeaseSet.mem_live.mp hentry).1
    · change ((key.leases.live now).live now).size ≤ limit
      rw [LeaseSet.live_live _ (Nat.le_refl now)]
      exact h.within

/-- The script refuses only when `limit` leases are unexpired. -/
theorem acquireScript_refuses (h : key.Ok limit ttl now)
    (hrefused : (acquireScript key limit ttl member now).1 = false) :
    (key.unexpired now).size = limit := by
  rw [acquireScript_eq h] at hrefused
  rw [h.unexpired_eq]
  split at hrefused
  · cases hrefused
  · next hfull => exact Nat.le_antisymm h.within (not_lt.mp hfull)

/-- The script leaves the live leases of the others. -/
theorem acquireScript_others (h : key.Ok limit ttl now) {entry : LeaseId × ℕ}
    (hne : entry.1 ≠ member) (hlive : now < entry.2) :
    entry ∈ (acquireScript key limit ttl member now).2.leases.entries ↔
      entry ∈ key.leases.entries := by
  rw [acquireScript_eq h]
  have hpair : entry ≠ (member, now + ttl) := by
    rintro rfl
    exact hne rfl
  split
  · simp [hne, hlive, hpair]
  · simp [hlive]

/-- A live lease of one's own lasts at least as long after the script. -/
theorem acquireScript_own (h : key.Ok limit ttl now) {deadline : ℕ}
    (hmem : (member, deadline) ∈ key.leases.entries) (hlive : now < deadline) :
    ∃ deadline', deadline ≤ deadline' ∧
      (member, deadline') ∈ (acquireScript key limit ttl member now).2.leases.entries := by
  rw [acquireScript_eq h]
  split
  · exact ⟨now + ttl, h.bounded _ hmem, LeaseSet.mem_grant.mpr (Or.inr rfl)⟩
  · exact ⟨deadline, Nat.le_refl _, LeaseSet.mem_live.mpr ⟨hmem, hlive⟩⟩

/-- A lease that is given is stored. -/
theorem acquireScript_given (h : key.Ok limit ttl now)
    (hgiven : (acquireScript key limit ttl member now).1 = true) :
    (member, now + ttl) ∈ (acquireScript key limit ttl member now).2.leases.entries := by
  rw [acquireScript_eq h] at hgiven ⊢
  split at hgiven
  · next hfree =>
      rw [if_pos hfree]
      exact LeaseSet.mem_grant.mpr (Or.inr rfl)
  · cases hgiven

/-! ## The processes -/

/-- Is the request one that has not been released? -/
def Phase.beforeRelease : Phase → Bool
  | .asking | .falling | .held _ _ => true
  | .removing | .released | .refused _ | .crashed => false

/-- What holds of a request: a lease it holds, or has sent `ZREM` for, is its own, and it
sends `ZREM` only when it is released. -/
structure Request.Ok (id : LeaseId) (r : Request) : Prop where
  held : ∀ lease score, r.phase = .held lease score → lease.leaseId = id ∧ lease.tenantId = r.tenant
  removed : ∀ lease, r.removed = some lease → lease.leaseId = id ∧ lease.tenantId = r.tenant
  unsent : r.phase.beforeRelease = true → r.removed = none

/-- A request that moves to another phase. -/
theorem Request.Ok.move (h : r.Ok id) {phase : Phase}
    (hheld : ∀ lease score, phase = .held lease score →
      lease.leaseId = id ∧ lease.tenantId = r.tenant)
    (hbefore : phase.beforeRelease = true → r.phase.beforeRelease = true) :
    ({ r with phase := phase } : Request).Ok id where
  held := hheld
  removed := h.removed
  unsent := fun hphase => h.unsent (hbefore hphase)

/-- A request that ends. -/
theorem Request.Ok.finish (h : r.Ok id) {phase : Phase} (hphase : phase.beforeRelease = false) :
    ({ r with phase := phase } : Request).Ok id := by
  refine h.move ?_ ?_
  · rintro lease score rfl
    cases hphase
  · intro hbefore
    rw [hphase] at hbefore
    cases hbefore

/-- The invariant of the system. -/
structure Inv (cfg : Config) (s : State) : Prop where
  keys : ∀ t, (s.keys t).Ok (cfg.limit t) cfg.slotLeaseMs s.now
  requests : s.requests.All Request.Ok
  counted : ∀ p t, s.slots p t = s.localLeases p t
  within : ∀ p t, s.slots p t ≤ cfg.limit t

theorem initial_inv : Inv cfg initial where
  keys := fun _ => Key.missing_ok
  requests := .empty _
  counted := fun _ _ => rfl
  within := fun _ _ => Int.natCast_nonneg _

/-- Storing a good key keeps the keys good. -/
theorem keys_setKey (h : ∀ t, (s.keys t).Ok (cfg.limit t) ttl s.now)
    (hkey : key.Ok (cfg.limit t) ttl s.now) :
    ∀ t', ((s.setKey t key).keys t').Ok (cfg.limit t') ttl s.now := by
  intro t'
  by_cases ht : t' = t
  · subst ht
    simpa [State.setKey] using hkey
  · simpa [State.setKey, ht] using h t'

/-- The keys stay good. -/
theorem step_keys (h : Inv cfg s) (hstep : Step cfg s a s') :
    ∀ t, (s'.keys t).Ok (cfg.limit t) cfg.slotLeaseMs s'.now := by
  cases hstep with
  | tick elapsed => exact fun t => (h.keys t).later elapsed
  | acquireUnheard => exact keys_setKey h.keys (acquireScript_ok (h.keys _))
  | acquireHeard => exact keys_setKey h.keys (acquireScript_ok (h.keys _))
  | removeUnheard => exact keys_setKey h.keys ((h.keys _).zrem _)
  | removeHeard => exact keys_setKey h.keys ((h.keys _).zrem _)
  | lose t => exact keys_setKey h.keys Key.missing_ok
  | begin | acquireFails | acquireLocal | refuseLocal | releaseLocal | releaseRemoves
  | releaseLeaves | removeFails | redisFails | probe | crash => exact h.keys

/-- A reply gives no lease but the request's own. -/
theorem afterReply_held {given timeUp : Bool} {lease : Lease} {score : ℕ}
    (h : afterReply cfg s id r given timeUp = .held lease score) :
    given = true ∧ lease = ⟨r.tenant, id, false⟩ ∧ score = s.now + cfg.slotLeaseMs := by
  unfold afterReply at h
  split at h
  · next hgiven =>
      cases h
      exact ⟨hgiven, rfl, rfl⟩
  · split at h <;> cases h

/-- The requests stay good. -/
theorem step_requests (h : Inv cfg s) (hstep : Step cfg s a s') :
    s'.requests.All Request.Ok := by
  cases hstep with
  | @begin p t id hfresh =>
      refine h.requests.insert hfresh ⟨?_, ?_, fun _ => rfl⟩
      · intro lease score hheld
        change (if redisAvailable cfg s p = true then Phase.asking else .falling) = _ at hheld
        split at hheld <;> cases hheld
      · intro lease hremoved
        cases hremoved
  | @acquireHeard id r timeUp hr hasked hphase =>
      refine h.requests.update hr ((h.requests id r hr).move ?_ ?_)
      · intro lease score hheld
        obtain ⟨-, rfl, -⟩ := afterReply_held hheld
        exact ⟨rfl, rfl⟩
      · intro _
        rw [hphase]
        rfl
  | @acquireFails id r hr hphase =>
      refine h.requests.update hr ((h.requests id r hr).move ?_ ?_)
      · intro lease score hheld
        cases hheld
      · intro _
        rw [hphase]
        rfl
  | @acquireLocal id r hr hphase hfree =>
      refine h.requests.update hr ((h.requests id r hr).move ?_ ?_)
      · rintro lease score hheld
        cases hheld
        exact ⟨rfl, rfl⟩
      · intro _
        rw [hphase]
        rfl
  | @refuseLocal id r hr => exact h.requests.update hr ((h.requests id r hr).finish rfl)
  | @releaseLocal id r lease score hr =>
      exact h.requests.update hr ((h.requests id r hr).finish rfl)
  | @releaseRemoves id r lease score hr hphase =>
      refine h.requests.update hr ⟨?_, ?_, ?_⟩
      · intro lease score hheld
        cases hheld
      · intro lease' hremoved
        cases hremoved
        exact (h.requests id r hr).held lease score hphase
      · intro hbefore
        cases hbefore
  | @releaseLeaves id r lease score hr =>
      exact h.requests.update hr ((h.requests id r hr).finish rfl)
  | @removeHeard id r lease hr => exact h.requests.update hr ((h.requests id r hr).finish rfl)
  | @removeFails id r hr => exact h.requests.update hr ((h.requests id r hr).finish rfl)
  | crash p =>
      refine Table.All.updateWhere (h.requests.mono ?_)
      intro id r hr
      unfold Request.crash
      split
      · exact hr.finish rfl
      · exact hr
  | tick | acquireUnheard | removeUnheard | redisFails | probe | lose => exact h.requests

/-! ## The counts of the processes -/

/-- A request's count before and after it moves. -/
theorem localLeases_setPhase (hr : s.requests.get? id = some r) (phase : Phase)
    (p : ProcessId) (t : TenantId) :
    (s.setPhase id phase).localLeases p t + (if r.holdsLocal p t then 1 else 0) =
      s.localLeases p t +
        if ({ r with phase := phase } : Request).holdsLocal p t then 1 else 0 :=
  s.requests.count_update hr (fun r => { r with phase := phase }) (Request.holdsLocal p t)

/-- A request that has no lease of its process's own count. -/
theorem holdsLocal_eq_false (h : r.phase.holdsLocal = false) (p : ProcessId) (t : TenantId) :
    r.holdsLocal p t = false := by
  simp [Request.holdsLocal, h]

/-- A request that neither gains nor gives back a lease of the process's own count. -/
theorem localLeases_of_quiet (hr : s.requests.get? id = some r) {phase : Phase}
    (hbefore : r.phase.holdsLocal = false) (hafter : phase.holdsLocal = false)
    (p : ProcessId) (t : TenantId) : (s.setPhase id phase).localLeases p t = s.localLeases p t := by
  have hcount := localLeases_setPhase hr phase p t
  rw [holdsLocal_eq_false hbefore,
    holdsLocal_eq_false (r := { r with phase := phase }) hafter] at hcount
  simpa using hcount

/-- The counts stay exact when such a request moves. -/
theorem counted_of_quiet (h : Inv cfg s) (hr : s.requests.get? id = some r) {phase : Phase}
    (hbefore : r.phase.holdsLocal = false) (hafter : phase.holdsLocal = false)
    (p : ProcessId) (t : TenantId) : s.slots p t = (s.setPhase id phase).localLeases p t := by
  rw [localLeases_of_quiet hr hbefore hafter]
  exact h.counted p t

/-- A count after one count is stored. -/
theorem setSlots_slots (s : State) (p : ProcessId) (t : TenantId) (n : ℤ) (p' : ProcessId)
    (t' : TenantId) :
    (s.setSlots p t n).slots p' t' = if p = p' ∧ t = t' then n else s.slots p' t' := by
  by_cases hp : p = p'
  · subst hp
    by_cases ht : t = t'
    · subst ht
      simp [State.setSlots]
    · simp [State.setSlots, ht, Ne.symm ht]
  · simp [State.setSlots, hp, Ne.symm hp]

/-- A held lease of the process's own count is counted. -/
theorem one_le_localLeases (hr : s.requests.get? id = some r) (hheld : r.phase.holdsLocal = true) :
    1 ≤ s.localLeases r.process r.tenant := by
  have hcount := localLeases_setPhase hr .released r.process r.tenant
  have hbefore : r.holdsLocal r.process r.tenant = true := by
    simp [Request.holdsLocal, hheld]
  have hafter : ({ r with phase := .released } : Request).holdsLocal r.process r.tenant = false :=
    holdsLocal_eq_false rfl _ _
  rw [hbefore, hafter] at hcount
  simp only [if_true, Bool.false_eq_true, if_false] at hcount
  omega

/-- The counts stay exact. -/
theorem step_counted (h : Inv cfg s) (hstep : Step cfg s a s') :
    ∀ p t, s'.slots p t = s'.localLeases p t := by
  cases hstep with
  | @begin p t id hfresh =>
      intro p' t'
      have hcount := s.requests.count_insert hfresh ⟨p, t,
        if redisAvailable cfg s p then .asking else .falling, redisAvailable cfg s p, none⟩
        (Request.holdsLocal p' t')
      rw [holdsLocal_eq_false (by dsimp only; split <;> rfl)] at hcount
      exact (h.counted p' t').trans (congrArg Nat.cast hcount.symm)
  | @acquireHeard id r timeUp hr hasked hphase =>
      refine counted_of_quiet h hr (by rw [hphase]; rfl) ?_
      unfold afterReply
      split
      · rfl
      · split <;> rfl
  | @acquireFails id r hr hphase => exact counted_of_quiet h hr (by rw [hphase]; rfl) rfl
  | @acquireLocal id r hr hphase hfree =>
      intro p' t'
      have hcount := localLeases_setPhase hr (.held ⟨r.tenant, id, true⟩ 0) p' t'
      rw [holdsLocal_eq_false (r := r) (by rw [hphase]; rfl)] at hcount
      simp only [Request.holdsLocal, Phase.holdsLocal, Bool.true_and, decide_eq_true_eq,
        Bool.false_eq_true, if_false] at hcount
      have hold := h.counted p' t'
      refine (setSlots_slots s r.process r.tenant _ p' t').trans ?_
      change _ = ((s.setPhase id _).localLeases p' t' : ℤ)
      split
      · next hsame =>
          obtain ⟨rfl, rfl⟩ := hsame
          rw [if_pos ⟨rfl, rfl⟩] at hcount
          omega
      · next hother =>
          rw [if_neg hother] at hcount
          omega
  | @refuseLocal id r hr hphase => exact counted_of_quiet h hr (by rw [hphase]; rfl) rfl
  | @releaseLocal id r lease score hr hphase hlocal =>
      intro p' t'
      have hheld : r.phase.holdsLocal = true := by
        rw [hphase]
        exact hlocal
      have hone := one_le_localLeases hr hheld
      have hcount := localLeases_setPhase hr .released p' t'
      rw [holdsLocal_eq_false (r := { r with phase := .released }) rfl] at hcount
      simp only [Request.holdsLocal, hheld, Bool.true_and, decide_eq_true_eq,
        Bool.false_eq_true, if_false] at hcount
      have hold := h.counted p' t'
      refine (setSlots_slots s r.process lease.tenantId _ p' t').trans ?_
      change _ = ((s.setPhase id .released).localLeases p' t' : ℤ)
      rw [((h.requests id r hr).held lease score hphase).2]
      split
      · next hsame =>
          obtain ⟨rfl, rfl⟩ := hsame
          rw [if_pos ⟨rfl, rfl⟩] at hcount
          -- The count is at least one, so that it is not cut off at zero.
          unfold localRelease
          omega
      · next hother =>
          rw [if_neg hother] at hcount
          omega
  | @releaseRemoves id r lease score hr hphase hshared =>
      intro p' t'
      have hcount := s.requests.count_update hr
        (fun r => { r with phase := .removing, removed := some lease }) (Request.holdsLocal p' t')
      rw [holdsLocal_eq_false (r := r) (by rw [hphase]; exact hshared)] at hcount
      exact (h.counted p' t').trans (congrArg Nat.cast hcount.symm)
  | @releaseLeaves id r lease score hr hphase hshared =>
      exact counted_of_quiet h hr (by rw [hphase]; exact hshared) rfl
  | @removeHeard id r lease hr hremoved hphase =>
      exact counted_of_quiet h hr (by rw [hphase]; rfl) rfl
  | @removeFails id r hr hphase => exact counted_of_quiet h hr (by rw [hphase]; rfl) rfl
  | crash p =>
      intro p' t'
      change Function.update s.slots p (fun _ => 0) p' t' = _
      by_cases hp : p' = p
      · subst hp
        have hnone : ∀ id r, s.requests.get? id = some r →
            (r.crash p').holdsLocal p' t' = false := by
          intro id r _
          unfold Request.crash
          split
          · exact holdsLocal_eq_false rfl _ _
          · next hne => simp [Request.holdsLocal, hne]
        have hcount := s.requests.count_updateWhere hnone
        rw [Function.update_self, State.localLeases, stepCrash, hcount]
        simp [Table.count]
      · have hsame : ∀ id r, s.requests.get? id = some r →
            (r.crash p).holdsLocal p' t' = r.holdsLocal p' t' := by
          intro id r _
          unfold Request.crash
          split
          · next heq =>
              rw [holdsLocal_eq_false (r := { r with phase := .crashed }) rfl]
              simp [Request.holdsLocal, heq, Ne.symm hp]
          · rfl
        have hcount := s.requests.count_updateWhere hsame
        rw [Function.update_of_ne hp, State.localLeases, stepCrash, hcount]
        exact h.counted p' t'
  | tick | acquireUnheard | removeUnheard | redisFails | probe | lose => exact h.counted

/-- The counts stay within the limits. -/
theorem step_within (h : Inv cfg s) (hstep : Step cfg s a s') :
    ∀ p t, s'.slots p t ≤ cfg.limit t := by
  cases hstep with
  | @acquireLocal id r hr hphase hfree =>
      intro p' t'
      refine (setSlots_slots s r.process r.tenant _ p' t').trans_le ?_
      split
      · next hsame =>
          obtain ⟨rfl, rfl⟩ := hsame
          exact hfree
      · exact h.within p' t'
  | @releaseLocal id r lease score hr hphase hlocal =>
      intro p' t'
      refine (setSlots_slots s r.process lease.tenantId _ p' t').trans_le ?_
      split
      · next hsame =>
          obtain ⟨rfl, rfl⟩ := hsame
          have hold := h.within r.process lease.tenantId
          unfold localRelease
          omega
      · exact h.within p' t'
  | crash p =>
      intro p' t'
      change Function.update s.slots p (fun _ => 0) p' t' ≤ _
      by_cases hp : p' = p
      · rw [hp, Function.update_self]
        exact Int.natCast_nonneg _
      · rw [Function.update_of_ne hp]
        exact h.within p' t'
  | tick | begin | acquireUnheard | acquireHeard | acquireFails | refuseLocal | releaseRemoves
  | releaseLeaves | removeUnheard | removeHeard | removeFails | redisFails | probe | lose =>
      exact h.within

/-- The invariant is kept. -/
theorem step_inv (h : Inv cfg s) (hstep : Step cfg s a s') : Inv cfg s' where
  keys := step_keys h hstep
  requests := step_requests h hstep
  counted := step_counted h hstep
  within := step_within h hstep

/-- The invariant holds in every state reached. -/
theorem run_inv {as : List Action} (h : Run (system cfg) anyStep initial as s) : Inv cfg s :=
  h.invariant (fun _ _ _ hinv _ hstep => step_inv hinv (step_cases hstep)) initial_inv

/-! ## The leases that are held -/

/-- A lease of the request that has not expired is stored, with its score or a later one. -/
def Backed (s : State) (id : LeaseId) (r : Request) : Prop :=
  ∀ lease score, r.phase = .held lease score → lease.isLocal = false → s.now < score →
    ∃ deadline, score ≤ deadline ∧ (id, deadline) ∈ (s.keys r.tenant).leases.entries

/-- Storing the key of a tenant. -/
theorem setKey_keys (s : State) (t : TenantId) (key : Key) (t' : TenantId) :
    (s.setKey t key).keys t' = if t = t' then key else s.keys t' := by
  by_cases ht : t = t'
  · subst ht
    simp [State.setKey]
  · simp [State.setKey, ht, Ne.symm ht]

/-- A stored lease whose request has not sent `ZREM` stays until it expires, unless Redis
loses the key. -/
theorem step_keeps_lease (h : Inv cfg s) (hstep : Step cfg s a s') (hkept : ∀ t, a ≠ .lose t)
    {id : LeaseId} {r : Request} (hr : s.requests.get? id = some r) (hunsent : r.removed = none)
    {deadline : ℕ} (hmem : (id, deadline) ∈ (s.keys t).leases.entries) (hlive : s.now < deadline) :
    ∃ deadline', deadline ≤ deadline' ∧ (id, deadline') ∈ (s'.keys t).leases.entries := by
  have hscript : ∀ t₁ id₁, ∃ deadline', deadline ≤ deadline' ∧ (id, deadline') ∈
      ((s.setKey t₁ (acquireScript (s.keys t₁) (cfg.limit t₁) cfg.slotLeaseMs id₁ s.now).2).keys
        t).leases.entries := by
    intro t₁ id₁
    rw [setKey_keys]
    split
    · next ht =>
        subst ht
        by_cases hid : id = id₁
        · subst hid
          exact acquireScript_own (h.keys t₁) hmem hlive
        · exact ⟨deadline, Nat.le_refl _, (acquireScript_others (h.keys t₁) hid hlive).mpr hmem⟩
    · exact ⟨deadline, Nat.le_refl _, hmem⟩
  have hremove : ∀ id₁ r₁ lease, s.requests.get? id₁ = some r₁ → r₁.removed = some lease →
      ∃ deadline', deadline ≤ deadline' ∧ (id, deadline') ∈
        ((s.setKey lease.tenantId (zrem (s.keys lease.tenantId) lease.leaseId)).keys
          t).leases.entries := by
    intro id₁ r₁ lease hr₁ hremoved
    have hne : id ≠ lease.leaseId := by
      rw [((h.requests id₁ r₁ hr₁).removed lease hremoved).1]
      rintro rfl
      rw [hr] at hr₁
      obtain rfl := Option.some.inj hr₁
      rw [hunsent] at hremoved
      cases hremoved
    rw [setKey_keys]
    refine ⟨deadline, Nat.le_refl _, ?_⟩
    split
    · next ht =>
        subst ht
        exact (LeaseSet.mem_revoke_of_ne hne).mpr hmem
    · exact hmem
  cases hstep with
  | acquireUnheard => exact hscript _ _
  | acquireHeard => exact hscript _ _
  | removeUnheard hr₁ hremoved => exact hremove _ _ _ hr₁ hremoved
  | removeHeard hr₁ hremoved => exact hremove _ _ _ hr₁ hremoved
  | lose t₁ => exact absurd rfl (hkept t₁)
  | tick | begin | acquireFails | acquireLocal | refuseLocal | releaseLocal | releaseRemoves
  | releaseLeaves | removeFails | redisFails | probe | crash =>
      exact ⟨deadline, Nat.le_refl _, hmem⟩

/-- The clock does not go back. -/
theorem step_now (hstep : Step cfg s a s') : s.now ≤ s'.now := by
  cases hstep with
  | tick elapsed => exact Nat.le_add_right _ _
  | begin | acquireUnheard | acquireHeard | acquireFails | acquireLocal | refuseLocal
  | releaseLocal | releaseRemoves | releaseLeaves | removeUnheard | removeHeard | removeFails
  | redisFails | probe | crash | lose => exact Nat.le_refl _

/-- What was held stays backed. -/
theorem backed_kept (h : Inv cfg s) (hbacked : s.requests.All (Backed s))
    (hstep : Step cfg s a s') (hkept : ∀ t, a ≠ .lose t) : s.requests.All (Backed s') := by
  intro id r hr lease score hphase hshared hlive
  have hnow := Nat.lt_of_le_of_lt (step_now hstep) hlive
  obtain ⟨deadline, hle, hmem⟩ := hbacked id r hr lease score hphase hshared hnow
  have hunsent := (h.requests id r hr).unsent (by rw [hphase]; rfl)
  obtain ⟨deadline', hle', hmem'⟩ :=
    step_keeps_lease h hstep hkept hr hunsent hmem (Nat.lt_of_lt_of_le hnow hle)
  exact ⟨deadline', Nat.le_trans hle hle', hmem'⟩

/-- A request that holds no lease in Redis has none to back. -/
theorem backed_of_no_lease (h : ∀ lease score, r.phase = .held lease score →
    lease.isLocal = true) : Backed s id r := by
  intro lease score hphase hshared
  rw [h lease score hphase] at hshared
  cases hshared

/-- What is held is backed, as long as Redis does not lose its keys. -/
theorem step_backed (h : Inv cfg s) (hbacked : s.requests.All (Backed s))
    (hstep : Step cfg s a s') (hkept : ∀ t, a ≠ .lose t) : s'.requests.All (Backed s') := by
  have hold := backed_kept h hbacked hstep hkept
  cases hstep with
  | @begin p t id hfresh =>
      refine hold.insert hfresh (backed_of_no_lease ?_)
      intro lease score hheld
      change (if redisAvailable cfg s p = true then Phase.asking else .falling) = _ at hheld
      split at hheld <;> cases hheld
  | @acquireHeard id r timeUp hr hasked hphase =>
      refine hold.update hr ?_
      intro lease score hheld hshared hlive
      obtain ⟨hgiven, -, rfl⟩ := afterReply_held hheld
      refine ⟨_, Nat.le_refl _, ?_⟩
      change (id, _) ∈ ((s.setKey r.tenant _).keys r.tenant).leases.entries
      rw [setKey_keys, if_pos rfl]
      exact acquireScript_given (h.keys r.tenant) hgiven
  | @acquireLocal id r hr =>
      refine hold.update hr (backed_of_no_lease ?_)
      intro lease score hheld
      cases hheld
      rfl
  | acquireFails hr | refuseLocal hr | releaseLocal hr | releaseRemoves hr | releaseLeaves hr
  | removeHeard hr | removeFails hr =>
      refine hold.update hr (backed_of_no_lease ?_)
      intro lease score hheld
      cases hheld
  | crash p =>
      refine Table.All.updateWhere (hold.mono ?_)
      intro id r hr
      unfold Request.crash
      split
      · refine backed_of_no_lease ?_
        intro lease score hheld
        cases hheld
      · exact hr
  | lose t => exact absurd rfl (hkept t)
  | tick | acquireUnheard | removeUnheard | redisFails | probe => exact hold

/-- At most `limit` requests hold an unexpired lease in Redis. -/
theorem sharedLeases_le (h : Inv cfg s) (hbacked : s.requests.All (Backed s)) (t : TenantId) :
    s.sharedLeases t ≤ cfg.limit t := by
  obtain ⟨ids, hnodup, hlength, hids⟩ :=
    s.requests.count_eq_length (Request.holdsShared t s.now)
  have hstored : ∀ id ∈ ids, ∃ deadline, (id, deadline) ∈
      ((s.keys t).leases.live s.now).entries := by
    intro id hid
    obtain ⟨r, hrow, hholds⟩ := hids id hid
    have hr := (Table.mem_rows_iff _).mp hrow
    simp only [Request.holdsShared, Phase.holdsShared, Bool.and_eq_true,
      decide_eq_true_eq] at hholds
    obtain ⟨hheld, rfl⟩ := hholds
    split at hheld
    · next lease score hphase =>
        simp only [Bool.and_eq_true, Bool.not_eq_true', decide_eq_true_eq] at hheld
        obtain ⟨deadline, hle, hmem⟩ := hbacked id r hr lease score hphase hheld.1 hheld.2
        exact ⟨deadline, LeaseSet.mem_live.mpr ⟨hmem, Nat.lt_of_lt_of_le hheld.2 hle⟩⟩
    · cases hheld
  calc s.sharedLeases t = ids.length := hlength.symm
    _ ≤ ((s.keys t).leases.live s.now).size := LeaseSet.length_le_size hnodup hstored
    _ ≤ cfg.limit t := (h.keys t).within

/-- What is held stays backed in every run in which Redis does not lose a key. -/
theorem run_backed {as : List Action} (h : Run (system cfg) anyStep initial as s)
    (hkept : ∀ t, .lose t ∉ as) : s.requests.All (Backed s) := by
  have hrun := h.of_forall (p := fun a => ∀ t, a ≠ .lose t) (by
    rintro a ha t rfl
    exact hkept t ha)
  have hboth : Inv cfg s ∧ s.requests.All (Backed s) := by
    refine hrun.invariant (P := fun s => Inv cfg s ∧ s.requests.All (Backed s)) ?_
      ⟨initial_inv, .empty _⟩
    rintro s a s' ⟨hinv, hbacked⟩ ⟨-, hfirst⟩ hstep
    have hcase := step_cases hstep
    exact ⟨step_inv hinv hcase, step_backed hinv hbacked hcase hfirst⟩
  exact hboth.2

/-! ## Releases and refusals -/

/-- The lease that a step releases. -/
def releases : Action → Option LeaseId
  | .release id | .removeRuns id _ | .removeFails id => some id
  | _ => none

/-- A release leaves the other requests. -/
theorem release_requests (hstep : Step cfg s a s') (hrelease : releases a = some id)
    {id' : LeaseId} (hne : id' ≠ id) : s'.requests.get? id' = s.requests.get? id' := by
  cases hstep with
  | releaseLocal | releaseRemoves | releaseLeaves | removeHeard | removeFails =>
      obtain rfl := Option.some.inj hrelease
      exact (Table.get?_update _ _ _ _).trans (if_neg hne)
  | removeUnheard => rfl
  | tick | begin | acquireUnheard | acquireHeard | acquireFails | acquireLocal | refuseLocal
  | redisFails | probe | crash | lose => cases hrelease

/-- A release leaves the leases of the others in Redis. -/
theorem release_leases (h : Inv cfg s) (hstep : Step cfg s a s') (hrelease : releases a = some id)
    {entry : LeaseId × ℕ} (hne : entry.1 ≠ id) (t : TenantId) :
    entry ∈ ((s'.keys t).unexpired s'.now).entries ↔
      entry ∈ ((s.keys t).unexpired s.now).entries := by
  have hremove : ∀ r lease, s.requests.get? id = some r → r.removed = some lease →
      (entry ∈ ((s.setKey lease.tenantId (zrem (s.keys lease.tenantId) lease.leaseId)).keys
        t).leases.entries ↔ entry ∈ (s.keys t).leases.entries) := by
    intro r lease hr hremoved
    rw [setKey_keys, ((h.requests id r hr).removed lease hremoved).1]
    split
    · next ht =>
        subst ht
        exact LeaseSet.mem_revoke_of_ne hne
    · exact Iff.rfl
  rw [(h.keys t).unexpired_eq, (step_keys h hstep t).unexpired_eq, LeaseSet.mem_live,
    LeaseSet.mem_live]
  cases hstep with
  | removeUnheard hr hremoved | removeHeard hr hremoved =>
      obtain rfl := Option.some.inj hrelease
      exact and_congr_left' (hremove _ _ hr hremoved)
  | releaseLocal | releaseRemoves | releaseLeaves | removeFails => exact Iff.rfl
  | tick | begin | acquireUnheard | acquireHeard | acquireFails | acquireLocal | refuseLocal
  | redisFails | probe | crash | lose => cases hrelease

/-- Redis refuses only when `limit` leases are unexpired. -/
theorem refused_when_full (h : Inv cfg s) (hstep : Step cfg s a s') {r' : Request}
    {error : SlotsFull} (hr : s.requests.get? id = some r) (hphase : r.phase = .asking)
    (hr' : s'.requests.get? id = some r') (hphase' : r'.phase = .refused error) :
    ((s.keys r.tenant).unexpired s.now).size = cfg.limit r.tenant := by
  have hsame : s'.requests.get? id ≠ s.requests.get? id := by
    intro heq
    rw [heq, hr] at hr'
    obtain rfl := Option.some.inj hr'
    rw [hphase] at hphase'
    cases hphase'
  -- A request that is moved, from `asking`, is moved to `refused` by the script alone.
  have hmoved : ∀ id₁ f, s'.requests = s.requests.update id₁ f → id = id₁ ∧ r' = f r := by
    intro id₁ f hupdate
    rw [hupdate, Table.get?_update] at hr' hsame
    split at hr'
    · next hid =>
        rw [hr] at hr'
        exact ⟨hid, (Option.some.inj hr').symm⟩
    · next hid => exact absurd (if_neg hid) hsame
  cases hstep with
  | @acquireHeard id₁ r₁ timeUp hr₁ =>
      obtain ⟨rfl, rfl⟩ := hmoved id₁ (fun r => { r with phase := _ }) rfl
      obtain rfl := Option.some.inj (hr.symm.trans hr₁)
      have hrefused : (acquireScript (s.keys r.tenant) (cfg.limit r.tenant) cfg.slotLeaseMs id
          s.now).1 = false := by
        cases hgiven : (acquireScript (s.keys r.tenant) (cfg.limit r.tenant) cfg.slotLeaseMs id
            s.now).1 with
        | false => rfl
        | true =>
            simp only [afterReply, hgiven, if_true] at hphase'
            cases hphase'
      exact acquireScript_refuses (h.keys r.tenant) hrefused
  | @refuseLocal id₁ r₁ hr₁ hphase₁ =>
      obtain ⟨rfl, -⟩ := hmoved id₁ (fun r => { r with phase := _ }) rfl
      obtain rfl := Option.some.inj (hr.symm.trans hr₁)
      rw [hphase] at hphase₁
      cases hphase₁
  | @acquireFails id₁ | @acquireLocal id₁ | @releaseLocal id₁ | @releaseLeaves id₁
  | @removeHeard id₁ | @removeFails id₁ =>
      obtain ⟨-, rfl⟩ := hmoved id₁ (fun r => { r with phase := _ }) rfl
      cases hphase'
  | @releaseRemoves id₁ r₁ lease =>
      obtain ⟨-, rfl⟩ := hmoved id₁
        (fun r => { r with phase := .removing, removed := some lease }) rfl
      cases hphase'
  | @begin p t id₁ hfresh =>
      refine absurd ((Table.get?_insert _ hfresh _ _).trans (if_neg ?_)) hsame
      rintro rfl
      rw [hfresh] at hr
      cases hr
  | crash p =>
      have hrow : (stepCrash s p).requests.get? id = some (r.crash p) := by
        simp [stepCrash, hr]
      obtain rfl := Option.some.inj (hr'.symm.trans hrow)
      unfold Request.crash at hphase'
      split at hphase'
      · cases hphase'
      · rw [hphase] at hphase'
        cases hphase'
  | tick | acquireUnheard | removeUnheard | redisFails | probe | lose => exact absurd rfl hsame

/-! ## Conservation -/

/-- What holds after the steps `as`. -/
structure Conserved (cfg : Config) (as : List Action) (s : State) : Prop where
  /-- At most `limit` leases are unexpired in Redis. -/
  unexpired_le : ∀ t, ((s.keys t).unexpired s.now).size ≤ cfg.limit t
  /-- At most `limit` requests hold one, when Redis has lost no key. -/
  shared_le : (∀ t, .lose t ∉ as) → ∀ t, s.sharedLeases t ≤ cfg.limit t
  /-- A release leaves every other lease. -/
  release : ∀ a s' id, step cfg s a = some s' → releases a = some id →
    (∀ t entry, entry.1 ≠ id → (entry ∈ ((s'.keys t).unexpired s'.now).entries ↔
      entry ∈ ((s.keys t).unexpired s.now).entries)) ∧
    ∀ id', id' ≠ id → s'.requests.get? id' = s.requests.get? id'
  /-- Redis refuses only when `limit` leases are unexpired. -/
  refused : ∀ a s' id r r' error, step cfg s a = some s' → s.requests.get? id = some r →
    r.phase = .asking → s'.requests.get? id = some r' → r'.phase = .refused error →
    ((s.keys r.tenant).unexpired s.now).size = cfg.limit r.tenant
  /-- The count of a process is the number of its own leases. -/
  local_eq : ∀ p t, s.slots p t = s.localLeases p t
  local_nonneg : ∀ p t, 0 ≤ s.slots p t
  local_le : ∀ p t, s.slots p t ≤ cfg.limit t

/-- **Conservation of slots.**  Whatever the order of requests, releases, expiries, failures
and crashes. -/
theorem slots_conserved {as : List Action} (h : Run (system cfg) anyStep initial as s) :
    Conserved cfg as s := by
  have hinv := run_inv h
  refine ⟨?_, ?_, ?_, ?_, hinv.counted, ?_, hinv.within⟩
  · intro t
    rw [(hinv.keys t).unexpired_eq]
    exact (hinv.keys t).within
  · intro hkept
    exact sharedLeases_le hinv (run_backed h hkept)
  · intro a s' id hstep hrelease
    have hcase := step_cases hstep
    exact ⟨fun t entry hne => release_leases hinv hcase hrelease hne t,
      fun id' hne => release_requests hcase hrelease hne⟩
  · intro a s' id r r' error hstep hr hphase hr' hphase'
    exact refused_when_full hinv (step_cases hstep) hr hphase hr' hphase'
  · intro p t
    rw [hinv.counted p t]
    exact Int.natCast_nonneg _

/-- Two processes, one slot, leases of a second. -/
def oneSlot : Config := ⟨fun _ => 1, 1000, fun _ => true⟩

/-- The first lease expires, its slot goes to the second request and the first is released;
the third is refused.  Then the circuit opens, and the count of the process is used. -/
def expiredRun : List Action :=
  [.begin 0 7 1, .acquireRuns 1 true false, .tick 1000, .begin 1 7 2, .acquireRuns 2 true false,
    .release 1, .removeRuns 1 true, .begin 0 7 3, .acquireRuns 3 true true, .redisFails 0,
    .begin 0 7 4, .acquireLocal 4, .probe 0, .release 4]

/-- That run is one, and conserves its slots. -/
theorem slots_conserved_expired :
    ∃ s, Run (system oneSlot) anyStep initial expiredRun s ∧
      s.requests.rows.map (fun row => row.2.phase) = [.released, .held ⟨7, 2, false⟩ 2000,
        .refused (slotsFull 1), .released] ∧ Conserved oneSlot expiredRun s := by
  have hdone : (exec (system oneSlot) initial expiredRun).map
      (fun s => s.requests.rows.map fun row => row.2.phase) =
      some [.released, .held ⟨7, 2, false⟩ 2000, .refused (slotsFull 1), .released] := by
    decide +kernel
  obtain ⟨s, hexec, hphases⟩ := Option.map_eq_some_iff.mp hdone
  exact ⟨s, run_of_exec hexec, hphases, slots_conserved (run_of_exec hexec)⟩

end Usage.Slots
