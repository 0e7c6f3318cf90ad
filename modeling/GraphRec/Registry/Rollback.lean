import GraphRec.Registry.Invariant

/-!
# The rollback target

While a version is active, the one it replaced should stay retired, so that the
operator can roll back to it.  `archive_model_version` protects the retired
version with the latest `activated_at`; an activation stamps its target with the
time it read before it waited for the lifecycle lock.  Where two activations
commit in the other order than they read the clock, the stamp of the active
version is older than that of a retired one, and after the next activation the
protected version is not the one that was active last.

`rollback_target_retained` shows that this is the only way: when every activation
retires the version with the latest stamp, the replaced version keeps its status
until the next activation.
-/

namespace Registry

open Transition

/-- Does this step commit an activation or a rollback? -/
def activates (s : State) : Action → Bool
  | .commit r =>
      match s.requests r with
      | some q => decide (q.phase = .activating)
      | none => false
  | _ => false

/-- Is the active version, when an activation of `target` retires it, stamped later
than every other version that is retired then? -/
def latestRetired (versions : Table VersionId Version) (target : VersionId) : Bool :=
  versions.rows.all fun active =>
    decide (active.2.status ≠ .active) ||
      versions.rows.all fun old =>
        decide (old.2.status ≠ .retired) || decide (old.1 = target) ||
          decide (old.2.recency < active.2.recency)

/-- The steps at which an activation, if it commits one, retires the version with
the latest stamp. -/
def retiresLatest (s : State) : Action → Bool
  | .commit r =>
      match s.requests r with
      | some q => decide (q.phase ≠ .activating) || latestRetired s.versions q.target
      | none => true
  | _ => true

/-- The steps of a strictly increasing clock. -/
def readsClock (s : State) : Action → Bool
  | .register _ _ _ now => decide (s.clock < now)
  | .train _ _ now => decide (s.clock < now)
  | .begin _ _ _ now => decide (s.clock < now)
  | .acquire _ | .validate _ _ | .commit _ | .abort _ => true

/-- Would the rollback to `p` go on to validate its artifact? -/
def canRollBack (s : State) (p : VersionId) : Prop :=
  (∃ v, s.versions.get? p = some v ∧ v.status = .retired) ∧
    activationCheck true (s.versions.get? p) = .proceed

/-- A retired version passes the checks of a rollback. -/
theorem canRollBack_of_retired {s : State} {p : VersionId} {v : Version}
    (hv : s.versions.get? p = some v) (hretired : v.status = .retired) :
    canRollBack s p := by
  refine ⟨⟨v, hv, hretired⟩, ?_⟩
  rw [hv, activationCheck, hretired]
  simp [requiredStatus]

/-- What the condition says of the stored rows. -/
theorem latestRetired_spec {versions : Table VersionId Version} {target : VersionId}
    (h : latestRetired versions target = true) {p k : VersionId} {v w : Version}
    (hv : versions.get? p = some v) (hactive : v.status = .active)
    (hw : versions.get? k = some w) (hretired : w.status = .retired) (hk : k ≠ target) :
    w.recency < v.recency := by
  have hrow := List.all_eq_true.mp h _ ((Table.mem_rows_iff versions).mpr hv)
  simp only [hactive, ne_eq, not_true_eq_false, decide_false, Bool.false_or] at hrow
  have hold := List.all_eq_true.mp hrow _ ((Table.mem_rows_iff versions).mpr hw)
  simpa [hretired, hk] using hold

/-- The retired version stamped later than all the others is the protected one. -/
theorem protectedVersion_eq {versions : Table VersionId Version} {p : VersionId} {v : Version}
    (hv : versions.get? p = some v) (hretired : v.status = .retired)
    (hlatest : ∀ k w, k ≠ p → versions.get? k = some w → w.status = .retired →
      w.recency < v.recency) : protectedVersion versions = some p := by
  have hmem : (p, v) ∈ versions.rows.filter fun row => decide (row.2.status = .retired) := by
    rw [List.mem_filter]
    exact ⟨(Table.mem_rows_iff versions).mpr hv, by simpa using hretired⟩
  unfold protectedVersion
  cases hmax : (versions.rows.filter fun row => decide (row.2.status = .retired)).argmax
      fun row => row.2.recency with
  | none =>
      rw [List.argmax_eq_none] at hmax
      rw [hmax] at hmem
      cases hmem
  | some found =>
      have hfound := List.mem_filter.mp (List.argmax_mem hmax)
      have hle : v.recency ≤ found.2.recency :=
        List.le_of_mem_argmax (f := fun row : VersionId × Version => row.2.recency) hmem hmax
      by_cases hk : found.1 = p
      · rw [Option.map_some, hk]
      · have hstored : versions.get? found.1 = some found.2 :=
          (Table.mem_rows_iff versions).mp hfound.1
        have hlt := hlatest found.1 found.2 hk hstored (by simpa using hfound.2)
        exact absurd hle (not_le_of_gt hlt)

/-! ## The replaced version, from one activation to the next -/

/-- Version `p` was replaced by the active one: it is retired, stamped later than all
other retired versions, and no request that passed the archive checks is about to
archive it. -/
structure Protects (s : State) (p : VersionId) : Prop where
  served : ∃ a, IsActive s.versions a
  target : ∃ v, s.versions.get? p = some v ∧ v.status = .retired ∧
    ∀ k w, k ≠ p → s.versions.get? k = some w → w.status = .retired → w.recency < v.recency
  spared : ∀ r q, s.requests r = some q → q.phase = .archiving → q.target ≠ p

section Step

variable {s s' : State} {p : VersionId}

/-- A registration adds an eligible row and leaves the protection. -/
theorem protects_insert (h : Protects s p) {id : VersionId} (hfresh : s.versions.get? id = none)
    (new : NewVersion) (now : Time) :
    Protects { s with versions := s.versions.insert id (new.row now) } p where
  served := by
    obtain ⟨a, ha⟩ := h.served
    exact ⟨a, (isActive_insert hfresh new now a).mpr ha⟩
  target := by
    obtain ⟨v, hv, hretired, hlatest⟩ := h.target
    have hne : p ≠ id := by
      intro heq
      rw [heq, hfresh] at hv
      cases hv
    refine ⟨v, ?_, hretired, ?_⟩
    · rw [Table.get?_insert _ hfresh, if_neg hne, hv]
    · intro k w hk hw hstatus
      rw [Table.get?_insert _ hfresh] at hw
      by_cases hid : k = id
      · rw [if_pos hid] at hw
        obtain rfl := Option.some.inj hw
        cases hstatus
      · rw [if_neg hid] at hw
        exact hlatest k w hk hw hstatus
  spared := h.spared

/-- A step that leaves the rows alone and moves request `r` only keeps the protection
when the request is not about to archive the protected version. -/
theorem protects_move (h : Protects s p) {r : RequestId} {moved : Option Request}
    (hversions : s'.versions = s.versions)
    (hrequests : s'.requests = Function.update s.requests r moved)
    (hmoved : ∀ q, moved = some q → q.phase = .archiving → q.target ≠ p) : Protects s' p where
  served := by
    rw [hversions]
    exact h.served
  target := by
    rw [hversions]
    exact h.target
  spared := by
    intro r' q hq hphase
    rw [hrequests] at hq
    by_cases hr : r' = r
    · subst hr
      rw [Function.update_self] at hq
      exact hmoved q hq hphase
    · rw [Function.update_of_ne hr] at hq
      exact h.spared r' q hq hphase

/-- The archive checks refuse the protected version. -/
theorem ne_of_archiveCheck (h : Protects s p) (hone : OneActive s.versions) {id : VersionId}
    (hcheck : archiveCheck s.versions id = .ok ()) : id ≠ p := by
  intro heq
  subst heq
  obtain ⟨v, hv, hretired, hlatest⟩ := h.target
  obtain ⟨a, ha⟩ := h.served
  have hserved : activeVersion s.versions = some a := (activeVersion_eq_some hone).mpr ha
  simp [archiveCheck, hv, hretired, hserved, protectedVersion_eq hv hretired hlatest] at hcheck

/-- Archiving another version keeps the protection. -/
theorem protects_archive (h : Protects s p) {r : RequestId} {q : Request}
    (hq : s.requests r = some q) (hphase : q.phase = .archiving)
    (hidle : ¬ IsActive s.versions q.target) :
    Protects { s.finish r q (.ok ()) with
      versions := s.versions.update q.target fun v => { v with status := .archived } } p where
  served := by
    obtain ⟨a, ha⟩ := h.served
    exact ⟨a, (isActive_archive hidle a).mpr ha⟩
  target := by
    obtain ⟨v, hv, hretired, hlatest⟩ := h.target
    have hne := h.spared r q hq hphase
    refine ⟨v, ?_, hretired, ?_⟩
    · rw [Table.get?_update, if_neg hne.symm, hv]
    · intro k w hk hw hstatus
      rw [Table.get?_update] at hw
      by_cases hid : k = q.target
      · rw [if_pos hid] at hw
        obtain ⟨_, _, rfl⟩ := Option.map_eq_some_iff.mp hw
        cases hstatus
      · rw [if_neg hid] at hw
        exact hlatest k w hk hw hstatus
  spared := by
    have hfinished : Protects (s.finish r q (.ok ())) p :=
      protects_move h rfl rfl fun _ hcase harchiving => by cases hcase; cases harchiving
    exact hfinished.spared

/-- **Step lemma.**  Until the next activation the replaced version stays protected. -/
theorem protects_step (hinv : RegistryInv s) (h : Protects s p) {act : Action}
    (hquiet : activates s act = false) (hstep : step s act = some s') : Protects s' p := by
  cases step_cases hstep with
  | register hfresh => exact protects_insert h hfresh _ _
  | train hfresh => exact protects_insert h hfresh _ _
  | begin =>
      refine protects_move h rfl rfl ?_
      intro q hcase harchiving
      cases hcase
      cases harchiving
  | @archiving r q hq hlock hphase hop hcheck =>
      refine protects_move h rfl rfl ?_
      intro q' hcase _
      cases hcase
      exact ne_of_archiveCheck h hinv.oneActive hcheck
  | validating | answered | validated | degraded =>
      refine protects_move h rfl rfl ?_
      intro q' hcase harchiving
      cases hcase
      cases harchiving
  | @activated r q hq hphase => simp [activates, hq, hphase] at hquiet
  | @archived r q hq hphase =>
      have hidle := hinv.relies r q hq
      rw [HoldsLock, hphase] at hidle
      exact protects_archive h hq hphase hidle
  | abort =>
      refine protects_move h rfl rfl ?_
      intro q hcase
      cases hcase

/-- **An activation protects what it replaces**, when that version has the latest
stamp. -/
theorem protects_activation (hinv : RegistryInv s) {r : RequestId}
    (hactivates : activates s (.commit r) = true)
    (hlatest : retiresLatest s (.commit r) = true) (hstep : step s (.commit r) = some s')
    (hprevious : activeVersion s.versions = some p) : Protects s' p := by
  cases step_cases hstep with
  | @archived _ q hq hphase => simp [activates, hq, hphase] at hactivates
  | @activated _ q hq hphase =>
      have hlock := hinv.locked r q hq (by rw [hphase]; rfl)
      have hrelies := hinv.relies r q hq
      rw [HoldsLock, hphase] at hrelies
      obtain ⟨target, htarget, hstatus⟩ := hrelies
      obtain ⟨v, hv, hactive⟩ := (activeVersion_eq_some hinv.oneActive).mp hprevious
      -- The target is eligible or retired, so it is not the version it replaces.
      have hne : p ≠ q.target := by
        intro heq
        subst heq
        obtain rfl : v = target := Option.some.inj (hv.symm.trans htarget)
        rw [hactive] at hstatus
        unfold requiredStatus at hstatus
        split at hstatus <;> cases hstatus
      have hcheck : latestRetired s.versions q.target = true := by
        simpa [retiresLatest, hq, hphase] using hlatest
      refine ⟨⟨q.target, (isActive_activate (Option.isSome_of_mem htarget) q.now _).mpr rfl⟩,
        ⟨{ v with status := .retired }, ?_, rfl, ?_⟩, ?_⟩
      · simp [hv, activate, hne, hactive]
      · intro k w hk hw hretired
        rw [Table.get?_updateWhere, Option.map_eq_some_iff] at hw
        obtain ⟨old, hold, rfl⟩ := hw
        have hkt : k ≠ q.target := by
          intro heq
          rw [activate, if_pos heq] at hretired
          cases hretired
        have hnot : old.status ≠ .active := by
          intro holdActive
          exact hk (hinv.oneActive ⟨old, hold, holdActive⟩ ⟨v, hv, hactive⟩)
        rw [activate, if_neg hkt, if_neg hnot] at hretired ⊢
        have hlt : old.recency < v.recency :=
          latestRetired_spec hcheck hv hactive hold hretired hkt
        exact hlt
      · -- The activation held the lock, so no other request is archiving.
        intro r' q' hq' harchiving
        simp only [State.finish_requests] at hq'
        rcases stored_cases hq' with ⟨_, rfl⟩ | ⟨hr, hq'⟩
        · cases harchiving
        · have hidle := not_holding_of_lock hinv (.inr hlock) hr hq'
          rw [harchiving] at hidle
          cases hidle

end Step

/-! ## Every run -/

/-- What is promised of the runs whose steps meet `ok`: from an activation on, and
until the next one, the version it replaced can be rolled back to. -/
def RollbackTargetRetained (ok : State → Action → Prop) : Prop :=
  ∀ before s r s' after t p, Run system ok initial before s →
    ok s (.commit r) → activates s (.commit r) = true → step s (.commit r) = some s' →
    Run system ok s' after t → countSteps system activates s' after = 0 →
    activeVersion s.versions = some p → canRollBack t p

/-- **The rollback target is retained** as long as every activation retires the
version with the latest stamp. -/
theorem rollback_target_retained {before after : List Action} {s s' t : State}
    {r : RequestId} {p : VersionId}
    (hbefore : Run system (fun s act => retiresLatest s act = true) initial before s)
    (hlatest : retiresLatest s (.commit r) = true)
    (hactivates : activates s (.commit r) = true) (hstep : step s (.commit r) = some s')
    (hafter : Run system (fun s act => retiresLatest s act = true) s' after t)
    (hquiet : countSteps system activates s' after = 0)
    (hprevious : activeVersion s.versions = some p) : canRollBack t p := by
  have hinv : RegistryInv s := by
    refine hbefore.invariant (P := RegistryInv) ?_ (registryInv_reachable ⟨[], .nil _⟩)
    exact fun _ _ _ hnow _ hnext => registryInv_step hnow hnext
  have hstart := protects_activation hinv hactivates hlatest hstep hprevious
  have hend : RegistryInv t ∧ Protects t p := by
    refine hafter.quiet (P := fun u => RegistryInv u ∧ Protects u p) activates ?_ hquiet
      ⟨registryInv_step hinv hstep, hstart⟩
    intro u act u' hnow _ hother hnext
    exact ⟨registryInv_step hnow.1 hnext, protects_step hnow.1 hnow.2 hother hnext⟩
  obtain ⟨v, hv, hretired, _⟩ := hend.2.target
  exact canRollBack_of_retired hv hretired

/-- Versions 1 and 2 are activated in the order in which they read the clock. -/
def orderedRun : List Action :=
  [.register false 1 ⟨"one", "placeholder", none⟩ 1,
    .register false 2 ⟨"two", "placeholder", none⟩ 2, .begin 1 .activate 1 4, .acquire 1,
    .validate 1 indexedEvidence, .commit 1, .begin 2 .activate 2 5, .acquire 2,
    .validate 2 indexedEvidence]

/-- A request to archive the replaced version 1, which is refused. -/
def archiveRun : List Action := [.begin 4 .archive 1 7, .acquire 4]

/-- Version 1 was replaced by version 2 in order: after the request to archive it, it
can still be rolled back to. -/
theorem rollback_target_retained_ordered :
    ∃ s s' t, Run system (fun s act => retiresLatest s act = true) initial orderedRun s ∧
      step s (.commit 2) = some s' ∧
      Run system (fun s act => retiresLatest s act = true) s' archiveRun t ∧
      canRollBack t 1 := by
  have hdone : ((execWhile system retiresLatest initial orderedRun).bind fun s =>
      (step s (.commit 2)).bind fun s' =>
      (execWhile system retiresLatest s' archiveRun).map fun _ =>
        (retiresLatest s (.commit 2), activates s (.commit 2),
          countSteps system activates s' archiveRun, activeVersion s.versions)) =
      some (true, true, 0, some 1) := by decide
  obtain ⟨s, hbefore, hdone⟩ := Option.bind_eq_some_iff.mp hdone
  obtain ⟨s', hstep, hdone⟩ := Option.bind_eq_some_iff.mp hdone
  obtain ⟨t, hafter, hdone⟩ := Option.map_eq_some_iff.mp hdone
  simp only [Prod.mk.injEq] at hdone
  obtain ⟨hlatest, hactivates, hquiet, hprevious⟩ := hdone
  have hbefore := run_of_execWhile hbefore
  have hafter := run_of_execWhile hafter
  exact ⟨s, s', t, hbefore, hstep, hafter,
    rollback_target_retained hbefore hlatest hactivates hstep hafter hquiet hprevious⟩

/-- The activation of version 1 reads the clock first and commits second; then the
activation of version 3 is about to commit. -/
def overtakenRun : List Action :=
  [.register false 1 ⟨"one", "placeholder", none⟩ 1,
    .register false 2 ⟨"two", "placeholder", none⟩ 2,
    .register false 3 ⟨"three", "placeholder", none⟩ 3,
    .begin 1 .activate 1 4, .begin 2 .activate 2 5,
    .acquire 2, .validate 2 indexedEvidence, .commit 2,
    .acquire 1, .validate 1 indexedEvidence, .commit 1,
    .begin 3 .activate 3 6, .acquire 3, .validate 3 indexedEvidence]

/-- The version it replaced is archived. -/
def archivePreviousRun : List Action := [.begin 4 .archive 1 7, .acquire 4, .commit 4]

/-- **A strictly increasing clock is not enough**: version 1, active until version 3
replaces it, is archived. -/
theorem rollback_target_archived :
    ¬ RollbackTargetRetained fun s act => readsClock s act = true := by
  intro hretained
  have hdone : ((execWhile system readsClock initial overtakenRun).bind fun s =>
      (step s (.commit 3)).bind fun s' =>
      (execWhile system readsClock s' archivePreviousRun).map fun t =>
        (readsClock s (.commit 3), activates s (.commit 3),
          countSteps system activates s' archivePreviousRun, activeVersion s.versions,
          activationCheck true (t.versions.get? 1))) =
      some (true, true, 0, some 1, .refused (.modelNotEligible .retired)) := by decide
  obtain ⟨s, hbefore, hdone⟩ := Option.bind_eq_some_iff.mp hdone
  obtain ⟨s', hstep, hdone⟩ := Option.bind_eq_some_iff.mp hdone
  obtain ⟨t, hafter, hdone⟩ := Option.map_eq_some_iff.mp hdone
  simp only [Prod.mk.injEq] at hdone
  obtain ⟨hclock, hactivates, hquiet, hprevious, hrefused⟩ := hdone
  have hroll := hretained overtakenRun s 3 s' archivePreviousRun t 1
    (run_of_execWhile hbefore) hclock hactivates hstep (run_of_execWhile hafter) hquiet hprevious
  rw [hroll.2] at hrefused
  cases hrefused

end Registry
