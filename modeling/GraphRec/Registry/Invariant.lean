import GraphRec.Registry.System

/-!
# One active version, and the deployment that names it

The status of a version and the deployment row say twice which version is
served.  `registry_sound` shows that they agree in every state the registry can
reach, that a failed validation changes nothing but the deployment's health,
and that an archived version stays archived.

What carries the induction is what a request may rely on while it holds the
lifecycle lock (`HoldsLock`): the status its checks saw is still the target's
status, and the active version it read is still the active one.
-/

namespace Registry

open Transition

/-- Is this version active? -/
def IsActive (versions : Table VersionId Version) (id : VersionId) : Prop :=
  ∃ v, versions.get? id = some v ∧ v.status = .active

/-- At most one version is active. -/
def OneActive (versions : Table VersionId Version) : Prop :=
  ∀ ⦃i k⦄, IsActive versions i → IsActive versions k → i = k

/-- The deployment, when there is one, names exactly the active version. -/
def DeploymentAgrees (s : State) : Prop :=
  ∀ d, s.deployment = some d → ∀ id, d.active = some id ↔ IsActive s.versions id

/-- The query for the active version finds it. -/
theorem activeVersion_eq_some {versions : Table VersionId Version} (hone : OneActive versions)
    {id : VersionId} : activeVersion versions = some id ↔ IsActive versions id := by
  constructor
  · intro h
    obtain ⟨row, hfind, rfl⟩ := Option.map_eq_some_iff.mp h
    have hstored := (Table.mem_rows_iff versions).mp (List.mem_of_find?_eq_some hfind)
    exact ⟨row.2, hstored, by simpa using List.find?_some hfind⟩
  · intro hcase
    obtain ⟨v, hv, hactive⟩ := hcase
    have hmem := (Table.mem_rows_iff versions).mpr hv
    cases hfind : activeVersion versions with
    | none =>
        rw [activeVersion, Option.map_eq_none_iff, List.find?_eq_none] at hfind
        exact absurd (by simpa using hactive) (hfind _ hmem)
    | some found =>
        obtain ⟨row, hrow, rfl⟩ := Option.map_eq_some_iff.mp hfind
        have hstored := (Table.mem_rows_iff versions).mp (List.mem_of_find?_eq_some hrow)
        rw [hone ⟨row.2, hstored, by simpa using List.find?_some hrow⟩ ⟨v, hv, hactive⟩]

/-! ## What the writes do to the active version -/

/-- Registering an eligible version changes no active version. -/
theorem isActive_insert {versions : Table VersionId Version} {id : VersionId}
    (hfresh : versions.get? id = none) (new : NewVersion) (now : Time) (k : VersionId) :
    IsActive (versions.insert id (new.row now)) k ↔ IsActive versions k := by
  unfold IsActive
  rw [Table.get?_insert _ hfresh]
  by_cases hk : k = id
  · subst hk
    simp [hfresh, NewVersion.row]
  · rw [if_neg hk]

/-- After an activation the target is the active version. -/
theorem isActive_activate {versions : Table VersionId Version} {target : VersionId}
    (hstored : (versions.get? target).isSome = true) (now : Time) (k : VersionId) :
    IsActive (versions.updateWhere (activate now target)) k ↔ k = target := by
  unfold IsActive
  rw [Table.get?_updateWhere]
  constructor
  · intro hcase
    obtain ⟨v, hv, hactive⟩ := hcase
    obtain ⟨old, _, rfl⟩ := Option.map_eq_some_iff.mp hv
    by_contra hk
    rw [activate, if_neg hk] at hactive
    split at hactive
    · cases hactive
    · next hold => exact hold hactive
  · intro heq
    subst heq
    obtain ⟨old, hold⟩ := Option.isSome_iff_exists.mp hstored
    exact ⟨activate now k k old, by rw [hold]; rfl, by simp [activate]⟩

/-- Archiving a version that is not active changes no active version. -/
theorem isActive_archive {versions : Table VersionId Version} {target : VersionId}
    (hidle : ¬ IsActive versions target) (k : VersionId) :
    IsActive (versions.update target fun v => { v with status := .archived }) k ↔
      IsActive versions k := by
  by_cases hk : k = target
  · subst hk
    constructor
    · intro hcase
      obtain ⟨v, hv, hactive⟩ := hcase
      rw [Table.get?_update, if_pos rfl] at hv
      obtain ⟨_, _, rfl⟩ := Option.map_eq_some_iff.mp hv
      cases hactive
    · exact fun h => absurd h hidle
  · simp [IsActive, Table.get?_update, hk]

/-- What passed the archive checks is not active. -/
theorem not_active_of_archiveCheck {versions : Table VersionId Version} {id : VersionId}
    (h : archiveCheck versions id = .ok ()) : ¬ IsActive versions id := by
  intro hcase
  obtain ⟨v, hv, hactive⟩ := hcase
  simp [archiveCheck, hv, hactive] at h

/-- What passed the activation checks has the required status. -/
theorem required_of_activationCheck {rollback : Bool} {target : Option Version}
    (h : activationCheck rollback target = .proceed) :
    ∃ v, target = some v ∧ v.status = requiredStatus rollback := by
  unfold activationCheck at h
  split at h
  · cases h
  · next v =>
      refine ⟨v, rfl, ?_⟩
      split at h
      · cases h
      · split at h
        · cases h
        · next hstatus => exact not_not.mp hstatus

/-! ## The invariant -/

/-- What a request that holds the lock relies on. -/
def HoldsLock (s : State) (q : Request) : Prop :=
  match q.phase with
  | .validating previousActive =>
      (∃ v, s.versions.get? q.target = some v ∧
        v.status = requiredStatus q.operation.isRollback) ∧
      ∀ id, previousActive = some id ↔ IsActive s.versions id
  | .activating =>
      ∃ v, s.versions.get? q.target = some v ∧
        v.status = requiredStatus q.operation.isRollback
  | .archiving => ¬ IsActive s.versions q.target
  | .waiting | .done _ => True

structure RegistryInv (s : State) : Prop where
  oneActive : OneActive s.versions
  agrees : DeploymentAgrees s
  /-- A request past the checks holds the lock. -/
  locked : ∀ r q, s.requests r = some q → q.phase.holding = true → s.lock = some r
  relies : ∀ r q, s.requests r = some q → HoldsLock s q

/-- A request that holds nothing relies on nothing. -/
theorem holdsLock_of_not_holding {s : State} {q : Request} (h : q.phase.holding = false) :
    HoldsLock s q := by
  unfold HoldsLock
  cases hphase : q.phase <;> simp [hphase, Phase.holding] at h <;> trivial

/-- What is relied on survives a registration. -/
theorem holdsLock_insert {s s' : State} {id : VersionId} {new : NewVersion} {now : Time}
    {q : Request} (hfresh : s.versions.get? id = none)
    (hversions : s'.versions = s.versions.insert id (new.row now)) (h : HoldsLock s q) :
    HoldsLock s' q := by
  have hkept : ∀ v, s.versions.get? q.target = some v →
      s'.versions.get? q.target = some v := by
    intro v hv
    have hne : q.target ≠ id := by
      intro heq
      rw [heq, hfresh] at hv
      cases hv
    rw [hversions, Table.get?_insert _ hfresh, if_neg hne, hv]
  have hactive : ∀ k, IsActive s'.versions k ↔ IsActive s.versions k := by
    intro k
    rw [hversions]
    exact isActive_insert hfresh new now k
  unfold HoldsLock at h ⊢
  cases hphase : q.phase with
  | validating previousActive =>
      rw [hphase] at h
      obtain ⟨⟨v, hv, hstatus⟩, hprevious⟩ := h
      exact ⟨⟨v, hkept v hv, hstatus⟩, fun k => (hprevious k).trans (hactive k).symm⟩
  | activating =>
      rw [hphase] at h
      obtain ⟨v, hv, hstatus⟩ := h
      exact ⟨v, hkept v hv, hstatus⟩
  | archiving =>
      rw [hphase] at h
      exact fun hk => h ((hactive _).mp hk)
  | waiting => trivial
  | done => trivial

section Step

variable {s : State}

/-- A registration keeps the invariant. -/
theorem registryInv_insert (hinv : RegistryInv s) {id : VersionId}
    (hfresh : s.versions.get? id = none) (new : NewVersion) (now : Time) :
    RegistryInv { s with versions := s.versions.insert id (new.row now) } where
  oneActive := by
    intro i k hi hk
    exact hinv.oneActive ((isActive_insert hfresh new now i).mp hi)
      ((isActive_insert hfresh new now k).mp hk)
  agrees := fun d hd k => (hinv.agrees d hd k).trans (isActive_insert hfresh new now k).symm
  locked := hinv.locked
  relies := fun r q hq => holdsLock_insert hfresh rfl (hinv.relies r q hq)

/-- Only the holder of the lock is past the checks: when the lock is free, or
held by `r`, every other request relies on nothing. -/
theorem not_holding_of_lock (hinv : RegistryInv s) {r r' : RequestId} {q : Request}
    (hlock : s.lock = none ∨ s.lock = some r) (hne : r' ≠ r) (hq : s.requests r' = some q) :
    q.phase.holding = false := by
  by_contra hholding
  rw [Bool.not_eq_false] at hholding
  have hown := hinv.locked r' q hq hholding
  rcases hlock with hfree | hheld
  · rw [hfree] at hown; cases hown
  · rw [hheld] at hown; exact hne (Option.some.inj hown).symm

/-- A step that puts request `r` into a phase without the lock, or drops it, keeps
the invariant when the others keep theirs. -/
theorem registryInv_idle {s' : State} {r : RequestId} {idle : Option Request}
    (hinv : RegistryInv s) (hversions : s'.versions = s.versions)
    (hdeployment : s'.deployment = s.deployment)
    (hrequests : s'.requests = Function.update s.requests r idle)
    (hidle : ∀ q, idle = some q → q.phase.holding = false)
    (hlock : ∀ r', r' ≠ r → s.lock = some r' → s'.lock = some r') : RegistryInv s' where
  oneActive := by
    rw [hversions]
    exact hinv.oneActive
  agrees := by
    unfold DeploymentAgrees
    rw [hdeployment, hversions]
    exact hinv.agrees
  locked := by
    intro r' q hq hholding
    rw [hrequests] at hq
    by_cases hr : r' = r
    · subst hr
      rw [Function.update_self] at hq
      rw [hidle q hq] at hholding
      cases hholding
    · rw [Function.update_of_ne hr] at hq
      exact hlock r' hr (hinv.locked r' q hq hholding)
  relies := by
    intro r' q hq
    rw [hrequests] at hq
    by_cases hr : r' = r
    · subst hr
      rw [Function.update_self] at hq
      exact holdsLock_of_not_holding (hidle q hq)
    · rw [Function.update_of_ne hr] at hq
      have hrelies := hinv.relies r' q hq
      unfold HoldsLock at hrelies ⊢
      rwa [hversions]

/-- A step of request `r`, which holds the lock or finds it free, keeps the
invariant when the new versions and deployment agree and the request relies on
what is so. -/
theorem registryInv_own {s' : State} {r : RequestId} {q : Request} (hinv : RegistryInv s)
    (hlock : s.lock = none ∨ s.lock = some r)
    (hrequests : s'.requests = Function.update s.requests r (some q))
    (hone : OneActive s'.versions) (hagrees : DeploymentAgrees s')
    (hlocked : q.phase.holding = true → s'.lock = some r) (hrelies : HoldsLock s' q) :
    RegistryInv s' where
  oneActive := hone
  agrees := hagrees
  locked := by
    intro r' q' hq' hholding
    rw [hrequests] at hq'
    by_cases hr : r' = r
    · subst hr
      rw [Function.update_self, Option.some.injEq] at hq'
      subst hq'
      exact hlocked hholding
    · rw [Function.update_of_ne hr] at hq'
      rw [not_holding_of_lock hinv hlock hr hq'] at hholding
      cases hholding
  relies := by
    intro r' q' hq'
    rw [hrequests] at hq'
    by_cases hr : r' = r
    · subst hr
      rw [Function.update_self, Option.some.injEq] at hq'
      subst hq'
      exact hrelies
    · rw [Function.update_of_ne hr] at hq'
      exact holdsLock_of_not_holding (not_holding_of_lock hinv hlock hr hq')

/-- **Step lemma.**  Every step keeps the invariant. -/
theorem registryInv_step {s' : State} {act : Action} (hinv : RegistryInv s)
    (h : step s act = some s') : RegistryInv s' := by
  cases step_cases h with
  | register hfresh => exact registryInv_insert hinv hfresh _ _
  | train hfresh => exact registryInv_insert hinv hfresh _ _
  | begin =>
      refine registryInv_idle hinv rfl rfl rfl ?_ fun _ _ hheld => hheld
      intro _ hcase
      cases hcase
      rfl
  | @archiving r q hq hlock hphase hop hcheck =>
      exact registryInv_own hinv (.inl hlock) rfl hinv.oneActive hinv.agrees
        (fun _ => rfl) (not_active_of_archiveCheck hcheck)
  | @validating r q hq hlock hphase hop hcheck =>
      refine registryInv_own hinv (.inl hlock) rfl hinv.oneActive hinv.agrees (fun _ => rfl) ?_
      exact ⟨required_of_activationCheck hcheck,
        fun id => activeVersion_eq_some hinv.oneActive⟩
  | @answered r q result hq hlock hphase =>
      exact registryInv_own hinv (.inl hlock) rfl hinv.oneActive hinv.agrees
        (fun hholding => by cases hholding) trivial
  | @validated r evidence q previousActive target hq hphase htarget hok =>
      have hlock := hinv.locked r q hq (by rw [hphase]; rfl)
      have hrelies := hinv.relies r q hq
      rw [HoldsLock, hphase] at hrelies
      exact registryInv_own hinv (.inr hlock) rfl hinv.oneActive hinv.agrees
        (fun _ => hlock) hrelies.1
  | @degraded r evidence q previousActive target e hq hphase htarget herror =>
      have hlock := hinv.locked r q hq (by rw [hphase]; rfl)
      have hrelies := hinv.relies r q hq
      rw [HoldsLock, hphase] at hrelies
      refine registryInv_own hinv (.inr hlock) rfl hinv.oneActive ?_
        (fun hholding => by cases hholding) trivial
      intro d hcase id
      cases hcase
      exact hrelies.2 id
  | @activated r q hq hphase =>
      have hlock := hinv.locked r q hq (by rw [hphase]; rfl)
      have hrelies := hinv.relies r q hq
      rw [HoldsLock, hphase] at hrelies
      obtain ⟨v, hv, _⟩ := hrelies
      have hactive := isActive_activate (Option.isSome_of_mem hv) q.now
      refine registryInv_own hinv (.inr hlock) rfl ?_ ?_
        (fun hholding => by cases hholding) trivial
      · intro i k hi hk
        rw [(hactive i).mp hi, (hactive k).mp hk]
      · intro d hcase id
        cases hcase
        refine Iff.trans ?_ (hactive id).symm
        simp [setDeployment, eq_comm]
  | @archived r q hq hphase =>
      have hlock := hinv.locked r q hq (by rw [hphase]; rfl)
      have hidle := hinv.relies r q hq
      rw [HoldsLock, hphase] at hidle
      refine registryInv_own hinv (.inr hlock) rfl ?_ ?_
        (fun hholding => by cases hholding) trivial
      · intro i k hi hk
        exact hinv.oneActive ((isActive_archive hidle i).mp hi) ((isActive_archive hidle k).mp hk)
      · exact fun d hd id => (hinv.agrees d hd id).trans (isActive_archive hidle id).symm
  | abort =>
      refine registryInv_idle hinv rfl rfl rfl (fun _ h => by cases h) ?_
      intro r' hr hheld
      simp [hheld, hr]

end Step

/-- **Step lemma.**  An archived version stays archived. -/
theorem archived_step {s s' : State} {act : Action} (hinv : RegistryInv s)
    (h : step s act = some s') {id : VersionId} {v : Version}
    (hv : s.versions.get? id = some v) (harchived : v.status = .archived) :
    ∃ v', s'.versions.get? id = some v' ∧ v'.status = .archived := by
  cases step_cases h with
  | @register _ k new now hfresh | @train k new now hfresh =>
      have hne : id ≠ k := by
        intro heq
        subst heq
        rw [hfresh] at hv
        cases hv
      exact ⟨v, by simp only [Table.get?_insert _ hfresh, if_neg hne, hv], harchived⟩
  | @activated r q hq hphase =>
      -- The target is eligible or retired, so it is another version.
      have hrelies := hinv.relies r q hq
      rw [HoldsLock, hphase] at hrelies
      obtain ⟨target, htarget, hstatus⟩ := hrelies
      have hne : id ≠ q.target := by
        intro heq
        subst heq
        obtain rfl : v = target := Option.some.inj (hv.symm.trans htarget)
        rw [harchived] at hstatus
        unfold requiredStatus at hstatus
        split at hstatus <;> cases hstatus
      refine ⟨activate q.now q.target id v, by simp [hv], ?_⟩
      simp [activate, hne, harchived]
  | @archived r q hq hphase =>
      by_cases hid : id = q.target
      · subst hid
        exact ⟨{ v with status := .archived }, by simp [Table.get?_update, hv], rfl⟩
      · exact ⟨v, by simp [Table.get?_update, hid, hv], harchived⟩
  | _ => exact ⟨v, hv, harchived⟩

/-- The invariant holds in every reachable state. -/
theorem registryInv_reachable {s : State} (hs : Reachable system anyStep s) :
    RegistryInv s := by
  refine Reachable.invariant (P := RegistryInv) ?_ ?_ hs
  · refine ⟨?_, ?_, ?_, ?_⟩
    · intro i k hcase
      obtain ⟨v, hv, _⟩ := hcase
      simp [system, initial] at hv
    · intro d hd
      cases hd
    · intro r q hq
      cases hq
    · intro r q hq
      cases hq
  · exact fun s act s' hinv _ hstep => registryInv_step hinv hstep

/-- What a failed validation of `target` leaves behind: all versions as they were,
and a degraded deployment that still names the active one. -/
structure Degraded (s s' : State) (target : VersionId) : Prop where
  versions : s'.versions = s.versions
  served : activeVersion s'.versions = activeVersion s.versions
  deployment : ∃ d, s'.deployment = some d ∧ d.status = .degraded ∧
    d.desired = some target ∧ d.active = activeVersion s.versions ∧
    d.failureReason = some "model_not_ready"

/-- A validation that fails, whichever check it is, is always possible where a
request validates, and leaves exactly that behind. -/
theorem degraded_of_failed_validation {s : State} (hinv : RegistryInv s) {r : RequestId}
    {q : Request} {previousActive : Option VersionId} {v : Version} {evidence : Evidence}
    {e : ApiError} (hq : s.requests r = some q) (hphase : q.phase = .validating previousActive)
    (hv : s.versions.get? q.target = some v)
    (herror : validateActivation evidence v = .error e) :
    ∃ s', step s (.validate r evidence) = some s' ∧ Degraded s s' q.target := by
  have hrelies := hinv.relies r q hq
  rw [HoldsLock, hphase] at hrelies
  have hprevious : previousActive = activeVersion s.versions := by
    apply Option.ext
    intro id
    exact (hrelies.2 id).trans (activeVersion_eq_some hinv.oneActive).symm
  have hstep : step s (.validate r evidence) = some { s.finish r q (.error e) with
      deployment := some (setDeployment s.deployment q.target previousActive
        .degraded (some "model_not_ready") q.now) } := by
    simp only [step, stepValidate, hq, hphase, hv, herror]
  exact ⟨_, hstep, rfl, rfl, _, rfl, rfl, rfl, hprevious, rfl⟩

/-- **The registry is sound** along every run: at most one version is active, the
deployment names it, a failed validation changes nothing but the deployment's
health, and archived versions stay archived. -/
theorem registry_sound {s t : State} {as : List Action} (hs : Reachable system anyStep s)
    (hrun : Run system anyStep s as t) :
    OneActive t.versions ∧ DeploymentAgrees t ∧
      (∀ r q previousActive v evidence e, t.requests r = some q →
        q.phase = .validating previousActive → t.versions.get? q.target = some v →
        validateActivation evidence v = .error e →
        ∃ t', step t (.validate r evidence) = some t' ∧ Degraded t t' q.target) ∧
      ∀ id v, s.versions.get? id = some v → v.status = .archived →
        ∃ v', t.versions.get? id = some v' ∧ v'.status = .archived := by
  have hinv := registryInv_reachable (hs.run hrun)
  refine ⟨hinv.oneActive, hinv.agrees, ?_, ?_⟩
  · intro r q previousActive v evidence e hq hphase hv herror
    exact degraded_of_failed_validation hinv hq hphase hv herror
  · intro id v hv harchived
    have hend : RegistryInv t ∧ ∃ v', t.versions.get? id = some v' ∧ v'.status = .archived := by
      refine Run.invariant (P := fun u => RegistryInv u ∧
          ∃ v', u.versions.get? id = some v' ∧ v'.status = .archived)
        ?_ hrun ⟨registryInv_reachable hs, v, hv, harchived⟩
      intro u act u' hnow _ hstep
      obtain ⟨hu, v', hv', harchived'⟩ := hnow
      exact ⟨registryInv_step hu hstep, archived_step hu hstep hv' harchived'⟩
    exact hend.2

/-- A development placeholder with an index of three points, and one without. -/
def indexedEvidence : Evidence := ⟨false, false, none, none, [], some 3⟩
def emptyEvidence : Evidence := ⟨false, false, none, none, [], some 0⟩

/-- Version 1 is activated, version 2 archived; then version 3 is to be activated
and waits for its validation. -/
def pendingRun : List Action :=
  [.register false 1 ⟨"one", "placeholder", none⟩ 1, .begin 1 .activate 1 2, .acquire 1,
    .validate 1 indexedEvidence, .commit 1, .register false 2 ⟨"two", "placeholder", none⟩ 3,
    .begin 2 .archive 2 4, .acquire 2, .commit 2,
    .train 3 ⟨"three", "placeholder", none⟩ 5, .begin 3 .activate 3 6, .acquire 3]

/-- The validation finds an empty index: version 1 stays active, the deployment is
degraded, and version 2 stays archived. -/
theorem registry_sound_pending :
    ∃ t t', Run system anyStep initial pendingRun t ∧
      step t (.validate 3 emptyEvidence) = some t' ∧ Degraded t t' 3 ∧
      activeVersion t'.versions = some 1 ∧ OneActive t.versions := by
  have hdone : (exec system initial pendingRun).map (fun t =>
      (activeVersion t.versions, (t.requests 3).map (fun q => (q.phase, q.target)),
        (t.versions.get? 3).map fun v => decide (validateActivation emptyEvidence v =
          .error .modelNotReady))) =
      some (some 1, some (.validating (some 1), 3), some true) := by decide
  obtain ⟨t, hexec, ht⟩ := Option.map_eq_some_iff.mp hdone
  simp only [Prod.mk.injEq] at ht
  obtain ⟨hactive, hq, hv⟩ := ht
  obtain ⟨q, hq, hcols⟩ := Option.map_eq_some_iff.mp hq
  obtain ⟨v, hv, herror⟩ := Option.map_eq_some_iff.mp hv
  simp only [Prod.mk.injEq] at hcols
  have hrun := run_of_exec hexec
  obtain ⟨hone, _, hfailed, _⟩ := registry_sound ⟨[], .nil _⟩ hrun
  obtain ⟨t', hstep, hdegraded⟩ := hfailed 3 q (some 1) v emptyEvidence .modelNotReady hq
    hcols.1 (by rw [hcols.2]; exact hv) (by simpa using herror)
  rw [hcols.2] at hdegraded
  exact ⟨t, t', hrun, hstep, hdegraded, hdegraded.served.trans hactive, hone⟩

end Registry
