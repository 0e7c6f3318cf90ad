import GraphRec.Ingestion.Writes

/-!
# The ingestion paths as concurrent transactions

Every request of a tenant is one transaction, and any number of them run at once.  `Keeps`
is what the advisory locks protect; it is not the same for every lock:

* under `accepted_events`, the events, the batches and the rows of the ledger for events;
* under `stored_products`, which products there are (not what they say, as
  `disable_product` takes no lock), and the syncs;
* under `active_model_versions`, that the retained versions do not become more;
* under the lifecycle lock, the versions that are registered.
-/

namespace Ingestion

open Transactions

/-- The requests. -/
inductive Op
  | submitEvent (p : EventSubmit)
  | submitBatch (id : ℕ) (p : EventBatchSubmit)
  | loadInteractionLog (id : ℕ) (rows : List Interaction)
  | bulkUpsert (id : ℕ) (p : ProductBulkUpsertRequest)
  | updateProduct (externalId : String) (p : ProductUpsert)
  | disableProduct (externalId : String)
  | registerModelVersion (production : Bool) (id : VersionId) (new : Registry.NewVersion)
      (bytes : ℕ)
  | createTrainingJob (r : TrainingRequest)
  | finishTraining (jobId : JobId) (versionId : VersionId) (new : Registry.NewVersion)
      (bytes cpuSeconds : ℕ)
  | activateModelVersion (target : VersionId) (rollback : Bool) (evidence : Registry.Evidence)
  | archiveModelVersion (target : VersionId)
  /-- Claims, progress, cancellations and failures of training jobs. -/
  | changeJobs (jobs : List TrainingJob)

/-- The transaction of a request. -/
def program (cfg : Config) : Op → Transaction
  | .submitEvent p => submitEvent cfg p
  | .submitBatch id p => submitBatch cfg id p
  | .loadInteractionLog id rows => loadInteractionLog cfg id rows
  | .bulkUpsert id p => bulkUpsert cfg id p
  | .updateProduct externalId p => updateProduct cfg externalId p
  | .disableProduct externalId => disableProduct externalId
  | .registerModelVersion production id new bytes =>
      registerModelVersion cfg production id new bytes
  | .createTrainingJob r => createTrainingJob cfg r
  | .finishTraining jobId versionId new bytes cpuSeconds =>
      finishTraining cfg jobId versionId new bytes cpuSeconds
  | .activateModelVersion target rollback evidence =>
      activateModelVersion target rollback evidence
  | .archiveModelVersion target => archiveModelVersion target
  | .changeJobs jobs => .commit (fun s => .ok { s with jobs := jobs }) (.jobs jobs)

abbrev Result := Except Constraint Answer
abbrev SystemState := Transactions.State LockKey Store Note Constraint Answer Op
abbrev LogEntry := Transactions.Entry Store Note Constraint Answer Op

/-! ## What the locks protect -/

/-- The rows of the ledger for a dimension. -/
def Store.ledger (s : Store) (d : Dimension) : List UsageEvent :=
  s.usage.filter fun row => decide (row.usageType = d)

/-- The products there are. -/
def Store.productKeys (s : Store) : List String := s.products.rows.map Prod.fst

/-- What a lock protects is as it was. -/
def Keeps : LockKey → Store → Store → Prop
  | .dimension .acceptedEvents, s, s' => s'.events = s.events ∧ s'.batches = s.batches ∧
      s'.ledger .acceptedEvents = s.ledger .acceptedEvents
  | .dimension .storedProducts, s, s' => s'.productKeys = s.productKeys ∧ s'.syncs = s.syncs
  | .dimension .activeModelVersions, s, s' => retainedVersions s' ≤ retainedVersions s
  | .lifecycle, s, s' => ∀ id row, s.versions.get? id = some row → s'.versions.get? id = some row
  | .dimension .trainingJobs, _, _ | .dimension .trainingCpuSeconds, _, _
  | .dimension .artifactStorageBytes, _, _ | .trainingTenant, _, _ | .trainingRequest _, _, _ =>
      True

/-- No event is booked later than now. -/
def Dated (s : Store) (now : Time) : Prop :=
  ∀ row ∈ s.ledger .acceptedEvents, row.occurredAt ≤ now

theorem rules : Rules Keeps anyChange Dated where
  refl := by
    intro key s
    cases key with
    | dimension d => cases d <;> simp [Keeps]
    | lifecycle => exact fun _ _ h => h
    | trainingTenant | trainingRequest => trivial
  trans := by
    intro key s s' s'' h h'
    cases key with
    | dimension d =>
        cases d with
        | acceptedEvents =>
            exact ⟨h'.1.trans h.1, h'.2.1.trans h.2.1, h'.2.2.trans h.2.2⟩
        | storedProducts => exact ⟨h'.1.trans h.1, h'.2.trans h.2⟩
        | activeModelVersions => exact Nat.le_trans h' h
        | trainingJobs | trainingCpuSeconds | artifactStorageBytes => trivial
    | lifecycle => exact fun id row hrow => h' id row (h id row hrow)
    | trainingTenant | trainingRequest => trivial
  grows_refl := fun _ => trivial
  grows_trans := fun _ _ _ _ _ => trivial
  tick := fun _ _ _ h hle row hrow => Nat.le_trans (h row hrow) hle

/-- What a commit must leave alone, lock by lock. -/
theorem keeps_frame {s s' : Store} {held : List LockKey}
    (hevents : .dimension .acceptedEvents ∉ held → Keeps (.dimension .acceptedEvents) s s')
    (hproducts : .dimension .storedProducts ∉ held → Keeps (.dimension .storedProducts) s s')
    (hretained : .dimension .activeModelVersions ∉ held → retainedVersions s' ≤ retainedVersions s)
    (hversions : .lifecycle ∉ held → Keeps .lifecycle s s') :
    ∀ key, key ∉ held → Keeps key s s' := by
  intro key hkey
  cases key with
  | dimension d =>
      cases d with
      | acceptedEvents => exact hevents hkey
      | storedProducts => exact hproducts hkey
      | activeModelVersions => exact hretained hkey
      | trainingJobs | trainingCpuSeconds | artifactStorageBytes => trivial
  | lifecycle => exact hversions hkey
  | trainingTenant | trainingRequest => trivial

/-- What a transaction may find later. -/
abbrev Since (held : List LockKey) (s : Store) (now : Time) (s' : Store) (now' : Time) : Prop :=
  Later Keeps anyChange Dated held s now s' now'

/-- The transaction ends as `good` says. -/
abbrev Ends (p : Transaction) (good : List Note → Store → Time → Result → Store → Prop)
    (held : List LockKey) (notes : List Note) (s : Store) (now : Time) : Prop :=
  p.Holds Keeps anyChange Dated good held notes s now

/-- A commit, accepted or rejected. -/
theorem commit_ends {write : Store → Except Constraint Store} {result : Answer}
    {good : List Note → Store → Time → Result → Store → Prop} {held : List LockKey}
    {notes : List Note} {s : Store} {now : Time}
    (hok : ∀ s' t' after, Since held s now s' t' → write s' = .ok after →
      good notes s' t' (.ok result) after ∧ Dated after t' ∧
        ∀ key, key ∉ held → Keeps key s' after)
    (hrejected : ∀ s' t' c, Since held s now s' t' → write s' = .error c →
      good notes s' t' (.error c) s') :
    Ends (.commit write result) good held notes s now := by
  intro s' t' hsince
  cases hwrite : write s' with
  | error c => exact hrejected s' t' c hsince hwrite
  | ok after =>
      obtain ⟨hgood, hinv, hkeeps⟩ := hok s' t' after hsince hwrite
      exact ⟨hgood, hinv, trivial, hkeeps⟩

/-- A commit that leaves the ledger of events keeps it dated. -/
theorem dated_of_ledger {held : List LockKey} {s s' after : Store} {t t' : Time}
    (h : Since held s t s' t') (hledger : after.ledger .acceptedEvents = s'.ledger .acceptedEvents) :
    Dated after t' := by
  intro row hrow
  rw [hledger] at hrow
  exact h.inv row hrow

/-- A commit that books events by now keeps the ledger dated. -/
theorem dated_append {held : List LockKey} {s s' after : Store} {t t' : Time}
    (h : Since held s t s' t') {rows : List UsageEvent} (husage : after.usage = s'.usage ++ rows)
    (hrows : ∀ row ∈ rows, row.occurredAt ≤ t') : Dated after t' := by
  intro row hrow
  rw [Store.ledger, husage, List.filter_append, List.mem_append] at hrow
  rcases hrow with hold | hnew
  · exact h.inv row hold
  · exact hrows row (List.mem_filter.mp hnew).1

/-- Nothing has happened since. -/
theorem Since.now (held : List LockKey) {s : Store} {t : Time} (h : Dated s t) : Since held s t s t :=
  ⟨fun key _ => rules.refl key s, trivial, Nat.le_refl t, h⟩

/-- What was found under more locks was found under fewer. -/
theorem since_of_subset {held held' : List LockKey} {s s' : Store} {t t' : Time}
    (hsubset : ∀ key ∈ held, key ∈ held') (h : Since held' s t s' t') : Since held s t s' t' :=
  ⟨fun key hkey => h.kept key (hsubset key hkey), trivial, h.time, h.inv⟩

/-! ## Capacity -/

/-- A dimension whose count changes under its lock alone. -/
def Dimension.guarded : Dimension → Bool
  | .acceptedEvents | .storedProducts | .activeModelVersions => true
  | .trainingJobs | .trainingCpuSeconds | .artifactStorageBytes => false

/-- A check was passed, and what it counted is still all there is. -/
structure Admitted (cfg : Config) (d : Dimension) (quantity : ℕ) (s : Store) (t : Time)
    (check : Check) : Prop where
  dimension : check.dimension = d
  quantity : check.quantity = quantity
  limit : ∃ limits, cfg.limits = some limits ∧ limits d = some check.limit
  used : d.guarded = true → capacityUsed s d (cfg.calendar.monthBounds check.checkedAt).1
    (cfg.calendar.monthBounds check.checkedAt).2 ≤ check.used
  room : check.used + check.quantity ≤ check.limit
  time : check.checkedAt ≤ t
  /-- What is booked was booked before the check. -/
  dated : d = .acceptedEvents → Dated s check.checkedAt

/-- The capacity check of a request, which is made unless nothing is asked for. -/
def Admits (cfg : Config) (d : Dimension) (quantity : ℕ) (s : Store) (t : Time)
    (notes : List Note) : Prop :=
  (quantity = 0 ∧ notes = []) ∨
    ∃ check, notes = [.check check] ∧ quantity ≠ 0 ∧ Admitted cfg d quantity s t check

/-- The errors of a capacity check. -/
def CapacityError (d : Dimension) (quantity : ℕ) (e : ApiError) : Prop :=
  quantity ≠ 0 ∧ (e = quotaUnavailable ∨ e = limitUnavailable ∨
    ∃ limit used reset, e = quotaExceeded d limit used quantity reset ∧ limit < used + quantity)

/-- The use of a period is a sum over the rows of the dimension. -/
theorem ledgerUsage_eq (s : Store) (d : Dimension) (start reset : Time) :
    ledgerUsage s d start reset = (((s.ledger d).filter fun row =>
      decide (start ≤ row.occurredAt) && decide (row.occurredAt < reset)).map
        UsageEvent.quantity).sum := by
  simp only [ledgerUsage, Store.ledger, List.filter_filter]
  congr 2
  refine List.filter_congr ?_
  intro row _
  simp only [Bool.and_assoc, Bool.and_comm]

/-- The count of a guarded dimension is kept by its lock. -/
theorem capacityUsed_kept {s s' : Store} {d : Dimension} (hd : d.guarded = true)
    (h : Keeps (.dimension d) s s') (start reset : Time) :
    capacityUsed s' d start reset ≤ capacityUsed s d start reset := by
  cases d with
  | acceptedEvents => simp only [capacityUsed, ledgerUsage_eq, h.2.2, Nat.le_refl]
  | storedProducts =>
      have hlength := congrArg List.length h.1
      simp only [Store.productKeys, List.length_map] at hlength
      exact Nat.le_of_eq hlength
  | activeModelVersions => exact h
  | trainingJobs | trainingCpuSeconds | artifactStorageBytes => cases hd

/-- The checks were made by now. -/
theorem Admits.checked {cfg : Config} {d : Dimension} {quantity : ℕ} {s : Store} {t : Time}
    {notes : List Note} (h : Admits cfg d quantity s t notes) :
    ∀ check, .check check ∈ notes → check.checkedAt ≤ t := by
  intro check hcheck
  rcases h with ⟨-, rfl⟩ | ⟨check', rfl, -, hadmitted⟩
  · cases hcheck
  · obtain rfl := Note.check.inj (List.mem_singleton.mp hcheck)
    exact hadmitted.time

theorem Admits.later {cfg : Config} {d : Dimension} {quantity : ℕ} {s s' : Store} {t t' : Time}
    {notes : List Note} (h : Admits cfg d quantity s t notes)
    (hkept : quantity ≠ 0 → Keeps (.dimension d) s s') (htime : t ≤ t') :
    Admits cfg d quantity s' t' notes := by
  rcases h with hzero | ⟨check, hnotes, hquantity, hcheck⟩
  · exact Or.inl hzero
  · refine Or.inr ⟨check, hnotes, hquantity, ?_⟩
    exact { hcheck with
      used := fun hd =>
        Nat.le_trans (capacityUsed_kept hd (hkept hquantity) _ _) (hcheck.used hd)
      time := Nat.le_trans hcheck.time htime
      dated := by
        rintro rfl row hrow
        rw [(hkept hquantity).2.2] at hrow
        exact hcheck.dated rfl row hrow }

/-- **The capacity check.**  What goes on after it has been admitted and holds the lock of
the dimension; what is refused asked for something. -/
theorem requireCapacity_ends {cfg : Config} {d : Dimension} {quantity : ℕ} {next : Transaction}
    {good : List Note → Store → Time → Result → Store → Prop} {held : List LockKey}
    {notes : List Note} {s : Store} {now : Time} (hdated : Dated s now)
    (hpassed : ∀ held' notes' s' now', (∀ key ∈ held, key ∈ held') →
      (quantity ≠ 0 → .dimension d ∈ held') → Since held s now s' now' →
      (∀ check, .check check ∈ notes' → now ≤ check.checkedAt) → Admits cfg d quantity s' now' notes' →
      Ends next good held' (notes ++ notes') s' now')
    (hrefuse : ∀ s' now' e, Since held s now s' now' → CapacityError d quantity e →
      good notes s' now' (.ok (.error e)) s') :
    Ends (requireCapacity cfg d quantity next) good held notes s now := by
  unfold requireCapacity
  split
  · next hzero =>
      have hnext := hpassed held [] s now (fun _ hkey => hkey) (fun h => absurd hzero h)
        (Since.now held hdated) (by simp) (Or.inl ⟨hzero, rfl⟩)
      rwa [List.append_nil] at hnext
  · next hquantity =>
      intro s₁ t₁ h₁
      have weaken : ∀ {s₂ t₂}, Since (.dimension d :: held) s₁ t₁ s₂ t₂ → Since held s now s₂ t₂ :=
        fun h₂ => h₁.trans rules (since_of_subset (fun _ => List.mem_cons_of_mem _) h₂)
      cases hlimits : cfg.limits with
      | none =>
          intro s₂ t₂ h₂
          exact hrefuse s₂ t₂ _ (weaken h₂) ⟨hquantity, Or.inl rfl⟩
      | some limits =>
          dsimp only
          cases hlimit : limits d with
          | none =>
              intro s₂ t₂ h₂
              exact hrefuse s₂ t₂ _ (weaken h₂) ⟨hquantity, Or.inr (Or.inl rfl)⟩
          | some limit =>
              intro s₂ t₂ h₂ s₃ t₃ h₃
              have h₂₃ := h₂.trans rules h₃
              dsimp only
              split
              · next hover =>
                  intro s₄ t₄ h₄
                  exact hrefuse s₄ t₄ _ (weaken (h₂₃.trans rules h₄))
                    ⟨hquantity, Or.inr (Or.inr ⟨_, _, _, rfl, hover⟩)⟩
              · next hroom =>
                  refine hpassed (.dimension d :: held) _ s₃ t₃ ?_ ?_ (weaken h₂₃) ?_ ?_
                  · exact fun key hkey => List.mem_cons_of_mem _ hkey
                  · exact fun _ => List.mem_cons_self
                  · intro check hcheck
                    obtain rfl := Note.check.inj (List.mem_singleton.mp hcheck)
                    exact Nat.le_trans h₁.time h₂.time
                  · refine Or.inr ⟨_, rfl, hquantity, rfl, rfl, ⟨limits, hlimits, hlimit⟩,
                      fun _ => Nat.le_refl _, not_lt.mp hroom, h₃.time, ?_⟩
                    -- Nothing was booked since the lock was taken, before the clock was read.
                    rintro rfl row hrow
                    rw [(h₂₃.kept _ List.mem_cons_self).2.2] at hrow
                    exact Nat.le_trans (h₁.inv row hrow) h₂.time

end Ingestion
