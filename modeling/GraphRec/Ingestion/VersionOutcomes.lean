import GraphRec.Ingestion.CatalogOutcomes

/-!
# How the requests about versions end, and the serial history

What these requests have in common is all that the plan's limits depend on: a request
answers and writes nothing, registers one version for which there was room, or leaves the
retained versions at most as many.
-/

namespace Ingestion

open Transactions Transition

/-- Is it an answer of a request that did not succeed? -/
def Answer.refused : Answer → Bool
  | .error _ | .raised _ => true
  | _ => false

/-- What the versions' requests do not touch. -/
structure VersionsOnly (s s' : Store) : Prop where
  products : s'.products = s.products
  customers : s'.customers = s.customers
  events : s'.events = s.events
  batches : s'.batches = s.batches
  syncs : s'.syncs = s.syncs
  ledger : ∀ d, d = .acceptedEvents ∨ d = .storedProducts → s'.ledger d = s.ledger d

/-- How a request about versions ends. -/
inductive VersionsEnd (cfg : Config) : List Note → Store → Time → Result → Store → Prop
  | answered {notes : List Note} {s : Store} {t : Time} {answer : Answer} :
      VersionsEnd cfg notes s t (.ok answer) s
  | rejected {notes : List Note} {s : Store} {t : Time} {c : Constraint} :
      VersionsEnd cfg notes s t (.error c) s
  | registered {notes : List Note} {s s' : Store} {t : Time} {answer : Answer} {id : VersionId}
      {row : Registry.Version} (hanswer : answer.refused = false)
      (hroom : ∃ checks, (∀ check ∈ checks, check ∈ notes) ∧
        Admits cfg .activeModelVersions 1 s t checks)
      (hfresh : s.versions.get? id = none)
      (hversions : s'.versions = s.versions.insert id row) (hsame : VersionsOnly s s') :
      VersionsEnd cfg notes s t (.ok answer) s'
  | changed {notes : List Note} {s s' : Store} {t : Time} {answer : Answer}
      (hanswer : answer.refused = false) (hretained : retainedVersions s' ≤ retainedVersions s)
      (hsame : VersionsOnly s s') :
      VersionsEnd cfg notes s t (.ok answer) s'

/-- A write that touches only versions, jobs and their ledger keeps what other locks
protect. -/
theorem VersionsOnly.keeps {s s' : Store} {held : List LockKey} (h : VersionsOnly s s')
    (hretained : .dimension .activeModelVersions ∉ held → retainedVersions s' ≤ retainedVersions s)
    (hversions : .lifecycle ∉ held → Keeps .lifecycle s s') :
    ∀ key, key ∉ held → Keeps key s s' := by
  refine keeps_frame (fun _ => ⟨h.events, h.batches, h.ledger _ (Or.inl rfl)⟩) (fun _ => ⟨?_, h.syncs⟩)
    hretained hversions
  simp only [Store.productKeys, h.products]

/-- A version that is added leaves those that are there. -/
theorem lifecycle_insert {s s' : Store} {id : VersionId} {row : Registry.Version}
    (hfresh : s.versions.get? id = none) (h : s'.versions = s.versions.insert id row) :
    Keeps .lifecycle s s' := by
  intro id' row' hrow'
  rw [h, Table.get?_insert _ hfresh, if_neg]
  · exact hrow'
  · rintro rfl
    rw [hfresh] at hrow'
    cases hrow'

/-- A capacity error is answered. -/
theorem VersionsEnd.error (cfg : Config) (notes : List Note) (s : Store) (t : Time) (e : ApiError) :
    VersionsEnd cfg notes s t (.ok (.error e)) s := .answered

/-- A commit that registers a version. -/
theorem register_commit_ends {cfg : Config} {write : Store → Except Constraint Store}
    {answer : Answer} {held : List LockKey} {notes checks : List Note} {s : Store} {t : Time}
    {id : VersionId} {row : Registry.Version} (hanswer : answer.refused = false)
    (hlock : .dimension .activeModelVersions ∈ held) (hchecks : ∀ check ∈ checks, check ∈ notes)
    (hadmits : Admits cfg .activeModelVersions 1 s t checks)
    (hwrite : ∀ s s', write s = .ok s' → s.versions.get? id = none ∧
      s'.versions = s.versions.insert id row ∧ VersionsOnly s s') :
    Ends (.commit write answer) (VersionsEnd cfg) held notes s t := by
  refine commit_ends ?_ ?_
  · intro s₁ t₁ after h₁ hok
    obtain ⟨hfresh, hversions, hsame⟩ := hwrite s₁ after hok
    have hadmits₁ := hadmits.later (fun _ => h₁.kept _ hlock) h₁.time
    refine ⟨.registered hanswer ⟨checks, hchecks, hadmits₁⟩ hfresh hversions hsame,
      dated_of_ledger h₁ (hsame.ledger _ (Or.inl rfl)), ?_⟩
    exact hsame.keeps (fun hfree => absurd hlock hfree)
      fun _ => lifecycle_insert hfresh hversions
  · intro s₁ t₁ c _ _
    exact .rejected

/-- A commit that leaves the versions alone. -/
theorem job_commit_ends {cfg : Config} {write : Store → Except Constraint Store} {answer : Answer}
    {held : List LockKey} {notes : List Note} {s : Store} {t : Time}
    (hanswer : answer.refused = false)
    (hwrite : ∀ s s', write s = .ok s' → s'.versions = s.versions ∧ VersionsOnly s s') :
    Ends (.commit write answer) (VersionsEnd cfg) held notes s t := by
  refine commit_ends ?_ ?_
  · intro s₁ t₁ after h₁ hok
    obtain ⟨hversions, hsame⟩ := hwrite s₁ after hok
    have hretained : retainedVersions after ≤ retainedVersions s₁ := by
      simp only [retainedVersions, hversions, Nat.le_refl]
    refine ⟨.changed hanswer hretained hsame, dated_of_ledger h₁ (hsame.ledger _ (Or.inl rfl)),
      hsame.keeps (fun _ => hretained) fun _ => ?_⟩
    intro id row hrow
    rw [hversions]
    exact hrow
  · intro s₁ t₁ c _ _
    exact .rejected

theorem registerModelVersion_ends (cfg : Config) (production : Bool) (id : VersionId)
    (new : Registry.NewVersion) (bytes : ℕ) (s : Store) (t : Time) :
    Ends (registerModelVersion cfg production id new bytes) (VersionsEnd cfg) [] [] s t := by
  unfold registerModelVersion
  split
  · exact fun _ _ _ => .answered
  · intro s₁ t₁ _ s₂ t₂ h₂
    dsimp only
    split
    · exact fun _ _ _ => .answered
    · refine requireCapacity_ends h₂.inv ?_ fun s₃ t₃ e _ _ => .answered
      intro held notes s₃ t₃ _ hlock _ _ hadmits
      have hwrites : ∀ s s' : Store, s.insertVersion id (new.row t₁) bytes = .ok s' →
          s.versions.get? id = none ∧ s'.versions = s.versions.insert id (new.row t₁) ∧
            VersionsOnly s s' := by
        intro s₄ s₅ hwrite
        obtain ⟨hfresh, rfl⟩ := insertVersion_ok hwrite
        exact ⟨hfresh, rfl, rfl, rfl, rfl, rfl, rfl, fun _ _ => rfl⟩
      exact register_commit_ends rfl (hlock Nat.one_ne_zero)
        (fun check hcheck => List.mem_append_right _ hcheck) hadmits hwrites

/-! ## Training -/

/-- A row of the ledger for another dimension. -/
theorem ledger_append (s : Store) (rows : List UsageEvent) (d : Dimension)
    (h : ∀ row ∈ rows, row.usageType ≠ d) :
    ({ s with usage := s.usage ++ rows } : Store).ledger d = s.ledger d := by
  have hnone : rows.filter (fun row => row.usageType = d) = [] := by
    refine List.filter_eq_nil_iff.mpr ?_
    intro row hrow
    simpa using h row hrow
  simp only [Store.ledger, List.filter_append, hnone, List.append_nil]

/-- A queued or failed job leaves the versions alone. -/
theorem writeJob_only {job : TrainingJob} {now : Time} {s s' : Store}
    (h : writeJob job now s = .ok s') : s'.versions = s.versions ∧ VersionsOnly s s' := by
  rw [writeJob_eq] at h
  cases h
  refine ⟨rfl, rfl, rfl, rfl, rfl, rfl, ?_⟩
  intro d hd
  refine ledger_append { s with jobs := _ } _ d ?_
  intro row hrow
  obtain rfl := List.mem_singleton.mp hrow
  rcases hd with rfl | rfl <;> exact Dimension.noConfusion

/-- A job that registers a version. -/
theorem writeJobVersion_only {job : TrainingJob} {id : VersionId} {row : Registry.Version}
    {bytes : ℕ} {now : Time} {s s' : Store} (h : writeJobVersion job id row bytes now s = .ok s') :
    s.versions.get? id = none ∧ s'.versions = s.versions.insert id row ∧ VersionsOnly s s' := by
  obtain ⟨hfresh, rfl⟩ := writeJobVersion_ok h
  refine ⟨hfresh, rfl, rfl, rfl, rfl, rfl, rfl, ?_⟩
  intro d hd
  refine ledger_append s [_] d ?_
  intro row hrow
  obtain rfl := List.mem_singleton.mp hrow
  rcases hd with rfl | rfl <;> exact Dimension.noConfusion

/-- What the worker writes. -/
theorem writeTrained_only {jobId : JobId} {id : VersionId} {row : Registry.Version}
    {bytes cpuSeconds : ℕ} {now : Time} {s s' : Store}
    (h : writeTrained jobId id row bytes cpuSeconds now s = .ok s') :
    s.versions.get? id = none ∧ s'.versions = s.versions.insert id row ∧ VersionsOnly s s' := by
  obtain ⟨hfresh, rfl⟩ := writeTrained_ok h
  refine ⟨hfresh, rfl, rfl, rfl, rfl, rfl, rfl, ?_⟩
  intro d hd
  refine ledger_append s [_, _] d ?_
  intro row hrow
  simp only [List.mem_cons, List.not_mem_nil, or_false] at hrow
  rcases hrow with rfl | rfl <;> rcases hd with rfl | rfl <;> exact Dimension.noConfusion

theorem startTraining_ends (cfg : Config) (r : TrainingRequest) {held : List LockKey}
    {notes checks : List Note} {s : Store} {t : Time}
    (hlock : .dimension .activeModelVersions ∈ held) (hchecks : ∀ check ∈ checks, check ∈ notes)
    (hadmits : Admits cfg .activeModelVersions 1 s t checks) :
    Ends (startTraining cfg r) (VersionsEnd cfg) held notes s t := by
  unfold startTraining
  split
  · unfold importPretrainedArtifact
    split
    · exact fun _ _ _ => .answered
    · intro s₁ t₁ _
      exact job_commit_ends rfl fun _ _ hwrite => writeJob_only hwrite
    · next version bytes =>
        intro s₁ t₁ h₁
        have hadmits₁ := hadmits.later (fun _ => h₁.kept _ hlock) h₁.time
        refine requireCapacity_ends h₁.inv ?_ fun s₂ t₂ e _ _ => .answered
        intro held' notes' s₂ t₂ hheld _ h₂ _ _
        exact register_commit_ends rfl (hheld _ hlock)
          (fun check hcheck => List.mem_append_left _ (hchecks check hcheck))
          (hadmits₁.later (fun _ => h₂.kept _ hlock) h₂.time)
          fun _ _ hwrite => writeJobVersion_only hwrite
  · exact fun _ _ _ => .answered
  · intro s₁ t₁ _
    exact job_commit_ends rfl fun _ _ hwrite => writeJob_only hwrite
  · exact fun _ _ _ => .answered
  · exact fun _ _ _ => .answered
  · intro s₁ t₁ h₁
    exact register_commit_ends rfl hlock hchecks
      (hadmits.later (fun _ => h₁.kept _ hlock) h₁.time)
      fun _ _ hwrite => writeJobVersion_only hwrite

theorem createNewTrainingJob_ends (cfg : Config) (r : TrainingRequest) {held : List LockKey}
    (s : Store) (t : Time) :
    Ends (createNewTrainingJob cfg r) (VersionsEnd cfg) held [] s t := by
  intro s₁ t₁ h₁
  split
  · exact fun _ _ _ => .answered
  · refine requireCapacity_ends h₁.inv ?_ fun s₂ t₂ e _ _ => .answered
    intro held₁ jobChecks s₂ t₂ _ _ h₂ _ _
    refine requireCapacity_ends h₂.inv ?_ fun s₃ t₃ e _ _ => .answered
    intro held₂ versionChecks s₃ t₃ _ hlock _ _ hadmits s₄ t₄ h₄ s₅ t₅ h₅
    have h₃₅ := h₄.trans rules h₅
    have hheld := hlock Nat.one_ne_zero
    dsimp only
    split
    · exact fun _ _ _ => .answered
    · exact startTraining_ends cfg r hheld (fun check hcheck => List.mem_append_right _ hcheck)
        (hadmits.later (fun _ => h₃₅.kept _ hheld) h₃₅.time)

theorem createTrainingJob_ends (cfg : Config) (r : TrainingRequest) (s : Store) (t : Time) :
    Ends (createTrainingJob cfg r) (VersionsEnd cfg) [] [] s t := by
  unfold createTrainingJob
  split
  · exact createNewTrainingJob_ends cfg r s t
  · intro s₁ t₁ _ s₂ t₂ _
    dsimp only
    split
    · exact createNewTrainingJob_ends cfg r s₂ t₂
    · split <;> exact fun _ _ _ => .answered

theorem finishTraining_ends (cfg : Config) (jobId : JobId) (versionId : VersionId)
    (new : Registry.NewVersion) (bytes cpuSeconds : ℕ) (s : Store) (t : Time) :
    Ends (finishTraining cfg jobId versionId new bytes cpuSeconds) (VersionsEnd cfg) [] [] s t := by
  intro s₁ t₁ h₁
  refine requireCapacity_ends h₁.inv ?_ fun s₂ t₂ e _ _ => .answered
  intro held₁ sizeChecks s₂ t₂ _ _ h₂ _ _
  refine requireCapacity_ends h₂.inv ?_ fun s₃ t₃ e _ _ => .answered
  intro held₂ versionChecks s₃ t₃ _ hlock _ _ hadmits
  exact register_commit_ends rfl (hlock Nat.one_ne_zero)
    (fun check hcheck => List.mem_append_right _ hcheck) hadmits
    fun _ _ hwrite => writeTrained_only hwrite

/-! ## Statuses -/

/-- A change of statuses that makes no archived version retained. -/
theorem retained_updateWhere {s : Store} {f : VersionId → Registry.Version → Registry.Version}
    (h : ∀ id row, s.versions.get? id = some row → row.status = .archived →
      (f id row).status = .archived) :
    retainedVersions { s with versions := s.versions.updateWhere f } ≤ retainedVersions s := by
  simp only [retainedVersions, Table.count, Table.updateWhere, List.countP_map]
  refine List.countP_mono_left ?_
  intro row hrow hretained
  simp only [Function.comp_apply, decide_eq_true_eq] at hretained ⊢
  intro harchived
  exact hretained (h row.1 row.2 ((Table.mem_rows_iff _).mp hrow) harchived)

theorem activateModelVersion_ends (cfg : Config) (target : VersionId) (rollback : Bool)
    (evidence : Registry.Evidence) (s : Store) (t : Time) :
    Ends (activateModelVersion target rollback evidence) (VersionsEnd cfg) [] [] s t := by
  intro s₁ t₁ _ s₂ t₂ _ s₃ t₃ _
  dsimp only
  split
  · exact fun _ _ _ => .answered
  · next row hrow =>
      split
      · exact fun _ _ _ => .answered
      · exact fun _ _ _ => .answered
      · next hcheck =>
          split
          · exact fun _ _ _ => .answered
          · refine commit_ends ?_ ?_
            · intro s₄ t₄ after h₄ hwrite
              cases hwrite
              have hstored := h₄.kept _ List.mem_cons_self target row hrow
              have hstatus : row.status ≠ .archived := by
                intro harchived
                simp only [Registry.activationCheck, harchived] at hcheck
                cases rollback <;> simp [Registry.requiredStatus] at hcheck
              have hsame : VersionsOnly s₄ { s₄ with
                  versions := s₄.versions.updateWhere (Registry.activate t₁ target) } :=
                ⟨rfl, rfl, rfl, rfl, rfl, fun _ _ => rfl⟩
              have hretained : retainedVersions { s₄ with
                  versions := s₄.versions.updateWhere (Registry.activate t₁ target) } ≤
                  retainedVersions s₄ := by
                refine retained_updateWhere ?_
                intro id row' hrow' harchived
                unfold Registry.activate
                split
                · next hid =>
                    rw [hid, hstored] at hrow'
                    obtain rfl := Option.some.inj hrow'
                    exact absurd harchived hstatus
                · rw [if_neg (by rw [harchived]; exact Registry.Status.noConfusion)]
                  exact harchived
              refine ⟨.changed rfl hretained hsame, dated_of_ledger h₄ rfl, ?_⟩
              exact hsame.keeps (fun _ => hretained) fun hfree => absurd List.mem_cons_self hfree
            · intro s₄ t₄ c _ hwrite
              cases hwrite

/-- The store once a version is archived. -/
def Store.archiveVersion (s : Store) (target : VersionId) : Store :=
  { s with versions := s.versions.update target (fun v => { v with status := .archived }) }

theorem archiveModelVersion_ends (cfg : Config) (target : VersionId) (s : Store) (t : Time) :
    Ends (archiveModelVersion target) (VersionsEnd cfg) [] [] s t := by
  intro s₁ t₁ _ s₂ t₂ _
  dsimp only
  split
  · exact fun _ _ _ => .answered
  · split
    · exact fun _ _ _ => .answered
    · refine commit_ends ?_ ?_
      · intro s₃ t₃ after h₃ hwrite
        cases hwrite
        have hsame : VersionsOnly s₃ (s₃.archiveVersion target) :=
          ⟨rfl, rfl, rfl, rfl, rfl, fun _ _ => rfl⟩
        have hretained : retainedVersions (s₃.archiveVersion target) ≤ retainedVersions s₃ := by
          refine retained_updateWhere ?_
          intro id row' _ harchived
          split
          · rfl
          · exact harchived
        refine ⟨.changed rfl hretained hsame, dated_of_ledger h₃ rfl, ?_⟩
        exact hsame.keeps (fun _ => hretained) fun hfree => absurd List.mem_cons_self hfree
      · intro s₃ t₃ c _ hwrite
        cases hwrite

/-! ## The serial history -/

/-- How a request ends. -/
def OpEnds (cfg : Config) : Op → List Note → Store → Time → Result → Store → Prop
  | .submitEvent p => SubmitEventEnds cfg p
  | .submitBatch id p => SubmitBatchEnds cfg id p
  | .loadInteractionLog id rows => LoadEnds cfg id rows
  | .bulkUpsert id p => BulkUpsertEnds cfg id p
  | .updateProduct externalId p => UpdateProductEnds cfg externalId p
  | .disableProduct externalId => DisableProductEnds externalId
  | .registerModelVersion _ _ _ _ | .createTrainingJob _ | .finishTraining _ _ _ _ _
  | .activateModelVersion _ _ _ | .archiveModelVersion _ | .changeJobs _ => VersionsEnd cfg

theorem program_ends (cfg : Config) (op : Op) (s : Store) (t : Time) :
    Ends (program cfg op) (OpEnds cfg op) [] [] s t := by
  cases op with
  | submitEvent p => exact submitEvent_ends cfg p s t
  | submitBatch id p => exact submitBatch_ends cfg id p s t
  | loadInteractionLog id rows => exact loadInteractionLog_ends cfg id rows s t
  | bulkUpsert id p => exact bulkUpsert_ends cfg id p s t
  | updateProduct externalId p => exact updateProduct_ends cfg externalId p s t
  | disableProduct externalId => exact disableProduct_ends externalId s t
  | registerModelVersion production id new bytes =>
      exact registerModelVersion_ends cfg production id new bytes s t
  | createTrainingJob r => exact createTrainingJob_ends cfg r s t
  | finishTraining jobId versionId new bytes cpuSeconds =>
      exact finishTraining_ends cfg jobId versionId new bytes cpuSeconds s t
  | activateModelVersion target rollback evidence =>
      exact activateModelVersion_ends cfg target rollback evidence s t
  | archiveModelVersion target => exact archiveModelVersion_ends cfg target s t
  | changeJobs jobs =>
      refine job_commit_ends rfl ?_
      intro s s' hwrite
      cases hwrite
      exact ⟨rfl, rfl, rfl, rfl, rfl, rfl, fun _ _ => rfl⟩

/-- What a request writes to the store that it ends with. -/
inductive Writes (cfg : Config) : Op → Store → Store → Prop
  | nothing {op : Op} {s : Store} : Writes cfg op s s
  | event {p : EventSubmit} {s s' : Store} {now : Time} (hnew : s.events.get? p.eventId = none)
      (hwrite : writeEvent p now s = .ok s') : Writes cfg (.submitEvent p) s s'
  | batch {id : ℕ} {p : EventBatchSubmit} {s s' : Store} {known : List String} {now : Time}
      (hnew : p.Fresh s)
      (hwrite : writeBatch (p.row cfg id s known now) (p.tally s known now) now s = .ok s') :
      Writes cfg (.submitBatch id p) s s'
  | load {id : ℕ} {rows : List Interaction} {s s' : Store} {now : Time}
      (hwrite : storeLoad id now rows s = .ok s') : Writes cfg (.loadInteractionLog id rows) s s'
  | sync {id : ℕ} {p : ProductBulkUpsertRequest} {s s' : Store} {tally : SyncTally} {now : Time}
      (hnew : p.Fresh s) (hwrite : writeSync (p.row cfg id tally now) tally now s = .ok s') :
      Writes cfg (.bulkUpsert id p) s s'
  | create {op : Op} {s : Store} {externalId : String} {row : Product} :
      Writes cfg op s { s with products := s.products.insert externalId row }
  | flush {op : Op} {s : Store} {externalId : String} {loaded assigned : Product} :
      Writes cfg op s (s.flushProduct externalId loaded assigned)
  | versions {op : Op} {s s' : Store} (hsame : VersionsOnly s s') : Writes cfg op s s'

/-- A request writes one thing, or nothing. -/
theorem opEnds_writes {cfg : Config} {op : Op} {notes : List Note} {s s' : Store} {t : Time}
    {result : Result} (h : OpEnds cfg op notes s t result s') : Writes cfg op s s' := by
  cases op with
  | submitEvent p =>
      cases h with
      | duplicate | unknownProduct | refused | rejected => exact .nothing
      | stored hnew _ _ hwrite => exact .event hnew hwrite
  | submitBatch id p =>
      cases h with
      | replayed | conflict | refused | rejected => exact .nothing
      | stored hnew _ _ _ hwrite => exact .batch hnew hwrite
  | loadInteractionLog id rows =>
      cases h with
      | outOfRange | productsRefused | eventsRefused | rejected => exact .nothing
      | stored _ _ _ hwrite => exact .load hwrite
  | bulkUpsert id p =>
      cases h with
      | replayed | conflict | refused | rejected => exact .nothing
      | stored hnew _ _ hwrite => exact .sync hnew hwrite
  | updateProduct externalId p =>
      cases h with
      | refused => exact .nothing
      | created => exact .create
      | updated => exact .flush
  | disableProduct externalId =>
      cases h with
      | notFound => exact .nothing
      | disabled => exact .flush
  | registerModelVersion | createTrainingJob | finishTraining | activateModelVersion
  | archiveModelVersion | changeJobs =>
      cases h with
      | answered | rejected => exact .nothing
      | registered _ _ _ _ hsame | changed _ _ hsame => exact .versions hsame

/-- Where a run starts: a store and a time, after which nothing is booked yet. -/
structure Start where
  store : Store
  now : Time
  dated : Dated store now

/-- The requests of a tenant. -/
def tenant (cfg : Config) (first : Start) : System SystemState (Action Op) :=
  system (program cfg) first.store first.now

/-- The history of a run is serial. -/
abbrev SerialHistory (cfg : Config) (first : Start) (log : List LogEntry) (s : Store) (t : Time) :
    Prop :=
  Serial Dated (OpEnds cfg) first.store first.now log s t

/-- **Serializability of the ingestion paths.**  Whatever the interleaving of the statements,
the store is that of the requests one after the other. -/
theorem serializable (cfg : Config) {first : Start} {as : List (Action Op)} {st : SystemState}
    (h : Run (tenant cfg first) anyStep (tenant cfg first).init as st) :
    ∃ t, t ≤ st.now ∧ SerialHistory cfg first st.log st.store t :=
  (serial rules (fun op s t _ => program_ends cfg op s t) first.dated h).serial

end Ingestion
