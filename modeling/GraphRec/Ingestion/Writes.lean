import GraphRec.Ingestion.Versions

/-!
# What the transactions write

One equation for each kind of write: the store after it when no constraint rejects it, and
when the constraints do.
-/

namespace Ingestion

variable {s s' : Store}

/-- The row that is booked, unless it would be zero. -/
def booked (d : Dimension) (quantity : ℕ) (now : Time) : List UsageEvent :=
  if 0 < quantity then [⟨d, quantity, none, now⟩] else []

theorem mem_booked {d : Dimension} {quantity : ℕ} {now : Time} {row : UsageEvent}
    (h : row ∈ booked d quantity now) : row = ⟨d, quantity, none, now⟩ := by
  unfold booked at h
  split at h
  · exact List.mem_singleton.mp h
  · cases h

/-- What is booked is booked at the time given. -/
theorem time_of_booked {d : Dimension} {quantity : ℕ} {now : Time} {row : UsageEvent}
    (h : row ∈ booked d quantity now) : row.occurredAt = now := by
  rw [mem_booked h]

/-- What is booked is booked for the dimension. -/
theorem usageType_of_booked {d : Dimension} {quantity : ℕ} {now : Time} {row : UsageEvent}
    (h : row ∈ booked d quantity now) : row.usageType = d := by
  rw [mem_booked h]

theorem insertUsage_ok {row : UsageEvent} (h : s.insertUsage row = .ok s') :
    s' = { s with usage := s.usage ++ [row] } := by
  unfold Store.insertUsage at h
  split at h
  · cases h
  · cases h
    rfl

theorem insertUsage_error {row : UsageEvent} {e : Constraint} (h : s.insertUsage row = .error e) :
    e = .usageKey := by
  unfold Store.insertUsage at h
  split at h
  · cases h
    rfl
  · cases h

/-- A row whose key is fresh is always inserted. -/
theorem insertUsage_fresh (s : Store) (d : Dimension) (quantity : ℕ) (now : Time) :
    s.insertUsage ⟨d, quantity, none, now⟩ =
      .ok { s with usage := s.usage ++ [⟨d, quantity, none, now⟩] } := by
  simp [Store.insertUsage]

theorem bookUsage_eq (s : Store) (d : Dimension) (quantity : ℕ) (now : Time) :
    s.bookUsage d quantity now = .ok { s with usage := s.usage ++ booked d quantity now } := by
  unfold Store.bookUsage booked
  split
  · exact insertUsage_fresh s d quantity now
  · simp

theorem insertBatch_ok {batch : EventBatch} (h : s.insertBatch batch = .ok s') :
    s' = { s with batches := s.batches ++ [batch] } := by
  unfold Store.insertBatch at h
  split at h
  · cases h
  · cases h
    rfl

theorem insertBatch_error {batch : EventBatch} {e : Constraint}
    (h : s.insertBatch batch = .error e) : e = .batchRequestKey := by
  unfold Store.insertBatch at h
  split at h
  · cases h
    rfl
  · cases h

theorem insertSync_ok {sync : CatalogSync} (h : s.insertSync sync = .ok s') :
    s' = { s with syncs := s.syncs ++ [sync] } := by
  unfold Store.insertSync at h
  split at h
  · cases h
  · cases h
    rfl

theorem insertVersion_ok {id : VersionId} {row : Registry.Version} {bytes : ℕ}
    (h : s.insertVersion id row bytes = .ok s') :
    s.versions.get? id = none ∧ s' = { s with
      versions := s.versions.insert id row
      artifactBytes := Function.update s.artifactBytes id bytes } := by
  unfold Store.insertVersion at h
  split at h
  · cases h
  · next hfree =>
      cases h
      rw [Bool.or_eq_true, not_or, Bool.not_eq_true, Option.isSome_eq_false_iff,
        Option.isNone_iff_eq_none] at hfree
      exact ⟨hfree.1, rfl⟩

/-- Writes in a row: when each leaves what `after` goes on from, all leave what `after` says. -/
theorem foldlM_ok {α : Type} {write : Store → α → Except Constraint Store}
    (after : Store → List α → Store) {rows : List α} {s s' : Store} (hnil : ∀ s, after s [] = s)
    (hcons : ∀ s row rows s₁, write s row = .ok s₁ → after s (row :: rows) = after s₁ rows)
    (h : rows.foldlM write s = .ok s') : s' = after s rows := by
  induction rows generalizing s with
  | nil =>
      cases h
      exact (hnil _).symm
  | cons row rows ih =>
      rw [List.foldlM_cons] at h
      cases hrow : write s row with
      | error e =>
          rw [hrow] at h
          cases h
      | ok s₁ =>
          rw [hrow] at h
          rw [ih h, hcons s row rows s₁ hrow]

/-! ## Events -/

theorem insertEvent_ok {row : String × CustomerEvent} (h : s.insertEvent row = .ok s') :
    s.events.get? row.1 = none ∧ s.customerKnown row.2 = true ∧
      s' = { s with events := s.events.insert row.1 row.2 } := by
  unfold Store.insertEvent at h
  split at h
  · cases h
  · next hfresh =>
      split at h
      · next hknown =>
          cases h
          exact ⟨hfresh, hknown, rfl⟩
      · cases h

/-- Which constraint rejects an event. -/
theorem insertEvent_error {row : String × CustomerEvent} {e : Constraint}
    (h : s.insertEvent row = .error e) :
    (e = .eventKey ∧ ∃ old, s.events.get? row.1 = some old) ∨
      (e = .customerForeignKey ∧ s.events.get? row.1 = none ∧ s.customerKnown row.2 = false) := by
  unfold Store.insertEvent at h
  split at h
  · next old hold =>
      cases h
      exact Or.inl ⟨rfl, old, hold⟩
  · next hfresh =>
      split at h
      · cases h
      · next hunknown =>
          cases h
          exact Or.inr ⟨rfl, hfresh, by simpa using hunknown⟩

/-- `INSERT` of several events: they are all inserted. -/
theorem insertEvents_ok {rows : List (String × CustomerEvent)}
    (h : rows.foldlM Store.insertEvent s = .ok s') :
    s' = { s with events := s.events.insertAll rows } := by
  refine foldlM_ok (fun s rows => { s with events := s.events.insertAll rows }) (fun _ => rfl)
    (fun s row rows s₁ hrow => ?_) h
  rw [(insertEvent_ok hrow).2.2]
  rfl

theorem addEvent_ok {row : String × CustomerEvent} (h : s.addEvent row = .ok s') :
    s' = { s with events := s.events.insert row.1 row.2 } := by
  unfold Store.addEvent at h
  split at h
  · next old hold =>
      cases h
      rw [Table.insert_of_some _ hold]
  · exact (insertEvent_ok h).2.2

/-- `INSERT ... ON CONFLICT DO NOTHING` of several events. -/
theorem addEvents_ok {rows : List (String × CustomerEvent)}
    (h : rows.foldlM Store.addEvent s = .ok s') :
    s' = { s with events := s.events.insertAll rows } := by
  refine foldlM_ok (fun s rows => { s with events := s.events.insertAll rows }) (fun _ => rfl)
    (fun s row rows s₁ hrow => ?_) h
  rw [addEvent_ok hrow]
  rfl

/-! ## Whole requests -/

theorem writeEvent_ok {p : EventSubmit} {now : Time} (h : writeEvent p now s = .ok s') :
    s' = { s with
      customers := (s.ensureCustomers (truthy p.userId).toList).customers
      events := s.events.insert p.eventId (p.row now)
      usage := s.usage ++ [⟨.acceptedEvents, 1, some ("event-usage-" ++ p.eventId), now⟩] } := by
  unfold writeEvent at h
  simp only [bind, Except.bind] at h
  split at h
  · cases h
  · next s₁ hevent =>
      obtain ⟨-, -, rfl⟩ := insertEvent_ok hevent
      exact insertUsage_ok h

theorem writeBatch_ok {batch : EventBatch} {t : EventTally} {now : Time}
    (h : writeBatch batch t now s = .ok s') :
    s' = { s with
      customers := (s.ensureCustomers t.customers).customers
      events := s.events.insertAll t.newEvents
      batches := s.batches ++ [batch]
      usage := s.usage ++ booked .acceptedEvents t.accepted now } := by
  unfold writeBatch at h
  simp only [bind, Except.bind] at h
  split at h
  · cases h
  · next s₁ hevents =>
      obtain rfl := insertEvents_ok hevents
      split at h
      · cases h
      · next s₂ hbatch =>
          obtain rfl := insertBatch_ok hbatch
          rw [bookUsage_eq] at h
          cases h
          rfl

theorem writeLoad_ok {id : ℕ} {now : Time} {products : List (String × Product)}
    {events : List (String × CustomerEvent)} {accepted : UploadResponse}
    (h : writeLoad id now products events accepted s = .ok s') :
    s' = { s with
      products := s.products.insertAll products
      events := s.events.insertAll events
      batches := s.batches ++ [loadBatch id accepted.acceptedEvents events.length now]
      usage := s.usage ++ (booked .storedProducts accepted.acceptedProducts now ++
        booked .acceptedEvents accepted.acceptedEvents now) } := by
  unfold writeLoad at h
  simp only [bind, Except.bind, bookUsage_eq] at h
  split at h
  · cases h
  · next s₁ hevents =>
      obtain rfl := addEvents_ok hevents
      rw [insertBatch_ok h, List.append_assoc]
      rfl

/-- The products after the writes of a sync. -/
def applyWrites (products : Table String Product) (writes : List ProductWrite) :
    Table String Product :=
  writes.foldl (fun products write =>
    match write with
    | .create id row => products.insert id row
    | .update id loaded assigned => products.update id (Product.flush loaded assigned)) products

theorem writeProduct_ok {write : ProductWrite} (h : s.writeProduct write = .ok s') :
    s' = { s with products := applyWrites s.products [write] } := by
  unfold Store.writeProduct at h
  split at h
  · split at h
    · cases h
    · cases h
      rfl
  · cases h
    rfl

theorem writeProducts_ok {writes : List ProductWrite}
    (h : writes.foldlM Store.writeProduct s = .ok s') :
    s' = { s with products := applyWrites s.products writes } := by
  refine foldlM_ok (fun s writes => { s with products := applyWrites s.products writes })
    (fun _ => rfl) (fun s write writes s₁ hwrite => ?_) h
  rw [writeProduct_ok hwrite]
  rfl

theorem writeSync_ok {sync : CatalogSync} {t : SyncTally} {now : Time}
    (h : writeSync sync t now s = .ok s') :
    s' = { s with
      products := applyWrites s.products t.writes
      usage := s.usage ++ booked .storedProducts t.created now
      syncs := s.syncs ++ [sync] } := by
  unfold writeSync at h
  simp only [bind, Except.bind, bookUsage_eq] at h
  split at h
  · cases h
  · next s₁ hproducts =>
      obtain rfl := writeProducts_ok hproducts
      exact insertSync_ok h

theorem writeJob_eq (job : TrainingJob) (now : Time) (s : Store) :
    writeJob job now s = .ok { s with
      jobs := s.jobs ++ [job]
      usage := s.usage ++ [⟨.trainingJobs, 1, none, now⟩] } :=
  insertUsage_fresh _ _ _ _

theorem writeJobVersion_ok {job : TrainingJob} {id : VersionId} {row : Registry.Version}
    {bytes : ℕ} {now : Time} (h : writeJobVersion job id row bytes now s = .ok s') :
    s.versions.get? id = none ∧ s' = { s with
      jobs := s.jobs ++ [job]
      usage := s.usage ++ [⟨.trainingJobs, 1, none, now⟩]
      versions := s.versions.insert id row
      artifactBytes := Function.update s.artifactBytes id bytes } := by
  unfold writeJobVersion at h
  simp only [bind, Except.bind, writeJob_eq] at h
  exact insertVersion_ok h

theorem writeTrained_ok {jobId : JobId} {id : VersionId} {row : Registry.Version}
    {bytes cpuSeconds : ℕ} {now : Time}
    (h : writeTrained jobId id row bytes cpuSeconds now s = .ok s') :
    s.versions.get? id = none ∧ s' = { s with
      jobs := s.jobs.map fun job => if job.id = jobId then job.succeed now else job
      usage := s.usage ++
        [⟨.trainingCpuSeconds, cpuSeconds,
            some ("training_cpu_seconds-" ++ toString jobId), now⟩,
          ⟨.artifactStorageBytes, bytes,
            some ("artifact_storage_bytes-" ++ toString jobId), now⟩]
      versions := s.versions.insert id row
      artifactBytes := Function.update s.artifactBytes id bytes } := by
  unfold writeTrained at h
  simp only [bind, Except.bind] at h
  split at h
  · cases h
  · next s₁ hversion =>
      obtain ⟨hfresh, rfl⟩ := insertVersion_ok hversion
      split at h
      · cases h
      · next s₂ hcpu =>
          obtain rfl := insertUsage_ok hcpu
          rw [insertUsage_ok h]
          refine ⟨hfresh, ?_⟩
          simp

end Ingestion
