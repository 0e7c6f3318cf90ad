import GraphRec.Ingestion.ExactlyOnce
import GraphRec.Lib.Idempotency

/-!
# Replays of batches and syncs

A batch or a sync with a request id leaves its row under that id, in the transaction that
carries it out and under the lock that the next submission takes before it looks.  The
answer of a repetition is rebuilt from the row, by code other than that of the first.
-/

namespace Ingestion

open Transactions Transition

/-! ## The answer from the row -/

/-- The failures of a sync are those that its outcomes tell. -/
theorem Tallies.failures {s : Store} {now : Time} {seen : List String} {t t' : SyncTally}
    {items : List ProductUpsert} (h : Tallies s now seen t items t')
    (ht : t.failures = (t.outcomes.filter fun o => decide (o.status = .rejected)).map fun o =>
      ⟨o.externalId, duplicateInBatch⟩) :
    t'.failures = (t'.outcomes.filter fun o => decide (o.status = .rejected)).map fun o =>
      ⟨o.externalId, duplicateInBatch⟩ := by
  induction h with
  | nil => exact ht
  | rejected hseen _ ih =>
      refine ih ?_
      simp [SyncTally.reject, ht]
  | updated loaded hnew hpresent _ ih =>
      refine ih ?_
      simp [SyncTally.upsert, ht]
  | created hnew habsent _ ih =>
      refine ih ?_
      simp [SyncTally.upsert, ht]

/-- The first answer of a sync is the one that its row tells. -/
theorem syncResult_eq {cfg : Config} {s : Store} {now : Time} {id : ℕ}
    {p : ProductBulkUpsertRequest} {tally : SyncTally}
    (h : Tallies s now [] .zero p.products tally) :
    syncResult (p.row cfg id tally now) tally = (p.row cfg id tally now).response := by
  have hfailures := h.failures rfl
  simp only [syncResult, CatalogSync.response, ProductBulkUpsertRequest.row, syncRow, hfailures]

/-! ## Recordings -/

/-- A refusal for the capacity is not a conflict. -/
theorem CapacityError.ne_conflict {d : Dimension} {quantity : ℕ} {e : ApiError}
    (h : CapacityError d quantity e) : e ≠ idempotencyConflict := by
  rcases h with ⟨-, rfl | rfl | ⟨limit, used, reset, rfl, -⟩⟩
  · decide
  · decide
  · intro h
    have hstatus := congrArg ApiError.statusCode h
    simp [quotaExceeded, idempotencyConflict, apiError] at hstatus

/-- The batch of an id after one is appended. -/
theorem batch?_append {s s' : Store} {row : EventBatch} (h : s'.batches = s.batches ++ [row])
    (id : String) :
    s'.batch? id = (s.batch? id).or (if row.requestId = some id then some row else none) := by
  rw [Store.batch?, h, List.find?_append]
  congr 1
  by_cases hid : row.requestId = some id <;> simp [hid]

/-- The sync of an id after one is appended. -/
theorem sync?_append {s s' : Store} {row : CatalogSync} (h : s'.syncs = s.syncs ++ [row])
    (id : String) :
    s'.sync? id = (s.sync? id).or (if row.requestId = some id then some row else none) := by
  rw [Store.sync?, h, List.find?_append]
  congr 1
  by_cases hid : row.requestId = some id <;> simp [hid]

/-- The id and the payload of a batch. -/
def asksBatch : Op → Option (String × String)
  | .submitBatch _ p => (truthy p.requestId).map fun id => (id, p.canonical)
  | _ => none

/-- The id and the payload of a sync. -/
def asksSync : Op → Option (String × String)
  | .bulkUpsert _ p => (truthy p.requestId).map fun id => (id, p.canonical)
  | _ => none

theorem asksBatch_eq {op : Op} {id text : String} (h : asksBatch op = some (id, text)) :
    ∃ n p, op = .submitBatch n p ∧ truthy p.requestId = some id ∧ p.canonical = text := by
  unfold asksBatch at h
  split at h
  · next n p =>
      obtain ⟨id', hid, heq⟩ := Option.map_eq_some_iff.mp h
      simp only [Prod.mk.injEq] at heq
      exact ⟨n, p, rfl, heq.1 ▸ hid, heq.2⟩
  · cases h

theorem asksSync_eq {op : Op} {id text : String} (h : asksSync op = some (id, text)) :
    ∃ n p, op = .bulkUpsert n p ∧ truthy p.requestId = some id ∧ p.canonical = text := by
  unfold asksSync at h
  split at h
  · next n p =>
      obtain ⟨id', hid, heq⟩ := Option.map_eq_some_iff.mp h
      simp only [Prod.mk.injEq] at heq
      exact ⟨n, p, rfl, heq.1 ▸ hid, heq.2⟩
  · cases h

/-- How batches are recorded. -/
def batchRecording (cfg : Config) : Recording (OpEnds cfg) String String EventBatch where
  asks := asksBatch
  find := Store.batch?
  isOf b text := b.payloadHash = some (cfg.hash text)
  answer b := .batch b.response
  conflict := .error idempotencyConflict
  answer_ne := fun _ => nofun
  found := by
    intro op notes s t result s' id text b hgood hasks hfind
    obtain ⟨n, p, rfl, hid, rfl⟩ := asksBatch_eq hasks
    cases hgood with
    | replayed hid' hprevious hhash =>
        rw [hid] at hid'
        obtain rfl := Option.some.inj hid'
        rw [hfind] at hprevious
        obtain rfl := Option.some.inj hprevious
        exact ⟨rfl, Or.inl ⟨hhash, rfl⟩⟩
    | conflict hid' hprevious hhash =>
        rw [hid] at hid'
        obtain rfl := Option.some.inj hid'
        rw [hfind] at hprevious
        obtain rfl := Option.some.inj hprevious
        exact ⟨rfl, Or.inr ⟨hhash, rfl⟩⟩
    | refused hnew | stored hnew | rejected hnew =>
        rw [hnew id hid] at hfind
        cases hfind
  fresh := by
    intro op notes s t result s' id text hgood hasks hfind
    obtain ⟨n, p, rfl, hid, rfl⟩ := asksBatch_eq hasks
    cases hgood with
    | replayed hid' hprevious | conflict hid' hprevious =>
        rw [hid] at hid'
        obtain rfl := Option.some.inj hid'
        rw [hfind] at hprevious
        cases hprevious
    | refused hnew he =>
        refine Or.inl ⟨rfl, fun _ => nofun, ?_⟩
        exact fun h => he.ne_conflict (Answer.error.inj (Except.ok.inj h))
    | rejected => exact Or.inl ⟨rfl, fun _ => nofun, nofun⟩
    | stored _ _ _ _ hwrite =>
        refine Or.inr ⟨_, ?_, rfl, rfl⟩
        rw [writeBatch_ok hwrite, batch?_append rfl, hfind, Option.none_or]
        exact if_pos ((truthy_of_ne p.requestId_nonempty).symm.trans hid)
  kept := by
    intro op notes s t result s' id b hgood hfind
    rcases opEnds_batches hgood with hsame | ⟨n, accepted, total, now, hload⟩ |
      ⟨n, p, known, now, -, -, hbatch⟩
    · rw [Store.batch?, hsame]
      exact hfind
    · rw [batch?_append hload, hfind, Option.some_or]
    · rw [batch?_append hbatch, hfind, Option.some_or]
  left := by
    intro op notes s t result s' id b hgood hnone hfind
    rcases opEnds_batches hgood with hsame | ⟨n, accepted, total, now, hload⟩ |
      ⟨n, p, known, now, rfl, -, hbatch⟩
    · rw [Store.batch?, hsame] at hfind
      rw [Store.batch?, hfind] at hnone
      cases hnone
    · rw [batch?_append hload, hnone, Option.none_or, if_neg] at hfind
      · cases hfind
      · exact nofun
    · rw [batch?_append hbatch, hnone, Option.none_or] at hfind
      split at hfind
      · next hid =>
          refine ⟨p.canonical, ?_⟩
          rw [asksBatch, truthy_of_ne p.requestId_nonempty]
          exact congrArg (Option.map _) hid
      · cases hfind

/-- How syncs are recorded. -/
def syncRecording (cfg : Config) : Recording (OpEnds cfg) String String CatalogSync where
  asks := asksSync
  find := Store.sync?
  isOf b text := b.payloadHash = some (cfg.hash text)
  answer b := .sync b.response
  conflict := .error idempotencyConflict
  answer_ne := fun _ => nofun
  found := by
    intro op notes s t result s' id text b hgood hasks hfind
    obtain ⟨n, p, rfl, hid, rfl⟩ := asksSync_eq hasks
    cases hgood with
    | replayed hid' hprevious hhash =>
        rw [hid] at hid'
        obtain rfl := Option.some.inj hid'
        rw [hfind] at hprevious
        obtain rfl := Option.some.inj hprevious
        exact ⟨rfl, Or.inl ⟨hhash, rfl⟩⟩
    | conflict hid' hprevious hhash =>
        rw [hid] at hid'
        obtain rfl := Option.some.inj hid'
        rw [hfind] at hprevious
        obtain rfl := Option.some.inj hprevious
        exact ⟨rfl, Or.inr ⟨hhash, rfl⟩⟩
    | refused hnew | stored hnew | rejected hnew =>
        rw [hnew id hid] at hfind
        cases hfind
  fresh := by
    intro op notes s t result s' id text hgood hasks hfind
    obtain ⟨n, p, rfl, hid, rfl⟩ := asksSync_eq hasks
    cases hgood with
    | replayed hid' hprevious | conflict hid' hprevious =>
        rw [hid] at hid'
        obtain rfl := Option.some.inj hid'
        rw [hfind] at hprevious
        cases hprevious
    | refused hnew he =>
        refine Or.inl ⟨rfl, fun _ => nofun, ?_⟩
        exact fun h => he.ne_conflict (Answer.error.inj (Except.ok.inj h))
    | rejected => exact Or.inl ⟨rfl, fun _ => nofun, nofun⟩
    | stored _ _ htally hwrite =>
        refine Or.inr ⟨_, ?_, rfl, congrArg (Except.ok ∘ Answer.sync) (syncResult_eq htally)⟩
        rw [writeSync_ok hwrite, sync?_append rfl, hfind, Option.none_or]
        exact if_pos ((truthy_of_ne p.requestId_nonempty).symm.trans hid)
  kept := by
    intro op notes s t result s' id b hgood hfind
    rcases opEnds_syncs hgood with hsame | ⟨n, p, tally, now, -, -, hsync⟩
    · rw [Store.sync?, hsame]
      exact hfind
    · rw [sync?_append hsync, hfind, Option.some_or]
  left := by
    intro op notes s t result s' id b hgood hnone hfind
    rcases opEnds_syncs hgood with hsame | ⟨n, p, tally, now, rfl, -, hsync⟩
    · rw [Store.sync?, hsame] at hfind
      rw [Store.sync?, hfind] at hnone
      cases hnone
    · rw [sync?_append hsync, hnone, Option.none_or] at hfind
      split at hfind
      · next hid =>
          refine ⟨p.canonical, ?_⟩
          rw [asksSync, truthy_of_ne p.requestId_nonempty]
          exact congrArg (Option.map _) hid
      · cases hfind

/-! ## Every run -/

/-- What holds of the requests of a history that are recorded so. -/
structure Replayed {cfg : Config} {β : Type} (r : Recording (OpEnds cfg) String String β)
    (first : Store) (log : List LogEntry) : Prop where
  /-- Of two requests under one id, the later replays the earlier. -/
  pairs : log.Pairwise r.Replays
  /-- One of those that were answered was carried out. -/
  once : ∀ entry ∈ log, ∀ id text b, r.Answered entry id text b → r.find first id = none →
    ∃ entry' ∈ log, ∃ b', r.Records entry' id b' ∧ r.answer b' = r.answer b
  /-- One that was not answered changed nothing. -/
  unanswered : ∀ entry ∈ log, ∀ id text, r.asks entry.op = some (id, text) →
    (∃ b, r.Answered entry id text b) ∨ entry.after = entry.before

theorem replayed {cfg : Config} {β : Type} (r : Recording (OpEnds cfg) String String β)
    (hone : ∀ b text text', r.isOf b text → r.isOf b text' → text = text') {first : Start}
    {log : List LogEntry} {s : Store} {t : Time} (h : SerialHistory cfg first log s t) :
    Replayed r first.store log := by
  refine ⟨r.replays hone h, ?_, ?_⟩
  · intro entry hentry id text b hanswered hnone
    exact r.once h hentry hanswered hnone
  · intro entry hentry id text hasks
    have hgood := (h.each hentry).2
    cases hfind : r.find entry.before id with
    | some b => exact Or.inr (r.found hgood hasks hfind).1
    | none =>
        rcases r.fresh hgood hasks hfind with ⟨hsame, -, -⟩ | ⟨b, -, -, hresult⟩
        · exact Or.inr hsame
        · exact Or.inl ⟨b, hasks, hresult⟩

/-- **Idempotent replay of writes.**  Batches and syncs with a request id, when different
payloads have different hashes. -/
theorem writes_replayed {cfg : Config} {first : Start} {as : List (Action Op)} {st : SystemState}
    (hhash : Function.Injective cfg.hash)
    (h : Run (tenant cfg first) anyStep (tenant cfg first).init as st) :
    Replayed (batchRecording cfg) first.store st.log ∧
      Replayed (syncRecording cfg) first.store st.log := by
  obtain ⟨t, -, hserial⟩ := serializable cfg h
  constructor
  · refine replayed _ ?_ hserial
    intro b text text' hof hof'
    exact hhash (Option.some.inj (hof.symm.trans hof'))
  · refine replayed _ ?_ hserial
    intro b text text' hof hof'
    exact hhash (Option.some.inj (hof.symm.trans hof'))

/-- Two submissions of a sync at once, a repetition and another payload under its id. -/
def resubmittedRun : List (Action Op) :=
  [.start 0 (.bulkUpsert 7 ⟨some "r", [someProduct "sofa", someProduct "sofa"], "text",
      someRequestId⟩),
    .start 1 (.bulkUpsert 8 ⟨some "r", [someProduct "sofa", someProduct "sofa"], "text",
      someRequestId⟩),
    .start 2 (.bulkUpsert 9 ⟨some "r", [someProduct "rug"], "other", someRequestId⟩)] ++
    statements 0 10 ++ statements 1 3 ++ statements 2 3

/-- The answer of the first and of its repetition. -/
def resubmittedAnswer : Answer :=
  .sync ⟨7, "completed", some "r", 1, 1, 0, 0, 1, [⟨"sofa", duplicateInBatch⟩],
    [⟨"sofa", .created, none⟩, ⟨"sofa", .rejected, some "duplicate_in_batch"⟩]⟩

/-- That run is one, and replays. -/
theorem writes_replayed_resubmitted :
    ∃ st, Run (tenant (smallPlan 5 5 5) oneProduct) anyStep
        (tenant (smallPlan 5 5 5) oneProduct).init resubmittedRun st ∧
      st.log.map Entry.result = [.ok resubmittedAnswer, .ok resubmittedAnswer,
        .ok (.error idempotencyConflict)] ∧
      Replayed (batchRecording (smallPlan 5 5 5)) oneProduct.store st.log ∧
      Replayed (syncRecording (smallPlan 5 5 5)) oneProduct.store st.log := by
  have hdone : (exec (tenant (smallPlan 5 5 5) oneProduct)
      (tenant (smallPlan 5 5 5) oneProduct).init resubmittedRun).map
      (fun st => st.log.map Entry.result) = some [.ok resubmittedAnswer, .ok resubmittedAnswer,
        .ok (.error idempotencyConflict)] := by
    decide +kernel
  obtain ⟨st, hexec, hlog⟩ := Option.map_eq_some_iff.mp hdone
  exact ⟨st, run_of_exec hexec, hlog, writes_replayed Function.injective_id (run_of_exec hexec)⟩

end Ingestion
