import GraphRec.Dgsr.Export
import GraphRec.Dgsr.Partition
import GraphRec.Retraining.System

/-!
# What an accepted training job can be trained on

`_queue_training` counts the product interactions of one shopper in the snapshot; `train_job` reads
the exported rows and asks for examples in every split and for two distinct items.

* `dataChecks_iff` — of a snapshot with a shopper of four interactions, the checks of the worker
  pass just when no exported product id is blank and two of them differ, up to the white space at
  their ends;
* `queued_trainable_iff` — so much for the snapshots that are accepted;
* `not_queued_trainable` — four purchases of one product are accepted and cannot be trained on.
-/

namespace Dgsr

open Api (ApiError)
open Ingestion (CustomerEvent Moment Store truthy)
open Retraining (Settings TrainingJobCreate CreationCall queueTraining newJob)
open Training (TenantId)

/-! ## The admission -/

/-- A training needs a shopper with four interactions. -/
def insufficientTrainingData : ApiError :=
  { statusCode := 422
    code := "insufficient_training_data"
    message := "Training needs at least four chronological product interactions for one shopper, including held-out validation and test targets." }

def trainingCapacityExceeded : ApiError :=
  { statusCode := 422
    code := "training_capacity_exceeded"
    message := "Local CPU training supports up to 20,000 events and 10,000 products. Import a prepared checkpoint for larger datasets." }

/-- The users that `histories` counts. -/
def historyUsers (events : List (String × CustomerEvent)) : List String :=
  events.filterMap fun row =>
    match truthy row.2.userId, truthy row.2.externalProductId with
    | some user, some _ => some user
    | _, _ => none

/-- `max(histories.values())`, if there are any. -/
def longestHistory (events : List (String × CustomerEvent)) : Option ℕ :=
  ((historyUsers events).dedup.map fun user => (historyUsers events).count user).max?

/-- What `_queue_training` refuses of a snapshot with some events and a number of products. -/
def datasetRefusal (events : List (String × CustomerEvent)) (products : ℕ) : Option ApiError :=
  if (longestHistory events).all (· < 4) then some insufficientTrainingData
  else if 20000 < events.length ∨ 10000 < products then some trainingCapacityExceeded
  else none

/-! ## The checks of the worker -/

/-- What the checks of `train_job` on its data raise. -/
inductive TrainError
  | csv (e : CsvError)
  | split (e : SplitError)
  /-- `No next-item training examples. ...` -/
  | noTrainingExamples
  /-- `Held-out validation and test examples and at least two distinct items are required.` -/
  | noHeldOutExamples
  deriving DecidableEq, Repr

/-- The worker's configuration. -/
def workerConfig : Config where
  recentItems := 10
  samplingOrder := 1
  itemNeighborLimit := 10

/-- `require_training_examples`. -/
def requireTrainingExamples (s : Splits) : Except TrainError Unit :=
  if s.train = [] then .error .noTrainingExamples else .ok ()

/-- The beginning of `train_job`, up to the data and their splits. -/
def dataChecks (rnd : ℚ → ℚ) (snapshot : List (String × CustomerEvent)) :
    Except TrainError (InteractionData × Splits) :=
  match trainingData snapshot with
  | .error e => .error (.csv e)
  | .ok data =>
      match makeSplits rnd workerConfig data with
      | .error e => .error (.split e)
      | .ok s =>
          match requireTrainingExamples s with
          | .error e => .error e
          | .ok () =>
              if s.validation = [] ∨ s.test = [] ∨ data.numItems < 2 then .error .noHeldOutExamples
              else .ok (data, s)

/-! ## Users and items of rows -/

section OfRows

/-- The events of a user are as many as the entries of the column. -/
theorem length_byUser (data : InteractionData) (u : ℕ) :
    (data.byUser u).length = (data.events.map Interaction.user).count u := by
  have hcolumn : (List.range data.size).map data.user = data.events.map Interaction.user := by
    apply List.ext_getElem
    · simp [InteractionData.size]
    · intro e he he'
      have hlt : e < data.events.length := by simpa using he'
      simp [InteractionData.user, List.getElem?_eq_getElem hlt]
  rw [InteractionData.byUser, ← List.countP_eq_length_filter, ← hcolumn, List.count,
    List.countP_map]
  refine List.countP_congr fun e _ => ?_
  simp

variable {rows : List CsvRow}

theorem idxOf_sortedIds_inj {ids : List String} {id id' : String} (h : id ∈ ids)
    (heq : (sortedIds ids).idxOf id = (sortedIds ids).idxOf id') : id = id' :=
  List.idxOf_inj (mem_sortedIds.mpr h) |>.mp heq

/-- A user of some rows has as many events as rows. -/
theorem length_byUser_ofRows {user : String} :
    ((ofRows rows).byUser ((sortedIds (rows.map CsvRow.user)).idxOf user)).length =
      (rows.map CsvRow.user).count user := by
  rw [length_byUser, ofRows, List.map_map, List.count, List.count, List.countP_map,
    List.countP_map]
  refine List.countP_congr fun row hrow => ?_
  simp only [Function.comp_apply, beq_iff_eq]
  exact ⟨fun heq => idxOf_sortedIds_inj (List.mem_map_of_mem hrow) heq, fun heq => by rw [heq]⟩

/-- There are two items just when two rows have different ones. -/
theorem two_le_numItems_iff : 2 ≤ (ofRows rows).numItems ↔
    ∃ row ∈ rows, ∃ row' ∈ rows, row.item ≠ row'.item := by
  have hcard : (ofRows rows).numItems = (rows.map CsvRow.item).toFinset.card := by
    rw [List.card_toFinset]
    exact List.length_insertionSort _ _
  rw [hcard, Nat.succ_le_iff, Finset.one_lt_card]
  simp only [List.mem_toFinset, List.mem_map]
  constructor
  · rintro ⟨_, ⟨row, hrow, rfl⟩, _, ⟨row', hrow', rfl⟩, hne⟩
    exact ⟨row, hrow, row', hrow', hne⟩
  · rintro ⟨row, hrow, row', hrow', hne⟩
    exact ⟨_, ⟨row, hrow, rfl⟩, _, ⟨row', hrow', rfl⟩, hne⟩

end OfRows

/-! ## The two checks compared -/

section Compared

variable {snapshot : List (String × CustomerEvent)}

/-- The rows that `train_job` writes. -/
def exportedRows (snapshot : List (String × CustomerEvent)) : List RawRow :=
  snapshot.filterMap fun row => exportRow row.2

/-- The admission counts the users of the exported rows. -/
theorem historyUsers_eq (snapshot : List (String × CustomerEvent)) :
    historyUsers snapshot = (exportedRows snapshot).map Prod.fst := by
  rw [historyUsers, exportedRows, List.map_filterMap]
  refine List.filterMap_congr fun row _ => ?_
  rw [exportRow]
  cases truthy row.2.userId with
  | none => rfl
  | some user => cases truthy row.2.externalProductId <;> rfl

/-- An accepted snapshot has a shopper with four interactions. -/
theorem exists_history {products : ℕ} (h : datasetRefusal snapshot products = none) :
    ∃ user, 4 ≤ ((exportedRows snapshot).map Prod.fst).count user := by
  rw [datasetRefusal] at h
  split at h
  · cases h
  · next hlong =>
      rw [← historyUsers_eq]
      cases hmax : longestHistory snapshot with
      | none =>
          rw [hmax] at hlong
          exact absurd rfl hlong
      | some longest =>
          rw [hmax] at hlong
          obtain ⟨user, _, rfl⟩ := List.mem_map.mp (List.max?_mem hmax)
          exact ⟨user, by simpa using hlong⟩

/-- The users of exported rows are stripped. -/
theorem strip_user_of_exportRow {e : CustomerEvent} (he : Ingested e) {row : RawRow}
    (h : exportRow e = some row) : Text.strip row.1 = row.1 ∧ row.1 ≠ "" := by
  unfold exportRow at h
  split at h
  · next user product huser _ =>
      cases h
      unfold truthy at huser
      split at huser
      · next text htext =>
          split at huser
          · cases huser
          · next hne =>
              obtain rfl := Option.some.inj huser
              exact ⟨(he.user text htext).2.1, hne⟩
      · cases huser
  · cases h

/-- No exported product id is blank, and two of them differ, up to the white space at their
ends. -/
def TwoProducts (snapshot : List (String × CustomerEvent)) : Prop :=
  (∀ row ∈ exportedRows snapshot, Text.strip row.2.1 ≠ "") ∧
    ∃ row ∈ exportedRows snapshot, ∃ row' ∈ exportedRows snapshot,
      Text.strip row.2.1 ≠ Text.strip row'.2.1

instance : DecidablePred TwoProducts := fun _ => inferInstanceAs (Decidable (_ ∧ _))

/-- The columns of the rows as they are read. -/
theorem map_user_numberCsv (rows : List RawRow) :
    (numberCsv 0 rows).map CsvRow.user = rows.map fun row => Text.strip row.1 := by
  have h := congrArg (List.map Prod.fst) (map_numberCsv 0 rows)
  rwa [List.map_map, List.map_map] at h

theorem map_item_numberCsv (rows : List RawRow) :
    (numberCsv 0 rows).map CsvRow.item = rows.map fun row => Text.strip row.2.1 := by
  have h := congrArg (List.map fun row : RawRow => row.2.1) (map_numberCsv 0 rows)
  rwa [List.map_map, List.map_map] at h

/-- The data of a snapshot whose exported rows are named. -/
theorem trainingData_named (hingested : ∀ row ∈ snapshot, Ingested row.2)
    (hsorted : snapshot.Pairwise fun row row' => row.2.occurredAt ≤ row'.2.occurredAt)
    (hnamed : ∀ row ∈ exportedRows snapshot, row.Named)
    (hne : numberCsv 0 (exportedRows snapshot) ≠ []) :
    trainingData snapshot = .ok (ofRows (numberCsv 0 (exportedRows snapshot))) := by
  have hload := fromCsv_named trainingConfig_keepsAll (written_fits hingested) hnamed
    (written_sorted hingested hsorted)
  exact hload.trans (if_neg hne)

/-- Two items of the data are two ids that differ after the stripping. -/
theorem two_le_numItems_exported :
    2 ≤ (ofRows (numberCsv 0 (exportedRows snapshot))).numItems ↔
      ∃ row ∈ exportedRows snapshot, ∃ row' ∈ exportedRows snapshot,
        Text.strip row.2.1 ≠ Text.strip row'.2.1 := by
  have hcolumn : ∀ item, (∃ row ∈ numberCsv 0 (exportedRows snapshot), row.item = item) ↔
      ∃ row ∈ exportedRows snapshot, Text.strip row.2.1 = item := by
    intro item
    rw [← List.mem_map, map_item_numberCsv, List.mem_map]
  rw [two_le_numItems_iff]
  constructor
  · rintro ⟨row, hrow, row', hrow', hne⟩
    obtain ⟨raw, hraw, heq⟩ := (hcolumn row.item).mp ⟨row, hrow, rfl⟩
    obtain ⟨raw', hraw', heq'⟩ := (hcolumn row'.item).mp ⟨row', hrow', rfl⟩
    exact ⟨raw, hraw, raw', hraw', by rwa [heq, heq']⟩
  · rintro ⟨raw, hraw, raw', hraw', hne⟩
    obtain ⟨row, hrow, heq⟩ := (hcolumn _).mpr ⟨raw, hraw, rfl⟩
    obtain ⟨row', hrow', heq'⟩ := (hcolumn _).mpr ⟨raw', hraw', rfl⟩
    exact ⟨row, hrow, row', hrow', by rwa [heq, heq']⟩

/-- **The checks of the worker.**  With a shopper of four interactions they pass just when two
products are named. -/
theorem dataChecks_iff (rnd : ℚ → ℚ) (hingested : ∀ row ∈ snapshot, Ingested row.2)
    (hsorted : snapshot.Pairwise fun row row' => row.2.occurredAt ≤ row'.2.occurredAt)
    {user : String} (huser : 4 ≤ ((exportedRows snapshot).map Prod.fst).count user) :
    (∃ result, dataChecks rnd snapshot = .ok result) ↔ TwoProducts snapshot := by
  have hstripped : ∀ row ∈ exportedRows snapshot, Text.strip row.1 = row.1 ∧ row.1 ≠ "" := by
    intro row hrow
    obtain ⟨event, hevent, hexport⟩ := List.mem_filterMap.mp hrow
    exact strip_user_of_exportRow (hingested event hevent) hexport
  by_cases hproducts : ∀ row ∈ exportedRows snapshot, Text.strip row.2.1 ≠ ""
  · have hnamed : ∀ row ∈ exportedRows snapshot, row.Named := by
      intro row hrow
      refine ⟨?_, hproducts row hrow⟩
      rw [(hstripped row hrow).1]
      exact (hstripped row hrow).2
    have hcolumn : (numberCsv 0 (exportedRows snapshot)).map CsvRow.user =
        (exportedRows snapshot).map Prod.fst := by
      rw [map_user_numberCsv]
      exact List.map_congr_left fun row hrow => (hstripped row hrow).1
    have hne : numberCsv 0 (exportedRows snapshot) ≠ [] := by
      intro hnil
      rw [← hcolumn, hnil] at huser
      simp at huser
    have hdata := trainingData_named hingested hsorted hnamed hne
    obtain ⟨s, hs⟩ : ∃ s, makeSplits rnd workerConfig
        (ofRows (numberCsv 0 (exportedRows snapshot))) = .ok s :=
      makeSplits_isOk rnd (by simp [workerConfig])
    have hlen : 4 ≤ ((ofRows (numberCsv 0 (exportedRows snapshot))).byUser
        ((sortedIds ((numberCsv 0 (exportedRows snapshot)).map CsvRow.user)).idxOf user)).length := by
      rw [length_byUser_ofRows, hcolumn]
      exact huser
    obtain ⟨htrain, hvalidation, htest⟩ := examples_ne_nil rfl hs hlen
    rw [TwoProducts, and_iff_right hproducts, ← two_le_numItems_exported]
    simp only [dataChecks, hdata, hs, requireTrainingExamples, if_neg htrain, hvalidation, htest,
      false_or]
    split
    · next hfew => exact iff_of_false (by rintro ⟨_, h⟩; cases h) (by omega)
    · next hmany => exact iff_of_true ⟨_, rfl⟩ (by omega)
  · -- A blank product id: the file is not read.
    obtain ⟨n, hblank⟩ := fromCsv_blank trainingConfig_keepsAll (written_fits hingested)
      fun hall => hproducts fun row hrow => (hall row hrow).2
    have hdata : trainingData snapshot = .error (.missingValue n) := hblank
    refine iff_of_false ?_ fun h => hproducts h.1
    rintro ⟨_, hchecks⟩
    rw [dataChecks, hdata] at hchecks
    cases hchecks

end Compared

/-! ## Accepted jobs -/

/-- A job is accepted over a snapshot only if `datasetRefusal` has nothing against it. -/
theorem datasetRefusal_of_queueTraining {settings : Settings} {tenant : TenantId}
    {payload : TrainingJobCreate} {call : CreationCall} {now : Retraining.Time}
    {job : Retraining.Job} (h : queueTraining settings tenant payload call now = .ok job) :
    call.dataset = none := by
  rw [queueTraining] at h
  split at h
  · cases h
  · split at h
    · split at h
      · split at h
        · cases h
        · assumption
      · cases h
    · cases h

/-- **What an accepted job can be trained on.**  The checks of the worker pass for an accepted
job just when no exported product id is blank and two of them differ. -/
theorem queued_trainable_iff (rnd : ℚ → ℚ) (collation : Collation) (s : Store) (cutoff : Moment)
    (hingested : ∀ row ∈ s.events.rows, Ingested row.2) (products : ℕ) (settings : Settings)
    (tenant : TenantId) (payload : TrainingJobCreate) (call : CreationCall)
    (now : Retraining.Time) (job : Retraining.Job)
    (haccepted : queueTraining settings tenant payload
      { call with dataset := datasetRefusal (createSnapshot collation s cutoff) products } now =
        .ok job) :
    (∃ result, dataChecks rnd (createSnapshot collation s cutoff) = .ok result) ↔
      TwoProducts (createSnapshot collation s cutoff) := by
  obtain ⟨user, huser⟩ := exists_history (datasetRefusal_of_queueTraining haccepted)
  refine dataChecks_iff rnd ?_ (createSnapshot_sorted collation s cutoff) huser
  intro row hrow
  exact hingested row (List.mem_filter.mp ((List.mem_insertionSort _).mp hrow)).1

/-! ## Four purchases of one product -/

/-- Four purchases of the user `ann`. -/
def purchasesOf (first second third fourth : String) : Store :=
  storeWith [("a", purchase first 1000000), ("b", purchase second 2000000),
    ("c", purchase third 3000000), ("d", purchase fourth 4000000)]

theorem purchasesOf_ingested {first second third fourth : String} (h₁ : first.length ≤ 100)
    (h₂ : second.length ≤ 100) (h₃ : third.length ≤ 100) (h₄ : fourth.length ≤ 100) :
    ∀ row ∈ (purchasesOf first second third fourth).events.rows, Ingested row.2 := by
  have hrows : (purchasesOf first second third fourth).events.rows =
      [("a", purchase first 1000000), ("b", purchase second 2000000),
        ("c", purchase third 3000000), ("d", purchase fourth 4000000)] := rfl
  rw [hrows]
  intro row hrow
  simp only [List.mem_cons, List.not_mem_nil, or_false] at hrow
  rcases hrow with rfl | rfl | rfl | rfl
  · exact purchase_ingested h₁ (by decide) (by decide)
  · exact purchase_ingested h₂ (by decide) (by decide)
  · exact purchase_ingested h₃ (by decide) (by decide)
  · exact purchase_ingested h₄ (by decide) (by decide)

/-- Plain settings, and a request for a training of one epoch. -/
def plainSettings : Settings where
  retrainingMinIntervalMinutes := ⟨1, by decide⟩
  trainingCooldownSeconds := ⟨0, by decide⟩
  isProduction := false
  payloadHash := fun _ => ""

def oneEpoch : TrainingJobCreate where
  requestId := none
  configuration := [("mode", .text "train"), ("epochs", .int 1)]

/-- A call over some snapshot. -/
def plainCall : CreationCall where
  id := 0
  took := 0
  snapshotKnown := true
  capacity := none
  dataset := none
  imported := .ok true
  importTook := 0

/-- Three lamps and a rug are accepted, and the worker can train on them. -/
theorem queued_trainable_iff_rug :
    ∃ result, dataChecks id
      (createSnapshot byCharacters (purchasesOf "lamp" "lamp" "lamp" "rug") 5000000) =
        .ok result := by
  refine (queued_trainable_iff id byCharacters _ 5000000
    (purchasesOf_ingested (by decide) (by decide) (by decide) (by decide)) 2 plainSettings 0
    oneEpoch plainCall 0 (newJob plainSettings 0 oneEpoch true .queued 0 none) ?_).mpr ?_
  · decide +kernel
  · decide +kernel

/-- Four lamps are accepted, and the worker cannot train on them. -/
theorem not_queued_trainable :
    ¬ ∀ (rnd : ℚ → ℚ) (collation : Collation) (s : Store) (cutoff : Moment),
      (∀ row ∈ s.events.rows, Ingested row.2) → ∀ (products : ℕ) (settings : Settings)
        (tenant : TenantId) (payload : TrainingJobCreate) (call : CreationCall)
        (now : Retraining.Time) (job : Retraining.Job),
        queueTraining settings tenant payload
          { call with dataset := datasetRefusal (createSnapshot collation s cutoff) products } now =
            .ok job →
          ∃ result, dataChecks rnd (createSnapshot collation s cutoff) = .ok result := by
  intro hall
  have hingested : ∀ row ∈ (purchasesOf "lamp" "lamp" "lamp" "lamp").events.rows,
      Ingested row.2 :=
    purchasesOf_ingested (by decide) (by decide) (by decide) (by decide)
  have hchecks := hall id byCharacters _ 5000000 hingested 1 plainSettings 0 oneEpoch plainCall 0
    (newJob plainSettings 0 oneEpoch true .queued 0 none) (by decide +kernel)
  have hfour : 4 ≤ ((exportedRows (createSnapshot byCharacters
      (purchasesOf "lamp" "lamp" "lamp" "lamp") 5000000)).map Prod.fst).count "ann" := by
    decide +kernel
  have htwo := (dataChecks_iff id
    (fun row hrow => hingested row (List.mem_filter.mp ((List.mem_insertionSort _).mp hrow)).1)
    (createSnapshot_sorted _ _ _) hfour).mp hchecks
  revert htwo
  decide +kernel

end Dgsr
