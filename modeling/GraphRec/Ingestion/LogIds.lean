import GraphRec.Ingestion.Customers
import GraphRec.Ingestion.LogParser

/-!
# The ids of interaction-log rows

The id of a row joins its user, its item and its time with colons, and the ordinal of a
repetition.  Users and items may contain colons, so that two rows may have one id; the
second is then taken for a duplicate and is not stored.  `Clash` tells which rows they are.
-/

namespace Ingestion

open Transactions Transition

/-! ## Which rows share an id -/

/-- Two numbered rows that have one id. -/
inductive Clash : Interaction × ℕ → Interaction × ℕ → Prop
  /-- A part between colons ends the user of one and begins the item of the other. -/
  | moved (user part item : String) (time : ℤ) (ordinal : ℕ) :
      Clash (⟨user, part ++ ":" ++ item, time⟩, ordinal) (⟨user ++ ":" ++ part, item, time⟩, ordinal)
  /-- The ordinal of a repetition is the time of the other, whose item ends with the time of
  the repetition, or is that time. -/
  | counted (row repeated : Interaction) (ordinal : ℕ) (hordinal : ordinal ≠ 0)
      (htime : row.time = ordinal)
      (hjoined : row.user ++ ":" ++ row.item =
        repeated.user ++ ":" ++ repeated.item ++ ":" ++ toString repeated.time) :
      Clash (row, 0) (repeated, ordinal)

/-- No two rows of the file share an id. -/
def NoClash (rows : List Interaction) : Prop :=
  ∀ r ∈ numberRows [] rows, ∀ r' ∈ numberRows [] rows, ¬ Clash r r'

/-- The user and the item, joined. -/
def joined (row : Interaction) : List Char := row.user.toList ++ ':' :: row.item.toList

theorem toList_repr (z : ℤ) : z.repr.toList = Text.decimal z := rfl

theorem toList_interactionId_zero (row : Interaction) :
    (interactionId row 0).toList =
      "il:".toList ++ (joined row ++ ':' :: Text.decimal row.time) := by
  simp [interactionId, joined, toList_repr, String.toList_append]

theorem toList_interactionId {ordinal : ℕ} (row : Interaction) (h : ordinal ≠ 0) :
    (interactionId row ordinal).toList = "il:".toList ++
      ((joined row ++ ':' :: Text.decimal row.time) ++ ':' :: Text.decimal ordinal) := by
  simp [interactionId, joined, toList_repr, Text.decimal_natCast, String.toList_append, h]

/-- The text of an integer has no colon. -/
theorem colon_notMem_decimal (z : ℤ) : ':' ∉ Text.decimal z := by
  intro h
  rcases Text.mem_decimal h with hsign | hdigit
  · exact absurd hsign (by decide)
  · exact absurd hdigit (by decide)

/-- A part is moved, in characters and in texts. -/
theorem exists_part_iff {user user' item item' : String} :
    (∃ w, user'.toList = user.toList ++ ':' :: w ∧ item.toList = w ++ ':' :: item'.toList) ↔
      ∃ part : String, user' = user ++ ":" ++ part ∧ item = part ++ ":" ++ item' := by
  constructor
  · rintro ⟨w, huser, hitem⟩
    refine ⟨String.ofList w, ?_, ?_⟩
    · rw [← String.toList_inj]
      simp [huser]
    · rw [← String.toList_inj]
      simp [hitem]
  · rintro ⟨part, rfl, rfl⟩
    exact ⟨part.toList, by simp, by simp⟩

/-- Users and items that are joined alike: the same, or a part is moved. -/
theorem joined_eq_iff {row row' : Interaction} : joined row = joined row' ↔
    (row.user = row'.user ∧ row.item = row'.item) ∨
    (∃ part, row'.user = row.user ++ ":" ++ part ∧ row.item = part ++ ":" ++ row'.item) ∨
    ∃ part, row.user = row'.user ++ ":" ++ part ∧ row'.item = part ++ ":" ++ row.item := by
  rw [joined, joined, Text.append_sep_eq_iff, exists_part_iff, exists_part_iff, String.toList_inj,
    String.toList_inj]

/-- The item of a row may end with the time of another. -/
theorem joined_time_iff {row repeated : Interaction} :
    joined row = joined repeated ++ ':' :: Text.decimal repeated.time ↔
      row.user ++ ":" ++ row.item =
        repeated.user ++ ":" ++ repeated.item ++ ":" ++ toString repeated.time := by
  rw [← String.toList_inj]
  simp [joined, toList_repr]

/-- Rows that are joined alike and have one time. -/
theorem clash_of_joined {row row' : Interaction} {ordinal : ℕ} (htime : row.time = row'.time)
    (h : joined row = joined row') : row = row' ∨ Clash (row, ordinal) (row', ordinal) ∨
      Clash (row', ordinal) (row, ordinal) := by
  obtain ⟨user, item, time⟩ := row
  obtain ⟨user', item', time'⟩ := row'
  obtain rfl : time = time' := htime
  rcases joined_eq_iff.mp h with ⟨huser, hitem⟩ | ⟨part, huser, hitem⟩ | ⟨part, huser, hitem⟩
  · exact Or.inl (by simp_all)
  · refine Or.inr (Or.inl ?_)
    simp only at huser hitem
    rw [huser, hitem]
    exact .moved user part item' time ordinal
  · refine Or.inr (Or.inr ?_)
    simp only at huser hitem
    rw [huser, hitem]
    exact .moved user' part item time ordinal

/-- Rows that clash have one id. -/
theorem Clash.interactionId_eq {r r' : Interaction × ℕ} (h : Clash r r') :
    interactionId r.1 r.2 = interactionId r'.1 r'.2 := by
  cases h with
  | moved user part item time ordinal => simp [interactionId, String.append_assoc]
  | counted row repeated ordinal hordinal htime hjoined =>
      rw [← String.toList_inj]
      simp only
      rw [toList_interactionId_zero, toList_interactionId repeated hordinal,
        joined_time_iff.mpr hjoined, htime]

/-- **Which rows share an id.** -/
theorem interactionId_eq_iff {r r' : Interaction × ℕ} :
    interactionId r.1 r.2 = interactionId r'.1 r'.2 ↔ r = r' ∨ Clash r r' ∨ Clash r' r := by
  constructor
  · obtain ⟨row, ordinal⟩ := r
    obtain ⟨row', ordinal'⟩ := r'
    simp only
    intro h
    rw [← String.toList_inj] at h
    have hcounted : ∀ {row row' : Interaction} {n : ℕ}, n ≠ 0 →
        (interactionId row 0).toList = (interactionId row' n).toList →
        Clash (row, 0) (row', n) := by
      intro row row' n hn heq
      rw [toList_interactionId_zero, toList_interactionId _ hn, List.append_cancel_left_eq,
        Text.append_last_eq_iff (colon_notMem_decimal _) (colon_notMem_decimal _)] at heq
      exact .counted row row' n hn (Text.decimal_injective heq.2) (joined_time_iff.mp heq.1)
    by_cases hzero : ordinal = 0
    · subst hzero
      by_cases hzero' : ordinal' = 0
      · subst hzero'
        rw [toList_interactionId_zero, toList_interactionId_zero, List.append_cancel_left_eq,
          Text.append_last_eq_iff (colon_notMem_decimal _) (colon_notMem_decimal _)] at h
        exact (clash_of_joined (Text.decimal_injective h.2) h.1).imp
          (congrArg fun row => (row, 0)) id
      · exact Or.inr (Or.inl (hcounted hzero' h))
    · by_cases hzero' : ordinal' = 0
      · subst hzero'
        exact Or.inr (Or.inr (hcounted hzero h.symm))
      · rw [toList_interactionId _ hzero, toList_interactionId _ hzero',
          List.append_cancel_left_eq,
          Text.append_last_eq_iff (colon_notMem_decimal _) (colon_notMem_decimal _),
          Text.append_last_eq_iff (colon_notMem_decimal _) (colon_notMem_decimal _)] at h
        obtain ⟨⟨hjoined, htime⟩, hordinal⟩ := h
        obtain rfl : ordinal = ordinal' := by exact_mod_cast Text.decimal_injective hordinal
        exact (clash_of_joined (Text.decimal_injective htime) hjoined).imp
          (congrArg fun row => (row, ordinal)) id
  · rintro (rfl | h | h)
    · rfl
    · exact h.interactionId_eq
    · exact h.interactionId_eq.symm

/-! ## The rows of a file -/

/-- A row does not clash with itself. -/
theorem Clash.ne {r r' : Interaction × ℕ} (h : Clash r r') : r ≠ r' := by
  cases h with
  | moved user part item time ordinal =>
      intro heq
      simp only [Prod.mk.injEq, Interaction.mk.injEq] at heq
      have hlength := congrArg String.length heq.1.1
      have hcolon : ":".length = 1 := rfl
      rw [String.length_append, String.length_append, hcolon] at hlength
      omega
  | counted row repeated ordinal hordinal =>
      intro heq
      exact hordinal (Prod.mk.inj heq).2.symm

/-- The ids of a file's rows are distinct just when none clash. -/
theorem noClash_iff {rows : List Interaction} : NoClash rows ↔
    ∀ r ∈ numberRows [] rows, ∀ r' ∈ numberRows [] rows,
      interactionId r.1 r.2 = interactionId r'.1 r'.2 → r = r' := by
  constructor
  · intro h r hr r' hr' heq
    rcases interactionId_eq_iff.mp heq with hsame | hclash | hclash
    · exact hsame
    · exact absurd hclash (h r hr r' hr')
    · exact absurd hclash (h r' hr' r hr)
  · intro h r hr r' hr' hclash
    exact hclash.ne (h r hr r' hr' hclash.interactionId_eq)

/-- An event is that of a row. -/
def Holds (row : Interaction) (e : CustomerEvent) : Prop :=
  e.userId = some row.user ∧ e.externalProductId = some row.item ∧
    e.occurredAt = row.time * 1000000

/-- The ids that the rows would have are free, or stored with their own user, product and
time. -/
def Own (rows : List Interaction) (s : Store) : Prop :=
  ∀ r ∈ numberRows [] rows, ∀ e, s.events.get? (interactionId r.1 r.2) = some e → Holds r.1 e

/-- Each row of the file, a repetition too, is stored under an id of its own. -/
structure RowsStored (rows : List Interaction) (s : Store) : Prop where
  injective : ∀ r ∈ numberRows [] rows, ∀ r' ∈ numberRows [] rows,
    interactionId r.1 r.2 = interactionId r'.1 r'.2 → r = r'
  stored : ∀ r ∈ numberRows [] rows, ∃ e,
    s.events.get? (interactionId r.1 r.2) = some e ∧ Holds r.1 e

/-- The events of a file's ids. -/
theorem ids_eventRows (now : Time) (rows : List Interaction) :
    (eventRows now rows).map Prod.fst =
      (numberRows [] rows).map fun r => interactionId r.1 r.2 := by
  simp [eventRows, logEvent]

/-- **The rows of a load.**  Whether they are stored once each. -/
theorem rowsStored_iff {rows : List Interaction} {now : Time} {s s' : Store}
    (h : s'.events = s.events.insertAll (eventRows now rows)) :
    RowsStored rows s' ↔ NoClash rows ∧ Own rows s := by
  constructor
  · intro hstored
    refine ⟨noClash_iff.mpr hstored.injective, ?_⟩
    intro r hr e he
    obtain ⟨e', he', hholds⟩ := hstored.stored r hr
    rw [h, Table.get?_insertAll_of_some _ he] at he'
    exact Option.some.inj he' ▸ hholds
  · rintro ⟨hclash, hown⟩
    have hinjective := noClash_iff.mp hclash
    refine ⟨hinjective, ?_⟩
    intro r hr
    rw [h, Table.get?_insertAll]
    cases hold : s.events.get? (interactionId r.1 r.2) with
    | some e => exact ⟨e, rfl, hown r hr e hold⟩
    | none =>
        have hmem : logEvent now r ∈ eventRows now rows := List.mem_map_of_mem hr
        have hsome : ((eventRows now rows).find? fun row =>
            decide (row.1 = interactionId r.1 r.2)).isSome = true :=
          List.find?_isSome.mpr ⟨_, hmem, decide_eq_true rfl⟩
        obtain ⟨row, hrow⟩ := Option.isSome_iff_exists.mp hsome
        obtain ⟨r', hr', rfl⟩ := List.mem_map.mp (List.mem_of_find?_eq_some hrow)
        have hid := List.find?_some hrow
        obtain rfl := hinjective r' hr' r hr (of_decide_eq_true hid)
        rw [hrow]
        exact ⟨_, rfl, rfl, rfl, rfl⟩

/-! ## What is stored stays -/

theorem insert_keeps {products : Table String Product} {id : String} (row : Product) {k : String}
    (h : products.get? k ≠ none) : (products.insert id row).get? k ≠ none := by
  rw [Table.get?_insert_cases]
  split
  · exact Option.some_ne_none _
  · exact h

theorem update_keeps {products : Table String Product} {id : String} (f : Product → Product)
    {k : String} (h : products.get? k ≠ none) : (products.update id f).get? k ≠ none := by
  rw [Table.get?_update]
  split
  · exact fun hnone => h (Option.map_eq_none_iff.mp hnone)
  · exact h

/-- The writes of a sync. -/
theorem applyWrites_keeps (writes : List ProductWrite) {products : Table String Product} {k : String}
    (h : products.get? k ≠ none) : (applyWrites products writes).get? k ≠ none := by
  induction writes generalizing products with
  | nil => exact h
  | cons write writes ih =>
      refine ih ?_
      cases write with
      | create id row => exact insert_keeps row h
      | update id loaded assigned => exact update_keeps _ h

theorem insertAll_keeps {ρ : Type} {t : Table String ρ} (rows : List (String × ρ)) {k : String}
    (h : t.get? k ≠ none) : (t.insertAll rows).get? k ≠ none := by
  obtain ⟨r, hr⟩ := Option.ne_none_iff_exists'.mp h
  rw [Table.get?_insertAll_of_some _ hr]
  exact Option.some_ne_none r

/-- What a request does to the products keeps them stored. -/
theorem opEnds_keepProducts {cfg : Config} {op : Op} {notes : List Note} {s s' : Store} {t : Time}
    {result : Result} (h : OpEnds cfg op notes s t result s') {k : String}
    (hk : s.products.get? k ≠ none) : s'.products.get? k ≠ none := by
  cases opEnds_writes h with
  | nothing => exact hk
  | event _ hwrite =>
      rw [writeEvent_ok hwrite]
      exact hk
  | batch _ hwrite =>
      rw [writeBatch_ok hwrite]
      exact hk
  | load hwrite =>
      rw [writeLoad_ok hwrite]
      exact insertAll_keeps _ hk
  | sync _ hwrite =>
      rw [writeSync_ok hwrite]
      exact applyWrites_keeps _ hk
  | create => exact insert_keeps _ hk
  | flush => exact update_keeps _ hk
  | versions hsame =>
      rw [hsame.products]
      exact hk

/-- What a request does to the events keeps them stored. -/
theorem opEnds_keepEvents {cfg : Config} {op : Op} {notes : List Note} {s s' : Store} {t : Time}
    {result : Result} (h : OpEnds cfg op notes s t result s') {k : String}
    (hk : s.events.get? k ≠ none) : s'.events.get? k ≠ none := by
  obtain ⟨new, hgrow⟩ := opEnds_grow h
  rw [Ne, Table.get?_eq_none_iff, not_not] at hk ⊢
  rw [hgrow.rows, List.map_append]
  exact List.mem_append_left _ hk

/-! ## The file again -/

/-- The rows and the items of a file are stored. -/
structure Loaded (rows : List Interaction) (s : Store) : Prop where
  events : ∀ r ∈ numberRows [] rows, s.events.get? (interactionId r.1 r.2) ≠ none
  products : ∀ item ∈ itemIds rows, s.products.get? item ≠ none

/-- The second of two uploads of a file stores nothing new and books nothing. -/
def StoredOnce (first second : LogEntry) : Prop :=
  ∀ id id' rows accepted, first.op = .loadInteractionLog id rows →
    first.result = .ok (.upload accepted) → second.op = .loadInteractionLog id' rows →
    second.after.events = second.before.events ∧
    second.after.products = second.before.products ∧
    second.after.usage = second.before.usage ∧
    ∀ accepted', second.result = .ok (.upload accepted') → accepted' = ⟨0, 0⟩

/-- A load leaves its rows stored. -/
theorem loaded_of_ends {cfg : Config} {id : ℕ} {rows : List Interaction} {notes : List Note}
    {s s' : Store} {t : Time} {accepted : UploadResponse}
    (h : LoadEnds cfg id rows notes s t (.ok (.upload accepted)) s') :
    Loaded rows s' ∧ ∃ now, s'.events = s.events.insertAll (eventRows now rows) := by
  cases h with
  | stored hfits hroom htime hwrite =>
      rename_i now
      rw [writeLoad_ok hwrite]
      refine ⟨⟨?_, ?_⟩, now, rfl⟩
      · intro r hr
        rw [← Option.isSome_iff_ne_none, Table.isSome_get?_insertAll, ids_eventRows]
        exact Or.inr (List.mem_map_of_mem hr)
      · intro item hitem
        rw [← Option.isSome_iff_ne_none, Table.isSome_get?_insertAll]
        refine Or.inr ?_
        simpa [logProducts, logProduct] using hitem

/-- A load of rows that are stored. -/
theorem ends_of_loaded {cfg : Config} {id : ℕ} {rows : List Interaction} {notes : List Note}
    {s s' : Store} {t : Time} {result : Result} (hloaded : Loaded rows s)
    (h : LoadEnds cfg id rows notes s t result s') :
    s'.events = s.events ∧ s'.products = s.products ∧ s'.usage = s.usage ∧
      ∀ accepted, result = .ok (.upload accepted) → accepted = ⟨0, 0⟩ := by
  cases h with
  | outOfRange | productsRefused | eventsRefused | rejected => exact ⟨rfl, rfl, rfl, nofun⟩
  | stored hfits hroom htime hwrite =>
      rename_i now
      have hevents : s.events.insertAll (eventRows now rows) = s.events := by
        refine Table.insertAll_of_stored _ ?_
        intro k hk
        rw [ids_eventRows] at hk
        obtain ⟨r, hr, rfl⟩ := List.mem_map.mp hk
        exact hloaded.events r hr
      have hproducts : s.products.insertAll (logProducts now rows) = s.products := by
        refine Table.insertAll_of_stored _ ?_
        intro k hk
        refine hloaded.products k ?_
        simpa [logProducts, logProduct] using hk
      have haccepted : loadAccepted s now rows = ⟨0, 0⟩ := by
        simp [loadAccepted, acceptedEvents, acceptedProducts, hevents, hproducts]
      rw [writeLoad_ok hwrite]
      refine ⟨hevents, hproducts, ?_, ?_⟩
      · simp [haccepted, booked]
      · intro accepted h
        cases h
        exact haccepted

/-! ## Every run -/

/-- **Rows of interaction logs.**  Each load that is answered has stored each row of its file
once just when no two rows clash and the ids were not stored for something else; and another
load of the file stores nothing new. -/
theorem interactions_stored {cfg : Config} {first : Start} {as : List (Action Op)}
    {st : SystemState} (h : Run (tenant cfg first) anyStep (tenant cfg first).init as st) :
    (∀ entry ∈ st.log, ∀ id rows accepted, entry.op = .loadInteractionLog id rows →
      entry.result = .ok (.upload accepted) →
      (RowsStored rows entry.after ↔ NoClash rows ∧ Own rows entry.before)) ∧
    st.log.Pairwise StoredOnce := by
  obtain ⟨t, -, hserial⟩ := serializable cfg h
  constructor
  · intro entry hentry id rows accepted hop hresult
    have hgood := (hserial.each hentry).2
    rw [hop, hresult] at hgood
    obtain ⟨-, now, hevents⟩ := loaded_of_ends hgood
    exact rowsStored_iff hevents
  · refine (hserial.pairwise (K := fun e s => ∀ id rows accepted,
      e.op = .loadInteractionLog id rows → e.result = .ok (.upload accepted) → Loaded rows s)
      ?_ ?_ ?_).1
    · intro e _ hgood id rows accepted hop hresult
      rw [hop, hresult] at hgood
      exact (loaded_of_ends hgood).1
    · intro e op notes s t result s' _ hleft hgood id rows accepted hop hresult
      have hloaded := hleft id rows accepted hop hresult
      exact ⟨fun r hr => opEnds_keepEvents hgood (hloaded.events r hr),
        fun item hitem => opEnds_keepProducts hgood (hloaded.products item hitem)⟩
    · intro e e' _ hleft hgood id id' rows accepted hop hresult hop'
      rw [hop'] at hgood
      exact ends_of_loaded (hleft id rows accepted hop hresult) hgood

/-- The file that a request loads. -/
def Op.file : Op → Option (ℕ × List Interaction)
  | .loadInteractionLog id rows => some (id, rows)
  | _ => none

theorem op_of_file {op : Op} {id : ℕ} {rows : List Interaction} (h : op.file = some (id, rows)) :
    op = .loadInteractionLog id rows := by
  cases op with
  | loadInteractionLog id' rows' =>
      simp only [Op.file, Option.some.injEq, Prod.mk.injEq] at h
      rw [h.1, h.2]
  | _ => cases h

/-- A file with a repetition and a colon, which is uploaded twice. -/
def repeatedFile : List Interaction := [⟨"ann", "sofa", 5⟩, ⟨"ann", "a:b", 6⟩, ⟨"ann", "sofa", 5⟩]

/-- An event registers the user; then the file comes, and comes again. -/
def uploadedTwiceRun : List (Action Op) :=
  [.start 0 (.submitEvent (someEvent "e" "lamp")), .start 1 (.loadInteractionLog 7 repeatedFile),
    .start 2 (.loadInteractionLog 8 repeatedFile)] ++
    statements 0 10 ++ statements 1 17 ++ statements 2 9

/-- That run is one: its three rows are stored by the first upload. -/
theorem interactions_stored_twice :
    ∃ st, Run (tenant (smallPlan 5 5 5) oneProduct) anyStep
        (tenant (smallPlan 5 5 5) oneProduct).init uploadedTwiceRun st ∧
      st.log.map (fun entry => (entry.op.file.isSome, entry.result)) =
        [(false, .ok (.event ⟨"e", true, false, 0⟩)), (true, .ok (.upload ⟨3, 2⟩)),
          (true, .ok (.upload ⟨0, 0⟩))] ∧
      (∀ entry ∈ st.log, ∀ id rows accepted, entry.op = .loadInteractionLog id rows →
        entry.result = .ok (.upload accepted) →
        (RowsStored rows entry.after ↔ NoClash rows ∧ Own rows entry.before)) ∧
      st.log.Pairwise StoredOnce := by
  have hdone : (exec (tenant (smallPlan 5 5 5) oneProduct)
      (tenant (smallPlan 5 5 5) oneProduct).init uploadedTwiceRun).map
      (fun st => st.log.map fun entry => (entry.op.file.isSome, entry.result)) =
      some [(false, .ok (.event ⟨"e", true, false, 0⟩)), (true, .ok (.upload ⟨3, 2⟩)),
        (true, .ok (.upload ⟨0, 0⟩))] := by
    decide +kernel
  obtain ⟨st, hexec, hlog⟩ := Option.map_eq_some_iff.mp hdone
  exact ⟨st, run_of_exec hexec, hlog, interactions_stored (run_of_exec hexec)⟩

/-- A file whose two rows share an id. -/
def clashingFile : String := "user_id,item_id,time\nann,b:c,5\nann:b,c,5"

/-- The rows of that file. -/
def clashingRows : List Interaction := [⟨"ann", "b:c", 5⟩, ⟨"ann:b", "c", 5⟩]

/-- An event registers the user; then the file comes. -/
def clashingRun : List (Action Op) :=
  [.start 0 (.submitEvent (someEvent "e" "lamp")), .start 1 (.loadInteractionLog 7 clashingRows)] ++
    statements 0 10 ++ statements 1 17

/-- A log that the parser accepts is loaded and not stored. -/
theorem not_interactions_stored :
    ¬ ∀ (rawContent : String) (rows : List Interaction) (as : List (Action Op)) (st : SystemState),
      parseInteractionLog rawContent = .ok (some rows) →
      Run (tenant (smallPlan 5 5 5) oneProduct) anyStep (tenant (smallPlan 5 5 5) oneProduct).init
        as st →
      ∀ entry ∈ st.log, ∀ id accepted, entry.op = .loadInteractionLog id rows →
        entry.result = .ok (.upload accepted) → RowsStored rows entry.after := by
  intro hall
  have hparsed : parseInteractionLog clashingFile = .ok (some clashingRows) := by decide +kernel
  have hdone : (exec (tenant (smallPlan 5 5 5) oneProduct)
      (tenant (smallPlan 5 5 5) oneProduct).init clashingRun).map
      (fun st => st.log.map fun entry => (entry.op.file, entry.result)) =
      some [(none, .ok (.event ⟨"e", true, false, 0⟩)),
        (some (7, clashingRows), .ok (.upload ⟨1, 2⟩))] := by
    decide +kernel
  obtain ⟨st, hexec, hlog⟩ := Option.map_eq_some_iff.mp hdone
  have hload : (some (7, clashingRows), Except.ok (Answer.upload ⟨1, 2⟩)) ∈
      st.log.map fun entry => (entry.op.file, entry.result) := by
    rw [hlog]
    exact List.mem_cons_of_mem _ (List.mem_singleton_self _)
  obtain ⟨entry, hentry, heq⟩ := List.mem_map.mp hload
  simp only [Prod.mk.injEq] at heq
  have hstored := hall clashingFile clashingRows clashingRun st hparsed (run_of_exec hexec) entry
    hentry 7 ⟨1, 2⟩ (op_of_file heq.1) heq.2
  have hsame := hstored.injective (⟨"ann", "b:c", 5⟩, 0) (by decide) (⟨"ann:b", "c", 5⟩, 0)
    (by decide) (by decide +kernel)
  exact absurd hsame (by decide)

end Ingestion
