import GraphRec.Ingestion.LogParser

/-!
# Uploading an interaction log: which exceptions escape

`logEventRows` is `_parse_interaction_log` followed by the rows of events that
`load_interaction_log` builds.  What a text should come to is stated about its records: a row
for each that is not blank, in their order, or one of the API's own errors.

Four things let another exception out: the reader fails on the header line, or on a later line
that the rows reach; a time is infinite; the time of a row is outside of the years 1 to 9999.

`Totality.total_iff` — there is no other way.
-/

namespace Ingestion

/-- `_parse_interaction_log` and the `event_rows` of `load_interaction_log`. -/
def logEventRows (now : Time) (rawContent : String) :
    Except Answer (Option (List (String × CustomerEvent))) :=
  match parseInteractionLog rawContent with
  | .error answer => .error answer
  | .ok none => .ok none
  | .ok (some rows) =>
      if rows.any fun row => !timestampInRange row.time then
        .error (.raised "ValueError: year is out of range")
      else .ok (some (eventRows now rows))

namespace Totality

/-! ## What a text should come to -/

/-- The text without the byte order mark and the white space around it. -/
def logText (rawContent : String) : List Char :=
  Text.stripChars (rawContent.toList.dropWhile fun c => decide (c = byteOrderMark))

/-- The text is empty or JSON. -/
def NotCsv (text : List Char) : Prop :=
  text = [] ∨ text.head? = some '[' ∨ text.head? = some '\x7b'

/-- The names in a header line. -/
def names (header : List Csv.Field) : List String :=
  header.map fun field => String.ofList (Text.stripChars field)

/-- The text is a log: the columns are named in its header line, the records follow, and the
reader ends with them or fails after them. -/
def IsLog (rawContent : String) (columns : Columns) (records : List (List Csv.Field))
    (error : Option Csv.ReadError) : Prop :=
  ¬ NotCsv (logText rawContent) ∧ ∃ header,
    Csv.read false Csv.fieldSizeLimit (logText rawContent) = ⟨header :: records, error⟩ ∧
      columnsOf (names header) = some columns

/-- The reader fails on the header line. -/
def Unreadable (rawContent : String) (e : Csv.ReadError) : Prop :=
  ¬ NotCsv (logText rawContent) ∧
    Csv.read false Csv.fieldSizeLimit (logText rawContent) = ⟨[], some e⟩

/-- The row has the values of the record. -/
structure RowOf (columns : Columns) (record : List Csv.Field) (row : Interaction) : Prop where
  user : ∃ field, record[columns.userAt]? = some field ∧
    row.user = String.ofList (Text.stripChars field)
  item : ∃ field, record[columns.itemAt]? = some field ∧
    row.item = String.ofList (Text.stripChars field)
  time : ∃ field, record[columns.timeAt]? = some field ∧ intOfFloat field = .int row.time
  valid : idsValid row.user row.item = true

/-- The rows are those of the records that are not blank, in their order. -/
def Rows (columns : Columns) (records : List (List Csv.Field)) (rows : List Interaction) : Prop :=
  List.Forall₂ (RowOf columns) (records.filter fun record => !isBlankRecord record) rows

/-- The event is that of the row, at its time. -/
structure EventOf (row : Interaction) (event : String × CustomerEvent) : Prop where
  user : event.2.userId = some row.user
  item : event.2.externalProductId = some row.item
  occurredAt : event.2.occurredAt = row.time * 1000000
  inRange : timestampInRange row.time = true

/-- The errors of the API: for a malformed or invalid row, for no rows, and for too many. -/
def OwnError (e : ApiError) : Prop :=
  (e.statusCode = 422 ∧ e.code = "validation_failed") ∨
    (e.statusCode = 413 ∧ e.code = "payload_too_large")

/-- The text is reported not to be a log, and is none; or the events of its rows are built; or
an error of the API is raised. -/
def Total (now : Time) (rawContent : String) : Prop :=
  (logEventRows now rawContent = .ok none ∧
      ∀ columns records error, ¬ IsLog rawContent columns records error) ∨
    (∃ columns records rows events, IsLog rawContent columns records none ∧
      Rows columns records rows ∧ List.Forall₂ EventOf rows events ∧
        logEventRows now rawContent = .ok (some events)) ∨
    ∃ e, OwnError e ∧ logEventRows now rawContent = .error (.error e)

/-! ## What escapes -/

/-- A user, an item, and a time that is infinite or too large for a number. -/
structure InfiniteTime (columns : Columns) (record : List Csv.Field) : Prop where
  user : record[columns.userAt]? ≠ none
  item : record[columns.itemAt]? ≠ none
  time : ∃ field, record[columns.timeAt]? = some field ∧ intOfFloat field = .overflowError

/-- The texts that another exception escapes for. -/
inductive Escapes (rawContent : String) : Prop
  /-- The reader fails on the header line. -/
  | header {e : Csv.ReadError} (hread : Unreadable rawContent e)
  /-- The rows reach a record whose time is infinite. -/
  | infinite {columns : Columns} {done rest : List (List Csv.Field)} {record : List Csv.Field}
      {error : Option Csv.ReadError} {rows : List Interaction}
      (hlog : IsLog rawContent columns (done ++ record :: rest) error)
      (hrows : Rows columns done rows) (hroom : rows.length ≤ maxInteractionRows)
      (htime : InfiniteTime columns record)
  /-- The rows reach a line that the reader fails on. -/
  | reader {columns : Columns} {records : List (List Csv.Field)} {e : Csv.ReadError}
      {rows : List Interaction} (hlog : IsLog rawContent columns records (some e))
      (hrows : Rows columns records rows) (hroom : rows.length ≤ maxInteractionRows)
  /-- All records are rows, and the time of one is not in the calendar. -/
  | date {columns : Columns} {records : List (List Csv.Field)} {rows : List Interaction}
      {row : Interaction} (hlog : IsLog rawContent columns records none)
      (hrows : Rows columns records rows) (hroom : rows.length ≤ maxInteractionRows)
      (hrow : row ∈ rows) (hdate : timestampInRange row.time = false)

/-! ## One record -/

variable {columns : Columns} {number : ℕ} {record : List Csv.Field} {row : Interaction}
  {rows before : List Interaction} {records : List (List Csv.Field)} {error : Option Csv.ReadError}
  {rawContent : String}

/-- A record is read as the row that it is. -/
theorem readRow_eq_ok_iff : readRow columns number record = .ok row ↔ RowOf columns record row := by
  unfold readRow
  constructor
  · intro h
    split at h
    · next user item time huser hitem htime =>
        split at h
        · cases h
        · cases h
        · next moment hmoment =>
            dsimp only at h
            split at h
            · next hvalid =>
                cases h
                exact ⟨⟨user, huser, rfl⟩, ⟨item, hitem, rfl⟩, ⟨time, htime, hmoment⟩, hvalid⟩
            · cases h
    · cases h
  · rintro ⟨⟨user, huser, huser'⟩, ⟨item, hitem, hitem'⟩, ⟨time, htime, htime'⟩, hvalid⟩
    rw [huser, hitem, htime]
    dsimp only
    rw [htime']
    dsimp only
    rw [← huser', ← hitem', if_pos hvalid]

/-- What a record that is no row comes to. -/
theorem readRow_error {answer : Answer} (h : readRow columns number record = .error answer) :
    (answer = .raised overflowText ∧ InfiniteTime columns record) ∨
      ((∃ e, OwnError e ∧ answer = .error e) ∧ ¬ InfiniteTime columns record) := by
  unfold readRow at h
  split at h
  · next user item time huser hitem htime =>
      have hfinite (hne : intOfFloat time ≠ .overflowError) : ¬ InfiniteTime columns record := by
        rintro ⟨-, -, field, hfield, hoverflow⟩
        cases htime.symm.trans hfield
        exact hne hoverflow
      split at h
      · next hvalue =>
          cases h
          exact Or.inr ⟨⟨_, Or.inl ⟨rfl, rfl⟩, rfl⟩, hfinite (by simp [hvalue])⟩
      · next hoverflow =>
          cases h
          exact Or.inl ⟨rfl, by simp [huser], by simp [hitem], time, htime, hoverflow⟩
      · next moment hmoment =>
          dsimp only at h
          split at h
          · cases h
          · cases h
            exact Or.inr ⟨⟨_, Or.inl ⟨rfl, rfl⟩, rfl⟩, hfinite (by simp [hmoment])⟩
  · next hnone =>
      cases h
      refine Or.inr ⟨⟨_, Or.inl ⟨rfl, rfl⟩, rfl⟩, ?_⟩
      rintro ⟨huser, hitem, time, htime, -⟩
      obtain ⟨user, huser⟩ := Option.ne_none_iff_exists'.mp huser
      obtain ⟨item, hitem⟩ := Option.ne_none_iff_exists'.mp hitem
      exact hnone user item time huser hitem htime

/-- A row is that of one record, and its time is finite. -/
theorem RowOf.finite (h : RowOf columns record row) : ¬ InfiniteTime columns record := by
  obtain ⟨field, hfield, hmoment⟩ := h.time
  rintro ⟨-, -, field', hfield', hoverflow⟩
  cases hfield.symm.trans hfield'
  cases hmoment.symm.trans hoverflow

/-- Nothing can be infinite in a blank record. -/
theorem InfiniteTime.nonblank (h : InfiniteTime columns record) : isBlankRecord record = false := by
  obtain ⟨field, hfield, hoverflow⟩ := h.time
  by_contra hblank
  rw [Bool.not_eq_false, isBlankRecord, List.all_eq_true] at hblank
  have hempty : Text.stripChars field = [] := by
    simpa using hblank field (List.mem_of_getElem? hfield)
  rw [intOfFloat, hempty] at hoverflow
  exact absurd hoverflow (by decide)

/-! ## The records -/

theorem rows_cons_blank (hblank : isBlankRecord record = true) :
    Rows columns (record :: records) rows ↔ Rows columns records rows := by
  simp [Rows, hblank]

theorem rows_cons (hblank : isBlankRecord record = false) :
    Rows columns (record :: records) rows ↔
      ∃ row rest, RowOf columns record row ∧ Rows columns records rest ∧ rows = row :: rest := by
  simp [Rows, hblank, List.forall₂_cons_left_iff]

/-- After `count` rows, the records come to an infinite time or to what the reader fails on. -/
inductive Fails (columns : Columns) (error : Option Csv.ReadError) (count : ℕ)
    (records : List (List Csv.Field)) : Prop
  | infinite {done rest : List (List Csv.Field)} {record : List Csv.Field}
      {rows : List Interaction} (hrecords : records = done ++ record :: rest)
      (hrows : Rows columns done rows) (hroom : count + rows.length ≤ maxInteractionRows)
      (htime : InfiniteTime columns record)
  | reader {rows : List Interaction} (herror : error ≠ none) (hrows : Rows columns records rows)
      (hroom : count + rows.length ≤ maxInteractionRows)

variable {count : ℕ}

theorem fails_nil (hcount : count ≤ maxInteractionRows) :
    Fails columns error count [] ↔ error ≠ none := by
  constructor
  · intro h
    cases h with
    | infinite hrecords => simp at hrecords
    | reader herror => exact herror
  · intro herror
    exact .reader herror .nil hcount

/-- A blank record is passed over. -/
theorem fails_blank (hblank : isBlankRecord record = true) :
    Fails columns error count (record :: records) ↔ Fails columns error count records := by
  constructor
  · intro h
    cases h with
    | infinite hrecords hrows hroom htime =>
        rcases List.cons_eq_append_iff.mp hrecords with ⟨rfl, hrest⟩ | ⟨done, rfl, hrest⟩
        · cases hrest
          exact absurd htime.nonblank (by simp [hblank])
        · exact .infinite hrest ((rows_cons_blank hblank).mp hrows) hroom htime
    | reader herror hrows hroom => exact .reader herror ((rows_cons_blank hblank).mp hrows) hroom
  · intro h
    cases h with
    | infinite hrecords hrows hroom htime =>
        exact .infinite (congrArg (record :: ·) hrecords) ((rows_cons_blank hblank).mpr hrows) hroom
          htime
    | reader herror hrows hroom => exact .reader herror ((rows_cons_blank hblank).mpr hrows) hroom

/-- A record that is no row ends the reading. -/
theorem fails_stop (hblank : isBlankRecord record = false)
    (hnone : ∀ row, ¬ RowOf columns record row) (hcount : count ≤ maxInteractionRows) :
    Fails columns error count (record :: records) ↔ InfiniteTime columns record := by
  have hstuck (after : List (List Csv.Field)) (rows : List Interaction) :
      ¬ Rows columns (record :: after) rows := by
    intro hrows
    obtain ⟨row, -, hrow, -⟩ := (rows_cons hblank).mp hrows
    exact hnone row hrow
  constructor
  · intro h
    cases h with
    | infinite hrecords hrows _ htime =>
        rcases List.cons_eq_append_iff.mp hrecords with ⟨rfl, hrest⟩ | ⟨done, rfl, -⟩
        · cases hrest
          exact htime
        · exact absurd hrows (hstuck _ _)
    | reader _ hrows => exact absurd hrows (hstuck _ _)
  · intro htime
    exact .infinite (List.nil_append _).symm .nil hcount htime

/-- A row is counted. -/
theorem fails_row (hblank : isBlankRecord record = false) (hrow : RowOf columns record row) :
    Fails columns error count (record :: records) ↔ Fails columns error (count + 1) records := by
  constructor
  · intro h
    cases h with
    | infinite hrecords hrows hroom htime =>
        rcases List.cons_eq_append_iff.mp hrecords with ⟨rfl, hrest⟩ | ⟨done, rfl, hrest⟩
        · cases hrest
          exact absurd htime hrow.finite
        · obtain ⟨row', rest, -, hrest', rfl⟩ := (rows_cons hblank).mp hrows
          rw [List.length_cons] at hroom
          exact .infinite hrest hrest' (by omega) htime
    | reader herror hrows hroom =>
        obtain ⟨row', rest, -, hrest, rfl⟩ := (rows_cons hblank).mp hrows
        rw [List.length_cons] at hroom
        exact .reader herror hrest (by omega)
  · intro h
    cases h with
    | infinite hrecords hrows hroom htime =>
        refine .infinite (congrArg (record :: ·) hrecords)
          ((rows_cons hblank).mpr ⟨row, _, hrow, hrows, rfl⟩) ?_ htime
        rw [List.length_cons]
        omega
    | reader herror hrows hroom =>
        refine .reader herror ((rows_cons hblank).mpr ⟨row, _, hrow, hrows, rfl⟩) ?_
        rw [List.length_cons]
        omega

/-- **What the reading of the records raises.**  It raises another exception exactly when the
records fail. -/
theorem readRows_raised_iff (hroom : before.length ≤ maxInteractionRows) :
    (∃ text, readRows columns error number before records = .error (.raised text)) ↔
      Fails columns error before.length records := by
  induction records generalizing number before with
  | nil =>
      rw [fails_nil hroom]
      unfold readRows
      cases error with
      | some e => simp
      | none =>
          dsimp only
          split <;> simp
  | cons record records ih =>
      unfold readRows
      split
      · next hblank => rw [ih hroom, fails_blank hblank]
      · next hblank =>
          rw [Bool.not_eq_true] at hblank
          cases hrow : readRow columns number record with
          | ok row =>
              rw [fails_row hblank (readRow_eq_ok_iff.mp hrow)]
              dsimp only
              split
              · next hfull =>
                  refine iff_of_false (by simp) ?_
                  rintro (⟨-, -, hroom', -⟩ | ⟨-, -, hroom'⟩) <;> omega
              · next hfits =>
                  have hlength : (before ++ [row]).length = before.length + 1 := by simp
                  rw [ih (by omega), hlength]
          | error answer =>
              have hnone : ∀ row, ¬ RowOf columns record row := by
                intro row hrow'
                rw [readRow_eq_ok_iff.mpr hrow'] at hrow
                cases hrow
              rw [fails_stop hblank hnone hroom]
              rcases readRow_error hrow with ⟨rfl, htime⟩ | ⟨⟨e, -, rfl⟩, htime⟩
              · exact iff_of_true ⟨_, rfl⟩ htime
              · exact iff_of_false (by simp) htime

/-- The rows that the reading of the records yields. -/
theorem readRows_eq_ok_iff (hroom : before.length ≤ maxInteractionRows) :
    readRows columns error number before records = .ok rows ↔
      error = none ∧ rows ≠ [] ∧ rows.length ≤ maxInteractionRows ∧
        ∃ new, Rows columns records new ∧ rows = before ++ new := by
  induction records generalizing number before with
  | nil =>
      have hnil : ∀ new, Rows columns [] new ↔ new = [] := fun new => List.forall₂_nil_left_iff
      unfold readRows
      cases error with
      | some e => simp
      | none =>
          simp only [hnil, exists_eq_left, List.append_nil]
          split
          · next hempty => simp +contextual [hempty]
          · next hsome =>
              simp only [Except.ok.injEq, true_and]
              exact ⟨by rintro rfl; exact ⟨hsome, hroom, rfl⟩, fun h => h.2.2.symm⟩
  | cons record records ih =>
      unfold readRows
      split
      · next hblank => simp only [ih hroom, rows_cons_blank hblank]
      · next hblank =>
          rw [Bool.not_eq_true] at hblank
          simp only [rows_cons hblank]
          cases hrow : readRow columns number record with
          | ok row =>
              have hrowOf := readRow_eq_ok_iff.mp hrow
              have hunique (row' : Interaction) (h : RowOf columns record row') : row' = row :=
                Except.ok.inj ((readRow_eq_ok_iff.mpr h).symm.trans hrow)
              dsimp only
              split
              · next hfull =>
                  refine iff_of_false (by simp) ?_
                  rintro ⟨-, -, hlength, new, ⟨row', rest, -, -, rfl⟩, rfl⟩
                  rw [List.length_append, List.length_cons] at hlength
                  omega
              · next hfits =>
                  rw [ih (by simpa using Nat.not_lt.mp hfits)]
                  refine and_congr_right fun _ => and_congr_right fun _ =>
                    and_congr_right fun _ => ?_
                  constructor
                  · rintro ⟨new, hnew, rfl⟩
                    exact ⟨row :: new, ⟨row, new, hrowOf, hnew, rfl⟩, by simp⟩
                  · rintro ⟨new, ⟨row', rest, hrow', hrest, rfl⟩, rfl⟩
                    obtain rfl := hunique row' hrow'
                    exact ⟨rest, hrest, by simp⟩
          | error answer =>
              refine iff_of_false (by simp) ?_
              rintro ⟨-, -, -, new, ⟨row, rest, hrow', -⟩, -⟩
              rw [readRow_eq_ok_iff.mpr hrow'] at hrow
              cases hrow

/-- An error is one of the API's own, or another exception. -/
theorem readRows_error {answer : Answer}
    (h : readRows columns error number before records = .error answer) :
    (∃ e, OwnError e ∧ answer = .error e) ∨ ∃ text, answer = .raised text := by
  induction records generalizing number before with
  | nil =>
      unfold readRows at h
      split at h
      · cases h
        exact Or.inr ⟨_, rfl⟩
      · split at h
        · cases h
          exact Or.inl ⟨_, Or.inl ⟨rfl, rfl⟩, rfl⟩
        · cases h
  | cons record records ih =>
      unfold readRows at h
      split at h
      · exact ih h
      · split at h
        · next hrow =>
            cases h
            rcases readRow_error hrow with ⟨rfl, -⟩ | ⟨howned, -⟩
            · exact Or.inr ⟨_, rfl⟩
            · exact Or.inl howned
        · split at h
          · cases h
            exact Or.inl ⟨_, Or.inr ⟨rfl, rfl⟩, rfl⟩
          · exact ih h

/-! ## The text -/

/-- What the text is, and what the parser comes to. -/
theorem parse_cases (rawContent : String) :
    (parseInteractionLog rawContent = .ok none ∧
        (∀ columns records error, ¬ IsLog rawContent columns records error) ∧
          ∀ e, ¬ Unreadable rawContent e) ∨
      (∃ e, Unreadable rawContent e ∧
        parseInteractionLog rawContent = .error (.raised (readErrorText e))) ∨
      ∃ columns records error, IsLog rawContent columns records error ∧
        parseInteractionLog rawContent = (readRows columns error 2 [] records).map some := by
  by_cases hcsv : NotCsv (logText rawContent)
  · exact Or.inl ⟨if_pos hcsv, fun _ _ _ h => h.1 hcsv, fun _ h => h.1 hcsv⟩
  have hparse := show parseInteractionLog rawContent = _ from if_neg hcsv
  cases hread : Csv.read false Csv.fieldSizeLimit (logText rawContent) with
  | mk found error =>
      unfold logText at hread
      rw [hread] at hparse
      cases found with
      | nil =>
          cases error with
          | none =>
              refine Or.inl ⟨hparse, ?_, ?_⟩
              · rintro _ _ _ ⟨-, _, hread', -⟩
                cases hread.symm.trans hread'
              · rintro _ ⟨-, hread'⟩
                cases hread.symm.trans hread'
          | some e => exact Or.inr (Or.inl ⟨e, ⟨hcsv, hread⟩, hparse⟩)
      | cons header records =>
          dsimp only at hparse
          cases hcolumns : columnsOf (names header) with
          | none =>
              unfold names at hcolumns
              rw [hcolumns] at hparse
              refine Or.inl ⟨hparse, ?_, ?_⟩
              · rintro _ _ _ ⟨-, _, hread', hcolumns'⟩
                cases hread.symm.trans hread'
                cases hcolumns.symm.trans hcolumns'
              · rintro _ ⟨-, hread'⟩
                cases hread.symm.trans hread'
          | some columns =>
              refine Or.inr (Or.inr ⟨columns, records, error, ⟨hcsv, header, hread, hcolumns⟩, ?_⟩)
              unfold names at hcolumns
              rw [hcolumns] at hparse
              exact hparse

/-- A text is a log in one way. -/
theorem IsLog.unique {columns' : Columns} {records' : List (List Csv.Field)}
    {error' : Option Csv.ReadError} (h : IsLog rawContent columns records error)
    (h' : IsLog rawContent columns' records' error') :
    columns = columns' ∧ records = records' ∧ error = error' := by
  obtain ⟨-, header, hread, hcolumns⟩ := h
  obtain ⟨-, header', hread', hcolumns'⟩ := h'
  cases hread.symm.trans hread'
  cases hcolumns.symm.trans hcolumns'
  exact ⟨rfl, rfl, rfl⟩

theorem IsLog.readable {e : Csv.ReadError} (h : IsLog rawContent columns records error) :
    ¬ Unreadable rawContent e := by
  obtain ⟨-, header, hread, -⟩ := h
  rintro ⟨-, hread'⟩
  cases hread.symm.trans hread'

/-- What escapes for a log. -/
theorem escapes_iff (hlog : IsLog rawContent columns records error) :
    Escapes rawContent ↔ Fails columns error 0 records ∨
      ∃ rows, readRows columns error 2 [] records = .ok rows ∧
        ∃ row ∈ rows, timestampInRange row.time = false := by
  constructor
  · intro h
    cases h with
    | header hread => exact absurd hread hlog.readable
    | infinite hlog' hrows hroom htime =>
        obtain ⟨rfl, hrecords, -⟩ := hlog.unique hlog'
        exact Or.inl (.infinite hrecords hrows (by omega) htime)
    | reader hlog' hrows hroom =>
        obtain ⟨rfl, rfl, rfl⟩ := hlog.unique hlog'
        exact Or.inl (.reader (by simp) hrows (by omega))
    | @date _ _ rows row hlog' hrows hroom hrow hdate =>
        obtain ⟨rfl, rfl, rfl⟩ := hlog.unique hlog'
        refine Or.inr ⟨rows, ?_, row, hrow, hdate⟩
        exact (readRows_eq_ok_iff (Nat.zero_le _)).mpr
          ⟨rfl, List.ne_nil_of_mem hrow, hroom, rows, hrows, rfl⟩
  · rintro (hfails | ⟨rows, hrows, row, hrow, hdate⟩)
    · cases hfails with
      | infinite hrecords hrows hroom htime =>
          exact .infinite (hrecords ▸ hlog) hrows (by omega) htime
      | reader herror hrows hroom =>
          obtain ⟨e, rfl⟩ := Option.ne_none_iff_exists'.mp herror
          exact .reader hlog hrows (by omega)
    · obtain ⟨rfl, -, hroom, new, hnew, rfl⟩ := (readRows_eq_ok_iff (Nat.zero_le _)).mp hrows
      exact .date hlog hnew hroom hrow hdate

/-! ## The events -/

theorem forall₂_numberRows (now : Time) (hdates : ∀ row ∈ rows, timestampInRange row.time = true) :
    List.Forall₂ EventOf rows ((numberRows before rows).map (logEvent now)) := by
  induction rows generalizing before with
  | nil => exact .nil
  | cons row rows ih =>
      refine .cons ⟨rfl, rfl, rfl, hdates row List.mem_cons_self⟩ (ih ?_)
      exact fun row hrow => hdates row (List.mem_cons_of_mem _ hrow)

/-- What the rows of a log come to. -/
theorem logEventRows_rows {now : Time} (hparse : parseInteractionLog rawContent = .ok (some rows)) :
    (logEventRows now rawContent = .ok (some (eventRows now rows)) ∧
        ∀ row ∈ rows, timestampInRange row.time = true) ∨
      ((∃ text, logEventRows now rawContent = .error (.raised text)) ∧
        ∃ row ∈ rows, timestampInRange row.time = false) := by
  unfold logEventRows
  rw [hparse]
  dsimp only
  split
  · next hout => exact Or.inr ⟨⟨_, rfl⟩, by simpa using hout⟩
  · next hin => exact Or.inl ⟨rfl, by simpa using hin⟩

/-! ## Main result -/

theorem not_total {now : Time} {text : String}
    (h : logEventRows now rawContent = .error (.raised text)) : ¬ Total now rawContent := by
  rintro (⟨hnone, -⟩ | ⟨_, _, _, _, -, -, -, hsome⟩ | ⟨e, -, herror⟩)
  · cases h.symm.trans hnone
  · cases h.symm.trans hsome
  · cases h.symm.trans herror

/-- **Which texts an upload is total for.**  A text is reported not to be a log, or the events
of its rows are built, or an error of the API is raised, except for the four ways out. -/
theorem total_iff (now : Time) (rawContent : String) :
    Total now rawContent ↔ ¬ Escapes rawContent := by
  rcases parse_cases rawContent with ⟨hparse, hnotLog, hreadable⟩ | ⟨e, hread, hparse⟩ |
    ⟨columns, records, error, hlog, hparse⟩
  · refine iff_of_true (Or.inl ⟨by rw [logEventRows, hparse], hnotLog⟩) ?_
    intro h
    cases h with
    | header hread => exact hreadable _ hread
    | infinite hlog | reader hlog | date hlog => exact hnotLog _ _ _ hlog
  · refine iff_of_false (not_total (by rw [logEventRows, hparse])) ?_
    exact not_not.mpr (.header hread)
  · rw [escapes_iff hlog]
    have hraised : (∃ text, readRows columns error 2 [] records = .error (.raised text)) ↔
        Fails columns error 0 records := readRows_raised_iff (Nat.zero_le _)
    cases hrows : readRows columns error 2 [] records with
    | error answer =>
        rw [hrows] at hparse
        have houtcome : logEventRows now rawContent = .error answer := by
          rw [logEventRows, hparse]
          rfl
        rw [hrows] at hraised
        rcases readRows_error hrows with ⟨e, hown, rfl⟩ | ⟨text, rfl⟩
        · refine iff_of_true (Or.inr (Or.inr ⟨e, hown, houtcome⟩)) ?_
          rintro (hfails | ⟨rows, hok, -⟩)
          · obtain ⟨text, htext⟩ := hraised.mpr hfails
            cases htext
          · cases hok
        · exact iff_of_false (not_total houtcome) (not_not.mpr (Or.inl (hraised.mp ⟨text, rfl⟩)))
    | ok rows =>
        rw [hrows] at hparse
        obtain ⟨rfl, -, -, new, hnew, rfl⟩ := (readRows_eq_ok_iff (Nat.zero_le _)).mp hrows
        rcases @logEventRows_rows _ _ now hparse with ⟨houtcome, hin⟩ | ⟨⟨text, houtcome⟩, hout⟩
        · refine iff_of_true
            (Or.inr (Or.inl ⟨columns, records, _, _, hlog, hnew, ?_, houtcome⟩)) ?_
          · exact forall₂_numberRows now hin
          · rintro (hfails | ⟨rows, hok, row, hrow, hdate⟩)
            · obtain ⟨text, htext⟩ := hraised.mpr hfails
              cases hrows.symm.trans htext
            · cases hok
              rw [hin row hrow] at hdate
              cases hdate
        · exact iff_of_false (not_total houtcome) (not_not.mpr (Or.inr ⟨_, rfl, hout⟩))

/-- A log whose only time is infinite: a server error, not a malformed row. -/
theorem escapes_infinite : ¬ Total 0 "user_id,item_id,time\nu,i,inf" := by
  have houtcome : logEventRows 0 "user_id,item_id,time\nu,i,inf" =
      .error (.raised "OverflowError: cannot convert float infinity to integer") := by
    decide +kernel
  exact not_total houtcome

end Totality

end Ingestion
