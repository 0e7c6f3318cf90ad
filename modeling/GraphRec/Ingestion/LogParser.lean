import GraphRec.Ingestion.InteractionLog
import GraphRec.Lib.Binary64
import GraphRec.Lib.Csv
import GraphRec.Lib.Text

/-!
# Parsing interaction logs

`_parse_interaction_log` and `upload_dataset_content` up to the load.  The text is read as
comma-separated values, line by line; a record is a row of the log when it has a user, an
item and a time, and the first that is malformed rejects the text and is named.

`parseInteractionLog_rows` — the rows that are accepted are well formed.
-/

namespace Ingestion

/-- `MAX_INTERACTION_ROWS`. -/
def maxInteractionRows : ℕ := 2000000

/-! ## Numbers -/

/-- `int(float(value))`, or the exception it raises. -/
inductive IntOfFloat
  | int (z : ℤ)
  | valueError
  | overflowError
  deriving DecidableEq, Repr

/-- Is the text that of an infinite number? -/
def isInfinity (text : List Char) : Bool :=
  let word := (Text.sign text).2.map Char.toLower
  decide (word = "inf".toList) || decide (word = "infinity".toList)

/-- `int(float(value))`: digits of any script count. -/
def intOfFloat (value : List Char) : IntOfFloat :=
  let text := (Text.stripChars value).map Text.asciiDigit
  match Text.number text with
  | some q =>
      let double := Binary64.round q
      if Binary64.overflow ≤ |double| then .overflowError else .int (Binary64.truncate double)
  | none => if isInfinity text then .overflowError else .valueError

/-! ## Rows -/

/-- Where the columns of the log are. -/
structure Columns where
  userAt : ℕ
  itemAt : ℕ
  timeAt : ℕ
  deriving DecidableEq, Repr

def malformedRow (number : ℕ) : ApiError :=
  apiError 422 "validation_failed" ("Interaction log row " ++ toString number ++ " is malformed")

def invalidRow (number : ℕ) : ApiError :=
  apiError 422 "validation_failed"
    ("Interaction log row " ++ toString number ++ " has an invalid user or item id")

def tooManyRows : ApiError :=
  apiError 413 "payload_too_large" "The interaction log has too many rows"

def noRows : ApiError := apiError 422 "validation_failed" "The interaction log contains no rows"

/-- The exception of the reader. -/
def readErrorText : Csv.ReadError → String
  | .newlineInField => "Error: new-line character seen in unquoted field - " ++
      "do you need to open the file with newline=''?"
  | .fieldLimit => "Error: field larger than field limit (131072)"

def overflowText : String := "OverflowError: cannot convert float infinity to integer"

/-- A user id and an item id that a row may have. -/
def idsValid (user item : String) : Bool :=
  decide (user ≠ "") && decide (item ≠ "") && decide (user.length ≤ 200) &&
    decide (item.length ≤ 100)

/-- A row of the log. -/
def readRow (columns : Columns) (number : ℕ) (record : List Csv.Field) :
    Except Answer Interaction :=
  match record[columns.userAt]?, record[columns.itemAt]?, record[columns.timeAt]? with
  | some user, some item, some time =>
      match intOfFloat time with
      | .valueError => .error (.error (malformedRow number))
      | .overflowError => .error (.raised overflowText)
      | .int moment =>
          let user := String.ofList (Text.stripChars user)
          let item := String.ofList (Text.stripChars item)
          if idsValid user item then .ok ⟨user, item, moment⟩
          else .error (.error (invalidRow number))
  | _, _, _ => .error (.error (malformedRow number))

/-- Is nothing in the record? -/
def isBlankRecord (record : List Csv.Field) : Bool :=
  record.all fun field => (Text.stripChars field).isEmpty

/-- The rows of the log, and at last the exception that ends the reading. -/
def readRows (columns : Columns) (error : Option Csv.ReadError) :
    ℕ → List Interaction → List (List Csv.Field) → Except Answer (List Interaction)
  | _, rows, [] =>
      match error with
      | some e => .error (.raised (readErrorText e))
      | none => if rows = [] then .error (.error noRows) else .ok rows
  | number, rows, record :: rest =>
      if isBlankRecord record then readRows columns error (number + 1) rows rest
      else
        match readRow columns number record with
        | .error answer => .error answer
        | .ok row =>
            if maxInteractionRows < rows.length + 1 then .error (.error tooManyRows)
            else readRows columns error (number + 1) (rows ++ [row]) rest

/-! ## The text -/

/-- The last column of a name. -/
def columnAt (header : List String) (name : String) : Option ℕ :=
  (header.reverse.idxOf? name).map fun i => header.length - 1 - i

/-- The columns of a log; none when the header is that of something else. -/
def columnsOf (header : List String) : Option Columns :=
  if "event_id" ∈ header ∨ "external_id" ∈ header then none
  else
    match columnAt header "user_id", columnAt header "item_id",
      (columnAt header "time").or (columnAt header "timestamp") with
    | some user, some item, some time => some ⟨user, item, time⟩
    | _, _, _ => none

/-- The byte order mark. -/
def byteOrderMark : Char := Char.ofNat 0xfeff

/-- `_parse_interaction_log`: none when the text is not an interaction log. -/
def parseInteractionLog (rawContent : String) : Except Answer (Option (List Interaction)) :=
  let content := Text.stripChars (rawContent.toList.dropWhile fun c => decide (c = byteOrderMark))
  if content = [] ∨ content.head? = some '[' ∨ content.head? = some '\x7b' then .ok none
  else
    let reading := Csv.read false Csv.fieldSizeLimit content
    match reading.records with
    | [] => reading.error.elim (.ok none) fun e => .error (.raised (readErrorText e))
    | record :: records =>
        match columnsOf (record.map fun field => String.ofList (Text.stripChars field)) with
        | none => .ok none
        | some columns => (readRows columns reading.error 2 [] records).map some

/-! ## What is accepted -/

/-- A row that may be stored. -/
structure Interaction.WellFormed (row : Interaction) : Prop where
  user_nonempty : row.user ≠ ""
  item_nonempty : row.item ≠ ""
  user_length : row.user.length ≤ 200
  item_length : row.item.length ≤ 100
  user_stripped : Text.strip row.user = row.user
  item_stripped : Text.strip row.item = row.item

theorem strip_ofList_stripChars (cs : List Char) :
    Text.strip (String.ofList (Text.stripChars cs)) = String.ofList (Text.stripChars cs) := by
  rw [Text.strip, String.toList_ofList, Text.stripChars_stripChars]

theorem readRow_wellFormed {columns : Columns} {number : ℕ} {record : List Csv.Field}
    {row : Interaction} (h : readRow columns number record = .ok row) : row.WellFormed := by
  unfold readRow at h
  split at h
  · split at h
    · cases h
    · cases h
    · dsimp only at h
      split at h
      · next hvalid =>
          simp only [idsValid, Bool.and_eq_true, decide_eq_true_eq] at hvalid
          cases h
          exact ⟨hvalid.1.1.1, hvalid.1.1.2, hvalid.1.2, hvalid.2, strip_ofList_stripChars _,
            strip_ofList_stripChars _⟩
      · cases h
  · cases h

/-- The rows of a log: well formed, some, and not too many. -/
structure LogRows (rows : List Interaction) : Prop where
  nonempty : rows ≠ []
  length_le : rows.length ≤ maxInteractionRows
  wellFormed : ∀ row ∈ rows, row.WellFormed

theorem readRows_wellFormed {columns : Columns} {error : Option Csv.ReadError} {number : ℕ}
    {before rows : List Interaction} {records : List (List Csv.Field)}
    (hlength : before.length ≤ maxInteractionRows) (hbefore : ∀ row ∈ before, row.WellFormed)
    (h : readRows columns error number before records = .ok rows) : LogRows rows := by
  induction records generalizing number before with
  | nil =>
      unfold readRows at h
      split at h
      · cases h
      · split at h
        · cases h
        · next hsome =>
            cases h
            exact ⟨hsome, hlength, hbefore⟩
  | cons record rest ih =>
      unfold readRows at h
      split at h
      · exact ih hlength hbefore h
      · split at h
        · cases h
        · next row hrow =>
            split at h
            · cases h
            · next hroom =>
                refine ih ?_ ?_ h
                · rw [List.length_append, List.length_singleton]
                  exact not_lt.mp hroom
                · intro row' hrow'
                  rcases List.mem_append.mp hrow' with hold | hnew
                  · exact hbefore row' hold
                  · rw [List.mem_singleton.mp hnew]
                    exact readRow_wellFormed hrow

/-- **The parser accepts well-formed rows.** -/
theorem parseInteractionLog_rows {rawContent : String} {rows : List Interaction}
    (h : parseInteractionLog rawContent = .ok (some rows)) : LogRows rows := by
  unfold parseInteractionLog at h
  dsimp only at h
  split at h
  · cases h
  · split at h
    · cases herror : (Csv.read false Csv.fieldSizeLimit (Text.stripChars
        (rawContent.toList.dropWhile fun c => decide (c = byteOrderMark)))).error <;>
        rw [herror] at h <;> cases h
    · split at h
      · cases h
      · next columns _ =>
          cases hrows : readRows columns (Csv.read false Csv.fieldSizeLimit (Text.stripChars
              (rawContent.toList.dropWhile fun c => decide (c = byteOrderMark)))).error 2 [] _ with
          | error answer =>
              rw [hrows] at h
              cases h
          | ok found =>
              rw [hrows] at h
              cases h
              exact readRows_wellFormed (Nat.zero_le _) (by simp) hrows

end Ingestion
