import GraphRec.Dgsr.Data
import GraphRec.Lib.Csv
import GraphRec.Lib.Text
import Mathlib.Data.List.Dedup
import Mathlib.Data.String.Basic

/-!
# Interaction data from a file

`InteractionData.from_csv`: the rows of a text with the columns `user_id`, `item_id` and
`time`, without the white space around their values; repeated rows as the configuration
says; users and items with few rows left out; and the rest ordered by time and row.

`fromCsv_rows` — a text written from rows is read as these rows, stripped, where nothing is
filtered and the times do not decrease.
-/

namespace Dgsr

/-- `duplicates`. -/
inductive Duplicates
  | keep | drop | error
  deriving DecidableEq, Repr

/-- The part of `Config` that `from_csv` reads. -/
structure LoadConfig where
  duplicates : Duplicates := .keep
  minUserInteractions : ℕ := 1
  minItemInteractions : ℕ := 1

/-- What `from_csv` raises. -/
inductive CsvError
  /-- `CSV is empty; expected user_id,item_id,time header` -/
  | empty
  /-- `CSV requires ['item_id', 'time', 'user_id']; got ...` -/
  | missingColumns (fieldnames : List String)
  /-- `CSV contains duplicate column names` -/
  | duplicateColumns
  /-- `CSV row ... has more fields than the header` -/
  | tooManyFields (row : ℕ)
  /-- `CSV row ... has a missing user/item/time` -/
  | missingValue (row : ℕ)
  /-- `Invalid time on CSV row ...` -/
  | invalidTime (row : ℕ) (value : String)
  /-- `Duplicate event on CSV row ...` -/
  | duplicateEvent (row : ℕ) (user item : String) (time : ℤ)
  /-- `No interactions remain after parsing/filtering. ...` -/
  | noInteractions
  /-- `csv.Error`. -/
  | reader (e : Csv.ReadError)
  deriving DecidableEq, Repr

/-- An entry of `records`. -/
structure CsvRow where
  user : String
  item : String
  time : ℤ
  rowId : ℕ
  deriving DecidableEq, Repr

/-! ## Reading -/

/-- `required`. -/
def requiredColumns : List String := ["user_id", "item_id", "time"]

/-- The value in a column. -/
def columnValue (header : List String) (record : List Csv.Field) (name : String) :
    Option Csv.Field :=
  (header.idxOf? name).bind fun i => record[i]?

/-- `int(Decimal(value))` of a finite and whole decimal of 64 bits: underscores do not count, and
digits of any script do. -/
def decimalTime (value : Csv.Field) : Option ℤ :=
  let text := ((Text.stripChars value).filter fun c => decide (c ≠ '_')).map Text.asciiDigit
  (Text.number text).bind fun q =>
    if q.den = 1 ∧ -2 ^ 63 ≤ q.num ∧ q.num < 2 ^ 63 then some q.num else none

/-- The body of the loop over the rows, up to the duplicates. -/
def readRecord (header : List String) (rowId : ℕ) (record : List Csv.Field) :
    Except CsvError CsvRow :=
  if header.length < record.length then .error (.tooManyFields (rowId + 2))
  else
    match columnValue header record "user_id", columnValue header record "item_id",
      columnValue header record "time" with
    | some user, some item, some time =>
        if Text.stripChars user = [] ∨ Text.stripChars item = [] ∨ Text.stripChars time = [] then
          .error (.missingValue (rowId + 2))
        else
          match decimalTime time with
          | none => .error (.invalidTime (rowId + 2) (String.ofList time))
          | some t => .ok ⟨String.ofList (Text.stripChars user),
              String.ofList (Text.stripChars item), t, rowId⟩
    | _, _, _ => .error (.missingValue (rowId + 2))

/-- Is it the event of another row? -/
def CsvRow.sameEvent (row row' : CsvRow) : Bool :=
  decide (row.user = row'.user) && decide (row.item = row'.item) && decide (row.time = row'.time)

/-- The loop over the rows; blank lines are not rows. -/
def readRecords (cfg : LoadConfig) (header : List String) (error : Option Csv.ReadError) :
    ℕ → List CsvRow → List (List Csv.Field) → Except CsvError (List CsvRow)
  | _, rows, [] => error.elim (.ok rows) fun e => .error (.reader e)
  | rowId, rows, [] :: rest => readRecords cfg header error rowId rows rest
  | rowId, rows, (field :: fields) :: rest =>
      match readRecord header rowId (field :: fields) with
      | .error e => .error e
      | .ok row =>
          if rows.any row.sameEvent then
            match cfg.duplicates with
            | .keep => readRecords cfg header error (rowId + 1) (rows ++ [row]) rest
            | .drop => readRecords cfg header error (rowId + 1) rows rest
            | .error => .error (.duplicateEvent (rowId + 2) row.user row.item row.time)
          else readRecords cfg header error (rowId + 1) (rows ++ [row]) rest

/-! ## Filtering and indexing -/

/-- The rows whose user and item have enough rows. -/
def coreStep (cfg : LoadConfig) (rows : List CsvRow) : List CsvRow :=
  rows.filter fun row =>
    decide (cfg.minUserInteractions ≤ rows.countP fun r => decide (r.user = row.user)) &&
      decide (cfg.minItemInteractions ≤ rows.countP fun r => decide (r.item = row.item))

/-- Iterative filtering; each time but the last leaves out a row. -/
def coreFilter (cfg : LoadConfig) : ℕ → List CsvRow → List CsvRow
  | 0, rows => rows
  | n + 1, rows =>
      if (coreStep cfg rows).length = rows.length then rows
      else coreFilter cfg n (coreStep cfg rows)

/-- `sorted` of a set of ids. -/
def sortedIds (ids : List String) : List String := ids.dedup.insertionSort (· ≤ ·)

theorem mem_sortedIds {ids : List String} {id : String} : id ∈ sortedIds ids ↔ id ∈ ids := by
  rw [sortedIds, List.mem_insertionSort, List.mem_dedup]

/-- The order of `records.sort`. -/
def CsvRow.before (row row' : CsvRow) : Prop :=
  row.time < row'.time ∨ (row.time = row'.time ∧ row.rowId ≤ row'.rowId)

instance : DecidableRel CsvRow.before := fun _ _ => inferInstanceAs (Decidable (_ ∨ _))

/-- The data of rows: ids are indexed in their order. -/
def ofRows (rows : List CsvRow) : InteractionData where
  events := rows.map fun row =>
    ⟨(sortedIds (rows.map CsvRow.user)).idxOf row.user,
      (sortedIds (rows.map CsvRow.item)).idxOf row.item, row.time⟩
  userIds := sortedIds (rows.map CsvRow.user)
  itemIds := sortedIds (rows.map CsvRow.item)
  user_lt := by
    intro x hx
    obtain ⟨row, hrow, rfl⟩ := List.mem_map.mp hx
    exact List.idxOf_lt_length_iff.mpr (mem_sortedIds.mpr (List.mem_map_of_mem hrow))
  item_lt := by
    intro x hx
    obtain ⟨row, hrow, rfl⟩ := List.mem_map.mp hx
    exact List.idxOf_lt_length_iff.mpr (mem_sortedIds.mpr (List.mem_map_of_mem hrow))

/-- The part of `from_csv` after the rows are read. -/
def buildData (cfg : LoadConfig) (rows : List CsvRow) : Except CsvError InteractionData :=
  let kept := coreFilter cfg rows.length rows
  if kept = [] then .error .noInteractions
  else .ok (ofRows (kept.insertionSort CsvRow.before))

/-- The text without a byte order mark. -/
def decodeSig : List Char → List Char
  | [] => []
  | c :: text => if c = Char.ofNat 0xfeff then text else c :: text

/-- `InteractionData.from_csv`. -/
def fromCsv (cfg : LoadConfig) (text : List Char) : Except CsvError InteractionData :=
  let reading := Csv.read true Csv.fieldSizeLimit (decodeSig text)
  match reading.records with
  | [] => reading.error.elim (.error .empty) fun e => .error (.reader e)
  | first :: records =>
      let header := first.map fun field => String.ofList (Text.stripChars field)
      if ¬ ∀ name ∈ requiredColumns, name ∈ header then .error (.missingColumns header)
      else if ¬ header.Nodup then .error .duplicateColumns
      else
        match readRecords cfg header reading.error 0 [] records with
        | .error e => .error e
        | .ok rows => buildData cfg rows

/-- Users and items have distinct ids. -/
theorem nodup_ids_of_fromCsv {cfg : LoadConfig} {text : List Char} {data : InteractionData}
    (h : fromCsv cfg text = .ok data) : data.userIds.Nodup ∧ data.itemIds.Nodup := by
  have hsorted : ∀ ids : List String, (sortedIds ids).Nodup := fun ids =>
    (List.perm_insertionSort _ _).nodup_iff.mpr (List.nodup_dedup ids)
  have hbuild : ∀ rows, buildData cfg rows = .ok data →
      data.userIds.Nodup ∧ data.itemIds.Nodup := by
    intro rows hrows
    unfold buildData at hrows
    dsimp only at hrows
    split at hrows
    · cases hrows
    · cases hrows
      exact ⟨hsorted _, hsorted _⟩
  unfold fromCsv at h
  dsimp only at h
  split at h
  · cases hreader : (Csv.read true Csv.fieldSizeLimit (decodeSig text)).error <;>
      rw [hreader] at h <;> cases h
  · split at h
    · cases h
    · split at h
      · cases h
      · split at h
        · cases h
        · exact hbuild _ h

/-! ## Files of rows -/

/-- A user, an item and a time. -/
abbrev RawRow := String × String × ℤ

/-- The columns of a written file. -/
def writtenHeader : List Csv.Field := ["user_id".toList, "item_id".toList, "time".toList]

/-- The fields of a row. -/
def RawRow.fields (row : RawRow) : List Csv.Field :=
  [row.1.toList, row.2.1.toList, Text.decimal row.2.2]

/-- A file of rows. -/
def writeRows (rows : List RawRow) : List Char :=
  (writtenHeader :: rows.map RawRow.fields).flatMap Csv.writeRecord

/-- A row without the white space around its ids. -/
def RawRow.strip (row : RawRow) : RawRow := (Text.strip row.1, Text.strip row.2.1, row.2.2)

/-- A row whose ids are not blank. -/
def RawRow.Named (row : RawRow) : Prop := Text.strip row.1 ≠ "" ∧ Text.strip row.2.1 ≠ ""

/-- A row that a file may have. -/
structure RawRow.Fits (row : RawRow) : Prop where
  user_length : row.1.length ≤ Csv.fieldSizeLimit
  item_length : row.2.1.length ≤ Csv.fieldSizeLimit
  time_length : (Text.decimal row.2.2).length ≤ Csv.fieldSizeLimit
  time_ge : -2 ^ 63 ≤ row.2.2
  time_lt : row.2.2 < 2 ^ 63

/-- The rows with their numbers. -/
def numberCsv : ℕ → List RawRow → List CsvRow
  | _, [] => []
  | rowId, row :: rest =>
      ⟨Text.strip row.1, Text.strip row.2.1, row.2.2, rowId⟩ :: numberCsv (rowId + 1) rest

theorem stripChars_toList_eq_nil_iff {s : String} : Text.stripChars s.toList = [] ↔ Text.strip s = "" := by
  rw [← String.toList_inj, Text.toList_strip]
  rfl

theorem decimalTime_decimal {z : ℤ} (hge : -2 ^ 63 ≤ z) (hlt : z < 2 ^ 63) :
    decimalTime (Text.decimal z) = some z := by
  have hfilter : (Text.decimal z).filter (fun c => decide (c ≠ '_')) = Text.decimal z :=
    List.filter_eq_self.mpr fun c hc => decide_eq_true (Text.plain_of_mem_decimal hc).2
  have hfits : (z : ℚ).den = 1 ∧ -2 ^ 63 ≤ (z : ℚ).num ∧ (z : ℚ).num < 2 ^ 63 :=
    ⟨Rat.den_intCast z, by simpa using hge, by simpa using hlt⟩
  rw [decimalTime, Text.stripChars_decimal, hfilter, Text.map_asciiDigit_decimal,
    Text.number_decimal, Option.bind_some, if_pos hfits, Rat.num_intCast]

/-- What a row is read as. -/
theorem readRecord_fields {row : RawRow} (hfits : row.Fits) (rowId : ℕ) :
    (row.Named → readRecord requiredColumns rowId row.fields =
      .ok ⟨Text.strip row.1, Text.strip row.2.1, row.2.2, rowId⟩) ∧
    (¬ row.Named → readRecord requiredColumns rowId row.fields =
      .error (.missingValue (rowId + 2))) := by
  obtain ⟨user, item, time⟩ := row
  have huser : columnValue requiredColumns (RawRow.fields (user, item, time)) "user_id" =
      some user.toList := rfl
  have hitem : columnValue requiredColumns (RawRow.fields (user, item, time)) "item_id" =
      some item.toList := rfl
  have htime : columnValue requiredColumns (RawRow.fields (user, item, time)) "time" =
      some (Text.decimal time) := rfl
  have hnonblank : Text.stripChars (Text.decimal time) ≠ [] := by
    rw [Text.stripChars_decimal]
    exact Text.decimal_ne_nil time
  have hlength : ¬ requiredColumns.length < (RawRow.fields (user, item, time)).length :=
    lt_irrefl 3
  unfold readRecord
  rw [if_neg hlength, huser, hitem, htime]
  simp only [stripChars_toList_eq_nil_iff, hnonblank, or_false,
    decimalTime_decimal hfits.time_ge hfits.time_lt]
  constructor
  · rintro ⟨hu, hi⟩
    rw [if_neg (by simpa using ⟨hu, hi⟩)]
    rfl
  · intro hblank
    rw [if_pos]
    by_contra hboth
    rw [not_or] at hboth
    exact hblank hboth

section Read

variable {cfg : LoadConfig} {rows : List RawRow}

/-- Named rows are all read, whatever came before. -/
theorem readRecords_named (hkeep : cfg.duplicates = .keep) (hfits : ∀ row ∈ rows, row.Fits)
    (hnamed : ∀ row ∈ rows, row.Named) (rowId : ℕ) (before : List CsvRow) :
    readRecords cfg requiredColumns none rowId before (rows.map RawRow.fields) =
      .ok (before ++ numberCsv rowId rows) := by
  induction rows generalizing rowId before with
  | nil => simp [readRecords, numberCsv]
  | cons row rest ih =>
      have hread := (readRecord_fields (hfits row List.mem_cons_self) rowId).1
        (hnamed row List.mem_cons_self)
      have hrest := ih (fun r hr => hfits r (List.mem_cons_of_mem _ hr))
        (fun r hr => hnamed r (List.mem_cons_of_mem _ hr)) (rowId + 1)
      rw [List.map_cons, RawRow.fields] at *
      rw [readRecords, hread]
      simp only [hkeep, ite_self, hrest, numberCsv, List.append_assoc, List.singleton_append]

/-- A row with a blank id ends the reading. -/
theorem readRecords_blank (hkeep : cfg.duplicates = .keep) (hfits : ∀ row ∈ rows, row.Fits)
    (hblank : ¬ ∀ row ∈ rows, row.Named) (rowId : ℕ) (before : List CsvRow) :
    ∃ n, readRecords cfg requiredColumns none rowId before (rows.map RawRow.fields) =
      .error (.missingValue n) := by
  induction rows generalizing rowId before with
  | nil => exact absurd (by simp) hblank
  | cons row rest ih =>
      have hrow := readRecord_fields (hfits row List.mem_cons_self) rowId
      by_cases hnamed : row.Named
      · have hrest : ¬ ∀ r ∈ rest, r.Named := by
          intro hall
          refine hblank fun r hr => ?_
          rcases List.mem_cons.mp hr with rfl | hr
          · exact hnamed
          · exact hall r hr
        obtain ⟨n, hn⟩ := ih (fun r hr => hfits r (List.mem_cons_of_mem _ hr)) hrest (rowId + 1)
          (before ++ [⟨Text.strip row.1, Text.strip row.2.1, row.2.2, rowId⟩])
        refine ⟨n, ?_⟩
        have hread := hrow.1 hnamed
        rw [List.map_cons, RawRow.fields] at *
        rw [readRecords, hread]
        simp only [hkeep, ite_self, hn]
      · refine ⟨rowId + 2, ?_⟩
        have hread := hrow.2 hnamed
        rw [List.map_cons, RawRow.fields] at *
        rw [readRecords, hread]

end Read

/-! ## What is read -/

/-- The external ids and the time of each event. -/
def InteractionData.externalRows (data : InteractionData) : List RawRow :=
  data.events.map fun x => (data.userIds.getD x.user "", data.itemIds.getD x.item "", x.time)

/-- The index of an id leads back to it. -/
theorem getD_idxOf_sortedIds {ids : List String} {id : String} (h : id ∈ ids) :
    (sortedIds ids).getD ((sortedIds ids).idxOf id) "" = id := by
  rw [List.getD_eq_getElem?_getD, List.getElem?_idxOf (mem_sortedIds.mpr h), Option.getD_some]

theorem externalRows_ofRows (rows : List CsvRow) :
    (ofRows rows).externalRows = rows.map fun row => (row.user, row.item, row.time) := by
  rw [InteractionData.externalRows, ofRows, List.map_map]
  refine List.map_congr_left ?_
  intro row hrow
  simp only [Function.comp_apply]
  rw [getD_idxOf_sortedIds (List.mem_map_of_mem hrow),
    getD_idxOf_sortedIds (List.mem_map_of_mem hrow)]

theorem map_numberCsv (rowId : ℕ) (rows : List RawRow) :
    (numberCsv rowId rows).map (fun row => (row.user, row.item, row.time)) =
      rows.map RawRow.strip := by
  induction rows generalizing rowId with
  | nil => rfl
  | cons row rest ih => rw [numberCsv, List.map_cons, List.map_cons, ih, RawRow.strip]

theorem le_rowId_of_mem {rowId : ℕ} {rows : List RawRow} {r : CsvRow} (h : r ∈ numberCsv rowId rows) :
    rowId ≤ r.rowId ∧ ∃ row ∈ rows, r.time = row.2.2 := by
  induction rows generalizing rowId with
  | nil => cases h
  | cons row rest ih =>
      rcases List.mem_cons.mp h with rfl | hrest
      · exact ⟨Nat.le_refl _, row, List.mem_cons_self, rfl⟩
      · obtain ⟨hle, row', hrow', htime⟩ := ih hrest
        exact ⟨by omega, row', List.mem_cons_of_mem _ hrow', htime⟩

/-- Rows in the order of their times are in the order of the sort. -/
theorem numberCsv_sorted {rows : List RawRow} (h : rows.Pairwise fun r r' => r.2.2 ≤ r'.2.2)
    (rowId : ℕ) : (numberCsv rowId rows).Pairwise CsvRow.before := by
  induction h generalizing rowId with
  | nil => exact .nil
  | cons hhead _ ih =>
      refine List.Pairwise.cons ?_ (ih _)
      intro r hr
      obtain ⟨hle, row', hrow', htime⟩ := le_rowId_of_mem hr
      rcases lt_or_eq_of_le (hhead row' hrow') with hlt | heq
      · exact Or.inl (htime ▸ hlt)
      · exact Or.inr ⟨heq.trans htime.symm, Nat.le_of_succ_le hle⟩

/-- With thresholds of one nothing is filtered. -/
theorem coreFilter_one {cfg : LoadConfig} (huser : cfg.minUserInteractions = 1)
    (hitem : cfg.minItemInteractions = 1) (n : ℕ) (rows : List CsvRow) :
    coreFilter cfg n rows = rows := by
  have hstep : coreStep cfg rows = rows := by
    refine List.filter_eq_self.mpr ?_
    intro row hrow
    rw [huser, hitem, Bool.and_eq_true, decide_eq_true_eq, decide_eq_true_eq]
    exact ⟨List.countP_pos_iff.mpr ⟨row, hrow, decide_eq_true rfl⟩,
      List.countP_pos_iff.mpr ⟨row, hrow, decide_eq_true rfl⟩⟩
  cases n with
  | zero => rfl
  | succ n => rw [coreFilter, hstep, if_pos rfl]

section Load

variable {cfg : LoadConfig} {rows : List RawRow}

/-- The configuration keeps every row. -/
structure LoadConfig.KeepsAll (cfg : LoadConfig) : Prop where
  duplicates : cfg.duplicates = .keep
  users : cfg.minUserInteractions = 1
  items : cfg.minItemInteractions = 1

/-- A written file is read as its rows. -/
theorem fromCsv_writeRows (hfits : ∀ row ∈ rows, row.Fits) :
    fromCsv cfg (writeRows rows) =
      match readRecords cfg requiredColumns none 0 [] (rows.map RawRow.fields) with
      | .error e => .error e
      | .ok rows => buildData cfg rows := by
  have hread : Csv.read true Csv.fieldSizeLimit (decodeSig (writeRows rows)) =
      ⟨writtenHeader :: rows.map RawRow.fields, none⟩ := by
    have hdecode : decodeSig (writeRows rows) = writeRows rows := rfl
    rw [hdecode, writeRows]
    refine Csv.read_write ?_ ?_
    · intro record hrecord
      rcases List.mem_cons.mp hrecord with rfl | hrow
      · exact List.cons_ne_nil _ _
      · obtain ⟨row, -, rfl⟩ := List.mem_map.mp hrow
        exact List.cons_ne_nil _ _
    · intro record hrecord
      rcases List.mem_cons.mp hrecord with rfl | hrow
      · decide
      · obtain ⟨row, hmem, rfl⟩ := List.mem_map.mp hrow
        have hrow := hfits row hmem
        intro field hfield
        simp only [RawRow.fields, List.mem_cons, List.not_mem_nil, or_false] at hfield
        rcases hfield with rfl | rfl | rfl
        · exact hrow.user_length
        · exact hrow.item_length
        · exact hrow.time_length
  have hheader : writtenHeader.map (fun field => String.ofList (Text.stripChars field)) =
      requiredColumns := by
    decide +kernel
  unfold fromCsv
  simp only [hread, hheader]
  rw [if_neg (by decide), if_neg (by decide)]

/-- A blank id rejects a written file. -/
theorem fromCsv_blank (hcfg : cfg.KeepsAll) (hfits : ∀ row ∈ rows, row.Fits)
    (hblank : ¬ ∀ row ∈ rows, row.Named) :
    ∃ n, fromCsv cfg (writeRows rows) = .error (.missingValue n) := by
  obtain ⟨n, hn⟩ := readRecords_blank hcfg.duplicates hfits hblank 0 []
  exact ⟨n, by rw [fromCsv_writeRows hfits, hn]⟩

/-- The data of a written file whose rows are named and in the order of their times. -/
theorem fromCsv_named (hcfg : cfg.KeepsAll) (hfits : ∀ row ∈ rows, row.Fits)
    (hnamed : ∀ row ∈ rows, row.Named) (hsorted : rows.Pairwise fun r r' => r.2.2 ≤ r'.2.2) :
    fromCsv cfg (writeRows rows) =
      if numberCsv 0 rows = [] then .error .noInteractions else .ok (ofRows (numberCsv 0 rows)) := by
  rw [fromCsv_writeRows hfits, readRecords_named hcfg.duplicates hfits hnamed]
  simp only [List.nil_append, buildData, coreFilter_one hcfg.users hcfg.items]
  rw [(numberCsv_sorted hsorted 0).insertionSort_eq]

/-- **What a written file is read as.**  Its rows, without the white space around their ids. -/
theorem fromCsv_rows (hcfg : cfg.KeepsAll) (hfits : ∀ row ∈ rows, row.Fits)
    (hnamed : ∀ row ∈ rows, row.Named) (hsorted : rows.Pairwise fun r r' => r.2.2 ≤ r'.2.2) :
    (rows = [] ∧ fromCsv cfg (writeRows rows) = .error .noInteractions) ∨
    ∃ data, fromCsv cfg (writeRows rows) = .ok data ∧
      data.externalRows = rows.map RawRow.strip := by
  rw [fromCsv_named hcfg hfits hnamed hsorted]
  cases rows with
  | nil => exact Or.inl ⟨rfl, rfl⟩
  | cons row rest =>
      have hne : numberCsv 0 (row :: rest) ≠ [] := List.cons_ne_nil _ _
      rw [if_neg hne]
      exact Or.inr ⟨_, rfl, by rw [externalRows_ofRows, map_numberCsv]⟩

end Load

end Dgsr
