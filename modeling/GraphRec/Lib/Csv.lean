import Mathlib.Data.List.Basic

/-!
# Comma-separated values

The reader and the writer of the usual dialect: fields are separated by commas, records end
with a line, a field may stand between quotation marks, and a mark inside of it is doubled.
The reader is a machine that is fed a text line by line: the characters of a line and then
its end (`none`).  It takes fields of up to `limit` characters.

`read_write` — what was written is read back, whatever the fields contain.
-/

namespace Csv

abbrev Field := List Char

/-- The usual limit of a field. -/
def fieldSizeLimit : ℕ := 131072

/-- Where in a record the reader is. -/
inductive Place
  | startRecord | startField | inField | inQuotedField | quoteInQuotedField | eatNewline
  deriving DecidableEq, Repr

/-- What stops the reader. -/
inductive ReadError
  /-- A carriage return inside a line. -/
  | newlineInField
  | fieldLimit
  deriving DecidableEq, Repr

/-- The reader: the fields of the record so far, and the field it is in. -/
structure Reader where
  place : Place
  fields : List Field
  field : Field

/-- What was read, and what stopped the reader. -/
structure Reading where
  records : List (List Field)
  error : Option ReadError
  deriving DecidableEq, Repr

/-! ## The reader -/

namespace Reader

/-- Before a record. -/
def start : Reader := ⟨.startRecord, [], []⟩

/-- The field is complete. -/
def save (r : Reader) (place : Place) : Reader := ⟨place, r.fields ++ [r.field], []⟩

/-- A character of the field. -/
def add (limit : ℕ) (r : Reader) (place : Place) (c : Char) : Except ReadError Reader :=
  if limit ≤ r.field.length then .error .fieldLimit
  else .ok { r with place := place, field := r.field ++ [c] }

/-- Does the character end a line? -/
def isNewline (c : Char) : Bool := decide (c = '\n') || decide (c = '\r')

/-- The first character of a field. -/
def readStart (limit : ℕ) (r : Reader) (c : Char) : Except ReadError Reader :=
  if isNewline c then .ok (r.save .eatNewline)
  else if c = '"' then .ok { r with place := .inQuotedField }
  else if c = ',' then .ok (r.save .startField)
  else r.add limit .inField c

/-- One character. -/
def read (limit : ℕ) (r : Reader) (c : Char) : Except ReadError Reader :=
  match r.place with
  | .startRecord =>
      if isNewline c then .ok { r with place := .eatNewline } else r.readStart limit c
  | .startField => r.readStart limit c
  | .inField =>
      if isNewline c then .ok (r.save .eatNewline)
      else if c = ',' then .ok (r.save .startField)
      else r.add limit .inField c
  | .inQuotedField =>
      if c = '"' then .ok { r with place := .quoteInQuotedField }
      else r.add limit .inQuotedField c
  | .quoteInQuotedField =>
      if c = '"' then r.add limit .inQuotedField c
      else if c = ',' then .ok (r.save .startField)
      else if isNewline c then .ok (r.save .eatNewline)
      else r.add limit .inField c
  | .eatNewline => if isNewline c then .ok r else .error .newlineInField

/-- The end of a line. -/
def endLine (r : Reader) : Reader :=
  match r.place with
  | .startRecord | .inQuotedField => r
  | .startField | .inField | .quoteInQuotedField => r.save .startRecord
  | .eatNewline => { r with place := .startRecord }

end Reader

/-- The characters of a text and the ends of its lines.  A line ends after a newline, where
`universal` also after a carriage return that no newline follows, and with the text. -/
def tokens (universal : Bool) : List Char → List (Option Char)
  | [] => []
  | [c] => [some c, none]
  | c :: d :: rest =>
      if c = '\n' ∨ (universal = true ∧ c = '\r' ∧ d ≠ '\n') then
        some c :: none :: tokens universal (d :: rest)
      else some c :: tokens universal (d :: rest)

/-- A record and what comes after it. -/
def Reading.cons (record : List Field) (rest : Reading) : Reading :=
  { rest with records := record :: rest.records }

/-- Read on to the end. -/
def feed (limit : ℕ) : Reader → List (Option Char) → Reading
  | r, [] =>
      if r.field ≠ [] ∨ r.place = .inQuotedField then ⟨[r.fields ++ [r.field]], none⟩
      else ⟨[], none⟩
  | r, some c :: rest =>
      match r.read limit c with
      | .error e => ⟨[], some e⟩
      | .ok r => feed limit r rest
  | r, none :: rest =>
      if r.endLine.place = .startRecord then .cons r.endLine.fields (feed limit .start rest)
      else feed limit r.endLine rest

/-- The records of a text. -/
def read (universal : Bool) (limit : ℕ) (text : List Char) : Reading :=
  feed limit .start (tokens universal text)

/-! ## The writer -/

/-- Is the character one that a field is quoted for? -/
def isSpecial (c : Char) : Bool := decide (c = ',') || decide (c = '"') || Reader.isNewline c

/-- A character between quotation marks. -/
def escape (c : Char) : List Char := if c = '"' then ['"', '"'] else [c]

def quote (field : Field) : List Char := '"' :: (field.flatMap escape ++ ['"'])

def writeField (field : Field) : List Char := if field.any isSpecial then quote field else field

/-- The fields of a record, with the commas between them. -/
def writeFields : List Field → List Char
  | [] => []
  | [field] => writeField field
  | field :: rest => writeField field ++ ',' :: writeFields rest

/-- A record; the only field of a record is quoted when it is empty. -/
def writeRecord (record : List Field) : List Char :=
  (if record = [[]] then quote [] else writeFields record) ++ ['\r', '\n']

/-! ## Reading what was written -/

section RoundTrip

variable {universal : Bool} {limit : ℕ}

theorem tokens_cons {c : Char} {text : List Char} (hc : Reader.isNewline c = false)
    (htext : text ≠ []) : tokens universal (c :: text) = some c :: tokens universal text := by
  obtain ⟨d, rest, rfl⟩ := List.exists_cons_of_ne_nil htext
  simp only [Reader.isNewline, Bool.or_eq_false_iff, decide_eq_false_iff_not] at hc
  simp [tokens, hc.1, hc.2]

/-- The end of a record. -/
theorem tokens_endRecord (text : List Char) :
    tokens universal ('\r' :: '\n' :: text) =
      some '\r' :: some '\n' :: none :: tokens universal text := by
  cases text <;> simp [tokens]

/-- Between quotation marks the ends of lines do not matter. -/
theorem feed_quoted {fields : List Field} {field : Field} {c : Char} {text : List Char}
    (hc : c ≠ '"') (hroom : field.length < limit) :
    feed limit ⟨.inQuotedField, fields, field⟩ (tokens universal (c :: text)) =
      feed limit ⟨.inQuotedField, fields, field ++ [c]⟩ (tokens universal text) := by
  have hread : (⟨.inQuotedField, fields, field⟩ : Reader).read limit c =
      .ok ⟨.inQuotedField, fields, field ++ [c]⟩ := by
    simp [Reader.read, Reader.add, hc, Nat.not_le.mpr hroom]
  cases text with
  | nil => simp [tokens, feed, hread, Reader.endLine]
  | cons d rest =>
      rw [tokens]
      split <;> simp [feed, hread, Reader.endLine]

/-- A field between quotation marks, up to the closing one. -/
theorem feed_escaped {fields : List Field} {field new : Field} {text : List Char}
    (hroom : field.length + new.length ≤ limit) (htext : text ≠ []) :
    feed limit ⟨.inQuotedField, fields, field⟩
        (tokens universal (new.flatMap escape ++ '"' :: text)) =
      feed limit ⟨.quoteInQuotedField, fields, field ++ new⟩ (tokens universal text) := by
  induction new generalizing field with
  | nil =>
      rw [List.flatMap_nil, List.nil_append, tokens_cons (by decide) htext, List.append_nil]
      rfl
  | cons c new ih =>
      rw [List.length_cons] at hroom
      have hlt : field.length < limit := by omega
      have hrest : (field ++ [c]).length + new.length ≤ limit := by
        rw [List.length_append, List.length_singleton]
        omega
      have hnext := ih hrest
      rw [List.append_assoc, List.singleton_append] at hnext
      rw [List.flatMap_cons, ← hnext]
      by_cases hc : c = '"'
      · subst hc
        have hread : (⟨.quoteInQuotedField, fields, field⟩ : Reader).read limit '"' =
            .ok ⟨.inQuotedField, fields, field ++ ['"']⟩ := by
          simp [Reader.read, Reader.add, Nat.not_le.mpr hlt]
        have hescape : escape '"' = ['"', '"'] := rfl
        rw [hescape, List.append_assoc, List.cons_append, List.cons_append, List.nil_append,
          tokens_cons (by decide) (List.cons_ne_nil _ _), tokens_cons (by decide) (by simp)]
        have hmark : (⟨.inQuotedField, fields, field⟩ : Reader).read limit '"' =
            .ok ⟨.quoteInQuotedField, fields, field⟩ := rfl
        simp only [feed, hmark, hread]
      · have hescape : escape c = [c] := if_neg hc
        rw [hescape, List.append_assoc, List.singleton_append]
        exact feed_quoted hc hlt

/-- A field without special characters, after its first. -/
theorem feed_plain {fields : List Field} {field new : Field} {text : List Char}
    (hplain : ∀ c ∈ new, isSpecial c = false) (hroom : field.length + new.length ≤ limit)
    (htext : text ≠ []) :
    feed limit ⟨.inField, fields, field⟩ (tokens universal (new ++ text)) =
      feed limit ⟨.inField, fields, field ++ new⟩ (tokens universal text) := by
  induction new generalizing field with
  | nil => rw [List.nil_append, List.append_nil]
  | cons c new ih =>
      rw [List.length_cons] at hroom
      have hc := hplain c List.mem_cons_self
      simp only [isSpecial, Bool.or_eq_false_iff, decide_eq_false_iff_not] at hc
      have hread : (⟨.inField, fields, field⟩ : Reader).read limit c =
          .ok ⟨.inField, fields, field ++ [c]⟩ := by
        have hlt : ¬ limit ≤ field.length := by omega
        simp [Reader.read, Reader.add, hc.1.1, hc.2, hlt]
      have hrest : (field ++ [c]).length + new.length ≤ limit := by
        rw [List.length_append, List.length_singleton]
        omega
      have hnext := ih (fun c hc => hplain c (List.mem_cons_of_mem _ hc)) hrest
      rw [List.append_assoc, List.singleton_append] at hnext
      rw [List.cons_append, tokens_cons hc.2 (by simp [htext])]
      simp only [feed, hread, hnext]

/-- A written field is read up to the character that ends it, from the start of a field or
of a record. -/
theorem feed_field {place : Place} {fields : List Field} {field : Field} {text : List Char}
    (hplace : place = .startField ∨ place = .startRecord) (hroom : field.length ≤ limit)
    (htext : text ≠ []) :
    feed limit ⟨place, fields, []⟩ (tokens universal (writeField field ++ text)) =
      feed limit ⟨if field.any isSpecial then .quoteInQuotedField
        else if field = [] then place else .inField, fields, field⟩ (tokens universal text) := by
  unfold writeField
  by_cases hspecial : field.any isSpecial = true
  · have hopen : (⟨place, fields, []⟩ : Reader).read limit '"' =
        .ok ⟨.inQuotedField, fields, []⟩ := by
      rcases hplace with rfl | rfl <;> rfl
    rw [if_pos hspecial, if_pos hspecial, quote, List.cons_append, List.append_assoc,
      List.singleton_append, tokens_cons (by decide) (by simp)]
    simp only [feed, hopen]
    rw [feed_escaped (by simpa using hroom) htext, List.nil_append]
  · rw [if_neg hspecial, if_neg hspecial]
    cases field with
    | nil => rw [List.nil_append, if_pos rfl]
    | cons c rest =>
        simp only [List.any_eq_true, not_exists, not_and, Bool.not_eq_true] at hspecial
        have hc := hspecial c List.mem_cons_self
        simp only [isSpecial, Bool.or_eq_false_iff, decide_eq_false_iff_not] at hc
        have hopen : (⟨place, fields, []⟩ : Reader).read limit c = .ok ⟨.inField, fields, [c]⟩ := by
          have hlt : limit ≠ 0 := by
            rintro rfl
            cases hroom
          rcases hplace with rfl | rfl <;>
            simp [Reader.read, Reader.readStart, Reader.add, hc.1.1, hc.1.2, hc.2, hlt]
        rw [if_neg (List.cons_ne_nil _ _), List.cons_append, tokens_cons hc.2 (by simp [htext])]
        simp only [feed, hopen]
        refine feed_plain (fun c hc => hspecial c (List.mem_cons_of_mem _ hc)) ?_ htext
        simpa [Nat.add_comm] using hroom

/-- A field that a comma ends. -/
theorem feed_comma {place : Place} {fields : List Field} {field : Field} {text : List Char}
    (hplace : place = .startField ∨ place = .startRecord) (hroom : field.length ≤ limit)
    (htext : text ≠ []) :
    feed limit ⟨place, fields, []⟩ (tokens universal (writeField field ++ ',' :: text)) =
      feed limit ⟨.startField, fields ++ [field], []⟩ (tokens universal text) := by
  rw [feed_field hplace hroom (List.cons_ne_nil _ _), tokens_cons (by decide) htext]
  have hread : ∀ place', place' = .quoteInQuotedField ∨ place' = place ∨ place' = .inField →
      (⟨place', fields, field⟩ : Reader).read limit ',' =
        .ok ⟨.startField, fields ++ [field], []⟩ := by
    rintro place' (rfl | rfl | rfl)
    · rfl
    · rcases hplace with rfl | rfl <;> rfl
    · rfl
  have hcases := hread (if field.any isSpecial then .quoteInQuotedField
    else if field = [] then place else .inField) (by split <;> [simp; split <;> simp])
  simp only [feed, hcases]

/-- The last field of a record, unless it is the only one and empty. -/
theorem feed_last {place : Place} {fields : List Field} {field : Field} {text : List Char}
    (hplace : place = .startField ∨ (place = .startRecord ∧ field ≠ []))
    (hroom : field.length ≤ limit) :
    feed limit ⟨place, fields, []⟩ (tokens universal (writeField field ++ '\r' :: '\n' :: text)) =
      .cons (fields ++ [field]) (feed limit .start (tokens universal text)) := by
  rw [feed_field (hplace.imp id And.left) hroom (List.cons_ne_nil _ _), tokens_endRecord]
  have hread : ∀ place', place' = .quoteInQuotedField ∨ (place' = .startField) ∨
      place' = .inField → (⟨place', fields, field⟩ : Reader).read limit '\r' =
        .ok ⟨.eatNewline, fields ++ [field], []⟩ := by
    rintro place' (rfl | rfl | rfl) <;> rfl
  have hcases := hread (if field.any isSpecial then .quoteInQuotedField
    else if field = [] then place else .inField) (by
      split
      · exact Or.inl rfl
      · split
        · next hempty =>
            rcases hplace with rfl | ⟨-, hne⟩
            · exact Or.inr (Or.inl rfl)
            · exact absurd hempty hne
        · exact Or.inr (Or.inr rfl))
  simp only [feed, hcases]
  rfl

/-- The fields of a record. -/
theorem feed_fields {place : Place} {fields record : List Field} {text : List Char}
    (hplace : place = .startField ∨ (place = .startRecord ∧ record ≠ [[]]))
    (hrecord : record ≠ []) (hroom : ∀ field ∈ record, field.length ≤ limit) :
    feed limit ⟨place, fields, []⟩
        (tokens universal (writeFields record ++ '\r' :: '\n' :: text)) =
      .cons (fields ++ record) (feed limit .start (tokens universal text)) := by
  induction record generalizing place fields with
  | nil => exact absurd rfl hrecord
  | cons field rest ih =>
      have hfield := hroom field List.mem_cons_self
      cases rest with
      | nil =>
          refine feed_last (hplace.imp id fun h => ⟨h.1, ?_⟩) hfield
          rintro rfl
          exact h.2 rfl
      | cons next rest =>
          rw [writeFields, List.append_assoc, List.cons_append,
            feed_comma (hplace.imp id And.left) hfield (by simp),
            ih (Or.inl rfl) (List.cons_ne_nil _ _) fun f hf => hroom f (List.mem_cons_of_mem _ hf),
            List.append_assoc, List.singleton_append]
          exact List.cons_ne_nil _ _

/-- **A record is read back.** -/
theorem feed_record {record : List Field} {text : List Char} (hrecord : record ≠ [])
    (hroom : ∀ field ∈ record, field.length ≤ limit) :
    feed limit .start (tokens universal (writeRecord record ++ text)) =
      .cons record (feed limit .start (tokens universal text)) := by
  unfold writeRecord
  rw [List.append_assoc]
  by_cases hempty : record = [[]]
  · subst hempty
    have htokens : tokens universal ('"' :: '"' :: '\r' :: '\n' :: text) =
        some '"' :: some '"' :: some '\r' :: some '\n' :: none :: tokens universal text := by
      rw [tokens_cons (by decide) (by simp), tokens_cons (by decide) (by simp), tokens_endRecord]
    have hwritten : quote [] ++ (['\r', '\n'] ++ text) = '"' :: '"' :: '\r' :: '\n' :: text := rfl
    rw [if_pos rfl, hwritten, htokens]
    rfl
  · rw [if_neg hempty]
    exact feed_fields (Or.inr ⟨rfl, hempty⟩) hrecord hroom

/-- **Round trip.**  What was written is read back. -/
theorem read_write {records : List (List Field)} (hrecords : ∀ record ∈ records, record ≠ [])
    (hroom : ∀ record ∈ records, ∀ field ∈ record, field.length ≤ limit) :
    read universal limit (records.flatMap writeRecord) = ⟨records, none⟩ := by
  unfold read
  induction records with
  | nil => rfl
  | cons record records ih =>
      rw [List.flatMap_cons, feed_record (hrecords record List.mem_cons_self)
        (hroom record List.mem_cons_self),
        ih (fun r hr => hrecords r (List.mem_cons_of_mem _ hr))
          fun r hr => hroom r (List.mem_cons_of_mem _ hr)]
      rfl

end RoundTrip

end Csv
