import Mathlib.Data.String.Basic
import GraphRec.Lib.Packing

/-!
# What the SDK puts on the wire

JSON-ready values and their compact encoding.  Only the number of bytes matters to what is
proved: `size_encodeItems` says what the items of an array take.
-/

namespace Sdk

open Packing (joined)

/-- A JSON-ready value; a number is its text. -/
inductive Json where
  | null
  | bool (b : Bool)
  | number (text : String)
  | string (s : String)
  | array (items : List Json)
  | object (fields : List (String × Json))

/-- The escapes of `json.dumps` with `ensure_ascii=False`. -/
def escapeChar (c : Char) : String :=
  if c.toNat = 92 then "\\\\"
  else if c.toNat = 34 then "\\\""
  else if c.toNat = 8 then "\\b"
  else if c.toNat = 12 then "\\f"
  else if c.toNat = 10 then "\\n"
  else if c.toNat = 13 then "\\r"
  else if c.toNat = 9 then "\\t"
  else if c.toNat < 32 then
    "\\u00" ++ String.ofList [Nat.digitChar (c.toNat / 16), Nat.digitChar (c.toNat % 16)]
  else String.ofList [c]

/-- The characters of a text, escaped. -/
def escape : List Char → String
  | [] => ""
  | c :: cs => escapeChar c ++ escape cs

def encodeString (s : String) : String := "\"" ++ escape s.toList ++ "\""

mutual

/-- `encode_json`: compact, in the order of the fields. -/
def encodeJson : Json → String
  | .null => "null"
  | .bool true => "true"
  | .bool false => "false"
  | .number text => text
  | .string s => encodeString s
  | .array items => "[" ++ encodeItems items ++ "]"
  | .object fields => "\x7b" ++ encodeFields fields ++ "\x7d"

def encodeItems : List Json → String
  | [] => ""
  | [a] => encodeJson a
  | a :: b :: rest => encodeJson a ++ "," ++ encodeItems (b :: rest)

def encodeFields : List (String × Json) → String
  | [] => ""
  | [(name, value)] => encodeString name ++ ":" ++ encodeJson value
  | (name, value) :: field :: rest =>
    encodeString name ++ ":" ++ encodeJson value ++ "," ++ encodeFields (field :: rest)

end

/-- `len(encode_json(value))`. -/
def size (value : Json) : ℕ := (encodeJson value).utf8ByteSize

theorem size_encodeItems (items : List Json) :
    (encodeItems items).utf8ByteSize = joined size items := by
  induction items with
  | nil => rfl
  | cons a tail ih =>
    cases tail with
    | nil => rfl
    | cons b rest =>
      rw [encodeItems, String.utf8ByteSize_append, String.utf8ByteSize_append, ih, joined]
      rfl

end Sdk
