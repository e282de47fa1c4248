import EventSourcing.Text.Unprintable

/-!
# Diagnostic texts

How values are shown to a person who looks for a fault: text in quotes with the unprintable
characters spelled out, records with named fields, options, lists and sets.
-/

namespace EventSourcing

namespace Text

/-- One character between double quotes. -/
def quotedChar (c : Char) : List Char :=
  if c = '\x00' then ['\\', '0']
  else if c = '\t' then ['\\', 't']
  else if c = '\r' then ['\\', 'r']
  else if c = '\n' then ['\\', 'n']
  else if c = '"' then ['\\', '"']
  else if c = '\\' then ['\\', '\\']
  else if ' ' ≤ c ∧ c ≤ '~' then [c]
  else if isUnprintable c then
    ['\\', 'u', '\x7b'] ++ Nat.toDigits 16 c.toNat ++ ['\x7d']
  else [c]

/-- A text between double quotes. -/
def quoted (s : String) : String :=
  String.ofList (['"'] ++ s.toList.flatMap quotedChar ++ ['"'])

/-- The parts of a text with `", "` between them. -/
def commaSeparated (parts : List String) : String :=
  String.intercalate ", " parts

/-- A list: its entries in brackets. -/
def listing (entries : List String) : String :=
  "[" ++ commaSeparated entries ++ "]"

/-- A set: its members in braces. -/
def setOf (members : List String) : String :=
  "\x7b" ++ commaSeparated members ++ "\x7d"

/-- A value under the name of its kind: `Name(value)`. -/
def wrapped (name value : String) : String :=
  name ++ "(" ++ value ++ ")"

/-- An option: `None`, or the value under the name `Some`. -/
def option (value : Option String) : String :=
  match value with
  | none => "None"
  | some v => wrapped "Some" v

/-- A yes or no. -/
def flag (b : Bool) : String :=
  if b then "true" else "false"

/-- A record: its name, then each field with its value. A record that keeps fields to itself
ends with two dots. -/
def record (name : String) (fields : List (String × String)) (complete : Bool) : String :=
  let shown := fields.map fun field => field.1 ++ ": " ++ field.2
  let parts := if complete then shown else shown ++ [".."]
  name ++ " \x7b " ++ commaSeparated parts ++ " \x7d"

end Text

end EventSourcing
