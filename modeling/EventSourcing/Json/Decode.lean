import EventSourcing.Json.Basic

/-!
# Reading domain values from JSON

Small readers that the codecs of the domain are made of. Each gives nothing when the value does
not have the expected form; which form was expected does not matter to any caller.

* a record is an object, whose other fields are ignored, or an array of its fields in order;
* a variant without content is its name, or an object that maps its name to null;
* a tagged value has a name under `type` and its content under `data`, or is an array of both.
-/

namespace EventSourcing

namespace Json

/-! ## Single values -/

def text? : Json → Option String
  | string s => s
  | _ => none

def integer? : Json → Option Int
  | number n => n.integer?
  | _ => none

/-- A whole number from zero up to below a bound. -/
def natBelow? (bound : Nat) (v : Json) : Option Nat :=
  match v.integer? with
  | some (.ofNat n) => if n < bound then some n else none
  | _ => none

def int32? (v : Json) : Option Int32 :=
  match v.integer? with
  | some n => if Int32.minValue.toInt ≤ n ∧ n ≤ Int32.maxValue.toInt then some (.ofInt n) else none
  | none => none

def int64? (v : Json) : Option Int64 :=
  match v.integer? with
  | some n => if Int64.minValue.toInt ≤ n ∧ n ≤ Int64.maxValue.toInt then some (.ofInt n) else none
  | none => none

def uint32? (v : Json) : Option UInt32 :=
  (v.natBelow? UInt32.size).map .ofNat

def uint64? (v : Json) : Option UInt64 :=
  (v.natBelow? UInt64.size).map .ofNat

def binary64? : Json → Option Binary64
  | number n => n.binary64?
  | _ => none

def list? {α : Type} (read : Json → Option α) : Json → Option (List α)
  | array items => items.mapM read
  | _ => none

/-- Null stands for no value. -/
def nullable? {α : Type} (read : Json → Option α) : Json → Option (Option α)
  | null => some none
  | v => (read v).map some

/-- An object whose values are texts. Of a key that comes twice the last value counts. -/
def texts? : Json → Option (List (String × String))
  | object members => do
    let entries ← members.mapM fun m => do return (← m.1, ← m.2.text?)
    return entries.foldl (fun seen entry => seen.filter (·.1 ≠ entry.1) ++ [entry]) []
  | _ => none

/-! ## Records -/

/-- The fields that a record has, by name. -/
def Fields := String → Option Json

namespace Fields

/-- A field that must be there. -/
def required {α : Type} (fields : Fields) (name : String) (read : Json → Option α) : Option α :=
  match fields name with
  | some v => read v
  | none => none

/-- A field that may be missing or null. -/
def optional {α : Type} (fields : Fields) (name : String) (read : Json → Option α) :
    Option (Option α) :=
  match fields name with
  | some v => nullable? read v
  | none => some none

/-- A field that has a default when it is missing. -/
def withDefault {α : Type} (fields : Fields) (name : String) (default : α)
    (read : Json → Option α) : Option α :=
  match fields name with
  | some v => read v
  | none => some default

end Fields

/-- The fields of a record with the given names. In an object each may come once at most; an
array has at least `least` of them, in order. -/
def fields? (names : List String) (least : Nat) : Json → Option Fields
  | object members => do
    let members ← members.mapM fun m => do return (← m.1, m.2)
    if names.all fun name => (members.map Prod.fst).count name ≤ 1 then
      return fun name => members.lookup name
    else none
  | array items =>
    if least ≤ items.length ∧ items.length ≤ names.length then
      some fun name => (names.zip items).lookup name
    else none
  | _ => none

/-- The fields of a record that is complete when it is an array. -/
def record? (names : List String) (v : Json) : Option Fields :=
  v.fields? names names.length

/-! ## Variants -/

/-- The name of a variant without content. -/
def variant? : Json → Option String
  | string s => s
  | object [(some name, null)] => some name
  | _ => none

mutual

/-- Whether every string is a text and every number is finite, in at most the given number of
levels of arrays and objects. -/
def isPlain (levels : Nat) : Json → Bool
  | null => true
  | bool _ => true
  | number n => n.binary64?.isSome
  | string s => s.isSome
  | array items =>
    match levels with
    | 0 => false
    | n + 1 => areItemsPlain n items
  | object members =>
    match levels with
    | 0 => false
    | n + 1 => areMembersPlain n members

def areItemsPlain (levels : Nat) : List Json → Bool
  | [] => true
  | v :: rest => isPlain levels v && areItemsPlain levels rest

def areMembersPlain (levels : Nat) : List (Option String × Json) → Bool
  | [] => true
  | (k, v) :: rest => k.isSome && isPlain levels v && areMembersPlain levels rest

end

/-- How many levels of arrays and objects a value read ahead of its name may have inside the
object that holds it. -/
def levelsReadAhead : Nat := 126

/-- The name and the content of a tagged value. Content that stands before the name is read ahead
as a whole, so then it must be plain. In an array both must be there, and the name as a text. -/
def tagged? : Json → Option (String × Option Json)
  | object members => do
    let members ← members.mapM fun m => do return (← m.1, m.2)
    let keys := members.map Prod.fst
    if 1 < keys.count "type" ∨ 1 < keys.count "data" then none
    else
      let name ← (← members.lookup "type").variant?
      match members.lookup "data" with
      | none => return (name, none)
      | some content =>
        if keys.idxOf "data" < keys.idxOf "type" ∧ ¬ content.isPlain levelsReadAhead then none
        else return (name, some content)
  | array [name, content] => do return (← name.text?, some content)
  | _ => none

end Json

end EventSourcing
