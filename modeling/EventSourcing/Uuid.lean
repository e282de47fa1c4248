import EventSourcing.Text.Numeral

/-!
# Universally unique identifiers

A number of 128 bits. Its canonical text has 32 lower-case hexadecimal digits in five groups; four
forms are read, in letters of any case.

* `Uuid.text` writes the canonical form;
* `Uuid.parse` reads a text or names the first thing wrong with it;
* `Uuid.random` and `Uuid.timeOrdered` lay out fresh identifiers.
-/

namespace EventSourcing

structure Uuid where
  value : Nat
  bounded : value < 1 <<< 128
deriving DecidableEq

namespace Uuid

def ofNat (n : Nat) : Uuid := ⟨n % 1 <<< 128, Nat.mod_lt _ (by decide)⟩

/-- The identifier with all bits zero. -/
def nil : Uuid := ofNat 0

/-! ## Canonical text -/

/-- The digits of a value, the given number of them. -/
def hexDigits (value : Nat) : Nat → List Char
  | 0 => []
  | n + 1 => hexDigits (value / 16) n ++ [Nat.digitChar (value % 16)]

/-- Sets hyphens between the groups of 32 digits. -/
def hyphenate (digits : List Char) : List Char :=
  digits.take 8 ++ '-' :: (digits.drop 8).take 4 ++ '-' :: (digits.drop 12).take 4
    ++ '-' :: (digits.drop 16).take 4 ++ '-' :: digits.drop 20

def chars (id : Uuid) : List Char :=
  hyphenate (hexDigits id.value 32)

def text (id : Uuid) : String :=
  String.ofList id.chars

/-! ## Reading -/

/-- What is wrong with a text. Lengths and places are counted in bytes of the UTF-8 encoding. -/
inductive Error where
  | length (found : Nat)
  | character (c : Char) (position : Nat)
  | groupCount (found : Nat)
  | groupLength (group expected found : Nat)
deriving DecidableEq

def Error.message : Error → String
  | length found => "invalid length: found " ++ toString found
  | character c position =>
    "invalid character: found \x60" ++ String.singleton c ++ "\x60 at " ++ toString position
  | groupCount found => "invalid group count: expected 5, found " ++ toString found
  | groupLength group expected found =>
    "invalid group length in group " ++ toString group ++ ": expected " ++ toString expected
      ++ ", found " ++ toString found

/-- The length of a text in bytes of the UTF-8 encoding. -/
def byteLength (cs : List Char) : Nat :=
  cs.foldr (fun c n => c.utf8Size + n) 0

/-- The identifier that 32 digits write. -/
def ofDigits? (cs : List Char) : Option Uuid :=
  if cs.length = 32 then
    (cs.mapM Text.hexDigit?).map fun ds => ofNat (ds.foldl (fun n d => n * 16 + d) 0)
  else none

/-- The identifier that five groups of digits write. -/
def ofGroups? (cs : List Char) : Option Uuid :=
  let digits := cs.filter (· ≠ '-')
  if hyphenate digits = cs then ofDigits? digits else none

/-- The mark in front of an identifier that is a name in the `urn` scheme. -/
def urnMark : List Char := ['u', 'r', 'n', ':', 'u', 'u', 'i', 'd', ':']

/-- The text behind the mark of the `urn` scheme, in letters of any case. -/
def afterUrn? (cs : List Char) : Option (List Char) :=
  if (cs.take 9).map Char.toLower = urnMark then some (cs.drop 9) else none

/-- The text inside braces. -/
def insideBraces? : List Char → Option (List Char)
  | '\x7b' :: rest => if rest.getLast? = some '\x7d' then some rest.dropLast else none
  | _ => none

/-- The part of a text that must be five groups of digits, if its length says so. -/
def groups? (cs : List Char) : Option (List Char) :=
  match byteLength cs with
  | 36 => some cs
  | 38 => insideBraces? cs
  | 45 => afterUrn? cs
  | _ => none

/-- The places of the hyphens, and the first character that is neither a hyphen nor a digit with
its place. -/
def scan (position : Nat) : List Char → Except (Char × Nat) (List Nat)
  | [] => .ok []
  | c :: rest =>
    if c = '-' then (scan (position + 1) rest).map (position :: ·)
    else if (Text.hexDigit? c).isSome then scan (position + c.utf8Size) rest
    else .error (c, position)

/-- The first group whose end is not where it should be. -/
def misplacedGroup? : List (Nat × Nat × Nat × Nat) → Option Error
  | [] => none
  | (found, due, start, group) :: rest =>
    if found ≠ due then some (.groupLength group (due - start) (found - start))
    else misplacedGroup? rest

/-- What is wrong with the groups of the scanned part of a text of the given length. -/
def groupError (hyphens : List Nat) (length : Nat) : Error :=
  if hyphens.length ≠ 4 then .groupCount (hyphens.length + 1)
  else
    let groups := hyphens.zip [(8, 0, 0), (13, 9, 1), (18, 14, 2), (23, 19, 3)]
    (misplacedGroup? groups).getD (.groupLength 4 12 (length - 24))

/-- What is wrong with a text that is no identifier. Places are counted from the start of the
groups where the length admits groups, and else from the start of the text. -/
def diagnose (cs : List Char) : Error :=
  let (whole, inside, offset, plain) : List Char × List Char × Nat × Bool :=
    match groups? cs with
    | some middle => (middle, middle, 0, false)
    | none =>
      match insideBraces? cs with
      | some inside => (cs, inside, 1, false)
      | none =>
        match afterUrn? cs with
        | some name => (cs, name, urnMark.length, false)
        | none => (cs, cs, 0, true)
  if whole.isEmpty ∨ 45 < byteLength whole then .length (byteLength whole)
  else
    match scan 0 inside with
    | .error (c, position) => .character c (position + offset)
    | .ok hyphens =>
      if plain ∧ hyphens = [] then .length (byteLength whole)
      else groupError hyphens (byteLength whole)

/-- Reads an identifier: groups of digits, alone, in braces or behind the `urn` mark, or the
digits alone. -/
def parse (cs : List Char) : Except Error Uuid :=
  let read :=
    match groups? cs with
    | some middle => ofGroups? middle
    | none => ofDigits? cs
  match read with
  | some id => .ok id
  | none => .error (diagnose cs)

/-! ## Fresh identifiers -/

/-- A value with the given version and the standard variant in their places. -/
def withVersion (version value : Nat) : Uuid :=
  ofNat (value >>> 80 <<< 80 + version <<< 76 + (value >>> 64 % 0x1000) <<< 64 + 2 <<< 62
    + value % 1 <<< 62)

/-- The version digit. -/
def version (id : Uuid) : Nat := id.value >>> 76 % 16

/-- The two bits of the variant. -/
def variant (id : Uuid) : Nat := id.value >>> 62 % 4

/-- An identifier of version 4, from 128 random bits. -/
def random (bits : Nat) : Uuid :=
  withVersion 4 (bits % 1 <<< 128)

/-- An identifier of version 7: the milliseconds of its making, then a count that grows within
one process, so later identifiers are greater. -/
def timeOrdered (milliseconds count : Nat) : Uuid :=
  withVersion 7 ((milliseconds % 1 <<< 48) <<< 80 + (count >>> 62 % 0x1000) <<< 64
    + count % 1 <<< 62)

end Uuid

end EventSourcing
