import EventSourcing.Binary64.Shortest

/-!
# Numbers in text

Readers for the whole numbers and the binary64 numbers that settings hold, each with the cause
when a text is not one.

* `readUnsigned` reads the digits from the left, so the first character that is no digit and the
  first digit that passes the bound compete by position;
* `readBinary64` rounds the decimal once.
-/

namespace EventSourcing

/-- Why a text is not a number. -/
inductive NumeralError where
  | emptyInteger
  | invalidDigit
  | tooLarge
  | emptyNumber
  | invalidNumber
deriving DecidableEq

namespace NumeralError

def message : NumeralError → String
  | emptyInteger => "cannot parse integer from empty string"
  | invalidDigit => "invalid digit found in string"
  | tooLarge => "number too large to fit in target type"
  | emptyNumber => "cannot parse float from empty string"
  | invalidNumber => "invalid float literal"

end NumeralError

namespace Text

/-- The value of a decimal digit. -/
def digit? (c : Char) : Option Nat :=
  if c.isDigit then some (c.toNat - '0'.toNat) else none

/-- The value of a hexadecimal digit of either case. -/
def hexDigit? (c : Char) : Option Nat :=
  if c.isDigit then some (c.toNat - '0'.toNat)
  else if 'a' ≤ c ∧ c ≤ 'f' then some (c.toNat - 'a'.toNat + 10)
  else if 'A' ≤ c ∧ c ≤ 'F' then some (c.toNat - 'A'.toNat + 10)
  else none

/-- Reads on from the value of the digits before; every value stays below the bound. -/
def readDigits (bound : Nat) (value : Nat) : List Char → Except NumeralError Nat
  | [] => .ok value
  | c :: rest =>
    match digit? c with
    | none => .error .invalidDigit
    | some d =>
      if value * 10 + d < bound then readDigits bound (value * 10 + d) rest
      else .error .tooLarge

/-- An unsigned whole number below a bound: digits, with a plus sign in front or not. -/
def readUnsigned (bound : Nat) : List Char → Except NumeralError Nat
  | [] => .error .emptyInteger
  | '+' :: [] => .error .invalidDigit
  | '+' :: rest => readDigits bound 0 rest
  | cs => readDigits bound 0 cs

end Text

namespace Binary64

/-- The value nearest to a signed decimal. A decimal whose leading digit stands far outside the
range of the format is settled by its place alone. -/
def ofDecimal (negative : Bool) (d : Decimal) : Binary64 :=
  let leading : Int := d.exponent + (Nat.toDigits 10 d.digits).length
  if d.digits = 0 ∨ leading < -400 then ofQuotient negative 0 1
  else if 400 < leading then .infinite negative
  else ofQuotient negative (d.digits * Nat.pow 10 d.exponent.toNat * unitsPerOne)
    (Nat.pow 10 (-d.exponent).toNat)

end Binary64

namespace Text

/-- An exponent behind its letter: digits, with a sign in front or not. -/
def readExponent : List Char → Option Int
  | '-' :: cs => if cs ≠ [] ∧ cs.all Char.isDigit then some (-(Nat.ofDigitChars 10 cs 0)) else none
  | '+' :: cs => if cs ≠ [] ∧ cs.all Char.isDigit then some (Nat.ofDigitChars 10 cs 0) else none
  | cs => if cs ≠ [] ∧ cs.all Char.isDigit then some (Nat.ofDigitChars 10 cs 0) else none

/-- An unsigned decimal: digits on at least one side of the point, and perhaps an exponent. -/
def readDecimal (cs : List Char) : Option Decimal := do
  let whole := cs.takeWhile Char.isDigit
  let rest := cs.dropWhile Char.isDigit
  let (fraction, rest) := match rest with
    | '.' :: r => (r.takeWhile Char.isDigit, r.dropWhile Char.isDigit)
    | r => ([], r)
  if whole.isEmpty && fraction.isEmpty then none
  else
    let digits := Nat.ofDigitChars 10 (whole ++ fraction) 0
    match rest with
    | [] => some ⟨digits, -fraction.length⟩
    | c :: r =>
      if c = 'e' ∨ c = 'E' then
        let exponent ← readExponent r
        some ⟨digits, exponent - fraction.length⟩
      else none

/-- The names of the values that have no digits, in letters of any case. -/
def readName (negative : Bool) (cs : List Char) : Option Binary64 :=
  let name := String.ofList (cs.map Char.toLower)
  if name = "inf" ∨ name = "infinity" then some (.infinite negative)
  else if name = "nan" then some .nan
  else none

/-- A binary64 number in decimal notation, rounded to the nearest value. -/
def readBinary64 (cs : List Char) : Except NumeralError Binary64 :=
  let unsigned (negative : Bool) (cs : List Char) : Except NumeralError Binary64 :=
    match readDecimal cs with
    | some d => .ok (.ofDecimal negative d)
    | none =>
      match readName negative cs with
      | some x => .ok x
      | none => .error .invalidNumber
  match cs with
  | [] => .error .emptyNumber
  | '-' :: rest => unsigned true rest
  | '+' :: rest => unsigned false rest
  | cs => unsigned false cs

end Text

end EventSourcing
