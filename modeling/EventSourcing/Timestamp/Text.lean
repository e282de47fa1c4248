import EventSourcing.Text.Blank
import EventSourcing.Text.Numeral
import EventSourcing.Timestamp.Basic

/-!
# The text of a clock reading

Written as `2024-03-01T12:30:45Z` with the fewest of 0, 3, 6 or 9 fraction digits that keep the
nanoseconds. The reader is more generous: it takes one to three digits fewer, blanks before
numbers and hyphens and colons and at the end, more fraction digits, and other offsets from UTC.
-/

namespace EventSourcing

namespace Timestamp

/-- A number with zeros in front, up to the given width. -/
def padded (width n : Nat) : List Char :=
  let digits := Nat.toDigits 10 n
  List.replicate (width - digits.length) '0' ++ digits

/-- A year; one of other than four digits has a sign. -/
def yearText (year : Int) : List Char :=
  if 0 ≤ year ∧ year ≤ 9999 then padded 4 year.natAbs
  else (if year < 0 then '-' else '+') :: padded 4 year.natAbs

/-- The fraction of a second, in the fewest of 0, 3, 6 or 9 digits. -/
def fractionText (nanosecond : Nat) : List Char :=
  if nanosecond = 0 then []
  else if nanosecond % 1000000 = 0 then '.' :: padded 3 (nanosecond / 1000000)
  else if nanosecond % 1000 = 0 then '.' :: padded 6 (nanosecond / 1000)
  else '.' :: padded 9 nanosecond

def chars (t : Timestamp) : List Char :=
  let leap := t.nanosecond / nanosPerSecond
  yearText t.date.year ++ '-' :: padded 2 t.date.month ++ '-' :: padded 2 t.date.day
    ++ 'T' :: padded 2 (t.second / 3600) ++ ':' :: padded 2 (t.second / 60 % 60)
    ++ ':' :: padded 2 (t.second % 60 + leap) ++ fractionText (t.nanosecond % nanosPerSecond)
    ++ ['Z']

def text (t : Timestamp) : String :=
  String.ofList t.chars

/-! ## Reading -/

/-- A number of at most the given digits at the front of a text, after blanks. -/
def readNumber (width : Nat) (cs : List Char) : Option (Nat × List Char) :=
  let cs := Text.trimStart cs
  let digits := (cs.take width).takeWhile Char.isDigit
  if digits.isEmpty then none
  else some (Nat.ofDigitChars 10 digits 0, cs.drop digits.length)

/-- A year at the front of a text: up to four digits, or a sign and any number of them. -/
def readYear (cs : List Char) : Option (Int × List Char) :=
  match Text.trimStart cs with
  | '-' :: rest =>
    let digits := rest.takeWhile Char.isDigit
    if digits.isEmpty then none
    else some (-(Nat.ofDigitChars 10 digits 0), rest.dropWhile Char.isDigit)
  | '+' :: rest =>
    let digits := rest.takeWhile Char.isDigit
    if digits.isEmpty then none
    else some (Nat.ofDigitChars 10 digits 0, rest.dropWhile Char.isDigit)
  | rest => (readNumber 4 rest).map fun (n, rest) => (n, rest)

/-- What follows a mark, after blanks. -/
def readMark (mark : Char) (cs : List Char) : Option (List Char) :=
  match Text.trimStart cs with
  | [] => none
  | c :: rest => if c = mark then some rest else none

def readDate (cs : List Char) : Option (Date × List Char) := do
  let (year, cs) ← readYear cs
  let cs ← readMark '-' cs
  let (month, cs) ← readNumber 2 cs
  let cs ← readMark '-' cs
  let (day, cs) ← readNumber 2 cs
  let date ← Date.of? year month day
  return (date, cs)

/-- The nanoseconds that the digits of a fraction write: zeros fill up to nine digits, and beyond
nine the rest is cut. -/
def fractionValue (digits : List Char) : Nat :=
  Nat.ofDigitChars 10 ((digits ++ List.replicate 9 '0').take 9) 0

/-- A fraction of a second at the front of a text; without a point there is none. -/
def readFraction : List Char → Option (Nat × List Char)
  | '.' :: cs =>
    let digits := cs.takeWhile Char.isDigit
    if digits.isEmpty then none else some (fractionValue digits, cs.dropWhile Char.isDigit)
  | cs => some (0, cs)

/-- A time of day at the front of a text, as seconds and nanoseconds. Second 60 is a leap second
of any minute. -/
def readTime (cs : List Char) : Option (Nat × Nat × List Char) := do
  let (hour, cs) ← readNumber 2 cs
  let cs ← readMark ':' cs
  let (minute, cs) ← readNumber 2 cs
  let cs ← readMark ':' cs
  let (second, cs) ← readNumber 2 cs
  let (nanosecond, cs) ← readFraction cs
  if hour < 24 ∧ minute < 60 ∧ second ≤ 60 then
    if second = 60 then return (hour * 3600 + minute * 60 + 59, nanosecond + nanosPerSecond, cs)
    else return (hour * 3600 + minute * 60 + second, nanosecond, cs)
  else none

/-- Two digits at the front of a text. -/
def readTwoDigits : List Char → Option (Nat × List Char)
  | a :: b :: rest => do return (10 * (← Text.digit? a) + (← Text.digit? b), rest)
  | _ => none

/-- Hours and minutes, with colons and blanks between them or not. -/
def readHoursMinutes (cs : List Char) : Option (Nat × List Char) := do
  let (hours, cs) ← readTwoDigits cs
  let (minutes, cs) ← readTwoDigits (cs.dropWhile fun c => c = ':' || Text.isBlank c)
  if minutes < 60 ∧ hours * 60 + minutes < 24 * 60 then return (hours * 3600 + minutes * 60, cs)
  else none

/-- The seconds that local time is ahead of UTC, at the end of a text, with blanks around. -/
def readOffset (cs : List Char) : Option Int :=
  let ends : Nat × List Char → Option Nat := fun (n, rest) => if rest.isEmpty then some n else none
  let cs := Text.trim cs
  if (cs.map Char.toUpper) = ['U', 'T', 'C'] then some 0
  else match cs with
    | ['Z'] | ['z'] => some 0
    | '+' :: rest => ((readHoursMinutes rest).bind ends).map fun n : Nat => (n : Int)
    | '-' :: rest | '−' :: rest => ((readHoursMinutes rest).bind ends).map fun n : Nat => -(n : Int)
    | _ => none

/-- The reading that a text writes. -/
def ofChars? (cs : List Char) : Option Timestamp := do
  let (date, cs) ← readDate cs
  match cs with
  | c :: cs =>
    if c = 'T' ∨ c = 't' ∨ c = ' ' then
      let (second, nanosecond, cs) ← readTime cs
      ofLocal? date second nanosecond (← readOffset cs)
    else none
  | [] => none

def parse (s : String) : Option Timestamp :=
  ofChars? s.toList

end Timestamp

end EventSourcing
