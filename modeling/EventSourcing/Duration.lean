import EventSourcing.Binary64.Shortest

/-!
# Lengths of time

A length of time is a whole number of nanoseconds, below `2 ^ 64` seconds. Going to binary64
seconds rounds; coming back rounds to the nearest nanosecond, a half to the even one. A timer runs
for whole milliseconds, and not for ever.
-/

namespace EventSourcing

/-- How many nanoseconds make a second. -/
def nanosPerSecond : Nat := 1000000000

structure Duration where
  nanoseconds : Nat
  bounded : nanoseconds < UInt64.size * nanosPerSecond
deriving DecidableEq

namespace Duration

/-- The length with the given number of nanoseconds, if there is one. -/
def ofNanoseconds? (n : Nat) : Option Duration :=
  if h : n < UInt64.size * nanosPerSecond then some ⟨n, h⟩ else none

def zero : Duration := ⟨0, by decide⟩

/-- The greatest length. -/
def max : Duration := ⟨UInt64.size * nanosPerSecond - 1, by decide⟩

def ofMilliseconds (n : UInt64) : Duration where
  nanoseconds := n.toNat * 1000000
  bounded := by
    have := n.toNat_lt
    simp only [UInt64.size, nanosPerSecond]
    omega

/-- The whole seconds. -/
def seconds (d : Duration) : Nat := d.nanoseconds / nanosPerSecond

/-- The nanoseconds beyond the whole seconds. -/
def subsecond (d : Duration) : Nat := d.nanoseconds % nanosPerSecond

def isZero (d : Duration) : Bool := d.nanoseconds = 0

/-- The seconds as a binary64 number: the whole seconds and the rest are rounded apart. -/
def toSeconds (d : Duration) : Binary64 :=
  (Binary64.ofNat d.seconds).add
    ((Binary64.ofNat d.subsecond).div (Binary64.ofNat nanosPerSecond))

/-- The length nearest to a number of seconds; none for what is negative, too long or not a
number. -/
def ofSeconds? : Binary64 → Option Duration
  | .finite negative units _ =>
    if negative ∧ units ≠ 0 then none
    else ofNanoseconds? (roundHalfEven (units * nanosPerSecond) Binary64.unitsPerOne)
  | _ => none

/-- The longest time that a timer runs, in milliseconds: thirty years of 365 days. -/
def longestTimer : Nat := 946080000000

/-- How many milliseconds a timer runs for a length of time: the length is rounded up, and what is
longer than the longest time is cut to it. -/
def timerMilliseconds (d : Duration) : Nat :=
  min longestTimer ((d.nanoseconds + 999999) / 1000000)

/-! ## Diagnostic text -/

/-- How often a unit, a power of ten, is in a count, as a decimal without trailing zeros. -/
def fractionText (unit count : Nat) : String :=
  if count % unit = 0 then toString (count / unit)
  else
    let fraction := (Nat.toDigits 10 (unit + count % unit)).drop 1
    toString (count / unit) ++ "."
      ++ String.ofList (fraction.reverse.dropWhile (· = '0')).reverse

/-- A length in the greatest unit of which it has at least one. -/
def diagnostic (d : Duration) : String :=
  if nanosPerSecond ≤ d.nanoseconds then fractionText nanosPerSecond d.nanoseconds ++ "s"
  else if 1000000 ≤ d.nanoseconds then fractionText 1000000 d.nanoseconds ++ "ms"
  else if 1000 ≤ d.nanoseconds then fractionText 1000 d.nanoseconds ++ "µs"
  else toString d.nanoseconds ++ "ns"

end Duration

end EventSourcing
