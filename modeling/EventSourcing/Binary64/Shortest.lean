import EventSourcing.Binary64.Basic

/-!
# Shortest decimals of binary64 numbers

A number is written with the fewest decimal digits that read back to it, and of those with the
digits nearest to it. `shortest` chooses the digits in exact integer arithmetic; a `Layout` says
how they are set down.

* `readsBack` tells whether a decimal lies among the reals that round to a magnitude;
* `shortest` tries one digit, then two, and so on, and on each grid only the two neighbours of the
  number itself.
-/

namespace EventSourcing

/-- The decimal `digits * 10 ^ exponent`. -/
structure Decimal where
  digits : Nat
  exponent : Int
deriving DecidableEq

namespace Decimal

/-- The same decimal without trailing zeros. -/
def strip (d : Decimal) : Decimal :=
  if h : d.digits ≠ 0 ∧ d.digits % 10 = 0 then
    strip ⟨d.digits / 10, d.exponent + 1⟩
  else d
termination_by d.digits
decreasing_by omega

end Decimal

/-- Which of two equally near decimals is written. -/
inductive Tie where
  | up
  | toEven
deriving DecidableEq

namespace Binary64

/-- Compares `digits * 10 ^ exponent` with `bound` quarters of a least unit. -/
def compareQuarters (d : Decimal) (bound : Nat) : Ordering :=
  compare (d.digits * Nat.pow 10 d.exponent.toNat * (4 * unitsPerOne))
    (bound * Nat.pow 10 (-d.exponent).toNat)

/-- Whether a decimal lies among the reals that round to a positive magnitude. The gap below a
power of two is half the gap above it; the ends count when the last significant bit is zero. -/
def readsBack (units : Nat) (d : Decimal) : Bool :=
  let gap := 1 <<< gapExponent units
  let narrow := decide (units = gap <<< 52 ∧ 0 < gapExponent units)
  let lower := 4 * units - (if narrow then gap else 2 * gap)
  let upper := 4 * units + 2 * gap
  let ends := decide (units / gap % 2 = 0)
  let atLower := compareQuarters d lower
  let atUpper := compareQuarters d upper
  (atLower == .gt || (ends && atLower == .eq)) && (atUpper == .lt || (ends && atUpper == .eq))

/-- The least `p` such that a positive magnitude lies below `10 ^ p`. Every positive magnitude
exceeds `10 ^ (-400)`, so scaling by `10 ^ 400` leaves its leading digit in the whole part. -/
def decimalScale (units : Nat) : Int :=
  (Nat.toDigits 10 (units * Nat.pow 10 400 / unitsPerOne)).length - 400

/-- The decimal nearest to a magnitude among its two neighbours on the grid `10 ^ exponent`, of
those that read back. -/
def nearestOn (tie : Tie) (units : Nat) (exponent : Int) : Option Decimal :=
  let num := units * Nat.pow 10 (-exponent).toNat
  let den := unitsPerOne * Nat.pow 10 exponent.toNat
  let below : Decimal := ⟨num / den, exponent⟩
  let above : Decimal := ⟨num / den + 1, exponent⟩
  match readsBack units below, readsBack units above with
  | false, false => none
  | true, false => some below
  | false, true => some above
  | true, true =>
    let r := 2 * (num % den)
    if r < den then some below
    else if den < r then some above
    else match tie with
      | .up => some above
      | .toEven => if num / den % 2 = 0 then some below else some above

/-- The shortest decimal that reads back to a positive magnitude, and of those the nearest. The
exact decimal value stands in should seventeen digits not suffice. -/
def shortest (tie : Tie) (units : Nat) : Decimal :=
  let p := decimalScale units
  match (List.range 17).findSome? fun k : Nat => nearestOn tie units (p - (k + 1)) with
  | some d => d.strip
  | none => Decimal.strip ⟨units * Nat.pow 5 1074, -1074⟩

/-- How the digits of a number are set down. -/
structure Layout where
  /-- The least exponent of the leading digit that is written positionally. -/
  positionalFrom : Int
  /-- The least exponent of the leading digit above those that is not. -/
  positionalBelow : Int
  /-- Whether a whole number written positionally keeps the fraction `.0`. -/
  pointZero : Bool
  /-- Which of two equally near decimals is written. -/
  tie : Tie

namespace Layout

private def zeros (n : Nat) : String := String.ofList (List.replicate n '0')

/-- A decimal without trailing zeros, set down. -/
def ofDecimal (layout : Layout) (d : Decimal) : String :=
  let digits := Nat.toDigits 10 d.digits
  let leading : Int := d.exponent + digits.length - 1
  if layout.positionalFrom ≤ leading ∧ leading < layout.positionalBelow then
    if 0 ≤ d.exponent then
      String.ofList digits ++ zeros d.exponent.toNat ++ (if layout.pointZero then ".0" else "")
    else if 0 ≤ leading then
      let whole := leading.toNat + 1
      String.ofList (digits.take whole) ++ "." ++ String.ofList (digits.drop whole)
    else
      "0." ++ zeros (-leading - 1).toNat ++ String.ofList digits
  else
    let fraction := digits.drop 1
    String.ofList (digits.take 1)
      ++ (if fraction.isEmpty then "" else "." ++ String.ofList fraction)
      ++ "e" ++ (if leading < 0 then "-" else "") ++ toString leading.natAbs

/-- A number, set down. -/
def text (layout : Layout) : Binary64 → String
  | .nan => "NaN"
  | .infinite s => if s then "-inf" else "inf"
  | .finite s n _ =>
    (if s then "-" else "")
      ++ if n = 0 then (if layout.pointZero then "0.0" else "0")
        else layout.ofDecimal (shortest layout.tie n)

end Layout

/-- Messages and metrics write every number positionally, a whole one without a fraction. -/
def plain : Layout where
  positionalFrom := -400
  positionalBelow := 400
  pointZero := false
  tie := .up

/-- Diagnostic texts write numbers from `0.0001` up to below `10 ^ 16` positionally, whole ones
with the fraction `.0`, and others with an exponent. -/
def diagnostic : Layout where
  positionalFrom := -4
  positionalBelow := 16
  pointZero := true
  tie := .up

end Binary64

end EventSourcing
