import EventSourcing.Text.Numeral

/-!
# Numbers in JSON

A number as it is written: sign, whole part, fraction digits and exponent. What a number means
depends on the field that holds it.

* `integer?` reads whole numbers that are written without fraction and exponent;
* `binary64?` keeps the leading digits that fit 64 bits and then multiplies or divides once by a
  power of ten, so the result can be one unit away from the nearest value.
-/

namespace EventSourcing

namespace Json

structure Number where
  negative : Bool
  whole : Nat
  fraction : List (Fin 10)
  exponent : Option Int
deriving DecidableEq

namespace Number

def ofInt (n : Int) : Number where
  negative := n < 0
  whole := n.natAbs
  fraction := []
  exponent := none

def ofNat (n : Nat) : Number where
  negative := false
  whole := n
  fraction := []
  exponent := none

/-! ## Text -/

def digitChar (d : Fin 10) : Char := Char.ofNat (d.val + 48)

def digitOf (c : Char) : Fin 10 := Fin.ofNat 10 (c.toNat - 48)

/-- The written form of a number. An exponent always has its sign. -/
def text (n : Number) : List Char :=
  (if n.negative then ['-'] else [])
    ++ Nat.toDigits 10 n.whole
    ++ (if n.fraction.isEmpty then [] else '.' :: n.fraction.map digitChar)
    ++ (match n.exponent with
      | none => []
      | some e => 'e' :: (if e < 0 then '-' else '+') :: Nat.toDigits 10 e.natAbs)

/-- The whole part in front of a text: digits, of which only a lone one may be a zero in front. -/
def lexWhole (cs : List Char) : Option (Nat × List Char) :=
  match cs.takeWhile Char.isDigit with
  | [] => none
  | c :: more =>
    if c = '0' ∧ more ≠ [] then none
    else some (Nat.ofDigitChars 10 (c :: more) 0, cs.dropWhile Char.isDigit)

/-- The fraction in front of a text; without a point there is none. -/
def lexFraction : List Char → Option (List (Fin 10) × List Char)
  | '.' :: cs =>
    if (cs.takeWhile Char.isDigit).isEmpty then none
    else some ((cs.takeWhile Char.isDigit).map digitOf, cs.dropWhile Char.isDigit)
  | cs => some ([], cs)

/-- The digits of an exponent in front of a text. -/
def lexExponentDigits (negative : Bool) (cs : List Char) : Option (Option Int × List Char) :=
  let digits := cs.takeWhile Char.isDigit
  let value : Int := Nat.ofDigitChars 10 digits 0
  if digits.isEmpty then none
  else some (some (if negative then -value else value), cs.dropWhile Char.isDigit)

/-- The exponent in front of a text; without its letter there is none. -/
def lexExponent : List Char → Option (Option Int × List Char)
  | c :: cs =>
    if c = 'e' ∨ c = 'E' then
      match cs with
      | '-' :: rest => lexExponentDigits true rest
      | '+' :: rest => lexExponentDigits false rest
      | rest => lexExponentDigits false rest
    else some (none, c :: cs)
  | [] => some (none, [])

/-- The number in front of a text, without its sign. -/
def lexUnsigned (negative : Bool) (cs : List Char) : Option (Number × List Char) := do
  let (whole, cs) ← lexWhole cs
  let (fraction, cs) ← lexFraction cs
  let (exponent, cs) ← lexExponent cs
  return (⟨negative, whole, fraction, exponent⟩, cs)

/-- The number in front of a text. -/
def lex : List Char → Option (Number × List Char)
  | '-' :: cs => lexUnsigned true cs
  | cs => lexUnsigned false cs

theorem length_dropWhile_le (p : Char → Bool) (cs : List Char) :
    (cs.dropWhile p).length ≤ cs.length :=
  (List.dropWhile_sublist p).length_le

theorem lexWhole_length {cs rest : List Char} {n : Nat} (h : lexWhole cs = some (n, rest)) :
    rest.length < cs.length := by
  simp only [lexWhole] at h
  split at h
  · simp at h
  · next c more heq =>
    split at h
    · simp at h
    · simp only [Option.some.injEq, Prod.mk.injEq] at h
      have hsum : (cs.takeWhile Char.isDigit ++ cs.dropWhile Char.isDigit).length = cs.length := by
        rw [List.takeWhile_append_dropWhile]
      rw [heq, List.length_append, List.length_cons] at hsum
      rw [← h.2]
      omega

theorem lexFraction_length {cs rest : List Char} {ds : List (Fin 10)}
    (h : lexFraction cs = some (ds, rest)) : rest.length ≤ cs.length := by
  unfold lexFraction at h
  split at h
  · next cs =>
    split at h
    · simp at h
    · simp only [Option.some.injEq, Prod.mk.injEq] at h
      have := length_dropWhile_le Char.isDigit cs
      rw [← h.2, List.length_cons]
      omega
  · simp only [Option.some.injEq, Prod.mk.injEq] at h
    simp [h.2]

theorem lexExponentDigits_length {negative : Bool} {cs rest : List Char} {e : Option Int}
    (h : lexExponentDigits negative cs = some (e, rest)) : rest.length ≤ cs.length := by
  simp only [lexExponentDigits] at h
  split at h
  · simp at h
  · simp only [Option.some.injEq, Prod.mk.injEq] at h
    exact h.2 ▸ length_dropWhile_le _ _

theorem lexExponent_length {cs rest : List Char} {e : Option Int}
    (h : lexExponent cs = some (e, rest)) : rest.length ≤ cs.length := by
  unfold lexExponent at h
  split at h
  · split at h
    · split at h <;> have := lexExponentDigits_length h <;> simp_all <;> omega
    · simp only [Option.some.injEq, Prod.mk.injEq] at h
      simp [← h.2]
  · simp only [Option.some.injEq, Prod.mk.injEq] at h
    simp [← h.2]

theorem lexUnsigned_length {negative : Bool} {cs rest : List Char} {n : Number}
    (h : lexUnsigned negative cs = some (n, rest)) : rest.length < cs.length := by
  simp only [lexUnsigned, bind, Option.bind_eq_some_iff, pure, Option.some.injEq, Prod.mk.injEq,
    Prod.exists] at h
  obtain ⟨_, _, hw, _, _, hf, _, _, he, _, rfl⟩ := h
  have := lexWhole_length hw
  have := lexFraction_length hf
  have := lexExponent_length he
  omega

/-- A number takes at least one character. -/
theorem lex_length {cs rest : List Char} {n : Number} (h : lex cs = some (n, rest)) :
    rest.length < cs.length := by
  unfold lex at h
  split at h
  · have := lexUnsigned_length h
    rw [List.length_cons]
    omega
  · exact lexUnsigned_length h

/-- A text that is a number and nothing else. -/
def ofText? (cs : List Char) : Option Number :=
  match lex cs with
  | some (n, []) => some n
  | _ => none

/-! ## Meaning -/

/-- The whole number that is meant, if it is written as one. Zero has no sign. -/
def integer? (n : Number) : Option Int :=
  if n.fraction.isEmpty ∧ n.exponent = none then
    if n.negative then (if n.whole = 0 then none else some (-n.whole)) else some n.whole
  else none

/-- Appends decimal digits to a significand as long as it stays below `2 ^ 64`, and counts the
digits that no longer fit. -/
def accumulate (significand : Nat) : List Nat → Nat × Nat
  | [] => (significand, 0)
  | d :: ds =>
    if significand * 10 + d < UInt64.size then accumulate (significand * 10 + d) ds
    else (significand, (d :: ds).length)

/-- The power of ten with a small exponent. -/
def powerOfTen (k : Nat) : Binary64 :=
  Binary64.ofNat (Nat.pow 10 k)

/-- A number times a power of ten; below `10 ^ (-308)` in steps, each rounded. A result too large
to be finite is refused. -/
def scale (x : Binary64) (exponent : Int) : Option Binary64 :=
  if exponent < -308 then
    if x.same .zero then some x else scale (x.div (powerOfTen 308)) (exponent + 308)
  else if exponent < 0 then some (x.div (powerOfTen exponent.natAbs))
  else if exponent ≤ 308 then
    let y := x.mul (powerOfTen exponent.toNat)
    if y.isFinite then some y else none
  else if x.same .zero then some x
  else none
termination_by exponent.natAbs
decreasing_by omega

/-- The binary64 number that is read for a written one; none if it would not be finite. -/
def binary64? (n : Number) : Option Binary64 :=
  let (significand, dropped) := accumulate 0 ((Nat.toDigits 10 n.whole).map (·.toNat - 48))
  let (significand, unread) := accumulate significand (n.fraction.map Fin.val)
  let exponent : Int := dropped - (n.fraction.length - unread) + n.exponent.getD 0
  match scale (.ofNat significand) exponent with
  | some x => some (if n.negative then x.neg else x)
  | none => none

/-- Numbers of JSON are written positionally from `0.00001` up to below `10 ^ 16`, whole ones with
the fraction `.0`, and otherwise with an exponent. -/
def layout : Binary64.Layout where
  positionalFrom := -5
  positionalBelow := 16
  pointZero := true
  tie := .toEven

/-- How a binary64 number is written; there is no way to write one that is not finite. -/
def ofBinary64? (x : Binary64) : Option Number :=
  ofText? (layout.text x).toList

end Number

end Json

end EventSourcing
