/-!
# Binary64 numbers, exactly

A finite number of the binary64 format is a whole number of least units, `2 ^ (-1074)`, that 53
significant bits can write. So a value is a sign and a natural number, and every operation is the
exact result over the integers, rounded once to the nearest value with halves going to the even
neighbour. There is one value that is not a number.

* `roundUnits` rounds an exact quotient of least units to 53 significant bits;
* `roundUnits_exact` says that what it returns is a value of the format, below the overflow bound;
* `bits` is the interchange encoding.
-/

namespace EventSourcing

/-- The quotient of two naturals, rounded to the nearest natural; a half goes to the even one. -/
def roundHalfEven (num den : Nat) : Nat :=
  let q := num / den
  let r := num % den
  if 2 * r < den then q else if den < 2 * r then q + 1 else if q % 2 = 0 then q else q + 1

/-- Rounding adds at most one to the whole part. -/
theorem roundHalfEven_le (num den : Nat) : roundHalfEven num den ≤ num / den + 1 := by
  simp only [roundHalfEven]
  split
  · omega
  · split
    · omega
    · split <;> omega

namespace Binary64

/-- How many least units make one. -/
def unitsPerOne : Nat := 1 <<< 1074

/-- The least magnitude, in least units, that is too large to be finite. -/
def overflowBound : Nat := 1 <<< 2098

/-- The magnitudes of the finite values: 53 significant bits, below the overflow bound. -/
def Exact (units : Nat) : Prop :=
  units < overflowBound ∧ ∃ m s, m < 1 <<< 53 ∧ units = m <<< s

/-- The binary exponent of the gap between the values around a magnitude. -/
def gapExponent (units : Nat) : Nat :=
  units.log2 - 52

/-- An exact quotient of least units, rounded to 53 significant bits. -/
def roundUnits (num den : Nat) : Nat :=
  let s := gapExponent (num / den)
  roundHalfEven num (den <<< s) <<< s

/-- A rounded magnitude has at most 53 significant bits. -/
theorem roundUnits_eq (num den : Nat) :
    ∃ m s, m < 1 <<< 53 ∧ roundUnits num den = m <<< s := by
  simp only [roundUnits, Nat.shiftLeft_eq, Nat.one_mul]
  have hle := roundHalfEven_le num (den * 2 ^ gapExponent (num / den))
  have hlt : num / (den * 2 ^ gapExponent (num / den)) < 2 ^ 53 := by
    rw [← Nat.div_div_eq_div_mul, Nat.div_lt_iff_lt_mul (Nat.two_pow_pos _), ← Nat.pow_add]
    refine Nat.lt_of_lt_of_le Nat.lt_log2_self (Nat.pow_le_pow_right (by decide) ?_)
    simp only [gapExponent]
    omega
  have hm : roundHalfEven num (den * 2 ^ gapExponent (num / den)) ≤ 2 ^ 53 := by omega
  rcases Nat.lt_or_eq_of_le hm with h | h
  · exact ⟨_, _, h, rfl⟩
  · refine ⟨2 ^ 52, gapExponent (num / den) + 1, by decide, ?_⟩
    rw [h, Nat.pow_succ]
    omega

theorem roundUnits_exact {num den : Nat} (h : roundUnits num den < overflowBound) :
    Exact (roundUnits num den) :=
  ⟨h, roundUnits_eq num den⟩

theorem overflowBound_pos : 0 < overflowBound := by
  unfold overflowBound
  generalize 2098 = k
  rw [Nat.shiftLeft_eq, Nat.one_mul]
  exact Nat.two_pow_pos k

theorem exact_zero : Exact 0 := ⟨overflowBound_pos, 0, 0, by decide, (Nat.zero_shiftLeft 0).symm⟩

end Binary64

/-- A number of the binary64 format. -/
inductive Binary64 where
  | nan
  | infinite (negative : Bool)
  | finite (negative : Bool) (units : Nat) (exact : Binary64.Exact units)
deriving DecidableEq

namespace Binary64

/-- The value nearest to a signed exact quotient of least units. -/
def ofQuotient (negative : Bool) (num den : Nat) : Binary64 :=
  if h : roundUnits num den < overflowBound then
    .finite negative (roundUnits num den) (roundUnits_exact h)
  else
    .infinite negative

/-- The value nearest to a natural number. -/
def ofNat (n : Nat) : Binary64 :=
  ofQuotient false (n * unitsPerOne) 1

def zero : Binary64 := .finite false 0 exact_zero

def one : Binary64 := ofNat 1

def neg : Binary64 → Binary64
  | .nan => .nan
  | .infinite s => .infinite (!s)
  | .finite s n h => .finite (!s) n h

def isNaN : Binary64 → Bool
  | .nan => true
  | _ => false

def isFinite : Binary64 → Bool
  | .finite .. => true
  | _ => false

/-! ## Order -/

/-- The place of a number among all numbers, in signed least units; the infinities lie beyond
every finite value, and `nan` has no place. -/
def level? : Binary64 → Option Int
  | .nan => none
  | .infinite s => some (if s then -overflowBound else overflowBound)
  | .finite s n _ => some (if s then -n else n)

/-- Strictly less; false when either side is not a number. -/
def lt (x y : Binary64) : Bool :=
  match x.level?, y.level? with
  | some a, some b => a < b
  | _, _ => false

/-- Less or equal; false when either side is not a number. -/
def le (x y : Binary64) : Bool :=
  match x.level?, y.level? with
  | some a, some b => a ≤ b
  | _, _ => false

/-- Equal as numbers: the two zeros are equal, and `nan` equals nothing. -/
def same (x y : Binary64) : Bool :=
  x.le y && y.le x

/-- The larger number; of a number and `nan`, the number. -/
def max (x y : Binary64) : Binary64 :=
  if x.isNaN then y else if y.isNaN then x else if x.lt y then y else x

/-- The smaller number; of a number and `nan`, the number. -/
def min (x y : Binary64) : Binary64 :=
  if x.isNaN then y else if y.isNaN then x else if y.lt x then y else x

/-- The number itself when it lies between the bounds, otherwise the bound it passes. -/
def clamp (x lo hi : Binary64) : Binary64 :=
  if x.lt lo then lo else if hi.lt x then hi else x

/-! ## Arithmetic -/

/-- The sum. Two zeros give a negative zero only when both are negative. -/
def add : Binary64 → Binary64 → Binary64
  | .nan, _ => .nan
  | _, .nan => .nan
  | .infinite s, .infinite t => if s = t then .infinite s else .nan
  | .infinite s, .finite .. => .infinite s
  | .finite .., .infinite t => .infinite t
  | .finite s m _, .finite t n _ =>
    let sum : Int := (if s then -(m : Int) else m) + (if t then -(n : Int) else n)
    if sum = 0 then ofQuotient (s && t) 0 1 else ofQuotient (sum < 0) sum.natAbs 1

/-- The product; zero times an infinity is not a number. -/
def mul : Binary64 → Binary64 → Binary64
  | .nan, _ => .nan
  | _, .nan => .nan
  | .infinite s, .infinite t => .infinite (s != t)
  | .infinite s, .finite t n _ => if n = 0 then .nan else .infinite (s != t)
  | .finite s m _, .infinite t => if m = 0 then .nan else .infinite (s != t)
  | .finite s m _, .finite t n _ => ofQuotient (s != t) (m * n) unitsPerOne

/-- The quotient; zero over zero and infinity over infinity are not numbers. -/
def div : Binary64 → Binary64 → Binary64
  | .nan, _ => .nan
  | _, .nan => .nan
  | .infinite _, .infinite _ => .nan
  | .infinite s, .finite t _ _ => .infinite (s != t)
  | .finite s _ _, .infinite t => ofQuotient (s != t) 0 1
  | .finite s m _, .finite t n _ =>
    if n = 0 then (if m = 0 then .nan else .infinite (s != t))
    else ofQuotient (s != t) (m * unitsPerOne) n

/-- `acc` times the power, by squaring from the low bit of the exponent; every product rounds. -/
def powFrom (base : Binary64) (exponent : Nat) (acc : Binary64) : Binary64 :=
  let acc := if exponent % 2 = 1 then acc.mul base else acc
  if _h : exponent / 2 = 0 then acc else powFrom (base.mul base) (exponent / 2) acc
termination_by exponent
decreasing_by omega

/-- The power with a natural exponent, by repeated squaring. -/
def pow (base : Binary64) (exponent : Nat) : Binary64 :=
  powFrom base exponent one

/-! ## Interchange encoding -/

/-- The 64 bits of a number; `nan` has one quiet encoding. -/
def bits : Binary64 → Nat
  | .nan => 0x7ff8 <<< 48
  | .infinite s => (if s then 1 <<< 63 else 0) + 0x7ff <<< 52
  | .finite s n _ =>
    (if s then 1 <<< 63 else 0) + gapExponent n <<< 52 + n >>> gapExponent n

end Binary64

end EventSourcing
