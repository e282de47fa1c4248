import EventSourcing.Proofs.Powers
import Mathlib.Data.Rat.Cast.Order
import Mathlib.Tactic.Positivity

/-!
# The value of a number

A finite binary64 number is a rational one, a whole number of least units. Its order, a comparison of
places, is then that of the rationals, and a number that is moved between bounds or taken for a part
of another one can be followed by its value.

* `Binary64.value?` is the rational value; infinities and what is not a number have none.
* `Binary64.le_iff_value_le` is the order, and `Binary64.fraction_iff` says which numbers lie between
  zero and one.
* `Binary64.mul_fraction` is the product with such a number, which is rounded to what is not greater.
-/

namespace EventSourcing

namespace Binary64

/-- The value of a finite number. -/
def value? : Binary64 → Option ℚ
  | .finite s n _ => some ((if s then -(n : ℚ) else n) / unitsPerOne)
  | _ => none

variable {x y : Binary64} {a b : ℚ} {m n : Nat} {hn : Exact n}

theorem cast_unitsPerOne_pos : (0 : ℚ) < unitsPerOne := Nat.cast_pos.2 unitsPerOne_pos

/-- A number has a value exactly if it is finite, and its place is the value in least units. -/
theorem value?_eq_some_iff :
    x.value? = some a ↔
      x.isFinite = true ∧ ∃ place, x.level? = some place ∧ a = (place : ℚ) / unitsPerOne := by
  cases x with
  | nan => simp [value?, isFinite]
  | infinite s => simp [value?, isFinite]
  | finite s n h => cases s <;> simp [value?, isFinite, level?, eq_comm]

theorem exists_value_iff : (∃ a, x.value? = some a) ↔ x.isFinite = true := by
  cases x <;> simp [value?, isFinite]

/-- Finite numbers are in order if their values are. -/
theorem le_iff_value_le (hx : x.value? = some a) (hy : y.value? = some b) :
    x.le y = true ↔ a ≤ b := by
  obtain ⟨-, i, hi, rfl⟩ := value?_eq_some_iff.1 hx
  obtain ⟨-, j, hj, rfl⟩ := value?_eq_some_iff.1 hy
  rw [div_le_div_iff_of_pos_right cast_unitsPerOne_pos, Int.cast_le]
  simp only [le, hi, hj, decide_eq_true_eq]

theorem value?_finite :
    (Binary64.finite false n hn).value? = some ((n : ℚ) / unitsPerOne) := rfl

theorem value?_zero : zero.value? = some 0 := by
  show some (((0 : Nat) : ℚ) / unitsPerOne) = some 0
  rw [Nat.cast_zero, zero_div]

theorem value?_one : one.value? = some 1 := by
  rw [one_eq, value?_finite, div_self cast_unitsPerOne_pos.ne']

/-- The infinities are not inside the bounds of the places. -/
theorem isFinite_of_level {place : Int} (h : x.level? = some place)
    (hlow : -(overflowBound : Int) < place) (hhigh : place < overflowBound) :
    x.isFinite = true := by
  cases x with
  | nan => cases h
  | infinite s => cases s <;> cases h <;> omega
  | finite s n hn => rfl

/-- The numbers equal to zero, with either sign. -/
theorem same_zero_iff : x.same zero = true ↔ x.value? = some 0 := by
  rw [same, Bool.and_eq_true]
  constructor
  · rintro ⟨hle, hge⟩
    obtain ⟨i, j, hi, hj, hij⟩ := le_iff.1 hle
    obtain ⟨j', i', hj', hi', hji⟩ := le_iff.1 hge
    obtain rfl : i = i' := Option.some.inj (hi.symm.trans hi')
    obtain rfl : (0 : Int) = j := Option.some.inj hj
    obtain rfl : (0 : Int) = j' := Option.some.inj hj'
    obtain rfl : i = 0 := by omega
    have hbound := overflowBound_pos
    refine value?_eq_some_iff.2 ⟨isFinite_of_level hi (by omega) (by omega), 0, hi, ?_⟩
    rw [Int.cast_zero, zero_div]
  · intro hzero
    exact ⟨(le_iff_value_le hzero value?_zero).2 le_rfl, (le_iff_value_le value?_zero hzero).2 le_rfl⟩

/-- A positive value is written without a sign. -/
theorem eq_finite_of_pos (h : x.value? = some a) (hpos : 0 < a) :
    ∃ n, ∃ hn : Exact n, x = .finite false n hn ∧ a = (n : ℚ) / unitsPerOne := by
  cases x with
  | nan => cases h
  | infinite s => cases h
  | finite s n hn =>
    obtain rfl := Option.some.inj h
    cases s with
    | false => exact ⟨n, hn, rfl, rfl⟩
    | true =>
      have hle : -(n : ℚ) / unitsPerOne ≤ 0 :=
        div_nonpos_of_nonpos_of_nonneg (neg_nonpos.2 n.cast_nonneg) cast_unitsPerOne_pos.le
      exact absurd hpos (not_lt.2 hle)

/-! ## Bounds -/

/-- The finite numbers from one on, as they are tested. -/
theorem one_le_iff :
    (one.le x && x.isFinite) = true ↔ ∃ a, x.value? = some a ∧ 1 ≤ a := by
  rw [Bool.and_eq_true]
  constructor
  · rintro ⟨hle, hfinite⟩
    obtain ⟨a, ha⟩ := exists_value_iff.2 hfinite
    exact ⟨a, ha, (le_iff_value_le value?_one ha).1 hle⟩
  · rintro ⟨a, ha, hle⟩
    exact ⟨(le_iff_value_le value?_one ha).2 hle, exists_value_iff.1 ⟨a, ha⟩⟩

/-- The numbers from zero to one, as they are tested. -/
theorem fraction_iff :
    (zero.le x && x.le one) = true ↔ ∃ a, x.value? = some a ∧ 0 ≤ a ∧ a ≤ 1 := by
  rw [Bool.and_eq_true]
  constructor
  · rintro ⟨hle, hle'⟩
    have hfinite : x.isFinite = true := by
      rw [one_eq] at hle'
      obtain ⟨i, place, hi, hplace, hlow⟩ := le_iff.1 hle
      obtain ⟨place', j, hplace', hj, hhigh⟩ := le_iff.1 hle'
      obtain rfl : place = place' := Option.some.inj (hplace.symm.trans hplace')
      obtain rfl : (0 : Int) = i := Option.some.inj hi
      obtain rfl : (unitsPerOne : Int) = j := Option.some.inj hj
      have hbound := exact_unitsPerOne.1
      exact isFinite_of_level hplace (by omega) (by omega)
    obtain ⟨a, ha⟩ := exists_value_iff.2 hfinite
    exact ⟨a, ha, (le_iff_value_le value?_zero ha).1 hle, (le_iff_value_le ha value?_one).1 hle'⟩
  · rintro ⟨a, ha, hle, hle'⟩
    exact ⟨(le_iff_value_le value?_zero ha).2 hle, (le_iff_value_le ha value?_one).2 hle'⟩

/-! ## Parts -/

/-- A part of a number without a sign, from none to all of it, is rounded to what is not greater. -/
theorem mul_fraction (hm : Exact m) (hn : Exact n) (hone : n ≤ unitsPerOne) :
    ∃ k, ∃ hk : Exact k, (Binary64.finite false m hm).mul (.finite false n hn) = .finite false k hk ∧
      k ≤ m := by
  have hle : roundUnits (m * n) unitsPerOne ≤ m :=
    roundUnits_le_of_le unitsPerOne_pos hm.writable (Nat.mul_le_mul_left m hone)
  have hlt := hle.trans_lt hm.1
  exact ⟨_, roundUnits_exact hlt, ofQuotient_of_lt hlt, hle⟩

end Binary64

end EventSourcing
