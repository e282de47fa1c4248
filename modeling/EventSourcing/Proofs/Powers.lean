import EventSourcing.Proofs.NumberOrder
import EventSourcing.Proofs.Rounding

/-!
# Powers that never shrink

The sums and products of binary64 numbers without a sign keep their order, for each of them is an
exact result that is rounded once. A power is another matter: two exponents take different products,
and each of these rounds. Yet the powers of a number from one on never shrink. An exponent and the
next one differ up to the lowest bit that is not set, and beyond it squaring takes the same steps.

* `Binary64.Unsigned` are the numbers without a sign, up to infinity.
* `Binary64.mul_le_mul` is the order of products, where none is zero times infinity.
* `Binary64.pow_le_pow_left` and `Binary64.pow_le_pow_right` are the order of powers.
-/

namespace EventSourcing

namespace Binary64

/-! ## Numbers without a sign -/

/-- The numbers without a sign, up to infinity. -/
inductive Unsigned : Binary64 → Prop
  | finite (units : Nat) (h : Exact units) : Unsigned (.finite false units h)
  | infinite : Unsigned (.infinite false)

section Unsigned

variable {a b a' b' x y : Binary64} {num num' den m n : Nat}

theorem unsigned_ofQuotient (num den : Nat) : (ofQuotient false num den).Unsigned := by
  unfold ofQuotient
  split
  · exact .finite _ _
  · exact .infinite

theorem Unsigned.ne_nan (h : x.Unsigned) : x ≠ .nan := by
  cases h <;> exact Binary64.noConfusion

theorem Unsigned.le_infinite (h : x.Unsigned) : x.le (.infinite false) = true := by
  cases h with
  | finite n hn => exact finite_le_infinite
  | infinite => exact le_refl Unsigned.infinite.ne_nan

theorem Unsigned.eq_infinite (h : x.Unsigned) (hinfinite : x.isFinite = false) :
    x = .infinite false := by
  cases h with
  | finite n hn => cases hinfinite
  | infinite => rfl

theorem Unsigned.isFinite_of_le (hx : x.Unsigned) (hy : y.Unsigned) (hle : x.le y = true)
    (hfinite : y.isFinite = true) : x.isFinite = true := by
  cases hx with
  | finite n hn => rfl
  | infinite =>
    cases hy with
    | finite n hn => exact absurd hle not_infinite_le_finite
    | infinite => exact hfinite

/-- What is not less than a number without a sign has none either. -/
theorem Unsigned.of_le {n : Nat} {hn : Exact n} (hpos : 0 < n)
    (h : (Binary64.finite false n hn).le x = true) : x.Unsigned := by
  cases x with
  | nan => exact absurd rfl (ne_nan_of_le h).2
  | infinite s =>
    cases s with
    | false => exact .infinite
    | true =>
      have hbound := overflowBound_pos
      simp only [le, level?, decide_eq_true_eq, Bool.false_eq_true, if_false, if_true] at h
      omega
  | finite s m hm =>
    cases s with
    | false => exact .finite m hm
    | true =>
      simp only [le, level?, decide_eq_true_eq, Bool.false_eq_true, if_false, if_true] at h
      omega

theorem ofQuotient_of_lt (h : roundUnits num den < overflowBound) :
    ofQuotient false num den = .finite false (roundUnits num den) (roundUnits_exact h) :=
  dif_pos h

theorem ofQuotient_le_ofQuotient (hden : 0 < den) (h : num ≤ num') :
    (ofQuotient false num den).le (ofQuotient false num' den) = true := by
  have hmono := roundUnits_mono h hden
  by_cases hlt : roundUnits num' den < overflowBound
  · rw [ofQuotient_of_lt hlt, ofQuotient_of_lt (hmono.trans_lt hlt)]
    exact finite_le_finite.2 hmono
  · have hinfinite : ofQuotient false num' den = .infinite false := dif_neg hlt
    rw [hinfinite]
    exact (unsigned_ofQuotient num den).le_infinite

/-- A value of the format is not rounded. -/
theorem ofQuotient_mul (s : Bool) {units : Nat} (h : Exact units) (hden : 0 < den) :
    ofQuotient s (units * den) den = .finite s units h := by
  have heq := roundUnits_mul hden h.writable
  simp only [ofQuotient, heq, dif_pos h.1]

/-! ### Naturals and their quotients -/

theorem shiftLeft_lt_shiftLeft {k l : Nat} (h : k < l) : 1 <<< k < 1 <<< l := by
  rw [Nat.shiftLeft_eq, Nat.shiftLeft_eq, Nat.one_mul, Nat.one_mul]
  exact Nat.pow_lt_pow_right (by decide) h

theorem unitsPerOne_pos : 0 < unitsPerOne :=
  (Nat.zero_le _).trans_lt (shiftLeft_lt_shiftLeft (k := 0) (by decide))

/-- Up to 65 bits before the point there is no overflow. -/
theorem two_pow_mul_unitsPerOne_lt : 2 ^ 65 * unitsPerOne < overflowBound :=
  (one_shiftLeft_add 65 1074).symm.trans_lt (shiftLeft_lt_shiftLeft (by decide))

theorem exact_mul_unitsPerOne (h : n < 1 <<< 53) : Exact (n * unitsPerOne) := by
  have hwritable : Writable n := ⟨n, 0, h, Nat.shiftLeft_zero.symm⟩
  have hle : n ≤ 2 ^ 65 := h.le.trans (by decide)
  exact ⟨(Nat.mul_le_mul_right _ hle).trans_lt two_pow_mul_unitsPerOne_lt,
    hwritable.mul_unitsPerOne⟩

theorem ofNat_eq (h : Exact (n * unitsPerOne)) :
    ofNat n = .finite false (n * unitsPerOne) h := by
  have heq := ofQuotient_mul false h Nat.one_pos
  rwa [Nat.mul_one] at heq

/-- The quotient of two numbers that can be written is rounded once. -/
theorem div_ofNat (hm : m < 1 <<< 53) (hn : n < 1 <<< 53) (hpos : 0 < n) :
    (ofNat m).div (ofNat n) = ofQuotient false (m * unitsPerOne) n := by
  have hne : n * unitsPerOne ≠ 0 := (Nat.mul_pos hpos unitsPerOne_pos).ne'
  rw [ofNat_eq (exact_mul_unitsPerOne hm), ofNat_eq (exact_mul_unitsPerOne hn)]
  simp only [div, if_neg hne, bne_self_eq_false, ofQuotient,
    roundUnits_mul_mul _ _ unitsPerOne_pos]

theorem add_finite {hm : Exact m} {hn : Exact n} :
    (Binary64.finite false m hm).add (.finite false n hn) = ofQuotient false (m + n) 1 := by
  simp only [add, Bool.false_eq_true, if_false, Bool.and_self]
  split
  · next hzero => rw [show m + n = 0 by omega]
  · next hne =>
    rw [decide_eq_false (by omega), show ((m : Int) + (n : Int)).natAbs = m + n by omega]

/-! ### Products -/

/-- Without a sign only two finite numbers have a product that rounds. -/
theorem Unsigned.mul_cases (ha : a.Unsigned) (hb : b.Unsigned) :
    (∃ m n hm hn, a = .finite false m hm ∧ b = .finite false n hn) ∨ a.mul b = .nan ∨
      a.mul b = .infinite false := by
  cases ha with
  | finite m hm =>
    cases hb with
    | finite n hn => exact Or.inl ⟨m, n, hm, hn, rfl, rfl⟩
    | infinite =>
      right
      simp only [Binary64.mul, bne_self_eq_false]
      split <;> simp
  | infinite =>
    right
    cases hb with
    | finite n hn =>
      simp only [Binary64.mul, bne_self_eq_false]
      split <;> simp
    | infinite => exact Or.inr rfl

theorem Unsigned.mul (ha : a.Unsigned) (hb : b.Unsigned) (hne : a.mul b ≠ .nan) :
    (a.mul b).Unsigned := by
  rcases ha.mul_cases hb with ⟨m, n, hm, hn, rfl, rfl⟩ | hnan | hinfinite
  · exact unsigned_ofQuotient _ _
  · exact absurd hnan hne
  · rw [hinfinite]
    exact .infinite

/-- Products keep the order, unless one of them is zero times infinity. -/
theorem mul_le_mul (ha : a.Unsigned) (hb : b.Unsigned) (ha' : a'.Unsigned) (hb' : b'.Unsigned)
    (hle : a.le a' = true) (hle' : b.le b' = true) (hne : a.mul b ≠ .nan)
    (hne' : a'.mul b' ≠ .nan) : (a.mul b).le (a'.mul b') = true := by
  rcases ha'.mul_cases hb' with ⟨m', n', hm', hn', rfl, rfl⟩ | hnan | hinfinite
  · cases ha with
    | infinite => exact absurd hle not_infinite_le_finite
    | finite m hm =>
      cases hb with
      | infinite => exact absurd hle' not_infinite_le_finite
      | finite n hn =>
        exact ofQuotient_le_ofQuotient unitsPerOne_pos
          (Nat.mul_le_mul (finite_le_finite.1 hle) (finite_le_finite.1 hle'))
  · exact absurd hnan hne'
  · rw [hinfinite]
    exact (ha.mul hb hne).le_infinite

/-- A finite number that has a product with a number has one with every smaller number. -/
theorem finite_mul_ne_nan {m : Nat} {hm : Exact m} (hb : b.Unsigned) (hb' : b'.Unsigned)
    (hle : b.le b' = true) (hne : (Binary64.finite false m hm).mul b' ≠ .nan) :
    (Binary64.finite false m hm).mul b ≠ .nan := by
  cases hb with
  | finite n hn => exact (unsigned_ofQuotient _ _).ne_nan
  | infinite =>
    cases hb' with
    | finite n' hn' => exact absurd hle not_infinite_le_finite
    | infinite => exact hne

theorem Unsigned.le_antisymm (hx : x.Unsigned) (hy : y.Unsigned) (h : x.le y = true)
    (h' : y.le x = true) : x = y := by
  cases hx with
  | finite m hm =>
    cases hy with
    | finite n hn =>
      obtain rfl := Nat.le_antisymm (finite_le_finite.1 h) (finite_le_finite.1 h')
      rfl
    | infinite => exact absurd h' not_infinite_le_finite
  | infinite =>
    cases hy with
    | finite n hn => exact absurd h not_infinite_le_finite
    | infinite => rfl

theorem Unsigned.min_eq_right (hx : x.Unsigned) (hy : y.Unsigned) (h : y.le x = true) :
    x.min y = y := by
  rw [min_eq hx.ne_nan hy.ne_nan]
  split
  · next hle => exact hx.le_antisymm hy hle h
  · rfl

theorem Unsigned.min (hx : x = .nan ∨ x.Unsigned) (hy : y.Unsigned) : (x.min y).Unsigned := by
  rcases hx with rfl | hx
  · exact hy
  · rw [min_eq hx.ne_nan hy.ne_nan]
    split <;> assumption

/-- Zero has a product with a finite number, and it is zero. -/
theorem zero_mul_of_isFinite (h : x.Unsigned) (hfinite : x.isFinite = true) :
    zero.mul x = zero := by
  cases h with
  | finite n hn =>
    have heq := ofQuotient_mul false exact_zero unitsPerOne_pos
    rw [Nat.zero_mul] at heq
    show ofQuotient false (0 * n) unitsPerOne = zero
    rw [Nat.zero_mul]
    exact heq
  | infinite => cases hfinite

/-! ### From one on -/

theorem exact_unitsPerOne : Exact unitsPerOne :=
  ⟨shiftLeft_lt_shiftLeft (by decide), 1, 1074, by decide, rfl⟩

theorem one_eq : one = .finite false unitsPerOne exact_unitsPerOne := by
  have h := ofQuotient_mul false exact_unitsPerOne Nat.one_pos
  rwa [Nat.mul_comm] at h

theorem one_le_finite {n : Nat} {hn : Exact n} :
    one.le (.finite false n hn) = true ↔ unitsPerOne ≤ n := by
  rw [one_eq]
  exact finite_le_finite

theorem one_ne_nan : one ≠ .nan := by
  rw [one_eq]
  exact Binary64.noConfusion

theorem unsigned_of_one_le (h : one.le x = true) : x.Unsigned :=
  .of_le unitsPerOne_pos (one_eq ▸ h)

theorem one_mul (h : x.Unsigned) : one.mul x = x := by
  rw [one_eq]
  cases h with
  | finite n hn =>
    have heq := ofQuotient_mul false hn unitsPerOne_pos
    rwa [Nat.mul_comm] at heq
  | infinite =>
    simp only [Binary64.mul, if_neg unitsPerOne_pos.ne']
    rfl

/-- What is at least one is not zero. -/
theorem mul_ne_nan (hx : one.le x = true) (hy : one.le y = true) : x.mul y ≠ .nan := by
  have hone := unitsPerOne_pos
  have hzero {n : Nat} {hn : Exact n} (h : one.le (.finite false n hn) = true) : n ≠ 0 :=
    (hone.trans_le (one_le_finite.1 h)).ne'
  cases unsigned_of_one_le hx with
  | finite m hm =>
    cases unsigned_of_one_le hy with
    | finite n hn => exact (unsigned_ofQuotient _ _).ne_nan
    | infinite =>
      simp only [Binary64.mul, if_neg (hzero hx)]
      exact Binary64.noConfusion
  | infinite =>
    cases unsigned_of_one_le hy with
    | finite n hn =>
      simp only [Binary64.mul, if_neg (hzero hy)]
      exact Binary64.noConfusion
    | infinite => exact Binary64.noConfusion

theorem mul_le_mul_of_one_le (ha : one.le a = true) (hb : one.le b = true)
    (hle : a.le a' = true) (hle' : b.le b' = true) : (a.mul b).le (a'.mul b') = true :=
  mul_le_mul (unsigned_of_one_le ha) (unsigned_of_one_le hb)
    (unsigned_of_one_le (le_trans ha hle)) (unsigned_of_one_le (le_trans hb hle')) hle hle'
    (mul_ne_nan ha hb) (mul_ne_nan (le_trans ha hle) (le_trans hb hle'))

theorem one_le_mul (hx : one.le x = true) (hy : one.le y = true) : one.le (x.mul y) = true := by
  have h := mul_le_mul_of_one_le (le_refl one_ne_nan) (le_refl one_ne_nan) hx hy
  rwa [one_mul (unsigned_of_one_le (le_refl one_ne_nan))] at h

end Unsigned

/-! ## Powers -/

section Powers

variable {base base' acc acc' x y : Binary64} {m n : Nat}

theorem powFrom_zero (base acc : Binary64) : powFrom base 0 acc = acc := by
  rw [powFrom]
  rfl

/-- An even exponent is left to the square. -/
theorem powFrom_two_mul (base : Binary64) (e : Nat) (acc : Binary64) :
    powFrom base (2 * e) acc = powFrom (base.mul base) e acc := by
  rw [powFrom, if_neg (by omega), Nat.mul_div_cancel_left e (by decide)]
  split
  · next hzero => rw [hzero, powFrom_zero]
  · rfl

/-- An odd exponent takes one factor, and the square is left with the rest. -/
theorem powFrom_two_mul_add_one (base : Binary64) (e : Nat) (acc : Binary64) :
    powFrom base (2 * e + 1) acc = powFrom (base.mul base) e (acc.mul base) := by
  rw [powFrom, if_pos (by omega), show (2 * e + 1) / 2 = e by omega]
  split
  · next hzero => rw [hzero, powFrom_zero]
  · rfl

/-- A power grows with its base and with the number it starts from. -/
theorem powFrom_le_powFrom (e : Nat) (hbase : one.le base = true) (hacc : one.le acc = true)
    (hle : base.le base' = true) (hle' : acc.le acc' = true) :
    (powFrom base e acc).le (powFrom base' e acc') = true := by
  induction e using Nat.strong_induction_on generalizing base base' acc acc' with
  | _ e ih =>
    have hsquare := one_le_mul hbase hbase
    have hsquares := mul_le_mul_of_one_le hbase hbase hle hle
    obtain ⟨k, rfl | rfl⟩ := Nat.even_or_odd' e
    · rcases Nat.eq_zero_or_pos k with rfl | hk
      · rw [powFrom_zero, powFrom_zero]
        exact hle'
      · rw [powFrom_two_mul, powFrom_two_mul]
        exact ih k (by omega) hsquare hacc hsquares hle'
    · rw [powFrom_two_mul_add_one, powFrom_two_mul_add_one]
      exact ih k (by omega) hsquare (one_le_mul hacc hbase) hsquares
        (mul_le_mul_of_one_le hacc hbase hle' hle)

/-- One factor more, from one on, makes up for any start that is at most the base. This is what makes
the induction go through: an odd exponent multiplies both by the base, and its successor is even, so
that the square takes over from one. -/
theorem powFrom_le_powFrom_succ (e : Nat) (hacc : one.le acc = true) (hle : acc.le base = true) :
    (powFrom base e acc).le (powFrom base (e + 1) one) = true := by
  induction e using Nat.strong_induction_on generalizing base acc with
  | _ e ih =>
    have hbase := le_trans hacc hle
    obtain ⟨k, rfl | rfl⟩ := Nat.even_or_odd' e
    · rw [powFrom_two_mul, powFrom_two_mul_add_one, one_mul (unsigned_of_one_le hbase)]
      have hsquare := one_le_mul hbase hbase
      exact powFrom_le_powFrom k hsquare hacc (le_refl (ne_nan_of_le hsquare).2) hle
    · rw [powFrom_two_mul_add_one, show 2 * k + 1 + 1 = 2 * (k + 1) by omega, powFrom_two_mul]
      exact ih k (by omega) (one_le_mul hacc hbase)
        (mul_le_mul_of_one_le hacc hbase hle (le_refl (ne_nan_of_le hbase).2))

theorem pow_le_pow_left (hx : one.le x = true) (hle : x.le y = true) (n : Nat) :
    (x.pow n).le (y.pow n) = true :=
  powFrom_le_powFrom n hx (le_refl one_ne_nan) hle (le_refl one_ne_nan)

/-- The powers of a number from one on never shrink, whatever the products round to. -/
theorem pow_le_pow_right (hx : one.le x = true) (h : m ≤ n) : (x.pow m).le (x.pow n) = true := by
  induction n, h using Nat.le_induction with
  | base => exact le_refl (ne_nan_of_le (pow_le_pow_left hx (le_refl (ne_nan_of_le hx).2) m)).1
  | succ n h ih => exact le_trans ih (powFrom_le_powFrom_succ n (le_refl one_ne_nan) hx)

theorem one_le_pow (hx : one.le x = true) (n : Nat) : one.le (x.pow n) = true := by
  have h := pow_le_pow_right hx (Nat.zero_le n)
  rwa [pow, powFrom_zero] at h

end Powers

end Binary64

end EventSourcing
