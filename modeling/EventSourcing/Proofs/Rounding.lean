import EventSourcing.Binary64.Basic
import Mathlib.Tactic.Ring
import Mathlib.Tactic.Linarith

/-!
# Rounding

Rounding is monotone, it leaves alone what can be written, and it is off by half a gap at most.

* `roundHalfEven_mono`, `roundHalfEven_mul` and `roundHalfEven_near` say so of naturals, and
  `roundUnits_mono`, `roundUnits_mul` and `roundUnits_near` of magnitudes.
* `Binary64.Writable` are the magnitudes that 53 significant bits can write.
* `roundUnits_relative` bounds the error by a part of the quotient, if that is not tiny.
-/

namespace EventSourcing

/-! ## To the nearest natural -/

section Nearest

variable {num num' den q k : Nat}

/-- A quotient is rounded down or up, to the nearer neighbour, and halfway to the even one. -/
theorem roundHalfEven_cases (num den : Nat) :
    (roundHalfEven num den = num / den ∧ 2 * (num % den) ≤ den ∧
        (2 * (num % den) = den → num / den % 2 = 0)) ∨
      (roundHalfEven num den = num / den + 1 ∧ den ≤ 2 * (num % den) ∧
        (2 * (num % den) = den → num / den % 2 = 1)) := by
  simp only [roundHalfEven]
  split
  · exact Or.inl ⟨rfl, by omega, by omega⟩
  · split
    · exact Or.inr ⟨rfl, by omega, by omega⟩
    · split
      · exact Or.inl ⟨rfl, by omega, by omega⟩
      · exact Or.inr ⟨rfl, by omega, by omega⟩

theorem roundHalfEven_mono (h : num ≤ num') (den : Nat) :
    roundHalfEven num den ≤ roundHalfEven num' den := by
  have hdiv : num / den * den + num % den = num := Nat.div_add_mod' num den
  have hdiv' : num' / den * den + num' % den = num' := Nat.div_add_mod' num' den
  have hle : num / den ≤ num' / den := Nat.div_le_div_right h
  -- with the same whole part the remainders decide
  have hrest (heq : num / den = num' / den) : num % den ≤ num' % den := by
    rw [← heq] at hdiv'
    omega
  rcases roundHalfEven_cases num den with ⟨hdown, -, -⟩ | ⟨hup, hhalf, hodd⟩ <;>
    rcases roundHalfEven_cases num' den with ⟨hdown', hhalf', heven'⟩ | ⟨hup', -, -⟩ <;> omega

theorem roundHalfEven_mul (hden : 0 < den) (q : Nat) : roundHalfEven (q * den) den = q := by
  rw [roundHalfEven, Nat.mul_div_cancel q hden, Nat.mul_mod_left]
  exact if_pos (by omega)

/-- A rounded quotient is at most half a unit away. -/
theorem roundHalfEven_near (num : Nat) (hden : 0 < den) :
    2 * (roundHalfEven num den * den) ≤ 2 * num + den ∧
      2 * num ≤ 2 * (roundHalfEven num den * den) + den := by
  have hdiv : num / den * den + num % den = num := Nat.div_add_mod' num den
  have hmod := Nat.mod_lt num hden
  rcases roundHalfEven_cases num den with ⟨hdown, hhalf, -⟩ | ⟨hup, hhalf, -⟩
  · rw [hdown]
    omega
  · rw [hup, Nat.add_mul, Nat.one_mul]
    omega

theorem roundHalfEven_le_of_le (hden : 0 < den) (h : num ≤ q * den) : roundHalfEven num den ≤ q :=
  (roundHalfEven_mono h den).trans_eq (roundHalfEven_mul hden q)

theorem le_roundHalfEven_of_le (hden : 0 < den) (h : q * den ≤ num) : q ≤ roundHalfEven num den :=
  (roundHalfEven_mul hden q).ge.trans (roundHalfEven_mono h den)

/-- A natural less than half a unit away is the rounded quotient. -/
theorem roundHalfEven_eq_of_near (hden : 0 < den) (hbelow : 2 * num < 2 * (q * den) + den)
    (habove : 2 * (q * den) < 2 * num + den) : roundHalfEven num den = q := by
  obtain ⟨hle, hge⟩ := roundHalfEven_near num hden
  refine Nat.le_antisymm ?_ ?_
  · have hlt : roundHalfEven num den * den < (q + 1) * den := by
      rw [Nat.succ_mul]
      omega
    exact Nat.le_of_lt_succ (Nat.lt_of_mul_lt_mul_right hlt)
  · have hlt : q * den < (roundHalfEven num den + 1) * den := by
      rw [Nat.succ_mul]
      omega
    exact Nat.le_of_lt_succ (Nat.lt_of_mul_lt_mul_right hlt)

/-- A common factor does not matter. -/
theorem roundHalfEven_mul_mul (num den : Nat) (hk : 0 < k) :
    roundHalfEven (num * k) (den * k) = roundHalfEven num den := by
  have hlt (a b : Nat) : 2 * (a * k) < b * k ↔ 2 * a < b := by
    rw [← Nat.mul_assoc]
    exact Nat.mul_lt_mul_right hk
  have hgt (a b : Nat) : b * k < 2 * (a * k) ↔ b < 2 * a := by
    rw [← Nat.mul_assoc]
    exact Nat.mul_lt_mul_right hk
  simp only [roundHalfEven, Nat.mul_div_mul_right num den hk, Nat.mul_mod_mul_right, hlt, hgt]

end Nearest

namespace Binary64

/-! ## To 53 significant bits -/

/-- The magnitudes that 53 significant bits can write, however large. -/
def Writable (units : Nat) : Prop := ∃ m s, m < 1 <<< 53 ∧ units = m <<< s

theorem Exact.writable {units : Nat} (h : Exact units) : Writable units := h.2

theorem writable_roundUnits (num den : Nat) : Writable (roundUnits num den) := roundUnits_eq num den

theorem one_shiftLeft_add (k l : Nat) : 1 <<< (k + l) = 2 ^ k * 1 <<< l := by
  simp only [Nat.shiftLeft_eq, Nat.pow_add, Nat.one_mul]

/-- A magnitude has at most 53 bits from its gap on. -/
theorem lt_gap (units : Nat) : units < 2 ^ 53 * 2 ^ gapExponent units := by
  rw [← Nat.pow_add]
  refine Nat.lt_log2_self.trans_le (Nat.pow_le_pow_right (by decide) ?_)
  simp only [gapExponent]
  omega

/-- Where the gap is more than one unit, a magnitude has all of the 53 bits. -/
theorem gap_le {units : Nat} (h : 0 < gapExponent units) :
    2 ^ 52 * 2 ^ gapExponent units ≤ units := by
  simp only [gapExponent] at h ⊢
  have hne : units ≠ 0 := by
    rintro rfl
    simp at h
  rw [← Nat.pow_add, show 52 + (units.log2 - 52) = units.log2 by omega]
  exact Nat.log2_self_le hne

theorem gapExponent_mono {units units' : Nat} (h : units ≤ units') :
    gapExponent units ≤ gapExponent units' := by
  have hlog : units.log2 ≤ units'.log2 := by
    by_cases hzero : units = 0
    · simp [hzero]
    · exact (Nat.le_log2 (by omega)).2 ((Nat.log2_self_le hzero).trans h)
  simp only [gapExponent]
  omega

/-- A number of bits bounds the gap. -/
theorem gapExponent_le_of_lt {units k : Nat} (h : units < 2 ^ (53 + k)) :
    gapExponent units ≤ k := by
  by_cases hzero : units = 0
  · simp [hzero, gapExponent]
  · have hlog := (Nat.log2_lt hzero).2 h
    simp only [gapExponent]
    omega

theorem two_pow_gapExponent_le {n k : Nat} (h : n < 2 ^ 53 * 1 <<< k) :
    2 ^ gapExponent n ≤ 1 <<< k := by
  rw [Nat.shiftLeft_eq, Nat.one_mul] at h ⊢
  exact Nat.pow_le_pow_right (by decide) (gapExponent_le_of_lt (by rwa [Nat.pow_add]))

/-- The gap of what can be written leaves nothing over. -/
theorem Writable.gap_dvd {units : Nat} (h : Writable units) : 2 ^ gapExponent units ∣ units := by
  obtain ⟨m, s, hm, rfl⟩ := h
  rw [Nat.shiftLeft_eq, Nat.one_mul] at hm
  rw [Nat.shiftLeft_eq]
  have hlt : m * 2 ^ s < 2 ^ (53 + s) := by
    rw [Nat.pow_add]
    exact Nat.mul_lt_mul_of_pos_right hm (Nat.two_pow_pos s)
  exact Dvd.dvd.mul_left (Nat.pow_dvd_pow 2 (gapExponent_le_of_lt hlt)) m

theorem Writable.mul_shiftLeft {n : Nat} (h : Writable n) (k : Nat) : Writable (n * 1 <<< k) := by
  obtain ⟨m, s, hm, rfl⟩ := h
  exact ⟨m, s + k, hm, by simp only [Nat.shiftLeft_eq, Nat.pow_add, Nat.one_mul, Nat.mul_assoc]⟩

theorem Writable.mul_unitsPerOne {n : Nat} (h : Writable n) : Writable (n * unitsPerOne) :=
  h.mul_shiftLeft 1074

/-- Below a power of two there is one last magnitude that can be written. -/
theorem Writable.le_of_lt {n k : Nat} (h : Writable n) (hlt : n < 2 ^ 53 * 1 <<< k) :
    n ≤ (2 ^ 53 - 1) * 1 <<< k := by
  obtain ⟨c, hc⟩ := h.gap_dvd
  have hcount : c < 2 ^ 53 := by
    have hbits := lt_gap n
    rw [Nat.mul_comm (2 ^ 53)] at hbits
    exact Nat.lt_of_mul_lt_mul_left (hc.symm.trans_lt hbits)
  calc n = c * 2 ^ gapExponent n := by rw [Nat.mul_comm, ← hc]
    _ ≤ (2 ^ 53 - 1) * 1 <<< k :=
      Nat.mul_le_mul (Nat.le_sub_one_of_lt hcount) (two_pow_gapExponent_le hlt)

section RoundUnits

variable {num num' den : Nat}

theorem roundUnits_eq_mul (num den : Nat) :
    roundUnits num den = roundHalfEven num (den * 2 ^ gapExponent (num / den))
      * 2 ^ gapExponent (num / den) := by
  simp only [roundUnits, Nat.shiftLeft_eq]

/-- What can be written stays as it is. -/
theorem roundUnits_mul (hden : 0 < den) {units : Nat} (h : Writable units) :
    roundUnits (units * den) den = units := by
  obtain ⟨k, hk⟩ := h.gap_dvd
  have hpos := Nat.mul_pos hden (Nat.two_pow_pos (gapExponent units))
  have hnum : units * den = k * (den * 2 ^ gapExponent units) := by
    calc units * den = 2 ^ gapExponent units * k * den := by rw [← hk]
      _ = k * (den * 2 ^ gapExponent units) := by ring
  rw [roundUnits_eq_mul, Nat.mul_div_cancel units hden, hnum, roundHalfEven_mul hpos,
    Nat.mul_comm, ← hk]

theorem roundUnits_mono (h : num ≤ num') (hden : 0 < den) :
    roundUnits num den ≤ roundUnits num' den := by
  rw [roundUnits_eq_mul, roundUnits_eq_mul]
  have hdiv : num / den ≤ num' / den := Nat.div_le_div_right h
  rcases Nat.lt_or_eq_of_le (gapExponent_mono hdiv) with hlt | heq
  · -- between the two gaps there is a power of two, which can be written
    have hle : roundHalfEven num (den * 2 ^ gapExponent (num / den)) ≤ 2 ^ 53 := by
      refine roundHalfEven_le_of_le (Nat.mul_pos hden (Nat.two_pow_pos _)) ?_
      have hquot := (Nat.div_lt_iff_lt_mul hden).1 (lt_gap (num / den))
      calc num ≤ 2 ^ 53 * 2 ^ gapExponent (num / den) * den := hquot.le
        _ = 2 ^ 53 * (den * 2 ^ gapExponent (num / den)) := by ring
    have hge : 2 ^ 52 ≤ roundHalfEven num' (den * 2 ^ gapExponent (num' / den)) := by
      refine le_roundHalfEven_of_le (Nat.mul_pos hden (Nat.two_pow_pos _)) ?_
      have hquot := (Nat.le_div_iff_mul_le hden).1 (gap_le (Nat.zero_lt_of_lt hlt))
      calc 2 ^ 52 * (den * 2 ^ gapExponent (num' / den))
          = 2 ^ 52 * 2 ^ gapExponent (num' / den) * den := by ring
        _ ≤ num' := hquot
    calc roundHalfEven num (den * 2 ^ gapExponent (num / den)) * 2 ^ gapExponent (num / den)
        ≤ 2 ^ 53 * 2 ^ gapExponent (num / den) := Nat.mul_le_mul_right _ hle
      _ = 2 ^ 52 * 2 ^ (gapExponent (num / den) + 1) := by ring
      _ ≤ 2 ^ 52 * 2 ^ gapExponent (num' / den) :=
        Nat.mul_le_mul_left _ (Nat.pow_le_pow_right (by decide) hlt)
      _ ≤ _ := Nat.mul_le_mul_right _ hge
  · rw [heq]
    exact Nat.mul_le_mul_right _ (roundHalfEven_mono h _)

theorem roundUnits_le_of_le (hden : 0 < den) {units : Nat} (hunits : Writable units)
    (h : num ≤ units * den) : roundUnits num den ≤ units :=
  (roundUnits_mono h hden).trans_eq (roundUnits_mul hden hunits)

theorem le_roundUnits_of_le (hden : 0 < den) {units : Nat} (hunits : Writable units)
    (h : units * den ≤ num) : units ≤ roundUnits num den :=
  (roundUnits_mul hden hunits).ge.trans (roundUnits_mono h hden)

/-- A rounded magnitude is at most half a gap away. -/
theorem roundUnits_near (num : Nat) (hden : 0 < den) :
    2 * (roundUnits num den * den) ≤ 2 * num + den * 2 ^ gapExponent (num / den) ∧
      2 * num ≤ 2 * (roundUnits num den * den) + den * 2 ^ gapExponent (num / den) := by
  have hnear := roundHalfEven_near num
    (Nat.mul_pos hden (Nat.two_pow_pos (gapExponent (num / den))))
  have hmul : roundUnits num den * den = roundHalfEven num (den * 2 ^ gapExponent (num / den))
      * (den * 2 ^ gapExponent (num / den)) := by
    rw [roundUnits_eq_mul]
    ring
  rw [hmul]
  exact hnear

/-- A quotient that fills the 53 bits is off by at most one part in `2 ^ 53`. -/
theorem roundUnits_relative (hden : 0 < den) (h : 2 ^ 52 * den ≤ num) :
    2 ^ 53 * (roundUnits num den * den) ≤ (2 ^ 53 + 1) * num := by
  have hnear := (roundUnits_near num hden).1
  have hgap : 2 ^ 52 * (den * 2 ^ gapExponent (num / den)) ≤ num := by
    rcases Nat.eq_zero_or_pos (gapExponent (num / den)) with hzero | hpos
    · rw [hzero, Nat.pow_zero, Nat.mul_one]
      exact h
    · calc 2 ^ 52 * (den * 2 ^ gapExponent (num / den))
          = 2 ^ 52 * 2 ^ gapExponent (num / den) * den := by ring
        _ ≤ num := (Nat.le_div_iff_mul_le hden).1 (gap_le hpos)
  omega

theorem roundUnits_mul_mul (num den : Nat) {k : Nat} (hk : 0 < k) :
    roundUnits (num * k) (den * k) = roundUnits num den := by
  rw [roundUnits_eq_mul, roundUnits_eq_mul, Nat.mul_div_mul_right num den hk,
    Nat.mul_right_comm den k, roundHalfEven_mul_mul num _ hk]

theorem Writable.roundUnits_mul_unitsPerOne {n : Nat} (h : Writable n) :
    roundUnits (n * unitsPerOne) 1 = n * unitsPerOne := by
  have heq := roundUnits_mul Nat.one_pos h.mul_unitsPerOne
  rwa [Nat.mul_one] at heq

end RoundUnits

end Binary64

end EventSourcing
