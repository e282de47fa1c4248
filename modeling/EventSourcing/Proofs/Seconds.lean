import EventSourcing.Duration
import EventSourcing.Proofs.Powers

/-!
# Seconds there and back

A length of time goes to binary64 seconds with three roundings: the whole seconds, the rest, and
their sum. Coming back rounds once more, to the nearest nanosecond. So a length may come back as
another one, also as a longer one.

* `Duration.toSeconds_eq` is the magnitude that a length goes to.
* `Duration.rounded` is the length that comes back. `rounded_eq` says that up to `2 ^ 23` seconds, some
  97 days, it is the same one, and `rounded_le` bounds by how much it is longer above.
* `Duration.read_le_read` is the order of what is read from two numbers of seconds that are not beyond
  those of a length, where that length stands in for what cannot be read.
-/

namespace EventSourcing

namespace Duration

open Binary64

variable {d : Duration} {v v' : Binary64}

/-! ## The magnitude in seconds -/

/-- The magnitude of the part of a second. -/
def subsecondUnits (d : Duration) : Nat :=
  roundUnits (d.subsecond * unitsPerOne) nanosPerSecond

/-- The magnitude of the seconds. -/
def secondUnits (d : Duration) : Nat :=
  roundUnits (roundUnits (d.seconds * unitsPerOne) 1 + d.subsecondUnits) 1

theorem ext {d d' : Duration} (h : d.nanoseconds = d'.nanoseconds) : d = d' := by
  cases d
  cases d'
  cases h
  rfl

theorem subsecond_lt (d : Duration) : d.subsecond < nanosPerSecond :=
  Nat.mod_lt _ (by decide)

theorem seconds_lt (d : Duration) : d.seconds < UInt64.size :=
  (Nat.div_lt_iff_lt_mul (by decide)).2 d.bounded

theorem nanoseconds_eq (d : Duration) :
    d.nanoseconds = d.seconds * nanosPerSecond + d.subsecond :=
  (Nat.div_add_mod' d.nanoseconds nanosPerSecond).symm

theorem nanoseconds_mul_unitsPerOne (d : Duration) : d.nanoseconds * unitsPerOne
    = d.seconds * unitsPerOne * nanosPerSecond + d.subsecond * unitsPerOne := by
  rw [nanoseconds_eq]
  ring

theorem subsecondUnits_le (d : Duration) : d.subsecondUnits ≤ unitsPerOne := by
  refine roundUnits_le_of_le (by decide) exact_unitsPerOne.writable ?_
  rw [Nat.mul_comm unitsPerOne]
  exact Nat.mul_le_mul_right _ d.subsecond_lt.le

/-- A bound of the whole seconds, and one second more, bounds the magnitude. -/
theorem secondUnits_le {bound : Nat} (h : d.seconds ≤ bound) :
    d.secondUnits ≤ roundUnits (roundUnits (bound * unitsPerOne) 1 + unitsPerOne) 1 :=
  roundUnits_mono (Nat.add_le_add (roundUnits_mono (Nat.mul_le_mul_right _ h) Nat.one_pos)
    d.subsecondUnits_le) Nat.one_pos

theorem secondUnits_lt (d : Duration) : d.secondUnits < overflowBound := by
  have hsize : Writable UInt64.size := ⟨1, 64, by decide, by decide⟩
  have hlimit : Writable (2 ^ 65) := ⟨1, 65, by decide, by decide⟩
  refine (secondUnits_le d.seconds_lt.le).trans_lt
    ((roundUnits_le_of_le Nat.one_pos hlimit.mul_unitsPerOne ?_).trans_lt
      two_pow_mul_unitsPerOne_lt)
  rw [hsize.roundUnits_mul_unitsPerOne, UInt64.size]
  omega

/-- From a second on the whole seconds are at least one. -/
theorem one_mul_unitsPerOne_le (h : nanosPerSecond ≤ d.nanoseconds) :
    1 * unitsPerOne ≤ d.seconds * unitsPerOne :=
  Nat.mul_le_mul_right _ (Nat.div_pos h (by decide))

theorem unitsPerOne_le (h : nanosPerSecond ≤ d.nanoseconds) :
    unitsPerOne ≤ roundUnits (d.seconds * unitsPerOne) 1 := by
  have hle := one_mul_unitsPerOne_le h
  exact le_roundUnits_of_le Nat.one_pos exact_unitsPerOne.writable (by omega)

theorem exact_secondUnits (d : Duration) : Exact d.secondUnits :=
  roundUnits_exact d.secondUnits_lt

theorem roundUnits_seconds_le (d : Duration) :
    roundUnits (d.seconds * unitsPerOne) 1 ≤ d.secondUnits :=
  le_roundUnits_of_le Nat.one_pos (writable_roundUnits _ _) (by omega)

theorem toSeconds_eq (d : Duration) :
    d.toSeconds = .finite false d.secondUnits d.exact_secondUnits := by
  have hlt := d.roundUnits_seconds_le.trans_lt d.secondUnits_lt
  have hlt' : d.subsecondUnits < overflowBound := d.subsecondUnits_le.trans_lt exact_unitsPerOne.1
  have hwhole : ofNat d.seconds = .finite false _ (roundUnits_exact hlt) := ofQuotient_of_lt hlt
  have hpart : (ofNat d.subsecond).div (ofNat nanosPerSecond)
      = .finite false _ (roundUnits_exact hlt') := by
    rw [div_ofNat (d.subsecond_lt.trans (by decide)) (by decide) (by decide)]
    exact ofQuotient_of_lt hlt'
  rw [toSeconds, hwhole, hpart, add_finite]
  exact ofQuotient_of_lt d.secondUnits_lt

theorem unsigned_toSeconds (d : Duration) : d.toSeconds.Unsigned := by
  rw [toSeconds_eq]
  exact .finite _ _

/-! ## What is read -/

/-- The nanoseconds nearest to a magnitude in seconds. -/
def nearest (units : Nat) : Nat :=
  roundHalfEven (units * nanosPerSecond) unitsPerOne

theorem nearest_mono {m n : Nat} (h : m ≤ n) : nearest m ≤ nearest n :=
  roundHalfEven_mono (Nat.mul_le_mul_right _ h) _

theorem nearest_mul (s : Nat) : nearest (s * unitsPerOne) = s * nanosPerSecond := by
  rw [nearest, Nat.mul_right_comm, roundHalfEven_mul unitsPerOne_pos]

theorem nanoseconds_getD {n : Nat} {hn : Exact n} :
    ((ofSeconds? (.finite false n hn)).getD d).nanoseconds =
      if nearest n < UInt64.size * nanosPerSecond then nearest n else d.nanoseconds := by
  simp only [ofSeconds?, Bool.false_eq_true, false_and, if_false, ofNanoseconds?]
  rw [← nearest]
  split <;> rfl

theorem getD_zero (d : Duration) : (ofSeconds? .zero).getD d = .zero := by
  have hzero : nearest 0 = 0 := by
    have heq := nearest_mul 0
    rwa [Nat.zero_mul, Nat.zero_mul] at heq
  have heq : ((ofSeconds? .zero).getD d).nanoseconds = _ := nanoseconds_getD
  rw [hzero, if_pos (by decide)] at heq
  exact ext heq

/-- The greatest number of seconds below the bound of all lengths that binary64 can write. -/
def lastSecond : Nat := (2 ^ 53 - 1) * 2 ^ 11

/-- Only the very longest lengths go to a number of seconds that cannot be read. -/
theorem lastSecond_lt (h : UInt64.size * nanosPerSecond ≤ nearest d.secondUnits) :
    lastSecond < d.seconds := by
  by_contra hle
  have hunits : d.secondUnits ≤ lastSecond * unitsPerOne :=
    (secondUnits_le (Nat.le_of_not_lt hle)).trans (by decide +kernel)
  have hnear := nearest_mono hunits
  rw [nearest_mul] at hnear
  exact absurd (h.trans hnear) (by decide)

/-- What can be read is not beyond the last second. -/
theorem nearest_le {n : Nat} (hn : Writable n) (h : nearest n < UInt64.size * nanosPerSecond) :
    nearest n ≤ lastSecond * nanosPerSecond := by
  have hlt : n < UInt64.size * unitsPerOne := by
    by_contra hge
    have hnear := nearest_mono (Nat.le_of_not_lt hge)
    rw [nearest_mul] at hnear
    omega
  have hbits : UInt64.size * unitsPerOne = 2 ^ 53 * 1 <<< 1085 :=
    (one_shiftLeft_add 64 1074).symm.trans (one_shiftLeft_add 53 1085)
  have hlast : (2 ^ 53 - 1) * 1 <<< 1085 = lastSecond * unitsPerOne := by
    rw [one_shiftLeft_add 11 1074, ← unitsPerOne, ← Nat.mul_assoc, lastSecond]
  rw [← nearest_mul]
  exact nearest_mono ((hn.le_of_lt (hlt.trans_eq hbits)).trans_eq hlast)

/-- Numbers of seconds are read in their order, where the length that they do not pass stands in for
those that cannot be read. -/
theorem read_le_read (hv : v.Unsigned) (hv' : v'.Unsigned) (hle : v.le v' = true)
    (hle' : v'.le d.toSeconds = true) :
    ((ofSeconds? v).getD d).nanoseconds ≤ ((ofSeconds? v').getD d).nanoseconds := by
  rw [toSeconds_eq] at hle'
  cases hv' with
  | infinite => exact absurd hle' not_infinite_le_finite
  | finite n' hn' =>
    cases hv with
    | infinite => exact absurd hle not_infinite_le_finite
    | finite n hn =>
      have hmono := nearest_mono (finite_le_finite.1 hle)
      have hmono' := nearest_mono (finite_le_finite.1 hle')
      rw [nanoseconds_getD, nanoseconds_getD]
      by_cases hfar : nearest n' < UInt64.size * nanosPerSecond
      · rw [if_pos hfar, if_pos (hmono.trans_lt hfar)]
        exact hmono
      · rw [if_neg hfar]
        split
        · next hnear =>
          have hlast := lastSecond_lt ((Nat.le_of_not_lt hfar).trans hmono')
          calc nearest n ≤ lastSecond * nanosPerSecond := nearest_le hn.writable hnear
            _ ≤ d.seconds * nanosPerSecond := Nat.mul_le_mul_right _ hlast.le
            _ ≤ d.nanoseconds := Nat.div_mul_le_self _ _
        · exact Nat.le_refl _

/-! ## There and back -/

/-- The length that comes back from binary64 seconds; a length whose seconds cannot be read stays as
it is. -/
def rounded (d : Duration) : Duration := (ofSeconds? d.toSeconds).getD d

theorem nanoseconds_rounded (d : Duration) :
    d.rounded.nanoseconds = if nearest d.secondUnits < UInt64.size * nanosPerSecond
      then nearest d.secondUnits else d.nanoseconds := by
  rw [rounded, toSeconds_eq, nanoseconds_getD]

/-- Whole seconds that 53 bits can write are exact. -/
theorem secondUnits_of_whole (h : d.subsecond = 0) (hwritable : Writable d.seconds) :
    d.secondUnits = d.seconds * unitsPerOne := by
  have hzero : d.subsecondUnits = 0 := by
    rw [subsecondUnits, h, Nat.zero_mul]
    decide
  rw [secondUnits, hzero, hwritable.roundUnits_mul_unitsPerOne, Nat.add_zero,
    hwritable.roundUnits_mul_unitsPerOne]

theorem toSeconds_zero : Duration.zero.toSeconds = .zero := by
  have hwritable : Writable Duration.zero.seconds := ⟨0, 0, by decide, by decide⟩
  have hunits : Duration.zero.secondUnits = 0 :=
    (secondUnits_of_whole rfl hwritable).trans (Nat.zero_mul _)
  simp only [toSeconds_eq, hunits]
  rfl

/-- The gap between the values just below one. -/
def gapBelowOne : Nat := 1 <<< 1021

theorem unitsPerOne_eq : unitsPerOne = 2 ^ 53 * gapBelowOne := one_shiftLeft_add 53 1021

/-- The part of a second is off by at most half the gap below one. -/
theorem subsecondUnits_near (d : Duration) :
    2 * (d.subsecondUnits * nanosPerSecond)
        ≤ 2 * (d.subsecond * unitsPerOne) + nanosPerSecond * gapBelowOne ∧
      2 * (d.subsecond * unitsPerOne)
        ≤ 2 * (d.subsecondUnits * nanosPerSecond) + nanosPerSecond * gapBelowOne := by
  have hnear := roundUnits_near (d.subsecond * unitsPerOne)
    (show 0 < nanosPerSecond by decide)
  have hlt : d.subsecond * unitsPerOne / nanosPerSecond < 2 ^ 53 * 1 <<< 1021 := by
    rw [Nat.div_lt_iff_lt_mul (by decide), ← gapBelowOne, ← unitsPerOne_eq, Nat.mul_comm]
    exact Nat.mul_lt_mul_of_pos_left d.subsecond_lt unitsPerOne_pos
  have hgap := Nat.mul_le_mul_left nanosPerSecond (two_pow_gapExponent_le hlt)
  exact ⟨hnear.1.trans (Nat.add_le_add_left hgap _), hnear.2.trans (Nat.add_le_add_left hgap _)⟩

/-- Below `2 ^ 23` seconds the nearest nanosecond is the one that the length had. -/
theorem nearest_secondUnits (h : d.seconds < 2 ^ 23) : nearest d.secondUnits = d.nanoseconds := by
  have hwritable : Writable d.seconds :=
    ⟨d.seconds, 0, h.trans (by decide), Nat.shiftLeft_zero.symm⟩
  have hone := unitsPerOne_eq
  have hpos := unitsPerOne_pos
  obtain ⟨hle, hge⟩ := d.subsecondUnits_near
  have hpart : d.subsecondUnits < unitsPerOne := by
    have hmul := Nat.mul_le_mul_right unitsPerOne d.subsecond_lt
    rw [Nat.succ_mul] at hmul
    simp only [nanosPerSecond] at hle hmul
    omega
  have hsum : (d.seconds * unitsPerOne + d.subsecondUnits) / 1 < 2 ^ 53 * 1 <<< 1044 := by
    have heq : 2 ^ 53 * 1 <<< 1044 = 2 ^ 23 * unitsPerOne :=
      (one_shiftLeft_add 53 1044).symm.trans (one_shiftLeft_add 23 1074)
    have hmul := Nat.mul_le_mul_right unitsPerOne h
    rw [Nat.div_one, heq]
    rw [Nat.succ_mul] at hmul
    omega
  -- half the gap of the sum and half the gap below one stay under half a nanosecond
  have hgap := two_pow_gapExponent_le hsum
  have hnear := roundUnits_near (d.seconds * unitsPerOne + d.subsecondUnits) Nat.one_pos
  rw [show 1 <<< 1044 = 2 ^ 23 * gapBelowOne from one_shiftLeft_add 23 1021] at hgap
  refine roundHalfEven_eq_of_near hpos ?_ ?_
  all_goals
    rw [nanoseconds_mul_unitsPerOne, secondUnits, hwritable.roundUnits_mul_unitsPerOne]
    simp only [nanosPerSecond] at hle hge hnear ⊢
    omega

/-- Up to `2 ^ 23` seconds a length comes back as it was. -/
theorem rounded_eq (h : d.nanoseconds ≤ 2 ^ 23 * nanosPerSecond) : d.rounded = d := by
  have hnear : nearest d.secondUnits = d.nanoseconds := by
    rcases Nat.lt_or_ge d.seconds (2 ^ 23) with hlt | hge
    · exact nearest_secondUnits hlt
    · -- only the bound itself is left
      have heq := d.nanoseconds_eq
      have hseconds : d.seconds = 2 ^ 23 := by
        simp only [nanosPerSecond] at h heq
        omega
      have hsubsecond : d.subsecond = 0 := by
        rw [hseconds] at heq
        omega
      rw [secondUnits_of_whole hsubsecond (hseconds ▸ ⟨1, 23, by decide, by decide⟩),
        nearest_mul, heq, hsubsecond, Nat.add_zero]
  exact ext (by rw [nanoseconds_rounded, hnear, ite_self])

/-- A second comes back as a second or more. -/
theorem nanosPerSecond_le_rounded (h : nanosPerSecond ≤ d.nanoseconds) :
    nanosPerSecond ≤ d.rounded.nanoseconds := by
  have hunits := (unitsPerOne_le h).trans d.roundUnits_seconds_le
  have hnear := nearest_mono ((Nat.one_mul unitsPerOne).le.trans hunits)
  rw [nearest_mul, Nat.one_mul] at hnear
  rw [nanoseconds_rounded]
  split <;> assumption

/-- Only no time at all comes back as none. -/
theorem rounded_eq_zero_iff : d.rounded = .zero ↔ d = .zero := by
  rcases Nat.lt_or_ge d.nanoseconds nanosPerSecond with hshort | hlong
  · rw [rounded_eq (by omega)]
  · refine ⟨fun hzero => ?_, fun hzero => ?_⟩
    · have hle := nanosPerSecond_le_rounded hlong
      rw [hzero] at hle
      exact absurd hle (by decide)
    · rw [hzero] at hlong
      exact absurd hlong (by decide)

/-- The whole seconds are off by at most one part in `2 ^ 53`, and so is the sum. -/
theorem secondUnits_relative (h : nanosPerSecond ≤ d.nanoseconds) :
    2 ^ 107 * (d.secondUnits * nanosPerSecond)
      ≤ 2 * (2 ^ 53 + 1) ^ 2 * (d.nanoseconds * unitsPerOne)
        + (2 ^ 53 + 1) * nanosPerSecond * unitsPerOne := by
  have hone := unitsPerOne_eq
  have hpos := unitsPerOne_pos
  have hfull := one_mul_unitsPerOne_le h
  have hfull' := unitsPerOne_le h
  have hwhole := roundUnits_relative Nat.one_pos
    (show 2 ^ 52 * 1 ≤ d.seconds * unitsPerOne by omega)
  have hpart := d.subsecondUnits_near.1
  have hsum : 2 ^ 53 * (d.secondUnits * 1)
      ≤ (2 ^ 53 + 1) * (roundUnits (d.seconds * unitsPerOne) 1 + d.subsecondUnits) :=
    roundUnits_relative Nat.one_pos (by omega)
  rw [d.nanoseconds_mul_unitsPerOne]
  simp only [nanosPerSecond] at hpart ⊢
  omega

/-- A length comes back longer by at most one part in `2 ^ 52`, and one nanosecond. -/
theorem rounded_le (d : Duration) :
    d.rounded.nanoseconds ≤ d.nanoseconds + d.nanoseconds / 2 ^ 52 + 1 := by
  rcases Nat.lt_or_ge d.nanoseconds nanosPerSecond with hshort | hlong
  · rw [rounded_eq (by omega)]
    omega
  · rw [nanoseconds_rounded]
    split
    · have hpos := unitsPerOne_pos
      have hrelative := secondUnits_relative hlong
      have hnear := (roundHalfEven_near (d.secondUnits * nanosPerSecond) hpos).1
      rw [← nearest] at hnear
      -- `2 ^ 106` is the half nanosecond of coming back, and `2 ^ 84` covers the part of a second
      have hscaled : 2 ^ 107 * nearest d.secondUnits * unitsPerOne
          ≤ ((2 ^ 107 + 2 ^ 55 + 2) * d.nanoseconds + 2 ^ 106 + 2 ^ 84) * unitsPerOne := by
        simp only [nanosPerSecond, Nat.add_mul, Nat.mul_assoc] at hrelative hnear ⊢
        omega
      have hbound := d.bounded
      have hcancel := Nat.le_of_mul_le_mul_right hscaled hpos
      simp only [nanosPerSecond, UInt64.size] at hbound
      omega
    · omega

end Duration

end EventSourcing
