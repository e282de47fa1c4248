import EventSourcing.Proofs.RetryRules
import EventSourcing.Proofs.Seconds

/-!
# Delays

The delay before an attempt is the smaller of two numbers of seconds: the base delay times a power of
the multiplier, and the greatest delay. As the powers never shrink, the delays do not either. Two
things come in between. A power may be infinite, and then a base delay of zero has no product, so that
the greatest delay is what is left. And the greatest delay is rounded to a number of seconds as well,
so that a delay may pass it by as much as this number is rounded up.

* `Backoff.power` is the factor of the base delay, and `Backoff.uncappedSeconds` is the product.
* `Backoff.silent_of_zero_base` is a base delay of zero, without and with jitter.
* `Backoff.capped_mono_bounded` is the order of the delays without jitter, and their bound.
-/

namespace EventSourcing

namespace Retry.Backoff

open Binary64 Duration

variable {b : Backoff} {attempt m n : UInt32}

/-! ## The parts of a delay -/

/-- The factor of the base delay before an attempt. -/
def power (b : Backoff) (attempt : UInt32) : Binary64 := b.multiplier.pow (exponent attempt)

/-- The seconds before an attempt if there were no greatest delay. -/
def uncappedSeconds (b : Backoff) (attempt : UInt32) : Binary64 :=
  b.baseDelay.toSeconds.mul (b.power attempt)

/-- The seconds before an attempt, as they are read. -/
def cappedSeconds (b : Backoff) (attempt : UInt32) : Binary64 :=
  (b.uncappedSeconds attempt).min b.maxDelay.toSeconds

theorem capped_zero (b : Backoff) : b.capped 0 = .zero := rfl

theorem capped_eq (b : Backoff) (h : attempt ≠ 0) :
    b.capped attempt = (ofSeconds? (b.cappedSeconds attempt)).getD b.maxDelay := if_neg h

theorem exponent_mono (h : m ≤ n) : exponent m ≤ exponent n := by
  have hle : m.toNat ≤ n.toNat := UInt32.le_iff_toNat_le.1 h
  simp only [exponent, Nat.min_def]
  split <;> split <;> omega

theorem InRange.one_le_multiplier (h : b.InRange) : one.le b.multiplier = true :=
  (Bool.and_eq_true_iff.1 h.multiplier).1

theorem InRange.unsigned_power (h : b.InRange) (attempt : UInt32) : (b.power attempt).Unsigned :=
  unsigned_of_one_le (one_le_pow h.one_le_multiplier _)

/-- The factor never shrinks. -/
theorem InRange.power_le_power (h : b.InRange) (hle : m ≤ n) :
    (b.power m).le (b.power n) = true :=
  pow_le_pow_right h.one_le_multiplier (exponent_mono hle)

/-! ## The order of the delays -/

theorem InRange.unsigned_uncappedSeconds (h : b.InRange)
    (hne : b.uncappedSeconds attempt ≠ .nan) : (b.uncappedSeconds attempt).Unsigned :=
  (unsigned_toSeconds _).mul (h.unsigned_power attempt) hne

/-- Before the minimum is taken there may be no number, but there is no negative one. -/
theorem InRange.unsigned_cappedSeconds (h : b.InRange) (attempt : UInt32) :
    (b.cappedSeconds attempt).Unsigned := by
  refine Unsigned.min ?_ (unsigned_toSeconds _)
  rcases eq_or_ne (b.uncappedSeconds attempt) .nan with hnan | hne
  · exact Or.inl hnan
  · exact Or.inr (h.unsigned_uncappedSeconds hne)

theorem cappedSeconds_le (b : Backoff) (attempt : UInt32) :
    (b.cappedSeconds attempt).le b.maxDelay.toSeconds = true :=
  min_le_right _ (unsigned_toSeconds _).ne_nan

theorem InRange.cappedSeconds_le_cappedSeconds (h : b.InRange) (hle : m ≤ n) :
    (b.cappedSeconds m).le (b.cappedSeconds n) = true := by
  have hpower := h.power_le_power hle
  have hm := h.unsigned_power m
  have hn := h.unsigned_power n
  rcases eq_or_ne (b.uncappedSeconds n) .nan with hnan | hne
  · -- without a product the greatest delay is left, and nothing passes it
    have hlast : b.cappedSeconds n = b.maxDelay.toSeconds := by
      rw [cappedSeconds, hnan, min_nan_left]
    rw [hlast]
    exact b.cappedSeconds_le m
  · have hbase := unsigned_toSeconds b.baseDelay
    have hne' : b.uncappedSeconds m ≠ .nan := by
      rw [uncappedSeconds, toSeconds_eq] at hne ⊢
      exact finite_mul_ne_nan hm hn hpower hne
    exact min_le_min_left (mul_le_mul hbase hm hbase hn (le_refl hbase.ne_nan) hpower hne' hne)
      (unsigned_toSeconds _).ne_nan

theorem InRange.capped_le_capped (h : b.InRange) (hle : m ≤ n) :
    (b.capped m).nanoseconds ≤ (b.capped n).nanoseconds := by
  rcases eq_or_ne m 0 with rfl | hm
  · exact Nat.zero_le _
  · have hn : n ≠ 0 := by
      rintro rfl
      exact hm (UInt32.le_zero_iff.1 hle)
    rw [capped_eq b hm, capped_eq b hn]
    exact read_le_read (h.unsigned_cappedSeconds m) (h.unsigned_cappedSeconds n)
      (h.cappedSeconds_le_cappedSeconds hle) (b.cappedSeconds_le n)

/-- No delay passes what the greatest delay is rounded to. -/
theorem InRange.capped_le_rounded (h : b.InRange) (attempt : UInt32) :
    (b.capped attempt).nanoseconds ≤ b.maxDelay.rounded.nanoseconds := by
  rcases eq_or_ne attempt 0 with rfl | hne
  · exact Nat.zero_le _
  · have hunsigned := unsigned_toSeconds b.maxDelay
    rw [capped_eq b hne, rounded]
    exact read_le_read (h.unsigned_cappedSeconds attempt) hunsigned (b.cappedSeconds_le attempt)
      (le_refl hunsigned.ne_nan)

/-- From some seconds on a delay is what the greatest delay is rounded to. -/
theorem InRange.capped_of_le (h : b.InRange) (hne : attempt ≠ 0)
    (hle : b.maxDelay.toSeconds.le (b.uncappedSeconds attempt) = true) :
    b.capped attempt = b.maxDelay.rounded := by
  have hunsigned := h.unsigned_uncappedSeconds (ne_nan_of_le hle).2
  rw [capped_eq b hne, cappedSeconds, hunsigned.min_eq_right (unsigned_toSeconds _) hle, rounded]

/-- The delays without jitter never shrink, and they end with what the greatest delay is rounded to.
The greatest delay bounds them up to `2 ^ 23` seconds, and beyond that up to one part in `2 ^ 52` and
one nanosecond. -/
theorem capped_mono_bounded (hb : b.Obtainable) (hle : m ≤ n) :
    (b.capped m).nanoseconds ≤ (b.capped n).nanoseconds ∧
      (n ≠ 0 → b.maxDelay.toSeconds.le (b.uncappedSeconds n) = true →
        b.capped n = b.maxDelay.rounded) ∧
      (b.maxDelay.nanoseconds ≤ 2 ^ 23 * nanosPerSecond →
        (b.capped n).nanoseconds ≤ b.maxDelay.nanoseconds) ∧
      (b.capped n).nanoseconds ≤ b.maxDelay.nanoseconds + b.maxDelay.nanoseconds / 2 ^ 52 + 1 := by
  have hrange := hb.inRange
  have hbound := hrange.capped_le_rounded n
  refine ⟨hrange.capped_le_capped hle, hrange.capped_of_le, fun hshort => ?_,
    hbound.trans (rounded_le _)⟩
  rwa [rounded_eq hshort] at hbound

/-- The default backoff starts with its base delay and ends with its greatest one. -/
theorem capped_mono_bounded_default :
    let b := Backoff.default .still
    b.Obtainable ∧ (1 : UInt32) ≤ 8 ∧ b.capped 1 = .ofMilliseconds 100 ∧
      b.capped 8 = .ofMilliseconds 10000 ∧
      (b.capped 1).nanoseconds ≤ (b.capped 8).nanoseconds ∧
      (b.capped 8).nanoseconds ≤ b.maxDelay.nanoseconds := by
  intro b
  have hb : b.Obtainable := .default _
  have hle : (1 : UInt32) ≤ 8 := by decide
  obtain ⟨hmono, -, hbound, -⟩ := capped_mono_bounded hb hle
  have hvalues : b.capped 1 = .ofMilliseconds 100 ∧ b.capped 8 = .ofMilliseconds 10000 := by
    decide +kernel
  exact ⟨hb, hle, hvalues.1, hvalues.2, hmono, hbound (by decide)⟩

/-- A delay passes a greatest delay of `2 ^ 23` seconds and a nanosecond. -/
theorem capped_exceeds_maxDelay :
    let d : Duration := ⟨2 ^ 23 * nanosPerSecond + 1, by decide⟩
    let b := ((Backoff.default .still).changed (.baseDelay d)).changed (.maxDelay d)
    b.Obtainable ∧ b.maxDelay = d ∧ (b.capped 1).nanoseconds = d.nanoseconds + 1 := by
  intro d b
  exact ⟨.changed (.changed (.default _) _) _, rfl, by decide +kernel⟩

/-! ## A base delay of zero -/

theorem InRange.capped_of_isFinite (h : b.InRange) (hzero : b.baseDelay = .zero)
    (hfinite : (b.power attempt).isFinite = true) : b.capped attempt = .zero := by
  rcases eq_or_ne attempt 0 with rfl | hne
  · exact b.capped_zero
  · have hunsigned := unsigned_toSeconds b.maxDelay
    have hle : Binary64.zero.le b.maxDelay.toSeconds = true := by
      rw [toSeconds_eq]
      exact finite_le_finite.2 (Nat.zero_le _)
    rw [capped_eq b hne, cappedSeconds, uncappedSeconds, hzero, toSeconds_zero,
      zero_mul_of_isFinite (h.unsigned_power attempt) hfinite,
      min_eq (ne_nan_of_le hle).1 hunsigned.ne_nan, if_pos hle, getD_zero]

theorem InRange.capped_of_not_isFinite (h : b.InRange) (hzero : b.baseDelay = .zero)
    (hfinite : (b.power attempt).isFinite = false) : b.capped attempt = b.maxDelay.rounded := by
  have hne : attempt ≠ 0 := by
    rintro rfl
    have hone : b.power 0 = .one := powFrom_zero _ _
    rw [hone, one_eq] at hfinite
    cases hfinite
  have hnan : Binary64.zero.mul (.infinite false) = .nan := by decide
  rw [capped_eq b hne, cappedSeconds, uncappedSeconds, hzero, toSeconds_zero,
    (h.unsigned_power attempt).eq_infinite hfinite, hnan, min_nan_left, rounded]

/-- No delay is left without jitter. -/
theorem delay_of_capped_eq_zero (h : b.capped attempt = .zero) (draw : Nat) :
    b.delay attempt draw = .zero := by
  have hspread : b.spread? attempt = none := by
    simp only [spread?, h]
    exact if_pos rfl
  simp only [delay, hspread, h]

/-- The powers of numbers up to two are finite for the first 1024 attempts. -/
theorem InRange.isFinite_power (h : b.InRange) (htwo : b.multiplier.le (.ofNat 2) = true)
    (hattempt : attempt.toNat ≤ 1024) : (b.power attempt).isFinite = true := by
  have hexponent : exponent attempt ≤ 1023 := by
    simp only [exponent, Nat.min_def]
    split <;> omega
  have hlast : ((Binary64.ofNat 2).pow 1023).isFinite = true := by decide +kernel
  have hone := h.one_le_multiplier
  have hle : (b.power attempt).le ((Binary64.ofNat 2).pow 1023) = true :=
    le_trans (pow_le_pow_right hone hexponent) (pow_le_pow_left hone htwo 1023)
  have hunsigned := unsigned_of_one_le (one_le_pow (le_trans hone htwo) 1023)
  exact (h.unsigned_power attempt).isFinite_of_le hunsigned hle hlast

/-- With a base delay of zero there is no delay before an attempt, with jitter or without, as long as
the power of the multiplier is finite. Where it is infinite, there is the greatest delay. -/
theorem silent_of_zero_base (hb : b.Obtainable) (hzero : b.baseDelay = .zero) (attempt : UInt32) :
    b.capped attempt = (if (b.power attempt).isFinite then .zero else b.maxDelay.rounded) ∧
      (b.capped attempt = .zero ↔ (b.power attempt).isFinite = true ∨ b.maxDelay = .zero) ∧
      (b.capped attempt = .zero → ∀ draw, b.delay attempt draw = .zero) ∧
      (b.multiplier.le (.ofNat 2) = true → attempt.toNat ≤ 1024 →
        (b.power attempt).isFinite = true) := by
  have hrange := hb.inRange
  have hcapped : b.capped attempt
      = if (b.power attempt).isFinite then .zero else b.maxDelay.rounded := by
    split
    · next hfinite => exact hrange.capped_of_isFinite hzero hfinite
    · next hinfinite =>
      exact hrange.capped_of_not_isFinite hzero (Bool.eq_false_iff.2 hinfinite)
  refine ⟨hcapped, ?_, delay_of_capped_eq_zero, hrange.isFinite_power⟩
  rw [hcapped]
  split
  · next hfinite => simp [hfinite]
  · next hinfinite =>
    rw [rounded_eq_zero_iff]
    simp [hinfinite]

/-- The default multiplier leaves the third attempt without a delay, whatever the jitter. -/
theorem silent_of_zero_base_uniform :
    let b := (Backoff.default (.uniform 7)).changed (.baseDelay .zero)
    b.Obtainable ∧ b.baseDelay = .zero ∧ b.capped 3 = .zero ∧ b.delay 3 0 = .zero := by
  intro b
  have hb : b.Obtainable := .changed (.default _) _
  obtain ⟨-, hiff, hdelay, hfinite⟩ := silent_of_zero_base hb rfl 3
  have hcapped : b.capped 3 = .zero := hiff.2 (Or.inl (hfinite (by decide +kernel) (by decide)))
  exact ⟨hb, rfl, hcapped, hdelay hcapped 0⟩

/-- Doubling overflows at attempt 1025, and a base delay of zero makes a delay of ten seconds. -/
theorem zero_base_delays_overflow :
    let b := (Backoff.default .still).changed (.baseDelay .zero)
    b.Obtainable ∧ b.baseDelay = .zero ∧ b.capped 1024 = .zero ∧
      b.capped 1025 = .ofMilliseconds 10000 ∧ b.delay 1025 0 = .ofMilliseconds 10000 := by
  intro b
  have hdelays : b.capped 1024 = .zero ∧ b.capped 1025 = .ofMilliseconds 10000 ∧
      b.delay 1025 0 = .ofMilliseconds 10000 := by decide +kernel
  exact ⟨.changed (.default _) _, rfl, hdelays⟩

end Retry.Backoff

end EventSourcing
