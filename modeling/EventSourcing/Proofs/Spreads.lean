import EventSourcing.Proofs.Delays
import EventSourcing.Proofs.Variables

/-!
# Spreads

A draw of jitter is taken from the range between minus a spread and the spread. A range that is too
wide to be finite has no draw, and nothing in a source of jitter keeps such a spread out. What does is
the backoff: its spread is a part of a delay, and no delay is longer than `2 ^ 64` seconds.

* `Backoff.delayAsking` is the delay with a source that is asked in steps, one that notes what it is
  asked for or one that may fail; `Backoff.run_delayAsking` says that it is the delay, and that the
  source is asked for the spread alone.
* `Backoff.InRange.admissible` is the bound of a spread, and `Admissible.isFinite_reach` that of its
  range.
* `Backoff.draws_admissible` sums up.
-/

namespace EventSourcing

namespace Duration

theorem isZero_iff (d : Duration) : d.isZero = true ↔ d = .zero := by
  unfold isZero
  rw [decide_eq_true_eq]
  exact ⟨fun h => ext h, fun h => h ▸ rfl⟩

/-- The seconds of a length of time are at most `2 ^ 64`. -/
theorem secondUnits_le_two_pow (d : Duration) : d.secondUnits ≤ 2 ^ 64 * Binary64.unitsPerOne :=
  (secondUnits_le d.seconds_lt.le).trans (by decide +kernel)

end Duration

namespace Retry

open Binary64 Duration

/-! ## Ranges -/

/-- A spread between zero and `2 ^ 64` seconds. -/
def Admissible (spread : Binary64) : Prop := ∃ a, spread.value? = some a ∧ 0 ≤ a ∧ a ≤ 2 ^ 64

/-- A source that may fail, but only where the range of the spread is too wide. -/
def FailsOnlyOnOverflow (ask : Binary64 → Option Binary64) : Prop :=
  ∀ spread, ask spread = none →
    spread.isFinite = true ∧ (JitterSource.reach spread).isFinite = false

theorem failsOnlyOnOverflow_draw? (seed : UInt64) (draw : Nat) :
    FailsOnlyOnOverflow (JitterSource.draw? seed draw) := by
  intro spread h
  unfold JitterSource.draw? at h
  split at h
  · cases h
  · next hspread =>
    split at h
    · next hreach =>
      simp only [Bool.or_eq_true, Bool.not_eq_true', not_or, Bool.not_eq_false] at hspread hreach
      exact ⟨hspread.2, hreach⟩
    · cases h

/-- A magnitude of at most `2 ^ 64` seconds makes a range that is finite. -/
theorem isFinite_reach_of_le {s : Bool} {n : Nat} {hn : Exact n} (h : n ≤ 2 ^ 64 * unitsPerOne) :
    (JitterSource.reach (.finite s n hn)).isFinite = true := by
  have hlimit : Writable (2 ^ 66) := ⟨1, 66, by decide, by decide⟩
  have hsteps : JitterSource.steps + 1 ≤ 2 * JitterSource.steps := by decide
  have hnum : 2 * n * (JitterSource.steps + 1)
      ≤ 2 ^ 66 * unitsPerOne * JitterSource.steps := by
    calc 2 * n * (JitterSource.steps + 1)
        ≤ 2 * (2 ^ 64 * unitsPerOne) * (2 * JitterSource.steps) :=
          Nat.mul_le_mul (Nat.mul_le_mul_left 2 h) hsteps
      _ = 2 ^ 66 * unitsPerOne * JitterSource.steps := by ring
  have hlt : 2 ^ 66 * unitsPerOne < overflowBound :=
    (one_shiftLeft_add 66 1074).symm.trans_lt (shiftLeft_lt_shiftLeft (by decide))
  have hrounded := roundUnits_le_of_le (by decide) hlimit.mul_unitsPerOne hnum
  rw [JitterSource.reach, ofQuotient_of_lt (hrounded.trans_lt hlt)]
  rfl

theorem admissible_of_le {n : Nat} {hn : Exact n} (h : n ≤ 2 ^ 64 * unitsPerOne) :
    Admissible (.finite false n hn) := by
  refine ⟨_, value?_finite, by positivity, ?_⟩
  rw [div_le_iff₀ cast_unitsPerOne_pos]
  exact_mod_cast h

theorem Admissible.isFinite_reach {spread : Binary64} (h : Admissible spread) :
    (JitterSource.reach spread).isFinite = true := by
  obtain ⟨a, ha, hlow, hhigh⟩ := h
  cases spread with
  | nan => cases ha
  | infinite s => cases ha
  | finite s n hn =>
    refine isFinite_reach_of_le ?_
    obtain rfl := Option.some.inj ha
    rw [le_div_iff₀ cast_unitsPerOne_pos, zero_mul] at hlow
    rw [div_le_iff₀ cast_unitsPerOne_pos] at hhigh
    cases s with
    | false =>
      have hle : (n : ℚ) ≤ 2 ^ 64 * unitsPerOne := hhigh
      exact_mod_cast hle
    | true =>
      have hzero : n = 0 := by
        have hle : (n : ℚ) ≤ 0 := neg_nonneg.1 hlow
        exact_mod_cast le_antisymm hle n.cast_nonneg
      rw [hzero]
      exact Nat.zero_le _

namespace Backoff

variable {b : Backoff} {attempt : UInt32} {m : Type → Type} [Monad m]

/-! ## Asking a source -/

/-- The delay before an attempt, with a source that is asked for an offset where one is needed. -/
def delayAsking (b : Backoff) (attempt : UInt32) (ask : Binary64 → m Binary64) : m Duration :=
  let capped := b.capped attempt
  if capped.isZero || b.jitterFraction.same .zero then return capped
  else do
    let seconds := capped.toSeconds
    let offset ← ask (seconds.mul b.jitterFraction)
    return (Duration.ofSeconds? ((seconds.add offset).max .zero)).getD .max

theorem delayAsking_eq (b : Backoff) (attempt : UInt32) (ask : Binary64 → m Binary64) :
    b.delayAsking attempt ask = match b.spread? attempt with
      | none => return b.capped attempt
      | some spread => do
        let offset ← ask spread
        return (Duration.ofSeconds? (((b.capped attempt).toSeconds.add offset).max .zero)).getD
          .max := by
  simp only [delayAsking, spread?]
  split <;> rfl

/-- With notes the delay is the same, and the spread is all that is asked for. -/
theorem run_delayAsking (b : Backoff) (attempt : UInt32) (draw : Nat) (asked : List Binary64) :
    (b.delayAsking attempt (noting (b.jitter draw))).run asked
      = (b.delay attempt draw, asked ++ (b.spread? attempt).toList) := by
  rw [delayAsking_eq]
  unfold delay
  cases b.spread? attempt with
  | none => exact congrArg (Prod.mk _) (List.append_nil asked).symm
  | some spread => rfl

/-- A source that does not fail for the spread gives the delay with its offsets. -/
theorem delayAsking_of_answers {ask : Binary64 → Option Binary64} {jitter : JitterSource}
    {draw : Nat} (h : ∀ spread, b.spread? attempt = some spread →
      ask spread = some (jitter draw spread)) :
    b.delayAsking attempt ask = some ((b.withJitter jitter).delay attempt draw) := by
  have hspread : (b.withJitter jitter).spread? attempt = b.spread? attempt := rfl
  rw [delayAsking_eq]
  unfold delay
  rw [hspread]
  cases hasked : b.spread? attempt with
  | none => rfl
  | some spread =>
    show (ask spread).bind _ = _
    rw [h spread hasked]
    rfl

/-! ## The spread that is asked for -/

theorem silent_iff : ((b.capped attempt).isZero || b.jitterFraction.same .zero) = true ↔
    b.capped attempt = .zero ∨ b.jitterFraction.value? = some 0 := by
  rw [Bool.or_eq_true, isZero_iff, same_zero_iff]

theorem spread?_of_silent (h : b.capped attempt = .zero ∨ b.jitterFraction.value? = some 0) :
    b.spread? attempt = none :=
  if_pos (silent_iff.2 h)

theorem spread?_of_not_silent
    (h : ¬ (b.capped attempt = .zero ∨ b.jitterFraction.value? = some 0)) :
    b.spread? attempt = some ((b.capped attempt).toSeconds.mul b.jitterFraction) :=
  if_neg (mt silent_iff.1 h)

theorem spread?_eq_none_iff : b.spread? attempt = none ↔
    b.capped attempt = .zero ∨ b.jitterFraction.value? = some 0 := by
  refine ⟨fun h => ?_, spread?_of_silent⟩
  by_contra hnot
  exact absurd (h.symm.trans (spread?_of_not_silent hnot)) nofun

/-- The spread is a part of the delay without jitter, so it is no longer. -/
theorem InRange.admissible (h : b.InRange) {spread : Binary64}
    (hspread : b.spread? attempt = some spread) : Admissible spread := by
  have hasked : ¬ (b.capped attempt = .zero ∨ b.jitterFraction.value? = some 0) := fun hsilent =>
    absurd ((spread?_of_silent hsilent).symm.trans hspread) nofun
  obtain ⟨a, ha, hlow, hhigh⟩ := isFraction_iff.1 h.jitterFraction
  have hpos : 0 < a := lt_of_le_of_ne hlow fun hzero => hasked (Or.inr (hzero ▸ ha))
  obtain ⟨n, hn, hfraction, rfl⟩ := eq_finite_of_pos ha hpos
  have hone : n ≤ unitsPerOne := by
    rw [div_le_one cast_unitsPerOne_pos] at hhigh
    exact_mod_cast hhigh
  obtain ⟨k, hk, hmul, hle⟩ := mul_fraction (b.capped attempt).exact_secondUnits hn hone
  rw [spread?_of_not_silent hasked, toSeconds_eq, hfraction, hmul] at hspread
  rw [← Option.some.inj hspread]
  exact admissible_of_le (hle.trans (secondUnits_le_two_pow _))

/-- A source that fails only where a range is too wide does not fail for a backoff, and the delay is the
one with its offsets. -/
theorem InRange.delayAsking_eq_some (h : b.InRange) {ask : Nat → Binary64 → Option Binary64}
    {draw : Nat} (hask : FailsOnlyOnOverflow (ask draw)) :
    b.delayAsking attempt (ask draw)
      = some ((b.withJitter fun draw spread => (ask draw spread).getD .zero).delay attempt draw) := by
  refine delayAsking_of_answers fun spread hspread => ?_
  cases hoffset : ask draw spread with
  | some offset => rfl
  | none =>
    obtain ⟨-, hreach⟩ := hask spread hoffset
    exact absurd ((h.admissible hspread).isFinite_reach.symm.trans hreach) nofun

theorem changed_jitter_self (b : Backoff) : b.changed (.jitter b.jitter) = b := rfl

/-- What a backoff asks of its source of jitter can be answered.

* For a delay the source is asked once at most, and not at all exactly if the delay without jitter is
  zero or the fraction is zero.
* The spread that it is asked for is between zero and `2 ^ 64` seconds, and its range is finite.
* A source that fails only where a range is too wide does not fail, and the delay is the one with its
  offsets. The even source is one. -/
theorem draws_admissible (hb : b.Obtainable) (attempt : UInt32) :
    (∃ asked : List Binary64,
      (∀ draw, (b.delayAsking attempt (noting (b.jitter draw))).run []
        = (b.delay attempt draw, asked)) ∧
      asked.length ≤ 1 ∧
      (asked = [] ↔ b.capped attempt = .zero ∨ b.jitterFraction.value? = some 0) ∧
      ∀ spread ∈ asked, Admissible spread ∧ (JitterSource.reach spread).isFinite = true) ∧
    (∀ ask : Nat → Binary64 → Option Binary64, (∀ draw, FailsOnlyOnOverflow (ask draw)) →
      ∀ draw, b.delayAsking attempt (ask draw)
        = some ((b.changed (.jitter fun draw spread => (ask draw spread).getD .zero)).delay
          attempt draw)) ∧
    ∀ seed draw, b.delayAsking attempt (JitterSource.draw? seed draw)
      = some ((b.changed (.jitter (.uniform seed))).delay attempt draw) := by
  have hrange := hb.inRange
  refine ⟨⟨(b.spread? attempt).toList, fun draw => run_delayAsking b attempt draw [], ?_, ?_, ?_⟩,
    ?_, ?_⟩
  · cases b.spread? attempt with
    | none => exact Nat.zero_le 1
    | some spread => exact Nat.le_refl 1
  · rw [Option.toList_eq_nil_iff]
    exact spread?_eq_none_iff
  · intro spread hspread
    have hadmissible := hrange.admissible (Option.mem_toList.1 hspread)
    exact ⟨hadmissible, hadmissible.isFinite_reach⟩
  · intro ask hask draw
    exact hrange.delayAsking_eq_some (hask draw)
  · intro seed draw
    exact hrange.delayAsking_eq_some (failsOnlyOnOverflow_draw? seed draw)

/-- With the longest delay and all of it as jitter, the spread is `2 ^ 64` seconds. -/
theorem draws_admissible_longest :
    let b := (((Backoff.default (.uniform 7)).changed (.baseDelay .max)).changed
      (.maxDelay .max)).changed (.jitterFraction .one)
    b.Obtainable ∧ b.spread? 1 = some (.ofNat (2 ^ 64)) ∧
      (JitterSource.reach (.ofNat (2 ^ 64))).isFinite = true ∧
      b.delayAsking 1 (JitterSource.draw? 7 0) = some (b.delay 1 0) := by
  intro b
  have hb : b.Obtainable := .changed (.changed (.changed (.default _) _) _) _
  have hspread : b.spread? 1 = some (.ofNat (2 ^ 64)) := by decide +kernel
  obtain ⟨⟨asked, hrun, -, -, hadmissible⟩, -, hdraw⟩ := draws_admissible hb 1
  have hasked : asked = [.ofNat (2 ^ 64)] := by
    have hnotes := (hrun 0).symm.trans (run_delayAsking b 1 0 [])
    rw [hspread] at hnotes
    exact congrArg Prod.snd hnotes
  have hmem : Binary64.ofNat (2 ^ 64) ∈ asked := by
    rw [hasked]
    exact List.mem_singleton_self _
  obtain ⟨-, hreach⟩ := hadmissible (.ofNat (2 ^ 64)) hmem
  have hsource : b.changed (.jitter (.uniform 7)) = b := changed_jitter_self b
  have hdelay := hdraw 7 0
  rw [hsource] at hdelay
  exact ⟨hb, hspread, hreach, hdelay⟩

end Backoff

end Retry

end EventSourcing
