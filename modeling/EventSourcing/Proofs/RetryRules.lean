import EventSourcing.Dispatch
import EventSourcing.Proofs.NumberOrder

/-!
# Policies and the rules in force

Two decisions are written apart, that of a policy and that of a command with rules of its own. Both
are the decision of one set of rules: whether the error is worth another attempt, and whether the
budget has one left.

* `Backoff.Obtainable` are the backoffs that can be made at all, and the numbers of each are in range.
* `Dispatcher.rulesFor` are the rules in force for an operation, and `Dispatcher.decide_eq` says that
  the dispatcher decides by them.
* `Policy.SparesPermanent` says that no permanent error is worth another attempt.
-/

namespace EventSourcing

namespace Retry

/-! ## The policies that there are -/

/-- A change of one field of a backoff. -/
inductive Change where
  | maxAttempts (n : UInt32)
  | baseDelay (d : Duration)
  | multiplier (x : Binary64)
  | maxDelay (d : Duration)
  | jitterFraction (x : Binary64)
  | retryable (kinds : List ErrorKind)
  | jitter (source : JitterSource)

namespace Backoff

/-- The backoff after a change. -/
def changed (b : Backoff) : Change → Backoff
  | .maxAttempts n => b.withMaxAttempts n
  | .baseDelay d => b.withBaseDelay d
  | .multiplier x => b.withMultiplier x
  | .maxDelay d => b.withMaxDelay d
  | .jitterFraction x => b.withJitterFraction x
  | .retryable kinds => b.withRetryable kinds
  | .jitter source => b.withJitter source

/-- The backoffs that there are: made from numbers or from settings, or the default one, and then
changed any number of times. -/
inductive Obtainable : Backoff → Prop
  | make {maxAttempts : UInt32} {baseDelay maxDelay : Duration}
      {multiplier jitterFraction : Binary64} {jitter : JitterSource} {b : Backoff}
      (h : make maxAttempts baseDelay multiplier maxDelay jitterFraction jitter = .ok b) :
      Obtainable b
  | build {s : Settings} {jitter : JitterSource} {b : Backoff} (h : s.build jitter = .ok b) :
      Obtainable b
  | default (jitter : JitterSource) : Obtainable (.default jitter)
  | changed {b : Backoff} (h : Obtainable b) (change : Change) : Obtainable (b.changed change)

/-! ### Numbers in range -/

/-- Numbers in range: at least one attempt, a multiplier that lets no delay shrink, and a fraction. -/
structure InRange (b : Backoff) : Prop where
  maxAttempts : b.maxAttempts ≠ 0
  multiplier : isMultiplier b.multiplier = true
  jitterFraction : isFraction b.jitterFraction = true

theorem inRange_of_make {maxAttempts : UInt32} {baseDelay maxDelay : Duration}
    {multiplier jitterFraction : Binary64} {jitter : JitterSource} {b : Backoff}
    (h : make maxAttempts baseDelay multiplier maxDelay jitterFraction jitter = .ok b) :
    b.InRange := by
  unfold make at h
  split at h
  · cases h
  · next hattempts =>
    split at h
    · cases h
    · next hmultiplier =>
      split at h
      · cases h
      · next hfraction =>
        cases h
        exact ⟨hattempts, by simpa using hmultiplier, by simpa using hfraction⟩

theorem isMultiplier_one : isMultiplier .one = true := by decide +kernel

theorem isMultiplier_max {x : Binary64} (h : x.isFinite = true) :
    isMultiplier (x.max .one) = true := by
  obtain ⟨hone, honeFinite⟩ := Bool.and_eq_true_iff.1 isMultiplier_one
  have hx : x ≠ .nan := by
    rintro rfl
    cases h
  have hfinite : (x.max .one).isFinite = true := by
    rcases Binary64.max_cases x .one with heq | heq <;> rw [heq]
    · exact h
    · exact honeFinite
  rw [isMultiplier, Binary64.le_max_right hx (Binary64.ne_nan_of_le hone).1, hfinite,
    Bool.and_self]

theorem isFraction_zero : isFraction .zero = true := by decide +kernel

theorem isFraction_clamp {x : Binary64} (h : x ≠ .nan) :
    isFraction (x.clamp .zero .one) = true := by
  obtain ⟨hlow, hhigh⟩ := Binary64.clamp_between h (Bool.and_eq_true_iff.1 isFraction_zero).2
  rw [isFraction, hlow, hhigh, Bool.and_self]

/-- A change to a number out of range moves it into the range. -/
theorem InRange.changed {b : Backoff} (h : b.InRange) (change : Change) :
    (b.changed change).InRange := by
  cases change with
  | maxAttempts n =>
    refine { h with maxAttempts := ?_ }
    show (if n = 0 then 1 else n) ≠ 0
    split
    · decide
    · assumption
  | multiplier x =>
    refine { h with multiplier := ?_ }
    show isMultiplier (if x.isFinite then x.max .one else .one) = true
    split
    · next hfinite => exact isMultiplier_max hfinite
    · exact isMultiplier_one
  | jitterFraction x =>
    refine { h with jitterFraction := ?_ }
    show isFraction (if x.isNaN then .zero else x.clamp .zero .one) = true
    split
    · exact isFraction_zero
    · next hnan =>
      refine isFraction_clamp ?_
      rintro rfl
      exact hnan rfl
  | _ => exact { h with }

theorem inRange_default (jitter : JitterSource) : (Backoff.default jitter).InRange := by
  have hattempts : Settings.default.maxAttempts ≠ 0 := by decide
  have hparts : isMultiplier Settings.default.multiplier = true ∧
      isFraction Settings.default.jitterFraction = true := by decide +kernel
  constructor
  · exact hattempts
  · simp only [Backoff.default, hparts.1]
  · simp only [Backoff.default, hparts.2]

/-- The numbers of every backoff are in range. -/
theorem Obtainable.inRange {b : Backoff} (h : b.Obtainable) : b.InRange := by
  induction h with
  | make h => exact inRange_of_make h
  | @build s jitter b h =>
    unfold Settings.build at h
    cases hmake : Backoff.make s.maxAttempts s.baseDelay s.multiplier s.maxDelay s.jitterFraction
        jitter with
    | error e =>
      rw [hmake] at h
      cases h
    | ok made =>
      rw [hmake] at h
      cases h
      exact { inRange_of_make hmake with }
  | default jitter => exact inRange_default jitter
  | changed _ change ih => exact ih.changed change

end Backoff

namespace Policy

/-- The policies that there are. -/
def Obtainable : Policy → Prop
  | backoff b => b.Obtainable
  | never => True

theorem Obtainable.one_le_maxAttempts {p : Policy} (h : p.Obtainable) :
    1 ≤ p.maxAttempts.toNat := by
  cases p with
  | backoff b =>
    have hne : b.maxAttempts.toNat ≠ 0 := fun heq =>
      h.inRange.maxAttempts (UInt32.toNat_inj.1 heq)
    exact Nat.one_le_iff_ne_zero.2 hne
  | never => decide

end Policy

/-! ## Budgets -/

/-- The next attempt is counted without bound, although the numbers have one. -/
theorem hasAttemptsLeft_iff {budget attempt : UInt32} :
    hasAttemptsLeft budget attempt = true ↔ attempt.toNat + 1 < budget.toNat := by
  refine ⟨lt_of_hasAttemptsLeft, fun h => ?_⟩
  have hbudget : budget.toNat < 4294967296 := budget.toNat_lt
  have hne : attempt ≠ 0xffffffff := by
    rintro rfl
    simp only [UInt32.reduceToNat] at h
    omega
  rw [hasAttemptsLeft, saturatingNext, if_neg hne, decide_eq_true_eq, UInt32.lt_iff_toNat_lt,
    UInt32.toNat_add]
  simp only [UInt32.reduceToNat]
  omega

end Retry

/-! ## Roots of the kinds -/

namespace ErrorKind

/-- All kinds of a lineage lie below the same root. -/
theorem isA_of_mem_lineage {k a root : ErrorKind} (hroot : root.parent = none)
    (h : a ∈ k.lineage) : a.isA root = k.isA root := by
  fun_induction lineage k with
  | case1 k hparent =>
    rw [List.mem_singleton.1 h]
  | case2 k p hparent ih =>
    rcases List.mem_cons.1 h with rfl | hmem
    · rfl
    · -- a kind with a parent is no root, so the root stands above the parent too
      have hne : (root == k) = false := by
        rw [beq_eq_false_iff_ne]
        rintro rfl
        rw [hroot] at hparent
        cases hparent
      have hstep : k.isA root = p.isA root := by
        rw [isA, isA, lineage.eq_def k]
        split
        · next hnone => rw [hparent] at hnone; cases hnone
        · next q hsome =>
          rw [hparent] at hsome
          cases hsome
          rw [List.contains_cons, hne, Bool.false_or]
      rw [ih hmem, hstep]

end ErrorKind

/-- A set without kinds below a root covers none of them. -/
theorem KindSet.not_isA_of_covers {s : KindSet} {k root : ErrorKind} (hroot : root.parent = none)
    (hs : ∀ a, s.contains a = true → a.isA root = false) (h : s.covers k = true) :
    k.isA root = false := by
  obtain ⟨a, hmem, hcontains⟩ := List.any_eq_true.1 h
  rw [← ErrorKind.isA_of_mem_lineage hroot hmem]
  exact hs a hcontains

/-- No permanent error is registered as worth another attempt. -/
def Retry.Policy.SparesPermanent : Retry.Policy → Prop
  | .backoff b => ∀ k, b.retryable.contains k = true → k.isA .permanent = false
  | .never => True

theorem Retry.Policy.SparesPermanent.not_isA {p : Retry.Policy} (h : p.SparesPermanent)
    {k : ErrorKind} (hretry : p.isRetryable k = true) : k.isA .permanent = false := by
  cases p with
  | backoff b => exact KindSet.not_isA_of_covers rfl h hretry
  | never => cases hretry

/-! ## The rules in force -/

namespace RetryRules

variable {rules : RetryRules} {kind : ErrorKind} {attempt : UInt32} {draw : Nat}

theorem decide_of_not_shouldRetry (h : rules.shouldRetry kind = false) :
    rules.decide kind attempt draw = .giveUp .nonRetryable := by
  simp [decide, h]

theorem decide_of_exhausted (h : rules.shouldRetry kind = true)
    (hbudget : rules.maxAttempts.toNat ≤ attempt.toNat + 1) :
    rules.decide kind attempt draw = .giveUp .exhausted := by
  have hleft : Retry.hasAttemptsLeft rules.maxAttempts attempt = false := by
    rw [Bool.eq_false_iff, ne_eq, Retry.hasAttemptsLeft_iff]
    omega
  simp [decide, h, hleft]

theorem decide_of_left (h : rules.shouldRetry kind = true)
    (hbudget : attempt.toNat + 1 < rules.maxAttempts.toNat) :
    rules.decide kind attempt draw
      = .retry (attempt + 1) (rules.policy.delay (attempt + 1) draw) := by
  simp [decide, h, Retry.hasAttemptsLeft_iff.2 hbudget]

end RetryRules

/-- A policy decides as a command that has it for its own, and adds nothing to it. -/
theorem Retry.Policy.decide_eq (p : Retry.Policy) (kind : ErrorKind) (attempt : UInt32)
    (draw : Nat) : p.decide kind attempt draw
      = ({ policy := p } : RetryRules).decide kind attempt draw := by
  cases p with
  | never => rfl
  | backoff b =>
    -- the policy asks for the kind once more together with the budget
    have hkind : ({ policy := .backoff b } : RetryRules).shouldRetry kind
        = b.retryable.covers kind := rfl
    cases hcovers : b.retryable.covers kind with
    | false => simp [decide, isRetryable, RetryRules.decide, hkind, hcovers]
    | true =>
      simp [decide, isRetryable, shouldRetry, RetryRules.decide, RetryRules.maxAttempts,
        maxAttempts, hkind, hcovers]

namespace Dispatcher

/-- The rules in force for an operation: its own, or those of the default policy. -/
def rulesFor (d : Dispatcher) (op : Operation) : RetryRules :=
  op.own.getD { policy := d.policy }

theorem rulesFor_policy (d : Dispatcher) (op : Operation) :
    (d.rulesFor op).policy = d.policyFor op := by
  unfold rulesFor policyFor
  cases op.own <;> rfl

/-- The dispatcher decides by the rules in force. -/
theorem decide_eq (d : Dispatcher) (op : Operation) (kind : ErrorKind) (attempt : UInt32)
    (draw : Nat) : d.decide op kind attempt draw = (d.rulesFor op).decide kind attempt draw := by
  unfold decide rulesFor
  cases op.own with
  | some rules => rfl
  | none => exact Retry.Policy.decide_eq _ _ _ _

end Dispatcher

end EventSourcing
