import EventSourcing.Duration
import EventSourcing.ErrorKind
import EventSourcing.Retry.Error
import EventSourcing.Retry.Jitter
import EventSourcing.Text.Quoted

/-!
# Exponential backoff

The delay before attempt number `n` is the base delay times the multiplier to the power `n - 1`,
never more than a cap, and then shifted by jitter. Times are binary64 seconds in between, so each
step rounds.

* `Backoff.make` refuses numbers out of range, the `with` operations move them into range;
* `Backoff.capped` is the delay without jitter;
* `Backoff.spread?` is what the jitter source is asked for, if it is asked at all.
-/

namespace EventSourcing

namespace Retry

structure Backoff where
  /-- How often a command is tried in all. -/
  maxAttempts : UInt32
  baseDelay : Duration
  multiplier : Binary64
  maxDelay : Duration
  /-- The spread of the jitter as a part of the delay. -/
  jitterFraction : Binary64
  /-- The kinds of error after which another attempt is made. -/
  retryable : KindSet
  jitter : JitterSource

namespace Backoff

/-- A multiplier that lets no delay shrink. -/
def isMultiplier (x : Binary64) : Bool := Binary64.one.le x && x.isFinite

def isFraction (x : Binary64) : Bool := Binary64.zero.le x && x.le .one

/-- The backoff with the given numbers, for transient errors. -/
def make (maxAttempts : UInt32) (baseDelay : Duration) (multiplier : Binary64)
    (maxDelay : Duration) (jitterFraction : Binary64) (jitter : JitterSource) :
    Except PolicyError Backoff :=
  if maxAttempts = 0 then .error .noAttempts
  else if !isMultiplier multiplier then .error (.multiplier multiplier)
  else if !isFraction jitterFraction then .error (.jitterFraction jitterFraction)
  else
    .ok ⟨maxAttempts, baseDelay, multiplier, maxDelay, jitterFraction,
      .ofList [.transient], jitter⟩

/-! ## Changes -/

/-- At least one attempt. -/
def withMaxAttempts (b : Backoff) (n : UInt32) : Backoff :=
  { b with maxAttempts := if n = 0 then 1 else n }

def withBaseDelay (b : Backoff) (d : Duration) : Backoff := { b with baseDelay := d }

/-- At least one; a multiplier that is not finite counts as one. -/
def withMultiplier (b : Backoff) (x : Binary64) : Backoff :=
  { b with multiplier := if x.isFinite then x.max .one else .one }

def withMaxDelay (b : Backoff) (d : Duration) : Backoff := { b with maxDelay := d }

/-- The nearest fraction from zero to one; what is not a number counts as zero. -/
def withJitterFraction (b : Backoff) (x : Binary64) : Backoff :=
  { b with jitterFraction := if x.isNaN then .zero else x.clamp .zero .one }

def withRetryable (b : Backoff) (kinds : List ErrorKind) : Backoff :=
  { b with retryable := .ofList kinds }

def withJitter (b : Backoff) (jitter : JitterSource) : Backoff := { b with jitter := jitter }

/-! ## Delays -/

/-- The exponent of the multiplier for an attempt after the first; it stops at `2 ^ 31 - 1`. -/
def exponent (attempt : UInt32) : Nat :=
  Nat.min (attempt.toNat - 1) 0x7fffffff

/-- The delay before an attempt, without jitter. Before the first attempt there is none. -/
def capped (b : Backoff) (attempt : UInt32) : Duration :=
  if attempt = 0 then .zero
  else
    let raw := b.baseDelay.toSeconds.mul (b.multiplier.pow (exponent attempt))
    (Duration.ofSeconds? (raw.min b.maxDelay.toSeconds)).getD b.maxDelay

/-- The spread that the jitter source is asked for before an attempt, if it is asked. -/
def spread? (b : Backoff) (attempt : UInt32) : Option Binary64 :=
  let capped := b.capped attempt
  if capped.isZero || b.jitterFraction.same .zero then none
  else some (capped.toSeconds.mul b.jitterFraction)

/-- The delay before an attempt, where `draw` counts the draws made so far. -/
def delay (b : Backoff) (attempt : UInt32) (draw : Nat) : Duration :=
  let capped := b.capped attempt
  match b.spread? attempt with
  | none => capped
  | some spread =>
    let jittered := capped.toSeconds.add (b.jitter draw spread)
    (Duration.ofSeconds? (jittered.max .zero)).getD .max

/-! ## Diagnostic text -/

def diagnostic (b : Backoff) : String :=
  Text.record "ExponentialBackoffPolicy" [
    ("max_attempts", toString b.maxAttempts.toNat),
    ("base_delay", b.baseDelay.diagnostic),
    ("multiplier", Binary64.diagnostic.text b.multiplier),
    ("max_delay", b.maxDelay.diagnostic),
    ("jitter_fraction", Binary64.diagnostic.text b.jitterFraction),
    ("retryable_errors", Text.setOf (b.retryable.toList.map ErrorKind.diagnostic))] false

end Backoff

end Retry

end EventSourcing
