import EventSourcing.Retry.Backoff

/-!
# Retry policies

A policy answers what happens after a failed attempt: another attempt after a delay, or giving up.
It gives up at once on an error that is not retryable, and otherwise when its attempts are used
up. Attempts are counted from zero.
-/

namespace EventSourcing

namespace Retry

inductive Policy where
  | backoff (b : Backoff)
  | never

/-- Why no further attempt is made. -/
inductive GiveUp where
  | nonRetryable
  | exhausted
deriving DecidableEq

def GiveUp.text : GiveUp → String
  | nonRetryable => "non_retryable"
  | exhausted => "exhausted"

/-- What follows a failed attempt. -/
inductive Decision where
  | retry (next : UInt32) (delay : Duration)
  | giveUp (reason : GiveUp)
deriving DecidableEq

/-- The next number, or the same where there is no next. -/
def saturatingNext (n : UInt32) : UInt32 :=
  if n = 0xffffffff then n else n + 1

/-- Whether a budget allows another attempt after the given one. -/
def hasAttemptsLeft (budget attempt : UInt32) : Bool :=
  saturatingNext attempt < budget

/-- With an attempt left, the attempt number can grow. -/
theorem lt_of_hasAttemptsLeft {budget attempt : UInt32} (h : hasAttemptsLeft budget attempt) :
    attempt.toNat + 1 < budget.toNat := by
  have h : saturatingNext attempt < budget := of_decide_eq_true h
  have hb := budget.toNat_lt
  unfold saturatingNext at h
  split at h
  · next heq =>
    rw [UInt32.lt_iff_toNat_lt, heq] at h
    simp only [UInt32.reduceToNat] at h
    omega
  · next hne =>
    have ha := attempt.toNat_lt
    have hmax : attempt.toNat ≠ 4294967295 := fun heq =>
      hne (UInt32.toNat_inj.1 (by simpa using heq))
    rw [UInt32.lt_iff_toNat_lt, UInt32.toNat_add] at h
    simp only [UInt32.reduceToNat] at h
    omega

theorem toNat_next_of_hasAttemptsLeft {budget attempt : UInt32}
    (h : hasAttemptsLeft budget attempt) : (attempt + 1).toNat = attempt.toNat + 1 := by
  have := lt_of_hasAttemptsLeft h
  have := budget.toNat_lt
  rw [UInt32.toNat_add]
  simp only [UInt32.reduceToNat]
  omega

namespace Policy

def maxAttempts : Policy → UInt32
  | backoff b => b.maxAttempts
  | never => 1

def name : Policy → String
  | backoff _ => "exponential_backoff"
  | never => "no_retry"

/-- Whether errors of a kind are worth another attempt. -/
def isRetryable : Policy → ErrorKind → Bool
  | backoff b, kind => b.retryable.covers kind
  | never, _ => false

/-- Whether another attempt follows an attempt that failed with an error of a kind. -/
def shouldRetry : Policy → ErrorKind → UInt32 → Bool
  | backoff b, kind, attempt => hasAttemptsLeft b.maxAttempts attempt && b.retryable.covers kind
  | never, _, _ => false

/-- The delay before an attempt, where `draw` counts the draws of jitter made so far. -/
def delay : Policy → UInt32 → Nat → Duration
  | backoff b, attempt, draw => b.delay attempt draw
  | never, _, _ => .zero

/-- How many draws of jitter the delay before an attempt takes. -/
def draws : Policy → UInt32 → Nat
  | backoff b, attempt => if (b.spread? attempt).isSome then 1 else 0
  | never, _ => 0

/-- What follows an attempt that failed with an error of a kind. -/
def decide (p : Policy) (kind : ErrorKind) (attempt : UInt32) (draw : Nat) : Decision :=
  if !p.isRetryable kind then .giveUp .nonRetryable
  else if !p.shouldRetry kind attempt then .giveUp .exhausted
  else .retry (attempt + 1) (p.delay (attempt + 1) draw)

/-- Another attempt has the next number, which stays below `2 ^ 32`. -/
theorem next_of_decide {p : Policy} {kind : ErrorKind} {attempt next : UInt32} {draw : Nat}
    {delay : Duration} (h : p.decide kind attempt draw = .retry next delay) :
    next.toNat = attempt.toNat + 1 := by
  unfold decide at h
  split at h
  · simp at h
  · split at h
    · simp at h
    · next hretry =>
      obtain ⟨rfl, -⟩ := Decision.retry.inj h
      cases p with
      | never => simp [shouldRetry] at hretry
      | backoff b =>
        simp only [shouldRetry, Bool.not_eq_true', Bool.not_eq_false, Bool.and_eq_true] at hretry
        exact toNat_next_of_hasAttemptsLeft hretry.1

def diagnostic : Policy → String
  | backoff b => b.diagnostic
  | never => "NoRetryPolicy"

end Policy

end Retry

end EventSourcing
