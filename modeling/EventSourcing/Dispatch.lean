import EventSourcing.Metrics
import EventSourcing.Retry.Settings

/-!
# Dispatching commands

A dispatcher performs a command, and again after failures for as long as the rules in force allow:
the command's own rules if it has any, otherwise the default policy.

* `Dispatcher.decide` is what follows one failure;
* `Dispatcher.dispatch` is the whole run, in any monad that can perform attempts, pause and count.
-/

namespace EventSourcing

/-- The rules by which a command wants to be retried. -/
structure RetryRules where
  policy : Retry.Policy
  /-- Whether an error of a kind is worth another attempt under a policy. -/
  allows : Retry.Policy → ErrorKind → Bool := Retry.Policy.isRetryable

namespace RetryRules

/-- Whether an error of a kind is worth another attempt under the command's own policy. -/
def shouldRetry (rules : RetryRules) (kind : ErrorKind) : Bool :=
  rules.allows rules.policy kind

def maxAttempts (rules : RetryRules) : UInt32 := rules.policy.maxAttempts

/-- What follows an attempt that failed with an error of a kind. -/
def decide (rules : RetryRules) (kind : ErrorKind) (attempt : UInt32) (draw : Nat) :
    Retry.Decision :=
  if !rules.shouldRetry kind then .giveUp .nonRetryable
  else if !Retry.hasAttemptsLeft rules.maxAttempts attempt then .giveUp .exhausted
  else .retry (attempt + 1) (rules.policy.delay (attempt + 1) draw)

theorem next_of_decide {rules : RetryRules} {kind : ErrorKind} {attempt next : UInt32}
    {draw : Nat} {delay : Duration} (h : rules.decide kind attempt draw = .retry next delay) :
    next.toNat = attempt.toNat + 1 := by
  unfold decide at h
  split at h
  · simp at h
  · split at h
    · simp at h
    · next hleft =>
      obtain ⟨rfl, -⟩ := Retry.Decision.retry.inj h
      simp only [Bool.not_eq_true', Bool.not_eq_false] at hleft
      exact Retry.toNat_next_of_hasAttemptsLeft hleft

end RetryRules

/-- A command as the dispatcher sees it: its name, and its own rules if it has any. -/
structure Operation where
  name : String
  own : Option RetryRules

/-- How a run ended, after how many attempts. -/
inductive Completion (ε α : Type) where
  | success (value : α) (attempts : UInt32)
  /-- The attempts are used up. -/
  | failed (error : ε) (attempts : UInt32)
  /-- The last error is not worth another attempt. -/
  | permanentFailure (error : ε) (attempts : UInt32)

namespace Completion

variable {ε α : Type}

def attempts : Completion ε α → UInt32
  | success _ n | failed _ n | permanentFailure _ n => n

def isSuccess : Completion ε α → Bool
  | success .. => true
  | _ => false

def toExcept : Completion ε α → Except ε α
  | success value _ => .ok value
  | failed error _ | permanentFailure error _ => .error error

/-- The completion that giving up for a reason leads to. -/
def ofGiveUp (error : ε) (attempts : UInt32) : Retry.GiveUp → Completion ε α
  | .nonRetryable => permanentFailure error attempts
  | .exhausted => failed error attempts

end Completion

/-- What a run needs of its surroundings. -/
structure Surroundings (m : Type → Type) where
  pause : Duration → m Unit
  measure : Measurement → m Unit

structure Dispatcher where
  /-- The policy for commands without rules of their own. -/
  policy : Retry.Policy
  /-- Whether attempts and results are counted. -/
  metered : Bool

namespace Dispatcher

/-- The policy that gives the delays for an operation. -/
def policyFor (d : Dispatcher) (op : Operation) : Retry.Policy :=
  match op.own with
  | some rules => rules.policy
  | none => d.policy

/-- What follows an attempt at an operation that failed with an error of a kind. -/
def decide (d : Dispatcher) (op : Operation) (kind : ErrorKind) (attempt : UInt32) (draw : Nat) :
    Retry.Decision :=
  match op.own with
  | some rules => rules.decide kind attempt draw
  | none => d.policy.decide kind attempt draw

/-- Another attempt has the next number, which stays below `2 ^ 32`. -/
theorem next_of_decide {d : Dispatcher} {op : Operation} {kind : ErrorKind}
    {attempt next : UInt32} {draw : Nat} {delay : Duration}
    (h : d.decide op kind attempt draw = .retry next delay) :
    next.toNat = attempt.toNat + 1 := by
  unfold decide at h
  split at h
  · exact RetryRules.next_of_decide h
  · exact Retry.Policy.next_of_decide h

variable {m : Type → Type} [Monad m] {ε α : Type} [Classified ε]

/-- Counts something, if the dispatcher counts. -/
def measure (d : Dispatcher) (around : Surroundings m) (what : Measurement) : m Unit :=
  if d.metered then around.measure what else return ()

/-- The run from an attempt on. `draw` counts the draws of jitter made so far; their number at the
end stands beside the completion. -/
def dispatchFrom (d : Dispatcher) (around : Surroundings m) (op : Operation)
    (action : UInt32 → m (Except ε α)) (attempt : UInt32) (draw : Nat) :
    m (Completion ε α × Nat) := do
  d.measure around (.attempt op.name attempt)
  match ← action attempt with
  | .ok value =>
    d.measure around (.success op.name)
    return (.success value (attempt + 1), draw)
  | .error error =>
    match _h : d.decide op (Classified.kind error) attempt draw with
    | .retry next delay =>
      around.pause delay
      dispatchFrom d around op action next (draw + (d.policyFor op).draws next)
    | .giveUp reason =>
      d.measure around (.failure op.name reason.text)
      return (.ofGiveUp error (attempt + 1) reason, draw)
termination_by UInt32.size - attempt.toNat
decreasing_by
  have := next_of_decide _h
  have := next.toNat_lt_size
  omega

/-- Performs an operation until it succeeds or is given up. -/
def dispatch (d : Dispatcher) (around : Surroundings m) (op : Operation)
    (action : UInt32 → m (Except ε α)) (draw : Nat) : m (Completion ε α × Nat) :=
  d.dispatchFrom around op action 0 draw

def diagnostic (d : Dispatcher) : String :=
  Text.record "CommandDispatcher"
    [("default_policy", d.policy.diagnostic), ("metrics", Text.flag d.metered)] true

end Dispatcher

end EventSourcing
