import EventSourcing.Proofs.Course

/-!
# A policy of one's own and the default one

A command that brings its policy along is decided by one procedure, a command without rules of its
own by another one, that of the default policy. The two ask different questions in a different
order, and come to the same.

* `RetryRules.decide_eq_retry_iff` and its neighbours say when rules make each decision, with
  attempts counted without bound. `Retry.Policy.exists_decide_eq_retry_iff` and its neighbours say
  it of the policy, by the question that only the default one is asked.
* `Course.unmeasured` is a course without its counts. By `Dispatcher.unmeasured_courseFrom_congr` it
  hangs on the rules in force alone, not on where they come from.
* `Retry.Policy.decisions_agree` compares the two procedures, for single decisions and whole runs.
-/

namespace EventSourcing

/-! ## Decisions -/

namespace RetryRules

variable {rules : RetryRules} {kind : ErrorKind} {attempt : UInt32} {draw : Nat}

/-- A decision is one of three, by the kind of the error first and then by the budget. -/
theorem decide_cases (rules : RetryRules) (kind : ErrorKind) (attempt : UInt32) (draw : Nat) :
    (rules.shouldRetry kind = false ∧
        rules.decide kind attempt draw = .giveUp .nonRetryable) ∨
      (rules.shouldRetry kind = true ∧ rules.maxAttempts.toNat ≤ attempt.toNat + 1 ∧
        rules.decide kind attempt draw = .giveUp .exhausted) ∨
      (rules.shouldRetry kind = true ∧ attempt.toNat + 1 < rules.maxAttempts.toNat ∧
        rules.decide kind attempt draw
          = .retry (attempt + 1) (rules.policy.delay (attempt + 1) draw)) := by
  cases hretry : rules.shouldRetry kind with
  | false => exact Or.inl ⟨rfl, decide_of_not_shouldRetry hretry⟩
  | true =>
    rcases Nat.lt_or_ge (attempt.toNat + 1) rules.maxAttempts.toNat with hleft | hspent
    · exact Or.inr (Or.inr ⟨rfl, hleft, decide_of_left hretry hleft⟩)
    · exact Or.inr (Or.inl ⟨rfl, hspent, decide_of_exhausted hretry hspent⟩)

theorem decide_eq_nonRetryable_iff :
    rules.decide kind attempt draw = .giveUp .nonRetryable ↔ rules.shouldRetry kind = false := by
  rcases rules.decide_cases kind attempt draw with
    ⟨hretry, hdecide⟩ | ⟨hretry, -, hdecide⟩ | ⟨hretry, -, hdecide⟩ <;>
    simp [hretry, hdecide]

theorem decide_eq_exhausted_iff :
    rules.decide kind attempt draw = .giveUp .exhausted ↔
      rules.shouldRetry kind = true ∧ rules.maxAttempts.toNat ≤ attempt.toNat + 1 := by
  rcases rules.decide_cases kind attempt draw with
    ⟨hretry, hdecide⟩ | ⟨hretry, hspent, hdecide⟩ | ⟨hretry, hleft, hdecide⟩
  · simp [hretry, hdecide]
  · simp [hretry, hdecide, hspent]
  · simp [hretry, hdecide, hleft]

/-- Another attempt is decided on as long as the budget has one left, and it has the next number. -/
theorem decide_eq_retry_iff {next : UInt32} {delay : Duration} :
    rules.decide kind attempt draw = .retry next delay ↔
      rules.shouldRetry kind = true ∧ attempt.toNat + 1 < rules.maxAttempts.toNat ∧
        next = attempt + 1 ∧ delay = rules.policy.delay next draw := by
  rcases rules.decide_cases kind attempt draw with
    ⟨hretry, hdecide⟩ | ⟨hretry, hspent, hdecide⟩ | ⟨hretry, hleft, hdecide⟩
  · simp [hretry, hdecide]
  · simp [hretry, hdecide, Nat.not_lt.2 hspent]
  · rw [hdecide, Retry.Decision.retry.injEq]
    constructor
    · rintro ⟨rfl, rfl⟩
      exact ⟨hretry, hleft, rfl, rfl⟩
    · rintro ⟨-, -, rfl, rfl⟩
      exact ⟨rfl, rfl⟩

end RetryRules

namespace Retry.Policy

variable {p : Policy} {kind : ErrorKind} {attempt : UInt32} {draw : Nat}

/-- What the default policy is asked besides the kind of the error: whether both are in order, the
kind and the budget. -/
theorem shouldRetry_iff :
    p.shouldRetry kind attempt = true ↔
      p.isRetryable kind = true ∧ attempt.toNat + 1 < p.maxAttempts.toNat := by
  cases p with
  | never => simp [shouldRetry, isRetryable]
  | backoff b =>
    rw [shouldRetry, Bool.and_eq_true, hasAttemptsLeft_iff, and_comm]
    rfl

/-- Another attempt is made exactly if that question is answered with yes. -/
theorem exists_decide_eq_retry_iff :
    (∃ next delay, p.decide kind attempt draw = .retry next delay) ↔
      p.shouldRetry kind attempt = true := by
  rw [p.decide_eq kind attempt draw, shouldRetry_iff]
  constructor
  · rintro ⟨next, delay, h⟩
    obtain ⟨hretry, hleft, -, -⟩ := RetryRules.decide_eq_retry_iff.1 h
    exact ⟨hretry, hleft⟩
  · rintro ⟨hretry, hleft⟩
    exact ⟨_, _, RetryRules.decide_of_left hretry hleft⟩

/-- The number of the next attempt is one more and does not wrap, and the pause is the policy's
own. -/
theorem next_of_decide_eq_retry {next : UInt32} {delay : Duration}
    (h : p.decide kind attempt draw = .retry next delay) :
    next.toNat = attempt.toNat + 1 ∧ delay = p.delay next draw := by
  have hrules := (p.decide_eq kind attempt draw).symm.trans h
  obtain ⟨-, -, -, hdelay⟩ := RetryRules.decide_eq_retry_iff.1 hrules
  exact ⟨next_of_decide h, hdelay⟩

theorem decide_eq_nonRetryable_iff :
    p.decide kind attempt draw = .giveUp .nonRetryable ↔ p.isRetryable kind = false := by
  rw [p.decide_eq kind attempt draw, RetryRules.decide_eq_nonRetryable_iff]
  rfl

theorem decide_eq_exhausted_iff :
    p.decide kind attempt draw = .giveUp .exhausted ↔
      p.isRetryable kind = true ∧ p.shouldRetry kind attempt = false := by
  rw [p.decide_eq kind attempt draw, RetryRules.decide_eq_exhausted_iff, ← Bool.not_eq_true,
    shouldRetry_iff]
  constructor
  · rintro ⟨hretry, hspent⟩
    exact ⟨hretry, fun hleft => Nat.not_lt.2 hspent hleft.2⟩
  · rintro ⟨hretry, hspent⟩
    exact ⟨hretry, Nat.not_lt.1 fun hleft => hspent ⟨hretry, hleft⟩⟩

end Retry.Policy

/-! ## Runs without their counts -/

namespace Course

variable {ε α β : Type}

/-- The course without what it counts. -/
def unmeasured : Course ε α β → Course ε α β
  | done b => done b
  | attempt number next => attempt number fun outcome => (next outcome).unmeasured
  | pause length next => pause length next.unmeasured
  | measure _ next => next.unmeasured

/-- Counting changes neither what is done nor the result. -/
theorem follow_unmeasured (c : Course ε α β) (outcomes : Nat → Except ε α) :
    c.unmeasured.follow outcomes = { c.follow outcomes with measured := [] } := by
  induction c generalizing outcomes with
  | done b => rfl
  | attempt number next ih => simp only [unmeasured, follow, ih]
  | pause length next ih => simp only [unmeasured, follow, ih]
  | measure what next ih => simp only [unmeasured, follow, ih]

/-- In surroundings that count nothing, a course is performed as if it did not count. -/
theorem perform_unmeasured {m : Type → Type} [Monad m] [LawfulMonad m] (c : Course ε α β)
    (wait : Duration → m Unit) (action : UInt32 → m (Except ε α)) :
    c.perform ⟨wait, fun _ => return ()⟩ action
      = c.unmeasured.perform ⟨wait, fun _ => return ()⟩ action := by
  induction c with
  | done b => rfl
  | attempt number next ih => exact bind_congr ih
  | pause length next ih => exact bind_congr fun _ => ih
  | measure what next ih =>
    rw [perform, pure_bind]
    exact ih

end Course

namespace Dispatcher

variable {ε α : Type} {d d' : Dispatcher} {op op' : Operation}

theorem unmeasured_noted {β : Type} (d : Dispatcher) (what : Measurement) (c : Course ε α β) :
    (d.noted what c).unmeasured = c.unmeasured := by
  unfold noted
  split <;> rfl

variable [Classified ε]

/-- Two runs under the same rules differ in what they count at most. Neither the name of the
operation nor where its rules come from makes another difference. -/
theorem unmeasured_courseFrom_congr (hrules : d.rulesFor op = d'.rulesFor op') (attempt : UInt32)
    (draw : Nat) :
    (d.courseFrom op attempt draw : Course ε α _).unmeasured
      = (d'.courseFrom op' attempt draw).unmeasured := by
  have hpolicy : d.policyFor op = d'.policyFor op' := by
    rw [← rulesFor_policy, ← rulesFor_policy, hrules]
  fun_induction d.dispatchFrom (Course.around (ε := ε) (α := α)) op Course.ask attempt draw with
  | case1 attempt draw ih =>
    rw [courseFrom_eq, courseFrom_eq, unmeasured_noted, unmeasured_noted]
    refine congrArg (Course.attempt attempt) (funext fun outcome => ?_)
    cases outcome with
    | ok value => rw [after, after, unmeasured_noted, unmeasured_noted]
    | error error =>
      have hdecide : d'.decide op' (Classified.kind error) attempt draw
          = d.decide op (Classified.kind error) attempt draw := by
        rw [decide_eq, decide_eq, hrules]
      rw [after, after, hdecide]
      split
      · next next delay hretry =>
        rw [← hpolicy]
        exact congrArg (Course.pause delay) (ih error next delay hretry)
      · rw [unmeasured_noted, unmeasured_noted]

/-- What an operation with a policy of its own does, given the outcomes of its attempts, one without
rules does under that policy as the default one. -/
theorem follow_own_policy (p : Retry.Policy) (d : Dispatcher) (own plain : String) (metered : Bool)
    (draw : Nat) (outcomes : Nat → Except ε α) :
    ((d.course ⟨own, some { policy := p }⟩ draw).follow outcomes).acts
        = (((⟨p, metered⟩ : Dispatcher).course ⟨plain, none⟩ draw).follow outcomes).acts ∧
      ((d.course ⟨own, some { policy := p }⟩ draw).follow outcomes).result
        = (((⟨p, metered⟩ : Dispatcher).course ⟨plain, none⟩ draw).follow outcomes).result := by
  have hrules : d.rulesFor ⟨own, some { policy := p }⟩
      = (⟨p, metered⟩ : Dispatcher).rulesFor ⟨plain, none⟩ := rfl
  have hcourse := unmeasured_courseFrom_congr (ε := ε) (α := α) hrules 0 draw
  have hfollow := congrArg (Course.follow · outcomes) hcourse
  simp only [Course.follow_unmeasured, Course.Followed.mk.injEq, true_and] at hfollow
  exact hfollow

/-- The same of the runs themselves, in surroundings that count nothing. Here an outcome may hang on
all that was done before. -/
theorem dispatch_own_policy {m : Type → Type} [Monad m] [LawfulMonad m] (p : Retry.Policy)
    (d : Dispatcher) (own plain : String) (metered : Bool) (draw : Nat)
    (wait : Duration → m Unit) (action : UInt32 → m (Except ε α)) :
    d.dispatch ⟨wait, fun _ => return ()⟩ ⟨own, some { policy := p }⟩ action draw
      = (⟨p, metered⟩ : Dispatcher).dispatch ⟨wait, fun _ => return ()⟩ ⟨plain, none⟩ action
          draw := by
  have hrules : d.rulesFor ⟨own, some { policy := p }⟩
      = (⟨p, metered⟩ : Dispatcher).rulesFor ⟨plain, none⟩ := rfl
  have hcourse := unmeasured_courseFrom_congr (ε := ε) (α := α) hrules 0 draw
  rw [dispatch, dispatch, dispatchFrom_eq_perform, dispatchFrom_eq_perform,
    Course.perform_unmeasured (d.courseFrom _ 0 draw), hcourse, ← Course.perform_unmeasured]

end Dispatcher

/-- The two procedures agree, for every policy.

* After every failed attempt they decide alike: another attempt exactly if the policy's own question
  is answered with yes, which is if the error is retryable and the next attempt is in the budget;
  giving up as not retryable whatever the attempt; and otherwise giving up as exhausted. The next
  number is one more, and does not wrap.
* So a command that brings the policy along does the same under every dispatcher, in attempts,
  pauses and completion, as a command without rules where the policy is the default. -/
theorem Retry.Policy.decisions_agree (p : Retry.Policy) :
    (∀ {ε : Type} [Classified ε] (error : ε) (attempt : UInt32) (draw : Nat),
      let kind := Classified.kind error
      let decision := p.decide kind attempt draw
      decision = ({ policy := p } : RetryRules).decide kind attempt draw ∧
      ((∃ next delay, decision = .retry next delay) ↔ p.shouldRetry kind attempt = true) ∧
      (p.shouldRetry kind attempt = true ↔
        p.isRetryable kind = true ∧ attempt.toNat + 1 < p.maxAttempts.toNat) ∧
      (∀ next delay, decision = .retry next delay →
        next.toNat = attempt.toNat + 1 ∧ delay = p.delay next draw) ∧
      (decision = .giveUp .nonRetryable ↔ p.isRetryable kind = false) ∧
      (decision = .giveUp .exhausted ↔
        p.isRetryable kind = true ∧ p.shouldRetry kind attempt = false)) ∧
    ∀ {ε α : Type} [Classified ε] (d : Dispatcher) (own plain : String) (metered : Bool)
        (draw : Nat),
      (∀ outcomes : Nat → Except ε α,
        let brought := (d.course ⟨own, some { policy := p }⟩ draw).follow outcomes
        let default := ((⟨p, metered⟩ : Dispatcher).course ⟨plain, none⟩ draw).follow outcomes
        brought.acts = default.acts ∧ brought.result = default.result) ∧
      ∀ (m : Type → Type) [Monad m] [LawfulMonad m] (wait : Duration → m Unit)
          (action : UInt32 → m (Except ε α)),
        d.dispatch ⟨wait, fun _ => return ()⟩ ⟨own, some { policy := p }⟩ action draw
          = (⟨p, metered⟩ : Dispatcher).dispatch ⟨wait, fun _ => return ()⟩ ⟨plain, none⟩ action
              draw := by
  refine ⟨fun error attempt draw => ?_, fun d own plain metered draw => ⟨?_, ?_⟩⟩
  · exact ⟨p.decide_eq _ attempt draw, exists_decide_eq_retry_iff, shouldRetry_iff,
      fun next delay h => next_of_decide_eq_retry h, decide_eq_nonRetryable_iff,
      decide_eq_exhausted_iff⟩
  · exact Dispatcher.follow_own_policy p d own plain metered draw
  · intro m _ _ wait action
    exact Dispatcher.dispatch_own_policy p d own plain metered draw wait action

end EventSourcing
