import EventSourcing.Proofs.RetryRules
import Mathlib.Data.Nat.Find
import Mathlib.Order.Bounds.Basic

/-!
# The course of a run

The dispatcher is generic in what performs the attempts. To say what a run does, it is written as a
`Course`: what it asks for, one thing after another, and how it goes on with the outcome of each
attempt. The course is the dispatcher itself, run on requests.

* `Dispatcher.dispatchFrom_eq_perform`: in any surroundings a run performs its course.
* `Course.follow` answers the attempts of a course with given outcomes and keeps what was done.
* `Dispatcher.dispatch_follows` is a whole run: it stops at the first outcome that ends it.
-/

namespace EventSourcing

/-- A run is done, or it asks for something: an attempt, a pause, or a count. -/
inductive Course (ε α β : Type) where
  | done (result : β)
  | attempt (number : UInt32) (next : Except ε α → Course ε α β)
  | pause (length : Duration) (next : Course ε α β)
  | measure (what : Measurement) (next : Course ε α β)

namespace Course

variable {ε α β γ : Type}

/-- One course, and then another that depends on its result. -/
def bind (c : Course ε α β) (f : β → Course ε α γ) : Course ε α γ :=
  match c with
  | done b => f b
  | attempt number next => attempt number fun outcome => (next outcome).bind f
  | pause length next => pause length (next.bind f)
  | measure what next => measure what (next.bind f)

instance : Monad (Course ε α) where
  pure := done
  bind := bind

/-- Asks for an attempt. -/
def ask (number : UInt32) : Course ε α (Except ε α) := attempt number done

/-- Pauses and counts are asked for too. -/
def around : Surroundings (Course ε α) where
  pause length := pause length (done ())
  measure what := measure what (done ())

/-- Does what a course asks for. -/
def perform {m : Type → Type} [Monad m] (around : Surroundings m)
    (action : UInt32 → m (Except ε α)) : Course ε α β → m β
  | done b => return b
  | attempt number next => do (next (← action number)).perform around action
  | pause length next => do
    around.pause length
    next.perform around action
  | measure what next => do
    around.measure what
    next.perform around action

/-- Something that a run does. -/
inductive Act where
  | attempt (number : UInt32)
  | pause (length : Duration)
deriving DecidableEq

/-- What a run has done and counted, and its result. -/
structure Followed (β : Type) where
  acts : List Act
  measured : List Measurement
  result : β

/-- Follows a course whose attempts have the given outcomes, one after another. -/
def follow : Course ε α β → (Nat → Except ε α) → Followed β
  | done b, _ => ⟨[], [], b⟩
  | attempt number next, outcomes =>
    let rest := (next (outcomes 0)).follow fun n => outcomes (n + 1)
    { rest with acts := .attempt number :: rest.acts }
  | pause length next, outcomes =>
    let rest := next.follow outcomes
    { rest with acts := .pause length :: rest.acts }
  | measure what next, outcomes =>
    let rest := next.follow outcomes
    { rest with measured := what :: rest.measured }

end Course

namespace Dispatcher

section Noted

variable {ε α β : Type}

/-- A course that starts with a count, if the dispatcher counts. -/
def noted (d : Dispatcher) (what : Measurement) (c : Course ε α β) : Course ε α β :=
  if d.metered then .measure what c else c

theorem bind_measure (d : Dispatcher) (what : Measurement) (f : Unit → Course ε α β) :
    (d.measure Course.around what >>= f) = d.noted what (f ()) := by
  unfold measure noted
  split <;> rfl

theorem perform_noted {m : Type → Type} [Monad m] [LawfulMonad m] (d : Dispatcher)
    (what : Measurement) (c : Course ε α β) (around : Surroundings m)
    (action : UInt32 → m (Except ε α)) :
    (d.noted what c).perform around action = (do
      d.measure around what
      c.perform around action) := by
  unfold measure noted
  split
  · rfl
  · rw [pure_bind]

/-- What is counted, if the dispatcher counts. -/
def counted (d : Dispatcher) (what : List Measurement) : List Measurement :=
  if d.metered then what else []

theorem counted_append (d : Dispatcher) (xs ys : List Measurement) :
    d.counted (xs ++ ys) = d.counted xs ++ d.counted ys := by
  unfold counted
  split <;> rfl

theorem follow_noted (d : Dispatcher) (what : Measurement) (c : Course ε α β)
    (outcomes : Nat → Except ε α) :
    (d.noted what c).follow outcomes =
      { c.follow outcomes with measured := d.counted [what] ++ (c.follow outcomes).measured } := by
  unfold noted counted
  split <;> rfl

end Noted

variable {ε α : Type} [Classified ε]

/-- The course of a run from an attempt on. -/
def courseFrom (d : Dispatcher) (op : Operation) (attempt : UInt32) (draw : Nat) :
    Course ε α (Completion ε α × Nat) :=
  d.dispatchFrom Course.around op Course.ask attempt draw

/-- The course of a whole run. -/
def course (d : Dispatcher) (op : Operation) (draw : Nat) : Course ε α (Completion ε α × Nat) :=
  d.dispatch Course.around op Course.ask draw

/-- What is left of a run after the outcome of an attempt. -/
def after (d : Dispatcher) (op : Operation) (attempt : UInt32) (draw : Nat) :
    Except ε α → Course ε α (Completion ε α × Nat)
  | .ok value => d.noted (.success op.name) (.done (.success value (attempt + 1), draw))
  | .error error =>
    match d.decide op (Classified.kind error) attempt draw with
    | .retry next delay =>
      .pause delay (d.courseFrom op next (draw + (d.policyFor op).draws next))
    | .giveUp reason =>
      d.noted (.failure op.name reason.text)
        (.done (.ofGiveUp error (attempt + 1) reason, draw))

/-- A run asks for an attempt, and goes on with its outcome. -/
theorem courseFrom_eq (d : Dispatcher) (op : Operation) (attempt : UInt32) (draw : Nat) :
    (d.courseFrom op attempt draw : Course ε α _)
      = d.noted (.attempt op.name attempt) (.attempt attempt (d.after op attempt draw)) := by
  unfold courseFrom
  rw [dispatchFrom, bind_measure]
  refine congrArg (d.noted _) (congrArg (Course.attempt attempt) (funext fun outcome => ?_))
  cases outcome with
  | ok value => exact bind_measure ..
  | error error =>
    unfold after
    show Course.bind (Course.done _) _ = _
    simp only [Course.bind]
    split
    · next next delay hdecide =>
      rw [hdecide]
      rfl
    · next reason hdecide =>
      rw [hdecide]
      exact bind_measure ..

/-- In any surroundings a run performs its course. -/
theorem dispatchFrom_eq_perform {m : Type → Type} [Monad m] [LawfulMonad m]
    (d : Dispatcher) (op : Operation) (around : Surroundings m)
    (action : UInt32 → m (Except ε α)) (attempt : UInt32) (draw : Nat) :
    d.dispatchFrom around op action attempt draw
      = (d.courseFrom op attempt draw).perform around action := by
  fun_induction d.dispatchFrom around op action attempt draw with
  | case1 attempt draw ih =>
    rw [courseFrom_eq, perform_noted]
    refine bind_congr fun _ => bind_congr fun outcome => ?_
    cases outcome with
    | ok value =>
      show _ = Course.perform around action (d.after op attempt draw (.ok value))
      rw [after, perform_noted]
      rfl
    | error error =>
      show _ = Course.perform around action (d.after op attempt draw (.error error))
      rw [after]
      dsimp only
      split
      · next next delay hdecide =>
        rw [hdecide]
        exact bind_congr fun _ => ih error next delay hdecide
      · next reason hdecide =>
        rw [hdecide]
        rw [perform_noted]
        rfl

end Dispatcher

/-! ## Where a run ends -/

/-- A run ends with the outcome of an attempt: a success, an error that is not worth another attempt,
or the last attempt of the budget. Attempts are counted from zero. -/
def RetryRules.Ends {ε α : Type} [Classified ε] (rules : RetryRules) (outcome : Except ε α)
    (attempt : Nat) : Prop :=
  match outcome with
  | .ok _ => True
  | .error error =>
    rules.shouldRetry (Classified.kind error) = false ∨ rules.maxAttempts.toNat ≤ attempt + 1

/-- The completion of a run that ends with an outcome. An error that is not worth another attempt is
permanent, also if the budget is spent. -/
def RetryRules.completion {ε α : Type} [Classified ε] (rules : RetryRules)
    (outcome : Except ε α) (attempts : UInt32) : Completion ε α :=
  match outcome with
  | .ok value => .success value attempts
  | .error error =>
    if rules.shouldRetry (Classified.kind error) then .failed error attempts
    else .permanentFailure error attempts

theorem RetryRules.attempts_completion {ε α : Type} [Classified ε] (rules : RetryRules)
    (outcome : Except ε α) (attempts : UInt32) :
    (rules.completion outcome attempts).attempts = attempts := by
  cases outcome with
  | ok value => rfl
  | error error =>
    rw [completion]
    split <;> rfl

/-- What is counted when a run ends. -/
def Operation.ending {ε α : Type} (op : Operation) : Completion ε α → Measurement
  | .success .. => .success op.name
  | .failed .. => .failure op.name Retry.GiveUp.exhausted.text
  | .permanentFailure .. => .failure op.name Retry.GiveUp.nonRetryable.text

namespace Dispatcher

variable {ε α : Type} [Classified ε] {d : Dispatcher} {op : Operation} {attempt : UInt32}
  {draw : Nat} {outcome : Except ε α}

theorem after_of_ends (h : (d.rulesFor op).Ends outcome attempt.toNat) :
    d.after op attempt draw outcome =
      d.noted (op.ending ((d.rulesFor op).completion outcome (attempt + 1)))
        (.done ((d.rulesFor op).completion outcome (attempt + 1), draw)) := by
  cases outcome with
  | ok value => rfl
  | error error =>
    rw [after, decide_eq, RetryRules.completion]
    cases hretry : (d.rulesFor op).shouldRetry (Classified.kind error) with
    | false =>
      rw [RetryRules.decide_of_not_shouldRetry hretry]
      rfl
    | true =>
      have hbudget : (d.rulesFor op).maxAttempts.toNat ≤ attempt.toNat + 1 :=
        h.resolve_left (by rw [hretry]; exact Bool.true_eq_false.mp)
      rw [RetryRules.decide_of_exhausted hretry hbudget]
      rfl

/-- After the outcome that ends a run there is its result. -/
theorem follow_after_of_ends (h : (d.rulesFor op).Ends outcome attempt.toNat) (draw : Nat)
    (outcomes : Nat → Except ε α) :
    (d.after op attempt draw outcome).follow outcomes =
      { acts := []
        measured := d.counted [op.ending ((d.rulesFor op).completion outcome (attempt + 1))]
        result := ((d.rulesFor op).completion outcome (attempt + 1), draw) } := by
  rw [after_of_ends h, follow_noted]
  simp only [Course.follow, List.append_nil]

theorem after_of_not_ends (h : ¬ (d.rulesFor op).Ends outcome attempt.toNat) (draw : Nat) :
    ∃ error, outcome = .error error ∧ (d.rulesFor op).shouldRetry (Classified.kind error) = true ∧
      d.after op attempt draw outcome =
        .pause ((d.rulesFor op).policy.delay (attempt + 1) draw)
          (d.courseFrom op (attempt + 1)
            (draw + (d.rulesFor op).policy.draws (attempt + 1))) := by
  cases outcome with
  | ok value => exact absurd trivial h
  | error error =>
    obtain ⟨hretry, hbudget⟩ := not_or.1 h
    rw [Bool.not_eq_false] at hretry
    refine ⟨error, rfl, hretry, ?_⟩
    rw [after, decide_eq, RetryRules.decide_of_left hretry (Nat.not_le.1 hbudget), rulesFor_policy]

end Dispatcher

/-! ## Following a run -/

namespace Retry.Policy

/-- How many draws of jitter have been made when an attempt starts, each pause taking its own. -/
def drawn (p : Policy) (draw : Nat) : Nat → Nat
  | 0 => draw
  | n + 1 => p.drawn draw n + p.draws (.ofNat (n + 1))

/-- An attempt that is followed by another one, and the pause between them. -/
def round (p : Policy) (draw n : Nat) : List Course.Act :=
  [.attempt (.ofNat n), .pause (p.delay (.ofNat (n + 1)) (p.drawn draw n))]

end Retry.Policy

namespace Dispatcher

variable {ε α : Type} [Classified ε]

/-- A run that ends with a certain attempt: rounds up to there, and then the last attempt. -/
theorem follow_courseFrom (d : Dispatcher) (op : Operation) (outcomes : Nat → Except ε α)
    (draw : Nat) {n r : Nat} (hsize : n + r < UInt32.size)
    (hgoes : ∀ i, n ≤ i → i < n + r → ¬ (d.rulesFor op).Ends (outcomes i) i)
    (hends : (d.rulesFor op).Ends (outcomes (n + r)) (n + r)) :
    (d.courseFrom op (.ofNat n) ((d.policyFor op).drawn draw n)).follow (fun i => outcomes (n + i))
      = { acts := (List.range' n r).flatMap ((d.policyFor op).round draw)
            ++ [.attempt (.ofNat (n + r))]
          measured := d.counted ((List.range' n (r + 1)).map fun i => .attempt op.name (.ofNat i))
            ++ d.counted [op.ending
              ((d.rulesFor op).completion (outcomes (n + r)) (.ofNat (n + r + 1)))]
          result := ((d.rulesFor op).completion (outcomes (n + r)) (.ofNat (n + r + 1)),
            (d.policyFor op).drawn draw (n + r)) } := by
  have hnumber : (UInt32.ofNat n).toNat = n := UInt32.toNat_ofNat_of_lt' (by omega)
  have hnext : UInt32.ofNat n + 1 = .ofNat (n + 1) := (UInt32.ofNat_add n 1).symm
  induction r generalizing n with
  | zero =>
    have hlast : (d.rulesFor op).Ends (outcomes n) (UInt32.ofNat n).toNat := by
      rw [hnumber]
      exact hends
    rw [courseFrom_eq, follow_noted]
    simp only [Course.follow, Nat.add_zero]
    rw [after_of_ends hlast, follow_noted, hnext]
    simp [Course.follow]
  | succ r ih =>
    have hfirst : ¬ (d.rulesFor op).Ends (outcomes n) (UInt32.ofNat n).toNat := by
      rw [hnumber]
      exact hgoes n le_rfl (by omega)
    obtain ⟨error, herror, -, hafter⟩ := after_of_not_ends hfirst
      ((d.policyFor op).drawn draw n)
    rw [courseFrom_eq, follow_noted]
    simp only [Course.follow, Nat.add_zero]
    rw [hafter, hnext, rulesFor_policy]
    -- the rest of the run starts with the next attempt
    have hrest := ih (n := n + 1) (by omega) (fun i hle hlt => hgoes i (by omega) (by omega))
      (by rw [Nat.add_assoc, Nat.add_comm 1 r]; exact hends)
      (UInt32.toNat_ofNat_of_lt' (by omega)) (UInt32.ofNat_add (n + 1) 1).symm
    have hshift : (fun i => outcomes (n + 1 + i)) = fun i => outcomes (n + (i + 1)) :=
      funext fun i => by rw [Nat.add_assoc, Nat.add_comm 1 i]
    rw [hshift, Retry.Policy.drawn] at hrest
    have hacts : (List.range' n (r + 1)).flatMap ((d.policyFor op).round draw)
        = .attempt (.ofNat n)
          :: .pause ((d.policyFor op).delay (.ofNat (n + 1)) ((d.policyFor op).drawn draw n))
          :: (List.range' (n + 1) r).flatMap ((d.policyFor op).round draw) := by
      rw [List.range'_succ]
      rfl
    have hmeasured : d.counted ((List.range' n (r + 1 + 1)).map fun i =>
          .attempt op.name (.ofNat i))
        = d.counted [.attempt op.name (.ofNat n)]
          ++ d.counted ((List.range' (n + 1) (r + 1)).map fun i =>
              .attempt op.name (.ofNat i)) := by
      rw [List.range'_succ, ← counted_append]
      rfl
    have hsum : n + 1 + r = n + (r + 1) := by omega
    simp only [Course.follow, hrest, hacts, hmeasured, hsum, List.cons_append, List.append_assoc]

/-- A run comes to an end: with an attempt at the latest that is the last of the budget. -/
theorem exists_isLeast_ends (d : Dispatcher) (op : Operation) (outcomes : Nat → Except ε α)
    (hpolicy : (d.policyFor op).Obtainable) :
    ∃ k, IsLeast {n | (d.rulesFor op).Ends (outcomes n) n} k ∧
      k + 1 ≤ (d.rulesFor op).maxAttempts.toNat := by
  classical
  have hbudget : 1 ≤ (d.rulesFor op).maxAttempts.toNat := by
    rw [RetryRules.maxAttempts, rulesFor_policy]
    exact hpolicy.one_le_maxAttempts
  -- the last attempt of the budget ends the run, whatever its outcome
  have hends : (d.rulesFor op).Ends (outcomes ((d.rulesFor op).maxAttempts.toNat - 1))
      ((d.rulesFor op).maxAttempts.toNat - 1) := by
    unfold RetryRules.Ends
    split
    · trivial
    · exact Or.inr (by omega)
  have hexists : ∃ n, (d.rulesFor op).Ends (outcomes n) n := ⟨_, hends⟩
  refine ⟨Nat.find hexists, ⟨Nat.find_spec hexists, fun n hn => Nat.find_min' hexists hn⟩, ?_⟩
  have hle := Nat.find_min' hexists hends
  omega

/-- A run of the dispatcher, whatever the operation, its rules and the outcomes of its attempts. In
any surroundings it does what its course says. Let `k` be the first attempt whose outcome ends the
run: then the attempts are those from `0` to `k`, between two of them it pauses for the delay of the
policy in force, with draws of jitter for these delays only, and the outcome of attempt `k` decides
the completion. The attempts stay within the budget, and no number wraps. -/
theorem dispatch_follows (d : Dispatcher) (op : Operation)
    (hpolicy : (d.policyFor op).Obtainable) (outcomes : Nat → Except ε α) (draw : Nat) :
    (∀ (m : Type → Type) [Monad m] [LawfulMonad m] (around : Surroundings m)
      (action : UInt32 → m (Except ε α)),
      d.dispatch around op action draw = (d.course op draw).perform around action) ∧
    ∃ k, IsLeast {n | (d.rulesFor op).Ends (outcomes n) n} k ∧
      k + 1 ≤ (d.policyFor op).maxAttempts.toNat ∧
      ((d.course op draw).follow outcomes).acts =
        ((List.range k).flatMap fun i => [.attempt (.ofNat i),
          .pause ((d.policyFor op).delay (.ofNat (i + 1)) ((d.policyFor op).drawn draw i))])
          ++ [.attempt (.ofNat k)] ∧
      ((d.course op draw).follow outcomes).measured =
        d.counted ((List.range (k + 1)).map fun i => .attempt op.name (.ofNat i))
          ++ d.counted [op.ending ((d.course op draw).follow outcomes).result.1] ∧
      ((d.course op draw).follow outcomes).result =
        ((d.rulesFor op).completion (outcomes k) (.ofNat (k + 1)),
          (d.policyFor op).drawn draw k) ∧
      ((d.course op draw).follow outcomes).result.1.attempts.toNat = k + 1 := by
  refine ⟨fun m _ _ around action => dispatchFrom_eq_perform d op around action 0 draw, ?_⟩
  obtain ⟨k, hleast, hbudget⟩ := exists_isLeast_ends d op outcomes hpolicy
  rw [RetryRules.maxAttempts, rulesFor_policy] at hbudget
  have hsize : (d.policyFor op).maxAttempts.toNat < UInt32.size := UInt32.toNat_lt_size _
  have hends : (d.rulesFor op).Ends (outcomes (0 + k)) (0 + k) := by
    rw [Nat.zero_add]
    exact hleast.1
  -- no attempt before the least one that ends the run can end it
  have hgoes : ∀ i, 0 ≤ i → i < 0 + k → ¬ (d.rulesFor op).Ends (outcomes i) i := by
    intro i _ hlt hi
    have hle := hleast.2 hi
    omega
  have hfollow := follow_courseFrom d op outcomes draw (n := 0) (r := k) (by omega) hgoes hends
  simp only [Nat.zero_add, ← List.range_eq_range'] at hfollow
  have hcourse : (d.course op draw : Course ε α _)
      = d.courseFrom op (.ofNat 0) ((d.policyFor op).drawn draw 0) := rfl
  rw [hcourse, hfollow]
  refine ⟨k, hleast, hbudget, rfl, rfl, rfl, ?_⟩
  rw [RetryRules.attempts_completion]
  exact UInt32.toNat_ofNat_of_lt' (by omega)

/-- An operation that loses its connection twice, under the default policy: it is attempted three times
with a pause before the second and the third attempt, and succeeds. -/
theorem dispatch_follows_flaky :
    let d : Dispatcher := ⟨.backoff (.default .still), false⟩
    let op : Operation := ⟨"Reindex", none⟩
    let outcomes : Nat → Except ErrorKind Nat := fun n =>
      if n < 2 then .error .connection else .ok 7
    (d.policyFor op).Obtainable ∧
      ((d.course op 0).follow outcomes).acts =
        [.attempt 0, .pause ((d.policyFor op).delay 1 0), .attempt 1,
          .pause ((d.policyFor op).delay 2 ((d.policyFor op).drawn 0 1)), .attempt 2] ∧
      ((d.course op 0).follow outcomes).result.1 = .success 7 3 := by
  intro d op outcomes
  have hpolicy : (d.policyFor op).Obtainable := Retry.Backoff.Obtainable.default _
  obtain ⟨-, k, hleast, -, hacts, -, hresult, -⟩ := dispatch_follows d op hpolicy outcomes 0
  have hconnection : (d.rulesFor op).shouldRetry .connection = true := by
    show ErrorKind.connection.lineage.any _ = true
    simp [ErrorKind.lineage, ErrorKind.parent, Retry.Backoff.default, Retry.Settings.default,
      KindSet.ofList]
  have hk : k = 2 := by
    refine Nat.le_antisymm (hleast.2 trivial) (Nat.not_lt.1 fun hlt => ?_)
    have hends : (d.rulesFor op).Ends (outcomes k) k := hleast.1
    rw [show outcomes k = .error .connection from if_pos hlt] at hends
    rcases hends with hno | hspent
    · exact absurd (hconnection.symm.trans hno) (by decide)
    · have hthree : 3 ≤ k + 1 := hspent
      omega
  subst hk
  exact ⟨hpolicy, hacts, congrArg Prod.fst hresult⟩

end Dispatcher

end EventSourcing
