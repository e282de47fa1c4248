import EventSourcing.Order.Command
import EventSourcing.Proofs.Agreement
import EventSourcing.Proofs.CountedRuns

/-!
# Commands that keep their own rules

Cancelling and shipping an order are retried by rules of their own, whatever the default policy of
the dispatcher is. The other commands have such rules too, but do not keep them: for them the default
policy decides.

* `Dispatcher.exists_follow` is a run in short: how often the operation is called, and the result.
  Both hang on which errors are worth another attempt and on the budget (`Dispatcher.follow_congr`).
* `Order.Command.shouldRetry_ship` says which errors these are for shipping.
* `Order.Command.commands_keep_rules` is about all commands under all dispatchers.
-/

namespace EventSourcing

namespace RetryRules

variable {ε α : Type} [Classified ε] {rules rules' : RetryRules}

/-- Rules that find the same errors worth another attempt, with the same budget. Their pauses may
differ. -/
structure Alike (rules rules' : RetryRules) : Prop where
  shouldRetry : rules.shouldRetry = rules'.shouldRetry
  maxAttempts : rules.maxAttempts = rules'.maxAttempts

theorem Alike.ends (h : rules.Alike rules') (outcome : Except ε α) (n : Nat) :
    rules.Ends outcome n ↔ rules'.Ends outcome n := by
  cases outcome with
  | ok value => exact Iff.rfl
  | error error => rw [Ends, Ends, h.shouldRetry, h.maxAttempts]

theorem Alike.completion (h : rules.Alike rules') (outcome : Except ε α) (attempts : UInt32) :
    rules.completion outcome attempts = rules'.completion outcome attempts := by
  cases outcome with
  | ok value => rfl
  | error error => rw [RetryRules.completion, RetryRules.completion, h.shouldRetry]

end RetryRules

namespace Dispatcher

variable {ε α : Type} [Classified ε] {d d' : Dispatcher} {op op' : Operation}

/-- A run calls the operation once for each attempt up to the first whose outcome ends it, and that
outcome makes its result. -/
theorem exists_follow (hpolicy : (d.policyFor op).Obtainable) (draw : Nat)
    (outcomes : Nat → Except ε α) :
    ∃ k, IsLeast {n | (d.rulesFor op).Ends (outcomes n) n} k ∧
      k + 1 ≤ (d.rulesFor op).maxAttempts.toNat ∧
      ((d.course op draw).follow outcomes).calls = Dispatch.numbers (k + 1) ∧
      ((d.course op draw).follow outcomes).result.1 =
        (d.rulesFor op).completion (outcomes k) (.ofNat (k + 1)) := by
  obtain ⟨k, hleast, hbudget⟩ := d.exists_isLeast_ends op outcomes hpolicy
  have hsize : (d.rulesFor op).maxAttempts.toNat < UInt32.size := UInt32.toNat_lt_size _
  have hgoes : ∀ i, 0 ≤ i → i < 0 + k → ¬ (d.rulesFor op).Ends (outcomes i) i := by
    intro i _ hlt hi
    have hle := hleast.2 hi
    omega
  have hfollow := d.follow_courseFrom op outcomes draw (n := 0) (r := k) (by omega) hgoes
    (by rw [Nat.zero_add]; exact hleast.1)
  simp only [Nat.zero_add, ← List.range_eq_range'] at hfollow
  have hcourse : (d.course op draw : Course ε α _)
      = d.courseFrom op (.ofNat 0) ((d.policyFor op).drawn draw 0) := rfl
  rw [hcourse, hfollow]
  refine ⟨k, hleast, hbudget, ?_, rfl⟩
  rw [Course.Followed.calls, List.filterMap_append, List.filterMap_flatMap, Dispatch.numbers_succ,
    Dispatch.numbers, List.map_eq_flatMap]
  rfl

/-- Under rules that are alike an operation is called equally often, with the same result. -/
theorem follow_congr (h : (d.rulesFor op).Alike (d'.rulesFor op'))
    (hpolicy : (d.policyFor op).Obtainable) (hpolicy' : (d'.policyFor op').Obtainable)
    (draw draw' : Nat) (outcomes : Nat → Except ε α) :
    ((d.course op draw).follow outcomes).calls = ((d'.course op' draw').follow outcomes).calls ∧
      ((d.course op draw).follow outcomes).result.1
        = ((d'.course op' draw').follow outcomes).result.1 := by
  obtain ⟨k, hleast, -, hcalls, hresult⟩ := exists_follow hpolicy draw outcomes
  obtain ⟨k', hleast', -, hcalls', hresult'⟩ := exists_follow hpolicy' draw' outcomes
  simp only [h.ends] at hleast
  obtain rfl := hleast.unique hleast'
  exact ⟨hcalls.trans hcalls'.symm, by rw [hresult, hresult', h.completion]⟩

end Dispatcher

namespace Order.Command

variable {jitter : Retry.JitterSource}

theorem obtainable_policy (jitter : Retry.JitterSource) (c : Command) :
    (c.policy jitter).Obtainable := by
  cases c with
  | cancel reason cancelledBy => trivial
  | _ =>
    have hdefault := Retry.Backoff.Obtainable.default jitter
    exact ((hdefault.changed (.maxAttempts 5)).changed
      (.baseDelay (.ofMilliseconds 50))).changed (.maxDelay (.ofMilliseconds 30000))

/-- A command that keeps its rules is retried by them under every dispatcher. -/
theorem rulesFor_operation (d : Dispatcher) {c : Command} (hc : c.isRetryable = true) :
    d.rulesFor (c.operation jitter) = c.rules jitter := by
  rw [Dispatcher.rulesFor, operation, if_pos hc]
  rfl

theorem policyFor_operation (d : Dispatcher) {c : Command} (hc : c.isRetryable = true) :
    d.policyFor (c.operation jitter) = c.policy jitter := by
  rw [← Dispatcher.rulesFor_policy, rulesFor_operation d hc]
  rfl

/-- Shipping is worth another attempt after transient errors, but not after a timeout. -/
theorem shouldRetry_ship (trackingNumber carrier : String) (kind : ErrorKind) :
    ((ship trackingNumber carrier).rules jitter).shouldRetry kind = true ↔
      kind ≠ .timeout ∧ kind.isA .transient = true := by
  have hcovers : ((ship trackingNumber carrier).policy jitter).isRetryable kind
      = kind.isA .transient := by
    show kind.lineage.any [ErrorKind.transient].contains = kind.lineage.contains .transient
    rw [List.contains_eq_any_beq]
    refine congrArg kind.lineage.any (funext fun above => ?_)
    rw [List.contains_cons, List.contains_nil, Bool.or_false]
    exact Bool.beq_comm
  show (_ && ((ship trackingNumber carrier).policy jitter).isRetryable kind) = true ↔ _
  rw [hcovers, Bool.and_eq_true, decide_eq_true_eq]

theorem rules_ship_alike (trackingNumber carrier : String) (jitter jitter' : Retry.JitterSource) :
    ((ship trackingNumber carrier).rules jitter).Alike
      ((ship trackingNumber carrier).rules jitter') where
  shouldRetry := rfl
  maxAttempts := rfl

section Runs

variable {ε α : Type} [Classified ε] (d : Dispatcher) (jitter : Retry.JitterSource) (draw : Nat)
  (outcomes : Nat → Except ε α)

/-- A cancellation is attempted once, without a pause, and its failure is permanent. -/
theorem follow_cancel (reason : Option String) (cancelledBy : Option Uuid) :
    let run := (d.course ((cancel reason cancelledBy).operation jitter) draw).follow outcomes
    run.acts = [.attempt 0] ∧
      run.result.1 = match outcomes 0 with
        | .ok value => .success value 1
        | .error error => .permanentFailure error 1 := by
  intro run
  have hrules : d.rulesFor ((cancel reason cancelledBy).operation jitter)
      = (cancel reason cancelledBy).rules jitter := rulesFor_operation d rfl
  have hends : (d.rulesFor ((cancel reason cancelledBy).operation jitter)).Ends (outcomes 0)
      (0 : UInt32).toNat := by
    rw [hrules]
    cases outcomes 0 with
    | ok value => trivial
    | error error => exact Or.inl rfl
  have hrun : run = (d.courseFrom ((cancel reason cancelledBy).operation jitter) 0 draw).follow
      outcomes := rfl
  rw [hrun, Dispatcher.courseFrom_eq, Dispatcher.follow_noted]
  simp only [Course.follow]
  rw [Dispatcher.follow_after_of_ends hends, hrules]
  refine ⟨rfl, ?_⟩
  cases outcomes 0 <;> rfl

/-- A shipment is attempted at most five times, and only transient errors other than a timeout are
followed by another attempt. -/
theorem follow_ship (trackingNumber carrier : String) :
    let run := (d.course ((ship trackingNumber carrier).operation jitter) draw).follow outcomes
    run.calls.length ≤ 5 ∧
      ∀ n, n + 1 < run.calls.length → ∃ error, outcomes n = .error error ∧
        Classified.kind error ≠ .timeout ∧ (Classified.kind error).isA .transient = true := by
  intro run
  have hrules : d.rulesFor ((ship trackingNumber carrier).operation jitter)
      = (ship trackingNumber carrier).rules jitter := rulesFor_operation d rfl
  have hpolicy : (d.policyFor ((ship trackingNumber carrier).operation jitter)).Obtainable := by
    rw [policyFor_operation d rfl]
    exact obtainable_policy jitter _
  obtain ⟨k, hleast, hbudget, hcalls, -⟩ := Dispatcher.exists_follow hpolicy draw outcomes
  rw [hrules] at hleast hbudget
  have hlength : run.calls.length = k + 1 := by
    rw [hcalls, Dispatch.numbers, List.length_map, List.length_range]
  rw [hlength]
  refine ⟨hbudget, fun n hn => ?_⟩
  have hgoes : ¬ ((ship trackingNumber carrier).rules jitter).Ends (outcomes n) n := fun hends => by
    have hle := hleast.2 hends
    omega
  cases houtcome : outcomes n with
  | ok value =>
    rw [houtcome] at hgoes
    exact absurd trivial hgoes
  | error error =>
    rw [houtcome] at hgoes
    have hretry := eq_true_of_ne_false (not_or.1 hgoes).1
    exact ⟨error, rfl, (shouldRetry_ship trackingNumber carrier _).1 hretry⟩

end Runs

/-- Commands under any dispatcher, with any outcomes of the attempts.

* Cancelling is attempted once. It succeeds, or fails for good.
* Shipping is attempted at most five times, and not again after a timeout or an error that is not
  transient. How often it is attempted and how that ends does not hang on the default policy, nor on
  any jitter; with the same jitter the pauses do not either.
* Any other command runs as a command without rules of its own, by the default policy. -/
theorem commands_keep_rules {ε α : Type} [Classified ε] (d : Dispatcher)
    (jitter : Retry.JitterSource) (draw : Nat) (outcomes : Nat → Except ε α) :
    (∀ reason cancelledBy,
      let run := (d.course ((cancel reason cancelledBy).operation jitter) draw).follow outcomes
      run.acts = [.attempt 0] ∧
        run.result.1 = match outcomes 0 with
          | .ok value => .success value 1
          | .error error => .permanentFailure error 1) ∧
    (∀ trackingNumber carrier,
      let op (jitter : Retry.JitterSource) := (ship trackingNumber carrier).operation jitter
      let run := (d.course (op jitter) draw).follow outcomes
      run.calls.length ≤ 5 ∧
      (∀ n, n + 1 < run.calls.length → ∃ error, outcomes n = .error error ∧
        Classified.kind error ≠ .timeout ∧ (Classified.kind error).isA .transient = true) ∧
      ∀ d' : Dispatcher,
        (d'.course (op jitter) draw : Course ε α _).unmeasured
          = (d.course (op jitter) draw).unmeasured ∧
        ∀ jitter' draw',
          let run' := (d'.course (op jitter') draw').follow outcomes
          run'.calls = run.calls ∧ run'.result.1 = run.result.1) ∧
    ∀ c : Command, (∀ trackingNumber carrier, c ≠ ship trackingNumber carrier) →
      (∀ reason cancelledBy, c ≠ cancel reason cancelledBy) →
      (d.course (c.operation jitter) draw : Course ε α _) = d.course ⟨c.name, none⟩ draw ∧
      (∀ plain, (d.course (c.operation jitter) draw : Course ε α _).unmeasured
        = (d.course ⟨plain, none⟩ draw).unmeasured) ∧
      ∀ kind attempt draw, d.decide (c.operation jitter) kind attempt draw
        = d.policy.decide kind attempt draw := by
  refine ⟨fun reason cancelledBy => follow_cancel d jitter draw outcomes reason cancelledBy,
    fun trackingNumber carrier => ?_, fun c hship hcancel => ?_⟩
  · intro op run
    obtain ⟨hlength, hgoes⟩ := follow_ship d jitter draw outcomes trackingNumber carrier
    have hrules (d : Dispatcher) (jitter : Retry.JitterSource) :
        d.rulesFor (op jitter) = (ship trackingNumber carrier).rules jitter :=
      rulesFor_operation d rfl
    have hpolicy (d : Dispatcher) (jitter : Retry.JitterSource) :
        (d.policyFor (op jitter)).Obtainable := by
      rw [policyFor_operation d rfl]
      exact obtainable_policy jitter _
    refine ⟨hlength, hgoes, fun d' => ⟨?_, fun jitter' draw' => ?_⟩⟩
    · exact Dispatcher.unmeasured_courseFrom_congr ((hrules d' jitter).trans (hrules d jitter).symm)
        0 draw
    · refine Dispatcher.follow_congr ?_ (hpolicy d' jitter') (hpolicy d jitter) draw' draw outcomes
      rw [hrules, hrules]
      exact rules_ship_alike trackingNumber carrier jitter' jitter
  · have hplain : c.operation jitter = ⟨c.name, none⟩ := by
      cases c with
      | ship trackingNumber carrier => exact absurd rfl (hship trackingNumber carrier)
      | cancel reason cancelledBy => exact absurd rfl (hcancel reason cancelledBy)
      | _ => rfl
    rw [hplain]
    refine ⟨rfl, fun plain => ?_, fun _ _ _ => rfl⟩
    have hrules : d.rulesFor ⟨c.name, none⟩ = d.rulesFor ⟨plain, none⟩ := rfl
    exact Dispatcher.unmeasured_courseFrom_congr hrules 0 draw

end Order.Command

end EventSourcing
