import EventSourcing.Proofs.Course
import EventSourcing.Proofs.Overtaking

/-!
# Retried calls of the order service

Any number of calls run under dispatchers, each of them as many attempts one after another as its
rules allow. What a call does between its accesses to the store is its course; what an attempt does
is the call that it makes of the service. So the attempts of all calls form a pool of their own, in
which an attempt makes no access before the one ahead of it has failed.

* `RetriedCall.handleWithRetry_eq_perform`: the service itself does what the course of a call says.
* `RetryPool.Tracked` is the invariant of a run: what a call can still be doing, and what came of its
  attempts.
* `RetryPool.retried_calls_append_once` is what holds after every schedule.
-/

namespace EventSourcing

namespace Order

/-- A call of the service under the rules of a dispatcher, with all that it takes from outside. Each
attempt has readings of its own. -/
structure RetriedCall where
  id : Id
  command : Command
  correlation : Uuid
  dispatcher : Dispatcher
  jitter : Retry.JitterSource
  draw : Nat
  readings : Nat → Readings

namespace RetriedCall

/-- What is left of a call: in the end its completion, and the draws of jitter made until then. -/
abbrev Rest := Course Failure Nat (Completion Failure Nat × Nat)

/-- What the dispatcher knows of the command. -/
def operation (c : RetriedCall) : Operation := c.command.operation c.jitter

/-- The rules in force. -/
def rules (c : RetriedCall) : RetryRules := c.dispatcher.rulesFor c.operation

/-- One of the attempts, counted from zero. -/
def attempt (c : RetriedCall) (n : Nat) : Call := ⟨c.id, c.command, c.correlation, c.readings n⟩

/-- What is left of a call before an attempt. -/
def courseFrom (c : RetriedCall) (n draw : Nat) : Rest :=
  c.dispatcher.courseFrom c.operation (.ofNat n) draw

/-- What is left of a call after the outcome of an attempt. -/
def after (c : RetriedCall) (n draw : Nat) : Except Failure Nat → Rest :=
  c.dispatcher.after c.operation (.ofNat n) draw

def course (c : RetriedCall) : Rest :=
  c.courseFrom 0 c.draw

/-- The service does what the course of the call says, and in each attempt handles the command. -/
theorem handleWithRetry_eq_perform {m : Type → Type} [Monad m] [LawfulMonad m] (c : RetriedCall)
    (access : StoreAccess aggregate m) (around : Surroundings m) (readings : m Readings) :
    Service.handleWithRetry access around readings c.dispatcher c.jitter c.id c.command
        c.correlation c.draw
      = c.course.perform around (fun _ => do
          Service.handle access (← readings) c.id c.command c.correlation) :=
  c.dispatcher.dispatchFrom_eq_perform ..

/-! ## What is worth another attempt -/

theorem not_isA_permanent_of_contains {k : ErrorKind}
    (h : (KindSet.ofList [.transient]).contains k = true) : k.isA .permanent = false := by
  have heq : k = .transient := by simpa [KindSet.ofList] using h
  rw [heq]
  simp [ErrorKind.isA, ErrorKind.lineage, ErrorKind.parent]

theorem sparesPermanent_default (jitter : Retry.JitterSource) :
    (Retry.Policy.backoff (.default jitter)).SparesPermanent :=
  fun _ hk => not_isA_permanent_of_contains hk

/-- The policies that commands prefer register no permanent error. -/
theorem sparesPermanent_policy (jitter : Retry.JitterSource) (command : Command) :
    (command.policy jitter).SparesPermanent := by
  cases command with
  | cancel reason cancelledBy => trivial
  | _ => exact fun _ hk => not_isA_permanent_of_contains hk

/-- Under a default policy without permanent errors no command is tried again after one. -/
theorem not_isA_of_shouldRetry {c : RetriedCall} (h : c.dispatcher.policy.SparesPermanent)
    {kind : ErrorKind} (hretry : c.rules.shouldRetry kind = true) :
    kind.isA .permanent = false := by
  have hown := sparesPermanent_policy c.jitter c.command
  have hrules : c.rules = if c.command.isRetryable then c.command.rules c.jitter
      else { policy := c.dispatcher.policy } := by
    unfold rules operation Dispatcher.rulesFor Command.operation
    split <;> rfl
  rw [hrules] at hretry
  split at hretry
  · -- the command's own rules ask its policy, and one of them excludes a kind besides
    change c.command.allows (c.command.policy c.jitter) kind = true at hretry
    cases hcommand : c.command with
    | ship trackingNumber carrier =>
      rw [hcommand] at hretry hown
      rw [Command.allows, Bool.and_eq_true] at hretry
      exact hown.not_isA hretry.2
    | _ =>
      rw [hcommand] at hretry hown
      exact hown.not_isA hretry
  · exact h.not_isA hretry

end RetriedCall

/-- Of the failures that tell of the order or of another call only the conflict is not permanent. -/
theorem Failure.IsExpected.conflict {failure : Failure} (h : failure.IsExpected)
    (hkind : failure.kind.isA .permanent = false) :
    ∃ text expected actual, failure = .kernel (.conflict text expected actual) := by
  cases failure with
  | rejected cause =>
    cases cause <;>
      simp [kind, Rejection.kind, ErrorKind.isA, ErrorKind.lineage, ErrorKind.parent] at hkind
  | kernel fault =>
    cases fault with
    | conflict text expected actual => exact ⟨text, expected, actual, rfl⟩
    | notFound text =>
      simp [kind, Fault.kind, ErrorKind.isA, ErrorKind.lineage, ErrorKind.parent] at hkind
    | _ => exact h.elim

/-! ## The pool of retried calls -/

/-- Retried calls in progress on one store: the pool of their attempts, what is left of each call
between its accesses, the accesses made so far, and what the dispatchers have counted. -/
structure RetryPool (ι : Type) where
  attempts : Pool (ι × Nat)
  courses : ι → RetriedCall.Rest
  accesses : List (ι × Nat)
  metrics : Metrics

namespace RetryPool

variable {ι : Type}

/-- The attempts of all calls. -/
def attemptsOf (calls : ι → RetriedCall) (a : ι × Nat) : Call := (calls a.1).attempt a.2

/-- Nothing is stored, and no call has begun. -/
def start (calls : ι → RetriedCall) : RetryPool ι where
  attempts := .start (attemptsOf calls)
  courses k := (calls k).course
  accesses := []
  metrics := .empty

/-- One call takes its next step: a pause, a count, or the next access of the attempt that it is in.
An attempt that is done by its access hands its outcome to the course. -/
def step [DecidableEq ι] (pool : RetryPool ι) (k : ι) : RetryPool ι :=
  match pool.courses k with
  | .done _ => pool
  | .pause _ next => { pool with courses := Function.update pool.courses k next }
  | .measure what next =>
    { pool with
      courses := Function.update pool.courses k next
      metrics := pool.metrics.record what }
  | .attempt number next =>
    let attempts := pool.attempts.step (k, number.toNat)
    { pool with
      attempts := attempts
      accesses := pool.accesses ++ [(k, number.toNat)]
      courses := Function.update pool.courses k
        (match attempts.result (k, number.toNat) with
          | some outcome => next outcome
          | none => .attempt number next) }

/-- The calls after the steps of a schedule. -/
def run [DecidableEq ι] (calls : ι → RetriedCall) (schedule : List ι) : RetryPool ι :=
  schedule.foldl step (start calls)

/-- How a call has ended, if it is done. -/
def completion (pool : RetryPool ι) (k : ι) : Option (Completion Failure Nat) :=
  match pool.courses k with
  | .done (completion, _) => some completion
  | _ => none

/-- The attempts of a call that have made the store grow. -/
def appends [DecidableEq ι] (pool : RetryPool ι) (k : ι) : List (ι × Nat) :=
  pool.attempts.growth.filter fun a => a.1 = k

/-! ## The invariant of one call -/

/-- Where a call stands with an attempt, given the results of its attempts: it is before the attempt
or in it, or it ends with its outcome. -/
inductive Stage (c : RetriedCall) (result : Nat → Option (Except Failure Nat)) (n : Nat) :
    RetriedCall.Rest → Prop
  | resting {length : Duration} {draw : Nat} (h : result n = none) :
      Stage c result n (.pause length (c.courseFrom n draw))
  | counting {what : Measurement} {draw : Nat} (h : result n = none) :
      Stage c result n (.measure what (.attempt (.ofNat n) (c.after n draw)))
  | trying {draw : Nat} (h : result n = none) :
      Stage c result n (.attempt (.ofNat n) (c.after n draw))
  | ending {what : Measurement} {outcome : Except Failure Nat} {draw : Nat}
      (h : result n = some outcome) (hends : c.rules.Ends outcome n) :
      Stage c result n
        (.measure what (.done (c.rules.completion outcome (.ofNat (n + 1)), draw)))
  | ended {outcome : Except Failure Nat} {draw : Nat} (h : result n = some outcome)
      (hends : c.rules.Ends outcome n) :
      Stage c result n (.done (c.rules.completion outcome (.ofNat (n + 1)), draw))

section Stage

variable {c : RetriedCall} {result : Nat → Option (Except Failure Nat)} {n draw : Nat}

theorem stage_courseFrom (h : result n = none) : Stage c result n (c.courseFrom n draw) := by
  rw [RetriedCall.courseFrom, Dispatcher.courseFrom_eq]
  unfold Dispatcher.noted
  split
  · exact .counting h
  · exact .trying h

theorem stage_after {outcome : Except Failure Nat} (hsize : n < UInt32.size)
    (h : result n = some outcome) (hends : c.rules.Ends outcome n) :
    Stage c result n (c.after n draw outcome) := by
  have hnumber : (UInt32.ofNat n).toNat = n := UInt32.toNat_ofNat_of_lt' hsize
  have hnext : UInt32.ofNat n + 1 = .ofNat (n + 1) := (UInt32.ofNat_add n 1).symm
  rw [RetriedCall.after, Dispatcher.after_of_ends (by rw [hnumber]; exact hends), hnext]
  unfold Dispatcher.noted
  split
  · exact .ending h hends
  · exact .ended h hends

end Stage

/-- A call is with one of its attempts: the ones before it have failed and were worth another one,
the ones behind it have made no access. -/
structure Tracked (c : RetriedCall) (result : Nat → Option (Except Failure Nat))
    (made : Nat → Prop) (course : RetriedCall.Rest) (n : Nat) :
    Prop where
  number : n < UInt32.size
  retried : ∀ m < n, ∃ failure, result m = some (.error failure) ∧
    c.rules.shouldRetry failure.kind = true
  fresh : ∀ m, n < m → ¬ made m
  stage : Stage c result n course

namespace Tracked

variable {c : RetriedCall} {result result' : Nat → Option (Except Failure Nat)}
  {made made' : Nat → Prop} {course : RetriedCall.Rest} {n : Nat}

theorem mono (h : Tracked c result made course n) (hresult : ∀ m, result' m = result m)
    (hmade : ∀ m, n < m → made' m → made m) : Tracked c result' made' course n := by
  have heq : result' = result := funext hresult
  rw [heq]
  exact ⟨h.number, h.retried, fun m hm hmade' => h.fresh m hm (hmade m hm hmade'), h.stage⟩

/-- A call is in the attempt that it asks for. -/
theorem of_attempt {number : UInt32}
    {next : Except Failure Nat → RetriedCall.Rest}
    (h : Tracked c result made (.attempt number next) n) :
    number.toNat = n ∧ result n = none := by
  cases h.stage with
  | trying hresult => exact ⟨UInt32.toNat_ofNat_of_lt' h.number, hresult⟩

theorem of_pause {length : Duration} (h : Tracked c result made (.pause length course) n) :
    Tracked c result made course n := by
  refine { h with stage := ?_ }
  cases h.stage with
  | resting hresult => exact stage_courseFrom hresult

theorem of_measure {what : Measurement} (h : Tracked c result made (.measure what course) n) :
    Tracked c result made course n := by
  refine { h with stage := ?_ }
  cases h.stage with
  | counting hresult => exact .trying hresult
  | ending hresult hends => exact .ended hresult hends

/-- The outcome of an attempt ends the call, or leads to the next attempt. -/
theorem of_outcome {number : UInt32}
    {next : Except Failure Nat → RetriedCall.Rest}
    (h : Tracked c result made (.attempt number next) n)
    (hresult : ∀ m, m ≠ n → result' m = result m) (hmade : ∀ m, made' m → made m ∨ m = n)
    (hfresh : ∀ m, n < m → result m = none) {outcome : Except Failure Nat}
    (houtcome : result' n = some outcome) :
    ∃ n', Tracked c result' made' (next outcome) n' := by
  have hnumber : (UInt32.ofNat n).toNat = n := UInt32.toNat_ofNat_of_lt' h.number
  have hretried : ∀ m < n, ∃ failure, result' m = some (.error failure) ∧
      c.rules.shouldRetry failure.kind = true := by
    intro m hm
    rw [hresult m (Nat.ne_of_lt hm)]
    exact h.retried m hm
  have hfresh' : ∀ m, n < m → ¬ made' m := by
    intro m hm hmade'
    rcases hmade m hmade' with hmade | heq
    · exact h.fresh m hm hmade
    · omega
  cases h.stage with
  | @trying draw _ =>
    by_cases hends : c.rules.Ends outcome n
    · exact ⟨n, h.number, hretried, hfresh', stage_after h.number houtcome hends⟩
    · -- an error with budget left: the next attempt follows, and has made no access yet
      have hgoes : ¬ c.rules.Ends outcome (UInt32.ofNat n).toNat := by
        rw [hnumber]
        exact hends
      obtain ⟨failure, rfl, hretry, hafter⟩ := Dispatcher.after_of_not_ends hgoes draw
      have hbudget : n + 1 < c.rules.maxAttempts.toNat := Nat.not_le.1 (not_or.1 hends).2
      have hsize : c.rules.maxAttempts.toNat < UInt32.size := UInt32.toNat_lt_size _
      refine ⟨n + 1, by omega, ?_, fun m hm => hfresh' m (by omega), ?_⟩
      · intro m hm
        rcases Nat.lt_succ_iff_lt_or_eq.1 hm with hlt | rfl
        · exact hretried m hlt
        · exact ⟨failure, houtcome, hretry⟩
      · have hnone : result' (n + 1) = none := by
          rw [hresult (n + 1) (by omega)]
          exact hfresh (n + 1) (Nat.lt_succ_self n)
        have hnext : UInt32.ofNat n + 1 = .ofNat (n + 1) := (UInt32.ofNat_add n 1).symm
        rw [RetriedCall.after, hafter, hnext]
        exact .resting hnone

/-- A call that is done has ended with the outcome of the attempt that it is with. -/
theorem exists_outcome {pool : RetryPool ι} {k : ι} {completion : Completion Failure Nat}
    (h : Tracked c result made (pool.courses k) n)
    (hdone : pool.completion k = some completion) :
    ∃ outcome, result n = some outcome ∧
      completion = c.rules.completion outcome (.ofNat (n + 1)) := by
  have hstage := h.stage
  unfold RetryPool.completion at hdone
  split at hdone
  · next completion' draw hcourse =>
    obtain rfl := Option.some.inj hdone
    rw [hcourse] at hstage
    cases hstage with
    | ended houtcome hends => exact ⟨_, houtcome, rfl⟩
  · cases hdone

end Tracked

/-! ## The invariant of a run -/

variable [DecidableEq ι] {calls : ι → RetriedCall} {pool : RetryPool ι}

/-- The attempts are a pool that has made the accesses, each call is with one of its attempts, and the
attempts of a call come one after another. -/
structure Sound (calls : ι → RetriedCall) (pool : RetryPool ι) : Prop where
  attempts_eq : pool.attempts = Pool.run (attemptsOf calls) pool.accesses
  ordered : pool.accesses.Pairwise fun a b => a.1 = b.1 → a.2 ≤ b.2
  tracked : ∀ k, ∃ n, Tracked (calls k) (fun m => pool.attempts.result (k, m))
    (fun m => (k, m) ∈ pool.accesses) (pool.courses k) n

theorem sound_start (calls : ι → RetriedCall) : Sound calls (start calls) where
  attempts_eq := rfl
  ordered := List.Pairwise.nil
  tracked k := ⟨0, by decide, fun m hm => absurd hm (Nat.not_lt_zero m),
    fun _ _ => List.not_mem_nil, stage_courseFrom ((attemptsOf calls (k, 0)).result?_handle)⟩

/-- An attempt that has made no access is not done. -/
theorem Sound.result_of_not_mem (h : Sound calls pool) {a : ι × Nat} (ha : a ∉ pool.accesses) :
    pool.attempts.result a = none := by
  rw [h.attempts_eq]
  exact Pool.result_of_not_mem ha

/-- A step without an access changes what is left of one call. -/
theorem Sound.update (h : Sound calls pool) {k : ι}
    {course : RetriedCall.Rest} {n : Nat}
    (hk : Tracked (calls k) (fun m => pool.attempts.result (k, m))
      (fun m => (k, m) ∈ pool.accesses) course n) (metrics : Metrics) :
    Sound calls { pool with courses := Function.update pool.courses k course, metrics := metrics }
    where
  attempts_eq := h.attempts_eq
  ordered := h.ordered
  tracked j := by
    show ∃ n, Tracked (calls j) _ _ (Function.update pool.courses k course j) n
    by_cases hj : j = k
    · subst hj
      rw [Function.update_self]
      exact ⟨n, hk⟩
    · rw [Function.update_of_ne hj]
      exact h.tracked j

/-- The pool of attempts after one more access. -/
theorem Sound.attempts_step (h : Sound calls pool) (a : ι × Nat) :
    pool.attempts.step a = Pool.run (attemptsOf calls) (pool.accesses ++ [a]) := by
  rw [Pool.run_concat, h.attempts_eq]

/-- An access of the attempt that a call is with comes after all its other accesses. -/
theorem Sound.ordered_concat (h : Sound calls pool) {k : ι} {n : Nat}
    (hfresh : ∀ m, n < m → (k, m) ∉ pool.accesses) :
    (pool.accesses ++ [(k, n)]).Pairwise fun a b => a.1 = b.1 → a.2 ≤ b.2 := by
  refine List.pairwise_append.2 ⟨h.ordered, List.pairwise_singleton _ _, ?_⟩
  rintro ⟨j, m⟩ ha b hb heq
  rw [List.mem_singleton.1 hb] at heq ⊢
  have hjk : j = k := heq
  refine Nat.not_lt.1 fun hlt => hfresh m hlt ?_
  rw [← hjk]
  exact ha

/-- An access of one call leaves the others where they are. -/
theorem Sound.tracked_other (h : Sound calls pool) {j k : ι} (hj : j ≠ k) (n : Nat) :
    ∃ n', Tracked (calls j) (fun m => (pool.attempts.step (k, n)).result (j, m))
      (fun m => (j, m) ∈ pool.accesses ++ [(k, n)]) (pool.courses j) n' := by
  have hne : ∀ m, (j, m) ≠ (k, n) := fun m heq => hj (congrArg Prod.fst heq)
  obtain ⟨n', hn'⟩ := h.tracked j
  refine ⟨n', hn'.mono (fun m => Pool.result_step_of_ne _ (hne m)) fun m _ hm => ?_⟩
  rcases List.mem_append.1 hm with hold | hnew
  · exact hold
  · exact absurd (List.mem_singleton.1 hnew) (hne m)

/-- After an access of its attempt a call is still in the attempt, or goes on with the outcome. -/
theorem Sound.tracked_self (h : Sound calls pool) {k : ι} {n : Nat} {number : UInt32}
    {next : Except Failure Nat → RetriedCall.Rest}
    (hk : Tracked (calls k) (fun m => pool.attempts.result (k, m))
      (fun m => (k, m) ∈ pool.accesses) (.attempt number next) n) :
    ∃ n', Tracked (calls k) (fun m => (pool.attempts.step (k, n)).result (k, m))
      (fun m => (k, m) ∈ pool.accesses ++ [(k, n)])
      (match (pool.attempts.step (k, n)).result (k, n) with
        | some outcome => next outcome
        | none => .attempt number next) n' := by
  have hresult : ∀ m, m ≠ n →
      (pool.attempts.step (k, n)).result (k, m) = pool.attempts.result (k, m) :=
    fun m hm => Pool.result_step_of_ne _ fun heq => hm (congrArg Prod.snd heq)
  have hmade : ∀ m, (k, m) ∈ pool.accesses ++ [(k, n)] → (k, m) ∈ pool.accesses ∨ m = n := by
    intro m hm
    rw [List.mem_append, List.mem_singleton] at hm
    exact hm.imp_right (congrArg Prod.snd)
  cases houtcome : (pool.attempts.step (k, n)).result (k, n) with
  | none =>
    refine ⟨n, hk.mono (fun m => ?_) fun m hlt hm => (hmade m hm).resolve_right (by omega)⟩
    by_cases hm : m = n
    · rw [hm, houtcome, hk.of_attempt.2]
    · exact hresult m hm
  | some outcome =>
    have hpending : ∀ m, n < m → pool.attempts.result (k, m) = none :=
      fun m hm => h.result_of_not_mem (hk.fresh m hm)
    exact hk.of_outcome hresult hmade hpending houtcome

/-- An access of an attempt keeps the invariant: only the outcome of the attempt is new. -/
theorem Sound.access (h : Sound calls pool) {k : ι} {n : Nat} {number : UInt32}
    {next : Except Failure Nat → RetriedCall.Rest}
    (hcourse : pool.courses k = .attempt number next)
    (hk : Tracked (calls k) (fun m => pool.attempts.result (k, m))
      (fun m => (k, m) ∈ pool.accesses) (.attempt number next) n) :
    Sound calls (pool.step k) := by
  have hnumber : number.toNat = n := hk.of_attempt.1
  unfold RetryPool.step
  rw [hcourse]
  simp only [hnumber]
  refine ⟨h.attempts_step (k, n), h.ordered_concat hk.fresh, fun j => ?_⟩
  by_cases hj : j = k
  · subst hj
    simp only [Function.update_self]
    exact h.tracked_self hk
  · simp only [Function.update_of_ne hj]
    exact h.tracked_other hj n

/-- One step keeps the invariant. -/
theorem Sound.step (h : Sound calls pool) (k : ι) : Sound calls (pool.step k) := by
  obtain ⟨n, hk⟩ := h.tracked k
  cases hcourse : pool.courses k with
  | done result =>
    rw [RetryPool.step, hcourse]
    exact h
  | pause length next =>
    rw [hcourse] at hk
    rw [RetryPool.step, hcourse]
    exact h.update hk.of_pause pool.metrics
  | measure what next =>
    rw [hcourse] at hk
    rw [RetryPool.step, hcourse]
    exact h.update hk.of_measure _
  | attempt number next =>
    rw [hcourse] at hk
    exact h.access hcourse hk

/-- Every run is sound. -/
theorem sound_run (calls : ι → RetriedCall) (schedule : List ι) :
    Sound calls (run calls schedule) :=
  List.foldlRecOn schedule step (sound_start calls) fun _ h k _ => h.step k

/-! ## What came of a call -/

section Tracked

variable {k : ι} {n : Nat} {course : RetriedCall.Rest}

theorem Sound.attempts_sound (h : Sound calls pool) :
    Pool.Sound (attemptsOf calls) pool.attempts := by
  rw [h.attempts_eq]
  exact Pool.sound_run _ _

/-- Of the attempts of a call only the one that it is with can have succeeded. -/
theorem Sound.eq_of_ok (h : Sound calls pool)
    (hk : Tracked (calls k) (fun m => pool.attempts.result (k, m))
      (fun m => (k, m) ∈ pool.accesses) course n) {m version : Nat}
    (hm : pool.attempts.result (k, m) = some (.ok version)) : m = n := by
  rcases Nat.lt_trichotomy m n with hlt | heq | hgt
  · obtain ⟨failure, hfailure, -⟩ := hk.retried m hlt
    rw [hm] at hfailure
    cases hfailure
  · exact heq
  · have hnone := h.result_of_not_mem (hk.fresh m hgt)
    rw [hm] at hnone
    cases hnone

/-- The attempts of a call that have made the store grow: the one that it is with, if that has
succeeded. -/
theorem Sound.appends_eq (h : Sound calls pool)
    (hk : Tracked (calls k) (fun m => pool.attempts.result (k, m))
      (fun m => (k, m) ∈ pool.accesses) course n) :
    pool.appends k = if (k, n) ∈ pool.attempts.growth then [(k, n)] else [] := by
  have hfilter : pool.appends k = pool.attempts.growth.filter fun a => a = (k, n) := by
    refine List.filter_congr fun a ha => decide_eq_decide.2 ⟨?_, congrArg Prod.fst⟩
    rintro rfl
    obtain ⟨version, hversion⟩ := (h.attempts_sound.mem_growth a).1 ha
    exact Prod.ext rfl (h.eq_of_ok hk hversion)
  rw [hfilter]
  split
  · next hmem =>
    have hcount := List.count_eq_one_of_mem h.attempts_sound.nodup hmem
    rw [List.filter_eq, hcount]
    rfl
  · next hmem =>
    refine List.filter_eq_nil_iff.2 fun a ha heq => hmem ?_
    rw [← of_decide_eq_true heq]
    exact ha

end Tracked

/-- A call that succeeds has appended one event over all its attempts, and returns the place of the
event in the stream. -/
theorem Sound.success (h : Sound calls pool) {k : ι} {value : Nat} {attempts : UInt32}
    (hdone : pool.completion k = some (.success value attempts)) :
    ∃ n e, pool.appends k = [(k, n)] ∧ 0 < value ∧
      (pool.attempts.store.stream (calls k).id.identity)[value - 1]?
        = some (((calls k).attempt n).envelope (value - 1) e) ∧
      (((calls k).attempt n).envelope (value - 1) e).sequence = value := by
  obtain ⟨n, hk⟩ := h.tracked k
  obtain ⟨outcome, houtcome, hcompletion⟩ := hk.exists_outcome hdone
  have hok : outcome = .ok value := by
    cases outcome with
    | ok version =>
      cases hcompletion
      rfl
    | error failure =>
      unfold RetryRules.completion at hcompletion
      dsimp only at hcompletion
      split at hcompletion <;> cases hcompletion
  rw [hok] at houtcome
  have hmem : (k, n) ∈ pool.attempts.growth :=
    (h.attempts_sound.mem_growth (k, n)).2 ⟨value, houtcome⟩
  -- the attempt has a place among those on its order, and so has its event in the stream
  have hplace : (k, n) ∈ Pool.onOrder (attemptsOf calls) pool.attempts (calls k).id :=
    List.mem_filter.2 ⟨hmem, decide_eq_true rfl⟩
  obtain ⟨i, hi⟩ := List.mem_iff_getElem?.1 hplace
  obtain ⟨hresult, e, he⟩ := h.attempts_sound.placed (calls k).id i (k, n) hi
  have hvalue : value = i + 1 := by
    rw [houtcome] at hresult
    cases hresult
    rfl
  subst hvalue
  exact ⟨n, e, by rw [h.appends_eq hk, if_pos hmem], Nat.succ_pos i, he, rfl⟩

/-- A call that fails has appended nothing over all its attempts. -/
theorem Sound.failure (h : Sound calls pool) {k : ι} {completion : Completion Failure Nat}
    (hdone : pool.completion k = some completion) (hfailed : completion.isSuccess = false) :
    pool.appends k = [] := by
  obtain ⟨n, hk⟩ := h.tracked k
  obtain ⟨outcome, houtcome, rfl⟩ := hk.exists_outcome hdone
  rw [h.appends_eq hk, if_neg]
  intro hmem
  obtain ⟨version, hversion⟩ := (h.attempts_sound.mem_growth (k, n)).1 hmem
  rw [houtcome] at hversion
  cases hversion
  cases hfailed

/-- An attempt that is followed by another one has met a conflict, and was overtaken by another
call. -/
theorem Sound.overtaken (h : Sound calls pool) {k : ι} {n m : Nat}
    (hspares : (calls k).dispatcher.policy.SparesPermanent) (hnm : n < m)
    (hm : (k, m) ∈ pool.accesses) :
    (∃ text expected actual, pool.attempts.result (k, n)
      = some (.error (.kernel (.conflict text expected actual)))) ∧
    ∃ j i, j ≠ k ∧ Pool.Overtaken (attemptsOf calls) pool.accesses (k, n) (j, i) := by
  obtain ⟨n', hk⟩ := h.tracked k
  have hmn' : m ≤ n' := Nat.not_lt.1 fun hlt => hk.fresh m hlt hm
  obtain ⟨failure, hfailure, hretry⟩ := hk.retried n (by omega)
  have hkind := RetriedCall.not_isA_of_shouldRetry hspares hretry
  have hexpected := (h.attempts_sound.phase (k, n)).isExpected hfailure
  obtain ⟨text, expected, actual, rfl⟩ := hexpected.conflict hkind
  refine ⟨⟨text, expected, actual, hfailure⟩, ?_⟩
  have hconflict := hfailure
  rw [h.attempts_eq] at hconflict
  obtain ⟨⟨j, i⟩, hne, hovertaken⟩ := Pool.overtaken_of_conflict hconflict
  refine ⟨j, i, ?_, hovertaken⟩
  -- of this call only its last attempt can have appended, and that one came later
  rintro rfl
  obtain ⟨s, u, t, -, hut, -, -, ht, -, -, happends⟩ := hovertaken
  obtain ⟨version, hversion⟩ := happends.succeeds
  have hu := happends.access
  have hult : u < pool.accesses.length := (List.getElem?_eq_some_iff.1 hu).1
  have hdone := Pool.result_after (Nat.succ_le_of_lt hult) hversion
  rw [Pool.after_length, ← h.attempts_eq] at hdone
  have hi : i = n' := h.eq_of_ok hk hdone
  obtain ⟨htlt, ht⟩ := List.getElem?_eq_some_iff.1 ht
  have hle := List.pairwise_iff_getElem.1 h.ordered u t hult htlt hut
  rw [(List.getElem?_eq_some_iff.1 hu).2, ht] at hle
  have hin : i ≤ n := hle rfl
  omega

/-- Retried calls of the order service take effect at most once. Whatever the calls, the policies of
their dispatchers and the order of their steps on a store that starts empty:

* in any surroundings the service does what the course of a call says;
* the accesses are those of a pool of attempts, and the stream of an order has one event for each
  attempt that has made the store grow;
* a call that succeeds has appended one event over all its attempts, and returns its sequence number;
* a call that fails, for good or by its budget, has appended none;
* under a default policy without permanent errors, every attempt that is followed by another one has
  met a conflict, and between its first access and its save another call appended to its stream. -/
theorem retried_calls_append_once (calls : ι → RetriedCall) (schedule : List ι) :
    let pool := run calls schedule
    (∀ k (m : Type → Type) [Monad m] [LawfulMonad m] (access : StoreAccess aggregate m)
      (around : Surroundings m) (readings : m Readings),
      Service.handleWithRetry access around readings (calls k).dispatcher (calls k).jitter
          (calls k).id (calls k).command (calls k).correlation (calls k).draw
        = (calls k).course.perform around (fun _ => do
            Service.handle access (← readings) (calls k).id (calls k).command
              (calls k).correlation)) ∧
    pool.attempts = Pool.run (attemptsOf calls) pool.accesses ∧
    (∀ id : Id, (pool.attempts.store.stream id.identity).length
      = (Pool.onOrder (attemptsOf calls) pool.attempts id).length) ∧
    (∀ k value attempts, pool.completion k = some (.success value attempts) →
      ∃ n e, pool.appends k = [(k, n)] ∧ 0 < value ∧
        (pool.attempts.store.stream (calls k).id.identity)[value - 1]?
          = some (((calls k).attempt n).envelope (value - 1) e) ∧
        (((calls k).attempt n).envelope (value - 1) e).sequence = value) ∧
    (∀ k completion, pool.completion k = some completion → completion.isSuccess = false →
      pool.appends k = []) ∧
    ∀ k n m, (calls k).dispatcher.policy.SparesPermanent → n < m → (k, m) ∈ pool.accesses →
      (∃ text expected actual, pool.attempts.result (k, n)
        = some (.error (.kernel (.conflict text expected actual)))) ∧
      ∃ j i, j ≠ k ∧ Pool.Overtaken (attemptsOf calls) pool.accesses (k, n) (j, i) := by
  have h := sound_run calls schedule
  refine ⟨fun k m _ _ => (calls k).handleWithRetry_eq_perform, h.attempts_eq,
    h.attempts_sound.length_stream, fun k value attempts => h.success,
    fun k completion => h.failure, fun k n m => h.overtaken⟩

/-- Two creations of one order that both ask before either of them saves, and a confirmation of an
order that is not there. The creation that saves first succeeds, and has overtaken the other, which
tries again; the confirmation fails. -/
theorem retried_calls_append_once_contested :
    let now : Timestamp := ⟨⟨1970, 1, 1, by decide, by decide⟩, 0, 0, by decide, by decide⟩
    let call : Id → Command → RetriedCall := fun id command =>
      { id := id, command := command, correlation := Uuid.nil
        dispatcher := ⟨.backoff (.default .still), false⟩, jitter := .still, draw := 0
        readings := fun _ => ⟨now, fun _ => ⟨Uuid.nil, now⟩⟩ }
    let calls : Fin 3 → RetriedCall := fun k =>
      if k = 2 then call ⟨Uuid.random 1⟩ .confirm
      else call ⟨Uuid.nil⟩ (.create ⟨Uuid.nil⟩ [⟨Uuid.nil, 1⟩])
    let pool := run calls [0, 1, 0, 1, 2, 1, 1]
    (∃ value attempts n, pool.completion 0 = some (.success value attempts) ∧
      pool.appends 0 = [(0, n)]) ∧
    (∃ completion, pool.completion 2 = some completion ∧ completion.isSuccess = false ∧
      pool.appends 2 = []) ∧
    (1, 1) ∈ pool.accesses ∧
    (∃ text expected actual, pool.attempts.result (1, 0)
      = some (.error (.kernel (.conflict text expected actual)))) ∧
    ∃ j i, j ≠ 1 ∧ Pool.Overtaken (attemptsOf calls) pool.accesses (1, 0) (j, i) := by
  intro now call calls pool
  have hsucceeds : (pool.completion 0).map Completion.isSuccess = some true := by decide +kernel
  have hfails : (pool.completion 2).map Completion.isSuccess = some false := by decide +kernel
  have hretried : (1, 1) ∈ pool.accesses := by decide +kernel
  obtain ⟨-, -, -, hsuccess, hfailure, hovertaken⟩ :=
    retried_calls_append_once calls [0, 1, 0, 1, 2, 1, 1]
  refine ⟨?_, ?_, hretried,
    hovertaken 1 0 1 (RetriedCall.sparesPermanent_default _) Nat.zero_lt_one hretried⟩
  · obtain ⟨completion, hdone, hvalue⟩ := Option.map_eq_some_iff.1 hsucceeds
    cases completion with
    | success value attempts =>
      obtain ⟨n, e, happends, -⟩ := hsuccess 0 value attempts hdone
      exact ⟨value, attempts, n, hdone, happends⟩
    | failed | permanentFailure => cases hvalue
  · obtain ⟨completion, hdone, hvalue⟩ := Option.map_eq_some_iff.1 hfails
    exact ⟨completion, hdone, hvalue, hfailure 2 completion hdone hvalue⟩

end RetryPool

end Order

end EventSourcing
