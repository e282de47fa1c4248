import EventSourcing.Proofs.Counters
import EventSourcing.Proofs.Course
import EventSourcing.Proofs.Digits

/-!
# Counted runs

While a run of the dispatcher waits for an attempt or pauses, anything else may go on. So a run is
taken request by request: what is left of it is a course, and each request that is answered takes it
one further. What it has counted by then is settled by where it stands.

* `Dispatch` is a run in progress, and `Dispatch.Advance` one request of it.
* `Dispatch.Stands` says where a run of a metered dispatcher can stand; `Stands.advance` is the step
  of this invariant.
* `Dispatch.Accounted` is what the counts of a run come to once it is done.
-/

namespace EventSourcing

open Metrics (tally)

/-- Why a run was given up, if it was. -/
def Completion.reason? {ε α : Type} : Completion ε α → Option Retry.GiveUp
  | success .. => none
  | failed .. => some .exhausted
  | permanentFailure .. => some .nonRetryable

/-- The numbers of the attempts of a run that was followed. -/
def Course.Followed.calls {β : Type} (f : Followed β) : List UInt32 :=
  f.acts.filterMap fun
    | .attempt number => some number
    | .pause _ => none

/-- A run of a dispatcher in progress. -/
structure Dispatch where
  Error : Type
  Value : Type
  classified : Classified Error
  op : Operation
  /-- What is left of the run. -/
  rest : Course Error Value (Completion Error Value × Nat)
  /-- The numbers with which the operation has been invoked, oldest first. -/
  calls : List UInt32
  /-- What the run has counted, oldest first. -/
  counted : List Measurement

namespace Dispatch

instance (run : Dispatch) : Classified run.Error := run.classified

/-- A run that has not asked for anything yet. -/
def start (d : Dispatcher) (Error Value : Type) [classified : Classified Error] (op : Operation)
    (draw : Nat) : Dispatch :=
  ⟨Error, Value, classified, op, d.course op draw, [], []⟩

/-- The completion of a run that is done. -/
def completion? (run : Dispatch) : Option (Completion run.Error run.Value) :=
  match run.rest with
  | .done (completion, _) => some completion
  | _ => none

def isDone (run : Dispatch) : Bool := run.completion?.isSome

def succeeded (run : Dispatch) : Bool := run.completion?.any Completion.isSuccess

/-- Whether a run is done because it was given up for a reason. -/
def gaveUp (reason : Retry.GiveUp) (run : Dispatch) : Bool :=
  run.completion?.any fun completion => completion.reason? = some reason

/-- One request of a run is answered. Beside the run that is left stands what was counted. -/
inductive Advance : Dispatch → List Measurement → Dispatch → Prop
  | measure {run : Dispatch} {what : Measurement}
      {next : Course run.Error run.Value (Completion run.Error run.Value × Nat)}
      (h : run.rest = .measure what next) :
      Advance run [what] { run with rest := next, counted := run.counted ++ [what] }
  | pause {run : Dispatch} {length : Duration}
      {next : Course run.Error run.Value (Completion run.Error run.Value × Nat)}
      (h : run.rest = .pause length next) : Advance run [] { run with rest := next }
  | attempt {run : Dispatch} {number : UInt32}
      {next : Except run.Error run.Value →
        Course run.Error run.Value (Completion run.Error run.Value × Nat)}
      (h : run.rest = .attempt number next) (outcome : Except run.Error run.Value) :
      Advance run [] { run with rest := next outcome, calls := run.calls ++ [number] }

theorem Advance.counted {run run' : Dispatch} {ms : List Measurement} (h : run.Advance ms run') :
    run'.counted = run.counted ++ ms := by
  cases h with
  | measure h => rfl
  | pause h => exact (List.append_nil _).symm
  | attempt h outcome => exact (List.append_nil _).symm

/-! ## Where a run can stand -/

/-- The numbers of the first attempts. -/
def numbers (n : Nat) : List UInt32 := (List.range n).map .ofNat

/-- What is counted of the first attempts at an operation. -/
def attempts (op : Operation) (n : Nat) : List Measurement :=
  (numbers n).map (.attempt op.name)

theorem numbers_succ (n : Nat) : numbers (n + 1) = numbers n ++ [.ofNat n] := by
  simp [numbers, List.range_succ]

theorem attempts_succ (op : Operation) (n : Nat) :
    attempts op (n + 1) = attempts op n ++ [.attempt op.name (.ofNat n)] := by
  simp [attempts, numbers_succ]

/-- Where a run of a metered dispatcher can stand: before the count of an attempt, before the
attempt itself, behind its outcome, or at its end. An attempt is counted before the operation is
invoked, so in the second place the counts are one ahead of the calls. -/
inductive Stands (d : Dispatcher) (run : Dispatch) : Prop
  | ready (n draw : Nat) (hn : n < UInt32.size)
      (hrest : run.rest = d.courseFrom run.op (.ofNat n) draw)
      (hcalls : run.calls = numbers n) (hcounted : run.counted = attempts run.op n)
  | attempting (n draw : Nat) (hn : n < UInt32.size)
      (hrest : run.rest = .attempt (.ofNat n) (d.after run.op (.ofNat n) draw))
      (hcalls : run.calls = numbers n) (hcounted : run.counted = attempts run.op (n + 1))
  | answered (n draw : Nat) (outcome : Except run.Error run.Value) (hn : n < UInt32.size)
      (hrest : run.rest = d.after run.op (.ofNat n) draw outcome)
      (hcalls : run.calls = numbers (n + 1)) (hcounted : run.counted = attempts run.op (n + 1))
  | ended (n draw : Nat) (completion : Completion run.Error run.Value) (hn : n < UInt32.size)
      (hrest : run.rest = .done (completion, draw)) (hcalls : run.calls = numbers (n + 1))
      (hcounted : run.counted = attempts run.op (n + 1) ++ [run.op.ending completion])

variable {d : Dispatcher} {run run' : Dispatch} {ms : List Measurement}

theorem stands_start (Error Value : Type) [Classified Error] (op : Operation) (draw : Nat) :
    (start d Error Value op draw).Stands d :=
  .ready 0 draw (by decide) rfl rfl rfl

/-- A metered run counts. -/
theorem noted_of_metered {ε α β : Type} (h : d.metered = true) (what : Measurement)
    (c : Course ε α β) : d.noted what c = .measure what c := by
  rw [Dispatcher.noted, if_pos h]

/-- Behind the outcome of an attempt a metered run counts how it ends, or it pauses and then has a
next attempt. -/
theorem after_cases {ε α : Type} [Classified ε] (hmetered : d.metered = true) {n : Nat}
    (hn : n < UInt32.size) (op : Operation) (draw : Nat) (outcome : Except ε α) :
    (∃ completion, d.after op (.ofNat n) draw outcome
        = .measure (op.ending completion) (.done (completion, draw))) ∨
      ∃ delay draw', n + 1 < UInt32.size ∧ d.after op (.ofNat n) draw outcome
        = .pause delay (d.courseFrom op (.ofNat (n + 1)) draw') := by
  by_cases hends : (d.rulesFor op).Ends outcome (UInt32.ofNat n).toNat
  · rw [Dispatcher.after_of_ends hends, noted_of_metered hmetered]
    exact Or.inl ⟨_, rfl⟩
  · obtain ⟨error, rfl, -, hafter⟩ := Dispatcher.after_of_not_ends hends draw
    -- the budget has another attempt left, so its number is in range
    have hleft := Nat.not_le.1 (not_or.1 hends).2
    have hsize : (d.rulesFor op).maxAttempts.toNat < UInt32.size := UInt32.toNat_lt_size _
    have hnext : UInt32.ofNat n + 1 = .ofNat (n + 1) := (UInt32.ofNat_add n 1).symm
    rw [UInt32.toNat_ofNat_of_lt' hn] at hleft
    rw [hafter, hnext]
    exact Or.inr ⟨_, _, by omega, rfl⟩

/-- Answering a request takes a run from one place to another. -/
theorem Stands.advance (h : run.Stands d) (hmetered : d.metered = true)
    (hadvance : run.Advance ms run') : run'.Stands d := by
  cases h with
  | ready n draw hn hrest hcalls hcounted =>
    rw [Dispatcher.courseFrom_eq, noted_of_metered hmetered] at hrest
    cases hadvance with
    | measure h =>
      obtain ⟨rfl, rfl⟩ := Course.measure.inj (h.symm.trans hrest)
      exact .attempting n draw hn rfl hcalls (by rw [attempts_succ, ← hcounted])
    | pause h | attempt h => cases h.symm.trans hrest
  | attempting n draw hn hrest hcalls hcounted =>
    cases hadvance with
    | measure h | pause h => cases h.symm.trans hrest
    | attempt h outcome =>
      obtain ⟨rfl, rfl⟩ := Course.attempt.inj (h.symm.trans hrest)
      exact .answered n draw outcome hn rfl (by rw [numbers_succ, ← hcalls]) hcounted
  | answered n draw outcome hn hrest hcalls hcounted =>
    rcases after_cases hmetered hn run.op draw outcome with
      ⟨completion, hafter⟩ | ⟨delay, draw', hn', hafter⟩
    · cases hadvance with
      | measure h =>
        obtain ⟨rfl, rfl⟩ := Course.measure.inj (h.symm.trans (hrest.trans hafter))
        exact .ended n draw completion hn rfl hcalls (by rw [← hcounted])
      | pause h | attempt h => cases h.symm.trans (hrest.trans hafter)
    · cases hadvance with
      | measure h => cases h.symm.trans (hrest.trans hafter)
      | pause h =>
        obtain ⟨rfl, rfl⟩ := Course.pause.inj (h.symm.trans (hrest.trans hafter))
        exact .ready (n + 1) draw' hn' rfl hcalls hcounted
      | attempt h => cases h.symm.trans (hrest.trans hafter)
  | ended n draw completion hn hrest hcalls hcounted =>
    cases hadvance with
    | measure h | pause h | attempt h => cases h.symm.trans hrest

/-! ## What a run has counted -/

/-- A run counts attempts at its operation, and how it ends. -/
theorem Stands.mem_counted (h : run.Stands d) {m : Measurement} (hm : m ∈ run.counted) :
    (∃ number, m = .attempt run.op.name number) ∨
      ∃ completion : Completion run.Error run.Value, m = run.op.ending completion := by
  have hattempts {n : Nat} (hm : m ∈ attempts run.op n) :
      ∃ number, m = .attempt run.op.name number := by
    obtain ⟨number, -, rfl⟩ := List.mem_map.1 hm
    exact ⟨number, rfl⟩
  cases h with
  | ready _ _ _ _ _ hcounted | attempting _ _ _ _ _ hcounted | answered _ _ _ _ _ _ hcounted =>
    exact Or.inl (hattempts (hcounted ▸ hm))
  | ended n draw completion hn hrest hcalls hcounted =>
    rcases List.mem_append.1 (hcounted ▸ hm) with hm | hm
    · exact Or.inl (hattempts hm)
    · exact Or.inr ⟨completion, List.mem_singleton.1 hm⟩

/-- Nothing that a run counts is about the store. -/
theorem Stands.family_of_mem (h : run.Stands d) {m : Measurement} (hm : m ∈ run.counted) :
    m.family ≠ .appended ∧ m.family ≠ .conflicts := by
  rcases h.mem_counted hm with ⟨number, rfl⟩ | ⟨completion, rfl⟩
  · exact ⟨nofun, nofun⟩
  · cases completion <;> exact ⟨nofun, nofun⟩

/-- All that a run counts is counted under the name of its operation. -/
theorem Stands.tally_of_name_ne (h : run.Stands d) {c : String} (hc : run.op.name ≠ c)
    (f : Metrics.Family) (more : List String) : tally run.counted f (c :: more) = 0 := by
  refine Metrics.tally_eq_zero fun m hm _ hvalues => hc ?_
  rcases h.mem_counted hm with ⟨number, rfl⟩ | ⟨completion, rfl⟩
  · exact List.head_eq_of_cons_eq hvalues
  · cases completion <;> exact List.head_eq_of_cons_eq hvalues

/-- A run that is done stands at its end. -/
theorem Stands.exists_ended (h : run.Stands d) (hmetered : d.metered = true)
    (hdone : run.isDone = true) :
    ∃ n completion, n < UInt32.size ∧ run.completion? = some completion ∧
      run.calls = numbers (n + 1) ∧
      run.counted = attempts run.op (n + 1) ++ [run.op.ending completion] := by
  unfold isDone completion? at hdone
  cases h with
  | ready n draw hn hrest =>
    rw [hrest, Dispatcher.courseFrom_eq, noted_of_metered hmetered] at hdone
    cases hdone
  | attempting n draw hn hrest =>
    rw [hrest] at hdone
    cases hdone
  | answered n draw outcome hn hrest =>
    rcases after_cases hmetered hn run.op draw outcome with
      ⟨completion, hafter⟩ | ⟨delay, draw', -, hafter⟩
    · rw [hrest, hafter] at hdone
      cases hdone
    · rw [hrest, hafter] at hdone
      cases hdone
  | ended n draw completion hn hrest hcalls hcounted =>
    exact ⟨n, completion, hn, by rw [completion?, hrest], hcalls, hcounted⟩

/-- Each attempt is counted once, under its number. -/
theorem tally_attempts (op : Operation) {k : Nat} (hk : k ≤ UInt32.size) (n : Nat) :
    tally (attempts op k) .attempts [op.name, toString n] = if n < k then 1 else 0 := by
  induction k with
  | zero => rfl
  | succ k ih =>
    have hnumber : (UInt32.ofNat k).toNat = k := UInt32.toNat_ofNat_of_lt' hk
    have hlast : tally [.attempt op.name (.ofNat k)] .attempts [op.name, toString n] =
        if k = n then 1 else 0 := by
      simp only [Metrics.tally_cons, Metrics.tally_nil, Measurement.family, Measurement.values,
        Measurement.quantity, hnumber, Nat.toString_eq_repr, List.cons.injEq, Text.repr_inj,
        true_and, and_true, Nat.add_zero]
    rw [attempts_succ, Metrics.tally_append, ih (Nat.le_of_succ_le hk), hlast]
    split <;> split <;> split <;> omega

/-- In its other families a run counts its end only. -/
theorem tally_concat_of_ne {f : Metrics.Family} (hf : f ≠ .attempts) (op : Operation) (n : Nat)
    (m : Measurement) (row : List String) :
    tally (attempts op n ++ [m]) f row = tally [m] f row := by
  have hattempts : tally (attempts op n) f row = 0 := by
    refine Metrics.tally_eq_zero fun a ha hfamily => absurd hfamily.symm ?_
    obtain ⟨number, -, rfl⟩ := List.mem_map.1 ha
    exact hf
  rw [Metrics.tally_append, hattempts, Nat.zero_add]

/-- An error that is worth another attempt does not end a run within its budget. -/
theorem not_ends_of_left {ε α : Type} [Classified ε] {rules : RetryRules} {error : ε} {n : Nat}
    (hretries : rules.shouldRetry (Classified.kind error) = true)
    (hleft : n + 1 < rules.maxAttempts.toNat) : ¬ rules.Ends (.error error : Except ε α) n := by
  rintro (hno | hspent)
  · exact absurd (hretries.symm.trans hno) (by decide)
  · omega

/-- What a metered run counts when it ends with a certain attempt. -/
theorem measured_follow {ε α : Type} [Classified ε] (hmetered : d.metered = true) (op : Operation)
    (draw : Nat) (outcomes : Nat → Except ε α) {k : Nat} (hk : k < UInt32.size)
    (hgoes : ∀ i < k, ¬ (d.rulesFor op).Ends (outcomes i) i)
    (hends : (d.rulesFor op).Ends (outcomes k) k) :
    ((d.course op draw).follow outcomes).measured = attempts op (k + 1) ++
      [op.ending ((d.rulesFor op).completion (outcomes k) (.ofNat (k + 1)))] := by
  have hfollow := d.follow_courseFrom op outcomes draw (n := 0) (r := k) (by omega)
    (fun i _ hi => hgoes i (by omega)) (by rwa [Nat.zero_add])
  simp only [Nat.zero_add, ← List.range_eq_range', Dispatcher.counted, hmetered, if_true] at hfollow
  have hcourse : (d.course op draw : Course ε α _)
      = d.courseFrom op (.ofNat 0) ((d.policyFor op).drawn draw 0) := rfl
  rw [hcourse, hfollow, attempts, numbers, List.map_map]
  rfl

/-- What the counts of a run come to once it is done: each call of the operation is counted under
its number, and the end of the run by how it ended. -/
structure Accounted (run : Dispatch) : Prop where
  calls_pos : 0 < run.calls.length
  calls_le : run.calls.length ≤ UInt32.size
  attempts : ∀ n, tally run.counted .attempts [run.op.name, toString n] =
    if n < run.calls.length then 1 else 0
  successes : tally run.counted .successes [run.op.name] = run.succeeded.toNat
  failures : ∀ reason : Retry.GiveUp,
    tally run.counted .failures [run.op.name, reason.text] = (run.gaveUp reason).toNat
  /-- A run that is done has succeeded, or was given up for one reason. -/
  ends_once : run.succeeded.toNat + (run.gaveUp .exhausted).toNat
    + (run.gaveUp .nonRetryable).toNat = 1

theorem Stands.accounted (h : run.Stands d) (hmetered : d.metered = true)
    (hdone : run.isDone = true) : run.Accounted := by
  obtain ⟨n, completion, hn, hcompletion, hcalls, hcounted⟩ := h.exists_ended hmetered hdone
  have hlength : run.calls.length = n + 1 := by
    rw [hcalls, numbers, List.length_map, List.length_range]
  have hsucceeded : run.succeeded = completion.isSuccess := by
    rw [succeeded, hcompletion]
    rfl
  have hgaveUp (reason : Retry.GiveUp) :
      run.gaveUp reason = decide (completion.reason? = some reason) := by
    rw [gaveUp, hcompletion]
    rfl
  constructor
  · omega
  · omega
  · intro k
    have hlast : tally [run.op.ending completion] .attempts [run.op.name, toString k] = 0 := by
      cases completion <;> rfl
    rw [hcounted, Metrics.tally_append, tally_attempts run.op hn, hlast, hlength, Nat.add_zero]
  · have hne : Metrics.Family.successes ≠ .attempts := nofun
    rw [hcounted, tally_concat_of_ne hne, hsucceeded]
    cases completion <;>
      simp [Operation.ending, Completion.isSuccess, Measurement.family, Measurement.values,
        Measurement.quantity]
  · intro reason
    have hne : Metrics.Family.failures ≠ .attempts := nofun
    rw [hcounted, tally_concat_of_ne hne, hgaveUp]
    cases completion <;> cases reason <;>
      simp [Operation.ending, Completion.reason?, Measurement.family, Measurement.values,
        Measurement.quantity, Retry.GiveUp.text]
  · rw [hsucceeded, hgaveUp, hgaveUp]
    cases completion <;> rfl

end Dispatch

end EventSourcing
