import EventSourcing.Proofs.CountedRuns
import EventSourcing.Proofs.Representation

/-!
# What the counters balance with

A store and a dispatcher share one set of counters. They bump them in five places, on different ways
out of a save and of a run, while any number of saves and runs go on together. Once all runs are
done the counters balance: with what is stored, with the answers of the saves, with the calls of the
operations and with the results of the runs. They do so only as long as no two rows of label values
share a counter.

* `Instrumented` is the shared state, with what was done and what was measured beside it.
* `Instrumented.Balanced` is the invariant of a run: what was measured is what was done. Each step
  keeps it, and `balanced_of_reachable` carries it over all of them.
* `Instrumented.Conserved` is what the counters have to show in the end, and `metrics_conserved`
  says when they do.
* `labels_run_together` is a run in which they do not.
-/

namespace EventSourcing

open Metrics (tally Apart)

namespace Store

variable {A : Aggregate} {store : Store} {root : Root A} {correlation : Uuid}
  {stamp : Nat → Stamp}

/-! ## Envelopes by the kind of aggregate -/

/-- All envelopes after an append are those before it and the new ones. -/
theorem flatMap_appendTo_perm (i : Identity) (added : List Stored)
    (streams : List (Identity × List Stored)) :
    ((appendTo i added streams).flatMap Prod.snd).Perm (streams.flatMap Prod.snd ++ added) := by
  induction streams with
  | nil => simp [appendTo]
  | cons entry rest ih =>
    rw [appendTo]
    split
    · rw [List.flatMap_cons, List.flatMap_cons, List.append_assoc, List.append_assoc]
      exact List.perm_append_comm.append_left entry.2
    · rw [List.flatMap_cons, List.flatMap_cons, List.append_assoc]
      exact ih.append_left entry.2

/-- The number of envelopes of a kind of aggregate in all streams. -/
def envelopesOf (store : Store) (t : String) : Nat :=
  (store.streams.flatMap Prod.snd).countP fun e => e.aggregateType = t

theorem envelopesOf_append (store : Store) (i : Identity) (added : List Stored) (t : String) :
    (store.append i added).envelopesOf t =
      store.envelopesOf t + added.countP fun e => e.aggregateType = t := by
  rw [envelopesOf, append, (flatMap_appendTo_perm i added store.streams).countP_eq,
    List.countP_append, envelopesOf]

/-- Every envelope is of one kind, so the kinds together make up the store. -/
theorem eventCount_eq_finsum_envelopesOf (store : Store) :
    (Function.support store.envelopesOf).Finite ∧
      ∑ᶠ t, store.envelopesOf t = store.eventCount := by
  let kinds := (store.streams.flatMap Prod.snd).map Envelope.aggregateType
  have hcount (t : String) : store.envelopesOf t = kinds.count t := by
    rw [envelopesOf, List.count_eq_countP, List.countP_map]
    rfl
  have hsupport : Function.support store.envelopesOf ⊆ (kinds.toFinset : Set String) := by
    intro t ht
    rw [Function.mem_support, hcount] at ht
    rw [List.coe_toFinset]
    exact List.count_pos_iff.1 (Nat.pos_of_ne_zero ht)
  refine ⟨(Finset.finite_toSet _).subset hsupport, ?_⟩
  rw [finsum_eq_sum_of_support_subset _ hsupport, Finset.sum_congr rfl fun t _ => hcount t,
    List.sum_toFinset_count_eq_length, List.length_map, eventCount]

/-- The envelopes of events are all of the kind that the events are of. -/
theorem countP_encodeFrom {id : A.Id} {version : Nat} {events : List A.Event}
    {encoded : List Stored} (h : encodeFrom id correlation stamp version events = .ok encoded)
    (t : String) : (encoded.countP fun e => e.aggregateType = t)
      = if A.name = t then events.length else 0 := by
  induction events generalizing version encoded with
  | nil =>
    cases h
    exact (ite_self 0).symm
  | cons event rest ih =>
    obtain ⟨stored, storedRest, hhead, htail, rfl⟩ := encodeFrom_cons_eq_ok_iff.1 h
    have hkind : stored.aggregateType = A.name := (made_of_encode hhead).2.aggregateType
    rw [List.countP_cons, ih htail, hkind]
    by_cases hname : A.name = t
    · simp [hname]
    · simp [hname]

end Store

/-- A save with its answer. -/
structure AnsweredSave where
  aggregate : Aggregate
  result : Except aggregate.Fault Nat

def AnsweredSave.isConflict (save : AnsweredSave) : Bool :=
  match save.result with
  | .error (.conflict ..) => true
  | _ => false

namespace Store

variable {A : Aggregate}

/-- A save measures what it stores, or that it has met a conflict. -/
theorem tally_save (store : Store) (root : Root A) (correlation : Uuid) (stamp : Nat → Stamp) :
    let saved := store.save root correlation stamp
    (∀ t, saved.store.envelopesOf t = store.envelopesOf t + tally saved.measured .appended [t]) ∧
    (∀ t, tally saved.measured .conflicts [t] =
      if A.name = t ∧ AnsweredSave.isConflict ⟨A, saved.result⟩ = true then 1 else 0) ∧
    ∀ f, f ≠ .appended → f ≠ .conflicts → ∀ row, tally saved.measured f row = 0 := by
  -- in the order in which a save checks
  intro saved
  cases hcorrupted : root.corrupted with
  | true =>
    simp only [saved, save_of_corrupted hcorrupted]
    simp [AnsweredSave.isConflict]
  | false =>
    by_cases hbuffer : root.uncommitted = []
    · simp only [saved, save_of_uncommitted_eq_nil hcorrupted hbuffer]
      simp [AnsweredSave.isConflict]
    · by_cases hversion : root.committed = store.currentVersion root.identity
      · simp only [saved, save_of_current hcorrupted hbuffer hversion]
        cases hencode : encodeFrom root.id correlation stamp root.committed root.uncommitted with
        | error fault =>
          obtain rfl := encodeFrom_eq_error hencode
          simp [AnsweredSave.isConflict]
        | ok envelopes =>
          refine ⟨fun t => ?_, fun t => ?_, fun f happended hconflicts row => ?_⟩
          · rw [envelopesOf_append, countP_encodeFrom hencode]
            simp [Measurement.family, Measurement.values, Measurement.quantity]
          · simp [AnsweredSave.isConflict, Measurement.family]
          · simp [Measurement.family, happended.symm]
      · simp only [saved, save_of_stale hcorrupted hbuffer hversion]
        refine ⟨fun t => ?_, fun t => ?_, fun f happended hconflicts row => ?_⟩
        · simp [Measurement.family]
        · simp [AnsweredSave.isConflict, Measurement.family, Measurement.values,
            Measurement.quantity]
        · simp [Measurement.family, hconflicts.symm]

end Store

/-! ## Sums over lists -/

section Sums

variable {α : Type*} {l : List α} {g : α → Nat}

/-- A sum over a list when one member changes. -/
theorem sum_map_set {k n : Nat} {x y : α} (hk : l[k]? = some x) (h : g y = g x + n) :
    ((l.set k y).map g).sum = (l.map g).sum + n := by
  induction l generalizing k with
  | nil => cases hk
  | cons z l ih =>
    cases k with
    | zero =>
      cases hk
      simp only [List.set_cons_zero, List.map_cons, List.sum_cons]
      omega
    | succ k =>
      simp only [List.set_cons_succ, List.map_cons, List.sum_cons, ih hk]
      omega

/-- What contributes nothing to a sum can be left out. -/
theorem sum_map_filter {p : α → Prop} [DecidablePred p] (h : ∀ x ∈ l, ¬ p x → g x = 0) :
    (l.map g).sum = ((l.filter p).map g).sum := by
  have hite : l.map g = l.map fun x => if p x then g x else 0 :=
    List.map_congr_left fun x hx => by
      by_cases hp : p x
      · rw [if_pos hp]
      · rw [if_neg hp, h x hx hp]
  rw [hite, List.sum_map_ite, List.sum_map_zero, Nat.add_zero]

theorem sum_map_eq_length (h : ∀ x ∈ l, g x = 1) : (l.map g).sum = l.length := by
  rw [List.map_congr_left h, List.map_const', List.sum_replicate, smul_eq_mul, Nat.mul_one]

theorem sum_map_toNat (p : α → Bool) (l : List α) :
    (l.map fun x => (p x).toNat).sum = l.countP p := by
  induction l with
  | nil => rfl
  | cons x l ih =>
    rw [List.map_cons, List.sum_cons, ih, List.countP_cons, Nat.add_comm]
    cases p x <;> rfl

/-- Counting by rows what is counted by columns. -/
theorem sum_range_map {N : Nat} (h : ∀ x ∈ l, g x ≤ N) :
    ∑ n ∈ Finset.range N, (l.map fun x => if n < g x then 1 else 0).sum = (l.map g).sum := by
  induction l with
  | nil => simp
  | cons x l ih =>
    have hx : (Finset.range N).filter (· < g x) = Finset.range (g x) := by
      have hle := h x List.mem_cons_self
      ext n
      rw [Finset.mem_filter, Finset.mem_range, Finset.mem_range]
      omega
    have hrest := ih fun y hy => h y (List.mem_cons_of_mem x hy)
    simp only [List.map_cons, List.sum_cons, Finset.sum_add_distrib, hrest, Finset.sum_boole, hx,
      Finset.card_range, Nat.cast_id]

end Sums

/-! ## Saves and runs that share their counters -/

/-- A store and the counters that it shares with a dispatcher. Beside them stand the saves with
their answers, the runs as far as they have come, and all measurements in the order in which they
were counted. -/
structure Instrumented where
  store : Store
  metrics : Metrics
  saves : List AnsweredSave
  dispatches : List Dispatch
  measured : List Measurement

namespace Instrumented

/-- Nothing is stored, and nothing is counted. -/
def start : Instrumented := ⟨.empty, .empty, [], [], []⟩

/-- Counts measurements one after another. -/
def measure (s : Instrumented) (ms : List Measurement) : Instrumented :=
  { s with metrics := ms.foldl Metrics.record s.metrics, measured := s.measured ++ ms }

/-- A root is saved. -/
def save (s : Instrumented) {A : Aggregate} (root : Root A) (correlation : Uuid)
    (stamp : Nat → Stamp) : Instrumented :=
  let saved := s.store.save root correlation stamp
  { s.measure saved.measured with store := saved.store, saves := s.saves ++ [⟨A, saved.result⟩] }

/-- Another run begins. -/
def dispatch (s : Instrumented) (run : Dispatch) : Instrumented :=
  { s with dispatches := s.dispatches ++ [run] }

/-- A run is put in the place of another. -/
def put (s : Instrumented) (k : Nat) (run : Dispatch) : Instrumented :=
  { s with dispatches := s.dispatches.set k run }

/-- Any root of any kind is saved, a run of any operation begins, or one request of a run is
answered. Runs go on in any order, with any outcomes of their attempts. -/
inductive Step (d : Dispatcher) : Instrumented → Instrumented → Prop
  | save {s : Instrumented} {A : Aggregate} (root : Root A) (correlation : Uuid)
      (stamp : Nat → Stamp) : Step d s (s.save root correlation stamp)
  | dispatch {s : Instrumented} (Error Value : Type) [Classified Error] (op : Operation)
      (draw : Nat) : Step d s (s.dispatch (.start d Error Value op draw))
  | advance {s : Instrumented} {k : Nat} {run run' : Dispatch} {ms : List Measurement}
      (hk : s.dispatches[k]? = some run) (h : run.Advance ms run') :
      Step d s ((s.measure ms).put k run')

/-- What can come of an empty store and fresh counters. -/
def Reachable (d : Dispatcher) (s : Instrumented) : Prop := Relation.ReflTransGen (Step d) start s

/-! ### What was done -/

/-- The number of saves of roots of a kind that were answered with a conflict. -/
def conflictsOf (s : Instrumented) (t : String) : Nat :=
  s.saves.countP fun save => save.aggregate.name = t ∧ save.isConflict = true

/-- The runs of the operations with a name. -/
def dispatchesOf (s : Instrumented) (c : String) : List Dispatch :=
  s.dispatches.filter fun run => run.op.name = c

/-- How often the operations with a name were invoked. -/
def invocationsOf (s : Instrumented) (c : String) : Nat :=
  ((s.dispatchesOf c).map fun run => run.calls.length).sum

/-! ## The invariant -/

/-- What was measured is what was done. -/
structure Balanced (d : Dispatcher) (s : Instrumented) : Prop where
  metrics : s.metrics = s.measured.foldl Metrics.record .empty
  appended : ∀ t, tally s.measured .appended [t] = s.store.envelopesOf t
  conflicts : ∀ t, tally s.measured .conflicts [t] = s.conflictsOf t
  counted : ∀ f, f ≠ .appended → f ≠ .conflicts → ∀ row,
    tally s.measured f row = (s.dispatches.map fun run => tally run.counted f row).sum
  stands : ∀ run ∈ s.dispatches, run.Stands d

variable {d : Dispatcher} {s s' : Instrumented}

theorem balanced_start : Balanced d start where
  metrics := rfl
  appended _ := rfl
  conflicts _ := rfl
  counted _ _ _ _ := rfl
  stands _ hrun := absurd hrun List.not_mem_nil

theorem Balanced.measure_metrics (h : s.Balanced d) (ms : List Measurement) :
    (s.measure ms).metrics = (s.measure ms).measured.foldl Metrics.record .empty := by
  rw [measure, List.foldl_append, ← h.metrics]

theorem Balanced.save (h : s.Balanced d) {A : Aggregate} (root : Root A) (correlation : Uuid)
    (stamp : Nat → Stamp) : (s.save root correlation stamp).Balanced d := by
  obtain ⟨happended, hconflicts, hothers⟩ := s.store.tally_save root correlation stamp
  constructor
  case metrics => exact h.measure_metrics _
  case appended =>
    intro t
    show tally (s.measured ++ _) _ _ = _
    rw [Metrics.tally_append, h.appended]
    exact (happended t).symm
  case conflicts =>
    intro t
    show tally (s.measured ++ _) _ _ = List.countP _ (s.saves ++ [_])
    rw [Metrics.tally_append, h.conflicts, hconflicts, List.countP_append, List.countP_singleton]
    simp [conflictsOf]
  case counted =>
    intro f hf hf' row
    show tally (s.measured ++ _) _ _ = _
    rw [Metrics.tally_append, hothers f hf hf', Nat.add_zero]
    exact h.counted f hf hf' row
  case stands => exact h.stands

theorem Balanced.dispatch (h : s.Balanced d) {run : Dispatch} (hstands : run.Stands d)
    (hcounted : run.counted = []) : (s.dispatch run).Balanced d where
  metrics := h.metrics
  appended := h.appended
  conflicts := h.conflicts
  counted f hf hf' row := by
    show tally s.measured f row = ((s.dispatches ++ [run]).map _).sum
    rw [h.counted f hf hf' row]
    simp [hcounted]
  stands r hr := by
    rcases List.mem_append.1 hr with hr | hr
    · exact h.stands r hr
    · rw [List.mem_singleton.1 hr]
      exact hstands

theorem Balanced.advance (h : s.Balanced d) (hmetered : d.metered = true) {k : Nat}
    {run run' : Dispatch} {ms : List Measurement} (hk : s.dispatches[k]? = some run)
    (hadvance : run.Advance ms run') : ((s.measure ms).put k run').Balanced d := by
  have hstands := (h.stands run (List.mem_of_getElem? hk)).advance hmetered hadvance
  have hfamily (m : Measurement) (hm : m ∈ ms) : m.family ≠ .appended ∧ m.family ≠ .conflicts :=
    hstands.family_of_mem (hadvance.counted ▸ List.mem_append_right _ hm)
  constructor
  case metrics => exact h.measure_metrics ms
  case appended =>
    intro t
    show tally (s.measured ++ ms) _ _ = _
    rw [Metrics.tally_append, h.appended,
      Metrics.tally_eq_zero fun m hm hf => absurd hf (hfamily m hm).1]
    rfl
  case conflicts =>
    intro t
    show tally (s.measured ++ ms) _ _ = _
    rw [Metrics.tally_append, h.conflicts,
      Metrics.tally_eq_zero fun m hm hf => absurd hf (hfamily m hm).2]
    rfl
  case counted =>
    intro f hf hf' row
    show tally (s.measured ++ ms) f row = ((s.dispatches.set k run').map _).sum
    rw [Metrics.tally_append, h.counted f hf hf' row]
    refine (sum_map_set hk ?_).symm
    rw [hadvance.counted, Metrics.tally_append]
  case stands =>
    intro r hr
    rcases List.mem_or_eq_of_mem_set hr with hr | rfl
    · exact h.stands r hr
    · exact hstands

/-- One step keeps the balance. -/
theorem balanced_of_step (h : s.Balanced d) (hmetered : d.metered = true) (hstep : Step d s s') :
    s'.Balanced d := by
  cases hstep with
  | save root correlation stamp => exact h.save root correlation stamp
  | dispatch Error Value op draw => exact h.dispatch (Dispatch.stands_start Error Value op draw) rfl
  | advance hk hadvance => exact h.advance hmetered hk hadvance

theorem balanced_of_reachable (h : s.Reachable d) (hmetered : d.metered = true) :
    s.Balanced d := by
  induction h with
  | refl => exact balanced_start
  | tail _ hstep ih => exact balanced_of_step ih hmetered hstep

/-! ## Whole runs -/

/-- A run from its beginning to its end, with given outcomes of its attempts and nothing in
between. -/
def complete (s : Instrumented) (d : Dispatcher) {Error Value : Type}
    [classified : Classified Error] (op : Operation) (draw : Nat)
    (outcomes : Nat → Except Error Value) : Instrumented :=
  let followed := (d.course op draw).follow outcomes
  (s.measure followed.measured).dispatch
    ⟨Error, Value, classified, op, .done followed.result, followed.calls, followed.measured⟩

theorem measure_nil (s : Instrumented) : s.measure [] = s := by
  rw [measure, List.append_nil]
  rfl

theorem measure_append (s : Instrumented) (xs ys : List Measurement) :
    (s.measure xs).measure ys = s.measure (xs ++ ys) := by
  rw [measure, measure, measure, List.foldl_append, List.append_assoc]

/-- The request of a run that has begun last. -/
theorem step_last {run run' : Dispatch} {ms : List Measurement} (h : run.Advance ms run') :
    Step d (s.dispatch run) ((s.measure ms).dispatch run') := by
  have hk : (s.dispatch run).dispatches[s.dispatches.length]? = some run :=
    List.getElem?_concat_length
  have hput : ((s.dispatch run).measure ms).put s.dispatches.length run'
      = (s.measure ms).dispatch run' := by
    simp [put, measure, dispatch]
  exact hput ▸ .advance hk h

/-- Whatever is left of a run can be followed to its end. -/
theorem run_follow {Error Value : Type} [classified : Classified Error] (op : Operation)
    (c : Course Error Value (Completion Error Value × Nat)) (outcomes : Nat → Except Error Value)
    (s : Instrumented) (calls : List UInt32) (counted : List Measurement) :
    Relation.ReflTransGen (Step d) (s.dispatch ⟨Error, Value, classified, op, c, calls, counted⟩)
      ((s.measure (c.follow outcomes).measured).dispatch ⟨Error, Value, classified, op,
        .done (c.follow outcomes).result, calls ++ (c.follow outcomes).calls,
        counted ++ (c.follow outcomes).measured⟩) := by
  induction c generalizing s calls counted outcomes with
  | done result =>
    simp only [Course.follow, Course.Followed.calls, measure_nil, List.filterMap_nil,
      List.append_nil]
    exact .refl
  | attempt number next ih =>
    let run : Dispatch := ⟨Error, Value, classified, op, .attempt number next, calls, counted⟩
    have hstep := step_last (d := d) (s := s)
      (@Dispatch.Advance.attempt run _ next rfl (outcomes 0))
    have hrest := ih (outcomes 0) (fun n => outcomes (n + 1)) s (calls ++ [number]) counted
    rw [measure_nil] at hstep
    rw [List.append_assoc] at hrest
    exact .head hstep hrest
  | pause length next ih =>
    let run : Dispatch := ⟨Error, Value, classified, op, .pause length next, calls, counted⟩
    have hstep := step_last (d := d) (s := s) (@Dispatch.Advance.pause run _ next rfl)
    rw [measure_nil] at hstep
    exact .head hstep (ih outcomes s calls counted)
  | measure what next ih =>
    let run : Dispatch := ⟨Error, Value, classified, op, .measure what next, calls, counted⟩
    have hstep := step_last (d := d) (s := s) (@Dispatch.Advance.measure run _ next rfl)
    have hrest := ih outcomes (s.measure [what]) calls (counted ++ [what])
    rw [measure_append, List.append_assoc] at hrest
    exact .head hstep hrest

theorem run_complete {Error Value : Type} [Classified Error] (s : Instrumented) (op : Operation)
    (draw : Nat) (outcomes : Nat → Except Error Value) :
    Relation.ReflTransGen (Step d) s (s.complete d op draw outcomes) :=
  .head (.dispatch Error Value op draw) (run_follow op (d.course op draw) outcomes s [] [])

/-- The default policy with another budget takes a lost connection for worth another attempt. -/
theorem shouldRetry_connection {budget : UInt32} {metered : Bool} (name : String) :
    (Dispatcher.rulesFor ⟨.backoff ((Retry.Backoff.default .still).withMaxAttempts budget), metered⟩
      ⟨name, none⟩).shouldRetry .connection = true := by
  show ErrorKind.connection.lineage.any _ = true
  simp [ErrorKind.lineage, ErrorKind.parent, Retry.Backoff.withMaxAttempts,
    Retry.Backoff.default, Retry.Settings.default, KindSet.ofList]

/-! ## What the counters show in the end -/

section Done

variable (h : s.Balanced d) (hmetered : d.metered = true)
  (hdone : ∀ run ∈ s.dispatches, run.isDone = true)

include h hmetered hdone

theorem Balanced.accounted {c : String} {run : Dispatch} (hrun : run ∈ s.dispatchesOf c) :
    run.op.name = c ∧ run.Accounted := by
  obtain ⟨hmem, hname⟩ := List.mem_filter.1 hrun
  exact ⟨of_decide_eq_true hname, (h.stands run hmem).accounted hmetered (hdone run hmem)⟩

/-- What is counted under the name of an operation is what the runs with the name have counted, one
by one. -/
theorem Balanced.tally_eq_sum (f : Metrics.Family) {more : List String} {g : Dispatch → Nat}
    (hf : f ≠ .appended) (hf' : f ≠ .conflicts)
    (hg : ∀ run : Dispatch, run.Accounted → tally run.counted f (run.op.name :: more) = g run)
    (c : String) : tally s.measured f (c :: more) = ((s.dispatchesOf c).map g).sum := by
  have hnamed : (s.dispatches.map fun run => tally run.counted f (c :: more)).sum =
      ((s.dispatchesOf c).map fun run => tally run.counted f (c :: more)).sum :=
    sum_map_filter fun run hrun hname => (h.stands run hrun).tally_of_name_ne hname f more
  rw [h.counted f hf hf', hnamed]
  refine congrArg List.sum (List.map_congr_left fun run hrun => ?_)
  obtain ⟨rfl, haccounted⟩ := h.accounted hmetered hdone hrun
  exact hg run haccounted

/-- Every run that is done has ended in one way. -/
theorem Balanced.length_dispatchesOf (c : String) :
    (s.dispatchesOf c).length = (s.dispatchesOf c).countP Dispatch.succeeded
      + (s.dispatchesOf c).countP (Dispatch.gaveUp .exhausted)
      + (s.dispatchesOf c).countP (Dispatch.gaveUp .nonRetryable) := by
  rw [← sum_map_toNat, ← sum_map_toNat, ← sum_map_toNat, ← List.sum_map_add, ← List.sum_map_add]
  exact (sum_map_eq_length fun run hrun => (h.accounted hmetered hdone hrun).2.ends_once).symm

end Done

/-- What the counters have to show when all runs are done. -/
structure Conserved (s : Instrumented) : Prop where
  /-- Every kind of aggregate has as many events counted as envelopes stored. -/
  appended : ∀ t, (s.metrics.shown .appended [t]).toNat = s.store.envelopesOf t
  total : (Function.support fun t => (s.metrics.shown .appended [t]).toNat).Finite ∧
    ∑ᶠ t, (s.metrics.shown .appended [t]).toNat = s.store.eventCount
  conflicts : ∀ t, (s.metrics.shown .conflicts [t]).toNat = s.conflictsOf t
  /-- The attempts of all numbers together are the invocations. -/
  invocations : ∀ c, ∑ n ∈ Finset.range UInt32.size,
    (s.metrics.shown .attempts [c, toString n]).toNat = s.invocationsOf c
  antitone : ∀ c, Antitone fun n : Nat => (s.metrics.shown .attempts [c, toString n]).toNat
  begun : ∀ c, (s.metrics.shown .attempts [c, toString 0]).toNat = (s.dispatchesOf c).length
  ended : ∀ c, (s.dispatchesOf c).length = (s.metrics.shown .successes [c]).toNat
    + (s.metrics.shown .failures [c, Retry.GiveUp.exhausted.text]).toNat
    + (s.metrics.shown .failures [c, Retry.GiveUp.nonRetryable.text]).toNat
  successes : ∀ c,
    (s.metrics.shown .successes [c]).toNat = (s.dispatchesOf c).countP Dispatch.succeeded
  failures : ∀ c (reason : Retry.GiveUp), (s.metrics.shown .failures [c, reason.text]).toNat
    = (s.dispatchesOf c).countP (Dispatch.gaveUp reason)

/-- Counters balance. Any roots are saved to a store that starts empty, and a metered dispatcher
runs any operations, all of them counting with the same fresh metrics and one step at a time. Once
every run is done the metrics show what was stored, answered, invoked and returned, provided that no
counter has wrapped and that no two rows of label values share one. -/
theorem metrics_conserved (h : s.Reachable d) (hmetered : d.metered = true)
    (hdone : ∀ run ∈ s.dispatches, run.isDone = true)
    (hsize : ∀ f row, tally s.measured f row < UInt64.size) (hapart : Apart s.measured) :
    s.Conserved := by
  have hbalanced := balanced_of_reachable h hmetered
  have hshown (f : Metrics.Family) (row : List String) :
      (s.metrics.shown f row).toNat = tally s.measured f row := by
    rw [hbalanced.metrics]
    exact Metrics.toNat_shown_foldl hapart (hsize f row)
  have hattempts (c : String) (n : Nat) : tally s.measured .attempts [c, toString n] =
      ((s.dispatchesOf c).map fun run => if n < run.calls.length then 1 else 0).sum :=
    hbalanced.tally_eq_sum hmetered hdone .attempts nofun nofun (fun _ hrun => hrun.attempts n) c
  have hsuccesses (c : String) :
      tally s.measured .successes [c] = (s.dispatchesOf c).countP Dispatch.succeeded := by
    rw [← sum_map_toNat]
    exact hbalanced.tally_eq_sum hmetered hdone .successes nofun nofun
      (fun _ hrun => hrun.successes) c
  have hfailures (c : String) (reason : Retry.GiveUp) : tally s.measured .failures [c, reason.text]
      = (s.dispatchesOf c).countP (Dispatch.gaveUp reason) := by
    rw [← sum_map_toNat]
    exact hbalanced.tally_eq_sum hmetered hdone .failures nofun nofun
      (fun _ hrun => hrun.failures reason) c
  constructor
  case appended => exact fun t => (hshown _ _).trans (hbalanced.appended t)
  case total =>
    simp only [hshown, hbalanced.appended]
    exact s.store.eventCount_eq_finsum_envelopesOf
  case conflicts => exact fun t => (hshown _ _).trans (hbalanced.conflicts t)
  case invocations =>
    intro c
    simp only [hshown, hattempts]
    exact sum_range_map fun run hrun => (hbalanced.accounted hmetered hdone hrun).2.calls_le
  case antitone =>
    intro c m n hle
    simp only [hshown, hattempts]
    refine List.sum_le_sum fun run _ => ?_
    split <;> split <;> omega
  case begun =>
    intro c
    rw [hshown, hattempts]
    exact sum_map_eq_length fun run hrun =>
      if_pos (hbalanced.accounted hmetered hdone hrun).2.calls_pos
  case ended =>
    intro c
    rw [hshown, hshown, hshown, hsuccesses, hfailures, hfailures]
    exact hbalanced.length_dispatchesOf hmetered hdone c
  case successes => exact fun c => (hshown _ _).trans (hsuccesses c)
  case failures => exact fun c reason => (hshown _ _).trans (hfailures c reason)

/-- A new order is saved, and a second save of the same root meets a conflict. Beside that an
operation loses its connection once and then succeeds. -/
theorem metrics_conserved_retried :
    ∃ (d : Dispatcher) (s : Instrumented), s.Reachable d ∧ d.metered = true ∧
      (∀ run ∈ s.dispatches, run.isDone = true) ∧
      (∀ f row, tally s.measured f row < UInt64.size) ∧ Apart s.measured ∧ s.Conserved ∧
      s.store.envelopesOf "order" = 1 ∧ s.conflictsOf "order" = 1 ∧
      s.metrics.shown .attempts ["Reindex", "1"] = 1 := by
  let now : Timestamp := ⟨⟨1970, 1, 1, by decide, by decide⟩, 0, 0, by decide, by decide⟩
  let created : Order.aggregate.Event := Order.Event.created ⟨Uuid.nil⟩ [] now
  let root : Root Order.aggregate := ((Root.new ⟨Uuid.nil⟩).record created).2
  let stamp : Nat → Stamp := fun _ => ⟨Uuid.nil, now⟩
  let saved := (start.save root Uuid.nil stamp).save root Uuid.nil stamp
  let d : Dispatcher := ⟨.backoff ((Retry.Backoff.default .still).withMaxAttempts 3), true⟩
  let op : Operation := ⟨"Reindex", none⟩
  let outcomes : Nat → Except ErrorKind Unit := fun n =>
    if n = 0 then .error .connection else .ok ()
  let s := saved.complete d op 0 outcomes
  have hreach : s.Reachable d :=
    ((Relation.ReflTransGen.refl.tail (.save root Uuid.nil stamp)).tail
      (.save root Uuid.nil stamp)).trans (run_complete saved op 0 outcomes)
  have hgoes : ∀ i < 1, ¬ (d.rulesFor op).Ends (outcomes i) i := by
    intro i hi
    obtain rfl := Nat.lt_one_iff.1 hi
    exact Dispatch.not_ends_of_left (shouldRetry_connection "Reindex") (by decide : 1 < 3)
  have hrun := Dispatch.measured_follow (d := d) rfl op 0 outcomes (by decide) hgoes trivial
  have hmeasured : s.measured = [.appended "order" 1, .conflict "order", .attempt "Reindex" 0,
      .attempt "Reindex" 1, .success "Reindex"] := by
    show saved.measured ++ _ = _
    rw [hrun]
    rfl
  have hdone : ∀ run ∈ s.dispatches, run.isDone = true := by
    intro run hrun
    rw [List.mem_singleton.1 hrun]
    rfl
  have hsize : ∀ f row, tally s.measured f row < UInt64.size := by
    intro f row
    refine (Metrics.tally_le _ f row).trans_lt ?_
    rw [hmeasured]
    decide +kernel
  have hapart : Apart s.measured := by
    rw [hmeasured]
    decide +kernel
  have hconserved := metrics_conserved hreach rfl hdone hsize hapart
  refine ⟨d, s, hreach, rfl, hdone, hsize, hapart, hconserved, ?_, ?_, ?_⟩
  · rfl
  · rfl
  · rw [(balanced_of_reachable hreach rfl).metrics, hmeasured]
    decide +kernel

/-- Counters do not balance when two rows of labels share one. An operation "p" uses up its eleven
attempts, the last with number 10, and an operation "p1" succeeds with its first attempt, number 0.
Both rows run together to "p10", so the first attempt of "p1" is counted as the last of "p". -/
theorem labels_run_together :
    ∃ (d : Dispatcher) (s : Instrumented), s.Reachable d ∧ d.metered = true ∧
      (∀ run ∈ s.dispatches, run.isDone = true) ∧
      (∀ f row, tally s.measured f row < UInt64.size) ∧
      (s.dispatchesOf "p1").length = 1 ∧
      s.metrics.shown .attempts ["p1", "0"] = 0 ∧ s.metrics.shown .attempts ["p", "10"] = 2 ∧
      ¬ s.Conserved := by
  let d : Dispatcher := ⟨.backoff ((Retry.Backoff.default .still).withMaxAttempts 11), true⟩
  let failing : Nat → Except ErrorKind Unit := fun _ => .error .connection
  let succeeding : Nat → Except ErrorKind Unit := fun _ => .ok ()
  let first := start.complete d ⟨"p", none⟩ 0 failing
  let s := first.complete d ⟨"p1", none⟩ 0 succeeding
  have hreach : s.Reachable d :=
    (run_complete start ⟨"p", none⟩ 0 failing).trans (run_complete first ⟨"p1", none⟩ 0 succeeding)
  have hretries : (d.rulesFor ⟨"p", none⟩).shouldRetry .connection = true :=
    shouldRetry_connection "p"
  have hgoes : ∀ i < 10, ¬ (d.rulesFor ⟨"p", none⟩).Ends (failing i) i := by
    intro i hi
    have hleft : i + 1 < 11 := by omega
    exact Dispatch.not_ends_of_left hretries hleft
  have hends : (d.rulesFor ⟨"p", none⟩).Ends (failing 10) 10 := Or.inr (Nat.le_refl 11)
  have hfailed : (d.rulesFor ⟨"p", none⟩).completion (failing 10) (.ofNat (10 + 1)) =
      .failed .connection 11 :=
    if_pos hretries
  have hfirst := Dispatch.measured_follow (d := d) rfl ⟨"p", none⟩ 0 failing (by decide) hgoes hends
  have hsecond := Dispatch.measured_follow (d := d) (k := 0) rfl ⟨"p1", none⟩ 0 succeeding
    (by decide) (fun i hi => absurd hi (Nat.not_lt_zero i)) trivial
  have hmeasured : s.measured = Dispatch.attempts ⟨"p", none⟩ 11 ++
      [.failure "p" "exhausted", .attempt "p1" 0, .success "p1"] := by
    show [] ++ _ ++ _ = _
    rw [hfirst, hsecond, hfailed]
    rfl
  have hmetrics := (balanced_of_reachable hreach rfl).metrics
  rw [hmeasured] at hmetrics
  have hdone : ∀ run ∈ s.dispatches, run.isDone = true := by
    intro run hrun
    rcases List.mem_cons.1 hrun with rfl | hrun
    · rfl
    · rw [List.mem_singleton.1 hrun]
      rfl
  have hsize : ∀ f row, tally s.measured f row < UInt64.size := by
    intro f row
    refine (Metrics.tally_le _ f row).trans_lt ?_
    rw [hmeasured]
    decide +kernel
  have hlength : (s.dispatchesOf "p1").length = 1 := rfl
  have hhidden : s.metrics.shown .attempts ["p1", "0"] = 0 := by
    -- the eleventh attempt of "p" has taken the counter of the first one of "p1"
    have hlast : Measurement.attempt "p" 10 ∈ Dispatch.attempts ⟨"p", none⟩ 11 := by decide
    have hjoin : String.join ["p", "10"] = String.join ["p1", "0"] := by decide
    have hothers : ∀ m ∈ Dispatch.attempts ⟨"p", none⟩ 11,
        m.family = .attempts → m.values ≠ ["p1", "0"] := by decide
    have htaken := Metrics.taken_foldl hlast (Text.fingerprint_eq_of_join_eq hjoin) hothers
    rw [hmetrics, List.foldl_append]
    exact (htaken.foldl _).shown_eq_zero
  have hshared : s.metrics.shown .attempts ["p", "10"] = 2 := by
    rw [hmetrics]
    decide +kernel
  refine ⟨d, s, hreach, rfl, hdone, hsize, hlength, hhidden, hshared, fun h => ?_⟩
  have hbegun := h.begun "p1"
  rw [hlength, show toString 0 = "0" from rfl, hhidden] at hbegun
  cases hbegun

end Instrumented

end EventSourcing
