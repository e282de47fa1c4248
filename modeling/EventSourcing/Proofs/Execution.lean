import EventSourcing.Proofs.Recording

/-!
# Commands of several events

A command can lead to several events. They are recorded one after another, and the first that cannot
be applied ends the row in its middle: the events before it are applied, it is buffered itself, and
nothing is left of the events behind it.

* `Aggregate.FailsAt` is the place of that event, said of the events alone. Events that fail at no
  place are all accepted (`Aggregate.accepts_of_forall_not_failsAt`).
* `Root.recordAll_append` goes through accepted events; `Root.recordAll_of_accepts` and
  `Root.recordAll_of_failsAt` are the two ways in which a row ends.
* `Root.execute_outcome` is the outcome of a command, for every root and every aggregate.
-/

namespace EventSourcing

namespace Aggregate

/-- Applied in order, the events before a place are accepted and the one that stands there is
refused. -/
def FailsAt (A : Aggregate) (state : A.State) (events : List A.Event) (k : Nat) (e : A.Error) :
    Prop :=
  ∃ event, events[k]? = some event ∧ A.Breaks state (events.take k) event e

variable {A : Aggregate} {state : A.State} {events : List A.Event} {k : Nat} {e : A.Error}

/-- What fails behind an accepted event fails one place later with it. -/
theorem FailsAt.cons {event : A.Event} (h : (A.apply event state).1 = .ok ())
    (hfails : A.FailsAt (A.apply event state).2 events k e) :
    A.FailsAt state (event :: events) (k + 1) e := by
  obtain ⟨failing, hplace, haccepts, hrefuses⟩ := hfails
  exact ⟨failing, hplace, ⟨h, haccepts⟩, hrefuses⟩

theorem accepts_of_forall_not_failsAt (h : ∀ k e, ¬ A.FailsAt state events k e) :
    A.Accepts state events := by
  induction events generalizing state with
  | nil => trivial
  | cons event rest ih =>
    cases happly : (A.apply event state).1 with
    | error e => exact absurd ⟨event, rfl, trivial, happly⟩ (h 0 e)
    | ok u => exact ⟨happly, ih fun k e hfails => h (k + 1) e (hfails.cons happly)⟩

/-- The events up to the place of the failure, the ones before it apart. -/
theorem FailsAt.exists_eq (h : A.FailsAt state events k e) :
    ∃ event rest, events = events.take k ++ event :: rest ∧
      events.take (k + 1) = events.take k ++ [event] ∧ (events.take k).length = k ∧
      A.Breaks state (events.take k) event e := by
  obtain ⟨event, hplace, hbreaks⟩ := h
  obtain ⟨hlt, hevent⟩ := List.getElem?_eq_some_iff.1 hplace
  refine ⟨event, events.drop (k + 1), ?_, ?_, ?_, hbreaks⟩
  · rw [← hevent, ← List.drop_eq_getElem_cons hlt, List.take_append_drop]
  · rw [← hevent, List.take_succ_eq_append_getElem hlt]
  · rw [List.length_take, Nat.min_eq_left (Nat.le_of_lt hlt)]

end Aggregate

namespace Root

variable {A : Aggregate} {root : Root A} {events : List A.Event}

/-! ## Rows of recordings that stop -/

/-- A root on which events have been recorded that were all accepted. -/
def extended (root : Root A) (events : List A.Event) : Root A :=
  { root with
    state := A.fold root.state events
    uncommitted := root.uncommitted ++ events
    version := root.version + events.length }

theorem extended_nil (root : Root A) : root.extended [] = root := by
  simp only [extended, Aggregate.fold_nil, List.append_nil, List.length_nil, Nat.add_zero]

/-- A row of recordings goes through accepted events and on with the ones behind them. -/
theorem recordAll_append {xs : List A.Event} (h : A.Accepts root.state xs) (ys : List A.Event) :
    root.recordAll (xs ++ ys) = (root.extended xs).recordAll ys := by
  induction xs generalizing root with
  | nil => rw [extended_nil, List.nil_append]
  | cons event rest ih =>
    rw [List.cons_append, recordAll, record_of_ok h.1]
    -- the induction starts from the root after the first event
    show Root.recordAll _ (rest ++ ys) = _
    rw [ih h.2]
    congr 1
    simp only [extended, Aggregate.fold_cons, List.append_assoc, List.singleton_append,
      List.length_cons, Nat.add_assoc, Nat.add_comm 1]

theorem recordAll_of_accepts (h : A.Accepts root.state events) :
    root.recordAll events = (.ok (), root.extended events) := by
  have hrest := recordAll_append h []
  rwa [List.append_nil, recordAll] at hrest

/-- The row ends with the event that is refused: the ones before it count as versions, it does not,
and what is left of the state is what its application left. -/
theorem recordAll_of_failsAt {k : Nat} {e : A.Error} (h : A.FailsAt root.state events k e) :
    root.recordAll events = (.error e, { root with
      state := A.fold root.state (events.take (k + 1))
      uncommitted := root.uncommitted ++ events.take (k + 1)
      version := root.version + k
      corrupted := true }) := by
  obtain ⟨event, rest, hsplit, htake, hlength, haccepts, hrefuses⟩ := h.exists_eq
  have hrow := recordAll_append haccepts (event :: rest)
  have hrecord : (root.extended (events.take k)).record event = (.error e, _) :=
    record_of_error hrefuses
  rw [← hsplit, recordAll, hrecord] at hrow
  rw [hrow, htake, Aggregate.fold_concat]
  simp only [extended, List.append_assoc, hlength]

/-! ## Commands -/

theorem execute_of_decide_ok {now : Timestamp} {command : A.Command}
    (h : A.decide now root.state command = .ok events) :
    root.execute now command =
      ((root.recordAll events).1.map fun _ => events.length, (root.recordAll events).2) := by
  rw [execute, h]
  dsimp only
  split
  · next heq =>
    rw [heq]
    rfl
  · next heq =>
    rw [heq]
    rfl

/-- The outcome of a command, whatever the aggregate and the root, a corrupted one included.

* A command that is rejected changes nothing.
* If all events of a command can be applied in order, they are all counted, buffered and applied.
* If the event at place `k` is the first that cannot, its error is the answer. The `k` events before
  it count as versions, these and itself are buffered, and the root is corrupted.

Neither the committed version nor the identifier changes, and only a failure touches the mark of
corruption. -/
theorem execute_outcome (root : Root A) (now : Timestamp) (command : A.Command) :
    match A.decide now root.state command with
    | .error e => root.execute now command = (.error e, root)
    | .ok events =>
      ((∀ k e, ¬ A.FailsAt root.state events k e) →
        root.execute now command = (.ok events.length, { root with
          state := A.fold root.state events
          uncommitted := root.uncommitted ++ events
          version := root.version + events.length })) ∧
      ∀ k e, A.FailsAt root.state events k e →
        root.execute now command = (.error e, { root with
          state := A.fold root.state (events.take (k + 1))
          uncommitted := root.uncommitted ++ events.take (k + 1)
          version := root.version + k
          corrupted := true }) := by
  cases hdecide : A.decide now root.state command with
  | error e => exact execute_of_decide_error hdecide
  | ok events =>
    have hexecute := execute_of_decide_ok hdecide
    refine ⟨fun hnone => ?_, fun k e hfails => ?_⟩
    · have haccepts := Aggregate.accepts_of_forall_not_failsAt hnone
      rw [hexecute, recordAll_of_accepts haccepts]
      rfl
    · rw [hexecute, recordAll_of_failsAt hfails]
      rfl

end Root

end EventSourcing
