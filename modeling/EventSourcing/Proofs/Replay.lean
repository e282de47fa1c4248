import EventSourcing.Aggregate

/-!
# Histories of roots

The state of a root is the fold of its events. This file gives the fold a name of its own, apart
from any root, and says what every root operation does in its terms:

* `Aggregate.fold` and `Aggregate.Accepts`, the state after events and whether each of them can
  follow, with their laws over appended lists;
* `Root.replay_eq_ok_iff`: a replay succeeds exactly on accepted histories, and gives
  `Root.ofHistory`;
* `Root.record_of_ok` and `Root.record_of_error`, the two outcomes of recording;
* `Root.execute_preserves`: what recording one event preserves, a whole command preserves.
-/

namespace EventSourcing

namespace Aggregate

variable (A : Aggregate)

/-- The state after events that are applied one after another. -/
def fold (state : A.State) (events : List A.Event) : A.State :=
  events.foldl (fun state event => (A.apply event state).2) state

/-- Every one of the events can follow in the state that the ones before it lead to. -/
def Accepts (state : A.State) : List A.Event → Prop
  | [] => True
  | event :: rest => (A.apply event state).1 = .ok () ∧ Accepts (A.apply event state).2 rest

variable {A}

@[simp] theorem fold_nil (state : A.State) : A.fold state [] = state := rfl

@[simp] theorem fold_cons (state : A.State) (event : A.Event) (rest : List A.Event) :
    A.fold state (event :: rest) = A.fold (A.apply event state).2 rest := rfl

theorem fold_append (state : A.State) (xs ys : List A.Event) :
    A.fold state (xs ++ ys) = A.fold (A.fold state xs) ys := by
  rw [fold, List.foldl_append]
  rfl

theorem fold_concat (state : A.State) (xs : List A.Event) (event : A.Event) :
    A.fold state (xs ++ [event]) = (A.apply event (A.fold state xs)).2 := by
  rw [fold_append]
  rfl

theorem accepts_append {state : A.State} {xs ys : List A.Event} :
    A.Accepts state (xs ++ ys) ↔ A.Accepts state xs ∧ A.Accepts (A.fold state xs) ys := by
  induction xs generalizing state with
  | nil => simp [Accepts]
  | cons event rest ih =>
    rw [List.cons_append, Accepts, Accepts, ih, fold_cons, and_assoc]

theorem accepts_concat {state : A.State} {xs : List A.Event} {event : A.Event} :
    A.Accepts state (xs ++ [event]) ↔
      A.Accepts state xs ∧ (A.apply event (A.fold state xs)).1 = .ok () := by
  rw [accepts_append]
  simp [Accepts]

end Aggregate

namespace Root

variable {A : Aggregate}

/-- The root that a history leads to: nothing is left to store. -/
def ofHistory (id : A.Id) (history : List A.Event) : Root A where
  id := id
  version := history.length
  committed := history.length
  state := A.fold A.initial history
  uncommitted := []
  corrupted := false

/-! ## Replay -/

theorem advance_of_ok {root : Root A} {event : A.Event}
    (h : (A.apply event root.state).1 = .ok ()) :
    root.advance event = .ok { root with
      state := (A.apply event root.state).2, version := root.version + 1,
      committed := root.committed + 1 } := by
  unfold advance
  split
  · next state heq => rw [heq]
  · next e _ heq => rw [heq] at h; cases h

theorem advance_of_error {root : Root A} {event : A.Event} {e : A.Error}
    (h : (A.apply event root.state).1 = .error e) : root.advance event = .error e := by
  unfold advance
  split
  · next heq => rw [heq] at h; cases h
  · next heq => rw [heq] at h; cases h; rfl

/-- Accepted events lead to the fold of the state; both counts grow by their number. -/
theorem advanceAll_of_accepts {root : Root A} {events : List A.Event}
    (h : A.Accepts root.state events) :
    root.advanceAll events = .ok { root with
      state := A.fold root.state events, version := root.version + events.length,
      committed := root.committed + events.length } := by
  induction events generalizing root with
  | nil => rfl
  | cons event rest ih =>
    rw [advanceAll, advance_of_ok h.1]
    -- the induction starts from the root after the first event
    show Root.advanceAll _ rest = _
    rw [ih h.2]
    simp only [Aggregate.fold_cons, List.length_cons]
    congr 2 <;> omega

theorem accepts_of_advanceAll {root after : Root A} {events : List A.Event}
    (h : root.advanceAll events = .ok after) : A.Accepts root.state events := by
  induction events generalizing root with
  | nil => trivial
  | cons event rest ih =>
    rw [advanceAll] at h
    cases happly : (A.apply event root.state).1 with
    | error e =>
      rw [advance_of_error happly] at h
      cases h
    | ok u =>
      rw [advance_of_ok happly] at h
      exact ⟨happly, ih h⟩

theorem replay_of_accepts {history : List A.Event} (id : A.Id)
    (h : A.Accepts A.initial history) : replay id history = .ok (ofHistory id history) := by
  have hnew : A.Accepts (new id : Root A).state history := h
  rw [replay, advanceAll_of_accepts hnew]
  simp only [new, ofHistory, Nat.zero_add]

/-- A replay succeeds exactly when every event can follow on the ones before it. -/
theorem replay_eq_ok_iff {id : A.Id} {history : List A.Event} {root : Root A} :
    replay id history = .ok root ↔
      A.Accepts A.initial history ∧ root = ofHistory id history := by
  constructor
  · intro h
    have haccepts : A.Accepts A.initial history := accepts_of_advanceAll h
    rw [replay_of_accepts id haccepts] at h
    exact ⟨haccepts, (Except.ok.inj h).symm⟩
  · rintro ⟨haccepts, rfl⟩
    exact replay_of_accepts id haccepts

/-! ## Recording -/

theorem record_of_ok {root : Root A} {event : A.Event}
    (h : (A.apply event root.state).1 = .ok ()) :
    root.record event = (.ok (), { root with
      state := (A.apply event root.state).2, uncommitted := root.uncommitted ++ [event],
      version := root.version + 1 }) := by
  unfold record
  split
  · next state heq => rw [heq]
  · next e _ heq => rw [heq] at h; cases h

theorem record_of_error {root : Root A} {event : A.Event} {e : A.Error}
    (h : (A.apply event root.state).1 = .error e) :
    root.record event = (.error e, { root with
      state := (A.apply event root.state).2, uncommitted := root.uncommitted ++ [event],
      corrupted := true }) := by
  unfold record
  split
  · next heq => rw [heq] at h; cases h
  · next heq => rw [heq] at h ⊢; cases h; rfl

@[simp] theorem record_id (root : Root A) (event : A.Event) :
    (root.record event).2.id = root.id := by
  unfold record
  split <;> rfl

@[simp] theorem record_committed (root : Root A) (event : A.Event) :
    (root.record event).2.committed = root.committed := by
  unfold record
  split <;> rfl

@[simp] theorem record_uncommitted (root : Root A) (event : A.Event) :
    (root.record event).2.uncommitted = root.uncommitted ++ [event] := by
  unfold record
  split <;> rfl

@[simp] theorem record_state (root : Root A) (event : A.Event) :
    (root.record event).2.state = (A.apply event root.state).2 := by
  unfold record
  split <;> next heq => rw [heq]

/-- The recorded events that were not there before. -/
theorem drop_record (root : Root A) (event : A.Event) :
    (root.record event).2.uncommitted.drop root.uncommitted.length = [event] := by
  rw [record_uncommitted, List.drop_left]

/-- What the recording of any one event preserves, the recording of many preserves. -/
theorem recordAll_preserves {P : Root A → Prop}
    (hP : ∀ root event, P root → P (root.record event).2) {root : Root A} (h : P root)
    (events : List A.Event) : P (root.recordAll events).2 := by
  induction events generalizing root with
  | nil => exact h
  | cons event rest ih =>
    rw [recordAll]
    have hrecord := hP root event h
    -- an event that cannot be applied is recorded too, and is the last one
    split
    · next heq => rw [heq] at hrecord; exact ih hrecord
    · next heq => rw [heq] at hrecord; exact hrecord

/-- What the recording of any one event preserves, every command preserves. -/
theorem execute_preserves {P : Root A → Prop}
    (hP : ∀ root event, P root → P (root.record event).2) {root : Root A} (h : P root)
    (now : Timestamp) (command : A.Command) : P (root.execute now command).2 := by
  unfold execute
  split
  · exact h
  · next events _ =>
    have hall := recordAll_preserves hP h events
    split
    · next heq => rw [heq] at hall; exact hall
    · next heq => rw [heq] at hall; exact hall

@[simp] theorem execute_id (root : Root A) (now : Timestamp) (command : A.Command) :
    (root.execute now command).2.id = root.id :=
  execute_preserves (P := fun r => r.id = root.id)
    (fun r event h => (record_id r event).trans h) rfl now command

/-- A command that leads to one event that can follow records it. -/
theorem execute_of_decide_singleton {root : Root A} {now : Timestamp} {command : A.Command}
    {event : A.Event} (hdecide : A.decide now root.state command = .ok [event])
    (happly : (A.apply event root.state).1 = .ok ()) :
    root.execute now command = (.ok 1, (root.record event).2) := by
  rw [execute, hdecide]
  simp only [recordAll, record_of_ok happly, List.length_singleton]

theorem execute_of_decide_error {root : Root A} {now : Timestamp} {command : A.Command}
    {e : A.Error} (hdecide : A.decide now root.state command = .error e) :
    root.execute now command = (.error e, root) := by
  rw [execute, hdecide]

/-! ## Versions -/

/-- As long as every recorded event could be applied, the version counts the committed and the
recorded events. -/
def Counted (root : Root A) : Prop :=
  root.corrupted = false → root.version = root.committed + root.uncommitted.length

theorem counted_ofHistory (id : A.Id) (history : List A.Event) :
    (ofHistory id history).Counted :=
  fun _ => rfl

theorem Counted.record {root : Root A} (h : root.Counted) (event : A.Event) :
    (root.record event).2.Counted := by
  cases happly : (A.apply event root.state).1 with
  | error e =>
    rw [record_of_error happly]
    intro hcorrupted
    cases hcorrupted
  | ok u =>
    rw [record_of_ok happly]
    intro hcorrupted
    have hversion := h hcorrupted
    show root.version + 1 = root.committed + (root.uncommitted ++ [event]).length
    rw [List.length_append, List.length_singleton, hversion, Nat.add_assoc]

theorem Counted.execute {root : Root A} (h : root.Counted) (now : Timestamp)
    (command : A.Command) : (root.execute now command).2.Counted :=
  execute_preserves (P := Counted) (fun _ event hroot => hroot.record event) h now command

/-- A root that is drained has committed all that it counts. -/
theorem counted_drain (root : Root A) : root.drain.2.Counted := fun _ => rfl

theorem counted_markCommitted (root : Root A) : root.markCommitted.Counted := fun _ => rfl

end Root

end EventSourcing
