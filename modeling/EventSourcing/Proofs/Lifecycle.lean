import EventSourcing.Order.Decision
import EventSourcing.Proofs.Replay
import Mathlib.Computability.RegularExpressions

/-!
# The lifecycle of an order

Which events a new order can record is a regular language over the names of events, although no
part of the program writes it down: it comes from the conditions of the commands and from the
status that every event leads to.

* `Status.after?` is the automaton: the status that an event leads to, if it can be recorded.
  `execute_cases` says that a command records exactly one such event, or nothing.
* `Status.rest` is the language of each status; `matches_deriv_rest` makes it the language that the
  automaton accepts from there.
* `recorded_iff_lifecycle` puts both together, over all runs of any length.
-/

namespace EventSourcing

namespace Order

/-! ## Events that can be recorded -/

/-- The items of an event can be ordered: at least one, and a positive quantity of each. -/
def Event.Orderable : Event → Prop
  | .created _ items _ | .itemsUpdated items _ => items ≠ [] ∧ ∀ item ∈ items, 0 < item.quantity
  | _ => True

/-- The status that an event leads to when a command can lead to the event. -/
def Status.after? : Status → Event → Option Status
  | .draft, .created .. => some .created
  | .created, .itemsUpdated .. => some .created
  | .created, .confirmed _ => some .confirmed
  | .confirmed, .shipped .. => some .shipped
  | .shipped, .delivered .. => some .delivered
  | .created, .cancelled .. | .confirmed, .cancelled .. | .shipped, .cancelled .. =>
    some .cancelled
  | _, _ => none

theorem validate_eq_ok_iff {items : List Item} :
    validate items = .ok () ↔ items ≠ [] ∧ ∀ item ∈ items, 0 < item.quantity := by
  unfold validate
  cases items with
  | nil => simp
  | cons item rest =>
    simp only [List.isEmpty_cons, Bool.false_eq_true, if_false, ne_eq, reduceCtorEq,
      not_false_eq_true, true_and]
    cases hfind : (item :: rest).find? fun item => item.quantity ≤ 0 with
    | none =>
      rw [List.find?_eq_none] at hfind
      simp only [true_iff]
      intro other hother
      have hpositive := hfind other hother
      rw [decide_eq_true_eq, Int32.not_le] at hpositive
      exact hpositive
    | some other =>
      have hother := List.find?_some hfind
      rw [decide_eq_true_eq] at hother
      simp only [reduceCtorEq, false_iff, not_forall]
      exact ⟨other, List.mem_of_find?_eq_some hfind, Int32.not_lt.2 hother⟩

/-- A command leads to an event that can be ordered and that the status admits. -/
theorem decideEvent_sound {now : Timestamp} {o : Order} {c : Command} {e : Event}
    (h : decideEvent now o c = .ok e) : e.Orderable ∧ ∃ s, o.status.after? e = some s := by
  -- the status and the items are all that a command looks at
  cases c with
  | create customer items =>
    cases hstatus : o.status <;> cases hvalid : validate items <;>
      simp [decideEvent, hstatus, hvalid, bind, Except.bind, throw, throwThe, MonadExceptOf.throw,
        pure, Except.pure] at h
    cases h
    exact ⟨validate_eq_ok_iff.1 hvalid, _, rfl⟩
  | updateItems items reason =>
    cases hstatus : o.status <;> cases hvalid : validate items <;>
      simp [decideEvent, hstatus, hvalid, bind, Except.bind, throw, throwThe, MonadExceptOf.throw,
        pure, Except.pure] at h
    cases h
    exact ⟨validate_eq_ok_iff.1 hvalid, _, rfl⟩
  | confirm | ship _ _ | deliver _ | cancel _ _ =>
    cases hstatus : o.status <;> simp [decideEvent, hstatus] at h <;> cases h <;>
      exact ⟨trivial, _, rfl⟩

/-- Every such event comes from some command at some reading of the clock. -/
theorem exists_decideEvent {o : Order} {e : Event} {s : Status} (hitems : e.Orderable)
    (h : o.status.after? e = some s) : ∃ now c, decideEvent now o c = .ok e := by
  -- the events without a reading of their own can be decided at any time
  let anyTime : Timestamp := ⟨⟨1970, 1, 1, by decide, by decide⟩, 0, 0, by decide, by decide⟩
  cases e with
  | created customer items createdAt =>
    refine ⟨createdAt, .create customer items, ?_⟩
    cases hstatus : o.status <;> simp [hstatus, Status.after?] at h
    simp [decideEvent, hstatus, validate_eq_ok_iff.2 hitems, bind, Except.bind, pure, Except.pure]
  | itemsUpdated items reason =>
    refine ⟨anyTime, .updateItems items reason, ?_⟩
    cases hstatus : o.status <;> simp [hstatus, Status.after?] at h
    simp [decideEvent, hstatus, validate_eq_ok_iff.2 hitems, bind, Except.bind, pure, Except.pure]
  | confirmed confirmedAt =>
    refine ⟨confirmedAt, .confirm, ?_⟩
    cases hstatus : o.status <;> simp [hstatus, Status.after?] at h
    simp [decideEvent, hstatus]
  | shipped trackingNumber carrier shippedAt =>
    refine ⟨shippedAt, .ship trackingNumber carrier, ?_⟩
    cases hstatus : o.status <;> simp [hstatus, Status.after?] at h
    simp [decideEvent, hstatus]
  | delivered deliveredAt signature =>
    refine ⟨deliveredAt, .deliver signature, ?_⟩
    cases hstatus : o.status <;> simp [hstatus, Status.after?] at h
    simp [decideEvent, hstatus]
  | cancelled reason cancelledBy =>
    refine ⟨anyTime, .cancel reason cancelledBy, ?_⟩
    cases hstatus : o.status <;> simp [hstatus, Status.after?] at h <;>
      simp [decideEvent, hstatus]

/-- An event that a command can lead to is applied, and leads to its status. -/
theorem apply_of_after? {o : Order} {e : Event} {s : Status} (h : o.status.after? e = some s) :
    apply e o = (.ok (), o.change e) ∧ (o.change e).status = s := by
  cases hstatus : o.status <;> cases e <;> simp [hstatus, Status.after?] at h <;> subst h <;>
    simp [apply, admits, change, hstatus]

theorem decide_of_ok {now : Timestamp} {o : Order} {c : Command} {e : Event}
    (h : decideEvent now o c = .ok e) : aggregate.decide now o c = .ok [e] := by
  show Order.decide now o c = _
  rw [Order.decide, h]
  rfl

theorem decide_of_error {now : Timestamp} {o : Order} {c : Command} {r : Rejection}
    (h : decideEvent now o c = .error r) : aggregate.decide now o c = .error r := by
  show Order.decide now o c = _
  rw [Order.decide, h]
  rfl

/-- A command that leads to an event records it. -/
theorem execute_of_decideEvent {root : Root aggregate} {now : Timestamp} {c : Command} {e : Event}
    (h : decideEvent now root.state c = .ok e) {s : Status}
    (hs : Status.after? root.state.status e = some s) :
    root.execute now c = (.ok 1, (root.record e).2) ∧ (root.record e).2.state.status = s := by
  obtain ⟨happly, hstatus⟩ := apply_of_after? hs
  have hok : (aggregate.apply e root.state).1 = .ok () := congrArg Prod.fst happly
  refine ⟨Root.execute_of_decide_singleton (decide_of_ok h) hok, ?_⟩
  rw [Root.record_of_ok hok, ← hstatus]
  exact congrArg (fun result : Except Rejection Unit × Order => result.2.status) happly

/-- A command records one event that can follow in the status, or it is rejected and changes
nothing. -/
theorem execute_cases (root : Root aggregate) (now : Timestamp) (c : Command) :
    (∃ r, root.execute now c = (.error r, root)) ∨
      ∃ e s, Event.Orderable e ∧ Status.after? root.state.status e = some s ∧
        root.execute now c = (.ok 1, (root.record e).2) ∧ (root.record e).2.state.status = s := by
  cases hdecide : decideEvent now root.state c with
  | error r => exact Or.inl ⟨r, Root.execute_of_decide_error (decide_of_error hdecide)⟩
  | ok e =>
    obtain ⟨hitems, s, hs⟩ := decideEvent_sound hdecide
    exact Or.inr ⟨e, s, hitems, hs, execute_of_decideEvent hdecide hs⟩

/-! ## The language of a status -/

section

open RegularExpression

/-- The names of the events that can be recorded once an order is shipped. -/
def afterShipped : RegularExpression String :=
  1 + char "Cancelled" + char "Delivered"

def afterConfirmed : RegularExpression String :=
  1 + char "Cancelled" + char "Shipped" * afterShipped

def afterCreated : RegularExpression String :=
  star (char "ItemsUpdated") * (1 + char "Cancelled" + char "Confirmed" * afterConfirmed)

/-- The names of the events of an order from its start. -/
def lifecycle : RegularExpression String :=
  1 + char "Created" * afterCreated

end

/-- The names of the events that can still be recorded in each status. -/
def Status.rest : Status → RegularExpression String
  | .draft => lifecycle
  | .created => afterCreated
  | .confirmed => afterConfirmed
  | .shipped => afterShipped
  | .delivered | .cancelled => 1

/-- The language of what is left behind an event is the language of the status that it leads to. -/
theorem matches_deriv_rest (s : Status) (e : Event) :
    (s.rest.deriv e.name).matches' = match s.after? e with
      | some next => next.rest.matches'
      | none => 0 := by
  -- the derivatives are unions with empty parts, which the laws of languages take away
  cases s <;> cases e <;>
    simp [Status.rest, Status.after?, lifecycle, afterCreated, afterConfirmed, afterShipped,
      Event.name, RegularExpression.deriv, RegularExpression.matchEpsilon]

/-- Nothing has to follow. -/
theorem nil_mem_rest (s : Status) : [] ∈ s.rest.matches' := by
  rw [← RegularExpression.rmatch_iff_matches']
  cases s <;> decide

theorem cons_mem_rest_iff {s : Status} {e : Event} {names : List String} :
    e.name :: names ∈ s.rest.matches' ↔
      ∃ next, s.after? e = some next ∧ names ∈ next.rest.matches' := by
  rw [← RegularExpression.rmatch_iff_matches', RegularExpression.rmatch,
    RegularExpression.rmatch_iff_matches', matches_deriv_rest]
  cases s.after? e with
  | none => simp
  | some next => simp

/-! ## Runs -/

/-- What can be done with a root: run a command, or take or forget what it has recorded. -/
inductive Action where
  | execute (now : Timestamp) (command : Command)
  | drain
  | markCommitted

namespace Action

/-- The root after an action. -/
def perform (root : Root aggregate) : Action → Root aggregate
  | execute now command => (root.execute now command).2
  | drain => root.drain.2
  | markCommitted => root.markCommitted

/-- The events that an action records: what a command puts behind the events recorded before. -/
def recorded (root : Root aggregate) : Action → List Event
  | execute now command =>
    List.drop root.uncommitted.length (root.execute now command).2.uncommitted
  | _ => []

/-- The root after a run of actions. -/
def performAll (root : Root aggregate) (actions : List Action) : Root aggregate :=
  actions.foldl perform root

/-- The events that a run of actions records, whenever they were taken or forgotten. -/
def recordedAll (root : Root aggregate) : List Action → List Event
  | [] => []
  | action :: rest => action.recorded root ++ recordedAll (action.perform root) rest

theorem recorded_of_rejected {root : Root aggregate} {now : Timestamp} {c : Command}
    {r : Rejection} (h : root.execute now c = (.error r, root)) :
    (execute now c).perform root = root ∧ (execute now c).recorded root = [] := by
  refine ⟨congrArg Prod.snd h, ?_⟩
  show List.drop root.uncommitted.length (root.execute now c).2.uncommitted = []
  rw [h]
  exact List.drop_length

theorem recorded_of_accepted {root : Root aggregate} {now : Timestamp} {c : Command} {e : Event}
    (h : root.execute now c = (.ok 1, (root.record e).2)) :
    (execute now c).perform root = (root.record e).2 ∧ (execute now c).recorded root = [e] := by
  refine ⟨congrArg Prod.snd h, ?_⟩
  show List.drop root.uncommitted.length (root.execute now c).2.uncommitted = [e]
  rw [h]
  exact Root.drop_record root e

/-- What a run records from a status on is a word of that status, with items that can be ordered. -/
theorem recordedAll_mem_rest (actions : List Action) (root : Root aggregate) :
    (recordedAll root actions).map Event.name ∈ (Status.rest root.state.status).matches' ∧
      ∀ e ∈ recordedAll root actions, e.Orderable := by
  induction actions generalizing root with
  | nil => exact ⟨nil_mem_rest _, fun _ h => absurd h List.not_mem_nil⟩
  | cons action rest ih =>
    cases action with
    | drain => exact ih root.drain.2
    | markCommitted => exact ih root.markCommitted
    | execute now c =>
      rw [recordedAll]
      rcases execute_cases root now c with ⟨r, h⟩ | ⟨e, s, hitems, hs, h, hstatus⟩
      · -- a rejected command leaves the root, and so the language, as it is
        rw [(recorded_of_rejected h).1, (recorded_of_rejected h).2]
        exact ih root
      · -- the event comes first, and what follows is a word of the status that it leads to
        obtain ⟨hword, horderable⟩ := ih (root.record e).2
        rw [(recorded_of_accepted h).1, (recorded_of_accepted h).2, List.singleton_append]
        refine ⟨?_, fun x hx => ?_⟩
        · rw [List.map_cons, cons_mem_rest_iff]
          exact ⟨s, hs, hstatus ▸ hword⟩
        · rcases List.mem_cons.1 hx with rfl | hx
          · exact hitems
          · exact horderable x hx

/-- Every word of a status, with items that can be ordered, is recorded by some run. -/
theorem exists_recordedAll {events : List Event} {root : Root aggregate}
    (hword : events.map Event.name ∈ (Status.rest root.state.status).matches')
    (hitems : ∀ e ∈ events, e.Orderable) : ∃ actions, recordedAll root actions = events := by
  induction events generalizing root with
  | nil => exact ⟨[], rfl⟩
  | cons e rest ih =>
    rw [List.map_cons, cons_mem_rest_iff] at hword
    obtain ⟨s, hs, hrest⟩ := hword
    obtain ⟨now, c, hdecide⟩ := exists_decideEvent (hitems e List.mem_cons_self) hs
    obtain ⟨h, hstatus⟩ := execute_of_decideEvent hdecide hs
    rw [← hstatus] at hrest
    obtain ⟨actions, hactions⟩ := ih hrest fun x hx => hitems x (List.mem_cons_of_mem e hx)
    refine ⟨execute now c :: actions, ?_⟩
    rw [recordedAll, (recorded_of_accepted h).1, (recorded_of_accepted h).2, hactions]
    rfl

end Action

theorem after?_of_isTerminal {s : Status} (h : s.isTerminal = true) (e : Event) :
    s.after? e = none := by
  cases s <;> first | (cases e <;> rfl) | cases h

/-- The events of an order are those of its lifecycle. What a run of a new root records is a word
of the lifecycle with items that can be ordered, and every such row of events is what some run
records. Once an order is delivered or cancelled, every command is rejected and changes nothing. -/
theorem recorded_iff_lifecycle (id : Id) :
    (∀ events, (∃ actions, Action.recordedAll (Root.new id) actions = events) ↔
      events.map Event.name ∈ lifecycle.matches' ∧ ∀ e ∈ events, e.Orderable) ∧
    ∀ actions, Status.isTerminal (Action.performAll (Root.new id) actions).state.status = true →
      ∀ now c, ∃ r, (Action.performAll (Root.new id) actions).execute now c
        = (.error r, Action.performAll (Root.new id) actions) := by
  refine ⟨fun events => ⟨?_, ?_⟩, ?_⟩
  · rintro ⟨actions, rfl⟩
    exact Action.recordedAll_mem_rest actions (Root.new id)
  · rintro ⟨hword, hitems⟩
    exact Action.exists_recordedAll hword hitems
  · intro actions hterminal now c
    rcases execute_cases (Action.performAll (Root.new id) actions) now c with
      hrejected | ⟨e, s, -, hs, -, -⟩
    · exact hrejected
    · rw [after?_of_isTerminal hterminal e] at hs
      cases hs

/-- A changed order can be cancelled, and nothing follows then. -/
example :
    lifecycle.rmatch ["Created", "ItemsUpdated", "Cancelled"] = true ∧
      lifecycle.rmatch ["Created", "Cancelled", "Confirmed"] = false := by decide

end Order

end EventSourcing
