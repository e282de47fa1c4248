import EventSourcing.Proofs.Chronicle
import EventSourcing.Proofs.Lifecycle

/-!
# Commands keep orders sound

Which commands an order accepts and which events can follow is written in two places, and recording
buffers an event before it is applied. An order is sound all the same: what a command leads to can
always be applied, so a command is either rejected without a trace or records one event.

* `apply_of_decide` says that the two places agree, in every status and for every order.
* `execute_sound` lifts this to a root, `corrupted_perform` to all that is done with one besides
  recording an event past the commands.
* `commands_keep_sound` puts them together, over runs of any length.
-/

namespace EventSourcing

namespace Order

/-- An accepted command leads to one event, and that event can be applied. -/
theorem apply_of_decide {now : Timestamp} {o : Order} {c : Command} {events : List Event}
    (h : Order.decide now o c = .ok events) :
    ∃ e, events = [e] ∧ apply e o = (.ok (), o.change e) := by
  rw [Order.decide] at h
  cases hevent : decideEvent now o c with
  | error r =>
    rw [hevent] at h
    cases h
  | ok e =>
    rw [hevent] at h
    cases h
    obtain ⟨-, s, hs⟩ := decideEvent_sound hevent
    exact ⟨e, rfl, (apply_of_after? hs).1⟩

/-- An event that cannot follow leaves the order as it is. -/
theorem apply_of_refused {e : Event} {o : Order} {r : Rejection}
    (h : (apply e o).1 = .error r) : (apply e o).2 = o := by
  unfold apply at h ⊢
  split at h
  · cases h
  · rfl

/-- A command that is rejected leaves the root as it is; one that is accepted records its event, and
nothing but the state, the buffer and the version changes. -/
theorem execute_sound (root : Root aggregate) (now : Timestamp) (c : Command) :
    (∃ r, Order.decide now root.state c = .error r ∧ root.execute now c = (.error r, root)) ∨
      ∃ e : aggregate.Event, Order.decide now root.state c = .ok [e] ∧
        root.execute now c = (.ok 1, { root with
          state := Order.change root.state e, uncommitted := root.uncommitted ++ [e],
          version := root.version + 1 }) := by
  cases hdecide : Order.decide now root.state c with
  | error r => exact Or.inl ⟨r, rfl, Root.execute_of_decide_error hdecide⟩
  | ok events =>
    obtain ⟨e, rfl, happly⟩ := apply_of_decide hdecide
    have hok : (aggregate.apply e root.state).1 = .ok () := congrArg Prod.fst happly
    have hstate : (aggregate.apply e root.state).2 = Order.change root.state e :=
      congrArg Prod.snd happly
    refine Or.inr ⟨e, rfl, ?_⟩
    rw [Root.execute_of_decide_singleton hdecide hok, Root.record_of_ok hok, hstate]

/-- Whatever is done with a sound root leaves it sound, unless an event is recorded on it that did
not come from a command. -/
theorem corrupted_perform {root : Root aggregate} (h : root.corrupted = false)
    {action : Root.Action aggregate} (hcommand : ∀ event, action ≠ .record event) :
    (action.perform root).corrupted = false := by
  cases action with
  | record event => exact absurd rfl (hcommand event)
  | execute now c =>
    rw [Root.Action.perform]
    rcases execute_sound root now c with ⟨r, -, hexecute⟩ | ⟨e, -, hexecute⟩
    · rw [hexecute]
      exact h
    · rw [hexecute]
      exact h
  | drain => exact h
  | markCommitted => exact h
  | save store correlation stamp =>
    rcases Root.Action.save_cases root store correlation stamp with ⟨hroot, -⟩ | ⟨-, hroot, -⟩
    · rw [hroot]
      exact h
    · rw [hroot]
      exact h

theorem corrupted_performAll {root : Root aggregate} (h : root.corrupted = false)
    {actions : List (Root.Action aggregate)} (hcommands : ∀ event, .record event ∉ actions) :
    (Root.Action.performAll root actions).corrupted = false := by
  induction actions generalizing root with
  | nil => exact h
  | cons action rest ih =>
    refine ih (corrupted_perform h fun event haction => ?_) fun event hmem => ?_
    · exact hcommands event (haction ▸ List.mem_cons_self)
    · exact hcommands event (List.mem_cons_of_mem action hmem)

/-- Commands and events agree, for orders that a run can reach and for all others:

* a command that is accepted leads to exactly one event, which can be applied to the same order;
* an event that cannot be applied leaves the order as it is;
* so a command on a sound root is rejected and changes nothing of it, or records one event, counts
  it as a version and leaves the root sound;
* so no row of commands corrupts a root, with any draining, commit marks and saves between them. -/
theorem commands_keep_sound :
    (∀ now o c events, Order.decide now o c = .ok events →
      ∃ e, events = [e] ∧ apply e o = (.ok (), o.change e)) ∧
    (∀ e o r, (apply e o).1 = .error r → (apply e o).2 = o) ∧
    (∀ root : Root aggregate, root.corrupted = false → ∀ now c,
      (∃ r, Order.decide now root.state c = .error r ∧ root.execute now c = (.error r, root)) ∨
        ∃ (e : aggregate.Event) (after : Root aggregate), Order.decide now root.state c = .ok [e] ∧
          root.execute now c = (.ok 1, after) ∧ after.corrupted = false ∧ after = { root with
            state := Order.change root.state e, uncommitted := root.uncommitted ++ [e],
            version := root.version + 1 }) ∧
    ∀ root : Root aggregate, root.corrupted = false → ∀ actions : List (Root.Action aggregate),
      (∀ event, .record event ∉ actions) →
        (Root.Action.performAll root actions).corrupted = false := by
  refine ⟨fun _ _ _ _ => apply_of_decide, fun _ _ _ => apply_of_refused,
    fun root h now c => ?_, fun root h actions => corrupted_performAll h⟩
  rcases execute_sound root now c with hrejected | ⟨e, hdecide, haccepted⟩
  · exact Or.inl hrejected
  · exact Or.inr ⟨e, _, hdecide, haccepted, h, rfl⟩

end Order

end EventSourcing
