import EventSourcing.Proofs.Chronicle

/-!
# Corrupted roots

A root whose aggregate has refused a recorded event can no longer be trusted: its buffer holds what
cannot be replayed, and its state may be half changed. Emptying the buffer does not help, nor does
an event that is applied later. Such a root stays corrupted, and no store takes anything from it
again.

* `Action.not_stored_of_corrupted`: nothing that is done with a corrupted root stores events.
* `Root.corruption_absorbing` says when a root is corrupted, and what every later save of it does.
-/

namespace EventSourcing

namespace Root

variable {A : Aggregate} {history : List A.Event} {c : Chronicle A} {root : Root A}

/-- What has been refused once stays in the chronicle, so the root stays corrupted. -/
theorem Tells.corrupted_performAll (h : Tells history c root) (hcorrupted : root.corrupted = true)
    (actions : List (Action A)) : (Action.performAll root actions).corrupted = true := by
  obtain ⟨event, hevent⟩ := h.corrupted.1 hcorrupted
  exact (h.performAll actions).corrupted.2 ⟨event, List.mem_append_left _ hevent⟩

/-- Nothing that is done with a corrupted root stores events. -/
theorem Action.not_stored_of_corrupted (h : Tells history c root)
    (hcorrupted : root.corrupted = true) (actions : List (Action A)) (events : List A.Event) :
    .stored events ∉ chronicle root actions := by
  induction actions generalizing c root with
  | nil => exact List.not_mem_nil
  | cons action rest ih =>
    intro hmem
    rcases List.mem_append.1 hmem with hnow | hlater
    · rcases mem_occurrences hnow with hrecording | hdrained | ⟨hforgotten, -⟩ | ⟨-, hsound⟩
      · cases hrecording
      · cases hdrained
      · cases hforgotten
      · rw [hcorrupted] at hsound
        cases hsound
    · exact ih (h.perform action) (h.corrupted_performAll hcorrupted [action]) hlater

/-- A store that is held as a state refuses a corrupted root, whatever its buffer holds, and is left
as it is, with its counters. -/
theorem save_ofState_of_corrupted (hcorrupted : root.corrupted = true) (correlation : Uuid)
    (stamp : Nat → Stamp) (store : Store) (metrics : Metrics) :
    StoreAccess.ofState.save root correlation stamp (store, metrics)
      = ((.error (.corrupted root.identity.text), root), (store, metrics)) := by
  have hsave : StoreAccess.ofState.save root correlation stamp (store, metrics)
      = let saved := store.save root correlation stamp
        ((saved.result, saved.root), (saved.store, saved.measured.foldl Metrics.record metrics)) :=
    rfl
  rw [hsave, Store.save_of_corrupted hcorrupted]
  rfl

/-- Corruption is absorbing and contained. After any run of actions a root is corrupted exactly if
some recorded event was refused in it. Whatever is done from then on, the root stays corrupted,
every save of it is refused and changes neither root nor streams nor counters, and nothing of it is
stored. -/
theorem corruption_absorbing (h : Begins history root) (actions : List (Action A)) :
    let after := Action.performAll root actions
    (after.corrupted = true ↔ ∃ event, .refused event ∈ Action.chronicle root actions) ∧
    (after.corrupted = true → ∀ more,
      let later := Action.performAll after more
      later.corrupted = true ∧
      (∀ correlation stamp store metrics,
        StoreAccess.ofState.save later correlation stamp (store, metrics)
          = ((.error (.corrupted later.identity.text), later), (store, metrics))) ∧
      ∀ events, .stored events ∉ Action.chronicle after more) := by
  have htells := tells_of_begins h actions
  refine ⟨htells.corrupted, fun hcorrupted more => ?_⟩
  have hlater := htells.corrupted_performAll hcorrupted more
  exact ⟨hlater, save_ofState_of_corrupted hlater,
    Action.not_stored_of_corrupted htells hcorrupted more⟩

/-- A new order records that it is confirmed, which is refused, and then its creation, which is
applied. It can be drained and record more, and is still refused by a store in which nothing is
stored. -/
theorem corruption_absorbing_draft :
    let now : Timestamp := ⟨⟨1970, 1, 1, by decide, by decide⟩, 0, 0, by decide, by decide⟩
    let created : Order.aggregate.Event := Order.Event.created ⟨Uuid.nil⟩ [] now
    let confirmed : Order.aggregate.Event := Order.Event.confirmed now
    let root : Root Order.aggregate := Root.new ⟨Uuid.nil⟩
    let after := Action.performAll root [.record confirmed, .record created]
    Begins [] root ∧ after.state.status = .created ∧ after.corrupted = true ∧
      let later := Action.performAll after [.drain, .record confirmed]
      later.uncommitted = [confirmed] ∧ later.corrupted = true ∧
      ∀ correlation stamp, StoreAccess.ofState.save later correlation stamp (.empty, .empty)
        = ((.error (.corrupted later.identity.text), later), (.empty, .empty)) := by
  intro now created confirmed root after
  have hbegins : Begins [] root := .new _
  have habsorbing := corruption_absorbing hbegins [.record confirmed, .record created]
  have hcorrupted : after.corrupted = true := habsorbing.1.2 ⟨confirmed, List.mem_cons_self⟩
  obtain ⟨hlater, hsave, -⟩ := habsorbing.2 hcorrupted [.drain, .record confirmed]
  exact ⟨hbegins, rfl, hcorrupted, rfl, hlater, fun correlation stamp => hsave _ _ _ _⟩

end Root

end EventSourcing
