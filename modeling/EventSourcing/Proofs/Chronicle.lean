import EventSourcing.Order.Decision
import EventSourcing.Proofs.Streams
import Mathlib.Data.List.DropRight

/-!
# The chronicle of a root

A root holds two counts and a buffer, and five operations move them. What they have to come to is
said by a chronicle, the list of all that has happened to the root: events that were recorded and
applied, or recorded and refused, and buffers that were handed out, stored or forgotten. The
chronicle is written from what the aggregate answers, never from the counts.

* `Root.Action` is anything that can be done with a root, a save to any store included, and
  `Action.chronicle` tells what a run of actions does.
* `Root.Tells` ties a root to its history and its chronicle. `Tells.perform` is the one step of the
  invariant, and `Root.tells_of_begins` carries it over every run.
* `Root.accounts_of_run` is what follows for the counts, the buffer and the state.
-/

namespace EventSourcing

namespace Root

variable {A : Aggregate}

/-- A root as it comes into use, with the history that it was made from. -/
inductive Begins : List A.Event → Root A → Prop
  | new (id : A.Id) : Begins [] (Root.new id)
  | replay {id : A.Id} {history : List A.Event} {root : Root A}
      (h : Root.replay id history = .ok root) : Begins history root
  | load {store : Store} {id : A.Id} {history : List A.Event} {root : Root A}
      (h : store.load A id = .ok root)
      (hcarries : List.Forall₂ (Envelope.Carries A.schema) (store.stream id.identity) history) :
      Begins history root

/-- However a root comes into use, its history can be replayed and leads to it. -/
theorem Begins.eq_ofHistory {history : List A.Event} {root : Root A} (h : Begins history root) :
    A.Accepts A.initial history ∧ root = ofHistory root.id history := by
  cases h with
  | new id => exact ⟨trivial, rfl⟩
  | replay h =>
    obtain ⟨haccepts, rfl⟩ := replay_eq_ok_iff.1 h
    exact ⟨haccepts, rfl⟩
  | load h hcarries =>
    obtain ⟨-, events, hrecords, rfl⟩ := Store.load_eq_ok_iff.1 h
    obtain rfl := Envelope.forall₂_carries_unique hcarries hrecords.carries
    exact ⟨hrecords.accepts, rfl⟩

/-- Something that happens to a root. -/
inductive Occurrence (A : Aggregate) where
  /-- An event is recorded and applied. -/
  | applied (event : A.Event)
  /-- An event is recorded, but it cannot be applied. -/
  | refused (event : A.Event)
  /-- The recorded events are handed to the holder of the root. -/
  | drained (events : List A.Event)
  /-- The recorded events are appended to a stream. -/
  | stored (events : List A.Event)
  /-- The recorded events are dropped. -/
  | forgotten

namespace Occurrence

/-- The event that is recorded, applied or not. -/
def recorded? : Occurrence A → Option A.Event
  | applied event | refused event => some event
  | _ => none

/-- Whether an event is recorded; everything else empties the buffer. -/
def isRecording (o : Occurrence A) : Bool := o.recorded?.isSome

def isApplied : Occurrence A → Bool
  | applied _ => true
  | _ => false

/-- The events that are taken out of the buffer and kept. -/
def taken : Occurrence A → List A.Event
  | drained events | stored events => events
  | _ => []

end Occurrence

/-- All that has happened to a root, in order. -/
abbrev Chronicle (A : Aggregate) := List (Occurrence A)

namespace Chronicle

/-- All recorded events in order, the refused ones included. -/
def recorded (c : Chronicle A) : List A.Event := c.filterMap Occurrence.recorded?

/-- The number of successful applications. -/
def applications (c : Chronicle A) : Nat := c.countP Occurrence.isApplied

/-- What has happened since the buffer was last emptied. -/
def pending (c : Chronicle A) : Chronicle A := c.rtakeWhile Occurrence.isRecording

/-- The lists that were handed out or stored, one behind the other. -/
def taken (c : Chronicle A) : List A.Event := c.flatMap Occurrence.taken

variable (c : Chronicle A) (o : Occurrence A)

theorem recorded_concat : recorded (c ++ [o]) = c.recorded ++ o.recorded?.toList := by
  rw [recorded, List.filterMap_append]
  cases ho : o.recorded? <;> simp [recorded, ho]

theorem applications_concat :
    applications (c ++ [o]) = c.applications + if o.isApplied then 1 else 0 := by
  rw [applications, List.countP_append, List.countP_singleton, applications]

theorem applications_le : c.applications ≤ c.recorded.length := by
  rw [applications, recorded, List.length_filterMap_eq_countP]
  apply List.countP_mono_left
  intro o ho happlied
  cases o <;> first | rfl | cases happlied

/-- Without a refused event every recorded one counts. -/
theorem applications_of_not_refused (h : ∀ event, .refused event ∉ c) :
    c.applications = c.recorded.length := by
  rw [applications, recorded, List.length_filterMap_eq_countP]
  apply List.countP_congr
  intro o ho
  cases o with
  | refused event => exact absurd ho (h event)
  | _ => rfl

theorem taken_concat : taken (c ++ [o]) = c.taken ++ o.taken := by
  rw [taken, List.flatMap_append, List.flatMap_singleton, taken]

theorem pending_concat :
    pending (c ++ [o]) = if o.isRecording then c.pending ++ [o] else [] :=
  List.rtakeWhile_concat ..

end Chronicle

/-! ## Runs -/

/-- What recording events in order does, up to the first that cannot be applied. -/
def recordings (state : A.State) : List A.Event → Chronicle A
  | [] => []
  | event :: rest =>
    match (A.apply event state).1 with
    | .ok () => .applied event :: recordings (A.apply event state).2 rest
    | .error _ => [.refused event]

theorem isRecording_of_mem_recordings {o : Occurrence A} {state : A.State} {events : List A.Event}
    (h : o ∈ recordings state events) : o.isRecording = true := by
  induction events generalizing state with
  | nil => cases h
  | cons event rest ih =>
    rw [recordings] at h
    split at h
    · rcases List.mem_cons.1 h with rfl | h
      · rfl
      · exact ih h
    · rw [List.mem_singleton.1 h]
      rfl

/-- Anything that can be done with a root. -/
inductive Action (A : Aggregate) where
  | record (event : A.Event)
  | execute (now : Timestamp) (command : A.Command)
  | drain
  | markCommitted
  | save (store : Store) (correlation : Uuid) (stamp : Nat → Stamp)

namespace Action

/-- The root after an action. -/
def perform (root : Root A) : Action A → Root A
  | record event => (root.record event).2
  | execute now command => (root.execute now command).2
  | drain => root.drain.2
  | markCommitted => root.markCommitted
  | save store correlation stamp => (store.save root correlation stamp).root

/-- What an action does, by what the aggregate and the store answer. -/
def occurrences (root : Root A) : Action A → Chronicle A
  | record event => recordings root.state [event]
  | execute now command =>
    match A.decide now root.state command with
    | .ok events => recordings root.state events
    | .error _ => []
  | drain => [.drained root.drain.1]
  | markCommitted => [.forgotten]
  | save store correlation stamp =>
    if (store.save root correlation stamp).result.toBool && root.hasUncommitted then
      [.stored root.uncommitted]
    else []

/-- The root after a run of actions. -/
def performAll (root : Root A) (actions : List (Action A)) : Root A :=
  actions.foldl perform root

/-- What a run of actions does. -/
def chronicle (root : Root A) : List (Action A) → Chronicle A
  | [] => []
  | action :: rest => action.occurrences root ++ chronicle (action.perform root) rest

/-- A save stores the whole buffer and leaves the root drained, or it does nothing to the root. -/
theorem save_cases (root : Root A) (store : Store) (correlation : Uuid) (stamp : Nat → Stamp) :
    ((save store correlation stamp).perform root = root ∧
        (save store correlation stamp).occurrences root = []) ∨
      root.corrupted = false ∧ (save store correlation stamp).perform root = root.markCommitted ∧
        (save store correlation stamp).occurrences root = [.stored root.uncommitted] := by
  rcases Store.save_cases store root correlation stamp with
    ⟨-, hroot, hempty⟩ | ⟨envelopes, hcorrupted, hbuffer, -, -, hsave⟩
  · refine Or.inl ⟨hroot, if_neg ?_⟩
    cases hresult : (store.save root correlation stamp).result with
    | error fault => exact Bool.false_ne_true
    | ok version => simp [Root.hasUncommitted, hempty version hresult]
  · refine Or.inr ⟨hcorrupted, congrArg Saved.root hsave, if_pos ?_⟩
    rw [hsave]
    simp [Root.hasUncommitted, hbuffer, Except.toBool]

/-- What an action can do besides recording: a drain hands the buffer out, a commit mark forgets it,
and a save of a root that is not corrupted stores it. -/
theorem mem_occurrences {root : Root A} {action : Action A} {o : Occurrence A}
    (h : o ∈ action.occurrences root) :
    o.isRecording = true ∨ o = .drained root.uncommitted ∨
      (o = .forgotten ∧ action = .markCommitted) ∨
      (o = .stored root.uncommitted ∧ root.corrupted = false) := by
  cases action with
  | record event => exact Or.inl (isRecording_of_mem_recordings h)
  | execute now command =>
    rw [occurrences] at h
    split at h
    · exact Or.inl (isRecording_of_mem_recordings h)
    · cases h
  | drain => exact Or.inr (Or.inl (List.mem_singleton.1 h))
  | markCommitted => exact Or.inr (Or.inr (Or.inl ⟨List.mem_singleton.1 h, rfl⟩))
  | save store correlation stamp =>
    rcases save_cases root store correlation stamp with ⟨-, hnone⟩ | ⟨hcorrupted, -, hstored⟩
    · rw [hnone] at h
      cases h
    · rw [hstored] at h
      exact Or.inr (Or.inr (Or.inr ⟨List.mem_singleton.1 h, hcorrupted⟩))

/-- Only a commit mark forgets events. -/
theorem markCommitted_mem {root : Root A} {actions : List (Action A)}
    (h : .forgotten ∈ chronicle root actions) : .markCommitted ∈ actions := by
  induction actions generalizing root with
  | nil => cases h
  | cons action rest ih =>
    rcases List.mem_append.1 h with hnow | hlater
    · rcases mem_occurrences hnow with hrecording | hdrained | ⟨-, rfl⟩ | ⟨hstored, -⟩
      · cases hrecording
      · cases hdrained
      · exact List.mem_cons_self
      · cases hstored
    · exact List.mem_cons_of_mem action (ih hlater)

end Action

/-! ## What a root tells -/

/-- A root is what a history and a chronicle lead to. The counts go by successful applications: the
buffer of a corrupted root is longer than what its version has advanced by. -/
structure Tells (history : List A.Event) (c : Chronicle A) (root : Root A) : Prop where
  version : root.version = history.length + c.applications
  committed : root.committed + c.pending.applications = root.version
  uncommitted : root.uncommitted = c.pending.recorded
  state : root.state = A.fold A.initial (history ++ c.recorded)
  accepts : root.corrupted = false → A.Accepts A.initial (history ++ c.recorded)
  corrupted : root.corrupted = true ↔ ∃ event, .refused event ∈ c
  taken : .forgotten ∉ c → c.taken ++ root.uncommitted = c.recorded

namespace Tells

variable {history : List A.Event} {c : Chronicle A} {root : Root A}

theorem ofHistory (id : A.Id) (h : A.Accepts A.initial history) :
    Tells history [] (Root.ofHistory id history) where
  version := rfl
  committed := rfl
  uncommitted := rfl
  state := congrArg _ (List.append_nil history).symm
  accepts _ := by
    rw [show Chronicle.recorded ([] : Chronicle A) = [] from rfl, List.append_nil]
    exact h
  corrupted := by simp [Root.ofHistory]
  taken _ := rfl

/-- An event that is recorded goes to the end of the buffer, and the state goes on from it. Whether
it counts and whether the root stays sound is left to its application. -/
theorem recording (h : Tells history c root) {event : A.Event} {o : Occurrence A}
    (ho : o.recorded? = some event)
    (hversion : (root.record event).2.version = root.version + if o.isApplied then 1 else 0)
    (hcorrupted : (root.record event).2.corrupted = true ↔
      root.corrupted = true ∨ ∃ e, .refused e = o)
    (haccepts : (root.record event).2.corrupted = false →
      root.corrupted = false ∧ (A.apply event root.state).1 = .ok ()) :
    Tells history (c ++ [o]) (root.record event).2 := by
  have hrecorded (c : Chronicle A) : Chronicle.recorded (c ++ [o]) = c.recorded ++ [event] := by
    rw [Chronicle.recorded_concat, ho]
    rfl
  have hpending : Chronicle.pending (c ++ [o]) = c.pending ++ [o] := by
    rw [Chronicle.pending_concat, Occurrence.isRecording, ho]
    rfl
  constructor
  case version => rw [hversion, Chronicle.applications_concat, h.version, Nat.add_assoc]
  case committed =>
    rw [record_committed, hversion, hpending, Chronicle.applications_concat, ← h.committed,
      Nat.add_assoc]
  case uncommitted => rw [record_uncommitted, hpending, hrecorded, h.uncommitted]
  case state =>
    rw [record_state, hrecorded, ← List.append_assoc, Aggregate.fold_concat, ← h.state]
  case accepts =>
    intro hsound
    obtain ⟨hbefore, happly⟩ := haccepts hsound
    rw [hrecorded, ← List.append_assoc, Aggregate.accepts_concat, ← h.state]
    exact ⟨h.accepts hbefore, happly⟩
  case corrupted =>
    rw [hcorrupted, h.corrupted]
    simp only [List.mem_append, List.mem_singleton, exists_or]
  case taken =>
    intro hforgotten
    have hc : .forgotten ∉ c := fun hmem => hforgotten (List.mem_append_left _ hmem)
    have hnone : o.taken = [] := by cases o <;> first | rfl | cases ho
    rw [record_uncommitted, hrecorded, Chronicle.taken_concat, hnone, List.append_nil,
      ← List.append_assoc, h.taken hc]

/-- One event is recorded: it counts if it can be applied, and otherwise corrupts the root. -/
theorem record (h : Tells history c root) (event : A.Event) :
    Tells history (c ++ recordings root.state [event]) (root.record event).2 := by
  rw [recordings]
  cases happly : (A.apply event root.state).1 with
  | ok u =>
    have hrecord := congrArg Prod.snd (record_of_ok happly)
    refine h.recording rfl ?_ ?_ ?_
    · rw [hrecord]
      rfl
    · simp [hrecord]
    · rw [hrecord]
      exact fun hsound => ⟨hsound, happly⟩
  | error e =>
    have hrecord := congrArg Prod.snd (record_of_error happly)
    refine h.recording rfl ?_ ?_ ?_
    · rw [hrecord]
      rfl
    · simp [hrecord]
    · rw [hrecord]
      exact nofun

/-- Many events are recorded one by one; the first that cannot be applied is the last. -/
theorem recordAll (h : Tells history c root) (events : List A.Event) :
    Tells history (c ++ recordings root.state events) (root.recordAll events).2 := by
  induction events generalizing c root with
  | nil =>
    rw [recordings, List.append_nil]
    exact h
  | cons event rest ih =>
    have hfirst := h.record event
    rw [recordings] at hfirst ⊢
    rw [Root.recordAll]
    cases happly : (A.apply event root.state).1 with
    | ok u =>
      rw [happly] at hfirst
      have hrest := ih hfirst
      rw [record_of_ok happly, List.append_assoc] at hrest
      rw [record_of_ok happly]
      exact hrest
    | error e =>
      -- the rest of the events is neither recorded nor in the chronicle
      rw [happly, record_of_error happly] at hfirst
      rw [record_of_error happly]
      exact hfirst

theorem execute (h : Tells history c root) (now : Timestamp) (command : A.Command) :
    Tells history (c ++ Action.occurrences root (.execute now command))
      (root.execute now command).2 := by
  rw [Action.occurrences, Root.execute]
  cases A.decide now root.state command with
  | error e =>
    rw [List.append_nil]
    exact h
  | ok events =>
    have hall := h.recordAll events
    show Tells history (c ++ recordings root.state events) _
    -- the command is answered by whether all events were applied, the root is the same
    simp only
    split
    · next heq =>
      rw [heq] at hall
      exact hall
    · next heq =>
      rw [heq] at hall
      exact hall

/-- A buffer that is emptied, in whichever way, leaves the version as it is and commits it. -/
theorem cleared (h : Tells history c root) {o : Occurrence A} (ho : o.recorded? = none)
    (htaken : o ≠ .forgotten → o.taken = root.uncommitted) :
    Tells history (c ++ [o]) root.markCommitted := by
  have hrecorded : Chronicle.recorded (c ++ [o]) = c.recorded := by
    rw [Chronicle.recorded_concat, ho]
    exact List.append_nil _
  have hpending : Chronicle.pending (c ++ [o]) = [] := by
    rw [Chronicle.pending_concat, Occurrence.isRecording, ho]
    rfl
  have happlied : o.isApplied = false := by cases o <;> first | rfl | cases ho
  constructor
  case version =>
    rw [Chronicle.applications_concat, happlied]
    exact h.version
  case committed =>
    rw [hpending]
    rfl
  case uncommitted =>
    rw [hpending]
    rfl
  case state =>
    rw [hrecorded]
    exact h.state
  case accepts =>
    rw [hrecorded]
    exact h.accepts
  case corrupted =>
    have hne (event : A.Event) : .refused event ≠ o := by
      rintro rfl
      cases ho
    simp only [List.mem_append, List.mem_singleton, hne, or_false]
    exact h.corrupted
  case taken =>
    intro hforgotten
    have hc : .forgotten ∉ c := fun hmem => hforgotten (List.mem_append_left _ hmem)
    have ho' : o ≠ .forgotten := by
      rintro rfl
      exact hforgotten (List.mem_append_right _ List.mem_cons_self)
    rw [hrecorded, Chronicle.taken_concat, htaken ho', h.taken hc]
    exact List.append_nil _

/-- One action of any kind. -/
theorem perform (h : Tells history c root) (action : Action A) :
    Tells history (c ++ action.occurrences root) (action.perform root) := by
  cases action with
  | record event => exact h.record event
  | execute now command => exact h.execute now command
  | drain => exact h.cleared rfl fun _ => rfl
  | markCommitted => exact h.cleared rfl fun hne => absurd rfl hne
  | save store correlation stamp =>
    rcases Action.save_cases root store correlation stamp with
      ⟨hroot, hnone⟩ | ⟨-, hroot, hstored⟩
    · rw [hroot, hnone, List.append_nil]
      exact h
    · rw [hroot, hstored]
      exact h.cleared rfl fun _ => rfl

theorem performAll (h : Tells history c root) (actions : List (Action A)) :
    Tells history (c ++ Action.chronicle root actions) (Action.performAll root actions) := by
  induction actions generalizing c root with
  | nil =>
    rw [Action.chronicle, List.append_nil]
    exact h
  | cons action rest ih =>
    rw [Action.chronicle, ← List.append_assoc]
    exact ih (h.perform action)

/-- The version lies between what is committed and what that and the buffer come to; as long as no
event was refused it is the latter. -/
theorem version_between (h : Tells history c root) :
    root.committed ≤ root.version ∧ root.version ≤ root.committed + root.uncommitted.length ∧
      (root.corrupted = false → root.version = root.committed + root.uncommitted.length) := by
  have hcommitted := h.committed
  have hle := c.pending.applications_le
  rw [h.uncommitted]
  refine ⟨by omega, by omega, fun hcorrupted => ?_⟩
  -- a sound root has refused nothing, neither before its buffer was last emptied nor since
  have hall : c.pending.applications = c.pending.recorded.length := by
    apply Chronicle.applications_of_not_refused
    intro event hevent
    have hrefused := h.corrupted.2 ⟨event, (List.rtakeWhile_suffix _ _).subset hevent⟩
    rw [hcorrupted] at hrefused
    cases hrefused
  omega

end Tells

/-- However a root comes into use, a run starts from its history and an empty chronicle. -/
theorem tells_of_begins {history : List A.Event} {root : Root A} (h : Begins history root)
    (actions : List (Action A)) :
    Tells history (Action.chronicle root actions) (Action.performAll root actions) := by
  obtain ⟨haccepts, hroot⟩ := h.eq_ofHistory
  have hstart : Tells history [] root := by
    rw [hroot]
    exact Tells.ofHistory root.id haccepts
  exact hstart.performAll actions

/-- What the counts, the buffer and the state of a root come to, whatever was done with it and
whatever the aggregate answered:

* the version counts the history and the successful applications, so it is at most the number of
  events;
* it lies between what is committed and what that and the buffer come to, and is the latter as long
  as no application has failed;
* the buffer is what was recorded since it was last emptied, a refused event included;
* if nothing was forgotten, what was taken and the buffer are together all recorded events;
* the state is the fold of the history and all recorded events, and each of them was accepted as
  long as no application has failed. -/
theorem accounts_of_run {history : List A.Event} {root : Root A} (h : Begins history root)
    (actions : List (Action A)) :
    let after := Action.performAll root actions
    let c := Action.chronicle root actions
    (after.version = history.length + c.applications ∧
      after.version ≤ history.length + c.recorded.length) ∧
    (after.committed ≤ after.version ∧
      after.version ≤ after.committed + after.uncommitted.length ∧
      (after.corrupted = false → after.version = after.committed + after.uncommitted.length)) ∧
    after.uncommitted = c.pending.recorded ∧
    (.markCommitted ∉ actions → c.taken ++ after.uncommitted = c.recorded) ∧
    after.state = A.fold A.initial (history ++ c.recorded) ∧
    (after.corrupted = false → A.Accepts A.initial (history ++ c.recorded)) := by
  have htells := tells_of_begins h actions
  refine ⟨⟨htells.version, ?_⟩, htells.version_between, htells.uncommitted, fun hmarked => ?_,
    htells.state, htells.accepts⟩
  · rw [htells.version]
    exact Nat.add_le_add_left (Chronicle.applications_le _) _
  · exact htells.taken fun hforgotten => hmarked (Action.markCommitted_mem hforgotten)

/-- A created order records a second creation, which is refused, and its confirmation, which is
applied all the same. Both are drained, and then it records that it is shipped. -/
theorem accounts_of_run_refused :
    let now : Timestamp := ⟨⟨1970, 1, 1, by decide, by decide⟩, 0, 0, by decide, by decide⟩
    let created : Order.aggregate.Event := Order.Event.created ⟨Uuid.nil⟩ [] now
    let confirmed : Order.aggregate.Event := Order.Event.confirmed now
    let shipped : Order.aggregate.Event := Order.Event.shipped "1Z" "post" now
    let actions : List (Action Order.aggregate) :=
      [.record created, .record confirmed, .drain, .record shipped]
    ∃ root : Root Order.aggregate, Begins [created] root ∧ .markCommitted ∉ actions ∧
      (Action.performAll root actions).corrupted = true ∧
      (Action.performAll root actions).version = 3 ∧
      (Action.performAll root actions).uncommitted = [shipped] ∧
      (Action.chronicle root actions).taken ++ [shipped] = [created, confirmed, shipped] := by
  intro now created confirmed shipped actions
  have hbegins : Begins [created] (ofHistory (A := Order.aggregate) ⟨Uuid.nil⟩ [created]) :=
    .replay rfl
  have hmarked : Action.markCommitted ∉ actions := by simp [actions]
  obtain ⟨⟨hversion, -⟩, -, hbuffer, htaken, -, -⟩ := accounts_of_run hbegins actions
  exact ⟨_, hbegins, hmarked, rfl, hversion, hbuffer, htaken hmarked⟩

end Root

end EventSourcing
