import EventSourcing.Event

/-!
# Aggregates

An aggregate says how a state follows from events and which events a command leads to. Its root
adds identity, version and the events that are not stored yet. State comes from events alone: a
command decides, an event changes.

* `Root.replay` rebuilds a root from its history;
* `Root.record` and `Root.execute` add events; one that cannot be applied corrupts the root.
-/

namespace EventSourcing

structure Aggregate where
  State : Type
  Event : Type
  Command : Type
  Error : Type
  /-- The name of the kind of aggregate. -/
  name : String
  idKind : IdKind
  schema : EventSchema Event
  initial : State
  /-- The state after an event, or the reason why the event cannot follow; what is left of the
  state then stands beside the reason. -/
  apply : Event → State → Except Error Unit × State
  /-- The events that a command leads to at a reading of the clock. -/
  decide : Timestamp → State → Command → Except Error (List Event)

namespace Aggregate

/-- The fault type of an aggregate. -/
abbrev Fault (A : Aggregate) := EventSourcing.Fault A.Error

/-- The identifier type of an aggregate. -/
abbrev Id (A : Aggregate) := AggregateId A.idKind

end Aggregate

/-- One aggregate with its identity, its version and its events that are not stored yet. -/
structure Root (A : Aggregate) where
  id : A.Id
  /-- How many events have been applied. -/
  version : Nat
  /-- The version at the last load, draining or commit mark. -/
  committed : Nat
  state : A.State
  /-- The recorded events that are not drained, oldest first. -/
  uncommitted : List A.Event
  /-- Whether the application of a recorded event has failed. -/
  corrupted : Bool

namespace Root

variable {A : Aggregate}

/-- A root without history. -/
def new (id : A.Id) : Root A where
  id := id
  version := 0
  committed := 0
  state := A.initial
  uncommitted := []
  corrupted := false

/-- Applies an event of the history. -/
def advance (root : Root A) (event : A.Event) : Except A.Error (Root A) :=
  match A.apply event root.state with
  | (.ok (), state) =>
    .ok { root with state := state, version := root.version + 1, committed := root.committed + 1 }
  | (.error e, _) => .error e

/-- Applies events of the history in order. -/
def advanceAll (root : Root A) : List A.Event → Except A.Error (Root A)
  | [] => .ok root
  | event :: rest =>
    match root.advance event with
    | .ok root => root.advanceAll rest
    | .error e => .error e

/-- The root whose history is the given events. -/
def replay (id : A.Id) (history : List A.Event) : Except A.Error (Root A) :=
  (new id).advanceAll history

/-- The root whose history is the payloads of the given envelopes, in the order in which they
stand. -/
def replayEnvelopes (id : A.Id) (history : List (Envelope A.Event)) : Except A.Error (Root A) :=
  replay id (history.map Envelope.data)

/-- Records an event and applies it. An event that cannot be applied stays recorded, and corrupts
the root. -/
def record (root : Root A) (event : A.Event) : Except A.Error Unit × Root A :=
  let recorded := root.uncommitted ++ [event]
  match A.apply event root.state with
  | (.ok (), state) =>
    (.ok (), { root with state := state, uncommitted := recorded, version := root.version + 1 })
  | (.error e, state) =>
    (.error e, { root with state := state, uncommitted := recorded, corrupted := true })

/-- Records events in order, up to the first that cannot be applied. -/
def recordAll (root : Root A) : List A.Event → Except A.Error Unit × Root A
  | [] => (.ok (), root)
  | event :: rest =>
    match root.record event with
    | (.ok (), root) => root.recordAll rest
    | (.error e, root) => (.error e, root)

/-- Decides a command and records the events it leads to; gives their number. -/
def execute (root : Root A) (now : Timestamp) (command : A.Command) :
    Except A.Error Nat × Root A :=
  match A.decide now root.state command with
  | .error e => (.error e, root)
  | .ok events =>
    match root.recordAll events with
    | (.ok (), root) => (.ok events.length, root)
    | (.error e, root) => (.error e, root)

/-- Hands out the recorded events and counts them as committed. -/
def drain (root : Root A) : List A.Event × Root A :=
  (root.uncommitted, { root with committed := root.version, uncommitted := [] })

/-- Counts the recorded events as committed and forgets them. -/
def markCommitted (root : Root A) : Root A :=
  { root with committed := root.version, uncommitted := [] }

def hasUncommitted (root : Root A) : Bool := !root.uncommitted.isEmpty

def identity (root : Root A) : Identity := root.id.identity

/-- The diagnostic text of a root, given that of its state. -/
def diagnostic (describe : A.State → String) (root : Root A) : String :=
  Text.record "AggregateRoot" [
    ("type", Text.quoted A.name),
    ("id", root.id.diagnostic),
    ("version", toString root.version),
    ("uncommitted", toString root.uncommitted.length),
    ("corrupted", Text.flag root.corrupted),
    ("state", describe root.state)] true

end Root

end EventSourcing
