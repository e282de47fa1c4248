import EventSourcing.Order.Decision
import EventSourcing.Store

/-!
# The order service

Handling a command takes three steps: open the order, let it decide, save it. Between the steps
other calls may reach the store; a call that comes too late is refused by the save and can be
tried again from the start.

* `Service.handle` is one such call;
* `Service.handleWithRetry` is a call under the rules of a dispatcher.
-/

namespace EventSourcing

namespace Order

/-- What a call takes from outside: a reading of the clock for its events, and the stamps for the
envelopes. -/
structure Readings where
  now : Timestamp
  stamp : Nat → Stamp

namespace Service

variable {m : Type → Type} [Monad m]

/-- The stored order. -/
def load (access : StoreAccess aggregate m) (id : Id) : m (Except Failure (Root aggregate)) := do
  match ← access.load id with
  | .ok root => return .ok root
  | .error fault => return .error (.kernel fault)

/-- The order that a command is for. A creation starts a new one if nothing is stored yet. -/
def openFor (access : StoreAccess aggregate m) (id : Id) :
    Command → m (Except Failure (Root aggregate))
  | .create .. => do
    match ← access.contains id.identity with
    | .error fault => return .error (.kernel fault)
    | .ok false => return .ok (Root.new id)
    | .ok true => load access id
  | _ => load access id

/-- Lets an open order decide a command and saves what follows; gives the new version. -/
def carryOut (access : StoreAccess aggregate m) (readings : Readings) (command : Command)
    (correlation : Uuid) (root : Root aggregate) : m (Except Failure Nat) := do
  match root.execute readings.now command with
  | (.error rejection, _) => return .error (.rejected rejection)
  | (.ok _, root) =>
    match ← access.save root correlation readings.stamp with
    | (.ok version, _) => return .ok version
    | (.error fault, _) => return .error (.kernel fault)

/-- Handles a command: opens the order and lets it carry the command out. -/
def handle (access : StoreAccess aggregate m) (readings : Readings) (id : Id) (command : Command)
    (correlation : Uuid) : m (Except Failure Nat) := do
  match ← openFor access id command with
  | .error failure => return .error failure
  | .ok root => carryOut access readings command correlation root

/-- Handles a command anew in every attempt that the dispatcher makes. `draw` counts the draws of
jitter made so far. -/
def handleWithRetry (access : StoreAccess aggregate m) (around : Surroundings m)
    (readings : m Readings) (dispatcher : Dispatcher) (jitter : Retry.JitterSource) (id : Id)
    (command : Command) (correlation : Uuid) (draw : Nat) : m (Completion Failure Nat × Nat) :=
  dispatcher.dispatch around (command.operation jitter)
    (fun _ => do handle access (← readings) id command correlation) draw

end Service

end Order

end EventSourcing
