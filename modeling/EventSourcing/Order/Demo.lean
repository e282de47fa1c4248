import EventSourcing.Order.Service

/-!
# A tour of the order service

One order goes through its whole life and then refuses to be cancelled; two writers meet on a
second order and the later one is refused. What remains is the text of the metrics.
-/

namespace EventSourcing

namespace Order

namespace Demo

/-- What the tour runs on. -/
structure World (m : Type → Type) where
  access : StoreAccess aggregate m
  around : Surroundings m
  readings : m Readings
  /-- A fresh random identifier. -/
  fresh : m Uuid
  /-- Where the offsets of delays come from. -/
  jitter : Retry.JitterSource
  exposition : m String

variable {m : Type → Type} [Monad m]

/-- The result of a step, or the end of the tour with the text of the error. -/
def orStop {ε α : Type} (message : ε → String) (result : m (Except ε α)) : ExceptT String m α := do
  match ← (result : m _) with
  | .ok a => return a
  | .error e => throw (message e)

/-- An order item for a new product. -/
def freshItem (world : World m) (quantity : Int32) : m Item :=
  return ⟨← world.fresh, quantity⟩

/-- The commands of a whole life. -/
def lifecycle (world : World m) : m (List Command) := do
  let customer ← world.fresh
  let first ← freshItem world 2
  let second ← freshItem world 1
  let changed ← freshItem world 5
  return [
    .create ⟨customer⟩ [first, second],
    .updateItems [changed] (some "Customer changed quantity"),
    .confirm,
    .ship "TRACK-0001" "DHL",
    .deliver none]

/-- A root with a command executed on it. -/
def executed (world : World m) (root : Root aggregate) (command : Command) :
    m (Except Rejection (Root aggregate)) := do
  let readings ← world.readings
  match root.execute readings.now command with
  | (.ok _, root) => return .ok root
  | (.error r, _) => return .error r

/-- Performs commands on one order in turn, up to the first that fails. -/
def performAll (world : World m) (dispatcher : Dispatcher) (id : Id) (correlation : Uuid) :
    Nat → List Command → m (Except Failure Unit)
  | _, [] => return .ok ()
  | draw, command :: rest => do
    let (completion, draw) ← Service.handleWithRetry world.access world.around world.readings
      dispatcher world.jitter id command correlation draw
    match completion.toExcept with
    | .ok _ => performAll world dispatcher id correlation draw rest
    | .error failure => return .error failure

/-- The wording of an invalid policy. -/
def policyMessage (cause : Retry.PolicyError) : String :=
  (Fault.invalidPolicy cause : Fault Rejection).message Rejection.message

/-- The tour with the settings that variables give: the text of the metrics, or of the error that
ended it. -/
def run (world : World m) (lookup : String → m (Option String)) : ExceptT String m String := do
  let settings ← orStop policyMessage (Retry.Settings.ofLookup lookup)
  let backoff ← orStop policyMessage (pure (settings.build world.jitter))
  let dispatcher : Dispatcher := ⟨.backoff backoff, true⟩
  let id : Id := ⟨← (world.fresh : m _)⟩
  let correlation ← (world.fresh : m _)
  orStop Failure.message
    (do performAll world dispatcher id correlation 0 (← lifecycle world))
  let _ ← (Service.handleWithRetry world.access world.around world.readings dispatcher
    world.jitter id (.cancel (some "Too late") none) correlation 0 : m _)
  let second : Id := ⟨← (world.fresh : m _)⟩
  let customer ← (world.fresh : m _)
  let item ← (freshItem world 1 : m _)
  let readings ← (world.readings : m _)
  let _ ← orStop Failure.message
    (Service.handle world.access readings second (.create ⟨customer⟩ [item]) correlation)
  let early ← orStop Failure.message (Service.load world.access second)
  let late ← orStop Failure.message (Service.load world.access second)
  let early ← orStop Rejection.message (executed world early .confirm)
  let late ← orStop Rejection.message (executed world late .confirm)
  let readings ← (world.readings : m _)
  let _ ← orStop (Fault.message Rejection.message)
    (do return (← world.access.save early correlation readings.stamp).1)
  let _ ← (world.access.save late correlation readings.stamp : m _)
  let _ ← orStop Failure.message (Service.load world.access id)
  world.exposition

end Demo

end Order

end EventSourcing
