import EventSourcing.Order.Demo

/-!
# Command line

Runs the tour of the order service on a store in memory and prints the metrics.
-/

namespace EventSourcing

namespace Order

/-- The store, the metrics and the number of envelopes stamped so far. -/
structure Session where
  store : Store
  metrics : Metrics
  stamped : Nat

/-- The clock counts from the start of the machine: its readings order the events of one run. -/
def readClock : IO (Nat × Timestamp) := do
  let nanoseconds ← IO.monoNanosNow
  match Timestamp.ofUnixNanoseconds? nanoseconds with
  | some now => return (nanoseconds / 1000000, now)
  | none => throw (IO.userError "the clock is out of range")

/-- Runs a timer for a length of time. -/
def pause (d : Duration) : IO Unit :=
  IO.sleep (UInt32.ofNat (min 0xffffffff d.timerMilliseconds))

/-- A tour on a store in memory. -/
def world (session : IO.Ref Session) (jitter : Retry.JitterSource) : Demo.World IO where
  access := {
    currentVersion := fun i => return .ok ((← session.get).store.currentVersion i)
    load := fun id => return (← session.get).store.load aggregate id
    save := fun root correlation stamp => do
      let s ← session.get
      let saved := s.store.save root correlation stamp
      session.set { s with store := saved.store
                           metrics := saved.measured.foldl Metrics.record s.metrics }
      return (saved.result, saved.root) }
  around := {
    pause := pause
    measure := fun what => session.modify fun s => { s with metrics := s.metrics.record what } }
  readings := do
    let (milliseconds, now) ← readClock
    let stamped := (← session.get).stamped
    session.modify fun s => { s with stamped := s.stamped + 1 <<< 20 }
    return ⟨now, fun version => ⟨.timeOrdered milliseconds (stamped + version), now⟩⟩
  fresh := do
    let bytes ← IO.getRandomBytes 16
    return .random (bytes.toList.foldl (fun n b => n * 256 + b.toNat) 0)
  jitter := jitter
  exposition := return (← session.get).metrics.exposition

end Order

end EventSourcing

open EventSourcing in
def main : IO UInt32 := do
  let session ← IO.mkRef (⟨Store.empty, Metrics.empty, 0⟩ : Order.Session)
  let bytes ← IO.getRandomBytes 8
  let seed := bytes.toList.foldl (fun n b => n * 256 + b.toNat) 0
  match ← (Order.Demo.run (Order.world session (.uniform (.ofNat seed)))
      (fun key => IO.getEnv key)).run with
  | .ok text =>
    IO.println text
    return 0
  | .error message =>
    IO.println ("Error: " ++ message)
    return 1
