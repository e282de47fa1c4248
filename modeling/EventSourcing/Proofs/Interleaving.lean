import EventSourcing.Order.Service
import EventSourcing.Proofs.Lifecycle
import EventSourcing.Proofs.OrderCodec
import Mathlib.Logic.Function.Basic

/-!
# Interleaved calls of the order service

Each access to the store is one step, and between two of them other calls may reach the store. To
say which orders of steps there are, a call is written as a `Program`: what is left of it up to its
next access, and how it goes on with the answer. The service is generic in how the store is
reached, so its program is the service itself, run on `Program.access`.

* `Program.run` runs a program without interruption; `Call.run_handle` says that this is the call on
  a store that is held as a state.
* `Call.Phase` is what a call can still be doing, and `Call.Prepared` what it knows when it saves.
* `Call.Phase.step` is the one step of one call: it changes nothing, or it appends the event that was
  decided on the whole stream.
-/

namespace EventSourcing

/-! ## Programs -/

/-- A call of a user of a store: it is done, or it reaches the store and goes on with the answer. -/
inductive Program (A : Aggregate) (α : Type) where
  | done (result : α)
  | version (i : Identity) (next : Except A.Fault Nat → Program A α)
  | load (id : A.Id) (next : Except A.Fault (Root A) → Program A α)
  | save (root : Root A) (correlation : Uuid) (stamp : Nat → Stamp)
      (next : Except A.Fault Nat × Root A → Program A α)

namespace Program

variable {A : Aggregate} {α β : Type}

/-- One program, and then another that depends on its result. -/
def bind (p : Program A α) (f : α → Program A β) : Program A β :=
  match p with
  | done a => f a
  | version i next => version i fun answer => (next answer).bind f
  | load id next => load id fun answer => (next answer).bind f
  | save root correlation stamp next =>
    save root correlation stamp fun answer => (next answer).bind f

instance : Monad (Program A) where
  pure := done
  bind := bind

/-- Each access to the store is one step of a program. -/
def access : StoreAccess A (Program A) where
  currentVersion i := version i done
  load id := load id done
  save root correlation stamp := save root correlation stamp done

/-- The next access of a program, answered by a store that is held as a state. -/
def step : Program A α → StateM (Store × Metrics) (Program A α)
  | done a => return done a
  | version i next => do return next (← StoreAccess.ofState.currentVersion i)
  | load id next => do return next (← StoreAccess.ofState.load id)
  | save root correlation stamp next => do
    return next (← StoreAccess.ofState.save root correlation stamp)

/-- The result of a program that has come to its end. -/
def result? : Program A α → Option α
  | done a => some a
  | _ => none

theorem eq_done_of_result? {p : Program A α} {a : α} (h : p.result? = some a) : p = done a := by
  cases p with
  | done b =>
    cases h
    rfl
  | _ => cases h

/-- A whole program without interruption. -/
def run : Program A α → StateM (Store × Metrics) α
  | done a => return a
  | version i next => do (next (← StoreAccess.ofState.currentVersion i)).run
  | load id next => do (next (← StoreAccess.ofState.load id)).run
  | save root correlation stamp next => do
    (next (← StoreAccess.ofState.save root correlation stamp)).run

theorem run_save (root : Root A) (correlation : Uuid) (stamp : Nat → Stamp)
    (next : Except A.Fault Nat × Root A → Program A α) (store : Store) (metrics : Metrics) :
    let saved := store.save root correlation stamp
    (save root correlation stamp next).run (store, metrics)
      = (next (saved.result, saved.root)).run
          (saved.store, saved.measured.foldl Metrics.record metrics) := rfl

theorem step_save (root : Root A) (correlation : Uuid) (stamp : Nat → Stamp)
    (next : Except A.Fault Nat × Root A → Program A α) (store : Store) (metrics : Metrics) :
    let saved := store.save root correlation stamp
    (save root correlation stamp next).step (store, metrics)
      = (next (saved.result, saved.root),
          (saved.store, saved.measured.foldl Metrics.record metrics)) := rfl

theorem run_bind (p : Program A α) (f : α → Program A β) :
    (p >>= f).run = p.run >>= fun a => (f a).run := by
  show (p.bind f).run = _
  induction p with
  | done a => rfl
  -- an access is the same in both, so what is left is the rest of the program
  | version i next ih | load id next ih | save root correlation stamp next ih =>
    simp only [bind, run, ih, bind_assoc]

end Program

/-! ## Calls -/

namespace Order

/-- An order of which nothing is stored is not found. -/
theorem load_of_absent {store : Store} {id : Id} (h : store.stream id.identity = []) :
    store.load aggregate id = .error (.notFound id.identity.text) :=
  Store.load_of_stream_eq_nil h

/-- An order of which something is stored is loaded as its history leaves it. -/
theorem load_of_recorded {store : Store} {id : Id} {events : List Event}
    (hstream : store.stream id.identity ≠ [])
    (h : aggregate.Records (store.stream id.identity) events) :
    store.load aggregate id = .ok (Root.ofHistory id events) :=
  Store.load_of_records hstream h

/-- A call of the service with all that it takes from outside. -/
structure Call where
  id : Id
  command : Command
  correlation : Uuid
  readings : Readings

/-- Whether a command starts an order. -/
def Command.isCreate : Command → Bool
  | .create .. => true
  | _ => false

namespace Call

/-- The call through a given access to the store. -/
def handle {m : Type → Type} [Monad m] (c : Call) (access : StoreAccess aggregate m) :
    m (Except Failure Nat) :=
  Service.handle access c.readings c.id c.command c.correlation

theorem run_load (id : Id) :
    (Service.load Program.access id).run = Service.load StoreAccess.ofState id := by
  unfold Service.load
  rw [Program.run_bind]
  refine congrArg _ (funext fun answer => ?_)
  cases answer <;> rfl

theorem run_openFor (id : Id) (command : Command) :
    (Service.openFor Program.access id command).run
      = Service.openFor StoreAccess.ofState id command := by
  cases command with
  | create customer items =>
    have hcontains : (Program.access.contains id.identity : Program aggregate _).run
        = StoreAccess.ofState.contains id.identity := by
      unfold StoreAccess.contains
      rw [Program.run_bind]
      refine congrArg _ (funext fun answer => ?_)
      cases answer <;> rfl
    unfold Service.openFor
    rw [Program.run_bind, hcontains]
    refine congrArg _ (funext fun answer => ?_)
    split
    · rfl
    · rfl
    · exact run_load id
  | _ => exact run_load id

theorem run_carryOut (c : Call) (root : Root aggregate) :
    (Service.carryOut Program.access c.readings c.command c.correlation root).run
      = Service.carryOut StoreAccess.ofState c.readings c.command c.correlation root := by
  unfold Service.carryOut
  split
  · rfl
  · rw [Program.run_bind]
    refine congrArg _ (funext fun answer => ?_)
    split <;> rfl

/-- Without interruption a program does what the call does on the state. -/
theorem run_handle (c : Call) : (c.handle Program.access).run = c.handle StoreAccess.ofState := by
  unfold handle Service.handle
  rw [Program.run_bind, run_openFor]
  refine congrArg _ (funext fun opening => ?_)
  cases opening with
  | error failure => rfl
  | ok root => exact run_carryOut c root

/-- What is left of a call when its order is open. -/
def carryOut {m : Type → Type} [Monad m] (c : Call) (access : StoreAccess aggregate m)
    (root : Root aggregate) : m (Except Failure Nat) :=
  Service.carryOut access c.readings c.command c.correlation root

/-- What is left of a call when the store has answered a load. -/
def opened (c : Call) : Except aggregate.Fault (Root aggregate) →
    Program aggregate (Except Failure Nat)
  | .ok root => c.carryOut Program.access root
  | .error fault => .done (.error (.kernel fault))

/-- What is left of a creation when the store has answered whether the order is there. -/
def asked (c : Call) : Except aggregate.Fault Nat → Program aggregate (Except Failure Nat)
  | .ok version =>
    if 0 < version then .load c.id c.opened else c.carryOut Program.access (Root.new c.id)
  | .error fault => .done (.error (.kernel fault))

/-- What an open order, or the failure to open one, leads to. -/
def proceed (c : Call) : Except Failure (Root aggregate) → Program aggregate (Except Failure Nat)
  | .ok root => c.carryOut Program.access root
  | .error failure => .done (.error failure)

theorem bind_load (c : Call) :
    (Service.load Program.access c.id).bind c.proceed = .load c.id c.opened := by
  refine congrArg (Program.load (A := aggregate) c.id) (funext fun answer => ?_)
  cases answer <;> rfl

/-- A creation asks first whether its order is there; any other call loads at once. -/
theorem handle_eq (c : Call) :
    c.handle Program.access =
      if c.command.isCreate then .version c.id.identity c.asked else .load c.id c.opened := by
  have hhandle : c.handle Program.access
      = (Service.openFor Program.access c.id c.command).bind c.proceed := by
    refine congrArg (Program.bind _) (funext fun opening => ?_)
    cases opening <;> rfl
  rw [hhandle, ← c.bind_load]
  cases c.command with
  | create customer items =>
    -- the version that the store answers with says whether the order is there
    refine congrArg (Program.version c.id.identity) (funext fun answer => ?_)
    cases answer with
    | error fault => rfl
    | ok version =>
      rw [asked, ← c.bind_load]
      by_cases hpos : 0 < version
      · rw [if_pos hpos]
        simp only [Program.bind, pure, hpos, decide_true]
      · rw [if_neg hpos]
        simp only [Program.bind, pure, hpos, decide_false]
        rfl
  | _ => rfl

/-- A call is not done before it has reached the store. -/
theorem result?_handle (c : Call) : (c.handle Program.access).result? = none := by
  rw [handle_eq]
  split <;> rfl

/-- What is left of a call when the store has answered a save. -/
def saved : Except aggregate.Fault Nat × Root aggregate → Program aggregate (Except Failure Nat)
  | (.ok version, _) => .done (.ok version)
  | (.error fault, _) => .done (.error (.kernel fault))

theorem carryOut_of_rejected {c : Call} {root after : Root aggregate} {r : Rejection}
    (h : root.execute c.readings.now c.command = (.error r, after)) :
    c.carryOut Program.access root = .done (.error (.rejected r)) := by
  unfold carryOut Service.carryOut
  rw [h]
  rfl

theorem carryOut_of_accepted {c : Call} {root after : Root aggregate} {n : Nat}
    (h : root.execute c.readings.now c.command = (.ok n, after)) :
    c.carryOut Program.access root = .save after c.correlation c.readings.stamp saved := by
  unfold carryOut Service.carryOut
  rw [h]
  refine congrArg (Program.save after c.correlation c.readings.stamp) (funext fun answer => ?_)
  rcases answer with ⟨_ | _, _⟩ <;> rfl

/-- Run alone on a stream that records a history, a call carries its command out on the order that
the history leads to. Where nothing is stored only a creation does so. -/
theorem handle_of_records {c : Call} {store : Store} {events : List Event}
    (hrecords : aggregate.Records (store.stream c.id.identity) events)
    (hstarts : store.stream c.id.identity = [] → c.command.isCreate = true) (metrics : Metrics) :
    c.handle StoreAccess.ofState (store, metrics)
      = (c.carryOut Program.access (Root.ofHistory c.id events)).run (store, metrics) := by
  rw [← run_handle, handle_eq]
  by_cases hnil : store.stream c.id.identity = []
  · -- a creation of an order that is not there
    have hevents : events = [] := hrecords.eq_nil_iff.1 hnil
    have hasked : c.asked (.ok (store.currentVersion c.id.identity))
        = c.carryOut Program.access (Root.ofHistory c.id events) := by
      rw [Store.currentVersion_eq, hnil, hevents]
      rfl
    rw [if_pos (hstarts hnil), ← hasked]
    rfl
  · -- the order is there and is loaded
    have hrun : (Program.load c.id c.opened).run (store, metrics)
        = (c.carryOut Program.access (Root.ofHistory c.id events)).run (store, metrics) :=
      congrArg (fun answer => (c.opened answer).run (store, metrics))
        (load_of_recorded hnil hrecords)
    rw [← hrun]
    split
    · -- a creation of an order that is there: it loads, and is decided like any other command
      have hasked : c.asked (.ok (store.currentVersion c.id.identity)) = .load c.id c.opened :=
        if_pos (Store.currentVersion_pos_iff.2 hnil)
      rw [← hasked]
      rfl
    · rfl

/-- Run alone where nothing is stored, a call that does not create finds no order. -/
theorem handle_of_absent {c : Call} {store : Store} (hstream : store.stream c.id.identity = [])
    (hcreate : c.command.isCreate = false) (metrics : Metrics) :
    c.handle StoreAccess.ofState (store, metrics)
      = (.error (.kernel (.notFound c.id.identity.text)), (store, metrics)) := by
  rw [← run_handle, handle_eq, if_neg (by rw [hcreate]; exact Bool.false_ne_true)]
  exact congrArg (fun answer => (c.opened answer).run (store, metrics)) (load_of_absent hstream)

/-! ## What a call knows when it saves -/

/-- The stored envelope of an event that a call appends behind a version. -/
def envelope (c : Call) (version : Nat) (e : Event) : Stored :=
  (Envelope.new schema aggregate.name c.id.uuid (version + 1) e c.correlation
    (c.readings.stamp version)).withData e.write

theorem carries_envelope (c : Call) (version : Nat) (e : Event) :
    (c.envelope version e).Carries schema e :=
  ⟨schema_faithful.tag_listed e, e.read_write⟩

/-- On a base that records a history the call has decided for an event. Only a creation does so on
an empty base. -/
structure Prepared (c : Call) (base : List Stored) (events : List Event) (e : Event) : Prop where
  records : aggregate.Records base events
  starts : base = [] → c.command.isCreate = true
  executes : (Root.ofHistory (A := aggregate) c.id events).execute c.readings.now c.command
    = (.ok 1, ((Root.ofHistory c.id events).record e).2)
  applies : (aggregate.apply e (Root.ofHistory (A := aggregate) c.id events).state).1 = .ok ()

/-- The root that such a call saves. -/
def root (c : Call) (events : List Event) (e : Event) : Root aggregate :=
  ((Root.ofHistory (A := aggregate) c.id events).record e).2

namespace Prepared

variable {c : Call} {base : List Stored} {events : List Event} {e : Event} {store : Store}

theorem records_append (h : c.Prepared base events e) :
    aggregate.Records (base ++ [c.envelope base.length e]) (events ++ [e]) :=
  h.records.append (List.Forall₂.cons (c.carries_envelope _ e) List.Forall₂.nil)
    (Aggregate.accepts_concat.2 ⟨h.records.accepts, h.applies⟩)

theorem root_committed (h : c.Prepared base events e) :
    (c.root events e).committed = base.length :=
  (Root.record_committed _ _).trans h.records.length_eq.symm

theorem root_uncommitted : (c.root events e).uncommitted = [e] := Root.record_uncommitted _ _

theorem root_uncommitted_ne_nil : (c.root events e).uncommitted ≠ [] := by
  rw [root_uncommitted]
  exact List.cons_ne_nil _ _

theorem root_identity : (c.root events e).identity = c.id.identity :=
  congrArg AggregateId.identity (Root.record_id _ _)

theorem root_corrupted (h : c.Prepared base events e) : (c.root events e).corrupted = false := by
  rw [root, Root.record_of_ok h.applies]
  rfl

/-- On the base itself the save appends the event. -/
theorem save_of_current (h : c.Prepared base events e)
    (hbase : store.stream c.id.identity = base) :
    ∃ after measured, store.save (c.root events e) c.correlation c.readings.stamp
      = ⟨.ok (base.length + 1), after, store.append c.id.identity [c.envelope base.length e],
          measured⟩ := by
  have hversion : (c.root events e).committed
      = store.currentVersion (c.root events e).identity := by
    rw [h.root_committed, root_identity, Store.currentVersion_eq, hbase]
  have hencode : Store.encodeFrom (c.root events e).id c.correlation c.readings.stamp
      (c.root events e).committed (c.root events e).uncommitted
      = .ok [c.envelope base.length e] := by
    rw [h.root_committed, root_uncommitted, show (c.root events e).id = c.id from Root.record_id _ _]
    rfl
  rw [Store.save_of_current h.root_corrupted root_uncommitted_ne_nil hversion, hencode, h.root_committed,
    root_uncommitted, root_identity]
  exact ⟨_, _, rfl⟩

/-- On a stream of another length the save is refused. -/
theorem save_of_stale (h : c.Prepared base events e)
    (hbase : (store.stream c.id.identity).length ≠ base.length) :
    ∃ text expected actual measured,
      store.save (c.root events e) c.correlation c.readings.stamp
        = ⟨.error (.conflict text expected actual), c.root events e, store, measured⟩ := by
  have hversion : (c.root events e).committed
      ≠ store.currentVersion (c.root events e).identity := by
    rw [h.root_committed, root_identity, Store.currentVersion_eq]
    exact Ne.symm hbase
  rw [Store.save_of_stale h.root_corrupted root_uncommitted_ne_nil hversion]
  exact ⟨_, _, _, _, rfl⟩

/-- Run alone on the base, the call appends the same event. -/
theorem handle_of_current (h : c.Prepared base events e)
    (hbase : store.stream c.id.identity = base) (metrics : Metrics) :
    ∃ metrics', c.handle StoreAccess.ofState (store, metrics) = (.ok (base.length + 1),
      (store.append c.id.identity [c.envelope base.length e], metrics')) := by
  obtain ⟨after, measured, hsave⟩ := h.save_of_current hbase
  subst hbase
  have hrun := Program.run_save (c.root events e) c.correlation c.readings.stamp saved store
    metrics
  rw [hsave] at hrun
  rw [handle_of_records h.records h.starts, carryOut_of_accepted h.executes]
  exact ⟨_, hrun⟩

end Prepared

/-! ## The steps of a call -/

end Call

/-- A failure that tells of the order itself, or that another call was faster. -/
def Failure.IsExpected : Failure → Prop
  | .rejected _ | .kernel (.notFound _) | .kernel (.conflict ..) => True
  | _ => False

namespace Call

/-- What a call can still be doing. What it saves was decided on a base that the stream still
starts with. -/
inductive Phase (c : Call) (store : Store) : Program aggregate (Except Failure Nat) → Prop
  | asking : Phase c store (c.handle Program.access)
  | loading : Phase c store (.load c.id c.opened)
  | saving {base : List Stored} {events : List Event} {e : Event}
      (hbase : base <+: store.stream c.id.identity) (h : c.Prepared base events e) :
      Phase c store (.save (c.root events e) c.correlation c.readings.stamp saved)
  | succeeded (version : Nat) : Phase c store (.done (.ok version))
  | failed {failure : Failure} (h : failure.IsExpected) : Phase c store (.done (.error failure))

/-- The other calls only make the stream longer, which is no concern of a call between two steps. -/
theorem Phase.mono {c : Call} {store store' : Store} {p : Program aggregate (Except Failure Nat)}
    (h : c.Phase store p) (hstream : store.stream c.id.identity <+: store'.stream c.id.identity) :
    c.Phase store' p := by
  cases h with
  | asking => exact .asking
  | loading => exact .loading
  | saving hbase h => exact .saving (hbase.trans hstream) h
  | succeeded version => exact .succeeded version
  | failed h => exact .failed h

theorem Phase.isExpected {c : Call} {store : Store} {p : Program aggregate (Except Failure Nat)}
    (h : c.Phase store p) {failure : Failure} (hresult : p.result? = some (.error failure)) :
    failure.IsExpected := by
  cases h with
  | asking =>
    rw [result?_handle] at hresult
    cases hresult
  | loading | saving => cases hresult
  | succeeded version => cases hresult
  | failed h =>
    cases hresult
    exact h

/-- A step that leaves the store as it is, and a call as far from success as it was. -/
def Quiet (c : Call) (store : Store) (p p' : Program aggregate (Except Failure Nat)) : Prop :=
  c.Phase store p' ∧ ∀ version, p'.result? = some (.ok version) ↔ p.result? = some (.ok version)

section Quiet

variable {c : Call} {store : Store} {p p' : Program aggregate (Except Failure Nat)}

/-- A call that is still going on does not succeed in a step that leaves the store as it is. -/
theorem quiet_of_phase (hp : p.result? = none) (h : c.Phase store p')
    (hp' : ∀ version, p'.result? ≠ some (.ok version)) : c.Quiet store p p' := by
  refine ⟨h, fun version => ⟨fun hresult => absurd hresult (hp' version), fun hresult => ?_⟩⟩
  rw [hp] at hresult
  cases hresult

theorem quiet_carryOut (hp : p.result? = none) {base : List Stored} {events : List Event}
    (hbase : base <+: store.stream c.id.identity) (hrecords : aggregate.Records base events)
    (hstarts : base = [] → c.command.isCreate = true) :
    c.Quiet store p (c.carryOut Program.access (Root.ofHistory c.id events)) := by
  rcases execute_cases (Root.ofHistory c.id events) c.readings.now c.command with
    ⟨r, h⟩ | ⟨e, s, -, hs, h, -⟩
  · rw [carryOut_of_rejected h]
    exact quiet_of_phase hp (.failed trivial) fun _ hresult => by cases hresult
  · rw [carryOut_of_accepted h]
    have happlies := congrArg Prod.fst (apply_of_after? hs).1
    exact quiet_of_phase hp (.saving hbase ⟨hrecords, hstarts, h, happlies⟩)
      fun _ hresult => by cases hresult

theorem quiet_opened (hp : p.result? = none) {events : List Event}
    (hrecords : aggregate.Records (store.stream c.id.identity) events) :
    c.Quiet store p (c.opened (store.load aggregate c.id)) := by
  by_cases hstream : store.stream c.id.identity = []
  · rw [load_of_absent hstream]
    exact quiet_of_phase hp (.failed trivial) fun _ hresult => by cases hresult
  · rw [load_of_recorded hstream hrecords]
    exact quiet_carryOut hp List.prefix_rfl hrecords fun hnil => absurd hnil hstream

theorem quiet_asked (hp : p.result? = none) (hcreate : c.command.isCreate = true) :
    c.Quiet store p (c.asked (.ok (store.currentVersion c.id.identity))) := by
  by_cases hpos : 0 < store.currentVersion c.id.identity
  · rw [asked, if_pos hpos]
    exact quiet_of_phase hp .loading fun _ hresult => by cases hresult
  · rw [asked, if_neg hpos]
    exact quiet_carryOut hp List.nil_prefix Aggregate.records_nil fun _ => hcreate

end Quiet

/-- One step of a call. It leaves the store as it is, or it appends the event that the call has
decided on the whole stream and returns the new length. -/
theorem Phase.step {c : Call} {store : Store} {p : Program aggregate (Except Failure Nat)}
    {events : List Event} (hrecords : aggregate.Records (store.stream c.id.identity) events)
    (h : c.Phase store p) (metrics : Metrics) :
    ((p.step (store, metrics)).2.1 = store ∧ c.Quiet store p (p.step (store, metrics)).1) ∨
      ∃ e, c.Prepared (store.stream c.id.identity) events e ∧ p.result? = none ∧
        (p.step (store, metrics)).1 = .done (.ok ((store.stream c.id.identity).length + 1)) ∧
        (p.step (store, metrics)).2.1 = store.append c.id.identity
          [c.envelope (store.stream c.id.identity).length e] := by
  cases h with
  | asking =>
    rw [handle_eq]
    split
    · next hcreate => exact Or.inl ⟨rfl, quiet_asked rfl hcreate⟩
    · exact Or.inl ⟨rfl, quiet_opened rfl hrecords⟩
  | loading => exact Or.inl ⟨rfl, quiet_opened rfl hrecords⟩
  | @saving base history e hbase h =>
    -- the only access that writes
    have hstep := Program.step_save (c.root history e) c.correlation c.readings.stamp saved store
      metrics
    by_cases hlength : (store.stream c.id.identity).length = base.length
    · -- a prefix of the same length is the whole stream, and carries the same history
      obtain rfl := hbase.eq_of_length hlength.symm
      obtain rfl := h.records.unique hrecords
      obtain ⟨after, measured, hsave⟩ := h.save_of_current rfl
      rw [hsave] at hstep
      rw [hstep]
      exact Or.inr ⟨e, h, rfl, rfl, rfl⟩
    · obtain ⟨text, expected, actual, measured, hsave⟩ := h.save_of_stale hlength
      rw [hsave] at hstep
      rw [hstep]
      exact Or.inl ⟨rfl, quiet_of_phase rfl (.failed trivial) fun _ hresult => by cases hresult⟩
  | succeeded version => exact Or.inl ⟨rfl, .succeeded version, fun _ => Iff.rfl⟩
  | failed h => exact Or.inl ⟨rfl, .failed h, fun _ => Iff.rfl⟩

end Call

end Order

end EventSourcing
