import EventSourcing.Proofs.Interleaving

/-!
# The order service as a ledger

Called one call after another, the service is as simple as it looks: a map from identifiers to
orders, each with the number of commands that it has accepted. Streams, texts and replay do not
show.

* `Ledger.handle` is a call on such a map.
* `Ledger.Keeps` relates a map to the streams of a store; `Ledger.Keeps.handle` is one call on both.
* `Ledger.handle_refines` is what holds for every row of calls.
-/

namespace EventSourcing

/-- Two runs over the same inputs give the same results when every step gives the same result in
related states, and leads to related states again. -/
theorem mapM_refines {σ τ α β : Type} {R : σ → τ → Prop} {f : α → StateM σ β}
    {g : α → StateM τ β}
    (hstep : ∀ a s t, R s t → (f a s).1 = (g a t).1 ∧ R (f a s).2 (g a t).2) (inputs : List α)
    {s : σ} {t : τ} (h : R s t) :
    (inputs.mapM f s).1 = (inputs.mapM g t).1 ∧ R (inputs.mapM f s).2 (inputs.mapM g t).2 := by
  induction inputs generalizing s t with
  | nil => exact ⟨rfl, h⟩
  | cons a rest ih =>
    obtain ⟨hfirst, hnext⟩ := hstep a s t h
    obtain ⟨hrest, hlast⟩ := ih hnext
    rw [List.mapM_cons, List.mapM_cons]
    exact ⟨congrArg₂ List.cons hfirst hrest, hlast⟩

namespace Order

/-- The orders that are there, each with the number of commands that it has accepted. -/
abbrev Ledger := Id → Option (Order × Nat)

namespace Ledger

def empty : Ledger := fun _ => none

/-- The order that a command is for. A creation starts with a draft if there is none. -/
def open? (ledger : Ledger) (c : Call) : Option (Order × Nat) :=
  match ledger c.id with
  | some entry => some entry
  | none => if c.command.isCreate then some (draft, 0) else none

/-- A call on a ledger: the order decides the command, and changes by the event that follows. -/
def handle (c : Call) : StateM Ledger (Except Failure Nat) := fun ledger =>
  match ledger.open? c with
  | none => (.error (.kernel (.notFound c.id.identity.text)), ledger)
  | some (order, accepted) =>
    match decideEvent c.readings.now order c.command with
    | .error r => (.error (.rejected r), ledger)
    | .ok e =>
      (.ok (accepted + 1), Function.update ledger c.id (some ((apply e order).2, accepted + 1)))

section

variable {ledger : Ledger} {c : Call} {order : Order} {accepted : Nat}

theorem handle_of_absent (h : ledger.open? c = none) :
    handle c ledger = (.error (.kernel (.notFound c.id.identity.text)), ledger) := by
  rw [handle, h]

theorem handle_of_rejected (h : ledger.open? c = some (order, accepted)) {r : Rejection}
    (hdecide : decideEvent c.readings.now order c.command = .error r) :
    handle c ledger = (.error (.rejected r), ledger) := by
  rw [handle, h]
  dsimp only
  rw [hdecide]

theorem handle_of_accepted (h : ledger.open? c = some (order, accepted)) {e : Event}
    (hdecide : decideEvent c.readings.now order c.command = .ok e) :
    handle c ledger = (.ok (accepted + 1),
      Function.update ledger c.id (some ((apply e order).2, accepted + 1))) := by
  rw [handle, h]
  dsimp only
  rw [hdecide]

end

/-! ## The ledger behind a store -/

/-- What a ledger has of an order with a history. -/
def entry (history : List Event) : Option (Order × Nat) :=
  if history = [] then none else some (aggregate.fold draft history, history.length)

/-- A store keeps a ledger: the stream of every order records the history of its entry. -/
def Keeps (store : Store) (ledger : Ledger) : Prop :=
  ∀ id : Id, ∃ history, aggregate.Records (store.stream id.identity) history ∧
    ledger id = entry history

theorem keeps_empty : Keeps .empty empty :=
  fun _ => ⟨[], Aggregate.records_nil, rfl⟩

variable {store : Store} {ledger : Ledger} {c : Call} {history : List Event}

theorem open?_of_entry (hentry : ledger c.id = entry history)
    (hstarts : history = [] → c.command.isCreate = true) :
    ledger.open? c = some (aggregate.fold draft history, history.length) := by
  rw [open?, hentry, entry]
  by_cases hnil : history = []
  · rw [if_pos hnil, hnil]
    exact if_pos (hstarts hnil)
  · rw [if_neg hnil]
    rfl

theorem open?_of_absent (hentry : ledger c.id = entry []) (hcreate : c.command.isCreate = false) :
    ledger.open? c = none := by
  rw [open?, hentry]
  exact if_neg (by rw [hcreate]; exact Bool.false_ne_true)

/-- The entry of an order that accepts one more command. -/
theorem Keeps.append (h : Keeps store ledger) {n : Nat} {e : Event}
    (hrecords : aggregate.Records (store.stream c.id.identity ++ [c.envelope n e])
      (history ++ [e])) :
    Keeps (store.append c.id.identity [c.envelope n e])
      (Function.update ledger c.id
        (some ((apply e (aggregate.fold draft history)).2, history.length + 1))) := by
  intro id
  rw [Store.stream_append]
  by_cases hid : id = c.id
  · rw [hid, if_pos rfl, Function.update_self]
    refine ⟨history ++ [e], hrecords, ?_⟩
    have hfold : aggregate.fold draft (history ++ [e])
        = (apply e (aggregate.fold draft history)).2 := Aggregate.fold_concat ..
    rw [entry, if_neg (List.append_ne_nil_of_right_ne_nil _ (List.cons_ne_nil _ _)), hfold,
      List.length_append, List.length_singleton]
  · rw [if_neg (AggregateId.identity_inj.not.2 hid), Function.update_of_ne hid]
    exact h id

/-- One call on a store that keeps a ledger, and on the ledger. -/
theorem Keeps.handle (h : Keeps store ledger) (c : Call) (metrics : Metrics) :
    (c.handle StoreAccess.ofState (store, metrics)).1 = (Ledger.handle c ledger).1 ∧
      Keeps (c.handle StoreAccess.ofState (store, metrics)).2.1 (Ledger.handle c ledger).2 := by
  obtain ⟨history, hrecords, hentry⟩ := h c.id
  by_cases hstarts : history = [] → c.command.isCreate = true
  · have hopen := open?_of_entry hentry hstarts
    have hstarts' := fun hstream => hstarts (hrecords.eq_nil_iff.1 hstream)
    have hhandle := Call.handle_of_records hrecords hstarts' metrics
    cases hdecide : decideEvent c.readings.now (aggregate.fold draft history) c.command with
    | error r =>
      have hexecute : (Root.ofHistory (A := aggregate) c.id history).execute c.readings.now c.command
          = (.error r, Root.ofHistory c.id history) :=
        Root.execute_of_decide_error (decide_of_error hdecide)
      rw [hhandle, Call.carryOut_of_rejected hexecute, handle_of_rejected hopen hdecide]
      exact ⟨rfl, h⟩
    | ok e =>
      -- the event that is decided can follow, so it is appended
      obtain ⟨-, s, hs⟩ := decideEvent_sound hdecide
      have happlies := congrArg Prod.fst (apply_of_after? hs).1
      have hexecute : (Root.ofHistory (A := aggregate) c.id history).execute c.readings.now c.command
          = (.ok 1, ((Root.ofHistory c.id history).record e).2) :=
        (execute_of_decideEvent hdecide hs).1
      have hprepared : c.Prepared (store.stream c.id.identity) history e :=
        ⟨hrecords, hstarts', hexecute, happlies⟩
      obtain ⟨metrics', hcurrent⟩ := hprepared.handle_of_current rfl metrics
      rw [hcurrent, handle_of_accepted hopen hdecide, hrecords.length_eq]
      exact ⟨rfl, h.append (hrecords.length_eq ▸ hprepared.records_append)⟩
  · -- only a creation finds an order that is not there
    obtain ⟨hempty, hcreate⟩ := Classical.not_imp.1 hstarts
    have hcreate' : c.command.isCreate = false := Bool.eq_false_iff.2 hcreate
    rw [Call.handle_of_absent (hrecords.eq_nil_iff.2 hempty) hcreate',
      handle_of_absent (open?_of_absent (hempty ▸ hentry) hcreate')]
    exact ⟨rfl, h⟩

theorem service_load (store : Store) (metrics : Metrics) (id : Id) :
    Service.load StoreAccess.ofState id (store, metrics)
      = ((store.load aggregate id).mapError Failure.kernel, (store, metrics)) := by
  have hload : (StoreAccess.ofState.load id : StateM (Store × Metrics) _) (store, metrics)
      = (store.load aggregate id, (store, metrics)) := rfl
  cases hanswer : store.load aggregate id with
  | ok root | error fault =>
    rw [hanswer] at hload
    simp only [Service.load, bind, StateT.bind, hload]
    rfl

/-- The stored order as a ledger has it. -/
def load (ledger : Ledger) (id : Id) : Except Failure (Root aggregate) :=
  match ledger id with
  | none => .error (.kernel (.notFound id.identity.text))
  | some (order, accepted) =>
    .ok { id := id, version := accepted, committed := accepted, state := order,
          uncommitted := [], corrupted := false }

/-- A load from a store that keeps a ledger gives the order and the count of the entry. -/
theorem Keeps.load (h : Keeps store ledger) (id : Id) (metrics : Metrics) :
    Service.load StoreAccess.ofState id (store, metrics) = (ledger.load id, (store, metrics)) := by
  obtain ⟨history, hrecords, hentry⟩ := h id
  rw [service_load, Ledger.load]
  by_cases hnil : history = []
  · rw [load_of_absent (hrecords.eq_nil_iff.2 hnil), hentry.trans (if_pos hnil)]
    rfl
  · have hstream : store.stream id.identity ≠ [] := hrecords.eq_nil_iff.not.2 hnil
    rw [load_of_recorded hstream hrecords, hentry.trans (if_neg hnil)]
    rfl

/-- The order service refines a ledger. Calls that come one after another, on a store that starts
empty, return what they return on a ledger that starts empty; and after any number of them a load
gives what the ledger has of the order. -/
theorem handle_refines (calls : List Call) :
    let stored := fun calls : List Call =>
      calls.mapM (fun c => c.handle StoreAccess.ofState) (Store.empty, Metrics.empty)
    let kept := fun calls : List Call => calls.mapM handle empty
    (stored calls).1 = (kept calls).1 ∧
      ∀ n (id : Id), (Service.load StoreAccess.ofState id (stored (calls.take n)).2).1
        = (kept (calls.take n)).2.load id := by
  intro stored kept
  have hrefines : ∀ calls : List Call, (stored calls).1 = (kept calls).1 ∧
      Keeps (stored calls).2.1 (kept calls).2 := fun calls =>
    mapM_refines (R := fun (state : Store × Metrics) ledger => Keeps state.1 ledger)
      (fun c state ledger hkeeps => hkeeps.handle c state.2) calls keeps_empty
  refine ⟨(hrefines calls).1, fun n id => ?_⟩
  exact congrArg Prod.fst ((hrefines (calls.take n)).2.load id _)

/-- An order is created twice, and one that is not there is confirmed. -/
example :
    let now : Timestamp := ⟨⟨1970, 1, 1, by decide, by decide⟩, 0, 0, by decide, by decide⟩
    let call : Id → Command → Call := fun id command =>
      ⟨id, command, Uuid.nil, ⟨now, fun _ => ⟨Uuid.nil, now⟩⟩⟩
    let create : Command := .create ⟨Uuid.nil⟩ [⟨Uuid.nil, 1⟩]
    let other : Id := ⟨Uuid.random 1⟩
    ([call ⟨Uuid.nil⟩ create, call ⟨Uuid.nil⟩ create, call other .confirm].mapM handle empty).1
      = [.ok 1, .error (.rejected (.invalidTransition .created)),
          .error (.kernel (.notFound other.identity.text))] :=
  rfl

end Ledger

end Order

end EventSourcing
