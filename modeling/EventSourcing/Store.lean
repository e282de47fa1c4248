import EventSourcing.Aggregate
import EventSourcing.Metrics

/-!
# The store

One stream of envelopes for each identity. Writers do not lock: a root is saved only when the
stream is as long as when the root was loaded, so of two writers who loaded the same stream one is
refused.

* `Store.save` appends the recorded events of a root, all or none of them;
* `Store.load` rebuilds a root from its stream;
* `StoreAccess` is what users of any store rely on.
-/

namespace EventSourcing

namespace Store

/-- Puts envelopes behind the stream of an identity, which is made if there is none. -/
def appendTo (i : Identity) (added : List Stored) :
    List (Identity × List Stored) → List (Identity × List Stored)
  | [] => [(i, added)]
  | entry :: rest =>
    if entry.1 = i then (entry.1, entry.2 ++ added) :: rest else entry :: appendTo i added rest

theorem mem_keys_appendTo {i k : Identity} {added : List Stored}
    {streams : List (Identity × List Stored)} :
    k ∈ (appendTo i added streams).map Prod.fst ↔ k ∈ streams.map Prod.fst ∨ k = i := by
  induction streams with
  | nil => simp [appendTo]
  | cons entry rest ih =>
    simp only [appendTo]
    split
    · next h =>
      simp only [List.map_cons, List.mem_cons, h]
      constructor
      · exact Or.inl
      · rintro (hk | hk)
        · exact hk
        · exact Or.inl hk
    · simp only [List.map_cons, List.mem_cons, ih, or_assoc]

theorem nodup_keys_appendTo {i : Identity} {added : List Stored}
    {streams : List (Identity × List Stored)} (h : (streams.map Prod.fst).Nodup) :
    ((appendTo i added streams).map Prod.fst).Nodup := by
  induction streams with
  | nil => simp [appendTo]
  | cons entry rest ih =>
    simp only [List.map_cons, List.nodup_cons] at h
    simp only [appendTo]
    split
    · exact List.nodup_cons.2 h
    · next hne =>
      refine List.nodup_cons.2 ⟨fun hmem => ?_, ih h.2⟩
      rcases mem_keys_appendTo.1 hmem with hmem | heq
      · exact h.1 hmem
      · exact hne heq

end Store

/-- All streams, each under its own identity. -/
structure Store where
  streams : List (Identity × List Stored)
  nodup_keys : (streams.map Prod.fst).Nodup

/-- What a save leaves behind. -/
structure Saved (A : Aggregate) where
  /-- The new version, or the reason why nothing was appended. -/
  result : Except A.Fault Nat
  root : Root A
  store : Store
  measured : List Measurement

namespace Store

def empty : Store := ⟨[], List.nodup_nil⟩

/-- The stream of an identity, if there is one. -/
def stream? (store : Store) (i : Identity) : Option (List Stored) :=
  store.streams.lookup i

/-- The envelopes under an identity, in order. -/
def stream (store : Store) (i : Identity) : List Stored :=
  (store.stream? i).getD []

def currentVersion (store : Store) (i : Identity) : Nat :=
  (store.stream i).length

def contains (store : Store) (i : Identity) : Bool :=
  0 < store.currentVersion i

/-- The number of envelopes in all streams. -/
def eventCount (store : Store) : Nat :=
  (store.streams.flatMap Prod.snd).length

def append (store : Store) (i : Identity) (added : List Stored) : Store :=
  ⟨appendTo i added store.streams, nodup_keys_appendTo store.nodup_keys⟩

/-- Encodes events as the envelopes behind a version. -/
def encodeFrom {A : Aggregate} (id : A.Id) (correlation : Uuid) (stamp : Nat → Stamp)
    (version : Nat) : List A.Event → Except A.Fault (List Stored)
  | [] => .ok []
  | event :: rest => do
    let envelope ← (Envelope.new A.schema A.name id.uuid (version + 1) event correlation
      (stamp version)).encode A.schema
    let envelopes ← encodeFrom id correlation stamp (version + 1) rest
    return envelope :: envelopes

/-- Appends the recorded events of a root to its stream. A corrupted root is refused; without
recorded events there is nothing to do; then the versions must agree, and every event must have a
stored text. `stamp` gives the stamp for the event behind each version. -/
def save {A : Aggregate} (store : Store) (root : Root A) (correlation : Uuid)
    (stamp : Nat → Stamp) : Saved A :=
  let actual := store.currentVersion root.identity
  if root.corrupted then ⟨.error (.corrupted root.identity.text), root, store, []⟩
  else if !root.hasUncommitted then ⟨.ok actual, root, store, []⟩
  else if root.committed ≠ actual then
    ⟨.error (.conflict root.identity.text root.committed actual), root, store,
      [.conflict A.name]⟩
  else
    match encodeFrom root.id correlation stamp root.committed root.uncommitted with
    | .error fault => ⟨.error fault, root, store, []⟩
    | .ok envelopes =>
      let (drained, after) := root.drain
      ⟨.ok (root.committed + drained.length), after, store.append root.identity envelopes,
        [.appended A.name drained.length]⟩

/-- Decodes envelopes in order, up to the first that cannot be. -/
def decodeAll (A : Aggregate) : List Stored → Except A.Fault (List (Envelope A.Event))
  | [] => .ok []
  | stored :: rest => do
    let envelope ← stored.decode A.schema A.name
    let envelopes ← decodeAll A rest
    return envelope :: envelopes

/-- Rebuilds the root with an identifier. All envelopes are decoded before the first event is
applied. -/
def load (store : Store) (A : Aggregate) (id : A.Id) : Except A.Fault (Root A) :=
  match store.stream id.identity with
  | [] => .error (.notFound id.identity.text)
  | stream => do
    let envelopes ← decodeAll A stream
    match Root.replayEnvelopes id envelopes with
    | .ok root => .ok root
    | .error cause => .error (.replay id.identity.text cause)

end Store

/-- The store as its users reach it, each access one step of `m`. -/
structure StoreAccess (A : Aggregate) (m : Type → Type) where
  currentVersion : Identity → m (Except A.Fault Nat)
  load : A.Id → m (Except A.Fault (Root A))
  save : Root A → Uuid → (Nat → Stamp) → m (Except A.Fault Nat × Root A)

namespace StoreAccess

variable {A : Aggregate} {m : Type → Type} [Monad m]

/-- Whether anything is stored under an identity. -/
def contains (access : StoreAccess A m) (i : Identity) : m (Except A.Fault Bool) := do
  match ← access.currentVersion i with
  | .ok version => return .ok (0 < version)
  | .error fault => return .error fault

/-- The access to a store that is held as a state. -/
def ofState : StoreAccess A (StateM (Store × Metrics)) where
  currentVersion i := do return .ok ((← get).1.currentVersion i)
  load id := do return (← get).1.load A id
  save root correlation stamp := fun (store, metrics) =>
    let saved := store.save root correlation stamp
    ((saved.result, saved.root), (saved.store, saved.measured.foldl Metrics.record metrics))

end StoreAccess

end EventSourcing
