import EventSourcing.Store
import EventSourcing.Proofs.Replay
import Mathlib.Data.List.Forall2

/-!
# Streams, loading and saving

What the two accesses to a store do, said through the streams alone:

* `Store.stream_append`: an append touches one stream and puts the new envelopes behind it;
* `Envelope.Carries` says which event a stored envelope carries, `EventSchema.Faithful` that every
  event of a domain is carried by its own envelope;
* `Store.load_eq_ok_iff`: a load succeeds exactly when a stream is there, every envelope carries an
  event, and these can follow one another;
* `Store.save_cases`: a save leaves store and root as they are, or appends all recorded events
  to a stream that is exactly as long as the root expects.
-/

namespace EventSourcing

/-! ## Envelopes and the events they carry -/

/-- A stored envelope carries an event of a domain: its tag is listed and its text reads back as
the event. -/
def Envelope.Carries {Event : Type} (schema : EventSchema Event) (stored : Stored)
    (event : Event) : Prop :=
  schema.tags.contains stored.tag = true ∧ schema.read stored.data = some event

/-- Every tag of a domain is listed, and what an event is written as reads back as the event. -/
structure EventSchema.Faithful {Event : Type} (schema : EventSchema Event) : Prop where
  tag_listed : ∀ event, schema.tags.contains (schema.tag event) = true
  read_write : ∀ event text, schema.write event = some text → schema.read text = some event

namespace Envelope

variable {Event ε : Type} {schema : EventSchema Event}

theorem decode_eq_ok_iff {aggregateType : String} {stored : Stored} {envelope : Envelope Event} :
    (stored.decode schema aggregateType : Except (Fault ε) _) = .ok envelope ↔
      stored.Carries schema envelope.data ∧ envelope = stored.withData envelope.data := by
  unfold decode Carries
  constructor
  · intro h
    split at h
    · next htag =>
      split at h
      · next event hread =>
        cases h
        exact ⟨⟨htag, hread⟩, rfl⟩
      · cases h
    · cases h
  · rintro ⟨⟨htag, hread⟩, henvelope⟩
    rw [if_pos htag, hread, henvelope]
    rfl

/-- An event has one reader, so an envelope carries at most one. -/
theorem Carries.unique {stored : Stored} {x y : Event} (hx : stored.Carries schema x)
    (hy : stored.Carries schema y) : x = y :=
  Option.some.inj (hx.2.symm.trans hy.2)

theorem carries_of_encode (hschema : schema.Faithful) {aggregateType : String}
    {aggregateId correlation : Uuid} {sequence : Nat} {event : Event} {stamp : Stamp}
    {stored : Stored}
    (h : ((new schema aggregateType aggregateId sequence event correlation stamp).encode schema
      : Except (Fault ε) _) = .ok stored) : stored.Carries schema event := by
  unfold encode at h
  split at h
  · next text hwrite =>
    cases h
    exact ⟨hschema.tag_listed event, hschema.read_write event text hwrite⟩
  · cases h

/-- Rows of envelopes carry at most one row of events. -/
theorem forall₂_carries_unique {stream : List Stored} {xs ys : List Event}
    (hx : List.Forall₂ (Carries schema) stream xs)
    (hy : List.Forall₂ (Carries schema) stream ys) : xs = ys := by
  induction hx generalizing ys with
  | nil =>
    cases hy
    rfl
  | cons hhead _ ih =>
    cases hy with
    | cons hhead' htail' => rw [hhead.unique hhead', ih htail']

end Envelope

/-- Identifiers of one kind stay apart as identities. -/
theorem AggregateId.identity_inj {kind : IdKind} {i j : AggregateId kind} :
    i.identity = j.identity ↔ i = j := by
  cases i
  cases j
  simp [identity]

namespace Store

/-! ## The stream of an identity -/

theorem lookup_appendTo (i j : Identity) (added : List Stored)
    (streams : List (Identity × List Stored)) :
    (appendTo i added streams).lookup j =
      if j = i then some ((streams.lookup i).getD [] ++ added) else streams.lookup j := by
  induction streams with
  | nil =>
    by_cases hj : j = i
    · simp [appendTo, hj]
    · simp [appendTo, List.lookup_cons, hj, beq_eq_false_iff_ne.2 hj]
  | cons entry rest ih =>
    rw [appendTo]
    by_cases hentry : entry.1 = i
    · rw [if_pos hentry, List.lookup_cons, List.lookup_cons, List.lookup_cons, hentry]
      by_cases hj : j = i
      · simp [hj]
      · simp [hj, beq_eq_false_iff_ne.2 hj]
    · rw [if_neg hentry, List.lookup_cons, List.lookup_cons, List.lookup_cons, ih]
      have hne : (i == entry.1) = false := beq_eq_false_iff_ne.2 (Ne.symm hentry)
      by_cases hj : j = i
      · simp [hj, hne]
      · simp [hj]

/-- An append puts the new envelopes behind one stream and leaves every other as it is. -/
theorem stream_append (store : Store) (i j : Identity) (added : List Stored) :
    (store.append i added).stream j =
      if j = i then store.stream i ++ added else store.stream j := by
  rw [stream, stream?, append, lookup_appendTo]
  by_cases hj : j = i
  · rw [if_pos hj, if_pos hj]
    rfl
  · rw [if_neg hj, if_neg hj]
    rfl

theorem stream_append_self (store : Store) (i : Identity) (added : List Stored) :
    (store.append i added).stream i = store.stream i ++ added := by
  rw [stream_append, if_pos rfl]

theorem stream_append_of_ne (store : Store) {i j : Identity} (h : j ≠ i) (added : List Stored) :
    (store.append i added).stream j = store.stream j := by
  rw [stream_append, if_neg h]

theorem currentVersion_eq (store : Store) (i : Identity) :
    store.currentVersion i = (store.stream i).length := rfl

theorem currentVersion_pos_iff {store : Store} {i : Identity} :
    0 < store.currentVersion i ↔ store.stream i ≠ [] :=
  List.length_pos_iff

/-- An append of something changes the store. -/
theorem append_streams_ne (store : Store) (i : Identity) {added : List Stored} (h : added ≠ []) :
    (store.append i added).streams ≠ store.streams := by
  intro heq
  have hstream : (store.append i added).stream i = store.stream i := by
    unfold stream stream?
    rw [heq]
  rw [stream_append_self] at hstream
  exact h (List.append_right_eq_self.1 hstream)

variable {A : Aggregate}

/-! ## Loading -/

/-- The decoding of a stream succeeds exactly when every envelope carries an event; what is decoded
is the same envelopes around these events. -/
theorem decodeAll_eq_ok_iff {stream : List Stored} {envelopes : List (Envelope A.Event)} :
    decodeAll A stream = .ok envelopes ↔
      List.Forall₂ (fun stored envelope =>
        stored.Carries A.schema envelope.data ∧ envelope = stored.withData envelope.data)
        stream envelopes := by
  induction stream generalizing envelopes with
  | nil =>
    rw [decodeAll, List.forall₂_nil_left_iff]
    exact ⟨fun h => (Except.ok.inj h).symm, fun h => congrArg _ h.symm⟩
  | cons stored rest ih =>
    rw [decodeAll, List.forall₂_cons_left_iff]
    constructor
    · -- the head is decoded before the rest, and either can fail
      intro h
      cases hdecode : (stored.decode A.schema A.name : Except A.Fault _) with
      | error fault =>
        rw [hdecode] at h
        cases h
      | ok envelope =>
        cases hrest : decodeAll A rest with
        | error fault =>
          rw [hdecode, hrest] at h
          cases h
        | ok restEnvelopes =>
          rw [hdecode, hrest] at h
          cases h
          exact ⟨envelope, restEnvelopes, Envelope.decode_eq_ok_iff.1 hdecode, ih.1 hrest, rfl⟩
    · rintro ⟨envelope, restEnvelopes, hhead, htail, rfl⟩
      have hdecode : (stored.decode A.schema A.name : Except A.Fault _) = .ok envelope :=
        Envelope.decode_eq_ok_iff.2 hhead
      rw [hdecode, ih.2 htail]
      rfl

/-- A stream decodes to the events that its envelopes carry. -/
theorem decodeAll_carries_iff {stream : List Stored} {events : List A.Event} :
    (∃ envelopes, decodeAll A stream = .ok envelopes ∧ envelopes.map Envelope.data = events) ↔
      List.Forall₂ (Envelope.Carries A.schema) stream events := by
  constructor
  · rintro ⟨envelopes, hdecode, rfl⟩
    rw [List.forall₂_map_right_iff]
    exact (decodeAll_eq_ok_iff.1 hdecode).imp fun _ _ h => h.1
  · intro h
    induction h with
    | nil => exact ⟨[], rfl, rfl⟩
    | @cons stored event rest events hhead _ ih =>
      obtain ⟨envelopes, hdecode, hmap⟩ := ih
      refine ⟨stored.withData event :: envelopes, ?_, by rw [List.map_cons, hmap]; rfl⟩
      rw [decodeAll_eq_ok_iff] at hdecode ⊢
      exact List.Forall₂.cons ⟨hhead, rfl⟩ hdecode

end Store

/-- A stream records a history: it carries the events, and each of them can follow on the ones
before it. -/
structure Aggregate.Records (A : Aggregate) (stream : List Stored) (events : List A.Event) : Prop where
  carries : List.Forall₂ (Envelope.Carries A.schema) stream events
  accepts : A.Accepts A.initial events

namespace Aggregate

variable {A : Aggregate}

theorem records_nil : A.Records [] [] := ⟨List.Forall₂.nil, trivial⟩

theorem Records.length_eq {stream : List Stored} {events : List A.Event}
    (h : A.Records stream events) : stream.length = events.length :=
  h.carries.length_eq

theorem Records.eq_nil_iff {stream : List Stored} {events : List A.Event}
    (h : A.Records stream events) : stream = [] ↔ events = [] := by
  rw [← List.length_eq_zero_iff, h.length_eq, List.length_eq_zero_iff]

theorem Records.unique {stream : List Stored} {xs ys : List A.Event} (hx : A.Records stream xs)
    (hy : A.Records stream ys) : xs = ys :=
  Envelope.forall₂_carries_unique hx.carries hy.carries

/-- More envelopes go behind a history when their events can follow on it. -/
theorem Records.append {stream added : List Stored} {events more : List A.Event}
    (h : A.Records stream events) (hadded : List.Forall₂ (Envelope.Carries A.schema) added more)
    (haccepts : A.Accepts A.initial (events ++ more)) :
    A.Records (stream ++ added) (events ++ more) :=
  ⟨List.rel_append h.carries hadded, haccepts⟩

end Aggregate

namespace Store

variable {A : Aggregate}

section Load

variable {store : Store} {id : A.Id}

theorem load_of_stream_eq_nil (h : store.stream id.identity = []) :
    store.load A id = .error (.notFound id.identity.text) := by
  rw [load, h]

theorem load_of_decodeAll_error {fault : A.Fault} (hstream : store.stream id.identity ≠ [])
    (h : decodeAll A (store.stream id.identity) = .error fault) :
    store.load A id = .error fault := by
  unfold load
  split
  · next hnil => exact absurd hnil hstream
  · rw [h]
    rfl

/-- What is decoded is replayed, and an error of the replay is wrapped. -/
theorem load_of_decodeAll_ok {envelopes : List (Envelope A.Event)}
    (hstream : store.stream id.identity ≠ [])
    (h : decodeAll A (store.stream id.identity) = .ok envelopes) :
    store.load A id =
      (Root.replay id (envelopes.map Envelope.data)).mapError (Fault.replay id.identity.text) := by
  unfold load
  split
  · next hnil => exact absurd hnil hstream
  · rw [h]
    dsimp only [bind, Except.bind, Root.replayEnvelopes]
    cases Root.replay id (envelopes.map Envelope.data) with
    | ok root => rfl
    | error cause => rfl

theorem load_of_records {events : List A.Event} (hstream : store.stream id.identity ≠ [])
    (h : A.Records (store.stream id.identity) events) :
    store.load A id = .ok (Root.ofHistory id events) := by
  obtain ⟨envelopes, hdecode, rfl⟩ := decodeAll_carries_iff.2 h.carries
  rw [load_of_decodeAll_ok hstream hdecode, Root.replay_of_accepts id h.accepts]
  rfl

/-- A load succeeds exactly when something is stored and the stream records a history. -/
theorem load_eq_ok_iff {root : Root A} :
    store.load A id = .ok root ↔
      store.stream id.identity ≠ [] ∧ ∃ events,
        A.Records (store.stream id.identity) events ∧ root = Root.ofHistory id events := by
  constructor
  · intro h
    by_cases hstream : store.stream id.identity = []
    · rw [load_of_stream_eq_nil hstream] at h
      cases h
    cases hdecode : decodeAll A (store.stream id.identity) with
    | error fault =>
      rw [load_of_decodeAll_error hstream hdecode] at h
      cases h
    | ok envelopes =>
      rw [load_of_decodeAll_ok hstream hdecode] at h
      cases hreplay : Root.replay id (envelopes.map Envelope.data) with
      | error cause =>
        rw [hreplay] at h
        cases h
      | ok replayed =>
        rw [hreplay] at h
        cases h
        obtain ⟨haccepts, rfl⟩ := Root.replay_eq_ok_iff.1 hreplay
        have hcarries := decodeAll_carries_iff.1 ⟨envelopes, hdecode, rfl⟩
        exact ⟨hstream, _, ⟨hcarries, haccepts⟩, rfl⟩
  · rintro ⟨hstream, events, hrecords, rfl⟩
    exact load_of_records hstream hrecords

end Load

/-! ## Saving -/

/-- All events are encoded, or none is. -/
theorem encodeFrom_cons_eq_ok_iff {id : A.Id} {correlation : Uuid} {stamp : Nat → Stamp}
    {version : Nat} {event : A.Event} {rest : List A.Event} {encoded : List Stored} :
    encodeFrom id correlation stamp version (event :: rest) = .ok encoded ↔
      ∃ stored storedRest,
        ((Envelope.new A.schema A.name id.uuid (version + 1) event correlation
          (stamp version)).encode A.schema : Except A.Fault _) = .ok stored ∧
        encodeFrom id correlation stamp (version + 1) rest = .ok storedRest ∧
        encoded = stored :: storedRest := by
  rw [encodeFrom]
  cases hhead : ((Envelope.new A.schema A.name id.uuid (version + 1) event correlation
      (stamp version)).encode A.schema : Except A.Fault _) with
  | error fault => simp [bind, Except.bind]
  | ok stored =>
    cases htail : encodeFrom id correlation stamp (version + 1) rest with
    | error fault => simp [bind, Except.bind]
    | ok storedRest => simp [bind, Except.bind, pure, Except.pure, eq_comm]

theorem length_of_encodeFrom {id : A.Id} {correlation : Uuid} {stamp : Nat → Stamp}
    {version : Nat} {events : List A.Event} {encoded : List Stored}
    (h : encodeFrom id correlation stamp version events = .ok encoded) :
    encoded.length = events.length := by
  induction events generalizing version encoded with
  | nil =>
    cases h
    rfl
  | cons event rest ih =>
    obtain ⟨stored, storedRest, -, htail, rfl⟩ := encodeFrom_cons_eq_ok_iff.1 h
    rw [List.length_cons, List.length_cons, ih htail]

theorem length_pos_of_encodeFrom {id : A.Id} {correlation : Uuid} {stamp : Nat → Stamp}
    {version : Nat} {events : List A.Event} {encoded : List Stored}
    (h : encodeFrom id correlation stamp version events = .ok encoded) (hevents : events ≠ []) :
    0 < encoded.length := by
  rw [length_of_encodeFrom h]
  exact List.length_pos_iff.2 hevents

/-- With a faithful codec the encoded envelopes carry the events. -/
theorem carries_of_encodeFrom (hschema : A.schema.Faithful) {id : A.Id} {correlation : Uuid}
    {stamp : Nat → Stamp} {version : Nat} {events : List A.Event} {encoded : List Stored}
    (h : encodeFrom id correlation stamp version events = .ok encoded) :
    List.Forall₂ (Envelope.Carries A.schema) encoded events := by
  induction events generalizing version encoded with
  | nil =>
    cases h
    exact List.Forall₂.nil
  | cons event rest ih =>
    obtain ⟨stored, storedRest, hhead, htail, rfl⟩ := encodeFrom_cons_eq_ok_iff.1 h
    exact List.Forall₂.cons (Envelope.carries_of_encode hschema hhead) (ih htail)

section Save

variable {store : Store} {root : Root A} {correlation : Uuid} {stamp : Nat → Stamp}

theorem save_of_corrupted (h : root.corrupted = true) :
    store.save root correlation stamp =
      ⟨.error (.corrupted root.identity.text), root, store, []⟩ := by
  rw [save, if_pos h]

/-- A corrupted root is refused before the versions are compared. -/
theorem corrupted_of_conflict {text : String} {expected actual : Nat}
    (h : (store.save root correlation stamp).result = .error (.conflict text expected actual)) :
    root.corrupted = false := by
  cases hcorrupted : root.corrupted with
  | false => rfl
  | true =>
    rw [save_of_corrupted hcorrupted] at h
    cases h

theorem save_of_uncommitted_eq_nil (hcorrupted : root.corrupted = false)
    (h : root.uncommitted = []) :
    store.save root correlation stamp =
      ⟨.ok (store.currentVersion root.identity), root, store, []⟩ := by
  rw [save, if_neg (by simp [hcorrupted]), if_pos (by simp [Root.hasUncommitted, h])]

theorem save_of_stale (hcorrupted : root.corrupted = false) (hbuffer : root.uncommitted ≠ [])
    (h : root.committed ≠ store.currentVersion root.identity) :
    store.save root correlation stamp =
      ⟨.error (.conflict root.identity.text root.committed (store.currentVersion root.identity)),
        root, store, [.conflict A.name]⟩ := by
  rw [save, if_neg (by simp [hcorrupted]), if_neg (by simp [Root.hasUncommitted, hbuffer]),
    if_pos h]

theorem save_of_current (hcorrupted : root.corrupted = false) (hbuffer : root.uncommitted ≠ [])
    (h : root.committed = store.currentVersion root.identity) :
    store.save root correlation stamp =
      match encodeFrom root.id correlation stamp root.committed root.uncommitted with
      | .error fault => ⟨.error fault, root, store, []⟩
      | .ok envelopes =>
        ⟨.ok (root.committed + root.uncommitted.length), root.drain.2,
          store.append root.identity envelopes, [.appended A.name root.uncommitted.length]⟩ := by
  rw [save, if_neg (by simp [hcorrupted]), if_neg (by simp [Root.hasUncommitted, hbuffer]),
    if_neg (by simp [h])]
  rfl

/-- Encoding fails in one way only. -/
theorem encodeFrom_eq_error {id : A.Id} {version : Nat} {events : List A.Event}
    {fault : A.Fault} (h : encodeFrom id correlation stamp version events = .error fault) :
    fault = .codec := by
  induction events generalizing version with
  | nil => cases h
  | cons event rest ih =>
    rw [encodeFrom] at h
    cases hhead : ((Envelope.new A.schema A.name id.uuid (version + 1) event correlation
        (stamp version)).encode A.schema : Except A.Fault _) with
    | error fault' =>
      rw [hhead] at h
      cases h
      unfold Envelope.encode at hhead
      split at hhead <;> cases hhead
      rfl
    | ok stored =>
      rw [hhead] at h
      cases htail : encodeFrom id correlation stamp (version + 1) rest with
      | error fault' =>
        rw [htail] at h
        cases h
        exact ih htail
      | ok storedRest =>
        rw [htail] at h
        cases h

/-- A save leaves store and root as they are, and is then no append; or the root is sound and
current, and all its recorded events stand behind the stream. -/
theorem save_cases (store : Store) (root : Root A) (correlation : Uuid) (stamp : Nat → Stamp) :
    ((store.save root correlation stamp).store = store ∧
        (store.save root correlation stamp).root = root ∧
        ∀ version, (store.save root correlation stamp).result = .ok version →
          root.uncommitted = []) ∨
      ∃ envelopes, root.corrupted = false ∧ root.uncommitted ≠ [] ∧
        root.committed = store.currentVersion root.identity ∧
        encodeFrom root.id correlation stamp root.committed root.uncommitted = .ok envelopes ∧
        store.save root correlation stamp =
          ⟨.ok (root.committed + root.uncommitted.length), root.drain.2,
            store.append root.identity envelopes, [.appended A.name root.uncommitted.length]⟩ := by
  -- in the order in which the save checks them
  cases hcorrupted : root.corrupted with
  | true =>
    rw [save_of_corrupted hcorrupted]
    exact Or.inl ⟨rfl, rfl, fun _ h => by cases h⟩
  | false =>
    by_cases hbuffer : root.uncommitted = []
    · rw [save_of_uncommitted_eq_nil hcorrupted hbuffer]
      exact Or.inl ⟨rfl, rfl, fun _ _ => hbuffer⟩
    · by_cases hversion : root.committed = store.currentVersion root.identity
      · rw [save_of_current hcorrupted hbuffer hversion]
        cases hencode : encodeFrom root.id correlation stamp root.committed root.uncommitted with
        | error fault => exact Or.inl ⟨rfl, rfl, fun _ h => by cases h⟩
        | ok envelopes => exact Or.inr ⟨envelopes, rfl, hbuffer, hversion, rfl, rfl⟩
      · rw [save_of_stale hcorrupted hbuffer hversion]
        exact Or.inl ⟨rfl, rfl, fun _ h => by cases h⟩

/-- No save shortens or changes what is stored; it only puts envelopes behind it. -/
theorem stream_prefix_save (store : Store) (root : Root A) (correlation : Uuid)
    (stamp : Nat → Stamp) (i : Identity) :
    store.stream i <+: (store.save root correlation stamp).store.stream i := by
  rcases save_cases store root correlation stamp with ⟨hstore, -, -⟩ | ⟨envelopes, -, -, -, -, hsave⟩
  · exact ⟨[], by rw [hstore, List.append_nil]⟩
  · rw [hsave, stream_append]
    by_cases hi : i = root.identity
    · exact ⟨envelopes, by rw [if_pos hi, hi]⟩
    · exact ⟨[], by rw [if_neg hi, List.append_nil]⟩

end Save

end Store

end EventSourcing
