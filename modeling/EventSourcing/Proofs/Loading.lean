import EventSourcing.Proofs.Recording
import EventSourcing.Proofs.Streams

/-!
# Loads that fail

A load goes through a stream twice: it decodes all envelopes, and then it applies all events. So an
envelope that cannot be decoded comes before an event that cannot be applied, wherever the two
stand, and nothing is left out or put in.

* `Envelope.Unreadable` says which envelopes cannot be decoded, and with which fault;
  `Envelope.decode_eq_error_iff` proves it of the decoder.
* `Store.decodeAll_eq_error_iff`: a stream is refused for the first envelope that is unreadable.
* `Store.Loads` says which answer of a load fits a stream. The answer that is given fits
  (`Store.loads_load`) and no other does (`Store.load_of_loads`), so it is the one that fits
  (`Store.load_eq_iff_loads`).
* `Store.load_precedence` sums up.
-/

namespace EventSourcing

/-! ## Envelopes that cannot be decoded -/

namespace Envelope

variable {Event ε : Type} {schema : EventSchema Event} {aggregateType : String} {stored : Stored}
  {fault : Fault ε}

/-- An envelope cannot be decoded, and a fault says why. A tag that is not listed is named whatever
the payload is like. -/
inductive Unreadable (schema : EventSchema Event) (aggregateType : String) (stored : Stored) :
    Fault ε → Prop
  | tag (h : stored.tag ∉ schema.tags) :
    Unreadable schema aggregateType stored (.unknownTag aggregateType stored.tag schema.tags)
  | payload (htag : stored.tag ∈ schema.tags) (hread : schema.read stored.data = none) :
    Unreadable schema aggregateType stored .codec

theorem decode_eq_error_iff :
    (stored.decode schema aggregateType : Except (Fault ε) _) = .error fault ↔
      stored.Unreadable schema aggregateType fault := by
  unfold decode
  constructor
  · intro h
    split at h
    · next htag =>
      split at h
      · cases h
      · next hread =>
        cases h
        exact .payload (List.contains_iff_mem.1 htag) hread
    · next htag =>
      cases h
      exact .tag (mt List.contains_iff_mem.2 htag)
  · rintro (htag | ⟨htag, hread⟩)
    · rw [if_neg (mt List.contains_iff_mem.1 htag)]
    · rw [if_pos (List.contains_iff_mem.2 htag), hread]

/-- An envelope can be decoded exactly if it carries an event. -/
theorem exists_decode_eq_ok_iff :
    (∃ envelope, (stored.decode schema aggregateType : Except (Fault ε) _) = .ok envelope) ↔
      ∃ event, stored.Carries schema event := by
  constructor
  · rintro ⟨envelope, hdecode⟩
    exact ⟨envelope.data, (decode_eq_ok_iff.1 hdecode).1⟩
  · rintro ⟨event, hcarries⟩
    exact ⟨stored.withData event, decode_eq_ok_iff.2 ⟨hcarries, rfl⟩⟩

end Envelope

namespace Store

variable {A : Aggregate}

/-! ## Streams that cannot be decoded -/

/-- The fault of the first envelope in a stream that cannot be decoded. -/
def FirstUnreadable (A : Aggregate) (stream : List Stored) (fault : A.Fault) : Prop :=
  ∃ before stored rest, stream = before ++ stored :: rest ∧
    (∀ x ∈ before, ∃ event, x.Carries A.schema event) ∧ stored.Unreadable A.schema A.name fault

/-- A stream is refused for its first unreadable envelope, and for no other reason. -/
theorem decodeAll_eq_error_iff {stream : List Stored} {fault : A.Fault} :
    decodeAll A stream = .error fault ↔ FirstUnreadable A stream fault := by
  constructor
  · intro h
    induction stream with
    | nil => cases h
    | cons stored rest ih =>
      rw [decodeAll] at h
      cases hdecode : (stored.decode A.schema A.name : Except A.Fault _) with
      | error fault' =>
        rw [hdecode] at h
        cases h
        exact ⟨[], stored, rest, rfl, List.forall_mem_nil _, Envelope.decode_eq_error_iff.1 hdecode⟩
      | ok envelope =>
        cases hrest : decodeAll A rest with
        | ok envelopes =>
          rw [hdecode, hrest] at h
          cases h
        | error fault' =>
          rw [hdecode, hrest] at h
          cases h
          obtain ⟨before, failing, after, rfl, hbefore, hfailing⟩ := ih hrest
          have hstored : ∃ event, stored.Carries A.schema event :=
            Envelope.exists_decode_eq_ok_iff.1 ⟨envelope, hdecode⟩
          exact ⟨stored :: before, failing, after, rfl,
            List.forall_mem_cons.2 ⟨hstored, hbefore⟩, hfailing⟩
  · rintro ⟨before, stored, rest, rfl, hbefore, hstored⟩
    induction before with
    | nil =>
      rw [List.nil_append, decodeAll, Envelope.decode_eq_error_iff.2 hstored]
      rfl
    | cons first before ih =>
      obtain ⟨hfirst, hbefore⟩ := List.forall_mem_cons.1 hbefore
      obtain ⟨envelope, hdecode⟩ :
          ∃ envelope, (first.decode A.schema A.name : Except A.Fault _) = .ok envelope :=
        Envelope.exists_decode_eq_ok_iff.2 hfirst
      rw [List.cons_append, decodeAll, hdecode, ih hbefore]
      rfl

/-! ## What a load answers -/

/-- What a load may answer for a stream: nothing is stored; or an envelope cannot be decoded; or all
can, and an event cannot be applied; or all events can, and they are the history. No stream fits two
of these. -/
inductive Loads (A : Aggregate) (id : A.Id) (stream : List Stored) :
    Except A.Fault (Root A) → Prop
  | absent (h : stream = []) : Loads A id stream (.error (.notFound id.identity.text))
  | unreadable {fault : A.Fault} (h : FirstUnreadable A stream fault) :
    Loads A id stream (.error fault)
  | refused {before rest : List A.Event} {event : A.Event} {e : A.Error}
    (hcarries : List.Forall₂ (Envelope.Carries A.schema) stream (before ++ event :: rest))
    (hbreaks : A.Breaks A.initial before event e) :
    Loads A id stream (.error (.replay id.identity.text e))
  | loaded {events : List A.Event} (h : stream ≠ []) (hrecords : A.Records stream events) :
    Loads A id stream (.ok (Root.ofHistory id events))

/-- Every load gives an answer that fits. -/
theorem loads_load (store : Store) (id : A.Id) :
    Loads A id (store.stream id.identity) (store.load A id) := by
  by_cases hstream : store.stream id.identity = []
  · rw [load_of_stream_eq_nil hstream]
    exact .absent hstream
  cases hdecode : decodeAll A (store.stream id.identity) with
  | error fault =>
    rw [load_of_decodeAll_error hstream hdecode]
    exact .unreadable (decodeAll_eq_error_iff.1 hdecode)
  | ok envelopes =>
    have hcarries := decodeAll_carries_iff.1 ⟨envelopes, hdecode, rfl⟩
    rw [load_of_decodeAll_ok hstream hdecode]
    cases hreplay : Root.replay id (envelopes.map Envelope.data) with
    | error cause =>
      obtain ⟨before, event, rest, hsplit, hbreaks⟩ :=
        Root.exists_breaks_of_advanceAll (Root.new id) hreplay
      rw [hsplit] at hcarries
      exact .refused hcarries hbreaks
    | ok root =>
      obtain ⟨haccepts, rfl⟩ := Root.replay_eq_ok_iff.1 hreplay
      exact .loaded hstream ⟨hcarries, haccepts⟩

/-- No other answer fits. -/
theorem load_of_loads {store : Store} {id : A.Id} {result : Except A.Fault (Root A)}
    (h : Loads A id (store.stream id.identity) result) : store.load A id = result := by
  cases h with
  | absent hstream => exact load_of_stream_eq_nil hstream
  | unreadable hfirst =>
    have hdecode := decodeAll_eq_error_iff.2 hfirst
    have hstream : store.stream id.identity ≠ [] := by
      intro hnil
      rw [hnil] at hdecode
      cases hdecode
    exact load_of_decodeAll_error hstream hdecode
  | @refused before rest event e hcarries hbreaks =>
    have hstream : store.stream id.identity ≠ [] := by
      intro hnil
      have hlength := hcarries.length_eq
      rw [hnil, List.length_append, List.length_cons, List.length_nil] at hlength
      omega
    obtain ⟨envelopes, hdecode, hevents⟩ := decodeAll_carries_iff.2 hcarries
    have hreplay : Root.replay id (before ++ event :: rest) = .error e :=
      Root.advanceAll_of_breaks (Root.new id) hbreaks rest
    rw [load_of_decodeAll_ok hstream hdecode, hevents, hreplay]
    rfl
  | loaded hstream hrecords => exact load_of_records hstream hrecords

theorem load_eq_iff_loads {store : Store} {id : A.Id} {result : Except A.Fault (Root A)} :
    store.load A id = result ↔ Loads A id (store.stream id.identity) result := by
  constructor
  · rintro rfl
    exact loads_load store id
  · exact load_of_loads

/-! ## Absent streams -/

theorem stream_eq_nil_iff {store : Store} {i : Identity} :
    store.stream i = [] ↔ store.stream? i = none ∨ store.stream? i = some [] := by
  unfold stream
  cases store.stream? i with
  | none => simp
  | some envelopes => simp

theorem contains_eq_false_iff {store : Store} {i : Identity} :
    store.contains i = false ↔ store.stream i = [] := by
  rw [contains, decide_eq_false_iff_not, currentVersion_pos_iff, not_not]

/-- Nothing is found only where nothing is stored: neither decoding nor replaying finds that
something is missing. -/
theorem exists_load_eq_notFound_iff {store : Store} {id : A.Id} :
    (∃ text, store.load A id = .error (.notFound text)) ↔ store.stream id.identity = [] := by
  constructor
  · rintro ⟨text, hload⟩
    cases load_eq_iff_loads.1 hload with
    | absent hstream => exact hstream
    | unreadable hfirst =>
      obtain ⟨_, _, _, _, _, hunreadable⟩ := hfirst
      cases hunreadable
  · intro hstream
    exact ⟨_, load_of_stream_eq_nil hstream⟩

/-- What a load gives, for every store and every aggregate, whatever the envelopes hold.

* It answers exactly what `Loads` says: an unreadable envelope comes before an event that cannot
  follow, and of several the first one counts.
* It finds nothing exactly where no stream is kept, or an empty one, which is where the store does
  not contain the identity.
* A root that it gives is sound, with nothing to save, and its version is the length of the stream.
* Neither it nor the question whether there is a stream changes the store or the counters. -/
theorem load_precedence (store : Store) (metrics : Metrics) (id : A.Id) :
    (∀ result, store.load A id = result ↔ Loads A id (store.stream id.identity) result) ∧
    ((∃ text, store.load A id = .error (.notFound text)) ↔
      store.stream? id.identity = none ∨ store.stream? id.identity = some []) ∧
    (store.contains id.identity = false ↔
      store.stream? id.identity = none ∨ store.stream? id.identity = some []) ∧
    (∀ root, store.load A id = .ok root →
      root.corrupted = false ∧ root.uncommitted = [] ∧
        root.version = store.currentVersion id.identity ∧
        root.committed = store.currentVersion id.identity) ∧
    (StoreAccess.ofState (A := A)).load id (store, metrics) =
      (store.load A id, (store, metrics)) ∧
    (StoreAccess.ofState (A := A)).contains id.identity (store, metrics) =
      (.ok (store.contains id.identity), (store, metrics)) := by
  refine ⟨fun result => load_eq_iff_loads, ?_, ?_, fun root hload => ?_, rfl, rfl⟩
  · rw [exists_load_eq_notFound_iff, stream_eq_nil_iff]
  · rw [contains_eq_false_iff, stream_eq_nil_iff]
  · obtain ⟨-, events, hrecords, rfl⟩ := load_eq_ok_iff.1 hload
    have hlength : events.length = store.currentVersion id.identity := hrecords.length_eq.symm
    exact ⟨rfl, rfl, hlength, hlength⟩

end Store

end EventSourcing
