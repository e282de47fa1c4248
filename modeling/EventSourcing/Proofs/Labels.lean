import EventSourcing.Proofs.EnvelopeCodec
import EventSourcing.Proofs.Loading
import EventSourcing.Proofs.Representation

/-!
# Labels

A stored envelope has two labels, the name of a kind of aggregate and the tag of an event. Decoding
compares neither of them with what it gives: the tag has to be listed and the payload readable, and
the kind that is asked for is only named in an error. That the labels of a stream agree with its
events is the work of the saves, and only as far as one kind of aggregate writes the stream.

* `Envelope.Consistent` is an envelope whose labels are those of its event.
* `Written.ReadAs` says what becomes of a written event where the events of an aggregate are read.
* `Store.decodeAll_of_made` is a stream that several kinds of aggregate have written.
* `Workspace.labels_agree` sums up; `Workspace.labels_unchecked` is what is not checked.
-/

namespace EventSourcing

/-- The labels of an envelope are those of its event. -/
structure Envelope.Consistent (A : Aggregate) (x : Envelope A.Event) : Prop where
  aggregateType : x.aggregateType = A.name
  tag : x.tag = A.schema.tag x.data

namespace Written

variable {A : Aggregate} {i : Identity} {e : Written} {stored : Stored} {x : Envelope A.Event}

/-- The tag of an event is none that an aggregate lists. -/
def Foreign (A : Aggregate) (e : Written) : Prop := e.aggregate.schema.tag e.event ∉ A.schema.tags

/-- What a written event is read as: its labels are those of its writer, and an event that the
aggregate has written itself is the one that it wrote. -/
structure ReadAs (A : Aggregate) (e : Written) (x : Envelope A.Event) : Prop where
  aggregateType : x.aggregateType = e.aggregate.name
  tag : x.tag = e.aggregate.schema.tag e.event
  listed : x.tag ∈ A.schema.tags
  own : ∀ id correlation event, e = ⟨A, id, correlation, event⟩ → x.data = event

theorem ReadAs.consistent (h : e.ReadAs A x) (hown : e.aggregate = A) : x.Consistent A := by
  obtain ⟨B, id, correlation, event⟩ := e
  subst hown
  refine ⟨h.aggregateType, ?_⟩
  rw [h.own id correlation event rfl]
  exact h.tag

theorem Made.readAs (hmade : e.Made i stored) (hschema : A.schema.Faithful)
    (h : (stored.decode A.schema A.name : Except A.Fault _) = .ok x) : e.ReadAs A x := by
  obtain ⟨⟨htag, hread⟩, hx⟩ := Envelope.decode_eq_ok_iff.1 h
  refine ⟨?_, ?_, ?_, ?_⟩
  · rw [hx]
    exact hmade.aggregateType
  · rw [hx]
    exact hmade.tag
  · rw [hx]
    exact List.contains_iff_mem.1 htag
  · rintro id correlation event rfl
    have hown := hschema.read_write event stored.data hmade.data
    exact Option.some.inj (hread.symm.trans hown)

theorem Made.exists_decode (hmade : e.Made i stored) (hschema : A.schema.Faithful)
    (hown : e.aggregate = A) : ∃ x, (stored.decode A.schema A.name : Except A.Fault _) = .ok x := by
  obtain ⟨B, id, correlation, event⟩ := e
  subst hown
  have htag := hschema.tag_listed event
  rw [← hmade.tag] at htag
  exact Envelope.exists_decode_eq_ok_iff.2
    ⟨event, htag, hschema.read_write event stored.data hmade.data⟩

theorem Made.decode_of_foreign (hmade : e.Made i stored) (hforeign : e.Foreign A) :
    (stored.decode A.schema A.name : Except A.Fault _)
      = .error (.unknownTag A.name (e.aggregate.schema.tag e.event) A.schema.tags) := by
  rw [← hmade.tag]
  exact Envelope.decode_eq_error_iff.2 (.tag (hmade.tag ▸ hforeign))

end Written

namespace Store

variable {A : Aggregate} {i : Identity} {events : List Written} {stream : List Stored}

/-- A stream that can be read is read as what was written. -/
theorem readAs_of_decodeAll (hschema : A.schema.Faithful)
    (hmade : List.Forall₂ (Written.Made i) events stream) {envelopes : List (Envelope A.Event)}
    (h : decodeAll A stream = .ok envelopes) :
    List.Forall₂ (Written.ReadAs A) events envelopes := by
  induction hmade generalizing envelopes with
  | nil =>
    obtain rfl := Except.ok.inj h
    exact List.Forall₂.nil
  | cons hhead _ ih =>
    cases decodeAll_eq_ok_iff.1 h with
    | cons hdecode hrest =>
      exact List.Forall₂.cons (hhead.readAs hschema (Envelope.decode_eq_ok_iff.2 hdecode))
        (ih (decodeAll_eq_ok_iff.2 hrest))

/-- A stream of an aggregate's own events and foreign ones can be read if all are its own, and else it
is refused for the tag of the first foreign one. -/
theorem decodeAll_of_made (hschema : A.schema.Faithful)
    (hmade : List.Forall₂ (Written.Made i) events stream)
    (hevents : ∀ e ∈ events, e.aggregate = A ∨ e.Foreign A) :
    ((∀ e ∈ events, e.aggregate = A) ∧ ∃ envelopes, decodeAll A stream = .ok envelopes) ∨
      ∃ before e after, events = before ++ e :: after ∧ (∀ e' ∈ before, e'.aggregate = A) ∧
        e.Foreign A ∧ decodeAll A stream
          = .error (.unknownTag A.name (e.aggregate.schema.tag e.event) A.schema.tags) := by
  induction hmade with
  | nil => exact Or.inl ⟨List.forall_mem_nil _, [], rfl⟩
  | @cons e stored events rest hhead _ ih =>
    obtain ⟨he, hevents⟩ := List.forall_mem_cons.1 hevents
    rcases he with hown | hforeign
    · obtain ⟨x, hdecode⟩ := hhead.exists_decode hschema hown
      rcases ih hevents with ⟨hall, xs, hrest⟩ | ⟨before, e', after, rfl, hbefore, hforeign, hrest⟩
      · refine Or.inl ⟨List.forall_mem_cons.2 ⟨hown, hall⟩, x :: xs, ?_⟩
        rw [decodeAll, hdecode, hrest]
        rfl
      · refine Or.inr ⟨e :: before, e', after, rfl, List.forall_mem_cons.2 ⟨hown, hbefore⟩,
          hforeign, ?_⟩
        rw [decodeAll, hdecode, hrest]
        rfl
    · refine Or.inr ⟨[], e, events, rfl, List.forall_mem_nil _, hforeign, ?_⟩
      rw [decodeAll, hhead.decode_of_foreign hforeign]
      rfl

end Store

namespace Workspace

variable {A : Aggregate} {w : Workspace} {id : A.Id} {root : Root A}

/-- A load has applied what was written under the identity, read as its own. -/
theorem Sound.load_readAs (hw : w.Sound) (hschema : A.schema.Faithful)
    (h : w.store.load A id = .ok root) : ∃ envelopes : List (Envelope A.Event),
      Store.decodeAll A (w.store.stream id.identity) = .ok envelopes ∧
      root = Root.ofHistory id (envelopes.map Envelope.data) ∧
      List.Forall₂ (Written.ReadAs A) (w.writtenTo id.identity) envelopes := by
  obtain ⟨-, events, hrecords, rfl⟩ := Store.load_eq_ok_iff.1 h
  obtain ⟨envelopes, hdecode, rfl⟩ := Store.decodeAll_carries_iff.2 hrecords.carries
  exact ⟨envelopes, hdecode, rfl, Store.readAs_of_decodeAll hschema (hw.made id.identity) hdecode⟩

/-- With tags that tell the kinds apart, all that is written under an identity is an aggregate's own,
or no load of it comes past the first foreign event. -/
theorem Sound.own_or_refused (hw : w.Sound) (hschema : A.schema.Faithful)
    (hevents : ∀ e ∈ w.writtenTo id.identity, e.aggregate = A ∨ e.Foreign A) :
    (∀ e ∈ w.writtenTo id.identity, e.aggregate = A) ∨
      ∃ before e after, w.writtenTo id.identity = before ++ e :: after ∧
        (∀ e' ∈ before, e'.aggregate = A) ∧ e.Foreign A ∧ w.store.load A id
          = .error (.unknownTag A.name (e.aggregate.schema.tag e.event) A.schema.tags) := by
  rcases Store.decodeAll_of_made hschema (hw.made id.identity) hevents with
    ⟨hall, -⟩ | ⟨before, e, after, hsplit, hbefore, hforeign, hdecode⟩
  · exact Or.inl hall
  · have hstream : w.store.stream id.identity ≠ [] := by
      intro hnil
      rw [hnil] at hdecode
      cases hdecode
    exact Or.inr ⟨before, e, after, hsplit, hbefore, hforeign,
      Store.load_of_decodeAll_error hstream hdecode⟩

/-- What an envelope is decoded to, and which events a load applies after any run of saves.

* An envelope is decoded exactly if its tag is listed and its payload can be read, and all its fields
  are kept; else the tag or the payload is why it is not. The kind that is asked for is named in the
  error, and does not decide anything.
* An event that a load applies has the labels of the aggregate that wrote it, with a tag that is
  listed. If the aggregate that is loaded has written it, then it is the event that was written, and
  its labels are consistent.
* Where all events under an identity are the aggregate's own or have a tag that it does not list, a
  load applies its own events only, with consistent labels; and it is refused for the tag of the first
  foreign event if there is one. -/
theorem labels_agree :
    (∀ {Event ε : Type} (schema : EventSchema Event) (requested : String) (stored : Stored),
      (∀ x, (stored.decode schema requested : Except (Fault ε) _) = .ok x ↔
        stored.tag ∈ schema.tags ∧ schema.read stored.data = some x.data ∧
          x = stored.withData x.data) ∧
      ∀ fault, (stored.decode schema requested : Except (Fault ε) _) = .error fault ↔
        stored.Unreadable schema requested fault) ∧
    ∀ {A : Aggregate} {w : Workspace}, A.schema.Faithful → w.Reachable → ∀ id : A.Id,
      (∀ root, w.store.load A id = .ok root → ∃ envelopes : List (Envelope A.Event),
        Store.decodeAll A (w.store.stream id.identity) = .ok envelopes ∧
        root = Root.ofHistory id (envelopes.map Envelope.data) ∧
        List.Forall₂ (fun e x => e.ReadAs A x ∧ (e.aggregate = A → x.Consistent A))
          (w.writtenTo id.identity) envelopes) ∧
      ((∀ e ∈ w.writtenTo id.identity, e.aggregate = A ∨ e.Foreign A) →
        (∀ root, w.store.load A id = .ok root → ∃ envelopes : List (Envelope A.Event),
          Store.decodeAll A (w.store.stream id.identity) = .ok envelopes ∧
          root = Root.ofHistory id (envelopes.map Envelope.data) ∧
          List.Forall₂ (fun e x => e.aggregate = A ∧ x.Consistent A)
            (w.writtenTo id.identity) envelopes) ∧
        ((∀ e ∈ w.writtenTo id.identity, e.aggregate = A) ∨
          ∃ before e after, w.writtenTo id.identity = before ++ e :: after ∧
            (∀ e' ∈ before, e'.aggregate = A) ∧ e.Foreign A ∧ w.store.load A id
              = .error (.unknownTag A.name (e.aggregate.schema.tag e.event) A.schema.tags))) := by
  refine ⟨fun schema requested stored => ⟨fun x => ?_, fun fault => ?_⟩, ?_⟩
  · rw [Envelope.decode_eq_ok_iff, Envelope.Carries, List.contains_iff_mem, and_assoc]
  · exact Envelope.decode_eq_error_iff
  · intro A w hschema hreach id
    have hw := sound_of_reachable hreach
    refine ⟨fun root hload => ?_, fun hevents => ⟨fun root hload => ?_,
      hw.own_or_refused hschema hevents⟩⟩
    · obtain ⟨envelopes, hdecode, hroot, hread⟩ := hw.load_readAs hschema hload
      exact ⟨envelopes, hdecode, hroot, hread.imp fun e x h => ⟨h, h.consistent⟩⟩
    · obtain ⟨envelopes, hdecode, hroot, hread⟩ := hw.load_readAs hschema hload
      rcases hw.own_or_refused hschema hevents with hall | ⟨_, _, _, _, _, _, herror⟩
      · have hown := (List.forall₂_and_left _ _).2 ⟨hall, hread⟩
        exact ⟨envelopes, hdecode, hroot, hown.imp fun e x h => ⟨h.1, h.2.consistent h.1⟩⟩
      · exact absurd (herror.symm.trans hload) nofun

/-- An order, and an archive of orders with one event of a tag of its own, under two identities. The
order is loaded with its own labels, and no order is loaded where the archive has written. -/
theorem labels_agree_archive :
    let id : Order.aggregate.Id := ⟨Uuid.nil⟩
    let other : Order.aggregate.Id := ⟨Uuid.ofNat 1⟩
    ∃ w : Workspace, Order.aggregate.schema.Faithful ∧ w.Reachable ∧
      (∃ x : Envelope Order.aggregate.Event,
        Store.decodeAll Order.aggregate (w.store.stream id.identity) = .ok [x] ∧
        x.Consistent Order.aggregate) ∧
      w.store.load Order.aggregate other
        = .error (.unknownTag "order" "OrderArchived" Order.schema.tags) := by
  intro id other
  let archive : Aggregate := { Order.aggregate with
    name := "archive"
    schema := { Order.schema with tags := ["OrderArchived"], tag := fun _ => "OrderArchived" } }
  let now : Timestamp := ⟨⟨1970, 1, 1, by decide, by decide⟩, 0, 0, by decide, by decide⟩
  let created : Order.Event := .created ⟨Uuid.nil⟩ [] now
  let stamp : Nat → Stamp := fun _ => ⟨Uuid.nil, now⟩
  have hordered := (((Relation.ReflTransGen.refl (r := Step) (a := start)).tail
    (.new (A := Order.aggregate) id)).tail (.record (k := 0) rfl created)).tail
    (.save (k := 0) rfl Uuid.nil stamp)
  have hreach := ((hordered.tail (.new (A := archive) other)).tail
    (.record (k := 1) rfl created)).tail (.save (k := 1) rfl Uuid.nil stamp)
  obtain ⟨-, hlabels⟩ := labels_agree
  refine ⟨_, Order.schema_faithful, hreach, ?_, ?_⟩
  · obtain ⟨hread, -⟩ := hlabels Order.schema_faithful hreach id
    have haccepts : Order.aggregate.Accepts Order.aggregate.initial [created] := ⟨rfl, trivial⟩
    obtain ⟨envelopes, hdecode, -, hall⟩ := hread _ (Store.load_of_records nofun
      ⟨.cons ⟨by decide, created.read_write⟩ .nil, haccepts⟩)
    let saved : Written := ⟨Order.aggregate, id, Uuid.nil, created⟩
    have hwritten : List.Forall₂ _ [saved] envelopes := hall
    obtain ⟨x, xs, ⟨-, hconsistent⟩, hrest, rfl⟩ := List.forall₂_cons_left_iff.1 hwritten
    obtain rfl := List.forall₂_nil_left_iff.1 hrest
    exact ⟨x, hdecode, hconsistent rfl⟩
  · obtain ⟨-, htags⟩ := hlabels Order.schema_faithful hreach other
    let archived : Written := ⟨archive, other, Uuid.nil, created⟩
    have hforeign : "OrderArchived" ∉ Order.schema.tags := by decide
    obtain ⟨-, hown | ⟨before, e, after, hsplit, -, -, hload⟩⟩ := htags fun e he =>
      Or.inr (List.mem_singleton.1 he ▸ hforeign)
    · have hname := congrArg Aggregate.name (hown archived (List.mem_singleton_self _))
      exact absurd hname (by decide)
    · have hwritten : [archived] = before ++ e :: after := hsplit
      have hmem : e ∈ [archived] := by
        rw [hwritten]
        exact List.mem_append_right before List.mem_cons_self
      obtain rfl := List.mem_singleton.1 hmem
      exact hload

/-- Nothing tells an order what it decodes. An envelope of a ledger that has the tag of a delivery and
holds the confirmation of an order is decoded for an order, with these labels; and an order is loaded
from what a kind of another name has stored. -/
theorem labels_unchecked :
    let now : Timestamp := ⟨⟨1970, 1, 1, by decide, by decide⟩, 0, 0, by decide, by decide⟩
    let confirmed : Order.Event := .confirmed now
    let stored : Stored := ⟨Uuid.nil, "ledger", Uuid.nil, 1, "OrderDelivered", 1, confirmed.write,
      none, Uuid.nil, now, []⟩
    let id : Order.aggregate.Id := ⟨Uuid.nil⟩
    (∃ x, (stored.decode Order.schema "order" : Except (Fault Order.Rejection) _) = .ok x ∧
      x.aggregateType ≠ "order" ∧ x.tag ≠ Order.schema.tag x.data) ∧
    ∃ w : Workspace, w.Reachable ∧ (∃ root, w.store.load Order.aggregate id = .ok root) ∧
      ∃ stored ∈ w.store.stream id.identity, stored.aggregateType ≠ Order.aggregate.name := by
  intro now confirmed stored id
  constructor
  · have hcarries : stored.Carries Order.schema confirmed :=
      ⟨by decide, confirmed.read_write⟩
    exact ⟨stored.withData confirmed, Envelope.decode_eq_ok_iff.2 ⟨hcarries, rfl⟩, by decide,
      by decide⟩
  · let legacy : Aggregate := { Order.aggregate with name := "legacy" }
    let created : Order.Event := .created ⟨Uuid.nil⟩ [] now
    have hreach := ((Relation.ReflTransGen.refl (r := Step) (a := start)).tail
      (.new (A := legacy) id)).tail (.record (k := 0) rfl created)
    have hsaved := hreach.tail (.save (k := 0) rfl Uuid.nil fun _ => ⟨Uuid.nil, now⟩)
    have haccepts : Order.aggregate.Accepts Order.aggregate.initial [created] := ⟨rfl, trivial⟩
    refine ⟨_, hsaved, ⟨_, Store.load_of_records nofun ⟨.cons ⟨?_, created.read_write⟩ .nil,
      haccepts⟩⟩, _, List.mem_singleton_self _, ?_⟩
    · decide
    · decide

end Workspace

end EventSourcing
