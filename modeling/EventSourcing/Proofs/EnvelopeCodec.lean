import EventSourcing.Proofs.OrderCodec

/-!
# The codec of envelopes

Encoding writes the payload of an envelope as a text and decoding reads it back; both copy all the
other fields. A reader takes more texts than the writer writes, so decoding an envelope and encoding
it again can change its text, but only once: what is written is the canonical text of the event.

* `Envelope.encode_eq_ok_iff`: an envelope is encoded exactly if its event has a text.
* `Envelope.decode_of_encode` goes there and back, for a faithful schema and a listed tag.
* `Envelope.encode_of_decode` and `Envelope.decode_withData` are the other way round: the text
  becomes canonical, and from then on nothing changes.
* `Order.codec_round_trips` is all of it for orders.
-/

namespace EventSourcing

namespace Envelope

variable {Event ε : Type} {schema : EventSchema Event} {aggregateType : String}

/-- An envelope is encoded exactly if its event has a text, and then all else is kept. -/
theorem encode_eq_ok_iff {x : Envelope Event} {stored : Stored} :
    (x.encode schema : Except (Fault ε) _) = .ok stored ↔
      ∃ text, schema.write x.data = some text ∧ stored = x.withData text := by
  unfold encode
  cases schema.write x.data with
  | none => simp
  | some text => simp [eq_comm]

/-- What was encoded is decoded to the same envelope, whatever listed tag it has. -/
theorem decode_of_encode (hschema : schema.Faithful) {x : Envelope Event} {stored : Stored}
    (htag : x.tag ∈ schema.tags) (h : (x.encode schema : Except (Fault ε) _) = .ok stored) :
    (stored.decode schema aggregateType : Except (Fault ε) _) = .ok x := by
  obtain ⟨text, hwrite, rfl⟩ := encode_eq_ok_iff.1 h
  have hcarries : (x.withData text).Carries schema x.data :=
    ⟨List.contains_iff_mem.2 htag, hschema.read_write x.data text hwrite⟩
  exact decode_eq_ok_iff.2 ⟨hcarries, rfl⟩

section Decoded

variable {stored : Stored} {x : Envelope Event} {text : String}

/-- What was decoded is encoded as the same envelope around the canonical text of its event. -/
theorem encode_of_decode (h : (stored.decode schema aggregateType : Except (Fault ε) _) = .ok x)
    (hwrite : schema.write x.data = some text) :
    (x.encode schema : Except (Fault ε) _) = .ok (stored.withData text) := by
  obtain ⟨-, hx⟩ := decode_eq_ok_iff.1 h
  refine encode_eq_ok_iff.2 ⟨text, hwrite, ?_⟩
  -- only the payload differs between the two, and it is replaced in both
  rw [hx]
  rfl

/-- With the canonical text in its place an envelope is decoded as before. -/
theorem decode_withData (hschema : schema.Faithful)
    (h : (stored.decode schema aggregateType : Except (Fault ε) _) = .ok x)
    (hwrite : schema.write x.data = some text) :
    ((stored.withData text).decode schema aggregateType : Except (Fault ε) _) = .ok x := by
  obtain ⟨⟨htag, -⟩, hx⟩ := decode_eq_ok_iff.1 h
  exact decode_eq_ok_iff.2 ⟨⟨htag, hschema.read_write x.data text hwrite⟩, hx⟩

end Decoded

end Envelope

namespace Order

/-- Events of orders and their envelopes go through the codec and back.

* Every event has a text, and it is read as the event.
* A text that is read as an event need not be the one that is written for it. The written one is
  read as the same event, and written for it again.
* An envelope with a listed tag is encoded, and decoded to what it was in every field.
* An envelope that can be decoded is encoded again with all fields as they were but the text, which
  becomes the written one. With that text it is decoded as before, so from then on decoding and
  encoding change nothing. -/
theorem codec_round_trips {ε : Type} (aggregateType : String) :
    (∀ e : Event, ∃ text, schema.write e = some text ∧ schema.read text = some e) ∧
    (∀ (s : String) (e : Event), schema.read s = some e →
      ∃ text, schema.write e = some text ∧ schema.read text = some e ∧
        (schema.read text).bind schema.write = some text) ∧
    (∀ x : Envelope Event, x.tag ∈ schema.tags →
      ∃ stored : Stored, (x.encode schema : Except (Fault ε) _) = .ok stored ∧
        (stored.decode schema aggregateType : Except (Fault ε) _) = .ok x) ∧
    ∀ (stored : Stored) (x : Envelope Event),
      (stored.decode schema aggregateType : Except (Fault ε) _) = .ok x →
        ∃ text, schema.write x.data = some text ∧
          let again : Stored := { stored with data := text }
          (x.encode schema : Except (Fault ε) _) = .ok again ∧
            (again.decode schema aggregateType : Except (Fault ε) _) = .ok x := by
  have hwrite (e : Event) : schema.write e = some e.write := rfl
  have hread (e : Event) : schema.read e.write = some e := e.read_write
  refine ⟨fun e => ⟨_, hwrite e, hread e⟩, fun s e _ => ⟨_, hwrite e, hread e, ?_⟩,
    fun x htag => ?_, fun stored x hdecode => ?_⟩
  · rw [hread, Option.bind_some, hwrite]
  · have hencode : (x.encode schema : Except (Fault ε) _) = .ok (x.withData x.data.write) :=
      Envelope.encode_eq_ok_iff.2 ⟨_, hwrite x.data, rfl⟩
    exact ⟨_, hencode, Envelope.decode_of_encode schema_faithful htag hencode⟩
  · exact ⟨_, hwrite x.data, Envelope.encode_of_decode hdecode (hwrite x.data),
      Envelope.decode_withData schema_faithful hdecode (hwrite x.data)⟩

end Order

end EventSourcing
