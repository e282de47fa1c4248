import EventSourcing.Fault
import EventSourcing.Timestamp.Text

/-!
# Events and their envelopes

An event of a domain is stored as a text. Its envelope carries what the store keeps beside it:
the place in the stream, the tag that says what kind of event it is, and where it came from.

* `Envelope.encode` writes the payload;
* `Envelope.decode` reads it back, and refuses a tag that the domain does not list.
-/

namespace EventSourcing

/-- How the events of a domain are tagged and stored. -/
structure EventSchema (Event : Type) where
  /-- The tags that are accepted when stored events are read. -/
  tags : List String
  tag : Event → String
  version : Event → Int32
  /-- The stored text of an event, if it has one. -/
  write : Event → Option String
  read : String → Option Event

structure Envelope (payload : Type) where
  eventId : Uuid
  aggregateType : String
  aggregateId : Uuid
  /-- The place in the stream, from one. -/
  sequence : Nat
  tag : String
  version : Int32
  data : payload
  causation : Option Uuid
  correlation : Uuid
  recordedAt : Timestamp
  /-- Notes by key, each key once. -/
  metadata : List (String × String)
deriving DecidableEq

/-- An envelope as the store keeps it. -/
abbrev Stored := Envelope String

/-- What a store stamps on a new envelope: a fresh identifier and a reading of the clock. -/
structure Stamp where
  eventId : Uuid
  recordedAt : Timestamp
deriving DecidableEq

namespace Timestamp

def toJson (t : Timestamp) : Json := .text t.text

def ofJson? (v : Json) : Option Timestamp := v.text?.bind parse

end Timestamp

namespace Envelope

variable {Event payload : Type}

/-- A new envelope, without cause and without notes. -/
def new (schema : EventSchema Event) (aggregateType : String) (aggregateId : Uuid)
    (sequence : Nat) (event : Event) (correlation : Uuid) (stamp : Stamp) : Envelope Event where
  eventId := stamp.eventId
  aggregateType := aggregateType
  aggregateId := aggregateId
  sequence := sequence
  tag := schema.tag event
  version := schema.version event
  data := event
  causation := none
  correlation := correlation
  recordedAt := stamp.recordedAt
  metadata := []

/-- The same envelope around another payload. -/
def withData {payload' : Type} (e : Envelope payload) (data : payload') : Envelope payload' :=
  { e with data := data }

/-- The same envelope, caused by the given event. -/
def causedBy (e : Envelope payload) (cause : Uuid) : Envelope payload :=
  { e with causation := some cause }

/-- The same envelope with a note; an earlier note under the key is replaced. -/
def noted (e : Envelope payload) (key value : String) : Envelope payload :=
  { e with metadata := e.metadata.filter (·.1 ≠ key) ++ [(key, value)] }

def encode {ε : Type} (schema : EventSchema Event) (e : Envelope Event) :
    Except (Fault ε) Stored :=
  match schema.write e.data with
  | some text => .ok (e.withData text)
  | none => .error .codec

def decode {ε : Type} (schema : EventSchema Event) (aggregateType : String) (e : Stored) :
    Except (Fault ε) (Envelope Event) :=
  if schema.tags.contains e.tag then
    match schema.read e.data with
    | some event => .ok (e.withData event)
    | none => .error .codec
  else .error (.unknownTag aggregateType e.tag schema.tags)

/-! ## JSON -/

/-- The fields of an envelope in order. -/
def fieldNames : List String :=
  ["event_id", "aggregate_type", "aggregate_id", "sequence_number", "event_type",
    "event_version", "event_data", "causation_id", "correlation_id", "timestamp", "metadata"]

def toJson (write : payload → Json) (e : Envelope payload) : Json :=
  .record [
    ("event_id", e.eventId.toJson),
    ("aggregate_type", .text e.aggregateType),
    ("aggregate_id", e.aggregateId.toJson),
    ("sequence_number", .nat e.sequence),
    ("event_type", .text e.tag),
    ("event_version", .int e.version.toInt),
    ("event_data", write e.data),
    ("causation_id", .ofOption Uuid.toJson e.causation),
    ("correlation_id", e.correlation.toJson),
    ("timestamp", e.recordedAt.toJson),
    ("metadata", .record (e.metadata.map fun m => (m.1, .text m.2)))]

def ofJson? (v : Json) : Option Stored := do
  let fields ← v.record? fieldNames
  return {
    eventId := ← fields.required "event_id" Uuid.ofJson?
    aggregateType := ← fields.required "aggregate_type" Json.text?
    aggregateId := ← fields.required "aggregate_id" Uuid.ofJson?
    sequence := ← fields.required "sequence_number" (Json.natBelow? UInt64.size)
    tag := ← fields.required "event_type" Json.text?
    version := ← fields.required "event_version" Json.int32?
    data := ← fields.required "event_data" Json.text?
    causation := ← fields.optional "causation_id" Uuid.ofJson?
    correlation := ← fields.required "correlation_id" Uuid.ofJson?
    recordedAt := ← fields.required "timestamp" Timestamp.ofJson?
    metadata := ← fields.required "metadata" Json.texts? }

end Envelope

end EventSourcing
