import EventSourcing.ErrorKind
import EventSourcing.Text.Blank
import EventSourcing.Text.Quoted
import EventSourcing.Uuid

/-!
# Identity of aggregates

Every kind of aggregate has identifiers of its own type. Where identifiers of all kinds meet, an
`Identity` keeps the kind beside the number, so equal numbers of two kinds stay apart.
-/

namespace EventSourcing

/-- A kind of identifier: its tag in an identity, and the name of its type in diagnostic texts. -/
structure IdKind where
  tag : String
  label : String
deriving DecidableEq

/-- An identifier of one kind. -/
structure AggregateId (kind : IdKind) where
  uuid : Uuid
deriving DecidableEq

/-- An identifier together with its kind. -/
structure Identity where
  kind : String
  uuid : Uuid
deriving DecidableEq

namespace Uuid

def toJson (id : Uuid) : Json := .text id.text

def ofText? (s : String) : Option Uuid :=
  match parse s.toList with
  | .ok id => some id
  | .error _ => none

def ofJson? (v : Json) : Option Uuid := v.text?.bind ofText?

end Uuid

namespace Identity

def text (i : Identity) : String := i.kind ++ ":" ++ i.uuid.text

def diagnostic (i : Identity) : String :=
  Text.record "AggregateIdentity" [("kind", Text.quoted i.kind), ("uuid", i.uuid.text)] true

def toJson (i : Identity) : Json :=
  .record [("kind", .text i.kind), ("uuid", i.uuid.toJson)]

end Identity

/-- Why a text is no identifier. -/
inductive InvalidId.Reason where
  | blank
  | malformed (cause : Uuid.Error)
deriving DecidableEq

/-- A text that is no identifier of the kind that was asked for. -/
structure InvalidId where
  kind : String
  value : String
  reason : InvalidId.Reason
deriving DecidableEq

namespace InvalidId

def Reason.message : Reason → String
  | blank => "identifier cannot be empty"
  | malformed cause => cause.message

def message (e : InvalidId) : String :=
  "Invalid " ++ e.kind ++ " id \x60" ++ e.value ++ "\x60: " ++ e.reason.message

end InvalidId

namespace AggregateId

variable {kind : IdKind}

def identity (id : AggregateId kind) : Identity := ⟨kind.tag, id.uuid⟩

def text (id : AggregateId kind) : String := id.uuid.text

def diagnostic (id : AggregateId kind) : String := Text.wrapped kind.label id.text

/-- Reads an identifier. A text of white space alone has a reason of its own. -/
def parse (kind : IdKind) (s : String) : Except InvalidId (AggregateId kind) :=
  if (Text.trim s.toList).isEmpty then .error ⟨kind.tag, s, .blank⟩
  else
    match Uuid.parse s.toList with
    | .ok uuid => .ok ⟨uuid⟩
    | .error cause => .error ⟨kind.tag, s, .malformed cause⟩

def toJson (id : AggregateId kind) : Json := id.uuid.toJson

def ofJson? (v : Json) : Option (AggregateId kind) :=
  (Uuid.ofJson? v).map AggregateId.mk

/-- A fresh identifier from 128 random bits. -/
def random (kind : IdKind) (bits : Nat) : AggregateId kind := ⟨Uuid.random bits⟩

end AggregateId

end EventSourcing
