import EventSourcing.Identity
import EventSourcing.Retry.Error

/-!
# Faults of event sourcing

What can go wrong outside the rules of a domain: identifiers, stored events, concurrent writers
and policies. Aggregates are named by the text of their identity.
-/

namespace EventSourcing

/-- A fault; `ε` holds the errors of the domain that a replay can meet. -/
inductive Fault (ε : Type) where
  | invalidId (cause : InvalidId)
  | unknownTag (aggregate tag : String) (known : List String)
  | corrupted (aggregate : String)
  | conflict (aggregate : String) (expected actual : Nat)
  | replay (aggregate : String) (cause : ε)
  | notFound (aggregate : String)
  /-- An event cannot be written, or stored text cannot be read. -/
  | codec
  | invalidPolicy (cause : Retry.PolicyError)

namespace Fault

variable {ε : Type}

/-- The name of a fault, the same for all causes. -/
def name : Fault ε → String
  | invalidId _ => "InvalidAggregateId"
  | unknownTag .. => "UnknownEventType"
  | corrupted _ => "AggregateCorrupted"
  | conflict .. => "ConcurrencyConflict"
  | replay .. => "Replay"
  | notFound _ => "AggregateNotFound"
  | codec => "Serialization"
  | invalidPolicy _ => "InvalidRetryPolicy"

/-- The wording of a fault, given that of the domain's errors. -/
def message (describe : ε → String) : Fault ε → String
  | invalidId cause => cause.message
  | unknownTag aggregate tag known =>
    "Unknown event type \x60" ++ tag ++ "\x60 for " ++ aggregate ++ ", expected one of "
      ++ Text.listing (known.map Text.quoted)
  | corrupted aggregate =>
    "Aggregate " ++ aggregate
      ++ " is corrupted by a failed event application and must be discarded"
  | conflict aggregate expected actual =>
    "Concurrency conflict on " ++ aggregate ++ ": expected version " ++ toString expected
      ++ ", but current is " ++ toString actual ++ " (reload and retry)"
  | replay aggregate cause => "Failed to replay " ++ aggregate ++ ": " ++ describe cause
  | notFound aggregate => "Aggregate not found: " ++ aggregate
  | codec => "Event serialization failed"
  | invalidPolicy cause => "Invalid retry policy: " ++ cause.message

def kind : Fault ε → ErrorKind
  | invalidId _ => .invalidIdentity
  | unknownTag .. => .validation
  | corrupted _ => .eventApplication
  | conflict .. => .concurrencyConflict
  | replay .. => .eventApplication
  | notFound _ => .permanent
  | codec => .validation
  | invalidPolicy _ => .validation

instance : Classified (Fault ε) where
  kind := kind

end Fault

end EventSourcing
