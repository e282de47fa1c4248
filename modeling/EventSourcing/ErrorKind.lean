import EventSourcing.Json.Decode

/-!
# Kinds of error

Whether a failed command is worth another attempt hangs on the kind of its error and on nothing
else. The kinds are two trees, below `transient` and below `permanent`; what is said of a kind
holds of every kind below it.

* `lineage` is a kind with all kinds above it;
* `KindSet` is a set of kinds, listed in the order of the type.
-/

namespace EventSourcing

inductive ErrorKind where
  | transient
  | connection
  | timeout
  | unavailable
  | storage
  | deadlock
  | concurrencyConflict
  | permanent
  | validation
  | invalidIdentity
  | businessRule
  | eventApplication
deriving DecidableEq

namespace ErrorKind

/-- All kinds in order. -/
def all : List ErrorKind :=
  [transient, connection, timeout, unavailable, storage, deadlock, concurrencyConflict,
    permanent, validation, invalidIdentity, businessRule, eventApplication]

/-- The place of a kind in the order. -/
def rank (k : ErrorKind) : Nat := k.ctorIdx

/-- The name of a kind in stored data. -/
def name : ErrorKind → String
  | transient => "transient"
  | connection => "connection"
  | timeout => "timeout"
  | unavailable => "unavailable"
  | storage => "storage"
  | deadlock => "deadlock"
  | concurrencyConflict => "concurrency_conflict"
  | permanent => "permanent"
  | validation => "validation"
  | invalidIdentity => "invalid_identity"
  | businessRule => "business_rule"
  | eventApplication => "event_application"

/-- The name of a kind in diagnostic texts. -/
def diagnostic : ErrorKind → String
  | transient => "Transient"
  | connection => "Connection"
  | timeout => "Timeout"
  | unavailable => "Unavailable"
  | storage => "Storage"
  | deadlock => "Deadlock"
  | concurrencyConflict => "ConcurrencyConflict"
  | permanent => "Permanent"
  | validation => "Validation"
  | invalidIdentity => "InvalidIdentity"
  | businessRule => "BusinessRule"
  | eventApplication => "EventApplication"

def ofName? (s : String) : Option ErrorKind :=
  all.find? fun k => k.name = s

def toJson (k : ErrorKind) : Json := .text k.name

def ofJson? (v : Json) : Option ErrorKind := v.variant?.bind ofName?

/-- The kind right above. -/
def parent : ErrorKind → Option ErrorKind
  | transient | permanent => none
  | connection | timeout | unavailable | storage => some transient
  | deadlock | concurrencyConflict => some storage
  | validation | invalidIdentity | businessRule | eventApplication => some permanent

theorem rank_lt_of_parent {k p : ErrorKind} (h : k.parent = some p) : p.rank < k.rank := by
  cases k <;> simp only [parent, Option.some.injEq, reduceCtorEq] at h <;> subst h <;> decide

/-- The kind itself, then the kinds above it, nearest first. -/
def lineage (k : ErrorKind) : List ErrorKind :=
  match _h : k.parent with
  | none => [k]
  | some p => k :: lineage p
termination_by k.rank
decreasing_by exact rank_lt_of_parent _h

/-- Whether a kind is another one or lies below it. -/
def isA (k ancestor : ErrorKind) : Bool :=
  k.lineage.contains ancestor

/-- The given kinds in the order of the type. -/
def sort (kinds : List ErrorKind) : List ErrorKind :=
  kinds.mergeSort fun a b => decide (a.rank ≤ b.rank)

end ErrorKind

/-- The kind of an error. -/
class Classified (ε : Type) where
  kind : ε → ErrorKind

instance : Classified ErrorKind where
  kind := id

/-- A set of kinds. -/
structure KindSet where
  contains : ErrorKind → Bool

namespace KindSet

def ofList (kinds : List ErrorKind) : KindSet := ⟨kinds.contains⟩

/-- The members in the order of the type. -/
def toList (s : KindSet) : List ErrorKind :=
  ErrorKind.all.filter s.contains

/-- Whether a kind, or one above it, is a member. -/
def covers (s : KindSet) (k : ErrorKind) : Bool :=
  k.lineage.any s.contains

end KindSet

end EventSourcing
