import EventSourcing.Binary64.Shortest
import EventSourcing.Text.Fingerprint

/-!
# Metrics

Five families of counters. A `Measurement` is one thing that happened; `Metrics.record` counts it,
and `Metrics.exposition` writes all counters in the text format that monitoring collects.

A counter wraps at `2 ^ 64`. It is found by the fingerprint of its label values: two rows of label
values with the same fingerprint share one counter, which shows the labels it was made with.
-/

namespace EventSourcing

namespace Metrics

inductive Family where
  | conflicts
  | appended
  | attempts
  | failures
  | successes
deriving DecidableEq

namespace Family

/-- All families in the order of their names. -/
def all : List Family := [conflicts, appended, attempts, failures, successes]

def name : Family → String
  | conflicts => "concurrency_conflicts_total"
  | appended => "events_appended_total"
  | attempts => "retry_attempts_total"
  | failures => "retry_failure_total"
  | successes => "retry_success_total"

def help : Family → String
  | conflicts => "Optimistic concurrency conflicts on append"
  | appended => "Total events appended to the event store"
  | attempts => "Total command attempts"
  | failures => "Total commands that failed permanently or exhausted retries"
  | successes => "Total commands that eventually succeeded"

/-- The names of the labels, in the order in which their values are given. -/
def labels : Family → List String
  | conflicts => ["aggregate_type"]
  | appended => ["aggregate_type"]
  | attempts => ["operation", "attempt"]
  | failures => ["operation", "reason"]
  | successes => ["operation"]

end Family

end Metrics

/-- Something that is counted. -/
inductive Measurement where
  | attempt (operation : String) (number : UInt32)
  | success (operation : String)
  | failure (operation reason : String)
  | appended (aggregate : String) (count : Nat)
  | conflict (aggregate : String)
deriving DecidableEq

namespace Measurement

def family : Measurement → Metrics.Family
  | attempt .. => .attempts
  | success _ => .successes
  | failure .. => .failures
  | appended .. => .appended
  | conflict _ => .conflicts

/-- The label values of the counter. -/
def values : Measurement → List String
  | attempt operation number => [operation, toString number.toNat]
  | success operation => [operation]
  | failure operation reason => [operation, reason]
  | appended aggregate _ => [aggregate]
  | conflict aggregate => [aggregate]

/-- How much is added to the counter. -/
def amount : Measurement → UInt64
  | appended _ count => .ofNat count
  | _ => 1

end Measurement

namespace Metrics

/-- One counter with its label values. -/
structure Series where
  family : Family
  values : List String
  count : UInt64
deriving DecidableEq

end Metrics

/-- All counters, in the order in which they were made. -/
structure Metrics where
  series : List Metrics.Series
deriving DecidableEq

namespace Metrics

def empty : Metrics := ⟨[]⟩

/-- Whether a counter is the one that a measurement belongs to. -/
def Series.matches (m : Measurement) (s : Series) : Bool :=
  s.family = m.family && Text.fingerprint s.values = Text.fingerprint m.values

/-- Adds to the counter of a measurement, or makes it. -/
def count (m : Measurement) : List Series → List Series
  | [] => [⟨m.family, m.values, m.amount⟩]
  | s :: rest =>
    if s.matches m then { s with count := s.count + m.amount } :: rest else s :: count m rest

def record (metrics : Metrics) (m : Measurement) : Metrics :=
  ⟨count m metrics.series⟩

/-- The value of the counter that a measurement belongs to. -/
def value (metrics : Metrics) (m : Measurement) : UInt64 :=
  match metrics.series.find? (Series.matches m) with
  | some s => s.count
  | none => 0

/-- The counters of a family. -/
def ofFamily (metrics : Metrics) (f : Family) : List Series :=
  metrics.series.filter fun s => s.family = f

/-- The families that have counters, in the order of their names, with their counters. -/
def families (metrics : Metrics) : List (Family × List Series) :=
  (Family.all.map fun f => (f, metrics.ofFamily f)).filter fun entry => !entry.2.isEmpty

/-! ## Text format -/

/-- A label value between double quotes. -/
def escape (s : String) : String :=
  String.ofList (s.toList.flatMap fun c =>
    if c = '\\' then ['\\', '\\'] else if c = '"' then ['\\', '"']
    else if c = '\n' then ['\\', 'n'] else [c])

/-- The labels of a counter with their values, in the order of the label names. -/
def Series.labelled (s : Series) : List (String × String) :=
  (s.family.labels.zip s.values).mergeSort fun a b => decide (a.1 ≤ b.1)

/-- Whether one row of texts comes before another or equals it, as in a dictionary. -/
def rowLe : List String → List String → Bool
  | [], _ => true
  | _ :: _, [] => false
  | a :: as, b :: bs => a < b || (a = b && rowLe as bs)

/-- The order of the counters of a family: by their label values. -/
def valuesLe (a b : Series) : Bool :=
  rowLe (a.labelled.map Prod.snd) (b.labelled.map Prod.snd)

def Series.text (s : Series) : String :=
  let labels := s.labelled.map fun l => l.1 ++ "=\"" ++ escape l.2 ++ "\""
  s.family.name ++ "\x7b" ++ String.intercalate "," labels ++ "\x7d "
    ++ Binary64.plain.text (.ofNat s.count.toNat) ++ "\n"

def familyText (f : Family) (series : List Series) : String :=
  "# HELP " ++ f.name ++ " " ++ f.help ++ "\n# TYPE " ++ f.name ++ " counter\n"
    ++ String.join ((series.mergeSort valuesLe).map Series.text)

/-- All counters, by family and then by label values. -/
def exposition (metrics : Metrics) : String :=
  String.join (metrics.families.map fun entry => familyText entry.1 entry.2)

end Metrics

end EventSourcing
