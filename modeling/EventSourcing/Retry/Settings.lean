import EventSourcing.Retry.Policy
import EventSourcing.Text.Blank

/-!
# Settings of the backoff

The numbers of a backoff as they are configured: from presets, from variables, or from JSON. A
setting that is absent has its default.

* `Settings.ofLookup` reads five variables in a fixed order and stops at the first that holds no
  number;
* `Settings.build` makes the backoff, if the numbers are in range.
-/

namespace EventSourcing

namespace Retry

structure Settings where
  maxAttempts : UInt32
  baseDelayMs : UInt64
  multiplier : Binary64
  maxDelayMs : UInt64
  jitterFraction : Binary64
  retryable : List ErrorKind

namespace Settings

/-- Three attempts, from a tenth of a second up to ten seconds, doubling, with a tenth of
jitter. -/
def default : Settings where
  maxAttempts := 3
  baseDelayMs := 100
  multiplier := .ofNat 2
  maxDelayMs := 10000
  jitterFraction := (Binary64.ofNat 1).div (.ofNat 10)
  retryable := [.transient]

def aggressive : Settings :=
  { default with maxAttempts := 5, baseDelayMs := 50, maxDelayMs := 30000 }

def conservative : Settings :=
  { default with maxAttempts := 2, baseDelayMs := 200, maxDelayMs := 5000 }

def baseDelay (s : Settings) : Duration := .ofMilliseconds s.baseDelayMs

def maxDelay (s : Settings) : Duration := .ofMilliseconds s.maxDelayMs

/-- Whether all settings have their default. Numbers are compared as numbers. -/
def isDefault (s : Settings) : Bool :=
  s.maxAttempts == default.maxAttempts && s.baseDelayMs == default.baseDelayMs
    && s.multiplier.same default.multiplier && s.maxDelayMs == default.maxDelayMs
    && s.jitterFraction.same default.jitterFraction && s.retryable == default.retryable

/-- The backoff with these settings. -/
def build (s : Settings) (jitter : JitterSource) : Except PolicyError Backoff := do
  let b ← Backoff.make s.maxAttempts s.baseDelay s.multiplier s.maxDelay s.jitterFraction jitter
  return b.withRetryable s.retryable

/-! ## Variables -/

/-- A setting that is read from a variable. -/
inductive Key where
  | maxAttempts
  | baseDelayMs
  | multiplier
  | maxDelayMs
  | jitterFraction
deriving DecidableEq

namespace Key

/-- All keys in the order in which they are looked up. -/
def all : List Key := [maxAttempts, baseDelayMs, multiplier, maxDelayMs, jitterFraction]

/-- The name of the variable. -/
def name : Key → String
  | maxAttempts => "RETRY_MAX_ATTEMPTS"
  | baseDelayMs => "RETRY_BASE_DELAY_MS"
  | multiplier => "RETRY_MULTIPLIER"
  | maxDelayMs => "RETRY_MAX_DELAY_MS"
  | jitterFraction => "RETRY_JITTER"

end Key

/-- The settings with one of them read from a text, white space around it left out. -/
def set (s : Settings) (key : Key) (value : String) : Except PolicyError Settings :=
  let cs := Text.trim value.toList
  let parsed : Except NumeralError Settings :=
    match key with
    | .maxAttempts => do
      return { s with maxAttempts := .ofNat (← Text.readUnsigned UInt32.size cs) }
    | .baseDelayMs => do
      return { s with baseDelayMs := .ofNat (← Text.readUnsigned UInt64.size cs) }
    | .multiplier => do return { s with multiplier := ← Text.readBinary64 cs }
    | .maxDelayMs => do
      return { s with maxDelayMs := .ofNat (← Text.readUnsigned UInt64.size cs) }
    | .jitterFraction => do return { s with jitterFraction := ← Text.readBinary64 cs }
  match parsed with
  | .ok s => .ok s
  | .error cause => .error (.setting key.name value cause)

variable {m : Type → Type} [Monad m]

/-- The settings after looking up variables in order. -/
def setAll (lookup : String → m (Option String)) (s : Settings) :
    List Key → m (Except PolicyError Settings)
  | [] => return .ok s
  | key :: rest => do
    match ← lookup key.name with
    | none => setAll lookup s rest
    | some value =>
      match s.set key value with
      | .ok s => setAll lookup s rest
      | .error e => return .error e

/-- The settings that variables give. -/
def ofLookup (lookup : String → m (Option String)) : m (Except PolicyError Settings) :=
  setAll lookup default Key.all

/-! ## JSON -/

def fieldNames : List String :=
  ["max_attempts", "base_delay_ms", "multiplier", "max_delay_ms", "jitter_fraction",
    "retryable_errors"]

def toJson (s : Settings) : Json :=
  .record [
    ("max_attempts", .nat s.maxAttempts.toNat),
    ("base_delay_ms", .nat s.baseDelayMs.toNat),
    ("multiplier", .binary64 s.multiplier),
    ("max_delay_ms", .nat s.maxDelayMs.toNat),
    ("jitter_fraction", .binary64 s.jitterFraction),
    ("retryable_errors", .array (s.retryable.map ErrorKind.toJson))]

/-- Reads settings; every field that is missing, also at the end of an array, has its default. -/
def ofJson? (v : Json) : Option Settings := do
  let fields ← v.fields? fieldNames 0
  return {
    maxAttempts := ← fields.withDefault "max_attempts" default.maxAttempts Json.uint32?
    baseDelayMs := ← fields.withDefault "base_delay_ms" default.baseDelayMs Json.uint64?
    multiplier := ← fields.withDefault "multiplier" default.multiplier Json.binary64?
    maxDelayMs := ← fields.withDefault "max_delay_ms" default.maxDelayMs Json.uint64?
    jitterFraction :=
      ← fields.withDefault "jitter_fraction" default.jitterFraction Json.binary64?
    retryable :=
      ← fields.withDefault "retryable_errors" default.retryable (Json.list? ErrorKind.ofJson?) }

end Settings

/-- The backoff with the default settings. -/
def Backoff.default (jitter : JitterSource) : Backoff where
  maxAttempts := Settings.default.maxAttempts
  baseDelay := Settings.default.baseDelay
  multiplier := Settings.default.multiplier
  maxDelay := Settings.default.maxDelay
  jitterFraction := Settings.default.jitterFraction
  retryable := .ofList Settings.default.retryable
  jitter := jitter

end Retry

end EventSourcing
