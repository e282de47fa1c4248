import EventSourcing.Text.Numeral

/-!
# Invalid retry policies

Each reason why the numbers or settings given for a policy make none.
-/

namespace EventSourcing

namespace Retry

inductive PolicyError where
  | noAttempts
  | multiplier (given : Binary64)
  | jitterFraction (given : Binary64)
  /-- The text that a setting holds, as it stands, is not the number that the setting needs. -/
  | setting (key value : String) (cause : NumeralError)
  | stated (reason : String)
deriving DecidableEq

def PolicyError.message : PolicyError → String
  | noAttempts => "max_attempts must be at least 1"
  | multiplier given =>
    "multiplier must be a finite value >= 1.0, got " ++ Binary64.plain.text given
  | jitterFraction given =>
    "jitter_fraction must be within 0.0..=1.0, got " ++ Binary64.plain.text given
  | setting key value cause => key ++ "=" ++ value ++ ": " ++ cause.message
  | stated reason => reason

end Retry

end EventSourcing
