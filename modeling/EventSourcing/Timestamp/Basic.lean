import EventSourcing.Duration

/-!
# Readings of the clock

A reading is a date of the Gregorian calendar with a time of day in UTC. In a leap second the
nanoseconds go on beyond one second.
-/

namespace EventSourcing

/-- How many days a month has; none for what is no month. -/
def daysInMonth (year : Int) (month : Nat) : Nat :=
  match month with
  | 2 => if year % 4 = 0 ∧ (year % 100 ≠ 0 ∨ year % 400 = 0) then 29 else 28
  | 4 | 6 | 9 | 11 => 30
  | 1 | 3 | 5 | 7 | 8 | 10 | 12 => 31
  | _ => 0

structure Date where
  year : Int
  month : Nat
  day : Nat
  year_range : -262143 ≤ year ∧ year ≤ 262142
  day_range : 1 ≤ day ∧ day ≤ daysInMonth year month
deriving DecidableEq

namespace Date

def of? (year : Int) (month day : Nat) : Option Date :=
  if h : (-262143 ≤ year ∧ year ≤ 262142) ∧ (1 ≤ day ∧ day ≤ daysInMonth year month) then
    some ⟨year, month, day, h.1, h.2⟩
  else none

/-- The day after, as long as there is one. -/
def next? (d : Date) : Option Date :=
  if d.day < daysInMonth d.year d.month then of? d.year d.month (d.day + 1)
  else if d.month < 12 then of? d.year (d.month + 1) 1
  else of? (d.year + 1) 1 1

/-- The day before, as long as there is one. -/
def previous? (d : Date) : Option Date :=
  if 1 < d.day then of? d.year d.month (d.day - 1)
  else if 1 < d.month then of? d.year (d.month - 1) (daysInMonth d.year (d.month - 1))
  else of? (d.year - 1) 12 31

/-- The date of a day counted from the first of March of year zero. Four centuries have 146097
days; inside them the leap days are taken out before the year is counted. -/
def ofDayCount? (count : Int) : Option Date :=
  let era := count / 146097
  let day := (count % 146097).toNat
  let yearOfEra := (day - day / 1460 + day / 36524 - day / 146096) / 365
  let dayOfYear := day - (365 * yearOfEra + yearOfEra / 4 - yearOfEra / 100)
  let month := (5 * dayOfYear + 2) / 153
  let dayOfMonth := dayOfYear - (153 * month + 2) / 5 + 1
  if month < 10 then of? (era * 400 + yearOfEra) (month + 3) dayOfMonth
  else of? (era * 400 + yearOfEra + 1) (month - 9) dayOfMonth

end Date

namespace Timestamp

/-- How many nanoseconds a second of the day can have. The last one of a minute can be a leap
second. -/
def nanosIn (second : Nat) : Nat :=
  if second % 60 = 59 then 2 * nanosPerSecond else nanosPerSecond

theorem nanosPerSecond_le_nanosIn (second : Nat) : nanosPerSecond ≤ nanosIn second := by
  unfold nanosIn
  split <;> decide

end Timestamp

structure Timestamp where
  date : Date
  second : Nat
  nanosecond : Nat
  second_lt : second < 86400
  nanosecond_lt : nanosecond < Timestamp.nanosIn second
deriving DecidableEq

namespace Timestamp

/-- The reading a number of nanoseconds after the start of 1970, which is day 719468. -/
def ofUnixNanoseconds? (n : Nat) : Option Timestamp :=
  (Date.ofDayCount? (719468 + (n / (86400 * nanosPerSecond) : Nat))).map fun date =>
    ⟨date, n / nanosPerSecond % 86400, n % nanosPerSecond, Nat.mod_lt _ (by decide),
      Nat.lt_of_lt_of_le (Nat.mod_lt _ (by decide)) (nanosPerSecond_le_nanosIn _)⟩

/-- The reading in UTC of a local date and time of day, given how many seconds the local time is
ahead. -/
def ofLocal? (date : Date) (second nanosecond : Nat) (ahead : Int) : Option Timestamp :=
  let utc : Int := second - ahead
  let date :=
    if utc < 0 then date.previous? else if utc < 86400 then some date else date.next?
  match date with
  | some date =>
    if h : (utc % 86400).toNat < 86400 ∧ nanosecond < nanosIn (utc % 86400).toNat then
      some ⟨date, (utc % 86400).toNat, nanosecond, h.1, h.2⟩
    else none
  | none => none

end Timestamp

end EventSourcing
