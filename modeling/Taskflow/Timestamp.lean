import Taskflow.Duration
set_option autoImplicit false

/-!
# Points in time

Points in time in seconds and nanoseconds of Coordinated Universal Time since the start of 1970,
written as a date and a time of day of the proleptic Gregorian calendar.

## Main definitions

* `Timestamp` — a point in time.
* `Timestamp.millisSince` — the whole milliseconds between two points, toward zero.
* `Timestamp.text`, `Timestamp.offsetText` — the two written forms.
-/

namespace Taskflow

/-- A point in time: seconds since the start of 1970, and nanoseconds within the second. -/
structure Timestamp where
  seconds : Int
  nanos : Nat
  deriving Repr, DecidableEq, Inhabited

namespace Timestamp

/-- The point `ms` milliseconds after the start of 1970. -/
def ofMillis (ms : Nat) : Timestamp := ⟨(ms / 1000 : Nat), ms % 1000 * 1000000⟩

/-- The nanoseconds since the start of 1970. -/
def totalNanos (t : Timestamp) : Int := t.seconds * 1000000000 + t.nanos

/-- The milliseconds from `s` to `t`, toward zero. -/
def millisSince (t s : Timestamp) : Int := Int.tdiv (t.totalNanos - s.totalNanos) 1000000

/-- A day of the calendar. -/
structure Date where
  year : Int
  month : Nat
  day : Nat
  deriving Repr, DecidableEq

/-- The date of a day counted from the start of 1970. Days are counted from the first of March of
the year 0, so that a leap day ends its year, and split into eras of 400 years. -/
def dateOfDay (day : Int) : Date :=
  let shifted := day + 719468
  let era := Int.fdiv shifted 146097
  let dayOfEra := (Int.fmod shifted 146097).toNat
  let yearOfEra := (dayOfEra - dayOfEra / 1460 + dayOfEra / 36524 - dayOfEra / 146096) / 365
  let dayOfYear := dayOfEra - (365 * yearOfEra + yearOfEra / 4 - yearOfEra / 100)
  let marchMonth := (5 * dayOfYear + 2) / 153
  let dayOfMonth := dayOfYear - (153 * marchMonth + 2) / 5 + 1
  let month := if marchMonth < 10 then marchMonth + 3 else marchMonth - 9
  let year : Int := yearOfEra + era * 400
  ⟨if month ≤ 2 then year + 1 else year, month, dayOfMonth⟩

/-- Four digits; years outside 0 to 9999 carry their sign. -/
def yearText (y : Int) : String :=
  if 0 ≤ y ∧ y ≤ 9999 then Duration.padded 4 y.toNat
  else if y < 0 then "-" ++ Duration.padded 4 y.natAbs
  else "+" ++ Duration.padded 5 y.toNat

/-- The fraction of a second in none, three, six or nine places, the fewest that are exact. -/
def fractionText (nanos : Nat) : String :=
  if nanos = 0 then ""
  else if nanos % 1000000 = 0 then "." ++ Duration.padded 3 (nanos / 1000000)
  else if nanos % 1000 = 0 then "." ++ Duration.padded 6 (nanos / 1000)
  else "." ++ Duration.padded 9 nanos

/-- Date, time of day and fraction, without the offset from Coordinated Universal Time. -/
def civilText (t : Timestamp) : String :=
  let date := dateOfDay (Int.fdiv t.seconds 86400)
  let second := (Int.fmod t.seconds 86400).toNat
  yearText date.year ++ "-" ++ Duration.padded 2 date.month ++ "-" ++ Duration.padded 2 date.day ++
    "T" ++ Duration.padded 2 (second / 3600) ++ ":" ++ Duration.padded 2 (second / 60 % 60) ++
    ":" ++ Duration.padded 2 (second % 60) ++ fractionText t.nanos

/-- The form with a final `Z`. -/
def text (t : Timestamp) : String := t.civilText ++ "Z"

/-- The form with a numeric offset. -/
def offsetText (t : Timestamp) : String := t.civilText ++ "+00:00"

end Timestamp

end Taskflow
