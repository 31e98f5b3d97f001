import Asante.Core.TextOrder

/-!
# Instants of the Clock

What `datetime.now(UTC)` can return, and the text `isoformat` gives for it.

An instant is a date and a time of day in UTC, to the microsecond, in the years
Python has. The ranges of the fields are part of the value, so an instant of the
model is one of the calendar. `isoformat` prints the microseconds only if there
are any, so texts have two lengths.

`microseconds` is the time that has passed since the first instant of the year 1;
it is what makes one instant earlier than another.

## Main definitions

* `isLeap`, `daysInMonth`, `daysBeforeYear`, `daysBeforeMonth`: The calendar.
* `UtcInstant`: A date and a time of day in UTC.
* `UtcInstant.microseconds`: The time passed since the year 1 began.
* `UtcInstant.isoformat`: `datetime.isoformat`, as a list and as a string.
-/

namespace Asante

open Asante.Core

/-- A year of the Gregorian calendar with 366 days. -/
def isLeap (year : Nat) : Bool :=
  year % 4 = 0 && (year % 100 ≠ 0 || year % 400 = 0)

/-- The days in a month of a year. -/
def daysInMonth (year : Nat) : Nat → Nat
  | 2 => if isLeap year then 29 else 28
  | 4 | 6 | 9 | 11 => 30
  | _ => 31

/-- The days in a year. -/
def daysInYear (year : Nat) : Nat :=
  if isLeap year then 366 else 365

/-- The days from the beginning of the year 1 to that of a year. -/
def daysBeforeYear (year : Nat) : Nat :=
  (year - 1) * 365 + (year - 1) / 4 - (year - 1) / 100 + (year - 1) / 400

/-- The days from the beginning of a year to that of a month. -/
def daysBeforeMonth (year : Nat) : Nat → Nat
  | 0 | 1 => 0
  | month + 2 => daysBeforeMonth year (month + 1) + daysInMonth year (month + 1)

/-- A date and a time of day in UTC, as `datetime` holds them. -/
structure UtcInstant where
  year : Nat
  month : Nat
  day : Nat
  hour : Nat
  minute : Nat
  second : Nat
  microsecond : Nat
  year_range : 1 ≤ year ∧ year ≤ 9999
  month_range : 1 ≤ month ∧ month ≤ 12
  day_range : 1 ≤ day ∧ day ≤ daysInMonth year month
  hour_lt : hour < 24
  minute_lt : minute < 60
  second_lt : second < 60
  microsecond_lt : microsecond < 1000000

namespace UtcInstant

/-- The days of the year that have passed. -/
def dayOfYear (t : UtcInstant) : Nat :=
  daysBeforeMonth t.year t.month + (t.day - 1)

/-- The days that have passed since the beginning of the year 1. -/
def days (t : UtcInstant) : Nat :=
  daysBeforeYear t.year + t.dayOfYear

/-- The seconds that have passed since the beginning of the year 1. -/
def seconds (t : UtcInstant) : Nat :=
  ((t.days * 24 + t.hour) * 60 + t.minute) * 60 + t.second

/-- The microseconds that have passed since the beginning of the year 1. -/
def microseconds (t : UtcInstant) : Nat :=
  t.seconds * 1000000 + t.microsecond

/-- `%m-%d`. -/
def monthDayText (t : UtcInstant) : List Char :=
  fixedDigits 2 t.month ++ '-' :: fixedDigits 2 t.day

/-- `%Y-%m-%d`. -/
def dateText (t : UtcInstant) : List Char :=
  fixedDigits 4 t.year ++ '-' :: t.monthDayText

/-- `%Y-%m-%dT%H:%M:%S`. -/
def secondText (t : UtcInstant) : List Char :=
  t.dateText ++ 'T' :: fixedDigits 2 t.hour ++ ':' :: fixedDigits 2 t.minute ++
    ':' :: fixedDigits 2 t.second

/-- The fraction of the second, if there is one, and the offset of UTC. -/
def fractionText (t : UtcInstant) : List Char :=
  if t.microsecond = 0 then ['+', '0', '0', ':', '0', '0']
  else '.' :: (fixedDigits 6 t.microsecond ++ ['+', '0', '0', ':', '0', '0'])

/-- `t.isoformat()`. -/
def isoformat (t : UtcInstant) : String :=
  String.ofList (t.secondText ++ t.fractionText)

end UtcInstant

end Asante
