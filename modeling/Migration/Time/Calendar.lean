/-!
# Calendar

Dates of the proleptic Gregorian calendar from year 1 to year 9999, times of day to the microsecond,
and offsets from universal time.

* `Date`, `Clock`, `Offset` — the parts
* `Timestamp` — a date with a time of day, `TimeOfDay` — a time of day alone, both with an optional
  offset
* `Date.ofDayNumber`, `Date.ofWeek?` — dates by the count of days and by the week of the year
-/

namespace Migration

/-- Whether the year has a 29th of February. -/
def isLeapYear (year : Nat) : Bool := year % 4 = 0 && (year % 100 ≠ 0 || year % 400 = 0)

/-- The number of days of a month. -/
def daysInMonth (year month : Nat) : Nat :=
  if month = 2 then (if isLeapYear year then 29 else 28)
  else if month = 4 || month = 6 || month = 9 || month = 11 then 30 else 31

/-- A calendar date. -/
structure Date where
  year : Nat
  month : Nat
  day : Nat
  deriving DecidableEq, Repr, Inhabited

/-- A time of day. -/
structure Clock where
  hour : Nat
  minute : Nat
  second : Nat
  microsecond : Nat
  deriving DecidableEq, Repr, Inhabited

/-- A distance from universal time, in microseconds; less than a day either way. -/
structure Offset where
  microseconds : Int
  deriving DecidableEq, Repr, Inhabited

/-- A date and a time of day, perhaps with an offset. -/
structure Timestamp where
  date : Date
  clock : Clock
  offset : Option Offset
  deriving DecidableEq, Repr, Inhabited

/-- A time of day, perhaps with an offset. -/
structure TimeOfDay where
  clock : Clock
  offset : Option Offset
  deriving DecidableEq, Repr, Inhabited

/-- Universal time. -/
def Offset.zero : Offset := ⟨0⟩

/-- Whether the offset is less than a day. -/
def Offset.isValid (o : Offset) : Bool := o.microseconds.natAbs < 24 * 3600 * 1000000

/-- Whether the date exists. -/
def Date.isValid (d : Date) : Bool :=
  1 ≤ d.year && d.year ≤ 9999 && 1 ≤ d.month && d.month ≤ 12 &&
    1 ≤ d.day && d.day ≤ daysInMonth d.year d.month

/-- Whether the time of day exists; there is no 24th hour and no leap second. -/
def Clock.isValid (c : Clock) : Bool :=
  c.hour < 24 && c.minute < 60 && c.second < 60 && c.microsecond < 1000000

namespace Date

/-- The number of days before the first of January of a year, counted from year 1. -/
def daysBeforeYear (year : Nat) : Nat :=
  let y := year - 1
  365 * y + y / 4 - y / 100 + y / 400

/-- The month and the day of a day of the year, counted from zero, going on from a month. -/
def inYear (year : Nat) : (months : Nat) → (month day : Nat) → Nat × Nat
  | 0, month, day => (month, day + 1)
  | months + 1, month, day =>
    if day < daysInMonth year month then (month, day + 1)
    else inYear year months (month + 1) (day - daysInMonth year month)

/-- The date of a day, counted from zero at the first of January of year 1. The calendar repeats
every 400 years; within them a century is a day short unless it is the last, and within a century
every fourth year is a day longer. -/
def ofDayNumber (n : Nat) : Date :=
  let inEra := n % 146097
  let century := min 3 (inEra / 36524)
  let inCentury := inEra - 36524 * century
  let inCycle := inCentury % 1461
  let yearOfCycle := min 3 (inCycle / 365)
  let year := 400 * (n / 146097) + 100 * century + 4 * (inCentury / 1461) + yearOfCycle + 1
  let (month, day) := inYear year 11 1 (inCycle - 365 * yearOfCycle)
  ⟨year, month, day⟩

/-- The weekday of the first of January, zero for Monday. -/
def firstWeekday (year : Nat) : Nat := daysBeforeYear year % 7

/-- Whether the year has a 53rd week: it begins on a Thursday, or is a leap year and begins on a
Wednesday. -/
def isLongYear (year : Nat) : Bool :=
  firstWeekday year = 3 || (firstWeekday year = 2 && isLeapYear year)

/-- The date of a weekday (1 for Monday) in a week of a year. The first week is the one that holds
the first Thursday. -/
def ofWeek? (year week weekday : Nat) : Option Date :=
  let weeks := if isLongYear year then 53 else 52
  if 1 ≤ year && year ≤ 9999 && 1 ≤ week && week ≤ weeks && 1 ≤ weekday && weekday ≤ 7 then
    let first := daysBeforeYear year
    let monday := if first % 7 ≤ 3 then first - first % 7 else first + (7 - first % 7)
    some (ofDayNumber (monday + (week - 1) * 7 + (weekday - 1)))
  else none

end Date
end Migration
