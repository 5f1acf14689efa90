import Migration.Number.Binary64
import Migration.Time.Calendar

/-!
# Times as seconds

A point in time counted in seconds from the first of January 1970, in universal time.

* `Timestamp.ofSeconds` — the timestamp of a count of seconds
* `Timestamp.ofFloat` — the timestamp of a count with a fraction, to the nearest microsecond
-/

namespace Migration

/-- Why a count of seconds is no timestamp. -/
inductive Epoch.Fault where
  | notANumber
  /-- More seconds than 64 bits hold. -/
  | beyondCount
  /-- More years than 32 bits hold. -/
  | beyondYears
  /-- A year outside the calendar. -/
  | year (n : Int)
  deriving DecidableEq, Repr

/-- What is wrong with a count of seconds. -/
def Epoch.Fault.message : Epoch.Fault → String
  | notANumber => "Invalid value NaN (not a number)"
  | beyondCount => "timestamp out of range for platform time_t"
  | beyondYears => "[Errno 75] Value too large for defined data type"
  | year n => s!"year {Integer.print n} is out of range"

namespace Timestamp

/-- The days from the first of January of year 1 to the one of 1970. -/
def epochDay : Int := 719162

/-- The timestamp of a count of seconds and of microseconds after them. -/
def ofSeconds (seconds : Int) (microsecond : Nat) : Except Epoch.Fault Timestamp :=
  if !(-Int.pow 2 63 ≤ seconds && seconds < Int.pow 2 63) then throw .beyondCount
  else
    let days := seconds.fdiv 86400 + epochDay
    let second := (seconds.fmod 86400).toNat
    let date := Date.ofDayNumber (days.fmod 146097).toNat
    let year := date.year + 400 * days.fdiv 146097
    if !(-Int.pow 2 31 ≤ year - 1900 && year - 1900 < Int.pow 2 31) then throw .beyondYears
    else if !(1 ≤ year && year ≤ 9999) then throw (.year year)
    else return {
      date := { date with year := year.toNat }
      clock := ⟨second / 3600, second / 60 % 60, second % 60, microsecond⟩
      offset := some .zero }

/-- The microseconds of a fraction of a second. The product is rounded to a floating point number
before it is rounded to an integer. -/
def microsecondsOf (num den : Nat) : Nat :=
  match Binary64.ofRatio false (num * 1000000) den with
  | .finite _ mantissa exponent =>
    let (n, d) := Binary64.ratio mantissa exponent
    Binary64.roundedQuotient n d
  | _ => 0

/-- The timestamp of a count of seconds with a fraction. -/
def ofFloat : Binary64 → Except Epoch.Fault Timestamp
  | .nan => throw .notANumber
  | .infinite _ => throw .beyondCount
  | .finite negative mantissa exponent =>
    let (num, den) := Binary64.ratio mantissa exponent
    let sign : Int := if negative then -1 else 1
    let total := sign * (num / den : Nat) * 1000000 + sign * microsecondsOf (num % den) den
    ofSeconds (total.fdiv 1000000) (total.fmod 1000000).toNat

end Timestamp
end Migration
