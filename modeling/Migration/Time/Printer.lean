import Migration.Text.Digit
import Migration.Time.Calendar

/-!
# Dates and times as text

The ISO 8601 form: `2024-01-02T03:04:05.000600+01:00`. The fraction is written with six digits if
there is one, the seconds of an offset if there are any.

* `Date.print`, `Clock.print`, `Offset.print`, `Timestamp.print`, `TimeOfDay.print`
-/

namespace Migration

open Text

/-- A date: `2024-01-02`. -/
def Date.printChars (d : Date) : List Char :=
  paddedNumeral 4 d.year ++ '-' :: paddedNumeral 2 d.month ++ '-' :: paddedNumeral 2 d.day

/-- A fraction of a second, nothing if there is none. -/
def fractionChars (microsecond : Nat) : List Char :=
  if microsecond = 0 then [] else '.' :: paddedNumeral 6 microsecond

/-- A time of day: `03:04:05`, with the fraction if there is one. -/
def Clock.printChars (c : Clock) : List Char :=
  paddedNumeral 2 c.hour ++ ':' :: paddedNumeral 2 c.minute ++ ':' :: paddedNumeral 2 c.second ++
    fractionChars c.microsecond

/-- An offset: a sign, hours and minutes, and the smaller parts if there are any. -/
def Offset.printChars (o : Offset) : List Char :=
  let total := o.microseconds.natAbs
  let seconds := total / 1000000
  let rest := total % 1000000
  (if o.microseconds < 0 then '-' else '+') :: paddedNumeral 2 (seconds / 3600) ++
    ':' :: paddedNumeral 2 (seconds / 60 % 60) ++
    (if seconds % 60 = 0 && rest = 0 then []
      else ':' :: paddedNumeral 2 (seconds % 60) ++ fractionChars rest)

/-- The offset of a time, nothing if there is none. -/
def offsetChars : Option Offset → List Char
  | some o => o.printChars
  | none => []

/-- A time of day with its offset. -/
def TimeOfDay.printChars (t : TimeOfDay) : List Char := t.clock.printChars ++ offsetChars t.offset

/-- A timestamp with a character between the date and the time. -/
def Timestamp.printChars (separator : Char) (t : Timestamp) : List Char :=
  t.date.printChars ++ separator :: t.clock.printChars ++ offsetChars t.offset

/-- The text of a time of day. -/
def TimeOfDay.print (t : TimeOfDay) : String := String.ofList t.printChars

/-- The text of a timestamp in messages and texts: a space before the time. -/
def Timestamp.print (t : Timestamp) : String := String.ofList (t.printChars ' ')

/-- The text of a timestamp in the strict form: a `T` before the time. -/
def Timestamp.printStrict (t : Timestamp) : String := String.ofList (t.printChars 'T')

end Migration
