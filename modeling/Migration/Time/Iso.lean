import Migration.Text.Digit
import Migration.Time.Calendar

/-!
# Reading dates and times

The ISO 8601 forms that a date attribute accepts.

* A date is `YYYY-MM-DD`, `YYYYMMDD`, or a week: `YYYY-Www`, `YYYYWww`, each with an optional
  weekday.
* A time is `HH`, `HH:MM` or `HH:MM:SS`, with or without the colons, with a fraction after a point
  or a comma, and with an offset, `Z` or a sign and another time.
* A timestamp is a date, any one character, and a time. Where a date ends decides which character
  that is: `datePlaces` says it.

Fractions are cut after the sixth digit. Between a time and its offset one ASCII character, or
anything after six digits of a fraction, is passed over; at the end of the text it is an error.
-/

namespace Migration

open Text

/-- The number of two digits. -/
def twoDigits? (a b : Char) : Option Nat := do
  let a ← asciiDigit? a
  let b ← asciiDigit? b
  return 10 * a + b

/-- The number of four digits. -/
def fourDigits? (a b c d : Char) : Option Nat := do
  let high ← twoDigits? a b
  let low ← twoDigits? c d
  return 100 * high + low

/-! ## Dates -/

namespace Date

/-- The date with the given parts, if it exists. -/
def check? (year month day : Nat) : Option Date :=
  let date : Date := ⟨year, month, day⟩
  if date.isValid then some date else none

/-- The date of a weekday in a week, if it exists. -/
def checkWeek? (year week weekday : Nat) : Option Date := do
  let date ← ofWeek? year week weekday
  if date.isValid then some date else none

/-- The date that the characters write. -/
def parseChars? : List Char → Option Date
  | [a, b, c, d, '-', 'W', e, f] => do checkWeek? (← fourDigits? a b c d) (← twoDigits? e f) 1
  | [a, b, c, d, '-', 'W', e, f, '-', g] => do
    checkWeek? (← fourDigits? a b c d) (← twoDigits? e f) (← asciiDigit? g)
  | [a, b, c, d, 'W', e, f] => do checkWeek? (← fourDigits? a b c d) (← twoDigits? e f) 1
  | [a, b, c, d, 'W', e, f, g] => do
    checkWeek? (← fourDigits? a b c d) (← twoDigits? e f) (← asciiDigit? g)
  | [a, b, c, d, '-', e, f, '-', g, h] => do
    check? (← fourDigits? a b c d) (← twoDigits? e f) (← twoDigits? g h)
  | [a, b, c, d, e, f, g, h] => do
    check? (← fourDigits? a b c d) (← twoDigits? e f) (← twoDigits? g h)
  | _ => none

end Date

/-- How many characters of a timestamp are its date. With a weekday or without one, a week is told
apart by what follows: hours come in pairs of digits, and a hyphen before a digit that stands third
separates the time. -/
def datePlaces (cs : List Char) : Nat :=
  let isDigitAt := fun i => (cs[i]?.bind asciiDigit?).isSome
  if cs[4]? = some '-' then
    if cs[5]? = some 'W' then
      if cs[8]? = some '-' && !isDigitAt 10 then 10 else 8
    else 10
  else if cs[4]? = some 'W' then
    let places := 7 + ((cs.drop 7).takeWhile fun c => (asciiDigit? c).isSome).length
    if places < 9 then places else if places % 2 = 0 then 7 else 8
  else 8

/-! ## Times of day -/

namespace Clock

/-- The microseconds of a fraction: up to six digits, of which the first six count. The flag says
whether something else follows the digits. -/
def fraction? (cs : List Char) : Option (Nat × Bool) := do
  let head := cs.take 6
  let ds ← head.mapM asciiDigit?
  let rest := (cs.drop 6).dropWhile fun c => (asciiDigit? c).isSome
  return (ofDigits ds * Nat.pow 10 (6 - head.length), !rest.isEmpty)

/-- The parts of a time after `parts` have been read (latest first), where `colons` says whether
they stand apart by colons. Gives the parts in order, the microseconds, and whether something
follows. -/
def parts? (parts : List Nat) (colons : Bool) : List Char → Option (List Nat × Nat × Bool)
  | a :: b :: rest => do
    let n ← twoDigits? a b
    let all := n :: parts
    match rest with
    | [] => return (all.reverse, 0, false)
    | [c] => if c.toNat < 0x80 then return (all.reverse, 0, true) else none
    | c :: more =>
      let colons := if parts.isEmpty then c == ':' else colons
      let isLast := all.length == 3
      if colons && c == ':' then
        if isLast then
          let (micro, leftover) ← fraction? more
          return (all.reverse, micro, leftover)
        else parts? all colons more
      else if c == '.' || c == ',' then
        let (micro, leftover) ← fraction? more
        return (all.reverse, micro, leftover)
      else if colons then none
      else if isLast then
        let (micro, leftover) ← fraction? (c :: more)
        return (all.reverse, micro, leftover)
      else parts? all colons (c :: more)
  | _ => none
termination_by cs => cs.length

/-- The clock that the characters write, its parts unchecked, and whether something follows. -/
def parseChars? (cs : List Char) : Option (Clock × Bool) := do
  let (parts, micro, leftover) ← parts? [] true cs
  return (⟨parts[0]?.getD 0, parts[1]?.getD 0, parts[2]?.getD 0, micro⟩, leftover)

end Clock

/-- The offset that a clock reading stands for; one of whole seconds zero is universal time. -/
def Offset.ofClock? (negative : Bool) (c : Clock) : Option Offset :=
  let seconds := c.hour * 3600 + c.minute * 60 + c.second
  if seconds = 0 then some Offset.zero
  else
    let total : Int := seconds * 1000000 + c.microsecond
    let offset : Offset := ⟨if negative then -total else total⟩
    if offset.isValid then some offset else none

/-- The time of day that the characters write. -/
def TimeOfDay.ofChars? (cs : List Char) : Option TimeOfDay := do
  let (clockPart, zonePart) := cs.span fun c => c != '+' && c != '-' && c != 'Z'
  let (clock, leftover) ← Clock.parseChars? clockPart
  guard clock.isValid
  match zonePart with
  | [] => if leftover then none else some ⟨clock, none⟩
  | 'Z' :: rest => if rest.isEmpty then some ⟨clock, some Offset.zero⟩ else none
  | sign :: rest =>
    let (zone, leftover) ← Clock.parseChars? rest
    if leftover then none
    else
      let offset ← Offset.ofClock? (sign == '-') zone
      return ⟨clock, some offset⟩

/-- The time of day that a text writes; a `T` may stand before it. -/
def TimeOfDay.parse? (s : String) : Option TimeOfDay :=
  match s.toList with
  | 'T' :: rest => ofChars? rest
  | cs => ofChars? cs

/-! ## Timestamps -/

/-- The timestamp that a text writes; a date alone means midnight. -/
def Timestamp.parse? (s : String) : Option Timestamp := do
  let cs := s.toList
  let places := datePlaces cs
  let date ← Date.parseChars? (cs.take places)
  match cs.drop places with
  | [] => return ⟨date, ⟨0, 0, 0, 0⟩, none⟩
  | _ :: rest =>
    let time ← TimeOfDay.ofChars? rest
    return ⟨date, time.clock, time.offset⟩

end Migration
