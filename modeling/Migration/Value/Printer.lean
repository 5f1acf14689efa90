import Migration.Text.Quoted
import Migration.Text.Split
import Migration.Time.Printer
import Migration.Value

/-!
# Values as text

* `Value.print` — what a placeholder or a message shows: a text is itself
* `Value.quoted` — how a value is written inside a list or a map: a text stands in quotes, and
  values of other kinds name their type
-/

namespace Migration

open Text

/-- A duration inside the quoted form of an offset: days, seconds and microseconds, of which only
the days may be negative. -/
def Offset.quoted (o : Offset) : String :=
  if o.microseconds = 0 then "datetime.timezone.utc"
  else
    let day : Int := 86400000000
    let days := o.microseconds.fdiv day
    let rest := o.microseconds.fmod day
    let part := fun (name : String) (n : Int) =>
      if n = 0 then [] else [name ++ "=" ++ Integer.print n]
    "datetime.timezone(datetime.timedelta(" ++
      join ", " (part "days" days ++ part "seconds" (rest / 1000000) ++
        part "microseconds" (rest % 1000000)) ++ "))"

/-- Numbers in order without the seconds and microseconds that are zero at the end. -/
def timeParts (start : List Nat) (clock : Clock) : List String :=
  let numbers :=
    if clock.microsecond ≠ 0 then start ++
      [clock.hour, clock.minute, clock.second, clock.microsecond]
    else if clock.second ≠ 0 then start ++ [clock.hour, clock.minute, clock.second]
    else start ++ [clock.hour, clock.minute]
  numbers.map fun (n : Nat) => Integer.print n

/-- The offset as a named part, if there is one. -/
def offsetParts : Option Offset → List String
  | some o => ["tzinfo=" ++ o.quoted]
  | none => []

/-- The quoted form of a timestamp. -/
def Timestamp.quoted (t : Timestamp) : String :=
  "datetime.datetime(" ++
    join ", " (timeParts [t.date.year, t.date.month, t.date.day] t.clock ++ offsetParts t.offset) ++
    ")"

/-- The quoted form of a time of day. -/
def TimeOfDay.quoted (t : TimeOfDay) : String :=
  "datetime.time(" ++ join ", " (timeParts [] t.clock ++ offsetParts t.offset) ++ ")"

/-- The name of a choice with its family. -/
def Choice.print (c : Choice) : String := c.kind.name ++ "." ++ c.member

namespace Value

mutual

/-- A value as it is written inside a list or a map. -/
def quoted : Value → String
  | null => "None"
  | bool true => "True"
  | bool false => "False"
  | int n => Integer.print n
  | float x => x.print
  | decimal d => "Decimal('" ++ d.print ++ "')"
  | text s => Text.quoted s
  | timestamp t => t.quoted
  | time t => t.quoted
  | function kind s => kind.name ++ "(" ++ Text.quoted s ++ ")"
  | choice c => "<" ++ c.print ++ ": " ++ Text.quoted c.text ++ ">"
  | list items => "[" ++ join ", " (quotedItems items) ++ "]"
  | map entries => "\x7b" ++ join ", " (quotedEntries entries) ++ "\x7d"
  | object o => o.quoted

/-- The items of a list. -/
def quotedItems : List Value → List String
  | [] => []
  | v :: rest => quoted v :: quotedItems rest

/-- The entries of a map. -/
def quotedEntries : List (Value × Value) → List String
  | [] => []
  | e :: rest => quotedEntry e :: quotedEntries rest

/-- An entry of a map. -/
def quotedEntry : Value × Value → String
  | (k, v) => quoted k ++ ": " ++ quoted v

end

/-- A value as text. -/
def print : Value → String
  | text s => s
  | decimal d => d.print
  | timestamp t => t.print
  | time t => t.print
  | function _ s => s
  | choice c => c.print
  | object o => o.text
  | v => quoted v

end Value
end Migration
