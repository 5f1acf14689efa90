import Migration.Number.Integer
import Migration.Text.Case
import Migration.Value

/-!
# Values in settings

Settings and parameters are stricter than elements about flags: only the usual spellings of yes and
no and the numbers one and zero are accepted.

* `Value.flag?` — the truth value that a value gives
-/

namespace Migration

/-- The integer that a number equals, if it is one. -/
def Binary64.integer? : Binary64 → Option Int
  | .finite negative mantissa exponent =>
    let (n, d) := ratio mantissa exponent
    if n % d = 0 then some (if negative then -((n / d : Nat) : Int) else (n / d : Nat)) else none
  | _ => none

namespace Value

/-- The spellings of yes. -/
def yesTexts : List String := ["1", "on", "t", "true", "y", "yes"]

/-- The spellings of no. -/
def noTexts : List String := ["0", "off", "f", "false", "n", "no"]

/-- The truth value of a number that is one or zero. -/
def flagOfInt? (n : Int) : Option Bool :=
  if n = 1 then some true else if n = 0 then some false else none

/-- The truth value that a spelling of yes or no gives; the case of ASCII letters does not count. -/
def flagOfText? (s : String) : Option Bool :=
  let s := s.toLower
  if yesTexts.contains s then some true else if noTexts.contains s then some false else none

/-- The truth value that a value gives in a setting. -/
def flag? : Value → Option Bool
  | bool b => some b
  | int n => flagOfInt? n
  | float x => x.integer?.bind flagOfInt?
  | decimal d => (Binary64.ofDecimal d).integer?.bind flagOfInt?
  | text s => flagOfText? s
  | choice c => flagOfText? c.text
  | _ => none

end Value
end Migration
