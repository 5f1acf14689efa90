import Migration.Text.Blank
import Migration.Text.Case
import Migration.Value

/-!
# Truth of values

* `Value.isTruthy` — whether a value counts as given: not nothing, not zero and not empty
* `Value.truth` — the truth that a flag is set to, where a text is true only if it says so
-/

namespace Migration.Value

/-- Whether a value is anything but nothing, false, zero and empty. -/
def isTruthy : Value → Bool
  | null => false
  | bool b => b
  | int n => n != 0
  | float x => !x.isZero
  | decimal d => !d.isZero
  | text s => !s.isEmpty
  | choice c => !c.text.isEmpty
  | list items => !items.isEmpty
  | map entries => !entries.isEmpty
  | timestamp _ | time _ | function .. | object _ => true

/-- The texts that say that something is true. -/
def trueTexts : List String := ["true", "1", "y"]

/-- Whether a text says that something is true; case and surrounding white space do not count. -/
def textTruth (s : String) : Bool := trueTexts.contains (Text.lower (Text.trim s))

/-- The truth of a flag: the default if it is not given, what a text says, and otherwise whether it
is given at all. -/
def truth (v : Value) (default : Bool) : Bool :=
  match v with
  | null => default
  | v => match v.asText? with
    | some s => textTruth s
    | none => v.isTruthy

end Migration.Value
