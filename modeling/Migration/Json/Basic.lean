import Migration.Number.Decimal

/-!
# JSON values

Summaries, log lines and scripts are exchanged as JSON. Numbers are kept as decimals, exactly as
they are written; the members of an object keep their order.
-/

namespace Migration

/-- A JSON value. -/
inductive Json where
  | null
  | bool (b : Bool)
  | number (n : Decimal)
  | string (s : String)
  | array (items : List Json)
  | object (members : List (String × Json))
  deriving Inhabited

namespace Json

/-- An integer. -/
def int (n : Int) : Json := number (.finite (n < 0) n.natAbs 0)

/-- A text or null. -/
def ofText? : Option String → Json
  | some s => string s
  | none => null

/-- The member of an object with a name; the last one counts. -/
def member? (j : Json) (name : String) : Option Json :=
  match j with
  | object members => members.reverse.lookup name
  | _ => none

/-- The integer that a number equals, if its exponent is zero. -/
def int? : Json → Option Int
  | number (.finite negative coefficient 0) =>
    some (if negative then -(coefficient : Int) else coefficient)
  | _ => none

/-- The text of a string. -/
def string? : Json → Option String
  | string s => some s
  | _ => none

/-- The truth value. -/
def bool? : Json → Option Bool
  | bool b => some b
  | _ => none

/-- The items of an array. -/
def array? : Json → Option (List Json)
  | array items => some items
  | _ => none

end Json
end Migration
