import Migration.Choice
import Migration.Number.Binary64
import Migration.Time.Calendar

/-!
# Values

What an attribute of an element, a parameter and a field of a record can hold. Scripts write
nothing, truth values, numbers, texts, lists and maps; hosts and conversions add decimals, points in
time, functions of the database and choices. Scripts can also hand on what is no plain value, such
as a block that they keep.
-/

namespace Migration

/-- What a function of the database computes: an expression, or the next or the current value of a
sequence. -/
inductive FunctionKind where
  | expression
  | sequenceNext
  | sequenceCurrent
  deriving DecidableEq, Repr, Inhabited

/-- The name of a kind of function. -/
def FunctionKind.name : FunctionKind → String
  | expression => "DatabaseFunction"
  | sequenceNext => "SequenceNextValueFunction"
  | sequenceCurrent => "SequenceCurrentValueFunction"

/-- What is no plain value: the name of its type, how it is written by itself and inside a list or a
map, and whether it can be a key of a map. -/
structure HostObject where
  type : String
  text : String
  quoted : String := text
  isKey : Bool := true
  deriving DecidableEq, Repr, Inhabited

/-- A value. -/
inductive Value where
  | null
  | bool (b : Bool)
  | int (n : Int)
  | float (x : Binary64)
  | decimal (d : Decimal)
  | text (s : String)
  | timestamp (t : Timestamp)
  | time (t : TimeOfDay)
  | function (kind : FunctionKind) (s : String)
  | choice (c : Choice)
  | list (items : List Value)
  | map (entries : List (Value × Value))
  | object (o : HostObject)
  deriving Inhabited

namespace Value

/-- Whether there is no value. -/
def isNull : Value → Bool
  | null => true
  | _ => false

/-- The text of a value that counts as text: a text, or what a choice stands for. -/
def asText? : Value → Option String
  | text s => some s
  | choice c => some c.text
  | _ => none

/-- The text or nothing. -/
def ofText? : Option String → Value
  | some s => text s
  | none => null

/-- The name of the type of a value in messages. -/
def typeName : Value → String
  | null => "NoneType"
  | bool _ => "bool"
  | int _ => "int"
  | float _ => "float"
  | decimal _ => "decimal.Decimal"
  | text _ => "str"
  | timestamp _ => "datetime.datetime"
  | time _ => "datetime.time"
  | function kind _ => kind.name
  | choice c => c.kind.name
  | list _ => "list"
  | map _ => "dict"
  | object o => o.type

end Value
end Migration
