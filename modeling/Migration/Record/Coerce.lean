import Migration.Record.Field
import Migration.Time.Iso
import Migration.Value.Printer
import Migration.Value.Truth

/-!
# Conversion of values

A field converts what a script gives it to its type. Nothing stays nothing. A value that already has
the type stays as it is; anything else goes through its text.

* `FieldType.coerce` — the converted value, or why there is none
-/

namespace Migration

/-- Why a field cannot be set. -/
inductive BindError where
  /-- The record has no such field. -/
  | notFound (spelling type : String)
  /-- The field cannot be set from a script. -/
  | notWritable (spelling type : String)
  /-- The text is no member of the family. -/
  | notAChoice (text : String) (kind : Choice.Kind)
  /-- The text cannot be converted to the type. -/
  | notConvertible (text : String) (type : FieldType)
  deriving DecidableEq, Repr

/-- The message about a field that cannot be set. -/
def BindError.message : BindError → String
  | notFound spelling type => s!"Property '{spelling}' not found on object type {type}"
  | notWritable spelling type =>
    s!"Property '{spelling}' on object type {type} cannot be set from a change log"
  | notAChoice text kind =>
    let name := kind.name
    s!"'{text}' is not a valid {name} value"
  | notConvertible text type =>
    let name := type.name
    s!"Cannot convert '{text}' to {name}"

/-- The point in time that a text writes: a timestamp, a time of day, or else an expression that the
database computes. -/
def Value.ofTimeText (s : String) : Value :=
  match Timestamp.parse? s, TimeOfDay.parse? s with
  | some t, _ => .timestamp t
  | none, some t => .time t
  | none, none => .function .expression s

namespace FieldType

/-- Whether a value already has the type. Functions of every kind count as expressions. -/
def has : FieldType → Value → Bool
  | integer, .int _ => true
  | decimal, .decimal _ => true
  | timestamp, .timestamp _ => true
  | function kind, .function kind' _ => kind == .expression || kind == kind'
  | choice kind, .choice c => c.kind == kind
  | _, _ => false

/-- A value that is not of the type, converted through its text. -/
def convert (type : FieldType) (v : Value) : Except BindError Value :=
  let text := v.print
  let converted : Option Value :=
    match type with
    | integer => (Integer.parse? text).map .int
    | decimal => (Decimal.parse? text).map .decimal
    | timestamp => some (.ofTimeText (Text.trim text))
    | function kind => some (.function kind text)
    | choice kind => (Choice.ofName? kind text).map .choice
    | .text => some (.text text)
    | truth => some (.bool (v.truth false))
  match converted, type with
  | some w, _ => return w
  | none, choice kind => throw (.notAChoice text kind)
  | none, type => throw (.notConvertible text type)

/-- A value converted to the type. -/
def coerce (type : FieldType) (v : Value) : Except BindError Value :=
  match type, v with
  | _, .null => return .null
  | truth, v => return .bool (v.truth false)
  | .text, .bool b => return .text (if b then "true" else "false")
  | .text, v => return .text v.print
  | type, v => if type.has v then return v else type.convert v

end FieldType
end Migration
