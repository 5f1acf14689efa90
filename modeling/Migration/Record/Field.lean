import Migration.Value

/-!
# Fields and record types

Changes, columns, constraints, preconditions and SQL visitors are records: a type with named fields.
A field has two spellings, `table_name` and `tableName`, and scripts may use either. Only fields
that hold a single value can be set from a script.

* `FieldType` — what a field that scripts can set holds
* `Field` — a field with its spellings, its type and the value it starts with
* `RecordType` — a type of records and what elements of that type can do
-/

namespace Migration

/-- What the values of a field are converted to. -/
inductive FieldType where
  | truth
  | integer
  | decimal
  | timestamp
  | function (kind : FunctionKind)
  | text
  | choice (kind : Choice.Kind)
  deriving DecidableEq, Repr

namespace FieldType

/-- The name of a field type in messages. -/
def name : FieldType → String
  | truth => "bool"
  | integer => "int"
  | decimal => "Decimal"
  | timestamp => "datetime"
  | function kind => kind.name
  | text => "str"
  | choice kind => kind.name

/-- The field types, each once. -/
def all : List FieldType :=
  [truth, integer, decimal, timestamp, function .expression, function .sequenceNext,
    function .sequenceCurrent, text] ++ Choice.Kind.all.map choice

/-- The field type with a name. -/
def ofName? (name : String) : Option FieldType := all.find? (·.name == name)

end FieldType

/-- The characters of a name with a capital in place of each underscore and the letter after it. -/
def camelCaseChars : List Char → List Char
  | [] => []
  | '_' :: c :: rest => c.toUpper :: camelCaseChars rest
  | c :: rest => c :: camelCaseChars rest

/-- A name with capitals in place of underscores. -/
def camelCase (s : String) : String := String.ofList (camelCaseChars s.toList)

/-- A field of a record. -/
structure Field where
  /-- The name, in lower case with underscores. -/
  name : String
  /-- The spelling that scripts usually use. -/
  «alias» : String
  /-- What a script can set the field to; nothing if it cannot set it. -/
  type : Option FieldType
  /-- What the field holds in a fresh record. -/
  initial : Value := .null

namespace Field

/-- A field that holds nothing at first, with the usual spelling. -/
def named (type : FieldType) (name : String) : Field :=
  { name, «alias» := camelCase name, type := some type }

/-- A field that scripts cannot set. -/
def hidden (name : String) : Field := { name, «alias» := camelCase name, type := none }

/-- A field that holds a list of other records. -/
def records (name : String) : Field := { hidden name with initial := .list [] }

end Field

/-- What kind of thing a record is. -/
inductive RecordFamily where
  | base
  | column
  | change
  | precondition
  | visitor
  deriving DecidableEq, Repr, Inhabited

/-- The forms of columns that changes take. -/
inductive ColumnForm where
  | plain
  | added
  | loaded
  deriving DecidableEq, Repr, Inhabited

/-- A type of records. -/
structure RecordType where
  /-- The name of the type in messages. -/
  name : String
  /-- What its records are. -/
  family : RecordFamily
  /-- The element that stands for the type; empty if none does. -/
  element : String := ""
  fields : List Field := []
  /-- More spellings of fields, each with the name of the field. -/
  aliases : List (String × String) := []
  /-- The field that the positional argument of an element sets. -/
  positional : Option String := none
  /-- The form of the columns that the elements take, if they take any. -/
  columns : Option ColumnForm := none
  /-- Whether the elements take parameters for a where clause. -/
  takesWhereParams : Bool := false
  /-- Whether the records refer to files. -/
  readsResources : Bool := false
  /-- Fields that, set to something true, set another field to a value. -/
  consequences : List (String × String × Value) := []
  deriving Inhabited

namespace RecordType

/-! ## Abilities -/

/-- The type with columns. -/
def withColumns (t : RecordType) (form : ColumnForm) : RecordType :=
  { t with fields := .records "columns" :: t.fields, columns := some form }

/-- The type with parameters for a where clause. -/
def withWhereParams (t : RecordType) : RecordType :=
  { t with fields := .records "where_params" :: t.fields, takesWhereParams := true }

/-- The type for records that refer to files. -/
def withResources (t : RecordType) : RecordType := { t with readsResources := true }

/-- The type with a field that the positional argument of its element sets. -/
def withPositional (t : RecordType) (field : String) : RecordType :=
  { t with positional := some field }

/-- The type in which setting one field to something true sets another one to a value. -/
def withConsequence (t : RecordType) (field other : String) (v : Value) : RecordType :=
  { t with consequences := t.consequences ++ [(field, other, v)] }

/-- The type with one more spelling of a field. -/
def withAlias (t : RecordType) (spelling field : String) : RecordType :=
  { t with aliases := t.aliases ++ [(spelling, field)] }

/-! ## Fields by their spellings -/

/-- The field that a spelling stands for. -/
def field? (t : RecordType) (spelling : String) : Option Field :=
  let name := (t.aliases.lookup spelling).getD spelling
  t.fields.find? fun f => f.name == name || f.«alias» == name

/-- Whether a script can set the field with a spelling. -/
def hasProperty (t : RecordType) (spelling : String) : Bool :=
  match t.field? spelling with
  | some f => f.type.isSome
  | none => false

/-- The spellings of all fields, with the fields they stand for. -/
def spellings (t : RecordType) : List (String × Field) :=
  let own := t.fields.flatMap fun f =>
    if f.name == f.«alias» then [(f.name, f)] else [(f.name, f), (f.«alias», f)]
  own ++ t.aliases.filterMap fun (spelling, _) => (t.field? spelling).map (spelling, ·)

end RecordType
end Migration
