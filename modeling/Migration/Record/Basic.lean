import Migration.Record.Coerce

/-!
# Records

A record holds a value for every field of its type.

* `Record.fresh` — a record as it starts
* `Record.bind` — sets a field by one of its spellings, with the value converted to its type
-/

namespace Migration

/-- A record: its type and the values of the fields, by name. -/
structure Record where
  type : RecordType
  values : List (String × Value)
  deriving Inhabited

namespace Record

/-- A record in which nothing has been set. -/
def fresh (type : RecordType) : Record :=
  ⟨type, type.fields.map fun f => (f.name, f.initial)⟩

/-- The value of a field. -/
def get (r : Record) (name : String) : Value := (r.values.lookup name).getD .null

/-- The record with another value in a field. -/
def put (r : Record) (name : String) (v : Value) : Record :=
  { r with values := r.values.map fun (n, w) => if n == name then (n, v) else (n, w) }

/-- The record with another value in a field, and in the fields that follow from it. -/
def set (r : Record) (name : String) (v : Value) : Record :=
  let consequences := r.type.consequences.filter fun (n, _, _) => n == name && v.isTruthy
  consequences.foldl (fun r (_, n, w) => r.put n w) (r.put name v)

/-- The record with a field set to a value from a script. -/
def bind (r : Record) (spelling : String) (v : Value) : Except BindError Record :=
  match r.type.field? spelling with
  | none => throw (.notFound spelling r.type.name)
  | some f =>
    match f.type with
    | none => throw (.notWritable spelling r.type.name)
    | some type => do return r.set f.name (← type.coerce v)

end Record
end Migration
