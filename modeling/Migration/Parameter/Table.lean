import Migration.Filter.Context
import Migration.Filter.Database
import Migration.Filter.Labels
import Migration.Parameter.Placeholder
import Migration.Pool
import Migration.Value.Flag
import Migration.Value.Items

/-!
# Parameters

The table of named values that placeholders and bare names refer to. A parameter may be restricted
to contexts, labels and databases, and to the document that declares it. The table is bound to one
run: a parameter that does not apply to it counts as absent.

* `Table.set` — writes a parameter
* `Table.find?` — the last write of a name that applies
* `Table.expand` — a text with its placeholders replaced, once and from left to right
-/

namespace Migration

/-- A document under compilation. -/
abbrev DocumentId := Place .document

/-- A named value and where it applies. -/
structure Parameter where
  key : String
  value : Value
  contexts : Option ContextFilter
  labels : Option Labels
  databases : Option (List String)
  isGlobal : Bool
  /-- The document that declares it; one that is not global is only visible there. -/
  owner : Option DocumentId

namespace Parameter

/-- A parameter as it is declared, before its parts are checked. -/
structure Declaration where
  name : Value
  value : Value
  contexts : Value := .null
  labels : Value := .null
  databases : Value := .null
  isGlobal : Value := .bool true
  owner : Option DocumentId := none

/-- A name as text. -/
def key? : Value → Option String := Value.asText?

/-- A context filter given as a text, or none. -/
def contexts? : Value → Option (Option ContextFilter)
  | .null => some none
  | v => v.asText?.map fun s => some (.ofText s)

/-- Labels given as one text, or none. -/
def labels? : Value → Option (Option Labels)
  | .null => some none
  | v => v.asText?.map fun s => some (.ofText s)

/-- The parameter of a declaration. The databases are read before the other parts are checked. -/
def ofDeclaration (d : Declaration) : Except Mishap Parameter := do
  let databases ← d.databases.databases
  match key? d.name, contexts? d.contexts, labels? d.labels, d.isGlobal.flag? with
  | some key, some contexts, some labels, some isGlobal =>
    return { key, value := d.value, contexts, labels, databases, isGlobal, owner := d.owner }
  | key, contexts, labels, isGlobal =>
    let wrong := fun (name : String) (ok : Bool) => if ok then [] else [name]
    throw (.invalidRecord "ChangeLogParameter"
      (wrong "global_" isGlobal.isSome ++ wrong "key" key.isSome ++ wrong "labels" labels.isSome ++
        wrong "valid_contexts" contexts.isSome))

/-- A parameter that applies everywhere. -/
def ofText (key value : String) : Parameter where
  key
  value := .text value
  contexts := none
  labels := none
  databases := none
  isGlobal := true
  owner := none

end Parameter

/-- The parameters of a run, the last write first, and what the run is bound to. -/
structure Table where
  database : Option String
  contexts : List String
  labels : LabelFilter
  parameters : List Parameter

namespace Table

/-- The contexts of a run that one text lists. -/
def contextsOfText (s : String) : List String := (ContextFilter.ofText s).contexts

/-- The empty table of a run: the database it is for, its contexts, and the expression by which it
selects labels. -/
def ofRun (database : Option String) (contexts : Option (List String)) (labels : Option String) :
    Table where
  database
  contexts := (contexts.getD []).filter (!·.isEmpty)
  labels := match labels with
    | some s => .ofText s
    | none => ⟨none⟩
  parameters := []

/-- Whether a parameter applies to the run inside a document. -/
def applies (t : Table) (p : Parameter) (document : Option DocumentId) :
    Except Filter.Malformed Bool := do
  if !p.isGlobal && p.owner != document then return false
  if let some contexts := p.contexts then
    if !(← contexts.admits t.contexts) then return false
  if !(← t.labels.selects p.labels) then return false
  return DatabaseFilter.admits (p.databases.getD []) t.database

/-- The first of the parameters that has the name and applies. -/
def search (t : Table) (name : String) (document : Option DocumentId) :
    List Parameter → Except Filter.Malformed (Option Parameter)
  | [] => return none
  | p :: rest => do
    if p.key == name then
      if ← t.applies p document then return some p
    t.search name document rest

/-- The last write of a name that applies inside a document. -/
def find? (t : Table) (name : String) (document : Option DocumentId) :
    Except Filter.Malformed (Option Parameter) :=
  t.search name document t.parameters

/-- The table with one write more. -/
def set (t : Table) (p : Parameter) : Table := { t with parameters := p :: t.parameters }

/-- What a segment expands to: a placeholder to the value of its name, unless there is none. -/
def expandSegment (t : Table) (document : Option DocumentId) :
    Segment → Except Filter.Malformed (List Char)
  | .literal c => return [c]
  | .placeholder inside => do
    match ← t.find? (String.ofList (Text.trimChars inside)) document with
    | none => return (Segment.placeholder inside).chars
    | some p => return if p.value.isNull then (Segment.placeholder inside).chars
        else p.value.print.toList

/-- A text with its placeholders replaced by the values that apply inside a document. -/
def expand (t : Table) (s : String) (document : Option DocumentId) :
    Except Filter.Malformed String := do
  let parts ← (Segment.ofChars s.toList).mapM (t.expandSegment document)
  return String.ofList parts.flatten

/-- A value with its placeholders replaced, if it is text. -/
def expandValue (t : Table) (v : Value) (document : Option DocumentId) :
    Except Filter.Malformed Value :=
  match v.asText? with
  | some s => .text <$> t.expand s document
  | none => return v

end Table
end Migration
