import Migration.Compile.Frame
import Migration.Compile.Vocabulary

/-!
# Elements

Which elements may stand in a block, and which arguments they take.

* `Element` — an element together with what it works on
* `Body.element?` — the element that a name stands for in a block
* `Signature.check` — whether arguments fit an element
-/

namespace Migration

/-- An element and what it works on. -/
inductive Element where
  | changeLog
  | property
  | changeSet
  | «include»
  | includeAll
  | includeAllSql
  | preconditions (owner : String) (changeSet : Option ChangeSetId)
  | removeProperty
  | comment (changeSet : ChangeSetId)
  | checkSum (changeSet : ChangeSetId)
  | rollback (owner : String) (changeSet : ChangeSetId)
  | modifySql (owner : String) (changeSet : ChangeSetId)
  /-- A change, which is added to the change set or to its rollback. -/
  | change (owner name : String) (type : RecordType) (changeSet : ChangeSetId) (undoes : Bool)
  | column (owner name : String) (change : ChangeId)
  | whereClause (owner name : String) (change : ChangeId)
  | whereParams (owner name : String) (change : ChangeId)
  | param (owner name : String) (change : ChangeId)
  | constraints (owner name : String) (column : ColumnId)
  | constraint (owner name : String) (column : ColumnId) (key : String)
  | group (owner : String) (type : RecordType) (parent : PreconditionId)
  | precondition (owner name : String) (type : RecordType) (parent : PreconditionId)
  | visitor (owner : String) (type : RecordType) (changeSet : ChangeSetId) (filter : VisitorFilter)

/-- The groups of preconditions by their elements. -/
def groupTypes : List (String × RecordType) :=
  [("and_", Catalog.conjunction), ("or_", Catalog.disjunction), ("not_", Catalog.negation)]

namespace Body

/-- The element that a name stands for in a document. -/
def changeLogElement? (name : String) : Option Element :=
  match name with
  | "property" => some .property
  | "changeSet" => some .changeSet
  | "include" => some .include
  | "includeAll" => some .includeAll
  | "includeAllSql" => some .includeAllSql
  | "preConditions" => some (.preconditions documentOwner none)
  | "removeChangeSetProperty" => some .removeProperty
  | _ => none

/-- The element that a name stands for in a change set. -/
def changeSetElement? (e : Engine) (owner : String) (s : ChangeSetId) (name : String) :
    Option Element :=
  match name with
  | "comment" => some (.comment s)
  | "validCheckSum" => some (.checkSum s)
  | "preConditions" => some (.preconditions owner (some s))
  | "rollback" => some (.rollback owner s)
  | "modifySql" => some (.modifySql owner s)
  | _ => (e.changes.get? name).map fun type => .change owner name type s false

/-- The element that a name stands for in a change. -/
def changeElement? (owner change : String) (i : ChangeId) (name : String) : Option Element :=
  match name with
  | "column" => some (.column owner change i)
  | "where" => some (.whereClause owner change i)
  | "whereParams" => some (.whereParams owner change i)
  | _ => none

/-- The element that a name stands for among the constraints of a column. -/
def columnElement? (owner change : String) (i : ColumnId) (name : String) : Option Element :=
  if name == "constraints" then some (.constraints owner change i)
  else if Catalog.constraints.hasProperty name then some (.constraint owner change i name)
  else none

/-- The element that a name stands for among preconditions. -/
def preconditionElement? (e : Engine) (owner : String) (i : PreconditionId) (name : String) :
    Option Element :=
  match groupTypes.lookup name with
  | some type => some (.group owner type i)
  | none => (e.preconditions.get? name).map fun type => .precondition owner name type i

/-- The element that a name stands for in a block, if it may stand there. -/
def element? (e : Engine) (name : String) : Body → Option Element
  | script => if name == "databaseChangeLog" then some .changeLog else none
  | changeLog => changeLogElement? name
  | changeSet owner s => changeSetElement? e owner s name
  | rollback owner s => (e.changes.get? name).map fun type => .change owner name type s true
  | change owner type i => changeElement? owner type i name
  | whereParams owner type i => if name == "param" then some (.param owner type i) else none
  | column owner type i => columnElement? owner type i name
  | preconditions owner i => preconditionElement? e owner i name
  | leaf .. => none
  | modifySql owner s filter =>
    (Catalog.visitors.find? (·.element == name)).map fun type => .visitor owner type s filter

end Body

/-- Which arguments an element takes. -/
inductive Signature where
  | anything
  | attributes
  | one (name : String)
  | nothing
  deriving DecidableEq, Repr

/-- The arguments that an element takes. -/
def Element.signature : Element → Signature
  | rollback .. | change .. | precondition .. => .anything
  | comment _ => .one "text"
  | checkSum _ => .one "check_sum"
  | whereClause .. => .one "clause"
  | constraint .. => .one "value"
  | whereParams .. | group .. => .nothing
  | _ => .attributes

namespace Signature

/-- Refuses the first attribute, if there is one. -/
def refuse (a : Attributes) : Except ArgumentProblem Unit :=
  match a with
  | [] => return ()
  | (name, _) :: _ => throw (.unexpected name)

/-- Whether arguments fit. An argument that is missing or given twice is noticed first. -/
def check (s : Signature) (positional : List Value) (a : Attributes) :
    Except ArgumentProblem Unit :=
  match s, positional with
  | anything, _ | attributes, [] => return ()
  | attributes, _ :: _ | nothing, _ :: _ => throw .tooMany
  | nothing, [] => refuse a
  | one name, [] => do
    if !a.has name then throw (.missing name)
    refuse (a.filter (·.1 != name))
  | one name, _ :: more => do
    if a.has name then throw (.twice name)
    if !more.isEmpty then throw .tooMany
    refuse a

/-- The single argument of an element that takes one. -/
def argument (s : Signature) (positional : List Value) (a : Attributes) : Value :=
  match s, positional with
  | one name, [] => a.get name
  | _, v :: _ => v
  | _, [] => .null

end Signature
end Migration
