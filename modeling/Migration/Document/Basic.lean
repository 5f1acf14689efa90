import Migration.Filter.Context
import Migration.Filter.Labels
import Migration.Record.Basic
import Migration.Text.Order

/-!
# Documents

A change log compiles into a document: change sets in order, the preconditions of the whole, and
what is to be removed from change sets. The parts are given by type parameters, so that the same
structures serve while parts are shared by reference and once they have been put in place.

* `Change`, `ChangeSet`, `Document` — what a document is made of
* `PreconditionTree` — preconditions put in place
-/

namespace Migration

/-- A column of a change with its constraints. -/
structure Column where
  record : Record
  constraints : Option Record := none
  deriving Inhabited

/-- A change: its own fields, its columns, and the parameters of its where clause. -/
structure Change (Col : Type) where
  record : Record
  columns : List Col := []
  whereParams : List Record := []
  /-- Whether the change can read the files it refers to. -/
  hasResources : Bool := false
  deriving Inhabited

/-- A precondition with the ones inside it. -/
structure Precondition (Inner : Type) where
  record : Record
  nested : List Inner := []
  deriving Inhabited

/-- A precondition with the ones inside it in place. -/
inductive PreconditionTree where
  | node (record : Record) (nested : List PreconditionTree)
  deriving Inhabited

/-- What alters the SQL of a change set, and what it applies to. -/
structure Visitor where
  record : Record
  databases : Option (List String)
  contexts : Option ContextFilter
  labels : Option Labels
  deriving Inhabited

/-- An identified group of changes that is run as one, and how it is run. -/
structure ChangeSet (Part Check : Type) where
  id : Option String
  author : Option String
  /-- Where the change set belongs. Includes may put any value here. -/
  filePath : Value
  runAlways : Bool := false
  runOnChange : Bool := false
  runInTransaction : Bool := true
  contexts : Option ContextFilter := none
  databases : Option (List String) := none
  runWith : Option String := none
  runWithSpoolFile : Option String := none
  quotingStrategy : Option Choice := none
  failOnError : Option Bool := none
  onValidationFail : Option Choice := none
  labels : Option Labels := none
  created : Option String := none
  runOrder : Option String := none
  ignore : Bool := false
  comments : Value := .null
  checkSums : List Value := []
  preconditions : Option Check := none
  changes : List Part := []
  rollback : List Part := []
  visitors : List Visitor := []
  deriving Inhabited

/-- What is to be removed from the changes of one element when they run on some databases. -/
structure Removal where
  change : String
  databases : List String
  remove : String
  deriving DecidableEq, Repr

/-- What an include hands to the change sets it brings in. -/
structure Inheritance where
  contexts : Option ContextFilter := none
  labels : Option Labels := none
  ignore : Bool := false
  deriving DecidableEq, Repr, Inhabited

/-- What a change log compiles into. -/
structure Document (Part Check Parent : Type) where
  /-- The path of the script. -/
  physicalPath : String
  /-- The path that stands for it, if one is given. -/
  logicalPath : Option String := none
  contexts : Option ContextFilter := none
  quotingStrategy : Option Choice := none
  changeSets : List Part := []
  preconditions : Check
  removals : List Removal := []
  inheritance : Inheritance := {}
  /-- The document that includes it. -/
  parent : Option Parent := none
  /-- Whether parameters are known in it; parsers of the host do not know any. -/
  knowsParameters : Bool := true

namespace Document

variable {S P Q : Type}

/-- The path that identifies a document. -/
def filePath (d : Document S P Q) : String :=
  match d.logicalPath with
  | some path => if path.isEmpty then d.physicalPath else path
  | none => d.physicalPath

end Document

/-- A change with its columns in place. -/
abbrev CompleteChange := Change Column

/-- A change set with its changes and preconditions in place. -/
abbrev CompleteChangeSet := ChangeSet CompleteChange PreconditionTree

/-- A document with everything in place. -/
abbrev CompleteDocument := Document CompleteChangeSet PreconditionTree Empty

/-- The preconditions right inside another one. -/
def PreconditionTree.nested : PreconditionTree → List PreconditionTree
  | node _ nested => nested

end Migration
