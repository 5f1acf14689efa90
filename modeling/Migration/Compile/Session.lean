import Migration.Compile.Engine

/-!
# Compile sessions

What a compile builds up. Everything that scripts do is done to the session, and stays done if a
later step fails.

* `Session` — what all scripts of a compile share: the documents under construction, the parameters,
  the chain of open scripts, and the warnings
* `SessionM` — steps that read and change the session and may fail
-/

namespace Migration

/-- Something that is worth telling but does not stop a compile. -/
inductive Warning where
  | noPropertiesFile (path : String)
  | unknownFormat (path : String)
  | noInclude (path : String)
  | noDirectory (path element : String)
  | nothingFound (element path : String)
  deriving DecidableEq, Repr

/-- The text of a warning. -/
def Warning.message : Warning → String
  | noPropertiesFile path => s!"Properties file {path} does not exist; skipping"
  | unknownFormat path => s!"Skipping {path}: no change log parser supports this file"
  | noInclude path => s!"Included change log {path} does not exist; skipping"
  | noDirectory path element => s!"Directory {path} for {element} does not exist; skipping"
  | nothingFound element path => s!"No resources found for {element} '{path}'"

/-- What the scripts of a compile share. -/
structure Session where
  store : Store := {}
  table : Table
  /-- The paths of the open scripts, the first one first. -/
  chain : List String := []
  warnings : List Warning := []

/-- Steps that change the session and may fail. A failure does not undo what was done before. -/
abbrev SessionM := ExceptT Failure (StateM Session)

namespace SessionM

/-- Fails because the script is no valid change log. -/
def reject {α : Type} (failure : ParseFailure) (cause : Option BindError := none) : SessionM α :=
  throw (.parse failure cause)

/-- A computation that may meet a mishap, as a step. -/
def ofMishap {α : Type} : Except Mishap α → SessionM α
  | .ok a => return a
  | .error m => throw (.mishap m)

/-- A computation that may meet a malformed filter, as a step. -/
def ofFilter {α : Type} : Except Filter.Malformed α → SessionM α
  | .ok a => return a
  | .error m => throw (.mishap (.malformedFilter m))

/-- A computation that may not find a resource, as a step. -/
def ofResource {α : Type} : Except ResourceError α → SessionM α
  | .ok a => return a
  | .error e => throw (.resource e)

/-- A computation that may not find an extension, as a step. -/
def ofExtension {α : Type} : Except Extensions.Problem α → SessionM α
  | .ok a => return a
  | .error e => throw (.ofExtension e)

/-- A step whose failure is handed on as a value. -/
def observe {α : Type} (step : SessionM α) : SessionM (Except Failure α) :=
  tryCatch (Except.ok <$> step) fun failure => pure (.error failure)

/-- Notes a warning. -/
def warn (w : Warning) : SessionM Unit := modify fun s => { s with warnings := s.warnings ++ [w] }

/-- Changes the store. -/
def modifyStore (f : Store → Store) : SessionM Unit := modify fun s => { s with store := f s.store }

/-- A value with its placeholders replaced by the parameters that apply inside a document. -/
def expand (document : DocumentId) (v : Value) : SessionM Value := do
  ofFilter ((← get).table.expandValue v (some document))

/-- The document at a place. -/
def document (i : DocumentId) : SessionM DraftDocument := do
  return ((← get).store.documents.get? i).getD
    { physicalPath := "", preconditions := ⟨0⟩ }

/-- Changes the document at a place. -/
def modifyDocument (i : DocumentId) (f : DraftDocument → DraftDocument) : SessionM Unit :=
  modifyStore fun store => { store with documents := store.documents.modify i f }

/-- Changes the change set at a place. -/
def modifyChangeSet (i : ChangeSetId) (f : DraftChangeSet → DraftChangeSet) : SessionM Unit :=
  modifyStore fun store => { store with changeSets := store.changeSets.modify i f }

/-- Changes the change at a place. -/
def modifyChange (i : ChangeId) (f : DraftChange → DraftChange) : SessionM Unit :=
  modifyStore fun store => { store with changes := store.changes.modify i f }

/-- Changes the column at a place. -/
def modifyColumn (i : ColumnId) (f : Column → Column) : SessionM Unit :=
  modifyStore fun store => { store with columns := store.columns.modify i f }

/-- Changes the precondition at a place. -/
def modifyPrecondition (i : PreconditionId) (f : DraftPrecondition → DraftPrecondition) :
    SessionM Unit :=
  modifyStore fun store => { store with preconditions := store.preconditions.modify i f }

/-- Puts a change set into the store. -/
def addChangeSet (s : DraftChangeSet) : SessionM ChangeSetId := do
  let i := (← get).store.changeSets.next
  modifyStore fun store => { store with changeSets := store.changeSets.add s }
  return i

/-- Puts a change into the store. -/
def addChange (c : DraftChange) : SessionM ChangeId := do
  let i := (← get).store.changes.next
  modifyStore fun store => { store with changes := store.changes.add c }
  return i

/-- Puts a column into the store. -/
def addColumn (c : Column) : SessionM ColumnId := do
  let i := (← get).store.columns.next
  modifyStore fun store => { store with columns := store.columns.add c }
  return i

/-- Puts a precondition into the store. -/
def addPrecondition (p : DraftPrecondition) : SessionM PreconditionId := do
  let i := (← get).store.preconditions.next
  modifyStore fun store => { store with preconditions := store.preconditions.add p }
  return i

/-- Puts a document into the store. -/
def addDocument (d : DraftDocument) : SessionM DocumentId := do
  let i := (← get).store.documents.next
  modifyStore fun store => { store with documents := store.documents.add d }
  return i

end SessionM
end Migration
