import Migration.Document.Basic
import Migration.Parameter.Table
import Migration.Value.Equality

/-!
# Documents under construction

While scripts run, changes, columns, preconditions, change sets and documents are shared: what is
added to one of them shows wherever it is referred to. They live in the pools of a store.

* `Store` — the pools
* `Store.find?` — a change set by path, author and identifier
* `Store.complete` — a document with everything put in place
-/

namespace Migration

abbrev ColumnId := Place .column
abbrev ChangeId := Place .change
abbrev PreconditionId := Place .precondition
abbrev ChangeSetId := Place .changeSet

/-- A change that refers to its columns. -/
abbrev DraftChange := Change ColumnId

/-- A precondition that refers to the ones inside it. -/
abbrev DraftPrecondition := Precondition PreconditionId

/-- A change set that refers to its changes and its preconditions. -/
abbrev DraftChangeSet := ChangeSet ChangeId PreconditionId

/-- A document that refers to its parts and to the document that includes it. -/
abbrev DraftDocument := Document ChangeSetId PreconditionId DocumentId

/-- Everything that is under construction. -/
structure Store where
  columns : Pool .column Column := .empty
  changes : Pool .change DraftChange := .empty
  preconditions : Pool .precondition DraftPrecondition := .empty
  changeSets : Pool .changeSet DraftChangeSet := .empty
  documents : Pool .document DraftDocument := .empty

namespace Store

/-! ## Change sets by name -/

/-- Whether a change set has the identifier, and the author and the path if they are given. -/
def isNamed (path author id : Value) (s : DraftChangeSet) : Bool :=
  (Value.ofText? s.id).equals id &&
    (author.isNull || (Value.ofText? s.author).equals author) &&
    (path.isNull || s.filePath.equals path)

/-- The first change set of a document with a name. -/
def findIn? (store : Store) (d : DraftDocument) (path author id : Value) : Option ChangeSetId :=
  d.changeSets.find? fun s => match store.changeSets.get? s with
    | some s => isNamed path author id s
    | none => false

/-- The first change set with a name in a document or else in the documents that include it, the
nearest one first. -/
def find? (store : Store) (document : DocumentId) (path author id : Value) : Option ChangeSetId :=
  match store.documents.get? document with
  | none => none
  | some d =>
    match store.findIn? d path author id, d.parent with
    | some found, _ => some found
    | none, none => none
    | none, some parent =>
      if parent.index < document.index then store.find? parent path author id else none
termination_by document.index

/-! ## Putting parts in place -/

/-- A change with its columns. -/
def completeChange (store : Store) (c : DraftChange) : CompleteChange :=
  { record := c.record, columns := c.columns.filterMap store.columns.get?,
    whereParams := c.whereParams, hasResources := c.hasResources }

/-- The change at a place with its columns. -/
def change? (store : Store) (i : ChangeId) : Option CompleteChange :=
  (store.changes.get? i).map store.completeChange

/-- A precondition with the ones inside it, down to a depth. -/
def preconditionTree (store : Store) : (depth : Nat) → PreconditionId → Option PreconditionTree
  | 0, _ => none
  | depth + 1, i => do
    let p ← store.preconditions.get? i
    return .node p.record (p.nested.filterMap (store.preconditionTree depth))

/-- The precondition at a place with the ones inside it. Each lies inside another one, so none is
deeper than there are preconditions. -/
def precondition? (store : Store) (i : PreconditionId) : Option PreconditionTree :=
  store.preconditionTree (store.preconditions.size + 1) i

/-- A change set with its parts. -/
def completeChangeSet (store : Store) (s : DraftChangeSet) : CompleteChangeSet :=
  { s with
    preconditions := s.preconditions.bind store.precondition?
    changes := s.changes.filterMap store.change?
    rollback := s.rollback.filterMap store.change? }

/-- The change set at a place with its parts. -/
def changeSet? (store : Store) (i : ChangeSetId) : Option CompleteChangeSet :=
  (store.changeSets.get? i).map store.completeChangeSet

/-- The document at a place with everything in it. -/
def complete (store : Store) (i : DocumentId) : Option CompleteDocument := do
  let d ← store.documents.get? i
  return {
    d with
    changeSets := d.changeSets.filterMap store.changeSet?
    preconditions := (store.precondition? d.preconditions).getD (.node default [])
    parent := none }

end Store
end Migration
