import Migration.Compile.Session
import Migration.Value.Truth

/-!
# Merging documents

What an included document adds to the one that includes it. Change sets without a filter of their
own take over that of the include; preconditions stay together in their container.

* `Inheritance.applyTo` — what an include hands to a change set
* `SessionM.merge` — the merge of two documents
-/

namespace Migration

/-- A change set with what an include hands to it. -/
def Inheritance.applyTo (h : Inheritance) (path : Value) (s : DraftChangeSet) : DraftChangeSet :=
  { s with
    contexts :=
      if h.contexts.isSome && (s.contexts.all (·.isEmpty)) then h.contexts else s.contexts
    labels := if h.labels.isSome && (s.labels.all (·.isEmpty)) then h.labels else s.labels
    ignore := s.ignore || h.ignore
    filePath := if path.isTruthy then path else s.filePath }

namespace SessionM

/-- Adds change sets to a document, each with what the include hands to it. -/
def mergeChangeSets (document : DocumentId) (h : Inheritance) (path : Value) :
    List ChangeSetId → SessionM Unit
  | [] => return ()
  | i :: rest => do
    modifyChangeSet i (h.applyTo path)
    modifyDocument document fun d => { d with changeSets := d.changeSets ++ [i] }
    mergeChangeSets document h path rest

/-- Puts a container of preconditions into that of a document, unless there is nothing in it. -/
def nestContainer (document : DocumentId) (container : PreconditionId) : SessionM Unit := do
  let c := (← get).store.preconditions.get? container
  if c.any (!·.nested.isEmpty) then
    let d ← SessionM.document document
    modifyPrecondition d.preconditions fun p => { p with nested := p.nested ++ [container] }

/-- Adds an included document to another one. -/
def merge (document child : DocumentId) (path : Value) : SessionM Unit := do
  let c ← SessionM.document child
  mergeChangeSets document c.inheritance path c.changeSets
  nestContainer document c.preconditions
  modifyDocument document fun d => { d with removals := d.removals ++ c.removals }

end SessionM
end Migration
