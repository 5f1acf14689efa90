import Migration.Inclusion.Include

/-!
# Running scripts

The state of one running script: which blocks are open, and what the results of its elements can
still be opened as.

* `Body` — what an open block is about; it says which elements may stand in it
* `Scope` — a result that can be opened as a block
* `Result` — what an element leaves behind for its script
* `Frame`, `ScriptM` — the state of a running script, and steps of it
* `ScriptM.enter`, `ScriptM.leave` — a block is opened and left
-/

namespace Migration

/-- What the visitors of a `modifySql` block apply to. -/
structure VisitorFilter where
  databases : Option (List String)
  contexts : Option ContextFilter
  labels : Option Labels
  appliesToRollback : Bool
  deriving Inhabited

/-- What an open block is about. -/
inductive Body where
  | script
  | changeLog
  | changeSet (owner : String) (changeSet : ChangeSetId)
  | rollback (owner : String) (changeSet : ChangeSetId)
  | change (owner name : String) (change : ChangeId)
  | whereParams (owner name : String) (change : ChangeId)
  | column (owner name : String) (column : ColumnId)
  | preconditions (owner : String) (group : PreconditionId)
  | leaf (owner element : String)
  | modifySql (owner : String) (changeSet : ChangeSetId) (filter : VisitorFilter)
  deriving Inhabited

/-- The block in messages. -/
def Body.surroundings : Body → Surroundings
  | script => .script
  | changeLog => .changeLog
  | changeSet owner _ => .changeSet owner
  | rollback owner _ => .rollback owner
  | change owner name _ => .change owner name
  | whereParams owner name _ => .whereParams owner name
  | column owner name _ => .column owner name
  | preconditions owner _ => .preconditions owner
  | leaf owner element => .leaf owner element
  | modifySql owner _ _ => .modifySql owner

/-- The owner of the elements in a block, in messages. -/
def Body.owner : Body → String
  | script | changeLog => documentOwner
  | changeSet owner _ | rollback owner _ | change owner _ _ | whereParams owner _ _
  | column owner _ _ | preconditions owner _ | leaf owner _ | modifySql owner _ _ => owner

/-- What opening a result makes of it. Constraints and filters are only read then. -/
inductive Opening where
  | body (body : Body)
  | constraints (owner name : String) (column : ColumnId)
  | visitors (owner : String) (changeSet : ChangeSetId) (attributes : Attributes)
  deriving Inhabited

/-- What happens when a block is left without a failure. -/
inductive Completion where
  | nothing
  | appendChangeSet (changeSet : ChangeSetId)
  | setPreconditions (container : PreconditionId)
  | setChangeSetPreconditions (changeSet : ChangeSetId) (container : PreconditionId)
  deriving Inhabited

/-- A result that can be opened as a block. -/
structure Scope where
  opening : Opening
  /-- The element, if it must be opened. -/
  required : Option String := none
  completion : Completion := .nothing
  /-- The mark of the block that it was last opened as. -/
  mark : Option Nat := none
  deriving Inhabited

/-- What an element leaves behind: nothing, an object, or a result that can be opened as a block. -/
inductive Result where
  | nothing
  | object (type : String)
  | scope (s : Scope)

/-- A result that must be opened as a block. -/
def Result.block (element : String) (opening : Opening) (completion : Completion := .nothing) :
    Result :=
  .scope { opening, required := some element, completion }

/-- A result that may be opened as a block. -/
def Result.handle (opening : Opening) : Result := .scope { opening }

/-- The number of a scope in its script. -/
abbrev ScopeId := Nat

/-- What a script gets from a call: what an element leaves behind, or the value of a function. -/
inductive Outcome where
  | nothing
  | scope (i : ScopeId)
  | object (type : String)
  | value (v : Value)
  deriving Inhabited

/-- The type of what a script gets from a call, in messages. -/
def Outcome.typeName (scopes : Array Scope) : Outcome → String
  | nothing => "NoneType"
  | object type => type
  | value v => v.typeName
  | scope i => if (scopes[i]?.bind (·.required)).isSome then "Block" else "Handle"

/-- What a script gets from a call, as a value that it can hand on under the name that it is kept
under. -/
def Outcome.toValue (l : Script.Language) (scopes : Array Scope) (name : String) : Outcome → Value
  | nothing => .null
  | value v => v
  | result => .object (l.object (result.typeName scopes) name)

/-- The state of one running script. -/
structure Frame where
  path : String
  document : DocumentId
  /-- The open blocks with their marks, the innermost one first. -/
  stack : List (Nat × Body) := [(0, .script)]
  scopes : Array Scope := #[]
  /-- The scopes that still must be opened. -/
  pending : List ScopeId := []
  /-- The results that are kept under names. -/
  kept : List (String × Outcome) := []
  /-- The mark of the next block. -/
  nextMark : Nat := 1

/-- The session together with the state of one running script. -/
structure Running where
  session : Session
  frame : Frame

/-- Steps of a script. -/
abbrev ScriptM := ExceptT Failure (StateM Running)

namespace ScriptM

/-- A step of the session as a step of a script. -/
def lift {α : Type} (step : SessionM α) : ScriptM α := fun running =>
  let (result, session) := step running.session
  (result, { running with session })

instance : MonadLift SessionM ScriptM := ⟨lift⟩

/-- The state of the script. -/
def frame : ScriptM Frame := return (← getThe Running).frame

/-- Changes the state of the script. -/
def modifyFrame (f : Frame → Frame) : ScriptM Unit :=
  modifyThe Running fun running => { running with frame := f running.frame }

/-- The document of the script. -/
def document : ScriptM DocumentId := return (← frame).document

/-- A step whose failure is handed on as a value. -/
def observe {α : Type} (step : ScriptM α) : ScriptM (Except Failure α) :=
  tryCatch (Except.ok <$> step) fun failure => pure (.error failure)

/-! ## Blocks -/

/-- Puts down a result that can be opened as a block. -/
def newScope (s : Scope) : ScriptM Outcome := do
  let i := (← frame).scopes.size
  modifyFrame fun f => {
    f with
    scopes := f.scopes.push s
    pending := if s.required.isSome then f.pending ++ [i] else f.pending }
  return .scope i

/-- What the attributes of a `modifySql` element say that its visitors apply to. -/
def visitorFilter (document : DocumentId) (a : Attributes) : SessionM VisitorFilter := do
  let databases ← SessionM.ofMishap (← SessionM.expand document (a.get "dbms")).databases
  let contexts ←
    if a.context.isTruthy then do
      let v ← SessionM.expand document a.context
      pure (some (ContextFilter.ofText v.print))
    else pure none
  let labels ←
    if a.given "labels" then do
      let v ← SessionM.expand document (a.get "labels")
      pure (some (Labels.ofText v.print))
    else pure none
  return { databases, contexts, labels, appliesToRollback := a.flag "applyToRollback" false }

/-- The block that a result is opened as. -/
def openBody (document : DocumentId) : Opening → SessionM Body
  | .body body => return body
  | .constraints owner name column => do
    SessionM.modifyColumn column fun c =>
      { c with constraints := some (c.constraints.getD (.fresh Catalog.constraints)) }
    return .column owner name column
  | .visitors owner changeSet a => do
    return .modifySql owner changeSet (← visitorFilter document a)

/-- Opens a result as a block. -/
def enter (i : ScopeId) : ScriptM Unit := do
  modifyFrame fun f => { f with pending := f.pending.erase i }
  let s := (← frame).scopes[i]?.getD default
  let body ← openBody (← document) s.opening
  modifyFrame fun f => {
    f with
    stack := (f.nextMark, body) :: f.stack
    scopes := f.scopes.modify i fun s => { s with mark := some f.nextMark }
    nextMark := f.nextMark + 1 }

/-- Does what remains to be done when a block is left without a failure. -/
def complete (document : DocumentId) : Completion → SessionM Unit
  | .nothing => return ()
  | .appendChangeSet s =>
    SessionM.modifyDocument document fun d => { d with changeSets := d.changeSets ++ [s] }
  | .setPreconditions container =>
    SessionM.modifyDocument document fun d => { d with preconditions := container }
  | .setChangeSetPreconditions s container =>
    SessionM.modifyChangeSet s fun s => { s with preconditions := some container }

/-- Takes the innermost block away, which must be the one that a result was opened as. -/
def pop (i : ScopeId) : ScriptM Body := do
  let f ← frame
  let mark := (f.scopes[i]?).bind (·.mark)
  match f.stack with
  | (top, body) :: rest =>
    if mark == some top then do
      modifyFrame fun f => { f with stack := rest }
      return body
    else throw (.parse (.outOfOrder f.path))
  | [] => throw (.parse (.outOfOrder f.path))

/-- Leaves the block that a result was opened as. A name that stood for nothing in it becomes an
element that does not belong there; other failures go on. -/
def leave (i : ScopeId) (result : Except Failure Unit) : ScriptM Unit := do
  let body ← pop i
  match result with
  | .ok () =>
    let s := (← frame).scopes[i]?.getD default
    complete (← document) s.completion
  | .error (.unbound name) => throw (.parse (.misplaced body.surroundings name))
  | .error failure => throw failure

/-- Runs steps inside a block. -/
def within (i : ScopeId) (steps : ScriptM Unit) : ScriptM Unit := do
  enter i
  leave i (← observe steps)

end ScriptM
end Migration
