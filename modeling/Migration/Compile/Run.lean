import Migration.Compile.Perform
import Migration.Value.Equality

/-!
# Running scripts and compiling files

A script is run step by step; what it includes is compiled before the next step. A script that is
included is run with one more script open, so the depth limit bounds how deep includes go.

* `ScriptM.runNodes` — the steps of a script
* `SessionM.compileScript` — a script as a document
* `Engine.compile` — the document that a change log compiles into
-/

namespace Migration

namespace ScriptM

open Script

/-! ## Names and arguments -/

/-- What a name in a script stands for. -/
inductive Binding where
  | kept (result : Outcome)
  | element
  | builtin (b : Builtin)
  | value (v : Value)
  | nothing

/-- The names that a script at a path starts with, beside the elements. -/
def globals (l : Language) (path : String) : List (String × Value) :=
  [("__builtins__", .object (l.object "ScriptBuiltins" "__builtins__")),
    ("__name__", .text "__changelog__"), ("__file__", .text path)]

/-- The names among these. -/
def globalNames : List String := (globals .least "").map (·.1)

/-- What a name stands for before parameters are asked: a kept result, a name that the script starts
with, an element, or a name of the language. -/
def defined? (e : Engine) (f : Frame) (name : String) : Option Binding :=
  match f.kept.lookup name with
  | some result => some (.kept result)
  | none =>
    match (globals e.language f.path).lookup name with
    | some v => some (.value v)
    | none =>
      if Vocabulary.contains e.changes e.preconditions name then some .element
      else (e.language.builtin? name).map .builtin

/-- What a name stands for: what it is defined as, or a parameter that applies. -/
def resolve (e : Engine) (name : String) : ScriptM Binding := do
  let running ← getThe Running
  match defined? e running.frame name with
  | some binding => return binding
  | none =>
    match running.session.table.find? name (some running.frame.document) with
    | .error m => throw (.mishap (.malformedFilter m))
    | .ok none => return .nothing
    | .ok (some p) => return .value p.value

/-- The type of elements in messages. -/
def elementType : String := "_Element"

/-- The value that a name gives to an attribute. -/
def valueOf (e : Engine) (name : String) : ScriptM Value := do
  match ← resolve e name with
  | .value v => return v
  | .builtin b => return b.value
  | .kept result => return result.toValue e.language (← frame).scopes name
  | .element => return .object { type := elementType, text := s!"<change log element {name}>" }
  | .nothing => throw (.unbound name)

/-- The entries of a map with one more; a key that is there already keeps its place. -/
def putEntry (entries : List (Value × Value)) (entry : Value × Value) :
    Except Mishap (List (Value × Value)) :=
  let (key, v) := entry
  if !key.isKey then throw (.unhashable key.typeName)
  else if entries.any (·.1.equals key) then
    return entries.map fun (k, old) => if k.equals key then (k, v) else (k, old)
  else return entries ++ [(key, v)]

mutual

/-- The value of an expression. -/
def eval (e : Engine) : Expr → ScriptM Value
  | .literal v => return v
  | .name n => valueOf e n
  | .list items => return .list (← evalItems e items)
  | .map entries => do
    let entries ← evalEntries e entries
    return .map (← SessionM.ofMishap (entries.foldlM putEntry []))

/-- The values of expressions, in order. -/
def evalItems (e : Engine) : List Expr → ScriptM (List Value)
  | [] => return []
  | x :: rest => do
    let v ← eval e x
    let more ← evalItems e rest
    return v :: more

/-- The entries of a map, in order. -/
def evalEntries (e : Engine) : List (Expr × Expr) → ScriptM (List (Value × Value))
  | [] => return []
  | entry :: rest => do
    let entry ← evalEntry e entry
    let more ← evalEntries e rest
    return entry :: more

/-- The key and the value of an entry. -/
def evalEntry (e : Engine) : Expr × Expr → ScriptM (Value × Value)
  | (key, x) => do
    let key ← eval e key
    let v ← eval e x
    return (key, v)

end

/-- The values of attributes, in order. -/
def evalAttributes (e : Engine) : List (String × Expr) → ScriptM (List (String × Value))
  | [] => return []
  | (name, x) :: rest => do
    let v ← eval e x
    let more ← evalAttributes e rest
    return (name, v) :: more

/-! ## Calls -/

/-- The innermost open block. -/
def innermost : ScriptM Body := do
  match (← frame).stack with
  | (_, body) :: _ => return body
  | [] => return .script

/-- An element with arguments that fit it. -/
structure Application where
  element : Element
  positional : List Value
  attributes : Attributes

/-- The argument that stands for an element itself when it is called. -/
def receiver : String := "self"

/-- The element that the innermost open block takes a name for, with its arguments. -/
def dispatch (e : Engine) (name : String) (positional : List Value) (attributes : Attributes) :
    ScriptM Application := do
  if attributes.has receiver then
    throw (.mishap (.argumentTwice (elementType ++ ".__call__") receiver))
  let body ← innermost
  match body.element? e name with
  | none => throw (.parse (.misplaced body.surroundings name))
  | some element =>
    match element.signature.check positional attributes with
    | .error problem => throw (.parse (.invalidArguments body.owner name problem))
    | .ok () => return { element, positional, attributes }

/-- What a call applies. The name is looked up first, then the arguments are evaluated in order. -/
def prepare (e : Engine) (c : Call) : ScriptM Application := do
  let binding ← resolve e c.element
  match binding with
  | .nothing => throw (.unbound c.element)
  | _ =>
    let positional ← evalItems e c.positional
    let attributes ← evalAttributes e c.attributes
    match binding with
    | .value v => throw (.mishap (.notCallable v.typeName))
    | .builtin b => throw (.mishap (.notCallable b.value.typeName))
    | .kept result => throw (.mishap (.notCallable (result.typeName (← frame).scopes)))
    | _ => dispatch e c.element positional (.ofSpellings attributes)

/-- Calls an element. -/
def callElement (e : Engine) (compiler : Compiler) (c : Call) : ScriptM Outcome := do
  let x ← prepare e c
  perform e compiler (← document) x.element x.positional x.attributes

/-- The function of the language that a name stands for, if it stands for one. -/
def function? (e : Engine) (f : Frame) (name : String) : Option Builtin.Function :=
  match defined? e f name with
  | some (.builtin b) => b.call?
  | _ => none

/-- Calls a function of the language. -/
def callFunction (e : Engine) (f : Builtin.Function) (c : Call) : ScriptM Outcome := do
  let positional ← evalItems e c.positional
  let attributes ← evalAttributes e c.attributes
  match f positional attributes with
  | .ok v => return .value v
  | .error x => throw (.ofException x)

/-- Calls a function of the language, or else an element. -/
def call (e : Engine) (compiler : Compiler) (c : Call) : ScriptM Outcome := do
  match function? e (← frame) c.element with
  | some f => callFunction e f c
  | none => callElement e compiler c

/-- The scope that a name was kept for. -/
def keptScope (e : Engine) (name : String) (mishap : String → Mishap) : ScriptM ScopeId := do
  match ← resolve e name with
  | .kept (.scope i) => return i
  | .kept result => throw (.mishap (mishap (result.typeName (← frame).scopes)))
  | .value v => throw (.mishap (mishap v.typeName))
  | .builtin b => throw (.mishap (mishap b.value.typeName))
  | .element => throw (.mishap (mishap elementType))
  | .nothing => throw (.unbound name)

/-! ## Steps -/

mutual

/-- Runs a step. -/
def runNode (e : Engine) (compiler : Compiler) : Node → ScriptM Unit
  | .call c => do
    let _ ← call e compiler c
  | .keep name c => do
    let result ← call e compiler c
    modifyFrame fun f => { f with kept := (name, result) :: f.kept }
  | .block c body => do
    match ← call e compiler c with
    | .scope i => within i (runNodes e compiler body)
    | result => throw (.mishap (.notABlock (result.typeName #[])))
  | .reopen name body => do
    let i ← keptScope e name .notABlock
    within i (runNodes e compiler body)
  | .enter name => do enter (← keptScope e name (.noMember · "__enter__"))
  | .exit name => do leave (← keptScope e name (.noMember · "__exit__")) (.ok ())
  | .raise kind text => throw (.ofException { kind, text })
  | .attempt body => do
    let _ ← observe (runNodes e compiler body)

/-- Runs steps one after the other. -/
def runNodes (e : Engine) (compiler : Compiler) : List Node → ScriptM Unit
  | [] => return ()
  | node :: rest => do
    runNode e compiler node
    runNodes e compiler rest

end

/-- Refuses a script that leaves elements without the block they need. -/
def checkPending : ScriptM Unit := do
  let f ← frame
  let elements := f.pending.filterMap fun i => f.scopes[i]?.bind (·.required)
  if !elements.isEmpty then throw (.parse (.notOpened f.path elements))

end ScriptM

/-- The state in which the script at a path starts for a document. -/
def Running.start (path : String) (document : DocumentId) (session : Session) : Running :=
  { session, frame := { path, document } }

/-- A failure as it leaves the script at a path. Failures for the host go on, and so do exits. -/
def Failure.leaving (path : String) : Failure → Failure
  | unbound name => .parse (.misplaced .script name)
  | mishap m => .parse (.crashed path m)
  | failure => failure

namespace SessionM

/-- Runs a script from where it starts. -/
def runScript (e : Engine) (compiler : Compiler) (path : String) (document : DocumentId)
    (nodes : List Script.Node) : SessionM Unit := fun session =>
  let (result, running) := ScriptM.runNodes e compiler nodes (.start path document session)
  match result with
  | .ok () =>
    let (result, running) := ScriptM.checkPending running
    (result, running.session)
  | .error failure => (.error (failure.leaving path), running.session)

/-- The steps of a text that has been read as a script at a path. -/
def ofReading (path : String) : Script.Reading → SessionM (List Script.Node)
  | .steps nodes => return nodes
  | .invalid fault => reject (.invalidSyntax path fault)
  | .abandoned x => throw (.ofException x)

/-- The steps of a script in a file. A file without bytes has none in any encoding; other bytes are
decoded and then read by the language. -/
def scriptOf (e : Engine) (path : String) (file : SourceFile) : SessionM (List Script.Node) := do
  match file with
  | .bytes [] => return []
  | .bytes bytes =>
    match (← ofMishap e.encoding).decode bytes with
    | .error fault => reject (.undecodable path fault)
    | .ok text => ofReading path (e.language.read text)
  | .script nodes =>
    let _ ← ofMishap e.encoding
    return nodes
  | .broken =>
    let _ ← ofMishap e.encoding
    reject (.invalidSyntax path .unknown)

/-- Runs steps while a script is open. -/
def inChain {α : Type} (path : String) (steps : SessionM α) : SessionM α := do
  modify fun s => { s with chain := s.chain ++ [path] }
  let result ← observe steps
  modify fun s => { s with chain := s.chain.dropLast }
  match result with
  | .ok a => return a
  | .error failure => throw failure

/-- A script that is about to run: its path, its steps, and the document that they build. -/
structure Opened where
  path : String
  nodes : List Script.Node
  document : DocumentId

/-- Reads a script and puts down the document for it. -/
def openScript (e : Engine) (r : Request) : SessionM Opened := do
  let path ← ofResource (e.sources.resolve none r.path)
  let file ← ofResource (e.sources.read none path)
  let nodes ← scriptOf e path file
  match r.logicalPath.textOrNull? with
  | none => throw (.mishap (.invalidRecord "DatabaseChangeLog" ["logical_file_path"]))
  | some logicalPath =>
    let document ← newDocument { r with path } logicalPath
    return { path, nodes, document }

/-- The document that a script compiles into, given how the scripts it includes are compiled. -/
def compileWithin (e : Engine) (compiler : Compiler) (r : Request) : SessionM DocumentId := do
  let o ← openScript e r
  inChain o.path (runScript e compiler o.path o.document o.nodes)
  return o.document

/-- The document that a script compiles into when `depth` more scripts may be open inside it. -/
def compileScript (e : Engine) : (depth : Nat) → Request → SessionM DocumentId
  | 0, r => compileWithin e none r
  | depth + 1, r => compileWithin e (some (compileScript e depth)) r

/-- The document that a first script compiles into. -/
def compileRoot (e : Engine) (path : String) : SessionM DocumentId :=
  compileScript e (e.settings.maxIncludeDepth - 1) { path }

/-- The document that a change log compiles into by the parser that takes it. -/
def compileChangeLog (e : Engine) (path : String) : SessionM DocumentId := do
  match e.parser? path with
  | none => reject (.noParser false path)
  | some (.host _ parse) => hostDocument parse { path }
  | some (.script _) => compileRoot e path

end SessionM

/-- The outcome of a compile: the document, or why there is none; and the session as it was left. -/
structure Compilation where
  result : Except Failure DocumentId
  session : Session

namespace Compilation

/-- The document, as it is under construction. -/
def document? (c : Compilation) : Option DraftDocument :=
  match c.result with
  | .ok i => c.session.store.documents.get? i
  | .error _ => none

/-- Where the first change set with a name stands in the document. -/
def find? (c : Compilation) (path author id : Value) : Option Nat := do
  let d ← c.document?
  let i ← c.session.store.findIn? d path author id
  d.changeSets.idxOf? i

/-- A value with its placeholders replaced by the parameters that apply inside the document. -/
def expand (c : Compilation) (v : Value) : Except Filter.Malformed Value :=
  match c.result, c.document? with
  | .ok i, some d =>
    if d.knowsParameters then c.session.table.expandValue v (some i) else return v
  | _, _ => return v

/-- The document with everything in place, or why there is none. -/
def complete (c : Compilation) : Except Failure CompleteDocument := do
  let i ← c.result
  return (c.session.store.complete i).getD
    { physicalPath := "", preconditions := .node default [] }

end Compilation

/-- Compiles a change log with a table of parameters. -/
def Engine.compile (e : Engine) (table : Table) (path : String) : Compilation :=
  let (result, session) := SessionM.compileChangeLog e path { table }
  { result, session }

/-- Compiles a script, whatever its path is. -/
def Engine.compileScript (e : Engine) (table : Table) (path : String) : Compilation :=
  let (result, session) := SessionM.compileRoot e path { table }
  { result, session }

end Migration
