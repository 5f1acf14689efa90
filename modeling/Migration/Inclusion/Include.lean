import Migration.Inclusion.Discovery
import Migration.Inclusion.Merge

/-!
# Includes

One file included into a document, or all files of a directory. Scripts may not include themselves,
not even through others, and only so many scripts may be open at once.

* `SessionM.includeFile` — compiles a file and merges it
* `SessionM.include`, `SessionM.includeAll` — the elements
-/

namespace Migration

/-- A file to compile: its path, the document that includes it, and what the include says. -/
structure Request where
  path : String
  parent : Option DocumentId := none
  inheritance : Inheritance := {}
  logicalPath : Value := .null

/-- How a script is compiled; nothing where no more scripts may be opened. -/
abbrev Compiler := Option (Request → SessionM DocumentId)

namespace SessionM

/-- Puts change sets into the store. -/
def addChangeSets : List DraftChangeSet → SessionM (List ChangeSetId)
  | [] => return []
  | s :: rest => do
    let i ← addChangeSet s
    let more ← addChangeSets rest
    return i :: more

/-- Puts a document without content into the store, with a fresh container for its preconditions. -/
def newDocument (r : Request) (logicalPath : Option String) : SessionM DocumentId := do
  let preconditions ← addPrecondition { record := .fresh Catalog.container }
  addDocument {
    physicalPath := r.path, logicalPath, preconditions
    inheritance := r.inheritance, parent := r.parent }

/-- The document that a parser of the host makes of a file. -/
def hostDocument (parse : String → Except ResourceError (List DraftChangeSet)) (r : Request) :
    SessionM DocumentId := do
  let changeSets ← addChangeSets (← ofResource (parse r.path))
  let document ← newDocument { r with parent := none } none
  modifyDocument document fun d => { d with changeSets, knowsParameters := false }
  return document

/-- What to include, and how. -/
structure Inclusion where
  inheritance : Inheritance
  logicalPath : Value
  /-- Whether the file must exist. -/
  required : Bool := true
  /-- Whether a file that no parser takes is passed over. -/
  skipsUnknown : Bool := false

/-- Refuses to include a file that is being compiled already. -/
def checkChain (path : String) : SessionM Unit := do
  let chain := (← get).chain
  if chain.contains path then throw (.inclusion (.circular (chain ++ [path])))

/-- Refuses to include a file when as many scripts are open as may be. -/
def checkDepth (e : Engine) (path : String) : SessionM Unit := do
  if e.settings.maxIncludeDepth ≤ (← get).chain.length then
    throw (.inclusion (.tooDeep e.settings.maxIncludeDepth path))

/-- The path of a file to include and the parser that takes it; nothing if no parser does and the
file is passed over. -/
def accept (e : Engine) (relativeTo : Option String) (path : String) (skipsUnknown : Bool) :
    SessionM (Option (String × Parser)) := do
  let path ← ofResource (e.sources.resolve relativeTo path)
  match e.parser? path with
  | none =>
    if skipsUnknown then
      warn (.unknownFormat path)
      return none
    else reject (.noParser true path)
  | some parser =>
    checkChain path
    checkDepth e path
    return some (path, parser)

/-- The document that a parser makes of an included file. -/
def compileWith (e : Engine) (compiler : Compiler) (parser : Parser) (r : Request) :
    SessionM DocumentId :=
  match compiler, parser with
  | _, .host _ parse => hostDocument parse r
  | some compile, .script _ => compile r
  | none, .script _ => throw (.inclusion (.tooDeep e.settings.maxIncludeDepth r.path))

/-- Excuses a failed include if it failed because its file is missing and may be missing. -/
def excuse (path : String) (required : Bool) : Failure → SessionM Unit
  | .resource error =>
    if error.family != .notFound || error.path != path then throw (.resource error)
    else if required then throw (.resource (.noInclude documentOwner path))
    else warn (.noInclude path)
  | failure => throw failure

/-- Compiles the file at a path and merges it into a document. The file may be missing if that is
tolerated. -/
def bringIn (document : DocumentId) (path : String) (i : Inclusion)
    (compile : SessionM DocumentId) :
    SessionM Unit := do
  match ← observe compile with
  | .ok child => merge document child i.logicalPath
  | .error failure => excuse path i.required failure

/-- What is asked of the parser of an included file. -/
def Inclusion.request (i : Inclusion) (document : DocumentId) (path : String) : Request :=
  { path, parent := some document, inheritance := i.inheritance, logicalPath := i.logicalPath }

/-- Compiles a file and merges it into a document. -/
def includeFile (e : Engine) (compiler : Compiler) (document : DocumentId)
    (relativeTo : Option String) (path : String) (i : Inclusion) : SessionM Unit := do
  match ← accept e relativeTo path i.skipsUnknown with
  | none => return ()
  | some (path, parser) =>
    bringIn document path i (compileWith e compiler parser (i.request document path))

/-- The attributes of an include. -/
def includeAttributes : List String :=
  ["file", "relativeToChangelogFile", "errorIfMissing", "context", "contextFilter", "labels",
    "ignore", "logicalFilePath"]

/-- What an include says about the change sets it brings in. -/
def inclusionOf (document : DocumentId) (a : Attributes) : SessionM Inclusion := do
  let contexts ← contextFilter document a
  let labels ← labels document a
  let logicalPath ← expand document (a.get "logicalFilePath")
  return { inheritance := { contexts, labels, ignore := a.flag "ignore" false }, logicalPath }

/-- What an include names: where its path starts, the path, and how the file is included. -/
def readInclude (document : DocumentId) (a : Attributes) :
    SessionM (Option String × String × Inclusion) := do
  ofCheck (a.validate documentOwner "include" includeAttributes)
  let path ← expandPath document (a.get "file") "file" "include"
  let relativeTo ← startingPath document (a.flag "relativeToChangelogFile" false)
  let i ← inclusionOf document a
  return (relativeTo, path, { i with required := a.flag "errorIfMissing" true })

/-- Includes one file. -/
def «include» (e : Engine) (compiler : Compiler) (document : DocumentId) (a : Attributes) :
    SessionM Unit := do
  let (relativeTo, path, i) ← readInclude document a
  includeFile e compiler document relativeTo path i

/-- The attributes of an include of a directory. -/
def includeAllAttributes : List String :=
  ["path", "relativeToChangelogFile", "errorIfMissingOrEmpty", "resourceComparator", "filter",
    "context", "contextFilter", "labels", "ignore", "logicalFilePath", "minDepth", "maxDepth",
    "endsWithFilter"]

/-- Includes files one after the other. -/
def includeFiles (e : Engine) (compiler : Compiler) (document : DocumentId) (i : Inclusion) :
    List String → SessionM Unit
  | [] => return ()
  | path :: rest => do
    includeFile e compiler document none path i
    includeFiles e compiler document i rest

/-- What an include of a directory names: the files, and how each is included. -/
def readIncludeAll (e : Engine) (document : DocumentId) (a : Attributes) :
    SessionM (List String × Inclusion) := do
  ofCheck (a.validate documentOwner "includeAll" includeAllAttributes)
  let paths ← discover e document a "includeAll"
  let i ← inclusionOf document a
  return (paths, { i with skipsUnknown := true })

/-- Includes the files of a directory. -/
def includeAll (e : Engine) (compiler : Compiler) (document : DocumentId) (a : Attributes) :
    SessionM Unit := do
  let (paths, i) ← readIncludeAll e document a
  includeFiles e compiler document i paths

end SessionM
end Migration
