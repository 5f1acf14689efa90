import Migration.Compile.Element
import Migration.Inclusion.Statements

/-!
# What elements do

Each element reads its attributes and changes the document under construction; some return a block
for more elements. An element that fails has attached nothing.

* `SessionM.act` — what an element does to the session
* `ScriptM.perform` — an element with its arguments
-/

namespace Migration.SessionM

open Text

/-! ## Elements of a document -/

/-- The attributes of a document. -/
def changeLogAttributes : List String :=
  ["logicalFilePath", "context", "contextFilter", "objectQuotingStrategy"]

/-- Sets the logical path of a document, if one is given. One that an include has given stays. -/
def setLogicalPath (document : DocumentId) (a : Attributes) : SessionM Unit := do
  let d ← SessionM.document document
  if a.given "logicalFilePath" && (d.logicalPath.getD "").isEmpty then
    let v ← expand document (a.get "logicalFilePath")
    modifyDocument document fun d => { d with logicalPath := some v.print }

/-- Sets the context filter of a document, if one is given. -/
def setContexts (document : DocumentId) (a : Attributes) : SessionM Unit := do
  if let some contexts ← contextFilter document a then
    modifyDocument document fun d => { d with contexts := some contexts }

/-- Sets the quoting strategy of a document, if one is given. -/
def setQuotingStrategy (document : DocumentId) (a : Attributes) : SessionM Unit := do
  if a.given "objectQuotingStrategy" then
    let v ← expand document (a.get "objectQuotingStrategy")
    let c ← choice .quotingStrategy v (.unknownQuotingStrategy documentOwner false)
    modifyDocument document fun d => { d with quotingStrategy := some c }

/-- Reads the attributes of a document. -/
def changeLog (document : DocumentId) (a : Attributes) : SessionM Unit := do
  ofCheck (a.validate documentOwner "databaseChangeLog" changeLogAttributes)
  setLogicalPath document a
  setContexts document a
  setQuotingStrategy document a

/-- The entries of a properties file. A missing file is an error unless it is tolerated. -/
def propertiesOf (e : Engine) (document : DocumentId) (a : Attributes) :
    SessionM (List (String × Value)) := do
  let path ← expandPath document (a.get "file") "file" "property"
  let relativeTo ← startingPath document (a.flag "relativeToChangelogFile" false)
  match e.sources.read relativeTo path with
  | .error error =>
    if error.family != .notFound || a.flag "errorIfMissing" true then throw (.resource error)
    warn (.noPropertiesFile path)
    return []
  | .ok file =>
    match Properties.parse (← ofMishap (e.text file)) with
    | .ok entries => return entries.map fun (key, value) => (key, .text value)
    | .error problem => reject (.unreadableProperties documentOwner path problem)

/-- The attributes of a property. -/
def propertyAttributes : List String :=
  ["name", "value", "context", "contextFilter", "labels", "dbms", "global", "file",
    "relativeToChangelogFile", "errorIfMissing"]

/-- Writes parameters one after the other. -/
def setParameters (where_ : Parameter.Declaration) : List (String × Value) → SessionM Unit
  | [] => return ()
  | (key, value) :: rest => do
    let p ← ofMishap (Parameter.ofDeclaration { where_ with name := .text key, value })
    modify fun s => { s with table := s.table.set p }
    setParameters where_ rest

/-- Writes a parameter, or every entry of a properties file. -/
def property (e : Engine) (document : DocumentId) (a : Attributes) : SessionM Unit := do
  ofCheck (a.validate documentOwner "property" propertyAttributes)
  let contexts ← expand document a.context
  let labels ← expand document (a.get "labels")
  let databases ← expand document (a.get "dbms")
  let entries ←
    if a.given "file" then propertiesOf e document a
    else do
      let name ← expand document (a.get "name")
      if !name.isTruthy then reject (.propertyWithoutName documentOwner)
      let value ← expand document (a.get "value")
      pure [(name.print, value)]
  let given := fun (v : Value) => if v.isTruthy then Value.text v.print else .null
  setParameters {
    name := .null, value := .null, databases
    contexts := given contexts, labels := given labels
    isGlobal := .bool (a.flag "global" true), owner := some document } entries

/-- The attributes of a removal. -/
def removalAttributes : List String := ["change", "dbms", "remove"]

/-- What is to be removed from changes; nothing unless the target database is known and meant. -/
def readRemoval (e : Engine) (document : DocumentId) (a : Attributes) :
    SessionM (Option Removal) := do
  ofCheck (a.validate documentOwner "removeChangeSetProperty" removalAttributes)
  let change ← expand document (a.get "change")
  let databases ← ofMishap (← expand document (a.get "dbms")).databases
  let remove ← expand document (a.get "remove")
  match databases with
  | none => reject (.removalWithout documentOwner "dbms")
  | some databases =>
    if !remove.isTruthy then reject (.removalWithout documentOwner "remove")
    if !change.isKey then throw (.mishap (.unhashable change.typeName))
    if !(change.asText?.any e.changes.contains) then
      reject (.removalOfUnknown documentOwner change.print)
    let target := (← get).table.database
    if target.isSome && DatabaseFilter.admits databases target then
      return some { change := change.print, databases, remove := remove.print }
    else return none

/-- Records what is to be removed from changes. -/
def removeProperty (e : Engine) (document : DocumentId) (a : Attributes) : SessionM Unit := do
  match ← readRemoval e document a with
  | some removal =>
    modifyDocument document fun d => { d with removals := d.removals ++ [removal] }
  | none => return ()

/-! ## Elements of a change set -/

/-- The container that the attributes of a `preConditions` element describe. -/
def newContainer (document : DocumentId) (owner : String) (a : Attributes) :
    SessionM PreconditionId := do
  let record ← fill document owner .container (.fresh Catalog.container) a
  addPrecondition { record }

/-- Adds changes to the rollback of a change set. -/
def addRollback (s : ChangeSetId) (changes : List ChangeId) : SessionM Unit :=
  modifyChangeSet s fun s => { s with rollback := s.rollback ++ changes }

/-- Undoes a change set by a statement. -/
def rollbackBySql (document : DocumentId) (s : ChangeSetId) (sql : Value) : SessionM Unit := do
  let v ← expand document sql
  if v.textOrNull?.isNone then throw (.mishap (.invalidRecord "RawSqlChange" ["sql"]))
  let change ← addChange { record := (Record.fresh Catalog.rawSql).set "sql" v }
  addRollback s [change]

/-- The attributes of a rollback. -/
def rollbackAttributes : List String := ["changeSetId", "changeSetAuthor", "changeSetPath"]

/-- Undoes a change set by the changes of an earlier one, which is looked for in the document and
then in the documents that include it. -/
def rollbackByReference (document : DocumentId) (owner : String) (s : ChangeSetId)
    (a : Attributes) : SessionM Unit := do
  ofCheck (a.validate owner "rollback" rollbackAttributes)
  let id ← expand document (a.get "changeSetId")
  if !id.isTruthy then reject (.rollbackWithoutId owner)
  let author ← expand document (a.get "changeSetAuthor")
  let path ← expand document (a.get "changeSetPath")
  let store := (← get).store
  match (store.find? document path author id).bind store.changeSets.get? with
  | none => reject (.rollbackOfUnknown owner path.print id.print author.print)
  | some found => addRollback s found.changes

/-- Adds a change to a change set or to its rollback. -/
def attachChange (s : ChangeSetId) (undoes : Bool) (i : ChangeId) : SessionM Unit :=
  if undoes then addRollback s [i]
  else modifyChangeSet s fun s => { s with changes := s.changes ++ [i] }

/-- Adds a visitor to a change set. -/
def visitor (document : DocumentId) (owner : String) (type : RecordType) (s : ChangeSetId)
    (filter : VisitorFilter) (a : Attributes) : SessionM Unit := do
  let record ← fill document owner (.visitor type.element) (.fresh type) a
  let record := record.set "apply_to_rollback" (.bool filter.appliesToRollback)
  modifyChangeSet s fun s => { s with visitors := s.visitors ++
    [{ record, databases := filter.databases, contexts := filter.contexts,
       labels := filter.labels }] }

/-! ## Elements of a change -/

/-- The change at a place. -/
def change (i : ChangeId) : SessionM DraftChange := do
  return ((← get).store.changes.get? i).getD default

/-- Adds a column to a change. -/
def column (document : DocumentId) (owner name : String) (i : ChangeId) (a : Attributes) :
    SessionM ColumnId := do
  let type := (← change i).record.type
  let record ← fill document owner (.column name) (.fresh (type.columns.getD .plain).type) a
  if type.columns.isNone then reject (.columnsNotAllowed owner name)
  let column ← addColumn { record }
  modifyChange i fun c => { c with columns := c.columns ++ [column] }
  return column

/-- Sets the where clause of a change. -/
def whereClause (document : DocumentId) (owner name : String) (i : ChangeId) (v : Value) :
    SessionM Unit := do
  let record := (← change i).record
  if !record.type.hasProperty "where" then reject (.whereNotAllowed owner name)
  let v ← expand document v
  match record.bind "where" v with
  | .ok record => modifyChange i fun c => { c with record }
  | .error cause => reject (.whereNotAllowed owner name) (some cause)

/-- Adds a parameter to the where clause of a change. -/
def param (document : DocumentId) (owner name : String) (i : ChangeId) (a : Attributes) :
    SessionM Unit := do
  let record ← fill document owner (.whereParam name) (.fresh Catalog.column) a
  if !(← change i).record.type.takesWhereParams then reject (.whereParamsNotAllowed owner name)
  modifyChange i fun c => { c with whereParams := c.whereParams ++ [record] }

/-- Sets constraints of a column one after the other. -/
def constraints (document : DocumentId) (owner name : String) (i : ColumnId) :
    Attributes → SessionM Unit
  | [] => return ()
  | (key, v) :: rest => do
    let v ← expand document v
    let column := ((← get).store.columns.get? i).getD default
    match (column.constraints.getD (.fresh Catalog.constraints)).bind key v with
    | .ok record => modifyColumn i fun c => { c with constraints := some record }
    | .error cause => reject (.invalidAttribute owner key (.constraint name)) (some cause)
    constraints document owner name i rest

/-- Puts a precondition into another one. -/
def nest (parent : PreconditionId) (record : Record) : SessionM PreconditionId := do
  let i ← addPrecondition { record }
  modifyPrecondition parent fun p => { p with nested := p.nested ++ [i] }
  return i

/-! ## All elements -/

/-- The change set of a `changeSet` element. It is put into the store, not yet into the document. -/
def changeSet (document : DocumentId) (a : Attributes) : SessionM Result := do
  let s ← newChangeSet document a
  let i ← addChangeSet s
  return .block "changeSet" (.body (.changeSet (changeSetOwner (Value.ofText? s.id)) i))
    (.appendChangeSet i)

/-- The container of a `preConditions` element, which is put in place when its block is left. -/
def preconditions (document : DocumentId) (owner : String) (changeSet : Option ChangeSetId)
    (a : Attributes) : SessionM Result := do
  let i ← newContainer document owner a
  return .block "preConditions" (.body (.preconditions owner i))
    (match changeSet with
      | none => .setPreconditions i
      | some s => .setChangeSetPreconditions s i)

/-- An element of a change: it takes effect at once and may be opened for its columns. -/
def newChange (document : DocumentId) (owner name : String) (type : RecordType) (s : ChangeSetId)
    (undoes : Bool) (positional : List Value) (a : Attributes) : SessionM Result := do
  let record ← newRecord document owner name (.change name) type positional a
  let i ← addChange { record, hasResources := type.readsResources }
  attachChange s undoes i
  return .handle (.body (.change owner name i))

/-- A rollback: a statement, a reference to a change set, or a block of changes. -/
def rollback (document : DocumentId) (owner : String) (s : ChangeSetId) (positional : List Value)
    (a : Attributes) : SessionM Result := do
  match positional with
  | sql :: more =>
    if !more.isEmpty || !a.isEmpty then reject (.rollbackOfBoth owner)
    rollbackBySql document s sql
    return .nothing
  | [] =>
    if a.isEmpty then return .block "rollback" (.body (.rollback owner s))
    else
      rollbackByReference document owner s a
      return .nothing

/-- Does what an element does to the session with its arguments, which fit it. -/
def act (e : Engine) (compiler : Compiler) (document : DocumentId) (element : Element)
    (positional : List Value) (a : Attributes) : SessionM Result := do
  let argument := element.signature.argument positional a
  match element with
  | .changeLog =>
    changeLog document a
    return .block "databaseChangeLog" (.body .changeLog)
  | .property => property e document a; return .nothing
  | .changeSet => changeSet document a
  | .include => «include» e compiler document a; return .nothing
  | .includeAll => includeAll e compiler document a; return .nothing
  | .includeAllSql => includeAllSql e document a; return .nothing
  | .preconditions owner s => preconditions document owner s a
  | .removeProperty => removeProperty e document a; return .nothing
  | .comment s =>
    let v ← expand document argument
    modifyChangeSet s fun s => { s with comments := v }
    return .nothing
  | .checkSum s =>
    let v ← expand document argument
    modifyChangeSet s fun s => { s with checkSums := s.checkSums ++ [v] }
    return .nothing
  | .rollback owner s => rollback document owner s positional a
  | .modifySql owner s =>
    ofCheck (a.validate owner "modifySql"
      ["dbms", "context", "contextFilter", "labels", "applyToRollback"])
    return .block "modifySql" (.visitors owner s a)
  | .change owner name type s undoes => newChange document owner name type s undoes positional a
  | .column owner name i =>
    let c ← column document owner name i a
    return .handle (.constraints owner name c)
  | .whereClause owner name i => whereClause document owner name i argument; return .nothing
  | .whereParams owner name i => return .block "whereParams" (.body (.whereParams owner name i))
  | .param owner name i =>
    param document owner name i a
    return .object Catalog.column.name
  | .constraints owner name i => constraints document owner name i a; return .nothing
  | .constraint owner name i key =>
    constraints document owner name i [(key, argument)]
    return .nothing
  | .group owner type parent =>
    let i ← nest parent (.fresh type)
    return .handle (.body (.preconditions owner i))
  | .precondition owner name type parent =>
    let record ← newRecord document owner name (.precondition name) type positional a
    let _ ← nest parent record
    return .handle (.body (.leaf owner name))
  | .visitor owner type s filter =>
    visitor document owner type s filter a
    return .object type.name

end Migration.SessionM

namespace Migration.ScriptM

/-- Does what an element does with its arguments, which fit it. -/
def perform (e : Engine) (compiler : Compiler) (document : DocumentId) (element : Element)
    (positional : List Value) (a : Attributes) : ScriptM Outcome := do
  match ← SessionM.act e compiler document element positional a with
  | .nothing => return .nothing
  | .object type => return .object type
  | .scope s => newScope s

end Migration.ScriptM
