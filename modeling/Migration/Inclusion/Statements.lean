import Migration.Compile.ChangeSet
import Migration.Inclusion.Discovery

/-!
# Files of statements

An element that takes all files of a directory as files of statements: each becomes a change set
with the single change that runs the file.

* `sqlChangeSetId` — the identifier of the change set for a file
* `SessionM.includeAllSql` — the element
-/

namespace Migration

/-- The identifier of the change set for a file: its name, without the extension unless that is
kept, between two texts. -/
def sqlChangeSetId (path start ending : String) (keepsExtension : Bool) : String :=
  let name := Path.baseName path
  start ++ (if keepsExtension then name else Path.stem name) ++ ending

namespace SessionM

/-- The attributes that say which files are taken. -/
def discoveryAttributes : List String :=
  ["path", "relativeToChangelogFile", "errorIfMissingOrEmpty", "resourceComparator", "filter",
    "minDepth", "maxDepth", "endsWithFilter"]

/-- The attributes that go to the change sets. -/
def sqlChangeSetAttributes : List String :=
  ["author", "dbms", "runAlways", "runOnChange", "context", "contextFilter", "labels",
    "failOnError", "onValidationFail", "objectQuotingStrategy", "created", "ignore", "runWith",
    "runWithSpoolFile", "logicalFilePath"]

/-- The attributes that go to the changes. -/
def sqlStepAttributes : List String :=
  ["dbms", "encoding", "endDelimiter", "splitStatements", "stripComments"]

/-- The attributes that say what the change sets are called. -/
def sqlIdAttributes : List String := ["idPrefix", "idSuffix", "idKeepsExtension"]

/-- All attributes of the element. -/
def includeAllSqlAttributes : List String :=
  discoveryAttributes ++ sqlChangeSetAttributes ++ sqlStepAttributes ++
    "relativeToChangeLogFile" :: sqlIdAttributes

/-- A text that an attribute gives; empty if it gives none. -/
def textOrEmpty (document : DocumentId) (v : Value) : SessionM String := do
  let v ← expand document v
  return if v.isTruthy then v.print else ""

/-- The change set for one file. It is put into the store, not yet into the document. -/
def newStatements (document : DocumentId) (a : Attributes) (id path : String) :
    SessionM ChangeSetId := do
  let s ← newChangeSet document (("id", .text id) :: a.only sqlChangeSetAttributes)
  let record ← fill document (changeSetOwner (.text id)) (.change "sqlFile")
    (.fresh Catalog.sqlFile) (a.only sqlStepAttributes)
  let record := (record.set "path" (.text path)).set "relative_to_changelog_file" (.bool false)
  let change ← addChange { record, hasResources := true }
  addChangeSet { s with changes := s.changes ++ [change] }

/-- Adds the change set for one file. -/
def includeStatements (document : DocumentId) (a : Attributes) (id path : String) :
    SessionM Unit := do
  let i ← newStatements document a id path
  modifyDocument document fun d => { d with changeSets := d.changeSets ++ [i] }

/-- Adds the change sets for files, one after the other. -/
def includeStatementFiles (document : DocumentId) (a : Attributes) (id : String → String) :
    List String → SessionM Unit
  | [] => return ()
  | path :: rest => do
    includeStatements document a (id path) path
    includeStatementFiles document a id rest

/-- What the element names: the files, and what the change set for each is called. -/
def readIncludeAllSql (e : Engine) (document : DocumentId) (a : Attributes) :
    SessionM (List String × (String → String)) := do
  ofCheck (a.validate documentOwner "includeAllSql" includeAllSqlAttributes)
  let paths ← discover e document (a.only discoveryAttributes) "includeAllSql"
  if paths.isEmpty then return ([], id)
  let start ← textOrEmpty document (a.get "idPrefix")
  let ending ← textOrEmpty document (a.get "idSuffix")
  let keeps := a.flag "idKeepsExtension" false
  return (paths, (sqlChangeSetId · start ending keeps))

/-- Adds a change set for each file of a directory. -/
def includeAllSql (e : Engine) (document : DocumentId) (a : Attributes) : SessionM Unit := do
  let (paths, id) ← readIncludeAllSql e document a
  includeStatementFiles document a id paths

end SessionM
end Migration
