import Migration.Compile.Attributes

/-!
# Change sets from attributes

What the attributes of a `changeSet` element say about the change set.

* `SessionM.newChangeSet` — a change set without changes
-/

namespace Migration

/-- A change set in messages. -/
def changeSetOwner (id : Value) : String := "ChangeSet '" ++ id.print ++ "'"

/-- The attributes of a change set. -/
def changeSetAttributes : List String :=
  ["id", "author", "dbms", "runAlways", "runOnChange", "context", "contextFilter", "labels",
    "runInTransaction", "failOnError", "onValidationFail", "objectQuotingStrategy",
    "logicalFilePath", "filePath", "created", "runOrder", "ignore", "runWith", "runWithSpoolFile"]

/-- When a change set may be run out of its order. -/
def runOrders : List String := ["first", "last"]

/-- A value that must be text or nothing. -/
def Value.textOrNull? : Value → Option (Option String)
  | null => some none
  | v => v.asText?.map some

namespace SessionM

/-- A choice that an attribute names. -/
def choice (kind : Choice.Kind) (v : Value) (failure : String → ParseFailure) : SessionM Choice :=
  match Choice.ofName? kind v.print with
  | some c => return c
  | none => reject (failure v.print)

/-- The quoting strategy of a change set: its own, or else that of the document. -/
def quotingStrategy (document : DocumentId) (owner : String) (a : Attributes) :
    SessionM (Option Choice) := do
  if a.has "objectQuotingStrategy" then
    let v ← expand document (a.get "objectQuotingStrategy")
    some <$> choice .quotingStrategy v (.unknownQuotingStrategy owner true)
  else return (← SessionM.document document).quotingStrategy

/-- The path of a change set: its own, or else that of the document. -/
def changeSetPath (document : DocumentId) (a : Attributes) : SessionM Value := do
  let mut path := Value.text (← SessionM.document document).filePath
  if a.has "filePath" then path ← expand document (a.get "filePath")
  if a.has "logicalFilePath" then path ← expand document (a.get "logicalFilePath")
  return path

/-- The change set from its checked texts, with the flags that are always set. -/
def changeSetOf (id author path runWith spoolFile : Value) :
    Except Mishap DraftChangeSet :=
  match id.textOrNull?, author.textOrNull?, path.textOrNull?, runWith.textOrNull?,
      spoolFile.textOrNull? with
  | some id, some author, some _, some runWith, some spoolFile =>
    return { id, author, filePath := path, runWith, runWithSpoolFile := spoolFile }
  | id, author, path, runWith, spoolFile =>
    let wrong := fun (name : String) (ok : Bool) => if ok then [] else [name]
    throw (.invalidRecord "ChangeSet"
      (wrong "author" author.isSome ++ wrong "file_path" path.isSome ++ wrong "id" id.isSome ++
        wrong "run_with" runWith.isSome ++ wrong "run_with_spool_file" spoolFile.isSome))

/-- The parts of a change set that are only set if they are given. -/
def optionalParts (document : DocumentId) (owner : String) (a : Attributes) (s : DraftChangeSet) :
    SessionM DraftChangeSet := do
  let mut s := s
  if a.has "failOnError" then s := { s with failOnError := some (a.flag "failOnError" false) }
  if a.given "onValidationFail" then
    let v ← expand document (a.get "onValidationFail")
    let c ← choice .validationFail v (.unknownValidationOption owner)
    s := { s with onValidationFail := some c }
  if a.given "labels" then
    let v ← expand document (a.get "labels")
    s := { s with labels := some (.ofText v.print) }
  if a.given "created" then
    let v ← expand document (a.get "created")
    s := { s with created := some v.print }
  if a.given "runOrder" then
    let v ← expand document (a.get "runOrder")
    let order := Text.lower v.print
    if !runOrders.contains order then reject (.invalidRunOrder owner order)
    s := { s with runOrder := some order }
  if a.given "ignore" then s := { s with ignore := a.flag "ignore" false }
  return s

/-- The change set that attributes describe, without changes. It is not put into the document. -/
def newChangeSet (document : DocumentId) (a : Attributes) : SessionM DraftChangeSet := do
  let owner := changeSetOwner (a.get "id")
  ofCheck (a.validate owner "changeSet" changeSetAttributes)
  let quotingStrategy ← quotingStrategy document owner a
  let path ← changeSetPath document a
  let contexts ← contextFilter document a
  let id ← expand document (a.get "id")
  let author ← expand document (a.get "author")
  let databases ← ofMishap (← expand document (a.get "dbms")).databases
  let runWith ← expand document (a.get "runWith")
  let spoolFile ← expand document (a.get "runWithSpoolFile")
  let s ← ofMishap (changeSetOf id author path runWith spoolFile)
  optionalParts document owner a {
    s with
    contexts, databases, quotingStrategy
    runAlways := a.flag "runAlways" false
    runOnChange := a.flag "runOnChange" false
    runInTransaction := a.flag "runInTransaction" true }

end SessionM
end Migration
