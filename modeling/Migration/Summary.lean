import Migration.Compile.Run
import Migration.Json.Basic

/-!
# Summaries

What is worth knowing about a compiled change log, as JSON: its change sets with their filters and
the elements of their changes, the number of its preconditions, and its removals.

* `documentSummary` — the summary of a document
-/

namespace Migration

namespace Json

/-- A text list. -/
def texts (items : List String) : Json := array (items.map string)

/-- A value in a summary; what JSON does not know is written as text. -/
def ofValue : Value → Json
  | .null => null
  | .bool b => bool b
  | .int n => int n
  | .float x => match Decimal.parse? x.print with
    | some d => number d
    | none => string x.print
  | v => string v.print

/-- A truth value or null. -/
def ofBool? : Option Bool → Json
  | some b => bool b
  | none => null

end Json

/-- The elements of changes. -/
def elementsOf (changes : List CompleteChange) : Json :=
  .texts (changes.map (·.record.type.element))

/-- The summary of a change set. -/
def changeSetSummary (s : CompleteChangeSet) : Json :=
  .object [
    ("id", .ofText? s.id), ("author", .ofText? s.author), ("filePath", .ofValue s.filePath),
    ("contextFilter", .ofText? (s.contexts.map (·.print))),
    ("labels", .ofText? (s.labels.map (·.print))),
    ("dbms", match s.databases with | some names => .texts names | none => .null),
    ("runAlways", .bool s.runAlways), ("runOnChange", .bool s.runOnChange),
    ("runInTransaction", .bool s.runInTransaction), ("failOnError", .ofBool? s.failOnError),
    ("ignore", .bool s.ignore), ("changes", elementsOf s.changes),
    ("rollback", elementsOf s.rollback)]

/-- The summary of a removal. -/
def Removal.summary (r : Removal) : Json :=
  .object [("change", .string r.change), ("dbms", .texts r.databases), ("remove", .string r.remove)]

/-- The summary of a document. -/
def documentSummary (d : CompleteDocument) : Json :=
  .object [
    ("physicalFilePath", .string d.physicalPath), ("logicalFilePath", .ofText? d.logicalPath),
    ("preconditions", .int d.preconditions.nested.length),
    ("changeSets", .array (d.changeSets.map changeSetSummary)),
    ("changeVisitors", .array (d.removals.map (·.summary)))]

end Migration
