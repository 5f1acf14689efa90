/-!
# Failures to find resources

What goes wrong with files and directories. Three families are told apart: something does not exist,
something cannot be reached, and a change log names something that is missing.

* `ResourceError.message` — the message
* `ResourceError.path` — the path that the failure is about
-/

namespace Migration

/-- The families of failures. -/
inductive ResourceError.Family where
  | notFound
  | noAccess
  | missing
  deriving DecidableEq, Repr

/-- A failure to find a resource. -/
inductive ResourceError where
  /-- The path leads out of the root directory. -/
  | outside (path root : String)
  /-- There is no such directory. -/
  | noDirectory (path : String)
  /-- There is no such file. -/
  | noFile (path : String)
  /-- A parser of the host reports that something is missing. -/
  | reported (message path : String)
  /-- An include names a file that does not exist. -/
  | noInclude (owner path : String)
  /-- An element names a directory that does not exist; the path is written as in the script. -/
  | noScan (owner element written path : String)
  /-- An element names a directory in which nothing is left to include. -/
  | emptyScan (owner element written path : String)
  deriving DecidableEq, Repr

namespace ResourceError

/-- The family of a failure. -/
def family : ResourceError → Family
  | outside .. => .noAccess
  | noDirectory _ | noFile _ | reported .. => .notFound
  | noInclude .. | noScan .. | emptyScan .. => .missing

/-- The path that the failure is about. -/
def path : ResourceError → String
  | outside path _ | noDirectory path | noFile path | reported _ path | noInclude _ path
  | noScan _ _ _ path | emptyScan _ _ _ path => path

/-- The message about a failure. -/
def message : ResourceError → String
  | outside path root => s!"Resource '{path}' is outside of {root}"
  | noDirectory path => "Directory not found: " ++ (if path.isEmpty then "/" else path)
  | noFile path => s!"Resource not found: {path}"
  | reported message _ => message
  | noInclude owner path => s!"{owner}: {path} does not exist"
  | noScan owner element written _ =>
    s!"{owner}: Could not find directory for {element} '{written}'"
  | emptyScan owner element written _ =>
    s!"{owner}: Could not find directory or directory was empty for {element} '{written}'"

end ResourceError
end Migration
