import Migration.CommandLine.Command
import Migration.Compile.Run
import Migration.Json.Printer
import Migration.Log.Level
import Migration.Summary

/-!
# Running commands

A command is run on the files under its root directory. What a program reads goes to the output,
everything else to the messages; the exit code tells the family of a failure.

* `Command.run` — the exit code, the output and the messages of a command
-/

namespace Migration.CommandLine

/-- How a program ends. -/
inductive Ending where
  | success
  /-- A change log does not compile. -/
  | noDocument
  /-- The words make no command. -/
  | misused
  /-- A resource is missing. -/
  | noResource
  /-- An extension cannot be found. -/
  | noExtension
  deriving DecidableEq, Repr

/-- The exit code of an ending. -/
def Ending.code : Ending → Nat
  | success => 0
  | noDocument => 1
  | misused => 2
  | noResource => 3
  | noExtension => 4

/-- What a command leaves behind. -/
structure Report where
  ending : Ending
  output : String := ""
  messages : List String := []
  deriving DecidableEq, Repr

/-- The report of words that make no command. -/
def Report.ofUsageFault (fault : UsageFault) : Report :=
  { ending := .misused, messages := [fault.message] }

/-- The report of a failure to compile. -/
def Report.ofFailure (failure : Failure) : Report :=
  match failure with
  | .resource e => { ending := .noResource, messages := ["Missing resource: " ++ e.message] }
  | .extension e => { ending := .noExtension, messages := ["Extension error: " ++ e.message] }
  | .exit _ text => { ending := .noDocument, messages := [text] }
  | failure => { ending := .noDocument, messages := ["Compile failed: " ++ failure.message] }

/-- A report with JSON as output. -/
def Report.ofJson (j : Json) : Report :=
  { ending := .success, output := j.printIndented .ascii ++ "\n" }

/-- What the program understands. -/
def usage : String := String.join [
  "Usage: changelog [--verbose] COMMAND\n\n",
  "Compiles database change-log scripts into migration documents.\n\n",
  "Commands:\n",
  "  compile CHANGE_LOG  compiles a change log and everything it includes\n",
  "    -r, --root DIRECTORY   the directory that paths are relative to\n",
  "    -d, --database NAME    the target database\n",
  "    --contexts NAMES       the contexts of the run\n",
  "    --labels EXPRESSION    the label expression of the run\n",
  "    -p, --param NAME=VALUE a parameter, repeatable\n",
  "    --json                 writes a summary in JSON\n",
  "  elements            lists the elements that scripts may use\n",
  "    --json                 writes the names in JSON\n"]

/-- The elements that scripts may use. -/
def elementNames : Json :=
  .object [("changes", .texts (Registry.defaults .change).names),
    ("preconditions", .texts (Registry.defaults .precondition).names)]

/-- The table of parameters that a request asks for. -/
def CompileRequest.table (r : CompileRequest) (parameters : List (String × String)) : Table :=
  parameters.foldl (fun t (name, value) => t.set (.ofText name value))
    (.ofRun r.database (r.contexts.map Table.contextsOfText) r.labels)

/-- Compiles what a request asks for. -/
def CompileRequest.run (r : CompileRequest) (settings : Settings) (extensions : Extensions)
    (language : Script.Language) (verbose : Bool) (sources : Sources) : Report :=
  match parametersOf r.parameters with
  | .error fault => .ofUsageFault fault
  | .ok parameters =>
    let engine : Engine := {
      settings, sources, parsers := Parsers.add {} "script" (.script settings.scriptSuffix)
      changes := .defaults .change, preconditions := .defaults .precondition, extensions, language }
    let c := engine.compile (r.table parameters) r.changeLog
    let setup := Log.Setup.ofSettings settings verbose
    let warnings :=
      if setup.level ≤ Log.warningLevel then c.session.warnings.map (·.message) else []
    let report : Report := match c.complete with
      | .error failure => .ofFailure failure
      | .ok d =>
        if r.json then .ofJson (documentSummary d)
        else { ending := .success, messages :=
          [d.physicalPath ++ ": " ++ Integer.print d.changeSets.length ++ " change sets"] }
    { report with messages := warnings ++ report.messages }

/-- The root directory that a command reads. -/
def Command.root? : Command → Option String
  | compile r => some r.root
  | _ => none

/-- Runs a command on the files under its root directory, which may be missing. -/
def Command.run (c : Command) (settings : Settings) (extensions : Extensions)
    (language : Script.Language) (verbose : Bool) (sources : Option Sources) : Report :=
  match c with
  | .help => { ending := .success, output := usage }
  | .elements true => .ofJson elementNames
  | .elements false =>
    { ending := .success, messages := (Registry.defaults .change).names ++
        (Registry.defaults .precondition).names }
  | .compile r =>
    match sources with
    | none => .ofUsageFault (.noDirectory r.root)
    | some sources => r.run settings extensions language verbose sources

/-- Runs a program with the given words. `directory?` gives the files under a directory. -/
def run (words : List String) (settings : Settings) (extensions : Extensions)
    (language : Script.Language) (directory? : String → Option Sources) : Report :=
  match Invocation.ofWords words with
  | .error fault => .ofUsageFault fault
  | .ok i => i.command.run settings extensions language i.verbose (i.command.root?.bind directory?)

end Migration.CommandLine
