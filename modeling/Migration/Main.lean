import Migration.CommandLine.Run
import Migration.Script.Reader

/-!
# The program

Reads the files under the root directory, runs the command, and writes the report. A script is a
file whose name ends as the settings say.
-/

namespace Migration.CommandLine

/-- The files and directories among the entries of a directory and under them, by their paths below
the first directory. -/
partial def entriesUnder (suffix below : String) (entries : Array IO.FS.DirEntry) :
    IO (List (String × Tree.Entry SourceFile)) := do
  let mut found := []
  for entry in entries do
    let path := if below.isEmpty then entry.fileName else below ++ "/" ++ entry.fileName
    if ← entry.path.isDir then
      let inside ← entriesUnder suffix path (← entry.path.readDir)
      found := found ++ (path, .directory) :: inside
    else
      let bytes ← IO.FS.readBinFile entry.path
      let isScript := (Parser.script suffix).supports path
      found := found ++ [(path, .file (.ofBytes isScript bytes.toList))]
  return found

/-- The files under a directory, unless it cannot be read. -/
def readSources (suffix directory : String) : IO (Option Sources) := do
  try
    let root ← IO.FS.realPath directory
    let entries ← entriesUnder suffix "" (← root.readDir)
    let start : Sources := ⟨root.toString, []⟩
    return some (entries.foldl (fun t (path, entry) => t.insert path entry) start)
  catch _ => return none

/-- The environment variables of settings. -/
def environment : IO (List (String × String)) := do
  let mut found := []
  for name in Settings.names do
    let key := (Settings.environmentMark ++ name).toUpper
    if let some value ← IO.getEnv key then found := found ++ [(key, value)]
  return found

/-- Writes a report and gives its exit code. -/
def Report.write (r : Report) : IO UInt32 := do
  IO.print r.output
  for message in r.messages do IO.eprintln message
  return r.ending.code.toUInt32

end Migration.CommandLine

open Migration CommandLine

/-- Runs the command that the words ask for. -/
def main (words : List String) : IO UInt32 := do
  match Settings.load [] (← environment) with
  | .error m =>
    IO.eprintln m.text
    return 1
  | .ok settings =>
    let extensions : Extensions := { allowImports := settings.allowDottedExtensions }
    match Invocation.ofWords words with
    | .error fault => (Report.ofUsageFault fault).write
    | .ok i =>
      let sources ← match i.command.root? with
        | some root => readSources settings.scriptSuffix root
        | none => pure none
      (i.command.run settings extensions .least i.verbose sources).write
