import Migration.CommandLine.Switch
import Migration.Text.Blank

/-!
# Commands

There are two commands: one compiles a change log, the other lists the elements that scripts may
use.

* `Invocation.ofWords` — what the words after the program's name ask for
-/

namespace Migration.CommandLine

/-- What is compiled, and for which run. -/
structure CompileRequest where
  /-- The path of the first script, relative to the root directory. -/
  changeLog : String
  root : String := "."
  database : Option String := none
  contexts : Option String := none
  labels : Option String := none
  /-- Parameters as they are written. -/
  parameters : List String := []
  json : Bool := false
  deriving DecidableEq, Repr

/-- A command. -/
inductive Command where
  | help
  | compile (request : CompileRequest)
  | elements (json : Bool)
  deriving DecidableEq, Repr

/-- A command, and whether everything is to be logged. -/
structure Invocation where
  verbose : Bool
  command : Command
  deriving DecidableEq, Repr

/-- The switch that asks for help. -/
def helpSwitch : Switch := { name := "help" }

/-- The switch that asks for JSON. -/
def jsonSwitch : Switch := { name := "json" }

/-- The switches before the command. -/
def globalSwitches : List Switch := [{ name := "verbose", letter := some 'v' }, helpSwitch]

/-- The switches of the command that compiles. -/
def compileSwitches : List Switch := [
  { name := "root", letter := some 'r', takesValue := true },
  { name := "database", letter := some 'd', takesValue := true },
  { name := "contexts", takesValue := true },
  { name := "labels", takesValue := true },
  { name := "param", letter := some 'p', takesValue := true },
  jsonSwitch, helpSwitch]

/-- The switches of the command that lists elements. -/
def elementsSwitches : List Switch := [jsonSwitch, helpSwitch]

/-- The request that the words of the command make. -/
def CompileRequest.ofWords (w : Words) : Except UsageFault CompileRequest :=
  match w.arguments with
  | [] => throw (.missingArgument "CHANGE_LOG")
  | [changeLog] => return {
      changeLog, root := (w.value? "root").getD ".", database := w.value? "database"
      contexts := w.value? "contexts", labels := w.value? "labels"
      parameters := w.values "param", json := w.has "json" }
  | _ :: more => throw (.extraArguments more)

/-- The command of a name with the words after it. -/
def Command.ofWords (name : String) (rest : List String) : Except UsageFault Command := do
  match name with
  | "compile" =>
    let w ← Words.ofList compileSwitches true rest
    if w.has "help" then return help
    return compile (← CompileRequest.ofWords w)
  | "elements" =>
    let w ← Words.ofList elementsSwitches true rest
    if w.has "help" then return help
    if !w.arguments.isEmpty then throw (.extraArguments w.arguments)
    return elements (w.has "json")
  | _ => throw (.unknownCommand name)

/-- What the words after the program's name ask for. -/
def Invocation.ofWords (words : List String) : Except UsageFault Invocation := do
  let w ← Words.ofList globalSwitches false words
  let verbose := w.has "verbose"
  if w.has "help" then return { verbose, command := .help }
  match w.arguments with
  | [] => throw .noCommand
  | name :: rest => return { verbose, command := ← Command.ofWords name rest }

/-- The parameters that are written as a name, an equals sign and a value. White space around a name
does not count. -/
def parametersOf : List String → Except UsageFault (List (String × String))
  | [] => return []
  | item :: rest => do
    let (name, value) := item.toList.span (· != '=')
    let name := Text.trimChars name
    if name.isEmpty || value.isEmpty then throw (.malformedParameter item)
    let more ← parametersOf rest
    return (String.ofList name, String.ofList (value.drop 1)) :: more

end Migration.CommandLine
