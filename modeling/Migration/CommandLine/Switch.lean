import Migration.Text.Split

/-!
# Switches

The words of a command are switches, values of switches, and arguments. A switch has a long name, as
in `--root`, and perhaps a letter, as in `-r`; letters can be written together, and a value stands
in the next word, after a letter, or after an equals sign. After `--` there are only arguments.

* `Words.ofList` — words sorted into switches and arguments
* `UsageFault` — why words make no command
-/

namespace Migration.CommandLine

open Text

/-- A switch of a command. -/
structure Switch where
  /-- The long name without its dashes. -/
  name : String
  letter : Option Char := none
  takesValue : Bool := false
  deriving DecidableEq, Repr

/-- Why words make no command. -/
inductive UsageFault where
  | unknownSwitch (word : String)
  | missingValue (name : String)
  | unwantedValue (name : String)
  | noCommand
  | unknownCommand (word : String)
  | missingArgument (name : String)
  | extraArguments (words : List String)
  | noDirectory (path : String)
  | malformedParameter (item : String)
  deriving DecidableEq, Repr

/-- What is wrong with the words of a command. -/
def UsageFault.message : UsageFault → String
  | unknownSwitch word => s!"No such option: {word}"
  | missingValue name => s!"Option '--{name}' requires an argument."
  | unwantedValue name => s!"Option '--{name}' does not take a value."
  | noCommand => "Missing command."
  | unknownCommand word => s!"No such command '{word}'."
  | missingArgument name => s!"Missing argument '{name}'."
  | extraArguments words => "Got unexpected extra arguments (" ++ join " " words ++ ")"
  | noDirectory path => s!"Invalid value for '--root': {path} is not a directory."
  | malformedParameter item => s!"Invalid --param '{item}': expected name=value"

/-- Words sorted into switches with their values, and arguments. -/
structure Words where
  /-- The long names of the switches, with empty values for those that take none. -/
  settings : List (String × String) := []
  arguments : List String := []
  deriving DecidableEq, Repr

namespace Words

/-- Whether a switch is given. -/
def has (w : Words) (name : String) : Bool := w.settings.any (·.1 == name)

/-- The values that a switch is given, in order. -/
def values (w : Words) (name : String) : List String :=
  w.settings.filterMap fun (n, value) => if n == name then some value else none

/-- The value of a switch; of several the last one counts. -/
def value? (w : Words) (name : String) : Option String := (w.values name).getLast?

/-- The words with some more settings in front. -/
def after (settings : List (String × String)) (w : Words) : Words :=
  { w with settings := settings ++ w.settings }

end Words

/-! ## One word -/

/-- What a word sets, and the switch that is still without its value. -/
structure Effect where
  settings : List (String × String) := []
  pending : Option String := none

/-- The effect of a word with the long name of a switch, and perhaps a value after an equals sign;
none if no switch has the name. -/
def longEffect? (switches : List Switch) (word : String) : Option (Except UsageFault Effect) := do
  let (name, rest) := word.toList.span (· != '=')
  guard (startsWith word "--")
  let s ← switches.find? fun s => s.name.toList == name.drop 2
  return match rest, s.takesValue with
    | [], true => .ok { pending := some s.name }
    | [], false => .ok { settings := [(s.name, "")] }
    | _ :: value, true => .ok { settings := [(s.name, String.ofList value)] }
    | _ :: _, false => .error (.unwantedValue s.name)

/-- The effect of letters; those after a letter that takes a value are its value. -/
def lettersEffect (switches : List Switch) : List Char → Except UsageFault Effect
  | [] => return {}
  | c :: rest =>
    match switches.find? (·.letter == some c) with
    | none => throw (.unknownSwitch (String.ofList ['-', c]))
    | some s =>
      if !s.takesValue then do
        let e ← lettersEffect switches rest
        return { e with settings := (s.name, "") :: e.settings }
      else if rest.isEmpty then return { pending := some s.name }
      else return { settings := [(s.name, String.ofList rest)] }

/-- Whether a word is a switch: a dash with something after it. -/
def isSwitch (word : String) : Bool := startsWith word "-" && word != "-"

/-- The effect of a switch. -/
def effect (switches : List Switch) (word : String) : Except UsageFault Effect :=
  match longEffect? switches word with
  | some e => e
  | none =>
    if startsWith word "--" then
      throw (.unknownSwitch (String.ofList (word.toList.takeWhile (· != '='))))
    else lettersEffect switches (word.toList.drop 1)

/-! ## All words -/

/-- Sorts words. Unless switches and arguments may be mixed, everything after the first argument is
an argument. -/
def Words.ofList (switches : List Switch) (mixed : Bool) : List String → Except UsageFault Words
  | [] => return {}
  | word :: rest =>
    if word == "--" then return { arguments := rest }
    else if isSwitch word then do
      let e ← effect switches word
      match e.pending, rest with
      | none, rest => return (← ofList switches mixed rest).after e.settings
      | some name, value :: rest =>
        return (← ofList switches mixed rest).after (e.settings ++ [(name, value)])
      | some name, [] => throw (.missingValue name)
    else if mixed then do
      let w ← ofList switches mixed rest
      return { w with arguments := word :: w.arguments }
    else return { arguments := word :: rest }

end Migration.CommandLine
