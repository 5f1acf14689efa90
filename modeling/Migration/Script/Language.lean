import Migration.Script.Syntax
import Migration.Text.Blank

/-!
# The language of scripts

What scripts have from the language that they are written in, whatever elements there are. All of it
belongs to the host: how a text is read, which names the language brings along, and how it writes
objects that are no plain values.

* `Script.Reading` — what a text is as a script
* `Script.Builtin` — a name of the language
* `Script.Language` — the language
-/

namespace Migration.Script

/-- What can be raised: its kind and its text. -/
structure Exception where
  kind : String
  text : String
  deriving DecidableEq, Repr

/-- The kinds that end the program rather than tell of an error. -/
def exitKinds : List String := ["BaseException", "GeneratorExit", "KeyboardInterrupt", "SystemExit"]

/-- Why a text is no valid script, and the line where that is seen, if there is one. -/
structure SyntaxFault where
  line : Option Nat
  problem : String
  deriving DecidableEq, Repr

/-- The fault of a text of which nothing else is known. -/
def SyntaxFault.unknown : SyntaxFault := ⟨some 1, "invalid syntax"⟩

/-- What a text is as a script. -/
inductive Reading where
  | steps (nodes : List Node)
  | invalid (fault : SyntaxFault)
  /-- The language gives up, because the text is too complex for it, say. -/
  | abandoned (x : Exception)

/-- What a function of the language makes of arguments by position and by name. It does nothing
else. -/
abbrev Builtin.Function := List Value → List (String × Value) → Except Exception Value

/-- A name that the language gives to every script: its value, and its function if it can be
called. -/
structure Builtin where
  value : Value
  call? : Option Builtin.Function := none

/-- The language of scripts. -/
structure Language where
  read : String → Reading
  builtin? : String → Option Builtin
  /-- The object of a type that a script keeps under a name. -/
  object : (type name : String) → HostObject

/-- The least language: there is nothing to be read but blanks, and there are no names. -/
def Language.least : Language where
  read := fun text => if (Text.trim text).isEmpty then .steps [] else .invalid .unknown
  builtin? := fun _ => none
  object := fun type name => { type, text := s!"<{type} {name}>" }

end Migration.Script
