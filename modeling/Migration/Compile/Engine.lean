import Migration.Compile.Failure
import Migration.Document.Store
import Migration.Record.Registry
import Migration.Resource.Tree
import Migration.Script.Language
import Migration.Settings

/-!
# Engines

What a compile starts from: the files, the parsers for them, the language of scripts, the elements
that scripts may use, the extensions of the host, and the settings.

* `Parsers` — what compiles a file is chosen by its path
* `Engine` — all of it
-/

namespace Migration

/-- What a file holds: a script, text that is no valid script, or bytes. -/
inductive SourceFile where
  | script (nodes : List Script.Node)
  | broken
  | bytes (bytes : List UInt8)

/-- The files that are compiled and included. -/
abbrev Sources := Tree SourceFile

/-- What compiles a file: the script compiler for paths with a suffix, or a parser of the host,
which gives change sets. -/
inductive Parser where
  | script (suffix : String)
  | host (supports : String → Bool) (parse : String → Except ResourceError (List DraftChangeSet))

/-- Whether a parser takes a path. -/
def Parser.supports (p : Parser) (path : String) : Bool :=
  match p with
  | script suffix => Text.endsWith (Text.lower path) (Text.lower suffix)
  | host supports _ => supports path

/-- Parsers under the names by which they can be taken away; the last one that was added comes
first. -/
structure Parsers where
  entries : List (String × Parser) := []

namespace Parsers

/-- The parsers with one more, which is asked before all others. -/
def add (ps : Parsers) (name : String) (p : Parser) : Parsers := ⟨(name, p) :: ps.entries⟩

/-- The parsers without the first one of a name, if there is one. -/
def remove? (ps : Parsers) (name : String) : Option Parsers :=
  if ps.entries.any (·.1 == name) then some ⟨ps.entries.eraseP (·.1 == name)⟩ else none

/-- The names of the parsers. -/
def names (ps : Parsers) : List String := ps.entries.map (·.1)

/-- The first parser that takes a path, with its name. -/
def find? (ps : Parsers) (path : String) : Option (String × Parser) :=
  ps.entries.find? fun (_, p) => p.supports path

end Parsers

/-- What a compile starts from. -/
structure Engine where
  settings : Settings
  sources : Sources
  parsers : Parsers
  changes : Registry
  preconditions : Registry
  extensions : Extensions
  language : Script.Language := .least

/-- The engine for scripts right under a root, with the settings and the elements that are there by
themselves. -/
def Engine.ofScripts (scripts : List (String × List Script.Node)) : Engine where
  settings := default
  sources := {
    root := "/"
    entries := scripts.map fun s => ([s.1], .file (.script s.2)) }
  parsers := Parsers.add {} "script" (.script ".py")
  changes := .defaults .change
  preconditions := .defaults .precondition
  extensions := {}

/-- The parser for a path. -/
def Engine.parser? (e : Engine) (path : String) : Option Parser :=
  (e.parsers.find? path).map (·.2)

/-- Paths that end as scripts do are taken for scripts. -/
theorem Engine.parser?_ofScripts {scripts : List (String × List Script.Node)} {path : String}
    (h : (Parser.script ".py").supports path = true) :
    (Engine.ofScripts scripts).parser? path = some (.script ".py") := by
  simp [parser?, ofScripts, Parsers.find?, Parsers.add, h]

/-- The encoding of files. -/
def Engine.encoding (e : Engine) : Except Mishap Encoding :=
  match Encoding.ofName? e.settings.scriptEncoding with
  | some encoding => return encoding
  | none => throw (.unknownEncoding e.settings.scriptEncoding)

/-- The text of a file of bytes. What scripts look like as text is not known. -/
def Engine.text (e : Engine) (file : SourceFile) : Except Mishap String := do
  match file with
  | .bytes [] => return ""
  | .bytes bytes =>
    ((← e.encoding).decode bytes).mapError fun fault => .undecodable fault.message
  | .script _ | .broken =>
    let _ ← e.encoding
    return ""

end Migration
