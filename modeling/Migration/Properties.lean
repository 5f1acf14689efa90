import Migration.Text.Quoted
import Migration.Text.Split

/-!
# Properties files

A properties file holds one entry a line: a key, `=` or `:`, and a value. Lines that start with `#`
or `;` are comments. A line that is indented deeper than the entry before it continues its value.
Section headers in brackets are allowed: entries under `[DEFAULT]` come first and give way to the
others, and the entries of other sections than `[properties]` are skipped.

* `Properties.parse` — the entries of a file, or the lines that cannot be read
-/

namespace Migration.Properties

open Text

/-- The sections that matter. -/
inductive Section where
  | properties
  | defaults
  | other
  deriving DecidableEq, Repr

/-- An entry while it is being read: its key and the lines of its value, the last one first. -/
abbrev Entry := String × List String

/-- What has been read so far. -/
structure Reader where
  current : Section := .properties
  /-- The key of the entry that may be continued. -/
  key : Option String := none
  /-- How deep the last line that was no continuation was indented. -/
  indent : Nat := 0
  defaults : List Entry := []
  properties : List Entry := []
  /-- The lines that cannot be read, with their numbers, the last one first. -/
  faults : List (Nat × String) := []

namespace Reader

/-- The entries with a value for a key; a key that is there already keeps its place. -/
def assign (entries : List Entry) (key : String) (lines : List String) : List Entry :=
  if entries.any (·.1 == key) then
    entries.map fun (k, old) => if k == key then (k, lines) else (k, old)
  else entries ++ [(key, lines)]

/-- The entries with a line more for a key. -/
def extend (entries : List Entry) (key line : String) : List Entry :=
  entries.map fun (k, lines) => if k == key then (k, line :: lines) else (k, lines)

/-- Changes the entries of the current section. -/
def update (r : Reader) (f : List Entry → List Entry) : Reader :=
  match r.current with
  | .properties => { r with properties := f r.properties }
  | .defaults => { r with defaults := f r.defaults }
  | .other => r

/-- Notes a line that cannot be read. -/
def fault (r : Reader) (number : Nat) (line : String) : Reader :=
  { r with faults := (number, line) :: r.faults }

/-- One more line for the entry that may be continued, if there is one. -/
def continued (r : Reader) (line : String) : Reader :=
  match r.key with
  | some key => r.update (extend · key line)
  | none => r

/-- The name in a section header: what stands between the first and the last bracket. -/
def header? (cs : List Char) : Option String :=
  match cs with
  | '[' :: rest =>
    match rest.reverse.dropWhile (· != ']') with
    | ']' :: name => if name.isEmpty then none else some (String.ofList name.reverse)
    | _ => none
  | _ => none

/-- The section with a name. -/
def sectionOf (name : String) : Section :=
  if name == "properties" then .properties
  else if name == "DEFAULT" then .defaults
  else .other

/-- Whether a character ends a key. -/
def isDelimiter (c : Char) : Bool := c == '=' || c == ':'

/-- Reads a line that starts something: a section or an entry. -/
def start (r : Reader) (number : Nat) (line : String) (cs : List Char) : Reader :=
  match header? cs with
  | some name => { r with current := sectionOf name, key := none }
  | none =>
    match cs.dropWhile (!isDelimiter ·) with
    | [] => r.fault number line
    | _ :: value =>
      let key := String.ofList (trimEnd (cs.takeWhile (!isDelimiter ·)))
      let r := if key.isEmpty then r.fault number line else r
      let r := r.update (assign · key [String.ofList (trimChars value)])
      { r with key := if key.isEmpty then none else some key }

/-- Reads a line with a number. -/
def line (r : Reader) (number : Nat) (line : String) : Reader :=
  let cs := trimChars line.toList
  match cs with
  | [] => r.continued ""
  | c :: _ =>
    if c == '#' || c == ';' then r
    else
      let indent := (line.toList.takeWhile isBlank).length
      if r.key.isSome && r.indent < indent then r.continued (String.ofList cs)
      else { r with indent }.start number line cs

/-- Reads lines, of which the first one has the number. -/
def lines (r : Reader) (number : Nat) : List String → Reader
  | [] => r
  | l :: rest => (r.line number l).lines (number + 1) rest

end Reader

/-- A text cut after its line feeds. -/
def linesOf (s : String) : List String :=
  let parts := splitOn '\n' s.toList
  let ended := parts.dropLast.map fun part => String.ofList (part ++ ['\n'])
  match parts.getLast? with
  | none | some [] => ended
  | some last => ended ++ [String.ofList last]

/-- The value that lines write: the lines without white space at the end. -/
def valueOf (lines : List String) : String := trimRight (join "\n" lines.reverse)

/-- The lines of a file that cannot be read, with their numbers. -/
structure Malformed where
  faults : List (Nat × String)
  deriving DecidableEq, Repr

/-- A number with a blank in front if it has a single digit. -/
def lineNumber (n : Nat) : String :=
  String.ofList (if n < 10 then ' ' :: numeral n else numeral n)

/-- The message about a malformed file. -/
def Malformed.message (m : Malformed) : String :=
  "Source contains parsing errors: '<string>'" ++
    String.join (m.faults.map fun (number, line) =>
      "\n\t[line " ++ lineNumber number ++ "]: " ++ quoted line)

/-- The entries of a file in order. Line numbers start at two. -/
def parse (s : String) : Except Malformed (List (String × String)) :=
  let r := Reader.lines {} 2 (linesOf s)
  if r.faults.isEmpty then
    let all := r.properties.foldl (fun all (key, lines) => Reader.assign all key lines) r.defaults
    return all.map fun (key, lines) => (key, valueOf lines)
  else throw ⟨r.faults.reverse⟩

end Migration.Properties
