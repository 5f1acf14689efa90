import Migration.Value

/-!
# Scripts

A change log is a script: elements are called one after the other, many of them as blocks with more
elements inside. Scripts can also keep what an element returns for later, raise failures and
swallow them.

* `Script.Expr` — what attributes are given as
* `Script.Node` — a step of a script
* `Script.attributeName` — the name of an attribute behind its spelling in a script
-/

namespace Migration.Script

/-- What an attribute is given as. -/
inductive Expr where
  | literal (v : Value)
  /-- A name that the script has not defined: a kept result or a parameter. -/
  | name (n : String)
  | list (items : List Expr)
  | map (entries : List (Expr × Expr))
  deriving Inhabited

/-- A call of an element: its arguments by position, and its attributes. -/
structure Call where
  element : String
  positional : List Expr := []
  attributes : List (String × Expr) := []
  deriving Inhabited

/-- A step of a script. -/
inductive Node where
  /-- An element by itself. -/
  | call (call : Call)
  /-- An element whose result is kept under a name. -/
  | keep (name : String) (call : Call)
  /-- An element with a block. -/
  | block (call : Call) (body : List Node)
  /-- A kept result with a block. -/
  | reopen (name : String) (body : List Node)
  /-- A kept result is opened and stays open. -/
  | enter (name : String)
  /-- A kept result is closed. -/
  | exit (name : String)
  /-- A failure of some kind. -/
  | raise (kind text : String)
  /-- Steps whose failures are swallowed, of whatever kind they are, exits as well. -/
  | attempt (body : List Node)
  deriving Inhabited

/-- Words that scripts cannot use as attribute names. -/
def reserved : List String :=
  ["False", "None", "True", "and", "as", "assert", "async", "await", "break", "class", "continue",
    "def", "del", "elif", "else", "except", "finally", "for", "from", "global", "if", "import",
    "in", "is", "lambda", "nonlocal", "not", "or", "pass", "raise", "return", "try", "while",
    "with", "yield"]

/-- The attribute behind a spelling: a reserved word is written with an underscore at its end. -/
def attributeName (spelling : String) : String :=
  match spelling.toList.reverse with
  | '_' :: rest =>
    let word := String.ofList rest.reverse
    if reserved.contains word then word else spelling
  | _ => spelling

end Migration.Script
