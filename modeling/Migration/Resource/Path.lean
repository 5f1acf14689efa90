import Migration.Text.Split

/-!
# Resource paths

Resources are named by paths with slashes, relative to a root directory. Backslashes count as
slashes and leading slashes do not count.

* `Path.normalize` — a path without empty and `.` components, and with `..` resolved where possible
* `Path.baseName`, `Path.stem` — the last component, and the same without its extension
* `Path.parent` — the path without its last component
-/

namespace Migration.Path

open Text

/-- A path as it is written, with slashes for backslashes. -/
def slashed (cs : List Char) : List Char := cs.map fun c => if c == '\\' then '/' else c

/-- A path relative to the root: with slashes only, and none at the start. -/
def relative (cs : List Char) : List Char := (slashed cs).dropWhile (· == '/')

/-- The characters of a path without its last component and the slashes before it. -/
def parent (cs : List Char) : List Char :=
  ((cs.reverse.dropWhile (· != '/')).dropWhile (· == '/')).reverse

/-- Two paths after one another, with a slash between them. -/
def joined (base path : List Char) : List Char :=
  if base.isEmpty then path
  else if base.getLast? == some '/' then base ++ path
  else base ++ '/' :: path

/-- One more component of a normal path, which is given backwards. -/
def step (done : List String) (component : String) : List String :=
  if component == "" || component == "." then done
  else if component == ".." then
    match done with
    | [] => [".."]
    | last :: rest => if last == ".." then ".." :: done else rest
  else component :: done

/-- The components of a path without empty and `.` ones; `..` takes the component before it away. -/
def normalize (cs : List Char) : List String :=
  (((splitOn '/' cs).map String.ofList).foldl step []).reverse

/-- The text of a path with the given components. -/
def ofComponents (components : List String) : String := join "/" components

/-- The components of a normal path. -/
def components (path : String) : List String := normalize path.toList

/-- The last component of a path. -/
def baseName (path : String) : String :=
  String.ofList ((path.toList.reverse.takeWhile (· != '/')).reverse)

/-- A file name without its extension: from the last point on, unless only points stand before. -/
def stem (name : String) : String :=
  let (extension, rest) := name.toList.reverse.span (· != '.')
  match rest with
  | '.' :: before =>
    if before.all (· == '.') then name else String.ofList before.reverse
  | _ => String.ofList (rest.reverse ++ extension.reverse)

end Migration.Path
