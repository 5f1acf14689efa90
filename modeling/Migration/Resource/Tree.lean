import Migration.Resource.Error
import Migration.Resource.Path
import Migration.Text.Order

/-!
# Resource trees

The files and directories under a root directory. Paths are resolved within the root and can never
lead out of it.

* `Tree.resolve` — the normal form of a path, perhaps relative to the directory of a resource
* `Tree.list` — the files under a directory, in code point order
* `Tree.read` — the content of a file
-/

namespace Migration

/-- What stands at a path: a directory, or a file with its content. -/
inductive Tree.Entry (α : Type) where
  | directory
  | file (content : α)
  deriving Repr

/-- The files and directories under a root, by the components of their paths. Directories above an
entry need no entry of their own. -/
structure Tree (α : Type) where
  /-- The root directory in messages. -/
  root : String
  entries : List (List String × Tree.Entry α)

namespace Tree

variable {α : Type}

/-- The tree with an entry more; it replaces an earlier one at the same path. -/
def insert (t : Tree α) (path : String) (entry : Entry α) : Tree α :=
  let components := Path.components path
  { t with entries := t.entries.filter (·.1 != components) ++ [(components, entry)] }

/-- A path from the root, as it is written. A path that is relative to a resource starts in the
directory of that resource. -/
def fromRoot (relativeTo : Option String) (path : String) : List Char :=
  let path := Path.relative path.toList
  let base := Path.relative (relativeTo.getD "").toList
  if (relativeTo.getD "").isEmpty then path else Path.joined (Path.parent base) path

/-- The normal form of a path, perhaps relative to a resource. -/
def resolve (t : Tree α) (relativeTo : Option String) (path : String) :
    Except ResourceError String :=
  let path := fromRoot relativeTo path
  let components := Path.normalize path
  if components.head? == some ".." then throw (.outside (String.ofList path) t.root)
  else return Path.ofComponents components

/-- The file at a normal path. -/
def file? (t : Tree α) (components : List String) : Option α :=
  match t.entries.lookup components with
  | some (.file content) => some content
  | _ => none

/-- Whether there is a directory at a normal path: the root, an entry, or above an entry. -/
def isDirectory (t : Tree α) (components : List String) : Bool :=
  components.isEmpty || t.entries.any fun (path, entry) =>
    match entry with
    | .directory => components.isPrefixOf path
    | .file _ => components.isPrefixOf path && components != path

/-- The paths of the files under a directory; only those right inside it unless all are asked
for. -/
def filesUnder (t : Tree α) (directory : List String) (recursive : Bool) : List (List String) :=
  t.entries.filterMap fun (path, entry) =>
    match entry with
    | .directory => none
    | .file _ =>
      let inside := directory.isPrefixOf path && directory.length < path.length &&
        (recursive || path.length == directory.length + 1)
      if inside then some path else none

/-- The files under a directory, in code point order. -/
def list (t : Tree α) (relativeTo : Option String) (path : String) (recursive : Bool) :
    Except ResourceError (List String) := do
  let directory ← t.resolve relativeTo path
  let components := Path.components directory
  if t.isDirectory components then
    return Text.sort ((t.filesUnder components recursive).map Path.ofComponents)
  else throw (.noDirectory directory)

/-- The content of a file. -/
def read (t : Tree α) (relativeTo : Option String) (path : String) : Except ResourceError α := do
  let path ← t.resolve relativeTo path
  match t.file? (Path.components path) with
  | some content => return content
  | none => throw (.noFile path)

end Tree
end Migration
