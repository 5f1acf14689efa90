import Migration.Mishap
import Migration.Text.Split

/-!
# Extensions

A change log may name a filter or a comparator of its host for the files it includes. Names are
looked up among those the host has registered and then, if that is allowed, among the modules that
can be imported: `module:attribute` or `module.attribute`.

* `Extensions.filter`, `Extensions.comparator` — the extension behind a name
* `Extensions.Failure` — why there is none
-/

namespace Migration

open Text

/-- An extension: which paths it includes, or how it compares two paths, or neither. -/
inductive Extension where
  | filter (includes : String → Bool)
  | comparator (compare : String → String → Int)
  | inert

/-- Where an extension comes from: it is there, or it is made anew and that may fail. -/
inductive Extension.Source where
  | instance (extension : Extension)
  | factory (make : Except String Extension)

/-- What a module can hold under a name. -/
inductive Extension.Member where
  | source (source : Extension.Source)
  | group (members : List (String × Extension.Member))

/-- The registered extensions, the later ones first, and the modules that can be imported. -/
structure Extensions where
  filters : List (String × Extension.Source) := []
  comparators : List (String × Extension.Source) := []
  allowImports : Bool := true
  modules : List (String × List (String × Extension.Member)) := []

namespace Extensions

/-- What an extension is needed for. -/
inductive Slot where
  | filter
  | comparator
  deriving DecidableEq, Repr

/-- The slot in messages. -/
def Slot.name : Slot → String
  | filter => "resource filter"
  | comparator => "resource comparator"

/-- What an extension for the slot has to implement. -/
def Slot.capability : Slot → String
  | filter => "include(path)"
  | comparator => "compare(left, right)"

/-- Why a name stands for no extension. -/
inductive Failure where
  | notRegistered (slot : Slot) (name : String)
  | notImportable (slot : Slot) (name : String)
  | noModule (slot : Slot) (name module : String)
  | noMember (slot : Slot) (name module path : String)
  | notMade (slot : Slot) (name reason : String)
  | incapable (slot : Slot) (name : String)
  deriving DecidableEq, Repr

/-- The name that stands for no extension. -/
def Failure.name : Failure → String
  | notRegistered _ name | notImportable _ name | noModule _ name _ | noMember _ name _ _
  | notMade _ name _ | incapable _ name => name

/-- The message about a failure. -/
def Failure.message : Failure → String
  | notRegistered slot name => "'" ++ name ++ "' is not a registered " ++ slot.name ++ "."
  | notImportable slot name => "'" ++ name ++ "' is not an importable " ++ slot.name ++ " name."
  | noModule slot name module =>
    "Cannot import module '" ++ module ++ "' for " ++ slot.name ++ " '" ++ name ++ "'."
  | noMember slot _ module path =>
    "Module '" ++ module ++ "' has no " ++ slot.name ++ " '" ++ path ++ "'."
  | notMade slot name reason =>
    "Cannot instantiate " ++ slot.name ++ " '" ++ name ++ "': " ++ reason
  | incapable slot name =>
    "'" ++ name ++ "' is not a valid " ++ slot.name ++
      ".  Does it exist, and does it implement " ++ slot.capability ++ "?"

/-- A name that stands for no extension, or a mishap on the way. -/
inductive Problem where
  | failure (f : Failure)
  | mishap (m : Mishap)

/-- A name cut into module and member: at the first colon, or else at the last point. -/
def splitName (name : String) : List Char × List Char :=
  let cs := name.toList
  if cs.contains ':' then
    let (module, rest) := cs.span (· != ':')
    (module, rest.drop 1)
  else
    let (member, rest) := cs.reverse.span (· != '.')
    ((rest.drop 1).reverse, member.reverse)

/-- The member that names lead to, one after the other. -/
def member? : List (String × Extension.Member) → List String → Option Extension.Member
  | _, [] => none
  | members, [name] => members.lookup name
  | members, name :: rest =>
    match members.lookup name with
    | some (.group members) => member? members rest
    | _ => none

/-- The source that a name imports. -/
def importSource (e : Extensions) (slot : Slot) (name : String) : Except Problem Extension.Source :=
  let (module, member) := splitName name
  if module.isEmpty || member.isEmpty then throw (.failure (.notImportable slot name))
  else
    let module := String.ofList module
    if startsWith module "." then throw (.mishap (.relativeModule module))
    else match e.modules.lookup module with
      | none => throw (.failure (.noModule slot name module))
      | some members =>
        match member? members ((splitOn '.' member).map String.ofList) with
        | none => throw (.failure (.noMember slot name module (String.ofList member)))
        | some (.source source) => return source
        | some (.group _) => return .instance .inert

/-- The source that a name stands for. -/
def source (e : Extensions) (slot : Slot) (name : String) : Except Problem Extension.Source :=
  let registered := match slot with
    | .filter => e.filters
    | .comparator => e.comparators
  match registered.lookup name with
  | some source => return source
  | none =>
    if e.allowImports then e.importSource slot name
    else throw (.failure (.notRegistered slot name))

/-- The extension that a name stands for, whether or not it fits the slot. -/
def extension (e : Extensions) (slot : Slot) (name : String) : Except Problem Extension := do
  match ← e.source slot name with
  | .instance extension => return extension
  | .factory (.ok extension) => return extension
  | .factory (.error reason) => throw (.failure (.notMade slot name reason))

/-- The filter that a name stands for. -/
def filter (e : Extensions) (name : String) : Except Problem (String → Bool) := do
  match ← e.extension .filter name with
  | .filter includes => return includes
  | _ => throw (.failure (.incapable .filter name))

/-- The comparator that a name stands for. -/
def comparator (e : Extensions) (name : String) : Except Problem (String → String → Int) := do
  match ← e.extension .comparator name with
  | .comparator compare => return compare
  | _ => throw (.failure (.incapable .comparator name))

/-- The extensions with a registered source more. -/
def register (e : Extensions) (slot : Slot) (name : String) (source : Extension.Source) :
    Extensions :=
  match slot with
  | .filter => { e with filters := (name, source) :: e.filters }
  | .comparator => { e with comparators := (name, source) :: e.comparators }

end Extensions
end Migration
