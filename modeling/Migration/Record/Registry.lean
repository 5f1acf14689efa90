import Migration.Record.Basic
import Migration.Record.Catalog
import Migration.Text.Order

/-!
# Registries of elements

Which elements stand for which record types. There is one registry for changes and one for
preconditions, and a host may add and remove entries before it compiles anything.

* `Registry.register`, `Registry.unregister` — change the entries
* `Registry.get?`, `Registry.create` — the type, or a fresh record, behind an element
* `Registry.defaults` — the registry of all types that have an element
-/

namespace Migration

/-- What a registry holds. -/
inductive Registry.Kind where
  | change
  | precondition
  deriving DecidableEq, Repr, Inhabited

namespace Registry.Kind

/-- The kind in the middle of a message. -/
def name : Registry.Kind → String
  | change => "change"
  | precondition => "precondition"

/-- The kind at the start of a message. -/
def title : Registry.Kind → String
  | change => "Change"
  | precondition => "Precondition"

/-- The family of the types that have an element of this kind. -/
def family : Registry.Kind → RecordFamily
  | change => .change
  | precondition => .precondition

/-- What messages call the element of a type. -/
def elementWord (kind : Registry.Kind) : String := kind.name ++ "_name"

/-- The element of this kind that stands for a type; empty if none does. -/
def elementOf (kind : Registry.Kind) (type : RecordType) : String :=
  if type.family == kind.family then type.element else ""

end Registry.Kind

/-- Elements and the record types they stand for, in the order of registration. -/
structure Registry where
  kind : Registry.Kind
  entries : List (String × RecordType)
  deriving Inhabited

namespace Registry

/-- Why a registry refuses. -/
inductive Refusal where
  | noElement (kind : Kind) (type : String)
  | taken (kind : Kind) (element : String)
  | unknown (kind : Kind) (element : String)
  deriving DecidableEq, Repr

/-- The message about a refusal. -/
def Refusal.message : Refusal → String
  | noElement kind type => kind.title ++ " type " ++ type ++ " has no " ++ kind.elementWord ++ "."
  | taken kind element =>
    kind.title ++ " '" ++ element ++ "' is already registered. Unregister the existing " ++
      kind.name ++ " first."
  | unknown kind element => kind.title ++ " '" ++ element ++ "' is not registered."

/-- A registry without entries. -/
def empty (kind : Kind) : Registry := ⟨kind, []⟩

/-- The type that an element stands for. -/
def get? (r : Registry) (element : String) : Option RecordType := r.entries.lookup element

/-- Whether an element stands for a type. -/
def contains (r : Registry) (element : String) : Bool := (r.get? element).isSome

/-- How many entries there are. -/
def size (r : Registry) : Nat := r.entries.length

/-- The registry with an entry more, for the given element or else for the type's own one. -/
def register (r : Registry) (type : RecordType) (element : String := "") :
    Except Refusal Registry :=
  let element := if element.isEmpty then r.kind.elementOf type else element
  if element.isEmpty then throw (.noElement r.kind type.name)
  else if r.contains element then throw (.taken r.kind element)
  else return { r with entries := r.entries ++ [(element, type)] }

/-- The registry without the entry for an element. -/
def unregister (r : Registry) (element : String) : Except Refusal Registry :=
  if r.contains element then
    return { r with entries := r.entries.filter fun (name, _) => name != element }
  else throw (.unknown r.kind element)

/-- A fresh record of the type that an element stands for. -/
def create (r : Registry) (element : String) : Except Refusal Record :=
  match r.get? element with
  | some type => return .fresh type
  | none => throw (.unknown r.kind element)

/-- The elements in code point order. -/
def names (r : Registry) : List String := Text.sort (r.entries.map (·.1))

/-- The entries in code point order of the elements. -/
def items (r : Registry) : List (String × RecordType) :=
  r.names.filterMap fun name => (r.get? name).map (name, ·)

/-- The types of a kind that have an element. -/
def defaultTypes : Kind → List RecordType
  | .change => Catalog.changes
  | .precondition => Catalog.preconditions

/-- The registry of all types of a kind that have an element. -/
def defaults (kind : Kind) : Registry :=
  ⟨kind, (defaultTypes kind).map fun type => (type.element, type)⟩

/-- The registry itself, or the default one if it has no entries. -/
def orDefaults (r : Registry) : Registry := if r.entries.isEmpty then defaults r.kind else r

end Registry
end Migration
