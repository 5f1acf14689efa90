import Migration.Compile.Session
import Migration.Value.Truth

/-!
# Attributes

The attributes of an element call, in the order in which they are given.

* `Attributes.get` — an attribute, or nothing
* `Attributes.context` — the context of an element, which has two names
* `Attributes.validate` — only the attributes that an element has are given
* `SessionM.fill` — a record with attributes set
-/

namespace Migration

/-- Attributes with their values, in order. -/
abbrev Attributes := List (String × Value)

namespace Attributes

/-- Whether an attribute is given, if only as nothing. -/
def has (a : Attributes) (name : String) : Bool := a.any (·.1 == name)

/-- The value of an attribute; nothing if it is not given. -/
def get (a : Attributes) (name : String) : Value := (a.lookup name).getD .null

/-- Whether an attribute is given as something true. -/
def given (a : Attributes) (name : String) : Bool := (a.get name).isTruthy

/-- The truth of a flag. -/
def flag (a : Attributes) (name : String) (default : Bool) : Bool := (a.get name).truth default

/-- The context of an element before expansion: `contextFilter` if it is given, else `context`. -/
def context (a : Attributes) : Value :=
  if a.given "contextFilter" then a.get "contextFilter" else a.get "context"

/-- The attributes with one of some names. -/
def only (a : Attributes) (names : List String) : Attributes := a.filter (names.contains ·.1)

/-- The attributes with one more; one that is there already keeps its place. -/
def put (a : Attributes) (name : String) (v : Value) : Attributes :=
  if a.has name then a.map fun (n, w) => if n == name then (n, v) else (n, w) else a ++ [(name, v)]

/-- The attributes behind their spellings in a script. -/
def ofSpellings (pairs : List (String × Value)) : Attributes :=
  pairs.foldl (fun a (name, v) => a.put (Script.attributeName name) v) []

/-- The first attribute that is not among those that an element has. -/
def unsupported? (a : Attributes) (allowed : List String) : Option String :=
  (a.find? fun (name, _) => !allowed.contains name).map (·.1)

/-- Attributes that elements no longer have, with their replacements. -/
def removed : List (String × String × String) := [("changeSet", "alwaysRun", "runAlways")]

/-- Refuses attributes that an element does not have or no longer has. -/
def validate (a : Attributes) (owner element : String) (allowed : List String) :
    Except ParseFailure Unit :=
  match removed.find? fun (e, name, _) => e == element && a.has name with
  | some (_, name, replacement) => throw (.removedAttribute owner element name replacement)
  | none =>
    match a.unsupported? allowed with
    | some name => throw (.unsupportedAttribute owner element name)
    | none => return ()

end Attributes

namespace SessionM

/-- A check of a script, as a step. -/
def ofCheck {α : Type} : Except ParseFailure α → SessionM α
  | .ok a => return a
  | .error failure => reject failure

/-- The context filter that an element gives, if it gives one. -/
def contextFilter (document : DocumentId) (a : Attributes) : SessionM (Option ContextFilter) := do
  let v ← expand document a.context
  return if v.isTruthy then some (.ofText v.print) else none

/-- The labels that an element gives, if it gives any. -/
def labels (document : DocumentId) (a : Attributes) : SessionM (Option Labels) := do
  let v ← expand document (a.get "labels")
  return if v.isTruthy then some (.ofText v.print) else none

/-- A record with attributes set one after the other, their placeholders replaced. -/
def fill (document : DocumentId) (owner : String) (target : Target) :
    Record → Attributes → SessionM Record
  | r, [] => return r
  | r, (name, v) :: rest => do
    let v ← expand document v
    match r.bind name v with
    | .ok r => fill document owner target r rest
    | .error cause => reject (.invalidAttribute owner name target) (some cause)

/-- The attributes of a call, with the positional argument among them. -/
def withPositional (owner element : String) (type : RecordType) (positional : List Value)
    (a : Attributes) : Except ParseFailure Attributes :=
  match positional with
  | [] => return a
  | v :: more =>
    match type.positional with
    | none => throw (.noPositional owner element)
    | some name =>
      if !more.isEmpty then throw (.manyPositional owner element)
      else if a.has name then throw (.givenTwice owner element name)
      else return (name, v) :: a

/-- A fresh record of a type with the arguments of a call set. -/
def newRecord (document : DocumentId) (owner element : String) (target : Target)
    (type : RecordType) (positional : List Value) (a : Attributes) : SessionM Record := do
  let a ← ofCheck (withPositional owner element type positional a)
  fill document owner target (.fresh type) a

end SessionM
end Migration
