import Migration.Filter.Labels
import Migration.Mishap
import Migration.Text.Order
import Migration.Value.Printer

/-!
# Lists in attributes

An attribute that takes a list takes it as one text with commas or as a list of values.

* `Value.listTexts` — the items of a list attribute
* `Value.databases` — the set of databases of an attribute, if it names any
* `Value.labels` — the labels of an attribute
-/

namespace Migration.Value

open Text

/-- The values that a list holds, or the keys that a map holds. -/
def items? : Value → Option (List Value)
  | list items => some items
  | map entries => some (entries.map (·.1))
  | _ => none

/-- The items of a list attribute, trimmed and without empty ones. -/
def listTexts (v : Value) : Except Mishap (List String) :=
  match v with
  | null => return []
  | v => match v.asText?, v.items? with
    | some s, _ => return commaList s
    | none, some items => return (items.map fun item => trim item.print).filter (!·.isEmpty)
    | none, none => throw (.notIterable v.typeName)

/-- The set of databases that an attribute names, in order; nothing if it names none. -/
def databases (v : Value) : Except Mishap (Option (List String)) := do
  let names ← v.listTexts
  return if names.isEmpty then none else some (sortedSet names)

/-- The labels that an attribute gives. -/
def labels (v : Value) : Except Mishap Labels := do
  return ⟨← v.listTexts⟩

end Migration.Value
