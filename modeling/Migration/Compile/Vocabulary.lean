import Migration.Record.Registry

/-!
# The vocabulary of scripts

The names that a script may call as elements: those of the blocks, of the registered changes and
preconditions, and of the constraints of a column.

* `Vocabulary.contains` — whether a name is an element
* `Vocabulary.names` — all elements, in code point order
-/

namespace Migration.Vocabulary

/-- The elements that are neither registered nor constraints. -/
def fixed : List String :=
  ["databaseChangeLog", "property", "changeSet", "include", "includeAll", "includeAllSql",
    "preConditions", "removeChangeSetProperty", "comment", "validCheckSum", "rollback", "modifySql",
    "column", "where", "whereParams", "param", "constraints", "and_", "or_", "not_", "prepend",
    "append", "replace", "regExpReplace"]

/-- The elements for single constraints, in both spellings. -/
def constraintNames : List String :=
  (Catalog.constraints.spellings.filter fun (_, f) => f.type.isSome).map (·.1)

/-- Whether a name is an element. -/
def contains (changes preconditions : Registry) (name : String) : Bool :=
  fixed.contains name || changes.contains name || preconditions.contains name ||
    Catalog.constraints.hasProperty name

/-- All elements in code point order. -/
def names (changes preconditions : Registry) : List String :=
  Text.sortedSet (fixed ++ changes.names ++ preconditions.names ++ constraintNames)

end Migration.Vocabulary
