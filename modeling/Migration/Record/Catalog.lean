import Migration.Record.Catalog.Changes
import Migration.Record.Catalog.Preconditions
import Migration.Record.Catalog.Visitors

/-!
# The catalog

All types of records together, by name.
-/

namespace Migration.Catalog

/-- The type of records without fields. -/
def bareRecord : RecordType where
  name := "DslRecord"
  family := .base

/-- All record types. -/
def all : List RecordType :=
  bareRecord :: [constraints, column, addedColumn, loadedColumn] ++ changes ++ abstractChanges ++
    preconditions ++ logicPreconditions ++ bareVisitor :: visitors

/-- The record type with a name. -/
def ofName? (name : String) : Option RecordType := all.find? (·.name == name)

end Migration.Catalog
