import Migration.Record.Catalog.Columns

/-!
# SQL visitors

The records that alter the SQL of a change set before it runs. What they apply to is given by the
block around them and cannot be set on the visitor, except whether rollbacks are altered too.
-/

namespace Migration

/-- A type of SQL visitors: the fields for what it applies to, and its own. -/
def RecordType.visitor (name element : String) (fields : List Field) : RecordType where
  name
  family := .visitor
  element
  fields := [.hidden "applicable_dbms", .hidden "context_filter", .hidden "labels",
    { Field.named .truth "apply_to_rollback" with initial := .bool false }] ++ fields

namespace Catalog

/-- The visitors with an element: text in front, text behind, and replacements. -/
def visitors : List RecordType := [
  .visitor "PrependSqlVisitor" "prepend" (texts ["value"]),
  .visitor "AppendSqlVisitor" "append" (texts ["value"]),
  .visitor "ReplaceSqlVisitor" "replace" (texts ["replace"] ++ renamed .text "with_" "with"),
  .visitor "RegExpReplaceSqlVisitor" "regExpReplace"
    (texts ["replace"] ++ renamed .text "with_" "with")]

/-- The visitor without an element. -/
def bareVisitor : RecordType := .visitor "SqlVisitor" "" []

end Catalog
end Migration
