import Migration.Record.Catalog.Columns

/-!
# Preconditions

The types of preconditions: checks, groups of preconditions, and the container of all preconditions
of a document or a change set.

* `preconditions` — the checks that scripts know unless the host says otherwise
* `container`, `conjunction`, `disjunction`, `negation` — the types that hold other preconditions
-/

namespace Migration

/-- A type of preconditions. -/
def RecordType.precondition (name element : String) (fields : List Field) : RecordType :=
  { name, family := .precondition, element, fields }

namespace Catalog

/-- The field for the preconditions inside another one. -/
def nested : List Field := [.records "nested_preconditions"]

/-- All of the preconditions inside hold. -/
def conjunction : RecordType := .precondition "AndPrecondition" "and" nested

/-- One of the preconditions inside holds. -/
def disjunction : RecordType := .precondition "OrPrecondition" "or" nested

/-- The preconditions inside do not hold. -/
def negation : RecordType := .precondition "NotPrecondition" "not" nested

/-- The preconditions of a document or a change set, and what happens unless they hold. -/
def container : RecordType :=
  (RecordType.precondition "PreconditionContainer" "and" <|
    nested ++ choices .fail ["on_fail"] ++ choices .error ["on_error"] ++
    choices .sqlOutput ["on_sql_output"] ++ texts ["on_fail_message", "on_error_message"])
    |>.withAlias "onUpdateSql" "on_sql_output"

/-- The checks. -/
def preconditions : List RecordType := [
  .precondition "DbmsPrecondition" "dbms" <|
    texts ["type"],
  .precondition "RunningAsPrecondition" "runningAs" <|
    texts ["username"],
  .precondition "ChangeSetExecutedPrecondition" "changeSetExecuted" <|
    texts ["id", "author", "change_log_file"],
  .precondition "ColumnExistsPrecondition" "columnExists" <|
    located ["table_name", "column_name"],
  .precondition "TableExistsPrecondition" "tableExists" <|
    located ["table_name"],
  .precondition "ViewExistsPrecondition" "viewExists" <|
    located ["view_name"],
  .precondition "IndexExistsPrecondition" "indexExists" <|
    located ["table_name", "index_name", "column_names"],
  .precondition "SequenceExistsPrecondition" "sequenceExists" <|
    located ["sequence_name"],
  .precondition "ForeignKeyExistsPrecondition" "foreignKeyConstraintExists" <|
    located ["foreign_key_table_name", "foreign_key_name"],
  .precondition "PrimaryKeyExistsPrecondition" "primaryKeyExists" <|
    located ["table_name", "primary_key_name"],
  (RecordType.precondition "SqlPrecondition" "sqlCheck" <|
    texts ["expected_result", "sql"]) |>.withPositional "sql",
  .precondition "ChangeLogPropertyDefinedPrecondition" "changeLogPropertyDefined" <|
    texts ["property", "value"],
  .precondition "TableIsEmptyPrecondition" "tableIsEmpty" <|
    located ["table_name"],
  .precondition "RowCountPrecondition" "rowCount" <|
    located ["table_name"] ++ integers ["expected_rows"],
  .precondition "ObjectQuotingStrategyPrecondition" "expectedQuotingStrategy" <|
    choices .quotingStrategy ["strategy"]]

/-- The types that hold other preconditions, and the bare types without an element. -/
def logicPreconditions : List RecordType := [
  .precondition "Precondition" "" [], .precondition "PreconditionLogic" "" nested,
  conjunction, disjunction, negation, container]

end Catalog
end Migration
