import Migration.Record.Catalog.Columns

/-!
# Changes

The types of changes that change sets are made of, each with its element. A change may take columns,
parameters of a where clause, or one positional argument.

* `changes` — the types that scripts know unless the host says otherwise
* `abstractChanges` — types without an element, from which hosts can make elements of their own
-/

namespace Migration

/-- A type of changes. -/
def RecordType.change (name element : String) (fields : List Field) : RecordType :=
  { name, family := .change, element, fields }

namespace Catalog

/-- A file of statements. -/
def sqlFile : RecordType :=
  (RecordType.change "SqlFileChange" "sqlFile" <|
    texts ["path", "encoding", "dbms", "end_delimiter"] ++
    flags ["relative_to_changelog_file", "split_statements", "strip_comments"]) |>.withResources

/-- A statement written out. -/
def rawSql : RecordType :=
  (RecordType.change "RawSqlChange" "sql" <|
    texts ["sql", "comment", "dbms", "end_delimiter"] ++
    flags ["split_statements", "strip_comments"]) |>.withPositional "sql"

/-- The fields of a change that loads a file into a table. -/
def loadFields : List Field :=
  located ["table_name", "file", "encoding", "separator", "quotchar", "comment_line_start_with"] ++
  flags ["relative_to_changelog_file", "use_prepared_statements"]

/-- Changes of tables, columns, views and indexes. -/
def structureChanges : List RecordType := [
  (RecordType.change "CreateTableChange" "createTable" <|
    located ["table_name", "tablespace", "remarks", "table_type"] ++ flags ["if_not_exists"])
    |>.withColumns .plain,
  .change "DropTableChange" "dropTable" <|
    located ["table_name"] ++ flags ["cascade_constraints"],
  .change "RenameTableChange" "renameTable" <|
    located ["old_table_name", "new_table_name"],
  (RecordType.change "AddColumnChange" "addColumn" <|
    located ["table_name"]) |>.withColumns .added,
  (RecordType.change "DropColumnChange" "dropColumn" <|
    located ["table_name", "column_name"]) |>.withColumns .plain,
  .change "RenameColumnChange" "renameColumn" <|
    located ["table_name", "old_column_name", "new_column_name", "column_data_type", "remarks"],
  .change "ModifyDataTypeChange" "modifyDataType" <|
    located ["table_name", "column_name", "new_data_type"],
  .change "CreateViewChange" "createView" <|
    located ["view_name", "select_query", "remarks"] ++
    flags ["replace_if_exists", "full_definition"],
  .change "DropViewChange" "dropView" <|
    located ["view_name"] ++ flags ["if_exists"],
  .change "RenameViewChange" "renameView" <|
    located ["old_view_name", "new_view_name"],
  (RecordType.change "CreateIndexChange" "createIndex" <|
    located ["table_name", "index_name", "tablespace"] ++ flags ["unique", "clustered"])
    |>.withColumns .plain,
  .change "DropIndexChange" "dropIndex" <|
    located ["table_name", "index_name"]]

/-- Changes of constraints, defaults and sequences. -/
def integrityChanges : List RecordType := [
  (RecordType.change "AddForeignKeyConstraintChange" "addForeignKeyConstraint" <|
    texts ["base_table_catalog_name", "base_table_schema_name", "base_table_name",
      "base_column_names", "constraint_name", "referenced_table_catalog_name",
      "referenced_table_schema_name", "referenced_table_name", "referenced_column_names",
      "on_delete", "on_update"] ++ flags ["deferrable", "initially_deferred", "delete_cascade"] ++
    renamed .truth "validate_" "validate")
    |>.withConsequence "delete_cascade" "on_delete" (.text "CASCADE"),
  .change "DropForeignKeyConstraintChange" "dropForeignKeyConstraint" <|
    texts ["base_table_catalog_name", "base_table_schema_name", "base_table_name",
      "constraint_name"],
  .change "DropAllForeignKeyConstraintsChange" "dropAllForeignKeyConstraints" <|
    texts ["base_table_catalog_name", "base_table_schema_name", "base_table_name"],
  .change "AddPrimaryKeyChange" "addPrimaryKey" <|
    located ["table_name", "column_names", "constraint_name", "tablespace", "for_index_name"] ++
    flags ["clustered"] ++ renamed .truth "validate_" "validate",
  .change "DropPrimaryKeyChange" "dropPrimaryKey" <|
    located ["table_name", "constraint_name"] ++ flags ["drop_index"],
  .change "AddNotNullConstraintChange" "addNotNullConstraint" <|
    located ["table_name", "column_name", "column_data_type", "default_null_value",
      "constraint_name"] ++ renamed .truth "validate_" "validate",
  .change "DropNotNullConstraintChange" "dropNotNullConstraint" <|
    located ["table_name", "column_name", "column_data_type"],
  .change "AddUniqueConstraintChange" "addUniqueConstraint" <|
    located ["table_name", "column_names", "constraint_name", "tablespace", "for_index_name"] ++
    flags ["deferrable", "initially_deferred", "disabled", "clustered"] ++
    renamed .truth "validate_" "validate",
  .change "DropUniqueConstraintChange" "dropUniqueConstraint" <|
    located ["table_name", "constraint_name", "unique_columns"],
  .change "AddDefaultValueChange" "addDefaultValue" <|
    located ["table_name", "column_name", "column_data_type", "default_value",
      "default_value_constraint_name"] ++ decimals ["default_value_numeric"] ++
    timestamps ["default_value_date"] ++ flags ["default_value_boolean"] ++
    functions .expression ["default_value_computed"] ++
    functions .sequenceNext ["default_value_sequence_next"],
  .change "DropDefaultValueChange" "dropDefaultValue" <|
    located ["table_name", "column_name", "column_data_type"],
  .change "AddAutoIncrementChange" "addAutoIncrement" <|
    located ["table_name", "column_name", "column_data_type", "generation_type"] ++
    integers ["start_with", "increment_by"] ++ flags ["default_on_null"],
  .change "AddLookupTableChange" "addLookupTable" <|
    texts ["existing_table_catalog_name", "existing_table_schema_name", "existing_table_name",
      "existing_column_name", "new_table_catalog_name", "new_table_schema_name",
      "new_table_name", "new_column_name", "new_column_data_type", "constraint_name"],
  .change "CreateSequenceChange" "createSequence" <|
    located ["sequence_name", "data_type"] ++
    integers ["start_value", "increment_by", "min_value", "max_value", "cache_size"] ++
    flags ["cycle", "ordered"],
  .change "AlterSequenceChange" "alterSequence" <|
    located ["sequence_name", "data_type"] ++
    integers ["increment_by", "min_value", "max_value", "cache_size"] ++ flags ["cycle", "ordered"],
  .change "DropSequenceChange" "dropSequence" <|
    located ["sequence_name"],
  .change "RenameSequenceChange" "renameSequence" <|
    located ["old_sequence_name", "new_sequence_name"]]

/-- Changes of data, and statements. -/
def dataChanges : List RecordType := [
  (RecordType.change "InsertDataChange" "insert" <|
    located ["table_name", "dbms"]) |>.withColumns .plain,
  (RecordType.change "UpdateDataChange" "update" <|
    located ["table_name", "where"]) |>.withColumns .plain |>.withWhereParams,
  (RecordType.change "DeleteDataChange" "delete" <|
    located ["table_name", "where"]) |>.withWhereParams,
  (RecordType.change "LoadDataChange" "loadData" <|
    loadFields) |>.withColumns .loaded |>.withResources,
  (RecordType.change "LoadUpdateDataChange" "loadUpdateData" <|
    loadFields ++ texts ["primary_key"] ++ flags ["only_update"]) |>.withColumns .loaded
    |>.withResources,
  rawSql,
  sqlFile,
  .change "TagDatabaseChange" "tagDatabase" <|
    texts ["tag"],
  .change "EmptyChange" "empty" [],
  .change "OutputChange" "output" <|
    texts ["message", "target"],
  .change "StopChange" "stop" <|
    texts ["message"]]

/-- All changes with an element. -/
def changes : List RecordType := structureChanges ++ integrityChanges ++ dataChanges

/-- Types of changes without an element. -/
def abstractChanges : List RecordType := [
  .change "Change" "" [],
  (RecordType.change "ChangeWithColumns" "" []) |>.withColumns .plain,
  (RecordType.change "ResourceChange" "" []) |>.withResources]

end Catalog
end Migration
