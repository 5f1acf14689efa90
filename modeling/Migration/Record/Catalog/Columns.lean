import Migration.Record.Field

/-!
# Columns and constraints

The records inside changes: columns in the forms that different changes take, and the constraints of
a column. The functions that list fields of one type serve the other record types too.
-/

namespace Migration
namespace Catalog

/-! ## Fields of one type -/

/-- Fields that hold texts. -/
def texts (names : List String) : List Field := names.map (.named .text)

/-- Fields that hold truth values. -/
def flags (names : List String) : List Field := names.map (.named .truth)

/-- Fields that hold integers. -/
def integers (names : List String) : List Field := names.map (.named .integer)

/-- Fields that hold decimal numbers. -/
def decimals (names : List String) : List Field := names.map (.named .decimal)

/-- Fields that hold a point in time or a function that computes one. -/
def timestamps (names : List String) : List Field := names.map (.named .timestamp)

/-- Fields that hold functions of the database. -/
def functions (kind : FunctionKind) (names : List String) : List Field :=
  names.map (.named (.function kind))

/-- Fields that hold a member of a family of options. -/
def choices (kind : Choice.Kind) (names : List String) : List Field :=
  names.map (.named (.choice kind))

/-- Fields that hold texts, after those that say where the thing is found. -/
def located (names : List String) : List Field := texts ("catalog_name" :: "schema_name" :: names)

/-- A field whose usual spelling lacks the underscore at its end. -/
def renamed (type : FieldType) (name spelling : String) : List Field :=
  [{ name, «alias» := spelling, type := some type }]

/-! ## Record types -/

/-- The constraints of a column. -/
def constraints : RecordType where
  name := "ConstraintsConfig"
  family := .column
  fields :=
    flags ["nullable", "primary_key", "unique", "delete_cascade", "deferrable",
      "initially_deferred", "validate_nullable", "validate_unique", "validate_primary_key",
      "validate_foreign_key"] ++
    texts ["not_null_constraint_name", "primary_key_name", "primary_key_tablespace",
      "unique_constraint_name", "check_constraint", "references",
      "referenced_table_catalog_name", "referenced_table_schema_name", "referenced_table_name",
      "referenced_column_names", "foreign_key_name"]

/-- The fields of every column. -/
def columnFields : List Field :=
  .hidden "constraints" ::
    texts ["name", "type", "value", "value_blob_file", "value_clob_file", "encoding",
      "default_value", "default_value_constraint_name", "generation_type", "remarks"] ++
    flags ["computed", "value_boolean", "default_value_boolean", "auto_increment",
      "default_on_null", "descending"] ++ decimals ["value_numeric", "default_value_numeric"] ++
    timestamps ["value_date", "default_value_date"] ++
    functions .expression ["value_computed", "default_value_computed"] ++
    functions .sequenceNext ["value_sequence_next", "default_value_sequence_next"] ++
    functions .sequenceCurrent ["value_sequence_current"] ++ integers ["start_with", "increment_by"]

/-- A column. -/
def column : RecordType where
  name := "ColumnConfig"
  family := .column
  fields := columnFields

/-- A column that is added to a table, perhaps at some position. -/
def addedColumn : RecordType where
  name := "AddColumnConfig"
  family := .column
  fields :=
    columnFields ++
    texts ["before_column", "after_column"] ++ integers ["position"]

/-- A column that a file is loaded into. -/
def loadedColumn : RecordType where
  name := "LoadDataColumnConfig"
  family := .column
  fields :=
    columnFields ++
    texts ["header", "null_placeholder"] ++ integers ["index"] ++ flags ["allow_update"]

end Catalog

/-- The record type of a form of columns. -/
def ColumnForm.type : ColumnForm → RecordType
  | plain => Catalog.column
  | added => Catalog.addedColumn
  | loaded => Catalog.loadedColumn

end Migration
