import SqlGateway.Dialect.Introspection
import SqlGateway.Dialect.Types
import SqlGateway.Number.Layout
import SqlGateway.ResultSet
import SqlGateway.Text.Search

/-!
# Column metadata

What an engine answers about its tables, row by row, read as columns. The engines differ in the
types they answer with: a truth value may come as a number or as a word, and a count as text.
-/
namespace SqlGateway.Source

open Schema (Column ForeignKey)

/-- The text of a cell; null has none. -/
def cellText? : Cell → Option String
  | .null => none
  | .text s => some s
  | .bytes bs => some (Text.decodeLossy bs)
  | .int n => some (toString n)
  | .float x => some (Number.Layout.plain.write x)
  | .bool b => some (if b then "true" else "false")
  | .json v => some v.compact
  | .date d => some s!"Date({d.text})"
  | .dateTime d => some ("DateTime(" ++ d.textWith "T" ++ ")")
  | .moment d => some ("DateTimeTz(" ++ d.textWith "T" ++ "Z)")
  | .time t => some s!"Time({t.text})"

/-- The words that stand for a true value. -/
def trueWords : List String := ["YES", "TRUE", "T", "1"]

def cellBool : Cell → Bool
  | .bool b => b
  | .int n => n != 0
  | .float x => !x.isZero
  | other => ((cellText? other).map fun s => Text.uppered (Text.trim s)).any trueWords.contains

def cellInt? : Cell → Option Int
  | .int n => some n
  | .float x => some (x.truncateInto Number.leastInt64 Number.greatestInt64)
  | other => (cellText? other).bind fun s => Number.signed64? (Text.trimmed s.toList)

/-- The place of a column of the answer, whose name is compared without regard to case. -/
def position (r : ResultSet) (name : String) : Except Error Nat :=
  match r.columns.findIdx? fun c => Text.lowered c.name == Text.lowered name with
  | some i => .ok i
  | none => .error (.invalid s!"metadata query did not return `{name}`")

/-- A row of metadata by the names of its columns. -/
def cellAt (places : List (String × Nat)) (row : List Cell) (name : String) : Cell :=
  match places.find? (·.1 == name) with
  | some (_, i) => row.getD i .null
  | none => .null

def foreignKey? (text : String → Option String) : Option ForeignKey := do
  let table ← text "ref_table_name"
  let column ← text "ref_column_name"
  return {
    schemaName := (text "ref_table_schema").getD ""
    tableName := table
    columnName := column
    deleteRule := text "delete_rule" }

/-- The column that a row describes, if the row names a table and a column. -/
def column? (d : Dialect) (cell : String → Cell) : Option Column := do
  let text (name : String) := cellText? (cell name)
  let tableName ← text "table_name"
  let columnName ← text "column_name"
  let nativeType := (text "data_type").getD ""
  return {
    schemaName := (text "table_schema").getD ""
    tableName
    columnName
    nativeType
    type := d.valueType nativeType
    isPrimaryKey := cellBool (cell "is_primary_key")
    isUnique := cellBool (cell "is_unique")
    isNullable := cellBool (cell "is_nullable")
    constraintName := text "constraint_name"
    ordinalPosition := (cellInt? (cell "ordinal_position")).getD 0
    defaultValue := text "column_default"
    isAutoIncrement := cellBool (cell "is_auto_increment")
    maxLength := cellInt? (cell "max_length")
    numericPrecision := cellInt? (cell "numeric_precision")
    numericScale := cellInt? (cell "numeric_scale")
    foreignKey := foreignKey? text
    maskingRule := none }

/-- The columns that the answer to the metadata query describes. -/
def columns (d : Dialect) (r : ResultSet) : Except Error (List Column) := do
  let places ← Dialect.metadataColumns.mapM fun name => return (name, ← position r name)
  return r.rows.filterMap fun row => column? d (cellAt places row)

end SqlGateway.Source
