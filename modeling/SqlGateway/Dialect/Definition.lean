import SqlGateway.Dialect.Types
import SqlGateway.Name

/-!
# Table definitions

Statements that make and drop tables. Columns stand in the order of their positions. One dialect has
no such statements.
-/
namespace SqlGateway.Dialect

open Schema

/-- The clause of a column whose values the engine counts up. -/
def autoIncrementClause : Dialect → String
  | .postgres => "GENERATED BY DEFAULT AS IDENTITY"
  | .mysql => "AUTO_INCREMENT"
  | .sqlite => "PRIMARY KEY AUTOINCREMENT"
  | .mssql => ""

def columnDefinition (d : Dialect) (autoIncrement : String) (c : Column) : Except Error String := do
  Name.ensureSafe "column" c.columnName
  let some native := d.nativeType? c.type
    | throw (.notImplemented s!"type {c.type.name} for dialect {d.name}")
  let counted := if c.isAutoIncrement then " " ++ autoIncrement else ""
  let required := if !c.isNullable && !c.isPrimaryKey then " NOT NULL" else ""
  let unique := if c.isUnique && !c.isPrimaryKey then " UNIQUE" else ""
  let references := match c.foreignKey with
    | some fk => s!" REFERENCES {fk.tableName}({fk.columnName})"
    | none => ""
  return s!"{c.columnName} {native}{counted}{required}{unique}{references}"

def tableDefinition (d : Dialect) (table : String) (columns : List Column)
    (autoIncrement : String) : Except Error String := do
  Name.ensureSafe "table" table
  if columns.isEmpty then throw (.invalid s!"table `{table}` needs at least one column")
  let ordered := columns.mergeSort fun a b => a.ordinalPosition ≤ b.ordinalPosition
  let keys := (ordered.filter (·.isPrimaryKey)).map (·.columnName)
  let definitions ← ordered.mapM (d.columnDefinition autoIncrement)
  let keyClause := if keys.isEmpty then [] else ["PRIMARY KEY (" ++ ", ".intercalate keys ++ ")"]
  return s!"CREATE TABLE {table} (" ++ ", ".intercalate (definitions ++ keyClause) ++ ")"

/-- The only primary key column, if the engine counts its values up. -/
def soleCountedKey? (columns : List Column) : Option Column :=
  columns.find? fun c =>
    c.isAutoIncrement && c.isPrimaryKey && (columns.filter (·.isPrimaryKey)).length == 1

/-- The columns with the key clauses of a column left to its own definition. -/
def withInlineKey (key : Column) (columns : List Column) : List Column :=
  columns.map fun c =>
    if c.columnName = key.columnName then
      { c with isPrimaryKey := false, isUnique := false, isNullable := true }
    else c

/-- The statement that makes a table. A counted key of the file-based dialect must be declared with
its column. -/
def createTable (d : Dialect) (table : String) (columns : List Column) : Except Error String :=
  match d with
  | .mssql => .error (.notImplemented s!"create table `{table}` for dialect {d.name}")
  | .sqlite =>
    match soleCountedKey? columns with
    | some key => d.tableDefinition table (withInlineKey key columns) d.autoIncrementClause
    | none => d.tableDefinition table columns ""
  | _ => d.tableDefinition table columns d.autoIncrementClause

def dropTable (d : Dialect) (table : String) : Except Error String :=
  match d with
  | .mssql => .error (.notImplemented s!"drop table `{table}` for dialect {d.name}")
  | _ => do
    Name.ensureSafe "table" table
    return s!"DROP TABLE IF EXISTS {table}"

end SqlGateway.Dialect
