import SqlGateway.Json.Basic

/-!
# Columns

What is known of a column of a table, and the type of its values in words that no single database
engine owns.
-/
namespace SqlGateway.Schema

inductive ValueType where
  | integer
  | float
  | decimal
  | text
  | boolean
  | date
  | dateTime
  | time
  | json
  | uuid
  | binary
  | notSupported
  deriving DecidableEq, Repr, Inhabited

namespace ValueType

def name : ValueType → String
  | .integer => "Integer"
  | .float => "Float"
  | .decimal => "Decimal"
  | .text => "String"
  | .boolean => "Boolean"
  | .date => "Date"
  | .dateTime => "DateTime"
  | .time => "Time"
  | .json => "JSON"
  | .uuid => "UUID"
  | .binary => "Binary"
  | .notSupported => "NotSupported"

/-- The name in stored registries. -/
def storedName : ValueType → String
  | .json => "Json"
  | .uuid => "Uuid"
  | other => other.name

def all : List ValueType :=
  [.integer, .float, .decimal, .text, .boolean, .date, .dateTime, .time, .json, .uuid, .binary,
    .notSupported]

def ofStoredName? (s : String) : Option ValueType := all.find? (·.storedName == s)

def isNumeric : ValueType → Bool
  | .integer | .float | .decimal => true
  | _ => false

end ValueType

/-- The column that a foreign key column refers to. -/
structure ForeignKey where
  schemaName : String
  tableName : String
  columnName : String
  deleteRule : Option String
  deriving DecidableEq, Repr

structure Column where
  schemaName : String
  tableName : String
  columnName : String
  /-- The type as the engine names it. -/
  nativeType : String
  type : ValueType
  isPrimaryKey : Bool
  isUnique : Bool
  isNullable : Bool
  constraintName : Option String
  ordinalPosition : Int
  defaultValue : Option String
  isAutoIncrement : Bool
  maxLength : Option Int
  numericPrecision : Option Int
  numericScale : Option Int
  foreignKey : Option ForeignKey
  /-- A rule put on the column after it was captured. -/
  maskingRule : Option String
  deriving DecidableEq, Repr

namespace Column

/-- A nullable column of which only the type is known. -/
def plain (table column : String) (type : ValueType) : Column where
  schemaName := ""
  tableName := table
  columnName := column
  nativeType := String.ofList (type.name.toList.map Char.toLower)
  type := type
  isPrimaryKey := false
  isUnique := false
  isNullable := true
  constraintName := none
  ordinalPosition := 0
  defaultValue := none
  isAutoIncrement := false
  maxLength := none
  numericPrecision := none
  numericScale := none
  foreignKey := none
  maskingRule := none

def asPrimaryKey (c : Column) : Column :=
  { c with isPrimaryKey := true, isUnique := true, isNullable := false }

def asAutoIncrement (c : Column) : Column := { c with isAutoIncrement := true }

/-- The column as a reference to a column of a table in its own schema. -/
def referring (c : Column) (table column : String) : Column :=
  { c with foreignKey := some ⟨c.schemaName, table, column, none⟩ }

end Column

end SqlGateway.Schema
