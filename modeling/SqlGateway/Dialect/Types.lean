import SqlGateway.Dialect.Basic
import SqlGateway.Schema.Column
import SqlGateway.Text.Search

/-!
# Native types

The type names of each engine and the types they stand for, and the name that a new column of a type
gets. Three engines have lists of names; the fourth takes any text as a type and goes by what it
contains, in an order that matters.
-/
namespace SqlGateway.Dialect

open Schema Text

/-- A type name in lower case without length and precision. -/
def baseTypeName (native : String) : String :=
  String.ofList (lower (trimmed (native.toList.takeWhile (· != '('))))

def postgresTypes : List (List String × ValueType) :=
  [(["smallint", "integer", "bigint", "int", "int2", "int4", "int8", "serial", "bigserial",
      "smallserial"], .integer),
    (["real", "double precision", "float4", "float8"], .float),
    (["numeric", "decimal", "money"], .decimal),
    (["text", "character varying", "varchar", "character", "char", "bpchar", "citext", "name"],
      .text),
    (["boolean", "bool"], .boolean),
    (["date"], .date),
    (["timestamp", "timestamp without time zone", "timestamp with time zone", "timestamptz"],
      .dateTime),
    (["time", "time without time zone", "time with time zone", "timetz"], .time),
    (["json", "jsonb"], .json),
    (["uuid"], .uuid),
    (["bytea"], .binary)]

def mysqlTypes : List (List String × ValueType) :=
  [(["tinyint", "smallint", "mediumint", "int", "integer", "bigint", "year"], .integer),
    (["float", "double", "real"], .float),
    (["decimal", "numeric"], .decimal),
    (["char", "varchar", "tinytext", "text", "mediumtext", "longtext", "enum", "set"], .text),
    (["bit", "bool", "boolean"], .boolean),
    (["date"], .date),
    (["datetime", "timestamp"], .dateTime),
    (["time"], .time),
    (["json"], .json),
    (["binary", "varbinary", "tinyblob", "blob", "mediumblob", "longblob"], .binary)]

def mssqlTypes : List (List String × ValueType) :=
  [(["tinyint", "smallint", "int", "bigint"], .integer),
    (["float", "real"], .float),
    (["decimal", "numeric", "money", "smallmoney"], .decimal),
    (["char", "varchar", "nchar", "nvarchar", "text", "ntext", "xml"], .text),
    (["bit"], .boolean),
    (["date"], .date),
    (["datetime", "datetime2", "smalldatetime", "datetimeoffset"], .dateTime),
    (["time"], .time),
    (["uniqueidentifier"], .uuid),
    (["binary", "varbinary", "image"], .binary)]

/-- What a declared type may contain, in the order in which it is asked. -/
def sqliteAffinities : List (List String × ValueType) :=
  [(["BOOL"], .boolean),
    (["INT"], .integer),
    (["JSON"], .json),
    (["UUID"], .uuid),
    (["DATETIME", "TIMESTAMP"], .dateTime),
    (["DATE"], .date),
    (["TIME"], .time),
    (["CHAR", "CLOB", "TEXT"], .text),
    (["REAL", "FLOA", "DOUB"], .float),
    (["NUMERIC", "DECIMAL"], .decimal),
    (["BLOB"], .binary)]

def ofListedName (types : List (List String × ValueType)) (native : String) : ValueType :=
  let base := baseTypeName native
  ((types.find? fun entry => entry.1.contains base).map (·.2)).getD .notSupported

def ofDeclaration (native : String) : ValueType :=
  let declared := upper native.toList
  let found := sqliteAffinities.find? fun entry => entry.1.any fun part =>
    occurs part.toList declared
  match found with
  | some (_, type) => type
  | none => if (trimmed declared).isEmpty then .binary else .notSupported

/-- The type that a native type name stands for. -/
def valueType (d : Dialect) (native : String) : ValueType :=
  match d with
  | .postgres => ofListedName postgresTypes native
  | .mysql => ofListedName mysqlTypes native
  | .mssql => ofListedName mssqlTypes native
  | .sqlite => ofDeclaration native

/-- The names of a type in the four dialects. -/
structure NativeNames where
  inPostgres : String
  inMysql : String
  inMssql : String
  inSqlite : String

def NativeNames.of (names : NativeNames) : Dialect → String
  | .postgres => names.inPostgres
  | .mysql => names.inMysql
  | .mssql => names.inMssql
  | .sqlite => names.inSqlite

def nativeNames? : ValueType → Option NativeNames
  | .integer => some ⟨"bigint", "BIGINT", "bigint", "INTEGER"⟩
  | .float => some ⟨"double precision", "DOUBLE", "float", "REAL"⟩
  | .decimal => some ⟨"numeric", "DECIMAL(38,10)", "decimal(38,10)", "NUMERIC"⟩
  | .text => some ⟨"text", "VARCHAR(255)", "nvarchar(max)", "TEXT"⟩
  | .boolean => some ⟨"boolean", "BOOLEAN", "bit", "BOOLEAN"⟩
  | .date => some ⟨"date", "DATE", "date", "DATE"⟩
  | .dateTime => some ⟨"timestamptz", "DATETIME", "datetime2", "DATETIME"⟩
  | .time => some ⟨"time", "TIME", "time", "TIME"⟩
  | .json => some ⟨"jsonb", "JSON", "nvarchar(max)", "JSON"⟩
  | .uuid => some ⟨"uuid", "CHAR(36)", "uniqueidentifier", "TEXT"⟩
  | .binary => some ⟨"bytea", "BLOB", "varbinary(max)", "BLOB"⟩
  | .notSupported => none

/-- The native type of a new column. -/
def nativeType? (d : Dialect) (type : ValueType) : Option String :=
  (nativeNames? type).map (·.of d)

end SqlGateway.Dialect
