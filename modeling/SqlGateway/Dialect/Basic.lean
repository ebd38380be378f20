import SqlGateway.Error

/-!
# Dialects

The four database engines and the small differences in what they accept: quoted aliases, truth
values, transaction statements, parameter markers, and whether a write can answer with the rows it
touched.
-/
namespace SqlGateway

inductive Dialect where
  | postgres
  | mysql
  | mssql
  | sqlite
  deriving DecidableEq, Repr, Inhabited

namespace Dialect

def name : Dialect → String
  | .postgres => "postgres"
  | .mysql => "mysql"
  | .mssql => "mssql"
  | .sqlite => "sqlite"

def all : List Dialect := [.mssql, .mysql, .postgres, .sqlite]

/-- The names of the dialects in ascending order. -/
def names : List String := all.map name

def ofName (name : String) : Except Error Dialect :=
  match all.find? (·.name == name) with
  | some d => .ok d
  | none => .error (.invalid s!"unknown dialect `{name}`")

/-- How a write answers with the rows it touched. -/
inductive Returning where
  /-- A clause at the end of the statement. -/
  | suffixClause
  /-- A clause inside the statement that names the new or the old row. -/
  | outputClause
  | unsupported
  deriving DecidableEq, Repr

def returning : Dialect → Returning
  | .postgres | .sqlite => .suffixClause
  | .mssql => .outputClause
  | .mysql => .unsupported

/-- An alias as it stands in a select list. -/
def quoteAlias (d : Dialect) (label : String) : String :=
  match d with
  | .postgres | .sqlite => "\"" ++ label ++ "\""
  | .mysql => "`" ++ label ++ "`"
  | .mssql => "[" ++ label ++ "]"

def boolLiteral (d : Dialect) (b : Bool) : String :=
  match d with
  | .postgres | .mysql => if b then "true" else "false"
  | .mssql | .sqlite => if b then "1" else "0"

def beginStatement : Dialect → String
  | .postgres | .sqlite => "BEGIN"
  | .mysql => "START TRANSACTION"
  | .mssql => "BEGIN TRANSACTION"

def commitStatement (_ : Dialect) : String := "COMMIT"

def rollbackStatement (_ : Dialect) : String := "ROLLBACK"

/-- The marker of a parameter, counted from one. -/
def marker (d : Dialect) (n : Nat) : String :=
  match d with
  | .postgres => s!"${n}"
  | _ => "?"

/-- The markers of one row whose first parameter has a number. -/
def markerRow (d : Dialect) (first columns : Nat) : String :=
  "(" ++ ", ".intercalate ((List.range columns).map fun c => d.marker (first + c)) ++ ")"

/-- The markers of a batch, numbered row by row. -/
def markerRows (d : Dialect) (rows columns : Nat) : String :=
  ", ".intercalate ((List.range rows).map fun r => d.markerRow (r * columns + 1) columns)

end Dialect

end SqlGateway
