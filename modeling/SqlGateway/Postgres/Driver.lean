import SqlGateway.Connection.Driver
import SqlGateway.Dialect.Types
import SqlGateway.Postgres.Wire
import SqlGateway.Text.Quoted

/-!
# The PostgreSQL driver

A statement is prepared first; the server then says which types its parameters and columns have. The
server is anything that prepares and runs statements.
-/
namespace SqlGateway.Postgres

open Connection (Driver DriverError Reply)

/-- What the server says of a prepared statement. -/
structure Statement where
  parameters : List PgType
  columns : List (String × PgType)
  deriving Repr

structure Answer where
  /-- The values of each row in bytes. -/
  rows : List (List (Option (List UInt8)))
  affected : Nat
  deriving Repr

/-- What a driver needs of a server. A call that fails says why. -/
structure Server (σ : Type) where
  connect : ExceptT String (StateM σ) Unit
  /-- Prepares a statement, which is then the one to run. -/
  prepare : String → ExceptT String (StateM σ) Statement
  run : List Parameter → ExceptT String (StateM σ) Answer
  batch : String → ExceptT String (StateM σ) Unit

variable {σ α : Type}

/-- A call of the server in a driver. -/
def calling (call : ExceptT String (StateM σ) α) : ExceptT DriverError (StateM σ) α :=
  ExceptT.mk do
    return (← call.run).mapError .postgres

def replying (steps : ExceptT DriverError (StateM σ) α) : StateM σ (Reply α) := do
  return .now (← steps.run)

/-- The parameters for a prepared statement. -/
def boundTo (statement : Statement) (values : List Json) : Except DriverError (List Parameter) :=
  let (expected, given) := (statement.parameters.length, values.length)
  if expected ≠ given then
    .error (.parameter s!"statement expects {expected} parameters, got {given}")
  else
    (parameters 0 (statement.parameters.zip values)).mapError fun place =>
      .postgres s!"error serializing parameter {place}"

/-- Prepares and runs a statement. -/
def runStatement (server : Server σ) (sql : String) (values : List Json) :
    ExceptT DriverError (StateM σ) (Statement × Answer) := do
  let statement ← calling (server.prepare sql)
  let bound ← liftExcept (boundTo statement values)
  return (statement, ← calling (server.run bound))

/-- The cells of a row, column by column. -/
def cells (row : List (Option (List UInt8))) :
    (place : Nat) → List (String × PgType) → Except DriverError (List Cell)
  | _, [] => .ok []
  | place, (_, type) :: rest => do
    let cell ←
      match row.getD place none with
      | none => pure Cell.null
      | some bytes =>
        match decode? type bytes with
        | some c => pure c
        | none => throw (.postgres s!"error deserializing column {place}")
    return cell :: (← cells row (place + 1) rest)

def resultColumn (column : String × PgType) : ResultColumn :=
  let native := column.2.catalogName
  ⟨column.1, native, Dialect.postgres.valueType native⟩

def driver (url : String) (server : Server σ) : Driver σ where
  dialect := .postgres
  description := Text.described "PostgresDriver" [("url", Text.quoted url)]
  connect := replying (calling server.connect)
  query sql values := replying do
    let (statement, answer) ← runStatement server sql values
    let rows ← liftExcept (answer.rows.mapM fun row => cells row 0 statement.columns)
    return ⟨statement.columns.map resultColumn, rows, rows.length, none⟩
  execute sql values := replying do
    let (_, answer) ← runStatement server sql values
    return { ResultSet.empty with affected := answer.affected }
  batch sql := replying (calling (server.batch sql))

end SqlGateway.Postgres
