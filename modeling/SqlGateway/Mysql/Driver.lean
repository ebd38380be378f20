import SqlGateway.Connection.Driver
import SqlGateway.Dialect.Types
import SqlGateway.Mysql.Address
import SqlGateway.Mysql.Value
import SqlGateway.Text.Quoted

/-!
# The MySQL driver

A statement with as many values as it has parameters is answered with rows, or with how many rows it
changed and the first key it generated. The server is anything that answers statements.
-/
namespace SqlGateway.Mysql

open Connection (Driver DriverError Reply)

/-- A refusal of the server. -/
structure ServerError where
  code : Int
  state : String
  message : String
  deriving DecidableEq, Repr

def ServerError.text (e : ServerError) : String :=
  s!"Server error: `ERROR {e.state} ({e.code}): {e.message}'"

structure Answer where
  columns : List Column
  rows : List (List Value)
  affected : Nat
  lastId : Nat
  deriving Repr

/-- What a driver needs of a server. -/
structure Server (σ : Type) where
  connect : ExceptT ServerError (StateM σ) Unit
  /-- How many parameters a statement takes. -/
  parameterCount : String → Nat
  run : String → List Parameter → ExceptT ServerError (StateM σ) Answer
  batch : String → ExceptT ServerError (StateM σ) Unit

variable {σ α : Type}

/-- A call of the server in a driver. -/
def calling (call : ExceptT ServerError (StateM σ) α) : ExceptT DriverError (StateM σ) α :=
  ExceptT.mk do
    return (← call.run).mapError fun e => .mysql e.text

def replying (steps : ExceptT DriverError (StateM σ) α) : StateM σ (Reply α) := do
  return .now (← steps.run)

def connect (url : String) (server : Server σ) : ExceptT DriverError (StateM σ) Unit := do
  liftExcept ((checkAddress url).mapError fun e => DriverError.connection e.text)
  calling server.connect

def runStatement (server : Server σ) (sql : String) (values : List Json) :
    ExceptT DriverError (StateM σ) Answer := do
  let (expected, given) := (server.parameterCount sql, values.length)
  if expected ≠ given then
    throw (.mysql
      s!"Driver error: `Statement takes {expected} parameters but {given} was supplied.'")
  calling (server.run sql (values.map parameter))

/-- A generated key; zero is none, and neither is one beyond the signed integers. -/
def generatedKey? (n : Nat) : Option Int := if n = 0 || !Number.fitsInt64 n then none else some n

/-- What a statement did: nothing that is counted, if it answered with columns. -/
def effect (a : Answer) : ResultSet :=
  if a.columns.isEmpty then ⟨[], [], a.affected, generatedKey? a.lastId⟩ else .empty

def resultColumn (c : Column) : ResultColumn :=
  ⟨c.name, c.typeName, Dialect.mysql.valueType c.typeName⟩

def resultSet (a : Answer) : ResultSet :=
  if a.columns.isEmpty then effect a
  else
    ⟨a.columns.map resultColumn, a.rows.map (·.map Value.cell), a.rows.length, none⟩

def driver (url : String) (server : Server σ) : Driver σ where
  dialect := .mysql
  description := Text.described "MySqlDriver" [("url", Text.quoted url)]
  connect := replying (connect url server)
  query sql values := replying (return resultSet (← runStatement server sql values))
  execute sql values := replying (return effect (← runStatement server sql values))
  batch sql := replying (calling (server.batch sql))

end SqlGateway.Mysql
