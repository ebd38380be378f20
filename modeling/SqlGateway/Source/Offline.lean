import SqlGateway.Mysql.Driver
import SqlGateway.Postgres.Driver
import SqlGateway.Source.DataSource
import SqlGateway.Sqlite.Driver

/-!
# Data sources without a network

Databases in memory can be used anywhere; a server cannot be reached, so every connection to one
fails.
-/
namespace SqlGateway.Source

open Connection (Driver DriverError)

def unreachable : String := "error connecting to server"

def postgresServer : Postgres.Server Unit where
  connect := throw unreachable
  prepare _ := throw unreachable
  run _ := throw unreachable
  batch _ := throw unreachable

def refusal : Mysql.ServerError := ⟨2003, "HY000", unreachable⟩

def mysqlServer : Mysql.Server Unit where
  connect := throw refusal
  parameterCount _ := 0
  run _ _ := throw refusal
  batch _ := throw refusal

/-- The driver of a dialect where there is no network. -/
def offline : DriverFinder Unit := fun dialect url =>
  match dialect with
  | .postgres => .ok (Postgres.driver url postgresServer, ())
  | .mysql => .ok (Mysql.driver url mysqlServer, ())
  | .sqlite => .ok (Sqlite.driver url, ())
  | .mssql => .error (.unsupportedDialect dialect.name)

end SqlGateway.Source
