import SqlGateway.Script.Mysql
import SqlGateway.Script.Postgres
import SqlGateway.Source.DataSource
import SqlGateway.Sqlite.Driver

/-!
# Scripts of backends

The scripted database behind a data source, told by the dialect of the source.

The databases behind the data sources of one catalog may be of whatever engine. There is no driver
for SQL Server.
-/

namespace SqlGateway

open Connection (Driver DriverError)

inductive Backend where
  | postgres (server : Postgres.Scripted)
  | mysql (server : Mysql.Scripted)
  | sqlite

namespace Backend

def postgres? : Backend → Option Postgres.Scripted
  | postgres server => some server
  | _ => none

def mysql? : Backend → Option Mysql.Scripted
  | mysql server => some server
  | _ => none

/-- The driver of a dialect for the address of a database. -/
def driver (dialect : Dialect) (url : String) : Except DriverError (Driver Backend) :=
  match dialect with
  | .postgres => .ok ((Postgres.driver url Postgres.Scripted.server).within postgres? postgres)
  | .mysql => .ok ((Mysql.driver url Mysql.Scripted.server).within mysql? mysql)
  | .sqlite => .ok (Sqlite.driver url)
  | .mssql => .error (.unsupportedDialect dialect.name)

/-- The driver of a dialect by the dialect's name. -/
def driverNamed (dialect url : String) : Except DriverError (Driver Backend) :=
  match Dialect.ofName dialect with
  | .ok d => driver d url
  | .error _ => .error (.unsupportedDialect dialect)

/-- Finds the driver of a dialect and sets it on a backend. -/
def finder (b : Backend) : DriverFinder Backend := fun dialect url =>
  return (← driver dialect url, b)

end Backend

end SqlGateway

namespace SqlGateway.Backend

def ofScript (j : Json) : Backend :=
  match j.textAt "dialect" with
  | "mysql" => .mysql (Mysql.Script.server j)
  | "sqlite" => .sqlite
  | _ => .postgres (Postgres.Script.server j)

/-- What has reached a backend; a database in memory keeps no log. -/
def log : Backend → Json
  | .postgres s => Postgres.Script.log s
  | .mysql s => Mysql.Script.log s
  | .sqlite => .list []

end SqlGateway.Backend
