import SqlGateway.Dialect.Basic
import SqlGateway.ResultSet

/-!
# Drivers

A driver speaks to one database. What the database and the way to it are is the state `σ`; a call
changes it and comes back after a while, with a result or with the driver's own error. Nothing here
decides how long a caller waits.
-/
namespace SqlGateway.Connection

/-- What goes wrong between a driver and its database. -/
inductive DriverError where
  | connection (what : String)
  /-- A parameter that cannot be sent. -/
  | parameter (what : String)
  /-- A call that ended without an answer. -/
  | task (what : String)
  | unsupportedDialect (name : String)
  | sqlite (what : String)
  | postgres (what : String)
  | mysql (what : String)
  | io (what : String)
  deriving DecidableEq, Repr, Inhabited

namespace DriverError

def text : DriverError → String
  | .connection what => s!"Connection error: {what}"
  | .parameter what => s!"Parameter error: {what}"
  | .task what => s!"Driver task failed: {what}"
  | .unsupportedDialect name => s!"No driver available for dialect `{name}`"
  | .sqlite what => s!"SQLite error: {what}"
  | .postgres what => s!"Postgres error: {what}"
  | .mysql what => s!"MySQL error: {what}"
  | .io what => s!"I/O error: {what}"

/-- The error of the request, for a statement that belongs to a document. -/
def toError (document : Nat) : DriverError → Error
  | .unsupportedDialect name => .notImplemented s!"driver for dialect `{name}`"
  | .connection what => .connectionUnavailable what
  | other => .database document other.text

end DriverError

structure Reply (α : Type) where
  /-- The time from the call to the result. -/
  delay : Duration
  result : Except DriverError α

namespace Reply

/-- A reply that takes no time. -/
def now (result : Except DriverError α) : Reply α := ⟨⟨0⟩, result⟩

end Reply

structure Driver (σ : Type) where
  dialect : Dialect
  /-- What the driver is and where its database is, for a reader. -/
  description : String
  connect : StateM σ (Reply Unit)
  /-- Runs a statement and reads its rows. -/
  query : String → List Json → StateM σ (Reply ResultSet)
  /-- Runs a statement for its effect. -/
  execute : String → List Json → StateM σ (Reply ResultSet)
  /-- Runs text without parameters and without an answer. -/
  batch : String → StateM σ (Reply Unit)

namespace Driver

variable {σ τ α : Type}

/-- A call on a state inside another; without it the call has nobody to answer it. -/
def callWithin (enter : τ → Option σ) (leave : σ → τ) (call : StateM σ (Reply α)) :
    StateM τ (Reply α) := fun outer =>
  match enter outer with
  | some inner =>
    let (reply, inner) := call.run inner
    (reply, leave inner)
  | none => (.now (.error (.task "no database")), outer)

/-- A driver whose state is part of another. -/
def within (enter : τ → Option σ) (leave : σ → τ) (d : Driver σ) : Driver τ where
  dialect := d.dialect
  description := d.description
  connect := callWithin enter leave d.connect
  query sql parameters := callWithin enter leave (d.query sql parameters)
  execute sql parameters := callWithin enter leave (d.execute sql parameters)
  batch sql := callWithin enter leave (d.batch sql)

end Driver

end SqlGateway.Connection
