import SqlGateway.Connection.Pool

/-!
# Sessions

A session holds one connection of a pool and runs statements on it, each within a limit of time, and
at most one transaction. A statement that fails or takes too long spoils the connection, and so does
a session that ends with its transaction open. The session does not have the pool itself, so no step
on it can ask for another connection; time and database are the pool's again when the session ends.
-/
namespace SqlGateway.Connection

structure Session (σ : Type) where
  driver : Driver σ
  clock : Duration
  server : σ
  lease : Lease
  timeout : Duration
  inTransaction : Bool

/-- A step on a session. Its changes stay when it fails. -/
abbrev SessionM (σ : Type) := ExceptT Error (StateM (Session σ))

namespace Session

variable {σ α : Type}

/-- A session on a connection of the pool. -/
def start (timeout : Duration) (p : Pool σ) : Except Error (Session σ) × Pool σ :=
  match p.acquire with
  | (.ok lease, p) => (.ok ⟨p.driver, p.clock, p.server, lease, timeout, false⟩, p)
  | (.error e, p) => (.error e, p)

/-- The pool after a session on one of its connections. -/
def finish (s : Session σ) (p : Pool σ) : Pool σ :=
  { p with clock := s.clock, server := s.server }.release
    (if s.inTransaction then s.lease.asBroken else s.lease)

def dialect (s : Session σ) : Dialect := s.driver.dialect

def asBroken (s : Session σ) : Session σ := { s with lease := s.lease.asBroken }

def afterWaiting (s : Session σ) (d : Duration) : Session σ :=
  { s with clock := ⟨s.clock.nanoseconds + d.nanoseconds⟩ }

/-- Calls the driver and waits for the result as long as the session may. -/
def call (document : Nat) (f : Driver σ → StateM σ (Reply α)) : SessionM σ α :=
  ExceptT.mk fun s =>
    let (reply, server) := (f s.driver).run s.server
    let s := { s with server }
    if s.timeout.nanoseconds < reply.delay.nanoseconds then
      (.error (.timeout s.timeout), (s.afterWaiting s.timeout).asBroken)
    else
      match reply.result with
      | .ok v => (.ok v, s.afterWaiting reply.delay)
      | .error e => (.error (e.toError document), (s.afterWaiting reply.delay).asBroken)

def query (sql : String) (parameters : List Json) (document : Nat) : SessionM σ ResultSet :=
  call document (·.query sql parameters)

def execute (sql : String) (parameters : List Json) (document : Nat) : SessionM σ ResultSet :=
  call document (·.execute sql parameters)

def batch (sql : String) (document : Nat) : SessionM σ Unit := call document (·.batch sql)

def setInTransaction (b : Bool) : SessionM σ Unit :=
  modify fun s => { s with inTransaction := b }

def begin_ : SessionM σ Unit := do
  let s ← get
  if s.inTransaction then throw (.invalid "transaction already open on this connection")
  batch s.dialect.beginStatement 0
  setInTransaction true

/-- Ends the transaction, if one is open, without its changes. It counts as ended even if the
database does not answer. -/
def rollback : SessionM σ Unit := do
  let s ← get
  if s.inTransaction then
    setInTransaction false
    batch s.dialect.rollbackStatement 0

/-- A rollback whose own failure does not matter. -/
def abandon : SessionM σ Unit := tryCatch rollback fun _ => pure ()

/-- Ends the transaction, if one is open, and keeps its changes. If that fails it is rolled back. -/
def commit (document : Nat) : SessionM σ Unit := do
  let s ← get
  if s.inTransaction then
    tryCatch
      (do
        batch s.dialect.commitStatement document
        setInTransaction false)
      (fun e => do
        abandon
        throw e)

end Session

end SqlGateway.Connection
