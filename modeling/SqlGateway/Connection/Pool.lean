import SqlGateway.Connection.Driver
import SqlGateway.Text.Quoted

/-!
# Connection pools

A pool gives out at most a fixed number of connections at a time and keeps some of those that come
back. The oldest of the kept ones is given out first; one that has lived too long, or that has
failed, is not used again. Time is counted by the pool's own clock, which moves while somebody
waits. What the pool was asked for and what it got back is on record.
-/
namespace SqlGateway.Connection

structure PoolLimits where
  /-- How many connections may be out at a time; none counts as one. -/
  maxOpen : Nat
  /-- How many returned connections are kept. -/
  maxIdle : Nat
  maxLifetime : Duration
  /-- How long to wait for a connection. -/
  acquireTimeout : Duration
  deriving DecidableEq, Repr

/-- A connection that has been given out. -/
structure Lease where
  /-- The moment at which the connection was opened. -/
  opened : Duration
  broken : Bool
  deriving DecidableEq, Repr

def Lease.asBroken (l : Lease) : Lease := { l with broken := true }

/-- What happens between a pool and those who use it. -/
inductive Dealing where
  /-- A connection was asked for and given out. -/
  | given
  /-- All connections were out, and the wait for one was in vain. -/
  | exhausted
  /-- No connection could be opened. -/
  | unopened
  | returned
  deriving DecidableEq, Repr

structure Pool (σ : Type) where
  driver : Driver σ
  limits : PoolLimits
  /-- How many more connections may be given out. -/
  available : Nat
  /-- The opening moments of the kept connections, the next to be given out first. -/
  idle : List Duration
  clock : Duration
  server : σ
  /-- What has happened so far, the first first. -/
  dealings : List Dealing

namespace Pool

variable {σ : Type}

def new (driver : Driver σ) (limits : PoolLimits) (server : σ) : Pool σ :=
  ⟨driver, limits, max limits.maxOpen 1, [], ⟨0⟩, server, []⟩

def noting (p : Pool σ) (d : Dealing) : Pool σ := { p with dealings := p.dealings ++ [d] }

def afterWaiting (p : Pool σ) (d : Duration) : Pool σ :=
  { p with clock := ⟨p.clock.nanoseconds + d.nanoseconds⟩ }

/-- Whether a connection opened at a moment may still be used. -/
def isFresh (p : Pool σ) (opened : Duration) : Bool :=
  p.clock.nanoseconds - opened.nanoseconds < p.limits.maxLifetime.nanoseconds

/-- The pool without a connection of its allowance, and with given connections kept. -/
def lending (p : Pool σ) (idle : List Duration) : Pool σ :=
  { p.noting .given with available := p.available - 1, idle }

def exhausted (p : Pool σ) : Error := .connectionUnavailable
  s!"no {p.driver.dialect.name} connection available after {p.limits.acquireTimeout.text}"

def description (p : Pool σ) : String :=
  Text.described "Pool" [("driver", p.driver.description), ("available", toString p.available),
    ("idle", toString p.idle.length)]

/-- A new connection, from a pool that has none to reuse. -/
def open_ (p : Pool σ) : Except Error Lease × Pool σ :=
  let (reply, server) := p.driver.connect.run p.server
  let p := { p with server, idle := [] }
  if p.limits.acquireTimeout.nanoseconds < reply.delay.nanoseconds then
    (.error (.connectionUnavailable s!"timed out connecting to {p.driver.dialect.name}"),
      (p.noting .unopened).afterWaiting p.limits.acquireTimeout)
  else
    let p := p.afterWaiting reply.delay
    match reply.result with
    | .ok _ => (.ok ⟨p.clock, false⟩, p.lending [])
    | .error e => (.error (.connectionUnavailable e.text), p.noting .unopened)

/-- A connection: a kept one if one is fresh, else a new one. When none may be given out, the wait
for one is in vain, because nobody returns one meanwhile. -/
def acquire (p : Pool σ) : Except Error Lease × Pool σ :=
  if p.available = 0 then
    (.error p.exhausted, (p.noting .exhausted).afterWaiting p.limits.acquireTimeout)
  else
    match p.idle.dropWhile (!p.isFresh ·) with
    | opened :: rest => (.ok ⟨opened, false⟩, p.lending rest)
    | [] => p.open_

/-- The pool after a connection has come back. -/
def release (l : Lease) (p : Pool σ) : Pool σ :=
  let p := { p.noting .returned with available := p.available + 1 }
  if l.broken || !p.isFresh l.opened || p.limits.maxIdle ≤ p.idle.length then p
  else { p with idle := p.idle ++ [l.opened] }

end Pool

end SqlGateway.Connection
