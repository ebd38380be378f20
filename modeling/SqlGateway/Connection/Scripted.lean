import SqlGateway.Connection.Driver

/-!
# Scripted databases

A database that answers from scripts and writes down what it is asked: one script for statements,
one for transaction statements and one for new connections. A script that has run out answers every
further call with success and no rows.
-/
namespace SqlGateway.Connection

inductive ScriptedAnswer where
  | rows (r : ResultSet)
  | failure (e : DriverError)
  /-- The answer comes long after anybody waits for it. -/
  | hanging
  deriving Repr

inductive ScriptedCall where
  | connect
  | query (sql : String) (parameters : List Json)
  | execute (sql : String) (parameters : List Json)
  | batch (sql : String)
  deriving Repr

structure Scripted where
  statements : List ScriptedAnswer
  batches : List ScriptedAnswer
  connects : List ScriptedAnswer
  /-- The calls so far, the last one first. -/
  calls : List ScriptedCall
  deriving Repr

namespace ScriptedAnswer

/-- How long a hanging call takes. -/
def longWait : Duration := .ofSeconds 1000000

def reply : ScriptedAnswer → Reply ResultSet
  | rows r => .now (.ok r)
  | failure e => .now (.error e)
  | hanging => ⟨longWait, .ok .empty⟩

/-- The first answer of a script and the rest of it. -/
def next : List ScriptedAnswer → ScriptedAnswer × List ScriptedAnswer
  | [] => (rows .empty, [])
  | a :: rest => (a, rest)

end ScriptedAnswer

namespace Scripted

open ScriptedAnswer (next)

def noting (c : ScriptedCall) (s : Scripted) : Scripted := { s with calls := c :: s.calls }

/-- A statement: the next answer of the script of statements. -/
def statement (c : ScriptedCall) : StateM Scripted (Reply ResultSet) := fun s =>
  let (answer, rest) := next s.statements
  (answer.reply, { s.noting c with statements := rest })

/-- A reply of which only the success matters. -/
def withoutRows (r : Reply ResultSet) : Reply Unit := ⟨r.delay, r.result.map fun _ => ()⟩

def driver (dialect : Dialect) : Driver Scripted where
  dialect := dialect
  description := "Scripted"
  connect := fun s =>
    let (answer, rest) := next s.connects
    (withoutRows answer.reply, { s.noting .connect with connects := rest })
  query sql parameters := statement (.query sql parameters)
  execute sql parameters := statement (.execute sql parameters)
  batch sql := fun s =>
    let (answer, rest) := next s.batches
    (withoutRows answer.reply, { s.noting (.batch sql) with batches := rest })

/-- The calls in the order in which they were made. -/
def log (s : Scripted) : List ScriptedCall := s.calls.reverse

end Scripted

end SqlGateway.Connection
