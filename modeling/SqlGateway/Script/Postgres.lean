import SqlGateway.Postgres.Driver
import SqlGateway.Script.Database

/-!
# Scripted PostgreSQL servers

A server that answers from scripts and writes down what reaches it: one script for prepared
statements, one for transaction statements and one for new connections. A script that has run out
answers with success and nothing else.

The server and what has reached it are in JSON.
-/
namespace SqlGateway.Postgres

/-- What a prepared statement comes to. -/
structure ScriptedStatement where
  /-- The declared parameters; text for each number that the statement names, if not given. -/
  parameters : Option (List PgType)
  columns : List (String × PgType)
  rows : List (List (Option (List UInt8)))
  affected : Nat
  failsToPrepare : Bool
  failsToRun : Bool
  deriving Repr

def ScriptedStatement.empty : ScriptedStatement := ⟨none, [], [], 0, false, false⟩

inductive Event where
  | connect
  | prepare (sql : String)
  | run (parameters : List Parameter)
  | batch (sql : String)
  deriving Repr

structure Scripted where
  statements : List ScriptedStatement
  /-- For each transaction statement whether it fails. -/
  batches : List Bool
  connects : List Bool
  prepared : ScriptedStatement
  /-- What has reached the server, the last first. -/
  events : List Event
  deriving Repr

/-- The greatest number that follows a dollar sign. -/
def highestMarker : List Char → Nat
  | [] => 0
  | c :: rest =>
    let here := if c = '$' then Number.digitsValue (rest.takeWhile Number.isDigit) else 0
    max here (highestMarker rest)

namespace Scripted

def serverError : String := "db error"

def note (e : Event) : ExceptT String (StateM Scripted) Unit :=
  modify fun s => { s with events := e :: s.events }

/-- The first entry of a script of failures. -/
def failsNext (script : List Bool) : Bool := script.head?.getD false

def connect : ExceptT String (StateM Scripted) Unit := do
  note .connect
  let s ← get
  set { s with connects := s.connects.drop 1 }
  if failsNext s.connects then throw serverError

def prepare (sql : String) : ExceptT String (StateM Scripted) Statement := do
  note (.prepare sql)
  let s ← get
  let next := s.statements.head?.getD .empty
  set { s with statements := s.statements.drop 1, prepared := next }
  if next.failsToPrepare then throw serverError
  let parameters := next.parameters.getD (List.replicate (highestMarker sql.toList) .text)
  return ⟨parameters, next.columns⟩

def run (parameters : List Parameter) : ExceptT String (StateM Scripted) Answer := do
  note (.run parameters)
  let current := (← get).prepared
  if current.failsToRun then throw serverError
  return ⟨current.rows, current.affected⟩

def batch (sql : String) : ExceptT String (StateM Scripted) Unit := do
  note (.batch sql)
  let s ← get
  set { s with batches := s.batches.drop 1 }
  if failsNext s.batches then throw serverError

def server : Server Scripted := ⟨connect, prepare, run, batch⟩

def new (statements : List ScriptedStatement) (batches connects : List Bool) : Scripted :=
  ⟨statements, batches, connects, .empty, []⟩

/-- What has reached the server, in order. -/
def log (s : Scripted) : List Event := s.events.reverse

end Scripted

open SqlGateway.Script

namespace Script

def cellOf (type : PgType) (j : Json) : Cell :=
  match type, j with
  | .json, v | .jsonb, v => .json v
  | .date, v => .date (date v)
  | .timestamp, v | .timestamptz, v => .dateTime (dateTime v)
  | .time, v => .time (time v)
  | .float4, .text s | .float8, .text s => .float (floatNamed s)
  | _, v => cell v

/-- The bytes of a value of a type, which may be given themselves. -/
def value (type : PgType) : Json → Option (List UInt8)
  | .null => none
  | .object [("hex", .text s)] => some (bytes s)
  | v => encode type (cellOf type v)

/-- The types of the columns of the metadata query. -/
def metadataTypes : List String :=
  ["text", "text", "text", "text", "bool", "bool", "bool", "text", "int8", "text", "bool", "int8",
    "int8", "int8", "text", "text", "text", "text"]

def prepared (j : Json) : ScriptedStatement :=
  let columns := (declaredColumns metadataTypes j).map fun c =>
    (c.getD 0 "", PgType.ofCatalogName (c.getD 1 ""))
  let rows := rowsOf columns (fun c => value c.2) j
  { parameters := (j.member? "param_types").map fun types =>
      (types.elements.filterMap (·.asText?)).map PgType.ofCatalogName
    columns
    rows
    affected := j.countOr "affected" rows.length
    failsToPrepare := j.has "error"
    failsToRun := j.has "run_error" }

def server (j : Json) : Scripted :=
  let failures (key : String) := (j.itemsAt key).map (·.has "error")
  .new ((j.itemsAt "script").map prepared) (failures "batches") (failures "connects")

def parameter : Parameter → Json
  | .null => .null
  | .bool b => .bool b
  | .int n => .int n
  | .float x => float x
  | .numeric x => .text x.text
  | .json v => v
  | .date d => .text d.text
  | .dateTime d | .moment d => .text (d.textWith " ")
  | .time t => .text t.text
  | .text s => .text s

def event : Event → Json
  | .connect => .ofTexts ["connect"]
  | .prepare sql => .list [.text "prepare", statement .postgres sql]
  | .run parameters => .list [.text "run", .list (parameters.map parameter)]
  | .batch sql => .ofTexts ["batch", sql]

def log (s : Scripted) : Json := .list (s.log.map event)

end Script

end SqlGateway.Postgres
