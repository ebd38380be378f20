import SqlGateway.Mysql.Driver
import SqlGateway.Script.Database

/-!
# Scripted MySQL servers

A server that answers from scripts and writes down what reaches it: one script for statements, one
for transaction statements and one for new connections. A script that has run out answers with
success and nothing else.

The server and what has reached it are in JSON. Columns go by the names of the protocol's types.
-/
namespace SqlGateway.Mysql

inductive Event where
  | connect
  | run (sql : String) (parameters : List Parameter)
  | batch (sql : String)
  deriving Repr

structure Scripted where
  statements : List (Except ServerError Answer)
  /-- For each transaction statement how it fails, if it does. -/
  batches : List (Option ServerError)
  connects : List (Option ServerError)
  /-- What has reached the server, the last first. -/
  events : List Event

/-- The parameter markers outside of quotes; `quote` is the quote that is open. -/
def countMarkers (quote : Option Char) : List Char → Nat
  | [] => 0
  | c :: rest =>
    match quote with
    | some q => countMarkers (if c = q then none else quote) rest
    | none =>
      if c = '?' then countMarkers none rest + 1
      else if c = '\'' ∨ c = '"' ∨ c.toNat = 0x60 then countMarkers (some c) rest
      else countMarkers none rest

namespace Scripted

def note (e : Event) : ExceptT ServerError (StateM Scripted) Unit :=
  modify fun s => { s with events := e :: s.events }

/-- Fails as the first entry of a script of failures says. -/
def failNext (script : List (Option ServerError)) : ExceptT ServerError (StateM Scripted) Unit :=
  match script.head?.join with
  | some e => throw e
  | none => return ()

def connect : ExceptT ServerError (StateM Scripted) Unit := do
  note .connect
  let s ← get
  set { s with connects := s.connects.drop 1 }
  failNext s.connects

def run (sql : String) (parameters : List Parameter) :
    ExceptT ServerError (StateM Scripted) Answer := do
  note (.run sql parameters)
  let s ← get
  set { s with statements := s.statements.drop 1 }
  liftExcept (s.statements.head?.getD (.ok ⟨[], [], 0, 0⟩))

def batch (sql : String) : ExceptT ServerError (StateM Scripted) Unit := do
  note (.batch sql)
  let s ← get
  set { s with batches := s.batches.drop 1 }
  failNext s.batches

def server : Server Scripted := ⟨connect, fun sql => countMarkers none sql.toList, run, batch⟩

/-- What has reached the server, in order. -/
def log (s : Scripted) : List Event := s.events.reverse

end Scripted

open SqlGateway.Script

namespace Script

def kind : String → ColumnKind
  | "tiny" => .tiny
  | "short" => .short
  | "int24" => .int24
  | "long" => .long
  | "longlong" => .longlong
  | "year" => .year
  | "float" => .float
  | "double" => .double
  | "decimal" | "newdecimal" => .decimal
  | "varchar" | "var_string" | "string" => .string
  | "enum" => .enumeration
  | "set" => .set
  | "bit" => .bit
  | "date" => .date
  | "datetime" => .datetime
  | "timestamp" => .timestamp
  | "time" => .time
  | "json" => .json
  | "tiny_blob" | "medium_blob" | "long_blob" | "blob" => .blob
  | _ => .other

def integer : Json → Int
  | .int n => n
  | .bool true => 1
  | _ => 0

def number (j : Json) : Number.Binary64 := j.asFloat?.getD .nan

def isNegative (j : Json) : Bool :=
  match j.elements with
  | .bool b :: _ => b
  | _ => false

/-- A value of a column, from its parts where it has parts. -/
def value (kind : ColumnKind) (isUnsigned : Bool) (j : Json) : Value :=
  let part (i : Nat) := (counts j).getD i 0
  match kind, j with
  | _, .null => .null
  | .tiny, v | .short, v | .int24, v | .long, v | .longlong, v | .year, v =>
    kind.integer isUnsigned (integer v)
  | .float, v => .double (number v).toSingle
  | .double, v => .double (number v)
  | .date, _ | .datetime, _ | .timestamp, _ =>
    .date (part 0) (part 1) (part 2) (part 3) (part 4) (part 5) (part 6)
  | .time, v => .time (isNegative v) (part 1) (part 2) (part 3) (part 4) (part 5)
  | _, .text s => .bytes (Text.encode s)
  | _, v => .bytes (bytes (v.textAt "hex"))

def failure? (j : Json) : Option ServerError := (j.member? "error").map fun e =>
  ⟨e.integerOr "code" 1105, e.textOr "state" "HY000", e.textOr "message" "boom"⟩

/-- The types of the columns of the metadata query, if an answer gives none. -/
def metadataTypes : List String :=
  ["var_string", "var_string", "var_string", "var_string", "longlong", "longlong", "var_string",
    "var_string", "longlong", "var_string", "longlong", "longlong", "longlong", "longlong",
    "var_string", "var_string", "var_string", "var_string"]

def answer (j : Json) : Except ServerError Answer :=
  match failure? j with
  | some e => .error e
  | none =>
    let types := if j.has "metadata_types" then j.textsAt "metadata_types" else metadataTypes
    let columns := declaredColumns types j
    let read (c : List String) := value (kind (c.getD 1 "")) (c.contains "unsigned")
    .ok {
      columns := columns.map fun c => ⟨c.getD 0 "", kind (c.getD 1 ""), c.contains "binary"⟩
      rows := rowsOf columns read j
      affected := j.countAt "affected"
      lastId := j.countAt "last_id" }

def server (j : Json) : Scripted :=
  let failures (key : String) := (j.itemsAt key).map failure?
  ⟨(j.itemsAt "script").map answer, failures "batches", failures "connects", []⟩

def parameter : Parameter → Json
  | .null => .ofTexts ["null"]
  | .int n => .list [.text "int", .int n]
  | .unsigned n => .list [.text "uint", .int n]
  | .double x => .list [.text "double", float x]
  | .bytes s => .ofTexts ["bytes", s]

def event : Event → Json
  | .connect => .ofTexts ["connect"]
  | .run sql parameters =>
    .list [.text "run", statement .mysql sql, .list (parameters.map parameter)]
  | .batch sql => .ofTexts ["batch", sql]

def log (s : Scripted) : Json := .list (s.log.map event)

end Script

end SqlGateway.Mysql
