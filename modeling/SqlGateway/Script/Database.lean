import SqlGateway.Connection.Scripted
import SqlGateway.Dialect.Introspection
import SqlGateway.Json.Record
import SqlGateway.Number.Layout
import SqlGateway.ResultSet
import SqlGateway.Text.Utf8

/-!
# Scripts of databases

Scripts stand in for the databases that the gateway talks to, so that it can be run where there are
none; it has no part in them itself. They are written in JSON. The values that JSON has no form for
stand there as bytes in hexadecimal digits, as lists of the parts of dates and times, and as the
names of the floating-point numbers that are not finite. A script tells what a database answers, and
gives back the calls it has seen.

The scripts of servers give columns and rows in JSON. An answer to the metadata query gives only its
rows.
-/
namespace SqlGateway.Script

open Number

def ofHex : List Char → List UInt8
  | a :: b :: rest =>
    UInt8.ofNat ((Json.hexValue? a).getD 0 * 16 + (Json.hexValue? b).getD 0) :: ofHex rest
  | _ => []

def bytes (s : String) : List UInt8 := ofHex s.toList

def hexText (bs : List UInt8) : String :=
  String.ofList (bs.flatMap fun b => [Nat.digitChar (b.toNat / 16), Nat.digitChar (b.toNat % 16)])

def counts (j : Json) : List Nat := j.elements.map fun
  | .int n => n.toNat
  | _ => 0

/-- Year, month and day; a part that is missing is one. -/
def date (j : Json) : Date :=
  match j.elements with
  | .int year :: rest => ⟨year, (counts (.list rest)).getD 0 1, (counts (.list rest)).getD 1 1⟩
  | _ => ⟨0, 1, 1⟩

/-- Hour, minute, second and nanosecond; a part that is missing is zero. -/
def timeOf (parts : List Nat) : Time :=
  ⟨parts.getD 0 0, parts.getD 1 0, parts.getD 2 0, parts.getD 3 0⟩

def time (j : Json) : Time := timeOf (counts j)

def dateTime (j : Json) : DateTime := ⟨date j, timeOf ((counts j).drop 3)⟩

def floatNamed (s : String) : Binary64 := (float? s.toList).getD .nan

/-- A cell, the kinds beyond JSON as objects with the kind as their key. -/
def cell : Json → Cell
  | .bool b => .bool b
  | .int n => if fitsInt64 n then .int n else .float (.ofInt n)
  | .float x => .float x
  | .text s => .text s
  | .object [("bytes", .text s)] => .bytes (bytes s)
  | .object [("json", v)] => .json v
  | .object [("date", v)] => .date (date v)
  | .object [("datetime", v)] => .dateTime (dateTime v)
  | .object [("datetimetz", v)] => .moment (dateTime v)
  | .object [("time", v)] => .time (time v)
  | .object [(_, .text s)] => .float (floatNamed s)
  | _ => .null

def valueType (j : Json) : Schema.ValueType :=
  (j.asText?.bind Schema.ValueType.ofStoredName?).getD .text

def column (j : Json) : ResultColumn :=
  match j.elements with
  | [.text name, type] => ⟨name, "", valueType type⟩
  | _ => ⟨"", "", .text⟩

def resultSet (j : Json) : ResultSet :=
  let rows := (j.itemsAt "rows").map fun row => row.elements.map cell
  ⟨(j.itemsAt "columns").map column, rows, j.countOr "affected" rows.length, j.integerAt? "last_id"⟩

/-- A floating-point number in a log. -/
def float (x : Binary64) : Json :=
  if x.isFinite then .float x
  else .text (match x with | .nan => "nan" | _ => Layout.json.write x)

/-- The rows of an answer, each cell read for its column; missing cells are null. -/
def rowsOf (columns : List α) (read : α → Json → β) (j : Json) : List (List β) :=
  (j.itemsAt "rows" ++ j.itemsAt "metadata").map fun row =>
    columns.mapIdx fun i column => read column (row.elements.getD i .null)

/-- The columns of an answer as lists of name, type and flags. Those of the metadata query have
given types. -/
def declaredColumns (metadataTypes : List String) (j : Json) : List (List String) :=
  if j.has "metadata" then
    (Dialect.metadataColumns.zip metadataTypes).map fun (name, type) => [name, type]
  else (j.itemsAt "columns").map fun column => column.elements.filterMap (·.asText?)

/-- A statement in a log; the long one that reads the tables goes by a name. -/
def statement (dialect : Dialect) (sql : String) : Json :=
  .text (if sql = dialect.metadataQuery then "<metadata query>" else sql)

end SqlGateway.Script

namespace SqlGateway.Connection

open SqlGateway.Script

namespace Script

def driverError (j : Json) : DriverError :=
  let what := j.textOr "message" "boom"
  match j.textOr "kind" "task" with
  | "connection" => .connection what
  | "parameter" => .parameter what
  | "unsupported" => .unsupportedDialect what
  | _ => .task what

/-- The columns of an answer that gives only their types, under names from outside. -/
def typedColumns (names : List String) (types : Json) : List ResultColumn :=
  (names.zip types.elements).map fun (name, type) => ⟨name, "", valueType type⟩

def answer (names : List String) (j : Json) : ScriptedAnswer :=
  if j.flagAt "hang" then .hanging
  else
    match j.member? "error", j.member? "types" with
    | some e, _ => .failure (driverError e)
    | none, some types => .rows { resultSet j with columns := typedColumns names types }
    | none, none => .rows (resultSet j)

/-- A scripted database. The names are for answers that give only the types of their columns. -/
def database (names : List String) (j : Json) : Scripted :=
  let script (key : String) := (j.itemsAt key).map (answer names)
  ⟨script "script", script "batches", script "connects", []⟩

def call : ScriptedCall → Json
  | .connect => .ofTexts ["connect"]
  | .query sql parameters => .list [.text "query", .text sql, .list parameters]
  | .execute sql parameters => .list [.text "execute", .text sql, .list parameters]
  | .batch sql => .ofTexts ["batch", sql]

def calls (s : Scripted) : Json := .list (s.log.map call)

end Script

end SqlGateway.Connection
