import SqlGateway.Calendar
import SqlGateway.Json.Read
import SqlGateway.Json.Write
import SqlGateway.Schema.Column
import SqlGateway.Text.Character
import SqlGateway.Text.Utf8

/-!
# Cells

One value as a database hands it over, and the JSON value that a caller sees for it. What a cell
becomes depends on the type of its column: a number may arrive as text or as bytes, a document as
text, a truth value as an integer.
-/
namespace SqlGateway

open Number (Binary64)
open Schema (ValueType)

inductive Cell where
  | null
  | bool (b : Bool)
  | int (n : Int)
  | float (x : Binary64)
  | text (s : String)
  | bytes (bs : List UInt8)
  | json (v : Json)
  | date (d : Date)
  | dateTime (d : DateTime)
  /-- A moment in UTC. -/
  | moment (d : DateTime)
  | time (t : Time)
  deriving Repr, Inhabited

namespace Cell

/-- A numeral as a number, and any other text as it is. -/
def ofNumeral (s : String) : Json :=
  match Number.float? (Text.trimmed s.toList) with
  | some x => Json.ofFloat x
  | none => .text s

def ofText (s : String) : ValueType → Json
  | .json => (Json.read? s).getD (.text s)
  | .decimal | .float => ofNumeral s
  | _ => .text s

/-- Bytes of a binary column, and bytes that are no text, are written in base 64. -/
def ofBytes (bs : List UInt8) (type : ValueType) : Json :=
  match type with
  | .binary => .text (Text.base64 bs)
  | .json =>
    match (Text.decode? bs).bind Json.read? with
    | some v => v
    | none => .text (Text.decodeLossy bs)
  | _ =>
    match Text.decode? bs with
    | some s => if type.isNumeric then ofNumeral s else .text s
    | none => .text (Text.base64 bs)

/-- The JSON value of a cell in a column of a type. -/
def coerce (type : ValueType) : Cell → Json
  | .null => .null
  | .bool b => .bool b
  | .int n => if type = .boolean then .bool (n != 0) else .int n
  | .float x => Json.ofFloat x
  | .text s => ofText s type
  | .bytes bs => ofBytes bs type
  | .json v => v
  | .date d => .text d.text
  | .dateTime d => .text (if type = .date then d.date.text else d.clockText)
  | .moment d => .text (if type = .date then d.date.text else d.utcText)
  | .time t => .text t.clockText

end Cell

/-- The text of a value in flat output: nothing for null, a string as it is. -/
def Json.flatText : Json → String
  | .null => ""
  | .text s => s
  | other => other.compact

end SqlGateway
