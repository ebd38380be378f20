import SqlGateway.Calendar
import SqlGateway.Cell
import SqlGateway.Number.Numeric

/-!
# PostgreSQL values in bytes

The types that have a form of their own in bytes; a value of any other type is its bytes. Dates and
times count from the first of January 2000.

A statement declares the types of its parameters, and a JSON value is turned into a value of that
type before it is sent. Numbers for integer types are cut off and clamped to the range of the type.
-/
namespace SqlGateway.Postgres

open Number

inductive PgType where
  | bool
  | int2
  | int4
  | int8
  | float4
  | float8
  | numeric
  | json
  | jsonb
  | date
  | timestamp
  | timestamptz
  | time
  | text
  | varchar
  | bpchar
  | name
  | bytea
  | other (name : String)
  deriving DecidableEq, Repr

namespace PgType

/-- The name of the type in the catalog of the database. -/
def catalogName : PgType → String
  | bool => "bool"
  | int2 => "int2"
  | int4 => "int4"
  | int8 => "int8"
  | float4 => "float4"
  | float8 => "float8"
  | numeric => "numeric"
  | json => "json"
  | jsonb => "jsonb"
  | date => "date"
  | timestamp => "timestamp"
  | timestamptz => "timestamptz"
  | time => "time"
  | text => "text"
  | varchar => "varchar"
  | bpchar => "bpchar"
  | name => "name"
  | bytea => "bytea"
  | other n => n

/-- The types with a form of their own. -/
def known : List PgType :=
  [bool, int2, int4, int8, float4, float8, numeric, json, jsonb, date, timestamp, timestamptz, time,
    text, varchar, bpchar, name, bytea]

def ofCatalogName (n : String) : PgType := (known.find? (·.catalogName == n)).getD (other n)

end PgType

/-- The value of a JSON text in bytes. -/
def jsonOfBytes? (bytes : List UInt8) : Option Json := (Text.decode? bytes).bind Json.read?

/-- An integer that fills its bytes. -/
def integer? (count : Nat) (bytes : List UInt8) : Option Int :=
  if bytes.length = count then some (intOfBytes bytes) else none

/-- A date and time within the years that are counted. -/
def dateTime? (bytes : List UInt8) : Option DateTime :=
  ((integer? 8 bytes).map DateTime.ofMicroseconds).filter
    fun d => Calendar.isCountedYear d.date.year

def date? (bytes : List UInt8) : Option Date :=
  ((integer? 4 bytes).map fun n => Date.ofDayNumber (n + Date.dayNumber ⟨2000, 1, 1⟩)).filter
    fun d => Calendar.isCountedYear d.year

/-- The cell in given bytes of a type; malformed bytes give none. -/
def decode? (type : PgType) (bytes : List UInt8) : Option Cell :=
  match type with
  | .bool => if bytes.length = 1 then some (.bool (bytes != [0])) else none
  | .int2 => (integer? 2 bytes).map .int
  | .int4 => (integer? 4 bytes).map .int
  | .int8 => (integer? 8 bytes).map .int
  | .float4 => if bytes.length = 4 then some (.float (.ofSingleBytes bytes)) else none
  | .float8 => if bytes.length = 8 then some (.float (.ofBytes bytes)) else none
  | .numeric => (Numeric.ofBytes? bytes).map fun x => .text x.text
  | .json => (jsonOfBytes? bytes).map .json
  | .jsonb =>
    match bytes with
    | 1 :: rest => (jsonOfBytes? rest).map .json
    | _ => none
  | .date => (date? bytes).map .date
  | .timestamp => (dateTime? bytes).map .dateTime
  | .timestamptz => (dateTime? bytes).map .moment
  | .time => (integer? 8 bytes).map fun n => .time (Time.ofMicroseconds n)
  | .text | .varchar | .bpchar | .name => (Text.decode? bytes).map .text
  | .bytea | .other _ => some (.bytes bytes)

/-- The bytes of a cell as a value of a type; none for null. -/
def encode (type : PgType) (c : Cell) : Option (List UInt8) :=
  match type, c with
  | _, .null => none
  | _, .bool b => some [if b then 1 else 0]
  | .int2, .int n => some (bytesOfInt 2 n)
  | .int4, .int n => some (bytesOfInt 4 n)
  | .float4, .int n => some (Binary64.ofInt n).toSingleBytes
  | .float8, .int n => some (Binary64.ofInt n).toBytes
  | _, .int n => some (bytesOfInt 8 n)
  | .float4, .float x => some x.toSingleBytes
  | _, .float x => some x.toBytes
  | .numeric, .text s => (Numeric.ofText? s.toList).map (·.toBytes)
  | _, .text s => some (Text.encode s)
  | _, .bytes bs => some bs
  | .jsonb, .json v => some (1 :: Text.encode v.compact)
  | _, .json v => some (Text.encode v.compact)
  | _, .date d => some (bytesOfInt 4 (d.dayNumber - Date.dayNumber ⟨2000, 1, 1⟩))
  | _, .dateTime d | _, .moment d => some (bytesOfInt 8 d.microseconds)
  | _, .time t => some (bytesOfInt 8 (t.nanoseconds / 1000 : Nat))

/-- A parameter as the server receives it. -/
inductive Parameter where
  | null
  | bool (b : Bool)
  | int (n : Int)
  | float (x : Binary64)
  | numeric (x : Numeric)
  | json (v : Json)
  | date (d : Date)
  | dateTime (d : DateTime)
  /-- A moment in UTC. -/
  | moment (d : DateTime)
  | time (t : Time)
  | text (s : String)
  deriving Repr

/-- The value as a floating-point number: a number, a truth value as one or zero, or a numeral. -/
def asNumber? : Json → Option Binary64
  | .bool b => some (.ofNat (if b then 1 else 0))
  | .text s => Number.float? (Text.trimmed s.toList)
  | other => other.asFloat?

/-- An integer of so many bits nearest to a number from the side of zero. -/
def asInteger? (bits : Nat) (v : Json) : Option Parameter :=
  (asNumber? v).map fun x => 
    let half : Int := Nat.pow 2 (bits - 1)
    .int (x.truncateInto (-half) (half - 1))

/-- The microseconds that the server keeps of a date and time. -/
def keptDateTime (d : DateTime) : DateTime := .ofMicroseconds d.microseconds

/-- A value that is not null as a parameter of a type, if it can be one. -/
def convert? (type : PgType) (v : Json) : Option Parameter :=
  match type with
  | .bool =>
    match v with
    | .bool b => some (.bool b)
    | other => (asNumber? other).map fun x => .bool (!x.isZero)
  | .int2 => asInteger? 16 v
  | .int4 => asInteger? 32 v
  | .int8 =>
    match v.asInt64? with
    | some n => some (.int n)
    | none => asInteger? 64 v
  | .float4 => (asNumber? v).map fun x => .float x.toSingle
  | .float8 => (asNumber? v).map .float
  | .numeric => (Numeric.ofText? v.bareText.toList).map .numeric
  | .json | .jsonb => some (.json v)
  | .date => (Date.ofText? v.bareText).map .date
  | .timestamp => (DateTime.ofText? v.bareText).map fun d => .dateTime (keptDateTime d)
  | .timestamptz => (DateTime.ofMoment? v.bareText).map fun d => .moment (keptDateTime d)
  | .time => (Time.ofText? v.bareText).map fun t =>
      .time (.ofMicroseconds (t.nanoseconds / 1000 : Nat))
  | _ => some (.text v.bareText)

def parameter? (type : PgType) : Json → Option Parameter
  | .null => some .null
  | v => convert? type v

/-- The parameters of a statement; the first that cannot be sent is given by its place. -/
def parameters : (place : Nat) → List (PgType × Json) → Except Nat (List Parameter)
  | _, [] => .ok []
  | place, (type, v) :: rest =>
    match parameter? type v with
    | none => .error place
    | some p => (parameters (place + 1) rest).map (p :: ·)

end SqlGateway.Postgres
