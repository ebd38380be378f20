import SqlGateway.Cell

/-!
# MySQL values

The types of columns as the protocol tells them apart, the values it carries, and the cells they
become.
-/
namespace SqlGateway.Mysql

open Number

inductive ColumnKind where
  | tiny
  | short
  | int24
  | long
  | longlong
  | year
  | float
  | double
  | decimal
  /-- Strings and bytes; which of the two is told by the character set. -/
  | string
  | enumeration
  | set
  | bit
  | date
  | datetime
  | timestamp
  | time
  | json
  | blob
  | other
  deriving DecidableEq, Repr

structure Column where
  name : String
  kind : ColumnKind
  /-- The character set is that of bytes. -/
  isBinary : Bool
  deriving DecidableEq, Repr

namespace Column

/-- The name of the type in the language of the database, as far as it has one. -/
def typeName (c : Column) : String :=
  match c.kind with
  | .tiny => "tinyint"
  | .short => "smallint"
  | .int24 => "mediumint"
  | .long => "int"
  | .longlong => "bigint"
  | .year => "year"
  | .float => "float"
  | .double => "double"
  | .decimal => "decimal"
  | .string => if c.isBinary then "varbinary" else "varchar"
  | .enumeration => "enum"
  | .set => "set"
  | .bit => "bit"
  | .date => "date"
  | .datetime => "datetime"
  | .timestamp => "timestamp"
  | .time => "time"
  | .json => "json"
  | .blob => if c.isBinary then "blob" else "text"
  | .other => ""

end Column

/-- A value as the protocol carries it. -/
inductive Value where
  | null
  | bytes (bs : List UInt8)
  | int (n : Int)
  | double (x : Binary64)
  | date (year month day hour minute second microsecond : Nat)
  | time (negative : Bool) (days hours minutes seconds microseconds : Nat)
  deriving Repr

/-- How many bytes an integer of a kind has. -/
def ColumnKind.width : ColumnKind → Nat
  | .tiny => 1
  | .short | .year => 2
  | .long | .int24 => 4
  | _ => 8

/-- An integer as it is read back from the bytes of its kind. -/
def ColumnKind.integer (k : ColumnKind) (isUnsigned : Bool) (n : Int) : Value :=
  let modulus := Nat.pow 256 k.width
  .int (if isUnsigned then n % (modulus : Nat) else Int.bmod n modulus)

/-- A time of day, if the parts are one. Microseconds beyond a second make a leap second. -/
def timeOfDay? (hours minutes seconds microseconds : Nat) : Option Time :=
  let nanosecond := microseconds * 1000
  let t : Time := ⟨hours, minutes, seconds, nanosecond⟩
  if t.isValid && (nanosecond < Time.leap || (seconds == 59 && nanosecond < 2 * Time.leap)) then
    some t
  else none

/-- A length of time in hours, minutes and seconds. -/
def lengthText (negative : Bool) (hours minutes seconds : Nat) : String :=
  (if negative then "-" else "") ++ zeroPadded 2 hours ++ ":" ++ zeroPadded 2 minutes ++ ":"
    ++ zeroPadded 2 seconds

/-- The cell of a value. A date that is none counts as null; a time that is no time of day is kept
as text. -/
def Value.cell : Value → Cell
  | .null => .null
  | .bytes bs => .bytes bs
  | .int n => if n ≤ greatestInt64 then .int n else .float (.ofInt n)
  | .double x => .float x
  | .date year month day hour minute second microsecond =>
    let date : Date := ⟨year, month, day⟩
    match timeOfDay? hour minute second microsecond with
    | some t => if date.isValid then .dateTime ⟨date, t⟩ else .null
    | none => .null
  | .time negative days hours minutes seconds microseconds =>
    let hours := hours + days * 24
    match timeOfDay? hours minutes seconds microseconds with
    | some t => if negative then .text (lengthText true hours minutes seconds) else .time t
    | none => .text (lengthText negative hours minutes seconds)

/-- A parameter as it is sent. -/
inductive Parameter where
  | null
  | int (n : Int)
  /-- An integer beyond the signed ones. -/
  | unsigned (n : Nat)
  | double (x : Binary64)
  | bytes (s : String)
  deriving Repr

def parameter : Json → Parameter
  | .null => .null
  | .bool b => .int (if b then 1 else 0)
  | .int n => if n ≤ greatestInt64 then .int n else .unsigned n.toNat
  | .float x => .double x
  | other => .bytes other.bareText

end SqlGateway.Mysql
