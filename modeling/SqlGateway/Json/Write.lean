import SqlGateway.Json.Basic
import SqlGateway.Number.Layout

/-!
# Written JSON

The text of a JSON value: compact, without any blank, and indented by two spaces a level. In a
string only the quote, the backslash and the control characters are escaped.
-/
namespace SqlGateway.Json

open Number

/-- Four hexadecimal digits in lower case. -/
def hexDigits4 (n : Nat) : List Char :=
  [Nat.digitChar (n / 4096 % 16), Nat.digitChar (n / 256 % 16), Nat.digitChar (n / 16 % 16),
    Nat.digitChar (n % 16)]

def escapedChar (c : Char) : List Char :=
  if c = '"' then ['\\', '"']
  else if c = '\\' then ['\\', '\\']
  else if 0x20 ≤ c.toNat then [c]
  else if c = '\n' then ['\\', 'n']
  else if c = '\r' then ['\\', 'r']
  else if c = '\t' then ['\\', 't']
  else if c.toNat = 0x8 then ['\\', 'b']
  else if c.toNat = 0xc then ['\\', 'f']
  else '\\' :: 'u' :: hexDigits4 c.toNat

def escaped (s : List Char) : List Char := s.flatMap escapedChar

def quoted (s : String) : String :=
  String.ofList ('"' :: (escaped s.toList ++ ['"']))

def scalarText : Json → String
  | .bool b => if b then "true" else "false"
  | .int n => toString n
  | .float x => if x.isFinite then Layout.json.write x else "null"
  | .text s => quoted s
  | _ => "null"

mutual

/-- The text of a value without any blank. -/
def compact : Json → String
  | .list items => "[" ++ compactItems items ++ "]"
  | .object fields => "\x7b" ++ compactFields fields ++ "\x7d"
  | other => scalarText other

def compactItems : List Json → String
  | [] => ""
  | [item] => item.compact
  | item :: rest => item.compact ++ "," ++ compactItems rest

def compactFields : Object → String
  | [] => ""
  | [(key, value)] => quoted key ++ ":" ++ value.compact
  | (key, value) :: rest => quoted key ++ ":" ++ value.compact ++ "," ++ compactFields rest

end

/-- A string as it is, and any other value as compact JSON. -/
def bareText : Json → String
  | .text s => s
  | other => other.compact

def indentation (depth : Nat) : String := String.ofList (List.replicate (2 * depth) ' ')

mutual

/-- The text of a value with one item or field a line; `depth` is the nesting it stands at. -/
def indented (depth : Nat) : Json → String
  | .list [] => "[]"
  | .object [] => "\x7b\x7d"
  | .list items => "[\n" ++ indentedItems (depth + 1) items ++ "\n" ++ indentation depth ++ "]"
  | .object fields =>
    "\x7b\n" ++ indentedFields (depth + 1) fields ++ "\n" ++ indentation depth ++ "\x7d"
  | other => scalarText other

def indentedItems (depth : Nat) : List Json → String
  | [] => ""
  | [item] => indentation depth ++ item.indented depth
  | item :: rest => indentation depth ++ item.indented depth ++ ",\n" ++ indentedItems depth rest

def indentedFields (depth : Nat) : Object → String
  | [] => ""
  | [(key, value)] => indentation depth ++ quoted key ++ ": " ++ value.indented depth
  | (key, value) :: rest =>
    indentation depth ++ quoted key ++ ": " ++ value.indented depth ++ ",\n"
      ++ indentedFields depth rest

end

def pretty (v : Json) : String := v.indented 0

end SqlGateway.Json
