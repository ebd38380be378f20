import SqlGateway.Text.Unprintable

/-!
# Descriptions

How values are shown to a reader of messages. Text stands between double quotes; quotes and
backslashes carry a backslash, and characters that would not be seen are named by their numbers. A
record shows its name and its fields.
-/
namespace SqlGateway.Text

/-- A character by its number, in hexadecimal digits. -/
def numbered (c : Char) : List Char :=
  ['\\', 'u', '\x7b'] ++ Nat.toDigits 16 c.toNat ++ ['\x7d']

def quotedChar (c : Char) : List Char :=
  if c = '"' ∨ c = '\\' then ['\\', c]
  else if c = '\n' then ['\\', 'n']
  else if c = '\t' then ['\\', 't']
  else if c = '\r' then ['\\', 'r']
  else if c.toNat = 0 then ['\\', '0']
  else if isPrintable c then [c]
  else numbered c

def quoted (s : String) : String :=
  String.ofList ('"' :: s.toList.flatMap quotedChar ++ ['"'])

/-- A record with the descriptions of its fields. -/
def described (name : String) (fields : List (String × String)) : String :=
  name ++ " \x7b " ++ ", ".intercalate (fields.map fun (field, value) => field ++ ": " ++ value)
    ++ " \x7d"

end SqlGateway.Text
