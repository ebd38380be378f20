import SqlGateway.Dialect.Basic
import SqlGateway.Json.Write
import SqlGateway.Text.Search

/-!
# Literals

Values written into a statement. Strings, and the JSON text of lists and objects, stand in single
quotes with every quote inside written twice.
-/
namespace SqlGateway.Query

open Text

def quoteText (s : String) : String :=
  String.ofList ('\'' :: (doubled '\'' s.toList ++ ['\'']))

def literal (d : Dialect) : Json → String
  | .null => "NULL"
  | .bool b => d.boolLiteral b
  | .text s => quoteText s
  | .list items => quoteText (Json.list items).compact
  | .object fields => quoteText (Json.object fields).compact
  | number => number.compact

end SqlGateway.Query
