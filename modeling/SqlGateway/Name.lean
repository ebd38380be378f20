import SqlGateway.Error

/-!
# Table and column names

Requests write a table of a schema with a double underscore, `sales__orders`; everywhere else the
separator is a dot, `sales.orders`. Names go into statements without quotes, so only dotted
identifiers of ASCII letters, digits, underscores and dollar signs are let through.
-/
namespace SqlGateway.Name

/-- Every double underscore, from left to right, as a dot. -/
def dotted : List Char → List Char
  | [] => []
  | [c] => [c]
  | c :: d :: rest =>
    if c = '_' ∧ d = '_' then '.' :: dotted rest else c :: dotted (d :: rest)

/-- Every dot as a double underscore. -/
def underscored : List Char → List Char
  | [] => []
  | c :: rest => if c = '.' then '_' :: '_' :: underscored rest else c :: underscored rest

/-- The inner spelling of a table name. -/
def internal (name : String) : String := String.ofList (dotted name.toList)

/-- The spelling of a table name in requests. -/
def external (name : String) : String := String.ofList (underscored name.toList)

/-- The parts of a text between the places of a character; never empty. -/
def segments (separator : Char) : List Char → List (List Char)
  | [] => [[]]
  | c :: rest =>
    if c = separator then [] :: segments separator rest
    else
      match segments separator rest with
      | [] => [[c]]
      | first :: others => (c :: first) :: others

def isHeadChar (c : Char) : Bool := c.isAlpha || c == '_'

def isTailChar (c : Char) : Bool := c.isAlphanum || c == '_' || c == '$'

/-- One part of a name: a letter or underscore, then letters, digits, underscores, dollar signs. -/
def isSafeSegment : List Char → Bool
  | [] => false
  | c :: rest => isHeadChar c && rest.all isTailChar

def isSafeChars (name : List Char) : Bool := (segments '.' name).all isSafeSegment

/-- Whether a name may stand in a statement as it is. -/
def isSafe (name : String) : Bool := isSafeChars name.toList

def ensureSafe (context name : String) : Except Error Unit :=
  if isSafe name then .ok () else .error (.suspicious context name)

/-- A column with its table in front, unless the column names one itself. Of a longer path the last
two parts count, and the table part is brought to its inner spelling. -/
def qualify (table column : String) : String :=
  match (segments '.' column.toList).reverse with
  | name :: owner :: _ => internal (String.ofList owner) ++ "." ++ String.ofList name
  | _ => table ++ "." ++ column

end SqlGateway.Name
