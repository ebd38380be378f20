import SqlGateway.Dialect.Basic
import SqlGateway.Text.Search

/-!
# Paging

A statement cut to a number of rows after a number of skipped ones. A limit that is not positive
stands for the default limit, and a skip that is not positive for none.
-/
namespace SqlGateway.Dialect

open Text

/-- A statement with its quoted parts blanked and its letters in upper case. Quotes are the single
and the double one and square brackets; `closing` is what ends the one that is open. -/
def unquotedUpper : (closing : Option Char) → List Char → List Char
  | _, [] => []
  | some closing, c :: rest =>
    ' ' :: unquotedUpper (if c = closing then none else some closing) rest
  | none, c :: rest =>
    if c = '\'' ∨ c = '"' then ' ' :: unquotedUpper (some c) rest
    else if c = '[' then ' ' :: unquotedUpper (some ']') rest
    else c.toUpper :: unquotedUpper none rest

/-- Whether a statement has the words that order rows, with words on both sides of them. -/
def hasOrderBy (query : String) : Bool :=
  let plain := (words (unquotedUpper none query.toList)).map String.ofList
  occurs " ORDER BY ".toList (" ".intercalate plain).toList

/-- The query with a row limit after its first keywords; another statement is wrapped. -/
def withTop (query : String) (limit : Int) : String :=
  let trimmed := query.toList.dropWhile isBlank
  let cut (keywords : String) : Option String :=
    if startsWith keywords.toList (upper trimmed) then
      let n := keywords.length
      some (String.ofList (trimmed.take n) ++ s!"TOP {limit} " ++ String.ofList (trimmed.drop n))
    else none
  match cut "SELECT DISTINCT ", cut "SELECT " with
  | some cutQuery, _ => cutQuery
  | none, some cutQuery => cutQuery
  | none, none => s!"SELECT TOP {limit} * FROM ({query}) AS paged"

def effectiveLimit (limit defaultLimit : Int) : Int := if limit ≤ 0 then defaultLimit else limit

/-- The statement with the row limiting clause of a dialect. -/
def paged (d : Dialect) (query : String) (limit skip defaultLimit : Int) : String :=
  let limit := effectiveLimit limit defaultLimit
  match d with
  | .postgres | .sqlite =>
    if 0 < skip then s!"{query} LIMIT {limit} OFFSET {skip}" else s!"{query} LIMIT {limit}"
  | .mysql =>
    if 0 < skip then s!"{query} LIMIT {skip}, {limit}" else s!"{query} LIMIT {limit}"
  | .mssql =>
    if 0 < skip then
      let order := if hasOrderBy query then "" else " ORDER BY (SELECT NULL)"
      s!"{query}{order} OFFSET {skip} ROWS FETCH NEXT {limit} ROWS ONLY"
    else withTop query limit

end SqlGateway.Dialect
