import SqlGateway.Dialect.Basic

/-!
# Write statements

The text of inserts, updates and deletes. Where an engine can answer with rows, the statement asks
for the named columns, or for all of them if none is named.
-/
namespace SqlGateway.Mutation.Statement

/-- The columns asked back, each with a text in front. -/
def returningList (returning : List String) (front : String) : String :=
  if returning.isEmpty then front ++ "*"
  else ", ".intercalate (returning.map (front ++ ·))

/-- The clause at the end of a statement that asks for rows. -/
def suffixClause (d : Dialect) (returning : List String) : String :=
  match d.returning with
  | .suffixClause => " RETURNING " ++ returningList returning ""
  | _ => ""

/-- The clause inside a statement that asks for rows; `side` is the new or the old row. -/
def outputClause (d : Dialect) (returning : List String) (side : String) : String :=
  match d.returning with
  | .outputClause => " OUTPUT " ++ returningList returning (side ++ ".")
  | _ => ""

def whereClause : Option String → String
  | some filter => " where " ++ filter
  | none => ""

def insert (d : Dialect) (table : String) (columns : List String) (rows : Nat)
    (returning : List String) : String :=
  "insert into " ++ table ++ " (" ++ ", ".intercalate columns ++ ")"
    ++ outputClause d returning "INSERTED" ++ " values " ++ d.markerRows rows columns.length
    ++ suffixClause d returning

def assignments (d : Dialect) (columns : List String) : List String :=
  columns.mapIdx fun i column => column ++ " = " ++ d.marker (i + 1)

def update (d : Dialect) (table : String) (columns : List String) (filter : Option String)
    (returning : List String) : String :=
  "update " ++ table ++ " set " ++ ", ".intercalate (assignments d columns)
    ++ outputClause d returning "INSERTED" ++ whereClause filter ++ suffixClause d returning

def delete (d : Dialect) (table : String) (filter : Option String) (returning : List String) :
    String :=
  "delete from " ++ table ++ outputClause d returning "DELETED" ++ whereClause filter
    ++ suffixClause d returning

/-- An insert of the rows of a query. -/
def insertSelect (d : Dialect) (table : String) (columns : List String) (select : String)
    (returning : List String) : String :=
  "insert into " ++ table ++ " (" ++ ", ".intercalate columns ++ ")"
    ++ outputClause d returning "INSERTED" ++ " " ++ select ++ suffixClause d returning

end SqlGateway.Mutation.Statement
