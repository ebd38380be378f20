import SqlGateway.Json.Basic

/-!
# Joins

How the rows of two tables belong together: columns of the first equal columns of the second, pair
by pair. A join found through a foreign key has the referenced table first.
-/
namespace SqlGateway.Schema

inductive JoinKind where
  | inner
  | left
  | right
  deriving DecidableEq, Repr

namespace JoinKind

def sql : JoinKind → String
  | .inner => "INNER JOIN"
  | .left => "LEFT JOIN"
  | .right => "RIGHT JOIN"

/-- The kind with a name, in letters of either case. -/
def ofName? (name : String) : Option JoinKind :=
  match String.ofList (name.toList.map Char.toLower) with
  | "inner" => some .inner
  | "left" => some .left
  | "right" => some .right
  | _ => none

end JoinKind

structure Join where
  table1 : String
  table2 : String
  columns1 : List String
  columns2 : List String
  /-- Both tables are in the active schema. -/
  isActive : Bool
  /-- Given by hand and not found through a foreign key. -/
  isCustom : Bool
  /-- A further condition: a filter whose texts are columns. -/
  complexCondition : Option Json
  deriving Repr

def joinKey (table1 table2 : String) : String := table1 ++ "___" ++ table2

namespace Join

/-- An active join given by hand. -/
def custom (table1 : String) (columns1 : List String) (table2 : String)
    (columns2 : List String) : Join :=
  ⟨table1, table2, columns1, columns2, true, true, none⟩

def key (j : Join) : String := joinKey j.table1 j.table2

/-- The join with its sides exchanged. -/
def swapped (j : Join) : Join :=
  { j with table1 := j.table2, table2 := j.table1, columns1 := j.columns2, columns2 := j.columns1 }

def pairs (j : Join) : List (String × String) := j.columns1.zip j.columns2

def equalityCondition (j : Join) : String :=
  " AND ".intercalate (j.pairs.map fun (a, b) => s!"{j.table1}.{a} = {j.table2}.{b}")

end Join

end SqlGateway.Schema
