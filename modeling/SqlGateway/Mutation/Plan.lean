import SqlGateway.Mutation.Projection

/-!
# Write plans

A nested document becomes a tree of writes to single tables. The writes stand in one list, parents
before their children; a child names its parent by its place in the list, and says which of its
columns take values from the row that the parent's statement answers with.
-/
namespace SqlGateway.Mutation

inductive Kind where
  | insert
  | update
  | delete
  | insertSelect
  deriving DecidableEq, Repr

namespace Kind

def name : Kind → String
  | .insert => "insert"
  | .update => "update"
  | .delete => "delete"
  | .insertSelect => "insertselect"

/-- The kind and the table in the name of a field: the name of the kind, an underscore, and at least
one character. -/
def ofFieldName? (name : String) : Option (Kind × String) :=
  [insertSelect, insert, update, delete].findSome? fun kind =>
    let front := kind.name ++ "_"
    if name.startsWith front && front.length < name.length then
      some (kind, String.ofList (name.toList.drop front.length))
    else none

end Kind

/-- A column that takes a value of the parent's row. -/
structure Injection where
  /-- The place among the columns of the write. -/
  position : Nat
  parentColumn : String
  deriving DecidableEq, Repr

structure ParentLink where
  node : Nat
  /-- The row of the parent's answer that the write belongs to. -/
  row : Nat
  /-- The key of the written rows in the parent's object. -/
  key : String
  deriving DecidableEq, Repr

/-- A planned statement on a single table. -/
structure WriteNode where
  table : String
  kind : Kind
  columns : List String
  /-- The values to bind, row by row, in the order of the columns. -/
  rows : List (List Json)
  injected : List Injection
  parent : Option ParentLink
  children : List Nat
  /-- The number of the outermost document, from one. -/
  document : Nat
  filter : Option String
  /-- The columns asked back; all, if none is named. -/
  returning : List String
  /-- The key that the engine counts up. -/
  generatedKey : Option String
  projection : Projection
  sql : String
  deriving Repr

namespace WriteNode

/-- The parameters in the order of their markers. -/
def parameters (n : WriteNode) : List Json := n.rows.flatten

/-- Puts values of the parent's row into the injected places of every row; a column that the row
does not have gives null. -/
def inject (parentRow : Object) (n : WriteNode) : WriteNode :=
  n.injected.foldl
    (fun n i =>
      let v := (parentRow.get? i.parentColumn).getD .null
      { n with rows := n.rows.map (·.set i.position v) })
    n

end WriteNode

structure Plan where
  kind : Kind
  table : String
  nodes : List WriteNode
  roots : List Nat
  projection : Projection
  deriving Repr

namespace Plan

/-- Takes nodes from a stack and puts their children in their place. -/
def visit (nodes : List WriteNode) : (steps : Nat) → List Nat → List Nat
  | 0, _ => []
  | _, [] => []
  | steps + 1, id :: stack =>
    let children := ((nodes[id]?).map (·.children)).getD []
    id :: visit nodes steps (children ++ stack)

/-- The places of the writes, depth first, every parent before its children. -/
def executionOrder (p : Plan) : List Nat := visit p.nodes p.nodes.length p.roots

end Plan

end SqlGateway.Mutation
