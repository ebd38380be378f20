import SqlGateway.Cell

/-!
# Result sets

The rows that a statement answers with, under the names and types of its columns. A row may be
shorter or longer than the list of columns; only the cells that have a column count.
-/
namespace SqlGateway

structure ResultColumn where
  /-- The label; for a compiled query an alias that says where the value belongs. -/
  name : String
  /-- The type as the engine names it, empty if it does not. -/
  nativeType : String
  type : Schema.ValueType
  deriving DecidableEq, Repr

structure ResultSet where
  columns : List ResultColumn
  rows : List (List Cell)
  affected : Nat
  /-- The first generated key, from an engine that cannot return rows. -/
  lastId : Option Int
  deriving Repr

namespace ResultSet

def empty : ResultSet := ⟨[], [], 0, none⟩

def columnIndex? (r : ResultSet) (name : String) : Option Nat :=
  r.columns.findIdx? (·.name == name)

/-- A row as an object. -/
def rowObject (r : ResultSet) (row : List Cell) : Object :=
  Object.ofFields ((r.columns.zip row).map fun (column, cell) =>
    (column.name, cell.coerce column.type))

def objectAt (r : ResultSet) (index : Nat) : Object :=
  match r.rows[index]? with
  | some row => r.rowObject row
  | none => []

def objects (r : ResultSet) : List Json := r.rows.map fun row => .object (r.rowObject row)

end ResultSet

end SqlGateway
