import SqlGateway.Dictionary
import SqlGateway.Error
import SqlGateway.Schema.Column
import SqlGateway.Schema.Join

/-!
# The schema registry

The tables of a data source: those of the active schema, which requests may use, and those that were
found but left out, and the joins between them. A table goes under its bare name in the default
schema and under a dotted name in any other.
-/
namespace SqlGateway.Schema

/-- The columns of a table by name. -/
abbrev Table := Dictionary Column

structure Registry where
  defaultSchema : String
  active : Dictionary Table
  inactive : Dictionary Table
  joins : Dictionary Join
  /-- Rules of the security role by table, in the terms of whoever plays it. -/
  securityRules : Dictionary Json
  /-- Rules of the transforming role by table. -/
  transformRules : Dictionary Json
  deriving Repr

namespace Registry

def empty (defaultSchema : String) : Registry := ⟨defaultSchema, [], [], [], [], []⟩

def tableKey (r : Registry) (schema table : String) : String :=
  if schema.isEmpty || schema == r.defaultSchema then table else schema ++ "." ++ table

/-- The captured columns by table. -/
def grouped (r : Registry) (columns : List Column) : Dictionary Table :=
  columns.foldl
    (fun captured c =>
      let key := r.tableKey c.schemaName c.tableName
      captured.insert key (((captured.get? key).getD []).insert c.columnName c))
    []

/-- Stores captured columns. A table of the active schema is replaced there; any other table joins
the inactive ones. -/
def capture (r : Registry) (columns : List Column) : Registry :=
  (r.grouped columns).foldl
    (fun r (table, columns) =>
      if r.active.contains table then { r with active := r.active.insert table columns }
      else { r with inactive := r.inactive.insert table columns })
    r

/-- Puts a table into the active schema. -/
def insertTable (r : Registry) (table : String) (columns : List Column) : Registry :=
  { r with
    inactive := r.inactive.erase table
    active := r.active.insert table (Dictionary.ofList (columns.map fun c => (c.columnName, c))) }

def missingTable (table : String) : Error := .schemaNotFound s!"table `{table}`"

def hasTable (r : Registry) (table : String) : Bool := r.active.contains table

def table (r : Registry) (name : String) : Except Error Table :=
  match r.active.get? name with
  | some t => .ok t
  | none => .error (missingTable name)

def column? (r : Registry) (table column : String) : Option Column :=
  (r.active.get? table).bind (·.get? column)

def columnsOf (r : Registry) (table : String) : List Column :=
  ((r.active.get? table).getD []).values

/-- The primary key columns of a table in the order of their positions. -/
def primaryKey (r : Registry) (table : String) : List String :=
  let keys := (r.columnsOf table).filter (·.isPrimaryKey)
  (keys.mergeSort fun a b => a.ordinalPosition ≤ b.ordinalPosition).map (·.columnName)

def autoIncrement? (r : Registry) (table : String) : Option Column :=
  (r.columnsOf table).find? (·.isAutoIncrement)

/-- The join between two tables of the active schema, with the parent on the first side. -/
def join (r : Registry) (parent child : String) : Except Error Join := do
  if !r.hasTable parent then throw (missingTable parent)
  if !r.hasTable child then throw (missingTable child)
  match r.joins.get? (joinKey parent child), r.joins.get? (joinKey child parent) with
  | some j, _ => return j
  | none, some j => return j.swapped
  | none, none => throw (.joinNotFound parent child)

def addJoin (r : Registry) (j : Join) : Registry := { r with joins := r.joins.insert j.key j }

/-- Removes the join of the same two tables in the same order, and gives it. -/
def removeJoin (r : Registry) (j : Join) : Registry × Option Join :=
  ({ r with joins := r.joins.erase j.key }, r.joins.get? j.key)

/-- Adds a foreign key column to the join with the referenced table, which is made if there is none.
-/
def inferJoin (r : Registry) (table : String) (c : Column) (fk : ForeignKey) : Registry :=
  let referenced := r.tableKey fk.schemaName fk.tableName
  let key := joinKey referenced table
  let found := (r.joins.get? key).getD ⟨referenced, table, [], [], false, false, none⟩
  let extended :=
    if found.columns2.contains c.columnName then found
    else
      { found with
        columns1 := found.columns1 ++ [fk.columnName]
        columns2 := found.columns2 ++ [c.columnName] }
  { r with joins := r.joins.insert key { extended with isActive := r.active.contains referenced } }

/-- Moves a table into the active schema, makes joins of its foreign keys, and marks the joins on
whose first side it stands. -/
def activate (r : Registry) (table : String) : Except Error Registry := do
  let moved ←
    match r.inactive.get? table with
    | some columns =>
      pure { r with
        inactive := r.inactive.erase table
        active := r.active.insert table columns }
    | none => if r.active.contains table then pure r else throw (missingTable table)
  let joined := (moved.columnsOf table).foldl
    (fun r c => match c.foreignKey with
      | some fk => r.inferJoin table c fk
      | none => r)
    moved
  return { joined with
    joins := joined.joins.mapValues fun j =>
      if j.table1 = table then { j with isActive := joined.active.contains j.table2 } else j }

/-- Moves a table out of the active schema. Joins on whose first side it stands are removed, those
on whose second side it stands only marked. -/
def deactivate (r : Registry) (table : String) : Except Error Registry := do
  match r.active.get? table with
  | none => throw (missingTable table)
  | some columns =>
    let kept : Dictionary Join := r.joins.filter fun (_, j) => j.table1 != table
    return { r with
      active := r.active.erase table
      inactive := r.inactive.insert table columns
      joins := kept.mapValues fun j =>
        if j.table2 = table then { j with isActive := false } else j }

/-- Puts a masking rule on a column of the active schema. -/
def attachMask (r : Registry) (table column rule : String) : Except Error Registry :=
  match r.active.get? table, r.column? table column with
  | some columns, some c =>
    .ok { r with
      active := r.active.insert table (columns.insert column { c with maskingRule := some rule }) }
  | _, _ => .error (.schemaNotFound s!"column `{table}.{column}`")

end Registry

end SqlGateway.Schema
