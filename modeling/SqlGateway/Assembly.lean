import SqlGateway.Query.Slot
import SqlGateway.ResultSet

/-!
# Assembled objects

The flat rows of a compiled query fold back into nested objects. Every row contributes one object to
every slot on its way down; equal contributions under the same parent are one object, in the place
of the first. A contribution that is null throughout stands for no row of an outer join, and
everything below it is left out with it.
-/
namespace SqlGateway

open Query (Alias Slot SlotEntry Slots)

/-- An object while it is being assembled: its own fields, and its objects by slot, one level
down. -/
inductive Node where
  | mk (fields : Object) (children : List (Nat × List Node))
  deriving Repr

namespace Node

def fields : Node → Object
  | mk fields _ => fields

def children : Node → List (Nat × List Node)
  | mk _ children => children

/-- Contributions are compared by their text. -/
def holds (fields : Object) (n : Node) : Bool :=
  (Json.object n.fields).compact == (Json.object fields).compact

end Node

namespace Assembly

/-- Where the values of a column go: a level, a slot and a name. A label that is no alias belongs to
the root. -/
def place (label : String) : Alias := (Alias.decode? label).getD ⟨0, 0, label⟩

/-- What a row contributes to a slot. -/
def contribution (r : ResultSet) (row : List Cell) (level slot : Nat) : Object :=
  Object.ofFields ((r.columns.zip row).filterMap fun (column, cell) =>
    let at_ := place column.name
    if at_.level = level ∧ at_.slot = slot then some (at_.name, cell.coerce column.type) else none)

/-- No row was joined: there are fields, and all of them are null. -/
def isAbsent (fields : Object) : Bool := !fields.isEmpty && fields.all (·.2.isNull)

def childSlots (slot : Slot) : List Nat :=
  slot.entries.filterMap fun
    | .child n => some n
    | .field _ => none

/-- Applies a change to the node that holds given fields, or to a new one at the end. -/
def changeNode (fields : Object) (change : Node → Node) : List Node → List Node
  | [] => [change (.mk fields [])]
  | n :: rest =>
    if n.holds fields then change n :: rest else n :: changeNode fields change rest

/-- Applies a change to the nodes of a slot. -/
def changeSlot (slot : Nat) (change : List Node → List Node) :
    List (Nat × List Node) → List (Nat × List Node)
  | [] => [(slot, change [])]
  | (s, nodes) :: rest =>
    if s = slot then (s, change nodes) :: rest else (s, nodes) :: changeSlot slot change rest

/-- Folds a row into a node that stands in a slot. `below` bounds the levels under it. -/
def foldRow (slots : Slots) (r : ResultSet) (row : List Cell) :
    (below level slot : Nat) → Node → Node
  | 0, _, _, node => node
  | below + 1, level, slot, .mk fields children =>
    match slots.get? level slot with
    | none => .mk fields children
    | some here =>
      .mk fields ((childSlots here).foldl
        (fun children child =>
          let contributed := contribution r row (level + 1) child
          if isAbsent contributed then children
          else
            changeSlot child
              (changeNode contributed (foldRow slots r row below (level + 1) child)) children)
        children)

/-- The root objects after a row. Without nesting every row has an object of its own. -/
def addRow (slots : Slots) (r : ResultSet) (roots : List Node) (row : List Cell) : List Node :=
  let fields := contribution r row 0 0
  let fold := foldRow slots r row slots.levels.length 0 0
  if 0 < slots.maxLevel then changeNode fields fold roots else roots ++ [fold (.mk fields [])]

/-- The fields of an object that its slot does not name stand at its end. -/
def withUnnamed (fields object : Object) : Object :=
  fields.foldl (fun o field => if o.contains field.1 then o else o.insert field.1 field.2) object

def lookup (finished : List (Nat × List Json)) (slot : Nat) : List Json :=
  ((finished.find? (·.1 == slot)).map (·.2)).getD []

/-- The fields of an object in the order of its slot. -/
def arrange (slots : Slots) (level : Nat) (fields : Object) (finished : List (Nat × List Json))
    (here : Slot) : Object :=
  here.entries.foldl
    (fun object entry =>
      match entry with
      | .field name =>
        match fields.get? name with
        | some v => object.insert name v
        | none => object
      | .child n =>
        match slots.get? (level + 1) n with
        | some child => object.insert child.outputName (.list (lookup finished n))
        | none => object)
    []

mutual

/-- The finished object of a node in a slot. -/
def finish (slots : Slots) (level slot : Nat) : Node → Json
  | .mk fields children =>
    let finished := finishChildren slots (level + 1) children
    match slots.get? level slot with
    | none => .object fields
    | some here => .object (withUnnamed fields (arrange slots level fields finished here))

def finishChildren (slots : Slots) (level : Nat) : List (Nat × List Node) → List (Nat × List Json)
  | [] => []
  | (slot, nodes) :: rest =>
    (slot, finishNodes slots level slot nodes) :: finishChildren slots level rest

def finishNodes (slots : Slots) (level slot : Nat) : List Node → List Json
  | [] => []
  | n :: rest => finish slots level slot n :: finishNodes slots level slot rest

end

/-- The nested objects of a result set. -/
def objects (slots : Slots) (r : ResultSet) : List Json :=
  finishNodes slots 0 0 (r.rows.foldl (addRow slots r) [])

/-- A line of names and a line of texts for each row. -/
def flatLines (r : ResultSet) : List (List String) :=
  r.columns.map (Alias.strip ·.name)
    :: r.rows.map fun row =>
      (r.columns.zip row).map fun (column, cell) => (cell.coerce column.type).flatText

end Assembly

end SqlGateway
