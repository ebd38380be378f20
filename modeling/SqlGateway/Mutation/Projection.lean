import SqlGateway.Request.Document

/-!
# Projections

What a write is asked to answer with: names of columns, and for nested rows projections of their
own. An empty projection asks for everything.
-/
namespace SqlGateway.Mutation

open Request (Field)

structure Projection where
  fields : List String
  children : List (String × Projection)
  deriving Repr

namespace Projection

def empty : Projection := ⟨[], []⟩

mutual

/-- The projection of one field of a selection, added at the end. -/
def addField (p : Projection) : Field → Projection
  | ⟨_, name, _, _, selection⟩ =>
    if selection.isEmpty then { p with fields := p.fields ++ [name] }
    else { p with children := p.children ++ [(name, addFields empty selection)] }

def addFields (p : Projection) : List Field → Projection
  | [] => p
  | f :: rest => addFields (addField p f) rest

end

def ofSelection (selection : List Field) : Projection := addFields empty selection

def isEmpty (p : Projection) : Bool := p.fields.isEmpty && p.children.isEmpty

/-- The projection of the nested rows under a key; everything, if there is none. -/
def child (p : Projection) (key : String) : Projection :=
  ((p.children.find? (·.1 == key)).map (·.2)).getD empty

def keeps (p : Projection) (key : String) : Bool :=
  p.fields.contains key || p.children.any (·.1 == key)

/-- Changes the objects of the list under a key. -/
def changeItems (key : String) (change : Object → Object) (row : Object) : Object :=
  row.map fun (k, v) =>
    match v with
    | .list items =>
      if k = key then
        (k, .list (items.map fun
          | .object o => .object (change o)
          | other => other))
      else (k, v)
    | _ => (k, v)

mutual

/-- The part of a row that is asked for. -/
def apply : Projection → Object → Object
  | ⟨fields, children⟩, row =>
    if fields.isEmpty && children.isEmpty then row
    else applyChildren children (row.filter fun field => keeps ⟨fields, children⟩ field.1)

def applyChildren : List (String × Projection) → Object → Object
  | [], row => row
  | (key, p) :: rest, row => applyChildren rest (changeItems key p.apply row)

end

end Projection

end SqlGateway.Mutation
