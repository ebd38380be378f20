import SqlGateway.Guard
import SqlGateway.Name

/-!
# Order terms

A sort value is a column, a column with a minus sign in front, the ordinal of a selected column with
its sign for the direction, or a list of sort values. Ordinals are integers of 64 bits, and their
absolute value is taken in that arithmetic, so the least one is its own.
-/
namespace SqlGateway.Query

open Text Number

/-- One term of an order clause. -/
structure OrderTerm where
  key : String
  descending : Bool
  deriving DecidableEq, Repr

def OrderTerm.text (t : OrderTerm) : String := if t.descending then t.key ++ " DESC" else t.key

namespace OrderTerm

/-- The integer part of a number, clamped to 64 bits. -/
def ordinal (v : Json) : Int :=
  match v.asInt64?, v.asFloat? with
  | some n, _ => n
  | none, some x => x.truncateInto Number.leastInt64 Number.greatestInt64
  | none, none => 0

/-- The absolute value in 64-bit arithmetic. -/
def absolute64 (n : Int) : Int := Number.asInt64 n.natAbs

def columnTerm (table : String) (spec : List Char) : Except Error OrderTerm := do
  let (column, descending) := match spec with
    | '-' :: rest => (trimmed rest, true)
    | _ => (spec, false)
  let qualified := Name.qualify table (String.ofList column)
  Name.ensureSafe "sort" qualified
  return ⟨qualified, descending⟩

mutual

/-- The terms of a sort value that passed the guard. -/
def terms (table : String) : Json → Except Error (List OrderTerm)
  | .null => .ok []
  | .text s =>
    let spec := trimmed s.toList
    if spec.isEmpty then .ok [] else (columnTerm table spec).map ([·])
  | .int n => ordinalTerm (ordinal (.int n))
  | .float x => ordinalTerm (ordinal (.float x))
  | .list items => itemTerms table items
  | other => .error (.invalid
      s!"sort must be a string, a number or an array, got {other.compact}")

def itemTerms (table : String) : List Json → Except Error (List OrderTerm)
  | [] => .ok []
  | item :: rest => do
    let first ← terms table item
    let others ← itemTerms table rest
    return first ++ others

def ordinalTerm (n : Int) : Except Error (List OrderTerm) :=
  if n = 0 then .error (.invalid "sort ordinal must be non-zero")
  else .ok [⟨toString (absolute64 n), n < 0⟩]

end

/-- The order terms of a sort value. -/
def compile (table : String) (v : Json) : Except Error (List String) := do
  Guard.check "sort" v
  return (← terms table v).map (·.text)

end OrderTerm

end SqlGateway.Query
