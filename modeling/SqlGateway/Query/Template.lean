import SqlGateway.Dialect.Basic
import SqlGateway.Guard
import SqlGateway.Request.Document

/-!
# Statement templates

A raw statement may name variables. Outside single quotes, a dollar sign with a name after it stands
for a parameter; everything else is kept as it is. Every value that is bound passes the guard.
-/
namespace SqlGateway.Query

/-- A character of a template that is kept, or a variable. -/
inductive TemplatePart where
  | kept (c : Char)
  | variable (name : String)
  deriving DecidableEq, Repr

namespace Template

def startsName (c : Char) : Bool := c.isAlpha || c == '_'

def continuesName (c : Char) : Bool := c.isAlphanum || c == '_'

/-- The parts of a template; `quoted` tells whether it begins inside single quotes. -/
def parts (quoted : Bool) : List Char → List TemplatePart
  | [] => []
  | c :: rest =>
    if c = '\'' then .kept c :: parts (!quoted) rest
    else if c = '$' ∧ quoted = false ∧ rest.head?.any startsName then
      .variable (String.ofList (rest.takeWhile continuesName))
        :: parts quoted (rest.dropWhile continuesName)
    else .kept c :: parts quoted rest
termination_by cs => cs.length
decreasing_by
  · simp
  · have := (List.dropWhile_sublist continuesName (l := rest)).length_le
    simp only [List.length_cons]; omega
  · simp

/-- The statement and the parameters of parts of which `count` variables came before. -/
def bindParts (d : Dialect) (vars : Request.Variables) :
    (count : Nat) → List TemplatePart → Except Error (List Char × List Json)
  | _, [] => .ok ([], [])
  | count, .kept c :: rest => do
    let (text, parameters) ← bindParts d vars count rest
    return (c :: text, parameters)
  | count, .variable name :: rest => do
    let some value := vars.get? name
      | throw (.invalid s!"unknown variable `${name}`")
    Guard.check name value
    let (text, parameters) ← bindParts d vars (count + 1) rest
    return ((d.marker (count + 1)).toList ++ text, value :: parameters)

/-- The statement of a template with parameter markers, and the values of the parameters in
order. -/
def bind (d : Dialect) (vars : Request.Variables) (sql : String) :
    Except Error (String × List Json) := do
  let (text, parameters) ← bindParts d vars 0 (parts false sql.toList)
  return (String.ofList text, parameters)

end Template

end SqlGateway.Query
