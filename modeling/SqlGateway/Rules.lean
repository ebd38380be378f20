import SqlGateway.Error
import SqlGateway.Request.Document

/-!
# Rules

The three roles that a deployment may fill: who may see and change which rows, which values are
forced into written documents and how read rows are changed, and what a calculated expression means.
A role is a function; the rules that a registry holds for a table are handed to it unread.
`declarative` is a small reading of such rules, `passThrough` ignores them.
-/
namespace SqlGateway

open Request (Variables)

/-- What the security role says of a table. -/
inductive Decision where
  | allow
  | deny (reason : String)
  /-- Only the rows under a filter. -/
  | filter (tree : Json)
  deriving Repr

structure Rules where
  security : (table : String) → Option Json → Variables → Except Error Decision
  /-- The values forced into a document of a table. -/
  overwrite : (table : String) → Option Json → Object → Variables → Except Error Object
  transformOutput : (table : String) → Option Json → List Json → Except Error (List Json)
  expression : String → Variables → Except Error String

namespace Rules

/-- Functions show nothing of themselves. -/
def description (_ : Rules) : String := "Rules \x7b .. \x7d"

def passThrough : Rules where
  security _ _ _ := .ok .allow
  overwrite _ _ _ _ := .ok []
  transformOutput _ _ rows := .ok rows
  expression text _ := .ok text

/-- The failure of a role; what is not one already is wrapped as one. -/
def failure (role : String) : Error → Error
  | .rule source what => .rule source what
  | other => .rule role other.message

/-- Runs a role. -/
def asRole (role : String) (r : Except Error α) : Except Error α := r.mapError (failure role)

/-- The variable that a text of a rule names: a dollar sign and a name that does not begin with
one. -/
def variableOf? (s : String) : Option String :=
  match s.toList with
  | '$' :: c :: rest => if c = '$' then none else some (String.ofList (c :: rest))
  | _ => none

mutual

/-- A rule value with the variables put in. A variable that is not set is an error. -/
def substitute (vars : Variables) : Json → Except Error Json
  | .text s =>
    match variableOf? s with
    | none => .ok (.text s)
    | some name =>
      match vars.get? name with
      | some v => .ok v
      | none => .error (.rule "declarative" s!"variable `{name}` is not set")
  | .list items => return .list (← substituteItems vars items)
  | .object fields => return .object (← substituteFields vars fields)
  | other => .ok other

def substituteItems (vars : Variables) : List Json → Except Error (List Json)
  | [] => .ok []
  | item :: rest => return (← substitute vars item) :: (← substituteItems vars rest)

def substituteFields (vars : Variables) : Object → Except Error Object
  | [] => .ok []
  | (key, v) :: rest => return (key, ← substitute vars v) :: (← substituteFields vars rest)

end

/-- A field of a rule that is an object. -/
def part? (rule : Option Json) (key : String) : Option Json :=
  (rule.bind (·.asObject?)).bind (Object.get? key)

def declarativeSecurity (rule : Option Json) (vars : Variables) : Except Error Decision :=
  match part? rule "deny", part? rule "where" with
  | some reason, _ => .ok (.deny (reason.asText?.getD "access denied"))
  | none, some filter => return .filter (← substitute vars filter)
  | none, none => .ok .allow

def declarativeOverwrite (rule : Option Json) (vars : Variables) : Except Error Object :=
  match part? rule "overwrite" with
  | some (.object fields) => substituteFields vars fields
  | some _ => .error (.rule "declarative" "`overwrite` must be an object")
  | none => .ok []

/-- Rules that are documents: `deny` with a reason, `where` with a filter, and `overwrite` with the
values of columns. A text `$name` stands for a variable. -/
def declarative : Rules where
  security _ rule vars := declarativeSecurity rule vars
  overwrite _ rule _ vars := declarativeOverwrite rule vars
  transformOutput _ _ rows := .ok rows
  expression text _ := .ok text

end Rules

end SqlGateway
