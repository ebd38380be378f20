import SqlGateway.Json.Basic

/-!
# Request documents

A document is a list of operations, an operation a selection of fields, and a field a name with
arguments, directives and a selection of its own. Argument values may still name variables.
-/
namespace SqlGateway.Request

open Number (Binary64)

/-- The value of an argument as it is written. -/
inductive Value where
  | null
  | bool (b : Bool)
  | int (n : Int)
  | float (x : Binary64)
  | text (s : String)
  | list (items : List Value)
  | object (fields : List (String × Value))
  | variable (name : String)
  deriving Repr, Inhabited

/-- The values of the variables of a request. -/
abbrev Variables := Object

mutual

/-- The value with its variables looked up. A variable without a value gives nothing: an object then
lacks that field, and a list holds null in that place. -/
def Value.resolve (vars : Variables) : Value → Option Json
  | .null => some .null
  | .bool b => some (.bool b)
  | .int n => some (.int n)
  | .float x => some (Json.ofFloat x)
  | .text s => some (.text s)
  | .list items => some (.list (resolveItems vars items))
  | .object fields => some (.object (Object.ofFields (resolveFields vars fields)))
  | .variable name => vars.get? name

def resolveItems (vars : Variables) : List Value → List Json
  | [] => []
  | item :: rest => (item.resolve vars).getD .null :: resolveItems vars rest

def resolveFields (vars : Variables) : List (String × Value) → Object
  | [] => []
  | (key, value) :: rest =>
    match value.resolve vars with
    | some v => (key, v) :: resolveFields vars rest
    | none => resolveFields vars rest

end

structure Argument where
  name : String
  value : Value
  deriving Repr

def findArgument (arguments : List Argument) (name : String) : Option Value :=
  (arguments.find? (·.name == name)).map (·.value)

structure Directive where
  name : String
  arguments : List Argument
  deriving Repr

def findDirective (directives : List Directive) (name : String) : Option Directive :=
  directives.find? (·.name == name)

/-- A requested field: `alias: name(arguments) @directive { selection }`. -/
structure Field where
  label : Option String
  name : String
  arguments : List Argument
  directives : List Directive
  selection : List Field
  deriving Repr, Inhabited

namespace Field

/-- The key of the field in the answer. -/
def outputName (f : Field) : String := f.label.getD f.name

def isLeaf (f : Field) : Bool := f.selection.isEmpty

def argument (f : Field) (name : String) : Option Value := findArgument f.arguments name

/-- The value of the first argument of that name, unless it is null or an unknown variable. -/
def resolved (f : Field) (vars : Variables) (name : String) : Option Json :=
  ((f.argument name).bind (·.resolve vars)).filter (!·.isNull)

def directive (f : Field) (name : String) : Option Directive := findDirective f.directives name

def hasDirective (f : Field) (name : String) : Bool := (f.directive name).isSome

end Field

inductive OperationKind where
  | query
  | mutation
  deriving DecidableEq, Repr

/-- A variable of an operation: `$name: type = default`. -/
structure VariableDefinition where
  name : String
  typeName : String
  default : Option Value
  deriving Repr

structure Operation where
  kind : OperationKind
  name : Option String
  definitions : List VariableDefinition
  directives : List Directive
  selection : List Field
  deriving Repr

namespace Operation

def hasDirective (op : Operation) (name : String) : Bool :=
  (findDirective op.directives name).isSome

/-- The variables of a request on top of the defaults of the operation. A default may itself name a
variable of the request. -/
def variablesWith (op : Operation) (supplied : Variables) : Variables :=
  let defaults := op.definitions.filterMap fun d =>
    (d.default.bind (·.resolve supplied)).map (d.name, ·)
  Object.insertAll supplied (Object.ofFields defaults)

end Operation

structure Document where
  operations : List Operation
  deriving Repr

def Document.operation? (d : Document) (name : String) : Option Operation :=
  d.operations.find? (·.name == some name)

end SqlGateway.Request
