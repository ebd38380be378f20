import SqlGateway.Engine.Response
import SqlGateway.Execution.Read
import SqlGateway.Execution.Write
import SqlGateway.Mutation.Plan
import SqlGateway.Mutation.Planner
import SqlGateway.Query.Template

/-!
# Prepared fields

What a field comes to before anything is sent: a compiled query, a raw statement with its
parameters, or a plan of writes; and how each of them is run.

A schedule has the fields of a document in the order in which they are run, each with its variables
and the data source it goes to. A query that feeds an insert is not run by itself.
-/

namespace SqlGateway.Engine

open Request (Document Field Operation OperationKind Variables)

structure Task where
  operation : Operation
  field : Field
  vars : Variables
  /-- The name of the data source. -/
  source : String
  deriving Repr

namespace Task

def isMutation (t : Task) : Bool := t.operation.kind == .mutation

def outputName (t : Task) : String := t.field.outputName

end Task

/-- The query that a field inserts the rows of, by name. -/
def feedingQuery? (vars : Variables) (f : Field) : Option String :=
  match Mutation.Kind.ofFieldName? f.name with
  | some (.insertSelect, _) => (f.resolved vars "select").bind (·.asText?)
  | _ => none

/-- The names of the operations whose rows are inserted by some field. -/
def feedingQueries (d : Document) (supplied : Variables) : List String :=
  d.operations.flatMap fun op => op.selection.filterMap (feedingQuery? (op.variablesWith supplied))

/-- The source that a directive names. -/
def namedSource? (vars : Variables) (directives : List Request.Directive) : Option String :=
  ((Request.findDirective directives "source").bind fun d =>
    (Request.findArgument d.arguments "name").bind (·.resolve vars)).bind (·.asText?)

/-- The source of a field: what it names itself, what its operation names, or the default. -/
def sourceOf (defaultSource : Option String) (vars : Variables) (op : Operation) (f : Field) :
    Except Error String :=
  let source := (namedSource? vars f.directives)
    |>.or (namedSource? vars op.directives)
    |>.or defaultSource
  match source with
  | some name => .ok name
  | none => .error (.invalid
      s!"`{f.outputName}` names no @source and no default source is configured")

def tasksOf (defaultSource : Option String) (supplied : Variables) (op : Operation) :
    Except Error (List Task) :=
  let vars := op.variablesWith supplied
  op.selection.mapM fun field =>
    return ⟨op, field, vars, ← sourceOf defaultSource vars op field⟩

/-- The tasks of a document. -/
def schedule (defaultSource : Option String) (d : Document) (supplied : Variables) :
    Except Error (List Task) := do
  let feeding := feedingQueries d supplied
  let run := d.operations.filter fun op => !op.name.any feeding.contains
  return (← run.mapM (tasksOf defaultSource supplied)).flatten

/-- Whether one transaction spans the request: the caller or a mutation of the document wants it. -/
def spansTransaction (s : Submission) (d : Document) : Bool :=
  s.singleTransaction ||
    d.operations.any fun op => op.kind == .mutation && op.hasDirective "singleTxn"

open Connection (SessionM)

variable {σ : Type}

inductive Prepared where
  | query (q : Query.CompiledQuery)
  | raw (sql : String) (parameters : List Json) (isMutation : Bool)
  /-- A plan, and whether it wants a transaction of its own. -/
  | write (plan : Mutation.Plan) (ownTransaction : Bool)

namespace Prepared

/-- The statements in the order in which they would be sent. -/
def statements : Prepared → List String
  | query q => [q.sql]
  | raw sql _ _ => [sql]
  | write plan _ => plan.executionOrder.filterMap fun id => (plan.nodes[id]?).map (·.sql)

end Prepared

/-- A raw statement from the template that a field gives. -/
def prepareRaw (dialect : Dialect) (t : Task) : Except Error Prepared := do
  let some (.text template) := t.field.resolved t.vars "query"
    | throw (.invalid "`sql` requires a string `query` argument")
  let (sql, parameters) ← Query.Template.bind dialect t.vars template
  return .raw sql parameters t.isMutation

/-- Whether a field wants a transaction of its own. -/
def ownTransaction (t : Task) : Except Error Bool :=
  match t.field.resolved t.vars "txn" with
  | none => .ok false
  | some (.bool b) => .ok b
  | some other => .error (.invalid s!"`txn` must be a boolean, got {other.compact}")

/-- The operation that a field inserts the rows of, and its first field. -/
def feedingField (d : Document) (t : Task) : Except Error (Operation × Field) := do
  let some (.text name) := t.field.resolved t.vars "select"
    | throw (.invalid s!"`{t.field.name}` requires a `select` naming a query")
  let some op := (d.operation? name).filter (·.kind == .query)
    | throw (.invalid s!"no query named `{name}`")
  let some first := op.selection.head?
    | throw (.invalid s!"query `{name}` selects nothing")
  return (op, first)

/-- The plan of a mutation field. -/
def planOf (compiler : Query.Compiler) (d : Document) (supplied : Variables) (t : Task) :
    Except Error Mutation.Plan := do
  let planner : Mutation.Planner := ⟨compiler.schema, compiler.dialect, compiler.rules⟩
  match Mutation.Kind.ofFieldName? t.field.name with
  | some (.insertSelect, _) =>
    let (op, field) ← feedingField d t
    let query ← compiler.compileUnlimited (op.variablesWith supplied) field
    planner.planInsertSelect t.vars t.field query
  | _ => planner.plan t.vars t.field

def prepare (compiler : Query.Compiler) (d : Document) (supplied : Variables) (t : Task) :
    Except Error Prepared := do
  if t.field.name = "sql" then prepareRaw compiler.dialect t
  else if !t.isMutation then return .query (← compiler.compile t.vars t.field)
  else
    let own ← ownTransaction t
    return .write (← planOf compiler d supplied t) own

/-- What a field answers with. -/
inductive FieldOutput where
  | rows (rows : List Json)
  | written (rows : List Json) (failures : List Error)

/-- Runs a prepared field. `spansRequest` tells whether one transaction spans the request. -/
def runPrepared (compiler : Query.Compiler) (spansRequest : Bool) :
    Prepared → SessionM σ FieldOutput
  | .query q => return .rows (← Execution.runQuery compiler.schema compiler.rules q)
  | .raw sql parameters isMutation => do
    let rows ← Execution.runRaw sql parameters
    return if isMutation then .written rows [] else .rows rows
  | .write plan own => do
    let opens := spansRequest && !(← get).inTransaction
    let outcome ← Execution.runPlan ⟨opens, false, own, spansRequest⟩ plan
    return .written outcome.rows outcome.failures

end SqlGateway.Engine
