import SqlGateway.Connection.Session
import SqlGateway.Mutation.Plan
import SqlGateway.Number.Numeral

/-!
# Running write plans

The writes of a plan run one after another, each child with the values it takes from the row that
its parent answered with. Where the engine cannot return rows they are made up from what was written
and the first generated key. A failed root ends the plan, and so does any failure inside a
transaction; else a failed child is noted and everything below it is left out.
-/
namespace SqlGateway.Execution

open Connection (SessionM Session)
open Mutation (Plan WriteNode Kind)

variable {σ : Type}

/-- How a plan takes part in transactions. -/
structure TransactionOptions where
  /-- A transaction is to be open when the plan runs. -/
  opens : Bool
  /-- The plan is the last of its transaction. -/
  closes : Bool
  /-- The plan wants a transaction of its own. -/
  own : Bool
  /-- One transaction spans the whole request. -/
  spansRequest : Bool
  deriving DecidableEq, Repr

namespace TransactionOptions

def isOwn (o : TransactionOptions) : Bool := o.own && !o.spansRequest

def begins (o : TransactionOptions) : Bool := o.opens || o.isOwn

def commits (o : TransactionOptions) : Bool := o.closes || o.isOwn

end TransactionOptions

structure WriteOutcome where
  rows : List Json
  /-- The failures of children that did not end the plan. -/
  failures : List Error
  deriving Repr

/-- The row that an insert is taken to have written: its values, and the generated key if it has
none of its own. -/
def insertedRow (n : WriteNode) (firstKey : Option Int) (index : Nat) (values : List Json) :
    Object :=
  let row := Object.ofFields (n.columns.zip values)
  match n.generatedKey, firstKey with
  | some key, some first =>
    if ((row.get? key).getD .null).isNull then
      row.insert key (.int (Number.asInt64 (first + index)))
    else row
  | _, _ => row

/-- The rows that a write is taken to have answered with. -/
def presumedRows (n : WriteNode) (r : ResultSet) : List Object :=
  match n.kind with
  | .insert => n.rows.mapIdx (insertedRow n r.lastId)
  | _ => [[("affected_rows", .int r.affected)]]

def runNode (n : WriteNode) : SessionM σ (List Object) := do
  match (← get).dialect.returning with
  | .unsupported =>
    let result ← Session.execute n.sql n.parameters n.document
    return presumedRows n result
  | _ =>
    let result ← Session.query n.sql n.parameters n.document
    return result.rows.map result.rowObject

/-- The rows that the writes of a plan answered with, by place; none for a write that failed or was
left out. -/
abbrev Answers := List (Option (List Object))

def answerOf (answers : Answers) (id : Nat) : Option (List Object) := answers.getD id none

def unlinked (p : Plan) (n : WriteNode) (link : Mutation.ParentLink) : Error :=
  let parent := ((p.nodes[link.node]?).map (·.table)).getD ""
  .database n.document s!"`{parent}` returned no row {link.row + 1} to link `{n.table}` to"

/-- A write with the values of its parent's row, or nothing if the parent has no answer. -/
def linked? (p : Plan) (answers : Answers) (n : WriteNode) : Except Error (Option WriteNode) :=
  match n.parent with
  | none => .ok (some n)
  | some link =>
    match answerOf answers link.node with
    | none => .ok none
    | some rows =>
      match rows[link.row]? with
      | some row => .ok (some (n.inject row))
      | none => if n.injected.isEmpty then .ok (some n) else .error (unlinked p n link)

/-- Runs the write at a place, if its parent ran. -/
def step (p : Plan) (state : Answers × List Error) (id : Nat) :
    SessionM σ (Answers × List Error) := do
  let some n := p.nodes[id]? | return state
  let attempt : SessionM σ (Answers × List Error) := do
    match ← liftExcept (linked? p state.1 n) with
    | none => return state
    | some n =>
      let rows ← runNode n
      return (state.1.set id (some rows), state.2)
  tryCatch attempt fun e => do
    if n.parent.isNone || (← get).inTransaction then throw e
    return (state.1, state.2 ++ [e])

/-- Puts rows at the end of the list under a key; what is not a list makes way. -/
def extend (key : String) (rows : List Json) (o : Object) : Object :=
  match o.get? key with
  | some (.list items) => o.insert key (.list (items ++ rows))
  | _ => o.insert key (.list rows)

/-- The rows of a write with those of its children in them, at most `depth` levels deep. An empty
object stands for a child without an answer. -/
def nested (p : Plan) (answers : Answers) : (depth : Nat) → Nat → Option (List Object)
  | 0, _ => none
  | depth + 1, id => do
    let rows ← answerOf answers id
    let children := ((p.nodes[id]?).map (·.children)).getD []
    return children.foldl
      (fun rows child =>
        match (p.nodes[child]?).bind (·.parent) with
        | none => rows
        | some link =>
          let payload := (nested p answers depth child).getD [[]]
          rows.modify link.row (extend link.key (payload.map .object)))
      rows

/-- The answer of the plan: the rows of its roots, as far as they were asked for. -/
def outcome (p : Plan) (answers : Answers) (failures : List Error) : WriteOutcome where
  rows := p.roots.flatMap fun root =>
    ((nested p answers p.nodes.length root).getD []).map fun row => .object (p.projection.apply row)
  failures := failures

def runNodes (p : Plan) : SessionM σ WriteOutcome := do
  let start : Answers := List.replicate p.nodes.length none
  let (answers, failures) ← p.executionOrder.foldlM (step p) (start, [])
  return outcome p answers failures

/-- Runs a plan and, as far as the options say, opens and closes the transaction around it. After a
failure no transaction is open. -/
def runPlan (options : TransactionOptions) (p : Plan) : SessionM σ WriteOutcome := do
  if options.begins && !(← get).inTransaction then Session.begin_
  let result ← tryCatch (runNodes p) fun e => do
    Session.abandon
    throw e
  if options.commits then Session.commit 1
  return result

end SqlGateway.Execution
