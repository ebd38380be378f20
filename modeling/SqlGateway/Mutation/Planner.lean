import SqlGateway.Mutation.Plan
import SqlGateway.Mutation.Statement
import SqlGateway.Query.Compiler

/-!
# Planning writes

A document is screened, the values that the transforming role forces are put in, and its fields are
told apart: columns of the table, and documents for tables that are joined to it. Nested documents
become inserts below the write of their parent. The batch of the outermost documents is one insert,
laid out by the columns of the first of them.
-/
namespace SqlGateway.Mutation

open Request (Field Variables)
open Schema (Join Registry)

/-- Documents for a table that is joined to the one they stand in. -/
structure ChildGroup where
  key : String
  table : String
  join : Join
  documents : List Object
  deriving Repr

structure SplitDocument where
  columns : List (String × Json)
  children : List ChildGroup
  deriving Repr

structure Planner where
  schema : Registry
  dialect : Dialect
  rules : Rules

mutual

/-- How deeply lists and objects are nested in a value. -/
def nesting : Json → Nat
  | .list items => nestingOfItems items + 1
  | .object fields => nestingOfFields fields + 1
  | _ => 0

def nestingOfItems : List Json → Nat
  | [] => 0
  | item :: rest => max (nesting item) (nestingOfItems rest)

def nestingOfFields : Object → Nat
  | [] => 0
  | (_, v) :: rest => max (nesting v) (nestingOfFields rest)

end

def denied (table : String) (kind : Kind) (reason : String) : Error :=
  .rule "security" s!"{kind.name} on `{table}` denied: {reason}"

def documentOf? : Json → Option Object
  | .object fields => some fields
  | _ => none

/-- An object, or a list of nothing but objects. -/
def childDocuments? : Json → Option (List Object)
  | .object fields => some [fields]
  | .list items => items.mapM documentOf?
  | _ => none

/-- The documents of an insert: one object, or a list that holds at least one. -/
def insertDocuments (table : String) (docs : Json) : Except Error (List Object) := do
  let documents ←
    match docs with
    | .object fields => pure [fields]
    | .list items => items.mapM fun item =>
      match item with
      | .object fields => .ok fields
      | other => .error (.invalid s!"documents for `{table}` must be objects, got {other.compact}")
    | other => throw (.invalid
        s!"documents for `{table}` must be an object or an array, got {other.compact}")
  if documents.isEmpty then throw (.invalid s!"no documents to insert into `{table}`")
  return documents

/-- What the field named `returning` selects. -/
def returningProjection (f : Field) : Projection :=
  match f.selection.find? (·.name == "returning") with
  | some r => .ofSelection r.selection
  | none => .empty

def requiredDocuments (f : Field) (vars : Variables) : Except Error Json :=
  match f.resolved vars "docs" with
  | some docs => .ok docs
  | none => .error (.invalid s!"`{f.name}` requires `docs`")

/-- The columns of a child write: its own, and those of the join that it does not set itself. -/
def injectedColumns (join : Join) (own : List (String × Json)) :
    List (String × Json) × List Injection :=
  join.pairs.foldl
    (fun (columns, injected) (parentColumn, childColumn) =>
      if columns.any (·.1 == childColumn) then (columns, injected)
      else (columns ++ [(childColumn, .null)], injected ++ [⟨columns.length, parentColumn⟩]))
    (own, [])

/-- The columns asked back of a parent, with those that its children need. Where all are asked back
nothing has to be added. -/
def extendedReturning (join : Join) (returning : List String) : List String :=
  join.pairs.foldl
    (fun returning (parentColumn, _) =>
      if returning.isEmpty || returning.contains parentColumn then returning
      else returning ++ [parentColumn])
    returning

/-- The values of a document in the order of given columns. -/
def valuesFor (columns : List String) (document : SplitDocument) : List Json :=
  columns.map fun column => (((document.columns.find? (·.1 == column)).map (·.2))).getD .null

namespace Planner

variable (p : Planner)

def security (vars : Variables) (table : String) : Except Error Decision :=
  Rules.asRole "security" (p.rules.security table (p.schema.securityRules.get? table) vars)

/-- Of what the security role may say, an insert heeds only a refusal. -/
def checkWrite (vars : Variables) (kind : Kind) (table : String) : Except Error Unit := do
  match ← p.security vars table with
  | .deny reason => throw (denied table kind reason)
  | _ => return ()

/-- The clauses of the caller's filter and of the security role's. -/
def writeFilter (vars : Variables) (kind : Kind) (table : String) (filter : Option Json) :
    Except Error (Option String) := do
  let context : Query.FilterContext := ⟨p.dialect, table, false⟩
  let own ←
    match filter with
    | some tree => Query.Condition.compile context tree
    | none => pure none
  let ruled ←
    match ← p.security vars table with
    | .allow => pure none
    | .deny reason => throw (denied table kind reason)
    | .filter tree => Query.Condition.compile context tree
  let clauses := own.toList ++ ruled.toList
  return if clauses.isEmpty then none else some (" AND ".intercalate clauses)

/-- Whether the lack of a join lets a list be stored as a value. -/
def isMissingJoin : Error → Bool
  | .joinNotFound .. | .schemaNotFound _ => true
  | _ => false

/-- Puts a field of a document where it belongs. -/
def place (table : String) (split : SplitDocument) (key : String) (v : Json) :
    Except Error SplitDocument := do
  let asColumn : SplitDocument := { split with columns := split.columns ++ [(key, v)] }
  if (p.schema.column? table key).isSome then return asColumn
  match childDocuments? v with
  | none =>
    Name.ensureSafe "column" key
    return asColumn
  | some documents =>
    let child := Name.internal key
    match p.schema.join table child with
    | .ok join =>
      return { split with children := split.children ++ [⟨key, child, join, documents⟩] }
    | .error e =>
      if isMissingJoin e && v.asList?.isSome then
        Name.ensureSafe "column" key
        return asColumn
      else throw e

def screenDocument (document : Object) : Except Error Unit :=
  document.forM fun (key, v) => do
    Guard.checkText "docs" key
    Guard.check key v

/-- A screened document with the forced values, told apart into columns and child documents. -/
def split (vars : Variables) (table : String) (document : Object) :
    Except Error SplitDocument := do
  screenDocument document
  let forced ← Rules.asRole "transform"
    (p.rules.overwrite table (p.schema.transformRules.get? table) document vars)
  (Object.insertAll forced document).foldlM
    (fun split (key, v) => p.place table split key v) ⟨[], []⟩

def newNode (table : String) (kind : Kind) (columns : List String) (rows : List (List Json))
    (document : Nat) (projection : Projection) : WriteNode where
  table := table
  kind := kind
  columns := columns
  rows := rows
  injected := []
  parent := none
  children := []
  document := document
  filter := none
  returning := projection.fields
  generatedKey := (p.schema.autoIncrement? table).map (·.columnName)
  projection := projection
  sql := ""

/-- The statement of a node; that of an insert from a query is made with it. -/
def statementOf (n : WriteNode) : String :=
  match n.kind with
  | .insert => Statement.insert p.dialect n.table n.columns n.rows.length n.returning
  | .update => Statement.update p.dialect n.table n.columns n.filter n.returning
  | .delete => Statement.delete p.dialect n.table n.filter n.returning
  | .insertSelect => n.sql

/-- Writes the statement of a node, when the columns it is asked for are known. -/
def finish (nodes : List WriteNode) (id : Nat) : List WriteNode :=
  nodes.modify id fun n => { n with sql := p.statementOf n }

/-- The nodes with the insert of one nested document, whose own nested documents `attach` adds. -/
def attachDocument (attach : List WriteNode → Nat → ChildGroup → Except Error (List WriteNode))
    (vars : Variables) (document parent row : Nat) (group : ChildGroup)
    (projection : Projection) (nodes : List WriteNode) (content : Object) :
    Except Error (List WriteNode) := do
  let split ← p.split vars group.table content
  let (columns, injected) := injectedColumns group.join split.columns
  let id := nodes.length
  let node := p.newNode group.table .insert (columns.map (·.1)) [columns.map (·.2)] document
    projection
  let node := { node with injected, parent := some ⟨parent, row, group.key⟩ }
  let linked := nodes.modify parent fun n =>
    { n with
      returning := extendedReturning group.join n.returning
      children := n.children ++ [id] }
  let nodes ← split.children.foldlM (fun nodes group => attach nodes id group) (linked ++ [node])
  return p.finish nodes id

/-- The nodes with the inserts of a group of nested documents below a row of a parent. Groups are
nested at most `depth` deep. The documents of a caller end before that. Forced values may nest
documents in one another without end, and their planning would not end either: the error is one of
the bound alone. -/
def attachGroup (vars : Variables) (document : Nat) :
    (depth : Nat) → List WriteNode → (parent row : Nat) → ChildGroup →
      Except Error (List WriteNode)
  | 0, _, _, _, group => .error (.invalid s!"documents for `{group.table}` are nested too deeply")
  | depth + 1, nodes, parent, row, group => do
    p.checkWrite vars .insert group.table
    let projection := ((nodes[parent]?).map (·.projection.child group.key)).getD .empty
    group.documents.foldlM
      (p.attachDocument
        (fun nodes id group => attachGroup vars document depth nodes id 0 group)
        vars document parent row group projection)
      nodes

/-- How deep nested documents may go: a thousand groups deeper than the documents of the caller. The
documents of the caller end, so only forced values reach the bound. A plan that is made does not
depend on it (`attachRows_of_le`). -/
def depthFor (docs : Json) : Nat := nesting docs + 1000

/-- The nodes with the children of the documents of a root, by row. -/
def attachRows (vars : Variables) (depth : Nat) (root : Nat) (nodes : List WriteNode)
    (rows : List (Nat × SplitDocument)) : Except Error (List WriteNode) :=
  rows.foldlM
    (fun nodes (row, split) =>
      split.children.foldlM
        (fun nodes group => p.attachGroup vars (row + 1) depth nodes root row group) nodes)
    nodes

def planInsert (vars : Variables) (table : String) (docs : Json)
    (projection : Projection) : Except Error Plan := do
  let documents ← insertDocuments table docs
  p.checkWrite vars .insert table
  let split ← documents.mapM (p.split vars table)
  let columns := ((split.head?.map (·.columns)).getD []).map (·.1)
  if columns.isEmpty then throw (.invalid s!"insert into `{table}` has no column values")
  let root := p.newNode table .insert columns (split.map (valuesFor columns)) 1 projection
  let nodes ← p.attachRows vars (depthFor docs) 0 [root] (split.mapIdx fun i s => (i, s))
  return ⟨.insert, table, p.finish nodes 0, [0], projection⟩

def updateDocument (table : String) : Json → Except Error Object
  | .object fields => .ok fields
  | .list _ => .error (.invalid s!"update of `{table}` takes a single document, not an array")
  | other => .error (.invalid
      s!"update document for `{table}` must be an object, got {other.compact}")

/-- Nested documents of an update are inserted below the first row that was updated. -/
def planUpdate (vars : Variables) (table : String) (docs : Json) (filter : Option Json)
    (projection : Projection) : Except Error Plan := do
  let document ← updateDocument table docs
  let filter ← p.writeFilter vars .update table filter
  let split ← p.split vars table document
  if split.columns.isEmpty then throw (.invalid s!"update of `{table}` sets no columns")
  let root := p.newNode table .update (split.columns.map (·.1)) [split.columns.map (·.2)] 1
    projection
  let nodes ← p.attachRows vars (depthFor docs) 0 [{ root with filter }] [(0, split)]
  return ⟨.update, table, p.finish nodes 0, [0], projection⟩

def planDelete (vars : Variables) (table : String) (filter : Option Json)
    (projection : Projection) : Except Error Plan := do
  let filter ← p.writeFilter vars .delete table filter
  let root := p.newNode table .delete [] [] 1 projection
  return ⟨.delete, table, p.finish [{ root with filter }] 0, [0], projection⟩

/-- The kind and the table of a field, which must be in the active schema. -/
def target (f : Field) : Except Error (Kind × String) := do
  let some (kind, table) := Kind.ofFieldName? f.name
    | throw (.invalid s!"`{f.name}` is not a mutation field")
  let table := Name.internal table
  Name.ensureSafe "table" table
  let _ ← p.schema.table table
  return (kind, table)

/-- The plan of an insert, an update or a delete. -/
def plan (vars : Variables) (f : Field) : Except Error Plan := do
  let (kind, table) ← p.target f
  let projection := returningProjection f
  match kind with
  | .insert => p.planInsert vars table (← requiredDocuments f vars) projection
  | .update =>
    let docs ← requiredDocuments f vars
    p.planUpdate vars table docs (f.resolved vars "where") projection
  | .delete => p.planDelete vars table (f.resolved vars "where") projection
  | .insertSelect => throw (.invalid s!"`{f.name}` needs the named query given by `select`")

/-- The plan of an insert from a compiled query, which must not be nested. -/
def planInsertSelect (vars : Variables) (f : Field) (query : Query.CompiledQuery) :
    Except Error Plan := do
  let (kind, table) ← p.target f
  if kind ≠ .insertSelect then throw (.invalid s!"`{f.name}` is not an insertselect field")
  if query.columns.any (0 < ·.label.level) then
    throw (.invalid s!"query feeding `{f.name}` must not select nested tables")
  p.checkWrite vars kind table
  let projection := returningProjection f
  let columns := query.outputColumns
  columns.forM (Name.ensureSafe "column")
  let root := p.newNode table kind columns [] 1 projection
  let sql := Statement.insertSelect p.dialect table columns query.sql root.returning
  return ⟨kind, table, [{ root with sql }], [0], projection⟩

end Planner

end SqlGateway.Mutation
