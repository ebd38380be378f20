import SqlGateway.Dialect.Paging
import SqlGateway.Query.Condition
import SqlGateway.Query.OrderTerm
import SqlGateway.Query.Slot
import SqlGateway.Rules
import SqlGateway.Schema.Registry

/-!
# Compiled queries

A field of a request becomes one flat statement. Its selection is walked depth first: every leaf
adds a column with an alias that says where it belongs, every nested field adds a slot and joins its
table unless that table is already joined. The slots say how the rows fold back into nested objects.
-/
namespace SqlGateway.Query

open Request (Field Variables)
open Schema (JoinKind Registry)

structure SelectColumn where
  expression : String
  label : Alias
  aggregate : Bool
  deriving DecidableEq, Repr

structure CompiledQuery where
  mainTable : String
  outputName : String
  columns : List SelectColumn
  joins : List String
  filter : Option String
  groupBy : List String
  orderBy : List String
  distinct : Bool
  limit : Int
  skip : Int
  slots : Slots
  /-- The whole statement, with its row limit. -/
  sql : String
  /-- The rows are wanted as flat text. -/
  csv : Bool
  deriving Repr

/-- The names of the columns of the main table, in order. -/
def CompiledQuery.outputColumns (q : CompiledQuery) : List String :=
  (q.columns.filter (·.label.level == 0)).map (·.label.name)

/-- What a query is compiled against. -/
structure Compiler where
  schema : Registry
  dialect : Dialect
  rules : Rules
  defaultLimit : Int

/-- What a walk has collected. -/
structure Walk where
  slots : Slots
  columns : List SelectColumn
  joins : List String
  joined : List String
  filters : List String
  orderBy : List String
  deriving Repr

def aggregates : List String := ["sum", "count", "avg", "min", "max"]

mutual

/-- Screens every argument of a field and of the fields below it. -/
def screenArguments (vars : Variables) : Field → Except Error Unit
  | ⟨_, _, arguments, _, selection⟩ => do
    arguments.forM fun a =>
      match a.value.resolve vars with
      | some v => Guard.check a.name v
      | none => .ok ()
    screenSelection vars selection

def screenSelection (vars : Variables) : List Field → Except Error Unit
  | [] => .ok ()
  | f :: rest => do
    screenArguments vars f
    screenSelection vars rest

end

def boolArgument (f : Field) (name : String) (vars : Variables) : Except Error Bool :=
  match f.resolved vars name with
  | none => .ok false
  | some (.bool b) => .ok b
  | some other => .error (.invalid
      s!"`{name}` on `{f.name}` must be a boolean, got {other.compact}")

/-- A whole number; of any other number the integer part, clamped to 64 bits. -/
def intArgument (f : Field) (name : String) (vars : Variables) : Except Error Int :=
  match f.resolved vars name with
  | none => .ok 0
  | some (.int n) => .ok (OrderTerm.ordinal (.int n))
  | some (.float x) => .ok (OrderTerm.ordinal (.float x))
  | some other => .error (.invalid
      s!"`{name}` on `{f.name}` must be an integer, got {other.compact}")

def joinKind (name : String) : Except Error JoinKind :=
  match JoinKind.ofName? name with
  | some kind => .ok kind
  | none => .error (.invalid s!"unknown join type `{name}`")

namespace Compiler

variable (c : Compiler)

def filterContext (table : String) : FilterContext := ⟨c.dialect, table, false⟩

/-- The clause of a filter, if it has one, at the end of the clauses so far. -/
def addFilter (table : String) (walk : Walk) (tree : Json) : Except Error Walk := do
  let clause ← Condition.compile (c.filterContext table) tree
  return { walk with filters := walk.filters ++ clause.toList }

/-- The filter of the caller, the filter of the security role, and the order terms of a table. -/
def tableClauses (vars : Variables) (f : Field) (table : String) (walk : Walk) :
    Except Error Walk := do
  let walk ←
    match f.resolved vars "where" with
    | some tree => c.addFilter table walk tree
    | none => pure walk
  let rule := c.schema.securityRules.get? table
  let walk ←
    match ← Rules.asRole "security" (c.rules.security table rule vars) with
    | .allow => pure walk
    | .deny reason => throw (.rule "security" s!"read on `{table}` denied: {reason}")
    | .filter tree => c.addFilter table walk tree
  match f.resolved vars "sort" with
  | some sort => return { walk with orderBy := walk.orderBy ++ (← OrderTerm.compile table sort) }
  | none => return walk

/-- The expression below an aggregate: a calculation, or a column of the table. -/
def baseExpression (vars : Variables) (f : Field) (table : String) :
    Except Error String := do
  match f.resolved vars "calc" with
  | some (.text expression) =>
    let sql ← Rules.asRole "expression" (c.rules.expression expression vars)
    Guard.checkText "calc" sql
    return sql
  | some _ => throw (.invalid "`calc` must be a string")
  | none =>
    Name.ensureSafe "column" f.name
    if (c.schema.column? table f.name).isNone then
      throw (.schemaNotFound s!"column `{table}.{f.name}`")
    return table ++ "." ++ f.name

def aggregateOf (vars : Variables) (f : Field) : Except Error (Option String) :=
  match f.resolved vars "aggregate" with
  | none => .ok none
  | some (.text name) =>
    let name := Text.lowered name
    if aggregates.contains name then .ok (some name)
    else .error (.invalid s!"unknown aggregate `{name}` on `{f.name}`")
  | some _ => .error (.invalid "`aggregate` must be a string")

/-- The select list entry of a leaf field. -/
def leafColumn (vars : Variables) (f : Field) (table : String) (level slot : Nat) :
    Except Error SelectColumn := do
  let base ← c.baseExpression vars f table
  let aggregate ← aggregateOf vars f
  let distinct ← boolArgument f "distinct" vars
  let label := ⟨level, slot, f.outputName⟩
  return match aggregate, distinct with
    | some name, true => ⟨s!"{name}(distinct {base})", label, true⟩
    | none, true => ⟨s!"count(distinct {base})", label, true⟩
    | some name, false => ⟨s!"{name}({base})", label, true⟩
    | none, false => ⟨base, label, false⟩

/-- The condition of the join that the registry holds for two tables. -/
def registryCondition (parent child : String) : Except Error String := do
  let join ← c.schema.join parent child
  let further ←
    match join.complexCondition with
    | some tree => Condition.compile ⟨c.dialect, child, true⟩ tree
    | none => pure none
  let equalities := join.equalityCondition
  let parts := (if equalities.isEmpty then [] else [equalities]) ++ further.toList
  if parts.isEmpty then throw (.joinNotFound parent child)
  return " AND ".intercalate parts

/-- An equality that the caller asks for: a column of the parent and one of the child. -/
def explicitPair (parent child left : String) (right : Json) : Except Error String := do
  let some right := right.asText? | throw (.invalid "`join.on` values must be column names")
  let left := Name.qualify parent left
  let right := Name.qualify child right
  Name.ensureSafe "join" left
  Name.ensureSafe "join" right
  return s!"{left} = {right}"

def joinCondition (parent child : String) : Option Json → Except Error String
  | none | some .null => c.registryCondition parent child
  | some (.object (first :: rest)) => do
    let pairs ← (first :: rest).mapM fun (left, right) => explicitPair parent child left right
    return " AND ".intercalate pairs
  | some _ => .error (.invalid "`join.on` must be a non-empty object")

def joinKindOf : Option Json → Except Error JoinKind
  | none | some .null => .ok .left
  | some (.text name) => joinKind name
  | some _ => .error (.invalid "`join.type` must be a string")

/-- The kind and the condition of the join that a nested field asks for. -/
def joinSpec (vars : Variables) (f : Field) (parent child : String) :
    Except Error (JoinKind × String) := do
  match f.resolved vars "join" with
  | none => return (.left, ← c.registryCondition parent child)
  | some (.text name) =>
    let kind ← joinKind name
    return (kind, ← c.registryCondition parent child)
  | some (.object spec) =>
    let kind ← joinKindOf (Object.get? "type" spec)
    return (kind, ← c.joinCondition parent child (Object.get? "on" spec))
  | some _ => throw (.invalid "`join` must be a string or an object")

/-- Joins the table of a nested field, once. -/
def addJoin (vars : Variables) (f : Field) (parent child : String) (walk : Walk) :
    Except Error Walk := do
  if walk.joined.contains child then return walk
  let (kind, condition) ← c.joinSpec vars f parent child
  return { walk with
    joins := walk.joins ++ [s!"{kind.sql} {child} ON {condition}"]
    joined := walk.joined ++ [child] }

mutual

/-- Walks one field below a slot. -/
def walkField (vars : Variables) (table : String) (level slot : Nat) (walk : Walk) :
    Field → Except Error Walk
  | ⟨label, name, arguments, directives, selection⟩ => do
    let f : Field := ⟨label, name, arguments, directives, selection⟩
    Name.ensureSafe "field" f.outputName
    if selection.isEmpty then
      let column ← c.leafColumn vars f table level slot
      return { walk with
        columns := walk.columns ++ [column]
        slots := walk.slots.addEntry level slot (.field f.outputName) }
    else
      let child := Name.internal name
      Name.ensureSafe "table" child
      let _ ← c.schema.table child
      let number := (walk.slots.level (level + 1)).length
      let slots := walk.slots.add (level + 1) ⟨child, f.outputName, true, some slot, []⟩
      let walk := { walk with slots := slots.addEntry level slot (.child number) }
      let walk ← c.addJoin vars f table child walk
      let walk ← c.tableClauses vars f child walk
      walkSelection vars child (level + 1) number walk selection

def walkSelection (vars : Variables) (table : String) (level slot : Nat) (walk : Walk) :
    List Field → Except Error Walk
  | [] => .ok walk
  | f :: rest => do
    let walk ← walkField vars table level slot walk f
    walkSelection vars table level slot walk rest

end

/-- The expressions to group by: those that are not aggregated, each once, if any is aggregated. -/
def groupTerms (columns : List SelectColumn) : List String :=
  if columns.any (·.aggregate) then
    ((columns.filter (!·.aggregate)).map (·.expression)).foldl
      (fun seen e => if seen.contains e then seen else seen ++ [e]) []
  else []

def selectItem (column : SelectColumn) : String :=
  column.expression ++ " AS " ++ c.dialect.quoteAlias column.label.encode

/-- A clause with its keyword, if it has terms. -/
def clause (keyword : String) (separator : String) (terms : List String) : String :=
  if terms.isEmpty then "" else " " ++ keyword ++ " " ++ separator.intercalate terms

/-- The statement of a finished walk, without a row limit. -/
def statement (distinct : Bool) (main : String) (walk : Walk) : String :=
  "SELECT " ++ (if distinct then "DISTINCT " else "")
    ++ ", ".intercalate (walk.columns.map c.selectItem) ++ " FROM " ++ main
    ++ String.join (walk.joins.map (" " ++ ·))
    ++ clause "WHERE" " AND " walk.filters
    ++ clause "GROUP BY" ", " (groupTerms walk.columns)
    ++ clause "ORDER BY" ", " walk.orderBy

/-- The walk of a whole field, from an empty start. -/
def walkRoot (vars : Variables) (f : Field) (main : String) : Except Error Walk := do
  let slots := Slots.empty.add 0 ⟨main, f.outputName, false, none, []⟩
  let walk : Walk := ⟨slots, [], [], [main], [], []⟩
  let walk ← c.tableClauses vars f main walk
  c.walkSelection vars main 0 0 walk f.selection

/-- Compiles a field. An unlimited query gets a row limit only if the caller asks for one. -/
def compileWith (limited : Bool) (vars : Variables) (f : Field) :
    Except Error CompiledQuery := do
  let main := Name.internal f.name
  Name.ensureSafe "table" main
  let _ ← c.schema.table main
  screenArguments vars f
  let distinct ← boolArgument f "distinct" vars
  let limit ← intArgument f "limit" vars
  let skip ← intArgument f "skip" vars
  let walk ← c.walkRoot vars f main
  if walk.columns.isEmpty then throw (.invalid s!"selection on `{main}` requests no columns")
  let unpaged := c.statement distinct main walk
  let sql :=
    if limited || 0 < limit || 0 < skip then c.dialect.paged unpaged limit skip c.defaultLimit
    else unpaged
  return {
    mainTable := main
    outputName := f.outputName
    columns := walk.columns
    joins := walk.joins
    filter := if walk.filters.isEmpty then none else some (" AND ".intercalate walk.filters)
    groupBy := groupTerms walk.columns
    orderBy := walk.orderBy
    distinct
    limit
    skip
    slots := walk.slots
    sql
    csv := f.hasDirective "csv" }

def compile (vars : Variables) (f : Field) : Except Error CompiledQuery :=
  c.compileWith true vars f

def compileUnlimited (vars : Variables) (f : Field) : Except Error CompiledQuery :=
  c.compileWith false vars f

end Compiler

end SqlGateway.Query
