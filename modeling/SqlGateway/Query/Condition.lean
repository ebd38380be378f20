import SqlGateway.Guard
import SqlGateway.Name
import SqlGateway.Number.Layout
import SqlGateway.Number.Numeral
import SqlGateway.Query.Literal

/-!
# Filter conditions

A filter value is a tree of objects. Its keys are path segments of a column, constants, operators
and the two connectives; its leaves are the values to compare with. Reading it gives a condition,
and the condition has one text. Fields and list items without a value contribute nothing.
-/
namespace SqlGateway.Query

open Number Text

/-- The left side of a comparison: a column path, or a constant of the filter. -/
inductive Subject where
  | path (segments : String)
  | constant (text : String)
  deriving DecidableEq, Repr

/-- A condition over rendered operands. `both` joins the fields of an object and has no parentheses
of its own; `group` is a list under a connective. -/
inductive Condition where
  | test (text : String)
  | both (parts : List Condition)
  | group (connective : String) (parts : List Condition)
  deriving Repr

mutual

def Condition.text : Condition → String
  | .test text => text
  | .both parts => " AND ".intercalate (conditionTexts parts)
  | .group connective parts =>
    "(" ++ (" " ++ connective ++ " ").intercalate (conditionTexts parts) ++ ")"

def conditionTexts : List Condition → List String
  | [] => []
  | c :: rest => c.text :: conditionTexts rest

end

/-- What a filter is read against. -/
structure FilterContext where
  dialect : Dialect
  /-- The table of columns that name none. -/
  table : String
  /-- Texts on the right side are columns, as in a join condition. -/
  columnReferences : Bool
  deriving Repr

namespace Condition

def constantMark : List Char := "CONST_".toList

def comparison? : String → Option String
  | "$eq" => some "="
  | "$ne" => some "<>"
  | "$gt" => some ">"
  | "$gte" => some ">="
  | "$lt" => some "<"
  | "$lte" => some "<="
  | _ => none

def Subject.name : Subject → String
  | .path p => p
  | .constant c => c

def columnText (context : FilterContext) (path : String) : Except Error String := do
  let qualified := Name.qualify context.table path
  Name.ensureSafe "where" qualified
  return qualified

/-- A constant stands as it is if it is a numeral, else as a quoted text. -/
def constantText (s : String) : String :=
  if (float? s.toList).isSome then s else quoteText s

def subjectText (context : FilterContext) : Subject → Except Error String
  | .constant c => .ok (constantText c)
  | .path p => columnText context p

def operandText (context : FilterContext) (v : Json) : Except Error String :=
  match v with
  | .text s =>
    if context.columnReferences then columnText context (Name.internal s)
    else .ok (literal context.dialect v)
  | _ => .ok (literal context.dialect v)

def requireSubject (subject : Option Subject) (operator : String) : Except Error Subject :=
  match subject with
  | some s => .ok s
  | none => .error (.invalid s!"operator `{operator}` needs a column")

/-- The subject under a further key. -/
def Subject.under (subject : Option Subject) (key : String) : Subject :=
  match dropFront? constantMark key.toList, subject with
  | some constant, _ => .constant (String.ofList constant)
  | none, some (.path p) => .path (p ++ "." ++ key)
  | none, _ => .path key

/-- A test of a subject against one value. -/
def compare (context : FilterContext) (subject : Subject) (operator : String) (v : Json) :
    Except Error Condition := do
  let left ← subjectText context subject
  let right ← operandText context v
  return .test s!"{left} {operator} {right}"

def likeTest (context : FilterContext) (subject : Subject) (v : Json) : Except Error Condition := do
  let left ← subjectText context subject
  let sought := match v with
    | .text s => s
    | other => other.compact
  let pattern := quoteText ("%" ++ sought ++ "%")
  return .test s!"{left} LIKE {pattern}"

def nullTest (context : FilterContext) (subject : Subject) (v : Json) : Except Error Condition :=
  match v with
  | .bool isNull => do
    let left ← subjectText context subject
    let test := if isNull then "IS NULL" else "IS NOT NULL"
    return .test s!"{left} {test}"
  | _ => .error (.invalid s!"`$null` on `{Subject.name subject}` must be a boolean")

/-- A membership test; without a list that holds something there is none. -/
def memberTest (context : FilterContext) (subject : Subject) (operator : String) (v : Json) :
    Except Error (Option Condition) :=
  match v with
  | .list (item :: rest) => do
    let members ← (item :: rest).mapM (operandText context)
    let left ← subjectText context subject
    return some (.test (left ++ " " ++ operator ++ " (" ++ ", ".intercalate members ++ ")"))
  | _ => .ok none

/-- The test that an operator asks for. -/
def operatorTest (context : FilterContext) (subject : Option Subject) (operator : String)
    (v : Json) : Except Error (Option Condition) := do
  match operator, comparison? operator with
  | "$like", _ => return some (← likeTest context (← requireSubject subject operator) v)
  | "$null", _ => return some (← nullTest context (← requireSubject subject operator) v)
  | "$in", _ => memberTest context (← requireSubject subject operator) "IN" v
  | "$nin", _ => memberTest context (← requireSubject subject operator) "NOT IN" v
  | _, some sql => return some (← compare context (← requireSubject subject operator) sql v)
  | _, none => throw (.invalid s!"unknown filter operator `{operator}`")

def connective? : String → Option String
  | "$or" | "or" => some "OR"
  | "$and" | "and" => some "AND"
  | _ => none

def joined (make : List Condition → Condition) (parts : List Condition) : Option Condition :=
  if parts.isEmpty then none else some (make parts)

def isOperator (key : String) : Bool := key.toList.head? == some '$'

/-- A list stands only under a connective or an operator. -/
def listFault (subject : Option Subject) : Error :=
  let name := (subject.map Subject.name).getD "where"
  .invalid s!"filter on `{name}` must be a scalar or an object"

/-- A scalar is compared for equality. -/
def readScalar (context : FilterContext) (subject : Option Subject) (v : Json) :
    Except Error (Option Condition) :=
  match subject with
  | none => .error (.invalid "filter must be an object at the top level")
  | some s => (compare context s "=" v).map some

mutual

/-- The condition of a filter value below a subject; none when nothing applies. -/
def read (context : FilterContext) (subject : Option Subject) :
    Json → Except Error (Option Condition)
  | .null => .ok none
  | .object fields => return joined .both (← readFields context subject fields)
  | .list _ => .error (listFault subject)
  | scalar => readScalar context subject scalar

def readFields (context : FilterContext) (subject : Option Subject) :
    Object → Except Error (List Condition)
  | [] => .ok []
  | (key, v) :: rest => do
    let first ← readField context subject key v
    let others ← readFields context subject rest
    return first.toList ++ others

/-- The condition of one field. A field without a value contributes nothing. -/
def readField (context : FilterContext) (subject : Option Subject) (key : String) :
    Json → Except Error (Option Condition)
  | .null => .ok none
  | .list items =>
    match connective? key with
    | some connective => return joined (.group connective) (← readItems context subject items)
    | none =>
      if isOperator key then operatorTest context subject key (.list items)
      else .error (listFault (some (Subject.under subject key)))
  | .object fields =>
    if (connective? key).isSome then .error (.invalid s!"`{key}` requires an array")
    else if isOperator key then operatorTest context subject key (.object fields)
    else
      return joined .both (← readFields context (some (Subject.under subject key)) fields)
  | scalar =>
    if (connective? key).isSome then .error (.invalid s!"`{key}` requires an array")
    else if isOperator key then operatorTest context subject key scalar
    else readScalar context (some (Subject.under subject key)) scalar

def readItems (context : FilterContext) (subject : Option Subject) :
    List Json → Except Error (List Condition)
  | [] => .ok []
  | item :: rest => do
    let first ← read context subject item
    let others ← readItems context subject rest
    return first.toList ++ others

end

/-- The condition of a whole filter, which must pass the guard. -/
def ofFilter (context : FilterContext) (v : Json) : Except Error (Option Condition) := do
  Guard.check "where" v
  read context none v

/-- The text of a whole filter. -/
def compile (context : FilterContext) (v : Json) : Except Error (Option String) := do
  return (← ofFilter context v).map (·.text)

end Condition

end SqlGateway.Query
