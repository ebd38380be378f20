import SqlGateway.Assembly
import SqlGateway.Connection.Session
import SqlGateway.Json.Record
import SqlGateway.Query.Compiler
import SqlGateway.Rules

/-!
# Running reads

A compiled query is one statement without parameters; its rows become nested objects, which the
transforming role may change, or flat lines. A raw statement answers with its rows as they are.
-/
namespace SqlGateway.Execution

open Connection (SessionM Session)

variable {σ : Type}

/-- The lines of a flat answer as lists of texts. -/
def flatRows (r : ResultSet) : List Json := (Assembly.flatLines r).map Json.ofTexts

def runQuery (schema : Schema.Registry) (rules : Rules) (q : Query.CompiledQuery) :
    SessionM σ (List Json) := do
  let result ← Session.query q.sql [] 1
  if q.csv then return flatRows result
  liftExcept (Rules.asRole "transform" (rules.transformOutput q.mainTable
    (schema.transformRules.get? q.mainTable) (Assembly.objects q.slots result)))

/-- The rows of a statement, or how many it changed if it has no columns. -/
def runRaw (sql : String) (parameters : List Json) : SessionM σ (List Json) := do
  let result ← Session.query sql parameters 1
  return if result.columns.isEmpty then
      [.object [("affected_rows", .int result.affected)]]
    else result.objects

end SqlGateway.Execution
