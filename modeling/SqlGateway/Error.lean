import SqlGateway.Duration

/-!
# Errors

Everything that can stop a request, by cause, and the one place where each cause is put into words.
-/
namespace SqlGateway

inductive Error where
  /-- A table, column or data source that the active schema does not hold. -/
  | schemaNotFound (what : String)
  /-- A value under `key` that the guard refuses. -/
  | suspicious (key value : String)
  /-- A clause of the wrong shape or type. -/
  | invalid (what : String)
  /-- Two tables without a join. -/
  | joinNotFound (parent child : String)
  | connectionUnavailable (what : String)
  | timeout (limit : Duration)
  /-- A statement that the database refused, with the number of the outermost document it belongs
  to, from one. -/
  | database (document : Nat) (what : String)
  | rule (source what : String)
  | parse (what : String)
  | notImplemented (what : String)
  deriving DecidableEq, Repr, Inhabited

namespace Error

/-- The name of the cause. -/
def kind : Error → String
  | .schemaNotFound _ => "schema_not_found"
  | .suspicious .. => "suspicious_input"
  | .invalid _ => "invalid_argument"
  | .joinNotFound .. => "join_not_found"
  | .connectionUnavailable _ => "connection_unavailable"
  | .timeout _ => "query_timeout"
  | .database .. => "db_error"
  | .rule .. => "transform_or_security_rule_failure"
  | .parse _ => "parse"
  | .notImplemented _ => "not_implemented"

def message : Error → String
  | .schemaNotFound what => s!"Schema not found: {what}"
  | .suspicious key value => s!"Suspicious input in `{key}`: {value}"
  | .invalid what => s!"Invalid argument: {what}"
  | .joinNotFound parent child => s!"No join defined between `{parent}` and `{child}`"
  | .connectionUnavailable what => s!"Connection unavailable: {what}"
  | .timeout limit => s!"Query timed out after {limit.text}"
  | .database document what => s!"Database error in document {document}: {what}"
  | .rule source what => s!"Rule `{source}` failed: {what}"
  | .parse what => s!"Parse error: {what}"
  | .notImplemented what => s!"Not implemented: {what}"

/-- Whether the error arises before any statement is sent. -/
def isCompileTime : Error → Bool
  | .schemaNotFound _ | .suspicious .. | .invalid _ | .joinNotFound .. | .parse _ => true
  | _ => false

/-- The error with another document number, if it carries one. -/
def withDocument (document : Nat) : Error → Error
  | .database _ what => .database document what
  | other => other

end Error

end SqlGateway
