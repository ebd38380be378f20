import SqlGateway.Error
import SqlGateway.Json.Record
import SqlGateway.Request.Document

/-!
# Requests and responses

A request is a document with values for its variables. A response holds the data of the fields under
their output names and what went wrong; it is in order if nothing did.
-/
namespace SqlGateway.Engine

/-- What a caller sends. -/
structure Submission where
  document : String
  vars : Request.Variables
  /-- One transaction is to span all fields. -/
  singleTransaction : Bool
  deriving Repr

/-- An error as the caller sees it. -/
structure ResponseError where
  error : Error
  /-- The error undid everything that the request had done. -/
  rolledBack : Bool
  /-- The output name of the field that failed. -/
  path : Option String
  deriving DecidableEq, Repr

structure Response where
  data : Object
  errors : List ResponseError
  deriving Repr

namespace ResponseError

def message (e : ResponseError) : String :=
  if e.rolledBack then s!"transaction rolled back: {e.error.message}" else e.error.message

def toJson (e : ResponseError) : Json := .object <|
  [("kind", .text e.error.kind), ("message", .text e.message)] ++
    e.path.toList.map fun path => ("path", .text path)

end ResponseError

namespace Response

/-- The response to a request that could not be started. -/
def refused (e : Error) : Response := ⟨[], [⟨e, false, none⟩]⟩

def isOk (r : Response) : Bool := r.errors.isEmpty

def toJson (r : Response) : Json := .object <|
  [("status", .text (if r.isOk then "ok" else "error")), ("data", .object r.data)] ++
    if r.isOk then [] else [("errors", .list (r.errors.map ResponseError.toJson))]

end Response

/-- Rows go to the end of the list under an output name; what is not a list makes way. -/
def mergeRows (name : String) (rows : List Json) (data : Object) : Object :=
  match data.get? name with
  | some (.list items) => data.insert name (.list (items ++ rows))
  | _ => data.insert name (.list rows)

/-- What is shown of a mutation: the rows it answered with and its error, or the one of the two that
the field selects. -/
def mutationPayload (f : Request.Field) (rows : List Json) (error : Option String) : Json :=
  let wants (name : String) := f.selection.any (·.name == name)
  let both := !wants "returning" && !wants "error"
  .object <|
    (if both || wants "error" then [("error", Json.ofOption .text error)] else []) ++
      if both || wants "returning" then [("returning", .list rows)] else []

/-- The messages of errors in one text, if there are any. -/
def joinedMessages (errors : List Error) : Option String :=
  if errors.isEmpty then none else some ("; ".intercalate (errors.map (·.message)))

end SqlGateway.Engine
