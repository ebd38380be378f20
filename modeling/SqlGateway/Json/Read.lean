import SqlGateway.Json.Token

/-!
# Reading JSON

A document is read by one pass over its tokens with a stack of the containers that are open. At most
127 containers may be open at once. `read?` merges repeated keys; `readVerbatim?` keeps every field
as it was written, for readers that must notice a repetition.
-/
namespace SqlGateway.Json

/-- A container that is open: its finished items, last first, and for an object the key whose value
is being read. -/
inductive Open where
  | list (items : List Json)
  | object (fields : Object) (key : String)
  deriving Repr

/-- What may come next. `first` marks the place right after an opening bracket, where the closing
one may stand. -/
inductive Expect where
  | value (first : Bool)
  | key (fields : Object) (first : Bool)
  | colon (fields : Object) (key : String)
  | separator
  deriving Repr

structure Reading where
  stack : List Open
  expect : Expect
  finished : Option Json
  deriving Repr

namespace Reading

def start : Reading := ⟨[], .value false, none⟩

def maxOpen : Nat := 127

/-- A value is complete: it ends the document or goes into the innermost open container. -/
def put (stack : List Open) (v : Json) : Reading :=
  match stack with
  | [] => ⟨[], .separator, some v⟩
  | .list items :: outer => ⟨.list (v :: items) :: outer, .separator, none⟩
  | .object fields key :: outer => ⟨.object ((key, v) :: fields) "" :: outer, .separator, none⟩

def openList (stack : List Open) : Option Reading :=
  if stack.length < maxOpen then some ⟨.list [] :: stack, .value true, none⟩ else none

def openObject (stack : List Open) : Option Reading :=
  if stack.length < maxOpen then some ⟨stack, .key [] true, none⟩ else none

def step (r : Reading) (t : Token) : Option Reading :=
  if r.finished.isSome then none
  else
    match r.expect, t, r.stack with
    | .value _, .scalar v, stack => some (put stack v)
    | .value _, .listOpen, stack => openList stack
    | .value _, .objectOpen, stack => openObject stack
    | .value true, .listClose, .list _ :: outer => some (put outer (.list []))
    | .key fields _, .scalar (.text key), stack => some ⟨stack, .colon fields key, none⟩
    | .key _ true, .objectClose, stack => some (put stack (.object []))
    | .colon fields key, .colon, stack => some ⟨.object fields key :: stack, .value false, none⟩
    | .separator, .comma, .list items :: outer => some ⟨.list items :: outer, .value false, none⟩
    | .separator, .comma, .object fields _ :: outer => some ⟨outer, .key fields false, none⟩
    | .separator, .listClose, .list items :: outer => some (put outer (.list items.reverse))
    | .separator, .objectClose, .object fields _ :: outer =>
      some (put outer (.object fields.reverse))
    | _, _, _ => none

def run : Reading → List Token → Option Reading
  | r, [] => some r
  | r, t :: rest => (r.step t).bind fun next => next.run rest

end Reading

/-- The value a text writes, with repeated keys kept. -/
def readVerbatim? (s : String) : Option Json :=
  (tokens? s.toList).bind fun tokens => (Reading.start.run tokens).bind (·.finished)

/-- The value a text writes. -/
def read? (s : String) : Option Json := (readVerbatim? s).map merged

end SqlGateway.Json
