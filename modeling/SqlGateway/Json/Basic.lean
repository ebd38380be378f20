import SqlGateway.Number.Binary64
import SqlGateway.Number.Word

/-!
# JSON values

A value of a JSON document. Numbers are integers of any sign or floating-point numbers, and the
fields of an object are in order. Storing under a key that is already there replaces the value and
leaves the field in its place, so an object made by `Object.insert` has no key twice.
-/
namespace SqlGateway

open Number (Binary64)

inductive Json where
  | null
  | bool (b : Bool)
  | int (n : Int)
  | float (x : Binary64)
  | text (s : String)
  | list (items : List Json)
  | object (fields : List (String × Json))
  deriving Repr, Inhabited

/-- The fields of a JSON object, in order. -/
abbrev Object := List (String × Json)

namespace Object

def get? (key : String) : Object → Option Json
  | [] => none
  | (k, v) :: rest => if k = key then some v else get? key rest

/-- Stores a value: in the place of the field of that name, else at the end. -/
def insert (key : String) (value : Json) : Object → Object
  | [] => [(key, value)]
  | (k, v) :: rest => if k = key then (key, value) :: rest else (k, v) :: insert key value rest

def keys (o : Object) : List String := o.map (·.1)

def contains (key : String) (o : Object) : Bool := (o.get? key).isSome

/-- Stores the fields of a list one after another. -/
def insertAll (fields : Object) (o : Object) : Object :=
  fields.foldl (fun o field => o.insert field.1 field.2) o

/-- The object with the fields of a list, of which a later one replaces an earlier one. -/
def ofFields (fields : Object) : Object := insertAll fields []

@[simp] theorem get?_insert_self (o : Object) (key : String) (value : Json) :
    (o.insert key value).get? key = some value := by
  induction o with
  | nil => simp [insert, get?]
  | cons field rest ih =>
    obtain ⟨k, v⟩ := field
    by_cases h : k = key <;> simp [insert, get?, h, ih]

theorem get?_insert_of_ne (o : Object) {key other : String} (value : Json) (h : other ≠ key) :
    (o.insert key value).get? other = o.get? other := by
  induction o with
  | nil => simp [insert, get?, Ne.symm h]
  | cons field rest ih =>
    obtain ⟨k, v⟩ := field
    by_cases hk : k = key
    · subst hk; simp [insert, get?, Ne.symm h]
    · simp [insert, get?, hk, ih]

end Object

namespace Json

def isNull : Json → Bool
  | .null => true
  | _ => false

def asText? : Json → Option String
  | .text s => some s
  | _ => none

def asObject? : Json → Option Object
  | .object fields => some fields
  | _ => none

def asList? : Json → Option (List Json)
  | .list items => some items
  | _ => none

/-- A floating-point number as a value; what is not finite has no written form and becomes null. -/
def ofFloat (x : Binary64) : Json := if x.isFinite then .float x else .null

/-- The value as an integer of 64 signed bits, if it is one. -/
def asInt64? : Json → Option Int
  | .int n => if Number.fitsInt64 n then some n else none
  | _ => none

/-- The value as a floating-point number, if it is any number. -/
def asFloat? : Json → Option Binary64
  | .int n => some (Binary64.ofInt n)
  | .float x => some x
  | _ => none

mutual

/-- The value with every object's repeated keys merged: the last value at the first place. -/
def merged : Json → Json
  | .list items => .list (mergedItems items)
  | .object fields => .object (Object.ofFields (mergedFields fields))
  | other => other

def mergedItems : List Json → List Json
  | [] => []
  | item :: rest => item.merged :: mergedItems rest

def mergedFields : Object → Object
  | [] => []
  | (key, value) :: rest => (key, value.merged) :: mergedFields rest

end

end Json

end SqlGateway
