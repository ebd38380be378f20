import SqlGateway.Json.Basic

/-!
# Records in JSON

A record is stored as an object with its fields by name, or as a list of its fields in the order in
which they are declared. Fields that the record does not know are passed over; one that it knows
must not stand there twice.

Look-ups for readers that ask for few things take what is missing, null, or of another kind, as
nothing.
-/
namespace SqlGateway.Json

/-- Whether a name stands at most once among the keys of an object. -/
def atMostOnce (fields : Object) (name : String) : Bool :=
  (fields.filter (·.1 == name)).length ≤ 1

/-- The fields of a record with the given names. A list must have at least `least` items, and none
beyond the names. -/
def record? (names : List String) (least : Nat) : Json → Option Object
  | .object fields =>
    if names.all (atMostOnce fields) then some (fields.filter (names.contains ·.1)) else none
  | .list items =>
    if least ≤ items.length ∧ items.length ≤ names.length then some (names.zip items) else none
  | _ => none

/-- A field that must be there. -/
def required? (fields : Object) (name : String) (read : Json → Option α) : Option α :=
  (fields.get? name).bind read

/-- A field that may be missing or null. -/
def optional? (fields : Object) (name : String) (read : Json → Option α) : Option (Option α) :=
  match fields.get? name with
  | none | some .null => some none
  | some v => (read v).map some

/-- A field that has a value of its own when it is missing. -/
def defaulted? (fields : Object) (name : String) (value : α) (read : Json → Option α) : Option α :=
  match fields.get? name with
  | none => some value
  | some v => read v

def asBool? : Json → Option Bool
  | .bool b => some b
  | _ => none

def texts? (v : Json) : Option (List String) := v.asList?.bind (·.mapM asText?)

/-- An object as entries, each value read. -/
def entries? (read : Json → Option α) : Json → Option (List (String × α))
  | .object fields => fields.mapM fun (key, v) => (read v).map (key, ·)
  | _ => none

/-- An optional value, null when there is none. -/
def ofOption (f : α → Json) (o : Option α) : Json := (o.map f).getD .null

def ofTexts (l : List String) : Json := .list (l.map .text)

/-- A member that is there and is not null. -/
def member? (j : Json) (key : String) : Option Json :=
  (j.asObject?.bind (Object.get? key)).filter (!·.isNull)

def member (j : Json) (key : String) : Json := (j.member? key).getD .null

def has (j : Json) (key : String) : Bool := (j.member? key).isSome

def textAt? (j : Json) (key : String) : Option String := (j.member? key).bind (·.asText?)

def textOr (j : Json) (key fallback : String) : String := (j.textAt? key).getD fallback

def textAt (j : Json) (key : String) : String := j.textOr key ""

def boolOr (j : Json) (key : String) (fallback : Bool) : Bool :=
  ((j.member? key).bind (·.asBool?)).getD fallback

def flagAt (j : Json) (key : String) : Bool := j.boolOr key false

def integerAt? (j : Json) (key : String) : Option Int :=
  match j.member? key with
  | some (.int n) => some n
  | _ => none

def integerOr (j : Json) (key : String) (fallback : Int) : Int := (j.integerAt? key).getD fallback

/-- A count, which is not below zero. -/
def countOr (j : Json) (key : String) (fallback : Nat) : Nat := (j.integerOr key fallback).toNat

def countAt (j : Json) (key : String) : Nat := j.countOr key 0

/-- The items of a list; another value has none. -/
def elements (j : Json) : List Json := j.asList?.getD []

def itemsAt (j : Json) (key : String) : List Json := (j.member key).elements

def fieldsAt (j : Json) (key : String) : Object := ((j.member? key).bind (·.asObject?)).getD []

def textsAt (j : Json) (key : String) : List String := (j.itemsAt key).filterMap (·.asText?)

end SqlGateway.Json
