import SqlGateway.Json.Basic

/-!
# TOML tables

A document is built up line by line. A table comes into being under a header, on the way to another
header, or on the way of a path of keys; how it did decides who may still add to it. No table is
opened by two headers, and a path of keys may not lead into a table that a header has opened.
-/
namespace SqlGateway.Toml

/-- How a table came into being. -/
inductive TableKind where
  | header
  /-- On the way to the table of a header. -/
  | implicit
  /-- On the way of a path of keys. -/
  | path
  deriving DecidableEq, Repr

inductive Node where
  | value (v : Json)
  | table (kind : TableKind) (entries : List (String × Node))
  /-- The tables that headers in double brackets have opened under one name. -/
  | tables (elements : List (List (String × Node)))
  deriving Repr

abbrev Entries := List (String × Node)

def find? (key : String) (entries : Entries) : Option Node :=
  (entries.find? (·.1 == key)).map (·.2)

def put (key : String) (node : Node) : Entries → Entries
  | [] => [(key, node)]
  | (k, n) :: rest => if k = key then (key, node) :: rest else (k, n) :: put key node rest

/-- Changes the last element of a list that has one. -/
def changeLast (change : α → Option α) : List α → Option (List α)
  | [] => none
  | [x] => (change x).map ([·])
  | x :: rest => (changeLast change rest).map (x :: ·)

/-- Changes the table at the end of a path. Tables that are not there are made; of tables in double
brackets the last one is meant. -/
def changeAt (made : TableKind) : List String →
    (change : TableKind → Entries → Option Entries) → TableKind → Entries → Option Entries
  | [], change, kind, entries => change kind entries
  | key :: rest, change, _, entries =>
    match find? key entries with
    | none =>
      (changeAt made rest change made []).map fun inner => put key (.table made inner) entries
    | some (.table kind inner) =>
      if made = .path ∧ kind = .header then none
      else
        (changeAt made rest change kind inner).map fun inner => put key (.table kind inner) entries
    | some (.tables elements) =>
      (changeLast (changeAt made rest change .header) elements).map fun elements =>
        put key (.tables elements) entries
    | some (.value _) => none

/-- Stores a value under a path of keys. A table that holds the last key of a path of several must
itself come from such a path. -/
def store (keys : List String) (v : Json) (kind : TableKind) (entries : Entries) :
    Option Entries :=
  match keys.getLast? with
  | none => none
  | some key =>
    let way := keys.dropLast
    changeAt .path way
      (fun kind entries =>
        if (kind = .path) ≠ (way ≠ []) then none
        else if (find? key entries).isSome then none
        else some (put key (.value v) entries))
      kind entries

/-- Opens the table of a header. -/
def openTable (key : String) (entries : Entries) : Option Entries :=
  match find? key entries with
  | none => some (put key (.table .header []) entries)
  | some (.table .implicit inner) => some (put key (.table .header inner) entries)
  | some _ => none

/-- Opens a further table of a header in double brackets. -/
def openElement (key : String) (entries : Entries) : Option Entries :=
  match find? key entries with
  | none => some (put key (.tables [[]]) entries)
  | some (.tables elements) => some (put key (.tables (elements ++ [[]])) entries)
  | some _ => none

/-- Opens the table at the end of the path of a header. -/
def openAt (isElement : Bool) (keys : List String) (entries : Entries) : Option Entries :=
  match keys.getLast? with
  | none => none
  | some key =>
    changeAt .implicit keys.dropLast
      (fun _ entries => if isElement then openElement key entries else openTable key entries)
      .header entries

mutual

def Node.toJson : Node → Json
  | .value v => v
  | .table _ entries => .object (entriesToJson entries)
  | .tables elements => .list (elementsToJson elements)

def entriesToJson : List (String × Node) → Object
  | [] => []
  | (key, n) :: rest => (key, n.toJson) :: entriesToJson rest

def elementsToJson : List (List (String × Node)) → List Json
  | [] => []
  | entries :: rest => .object (entriesToJson entries) :: elementsToJson rest

end

end SqlGateway.Toml
