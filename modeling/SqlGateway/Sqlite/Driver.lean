import SqlGateway.Connection.Driver
import SqlGateway.Dialect.Introspection
import SqlGateway.Dialect.Types
import SqlGateway.ResultSet
import SqlGateway.Text.Quoted
import SqlGateway.Text.Search

/-!
# Empty databases in memory

Every connection has a database of its own, in which there are no tables. It answers what a data
source asks about the tables, and refuses every other statement.

The address of a database is a path, with or without a scheme in front. Opening a file makes the
directories that lead to it.

The rows of a table are kept as they were bound, in the order of their row numbers. A column that is
an integer primary key is the row number itself.
-/

namespace SqlGateway.Sqlite

open Connection (DriverError)

/-- The path of an address. -/
def pathOf (url : String) : String :=
  let cs := url.toList
  let path := (Text.dropFront? "sqlite://".toList cs)
    |>.or (Text.dropFront? "sqlite:".toList cs)
  String.ofList (path.getD cs)

/-- The names on the way of a path; two dots lead one directory back. -/
def namesOf (path : String) : List String :=
  (path.splitToList (· == '/')).filter fun name => name != "" && name != "."

/-- Files and directories below some directory, each as the names that lead to it. -/
structure FileTree where
  files : List (List String)
  directories : List (List String)
  deriving Repr

namespace FileTree

def isFile (t : FileTree) (place : List String) : Bool := t.files.contains place

/-- A directory is one that was made, or one on the way to something else. -/
def isDirectory (t : FileTree) (place : List String) : Bool :=
  (t.directories ++ t.files.map List.dropLast).any place.isPrefixOf

/-- Follows names from a place and makes the directories that are missing. A file on the way is told
apart from one that stands where the next directory is to be made; after the first directory that
was missing they are made one by one. -/
def makeDirectories (t : FileTree) (place : List String) (making : Bool) :
    List String → Except DriverError FileTree
  | [] => .ok t
  | ".." :: rest => makeDirectories t place.dropLast making rest
  | name :: rest =>
    let here := place ++ [name]
    if t.isFile here then
      let reason :=
        if making || rest.isEmpty then "File exists (os error 17)"
        else "Not a directory (os error 20)"
      .error (.connection s!"Failed to create directory: {reason}")
    else
      makeDirectories { t with directories := here :: t.directories } here
        (making || !t.isDirectory here) rest

/-- Where names lead. -/
def placeOf (names : List String) : List String :=
  names.foldl (fun place name => if name = ".." then place.dropLast else place ++ [name]) []

/-- The tree after the database at a path has been opened, which is made if it is not there. -/
def openDatabase (t : FileTree) (path : String) : Except DriverError FileTree := do
  let names := namesOf path
  let t ← t.makeDirectories [] false names.dropLast
  let place := placeOf names
  if place.isEmpty || t.isDirectory place then
    throw (.sqlite s!"unable to open database file: {path}")
  return { t with files := place :: t.files }

/-- Whether a path leads to a file. A slash at its end asks for a directory. -/
def holdsFile (t : FileTree) (path : String) : Bool :=
  t.isFile (placeOf (namesOf path)) && !path.endsWith "/" && !path.endsWith "/."

end FileTree

end SqlGateway.Sqlite

namespace SqlGateway.Sqlite

open Number

inductive Value where
  | null
  | integer (n : Int)
  | real (x : Binary64)
  | text (s : String)
  | blob (bs : List UInt8)
  deriving Repr

namespace Value

/-- The value that a parameter is bound as. An integer beyond 64 bits becomes a floating-point
number. -/
def bind : Json → Value
  | .null => null
  | .bool b => integer (if b then 1 else 0)
  | .int n => if fitsInt64 n then integer n else real (.ofInt n)
  | .float x => real x
  | other => text other.bareText

def cell : Value → Cell
  | null => .null
  | integer n => .int n
  | real x => .float x
  | text s => .text s
  | blob bs => .bytes bs

end Value

structure Column where
  name : String
  /-- The type that the table was declared with. -/
  declared : String
  /-- The column is the row number. -/
  isRowId : Bool
  deriving DecidableEq, Repr

namespace Column

/-- A column from its declaration; only a whole-number key is the row number. -/
def ofDeclaration (name declaration : String) : Column :=
  if declaration = "INTEGER PRIMARY KEY" then ⟨name, "INTEGER", true⟩
  else ⟨name, declaration, false⟩

def resultColumn (c : Column) : ResultColumn :=
  ⟨c.name, c.declared, Dialect.sqlite.valueType c.declared⟩

end Column

structure Table where
  columns : List Column
  /-- The rows with their numbers, in ascending order. -/
  rows : List (Int × List Value)
  /-- The number of the row inserted last, zero before the first. -/
  lastId : Int
  deriving Repr

namespace Table

def empty (columns : List Column) : Table := ⟨columns, [], 0⟩

def largestId (t : Table) : Int := (t.rows.map (·.1)).foldl max 0

/-- The number that a row asks for itself. -/
def ownId? : List Column → List Value → Option Int
  | c :: columns, v :: values =>
    match c.isRowId, v with
    | true, .integer n => some n
    | _, _ => ownId? columns values
  | _, _ => none

/-- A row with its number in the column that holds it. -/
def withId (id : Int) (columns : List Column) (values : List Value) : List Value :=
  (columns.zip values).map fun (c, v) => if c.isRowId then .integer id else v

/-- Puts a row in its place. -/
def place (row : Int × List Value) : List (Int × List Value) → List (Int × List Value)
  | [] => [row]
  | other :: rest => if row.1 < other.1 then row :: other :: rest else other :: place row rest

/-- The table with a new row, and the row. -/
def insert (values : List Value) (t : Table) : List Value × Table :=
  let id := (ownId? t.columns values).getD (t.largestId + 1)
  let stored := withId id t.columns values
  (stored, { t with rows := place (id, stored) t.rows, lastId := id })

/-- What is answered with given rows. -/
def answer (t : Table) (rows : List (List Value)) : ResultSet :=
  ⟨t.columns.map Column.resultColumn, rows.map (·.map Value.cell), rows.length, some t.lastId⟩

/-- What is answered by a statement that changes rows and returns none. -/
def changed (t : Table) (count : Nat) : ResultSet := ⟨[], [], count, some t.lastId⟩

def read (t : Table) : ResultSet := t.answer (t.rows.map (·.2))

/-- The table without its rows, and what is answered. -/
def clear (t : Table) : ResultSet × Table :=
  let emptied := { t with rows := [] }
  (emptied.changed t.rows.length, emptied)

end Table

open Connection (Driver Reply)

/-- A result set with one row of one cell. -/
def single (name : String) (v : Value) : ResultSet :=
  (Table.empty [⟨name, "", false⟩]).answer [[v]]

/-- What is known of the tables of an empty database. -/
def answerEmpty? (sql : String) : Option ResultSet :=
  if sql = Dialect.sqlite.probeQuery then some (single "1" (.integer 1))
  else if sql = Dialect.sqlite.defaultSchemaQuery then some (single "schema" (.text "main"))
  else if sql = Dialect.sqlite.metadataQuery then
    some ((Table.empty (Dialect.metadataColumns.map fun name => ⟨name, "", false⟩)).answer [])
  else none

def refused : Reply ResultSet := .now (.error (.sqlite "no such table"))

def driver {σ : Type} (url : String) : Driver σ where
  dialect := .sqlite
  description := Text.described "SqliteDriver" [("path", Text.quoted (pathOf url))]
  connect := return .now (.ok ())
  query sql _ := return ((answerEmpty? sql).map fun r => Reply.now (.ok r)).getD refused
  execute _ _ := return refused
  batch _ := return .now (.ok ())

end SqlGateway.Sqlite
