import SqlGateway.Config.Basic
import SqlGateway.Connection.Session
import SqlGateway.Name
import SqlGateway.Schema.Registry
import SqlGateway.Source.Metadata

/-!
# Data sources

A data source is one logical database: its pool of connections and what is known of its tables. The
tables are read anew into a registry aside, which takes the place of the old one only as a whole.

A catalog has the data sources of a project by their names.
-/
namespace SqlGateway

open Connection (Pool Session SessionM Driver DriverError)
open Schema (Registry)

/-- Finds the driver of a dialect for the address of a database, and the state it works on. -/
abbrev DriverFinder (σ : Type) := Dialect → (url : String) → Except DriverError (Driver σ × σ)

structure DataSource (σ : Type) where
  name : String
  /-- The tables that requests may use. -/
  tables : List String
  /-- Requests may use every table. -/
  activateAll : Bool
  pool : Pool σ
  schema : Registry
  /-- Whether the last probe came back. -/
  connected : Bool

/-- A step on a data source. Its changes stay when it fails. -/
abbrev SourceM (σ : Type) := ExceptT Error (StateM (DataSource σ))

namespace DataSource

variable {σ α : Type}

def new (find : DriverFinder σ) (name : String) (c : Config.SourceConfig) :
    Except Error (DataSource σ) := do
  let dialect ← Dialect.ofName c.dialect
  let (driver, server) ← (find dialect c.url).mapError (·.toError 0)
  return {
    name
    tables := c.tables
    activateAll := c.activateAll
    pool := .new driver c.pool.limits server
    schema := .empty ""
    connected := false }

def dialect (s : DataSource σ) : Dialect := s.pool.driver.dialect

def description (s : DataSource σ) : String :=
  Text.described "DataSource" [("alias", Text.quoted s.name),
    ("dialect", Text.quoted s.dialect.name), ("pool", s.pool.description),
    ("connected", toString s.connected)]

/-- Runs steps in a session of their own. -/
def inSession (timeout : Duration) (steps : SessionM σ α) : SourceM σ α :=
  ExceptT.mk fun source =>
    match Session.start timeout source.pool with
    | (.error e, pool) => (.error e, { source with pool })
    | (.ok session, pool) =>
      let (result, session) := steps.run.run session
      (result, { source with pool := session.finish pool })

def setConnected (b : Bool) : SourceM σ Unit := modify fun s => { s with connected := b }

/-- Asks the database for a sign of life. -/
def ping (timeout : Duration) : SourceM σ Unit :=
  tryCatch
    (do
      discard (inSession timeout do
        Session.query (← get).dialect.probeQuery [] 0)
      setConnected true)
    (fun e => do
      setConnected false
      throw (.connectionUnavailable e.message))

/-- The schema of names without one, and the columns of all tables. -/
def introspect : SessionM σ (String × ResultSet) := do
  let dialect := (← get).dialect
  let schema ← Session.query dialect.defaultSchemaQuery [] 0
  let defaultSchema := ((schema.rows.head?.bind List.head?).bind Source.cellText?).getD ""
  return (defaultSchema, ← Session.query dialect.metadataQuery [] 0)

/-- The tables that a freshly read registry is to offer to requests. -/
def tablesToActivate (s : DataSource σ) (r : Registry) : List String :=
  if s.activateAll then r.inactive.keys ++ r.active.keys else s.tables.map Name.internal

/-- The registry after the tables of the database have been read. -/
def refreshed (s : DataSource σ) (defaultSchema : String) (columns : List Schema.Column) :
    Except Error Registry :=
  let captured := { s.schema with defaultSchema }.capture columns
  (s.tablesToActivate captured).foldlM (fun r table => r.activate table) captured

/-- Reads the tables of the database. -/
def refresh (timeout : Duration) : SourceM σ Unit := do
  ping timeout
  let (defaultSchema, metadata) ← inSession timeout introspect
  let s ← get
  let columns ← liftExcept (Source.columns s.dialect metadata)
  let schema ← liftExcept (s.refreshed defaultSchema columns)
  modify fun s => { s with schema }

end DataSource

end SqlGateway

namespace SqlGateway

structure Catalog (σ : Type) where
  project : String
  sources : Dictionary (DataSource σ)

namespace Catalog

variable {σ : Type}

def empty (project : String) : Catalog σ := ⟨project, []⟩

/-- Puts a data source under its name, where it takes the place of another. -/
def add (c : Catalog σ) (s : DataSource σ) : Catalog σ :=
  { c with sources := c.sources.insert s.name s }

def source (c : Catalog σ) (name : String) : Except Error (DataSource σ) :=
  match c.sources.get? name with
  | some s => .ok s
  | none => .error (.schemaNotFound s!"data source `{name}`")

/-- The sources of a valid configuration. -/
def ofConfig (find : (name : String) → DriverFinder σ) (c : Config) :
    Except Error (Catalog σ) := do
  c.validate.mapError fun e => .invalid e.message
  c.sources.foldlM
    (fun catalog (name, source) => return catalog.add (← DataSource.new (find name) name source))
    (empty c.engine.project)

/-- Reads the tables of the sources one after another, up to the first that fails. -/
def refreshAll (timeout : Duration) (c : Catalog σ) : Except Error Unit × Catalog σ :=
  c.sources.keys.foldl
    (fun (result, c) name =>
      match result, c.sources.get? name with
      | .ok _, some s =>
        let (result, s) := (DataSource.refresh timeout).run.run s
        (result, c.add s)
      | result, _ => (result, c))
    (.ok (), c)

end Catalog

end SqlGateway
