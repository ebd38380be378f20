import SqlGateway.Engine.Preparation
import SqlGateway.Request.Grammar
import SqlGateway.Source.DataSource

/-!
# The engine

An engine runs requests against the data sources of a catalog, field by field in the order of the
document. Without a common transaction a field that fails does not stop the others. In one, every
source is held by one session from its first field to the end; the first failure ends the request
and undoes it on all sources.
-/
namespace SqlGateway

open Connection (Session SessionM)
open Request (Document Variables)

structure Engine (σ : Type) where
  catalog : Catalog σ
  rules : Rules
  defaultSource : Option String
  /-- How many rows a query reads that sets no limit. -/
  defaultLimit : Int
  queryTimeout : Duration

namespace Engine

variable {σ : Type}

def new (catalog : Catalog σ) (rules : Rules) (c : Config.EngineConfig) : Engine σ :=
  ⟨catalog, rules, c.defaultSource, c.defaultLimit, c.queryTimeout⟩

/-- Reads the tables of all sources. -/
def refresh (e : Engine σ) : Except Error Unit × Engine σ :=
  let (result, catalog) := e.catalog.refreshAll e.queryTimeout
  (result, { e with catalog })

def compilerFor (e : Engine σ) (s : DataSource σ) : Query.Compiler :=
  ⟨s.schema, s.dialect, e.rules, e.defaultLimit⟩

/-- The source of a task, and the task as it would run there. -/
def prepareTask (e : Engine σ) (d : Document) (supplied : Variables) (t : Task) :
    Except Error (DataSource σ × Prepared) := do
  let source ← e.catalog.source t.source
  return (source, ← prepare (e.compilerFor source) d supplied t)

/-- The statements that a field would send. -/
structure Explanation where
  outputName : String
  source : String
  statements : List String
  deriving DecidableEq, Repr

def Explanation.toJson (e : Explanation) : Json := .object
  [("alias", .text e.outputName), ("source", .text e.source), ("statements", .ofTexts e.statements)]

def explanationsJson (l : List Explanation) : Json := .list (l.map Explanation.toJson)

/-- What a request would send, without sending it. -/
def explain (e : Engine σ) (s : Submission) : Except Error (List Explanation) := do
  let d ← Document.read s.document
  (← schedule e.defaultSource d s.vars).mapM fun t => do
    let (_, prepared) ← e.prepareTask d s.vars t
    return ⟨t.outputName, t.source, prepared.statements⟩

/-- Runs a task in a session of its own. -/
def runTask (d : Document) (supplied : Variables) (t : Task) (e : Engine σ) :
    Except Error FieldOutput × Engine σ :=
  match e.prepareTask d supplied t with
  | .error error => (.error error, e)
  | .ok (source, prepared) =>
    let (result, source) := (DataSource.inSession e.queryTimeout
      (runPrepared (e.compilerFor source) false prepared)).run.run source
    (result, { e with catalog := e.catalog.add source })

/-- The response with the outcome of a task in it. -/
def noteOutcome (t : Task) (r : Response) : Except Error FieldOutput → Response
  | .ok (.rows rows) => { r with data := mergeRows t.outputName rows r.data }
  | .ok (.written rows failures) =>
    { data := Object.insert t.outputName
        (mutationPayload t.field rows (joinedMessages failures)) r.data
      errors := r.errors ++ failures.map (⟨·, false, some t.outputName⟩) }
  | .error error =>
    { data := if t.isMutation then
          Object.insert t.outputName (mutationPayload t.field [] (some error.message)) r.data
        else r.data
      errors := r.errors ++ [⟨error, false, some t.outputName⟩] }

def runEach (d : Document) (supplied : Variables) (tasks : List Task) (e : Engine σ) :
    Response × Engine σ :=
  tasks.foldl
    (fun (r, e) t =>
      let (outcome, e) := runTask d supplied t e
      (noteOutcome t r outcome, e))
    (⟨[], []⟩, e)

/-- Sessions that are held by a request, by the names of their sources. -/
abbrev Sessions (σ : Type) := Dictionary (Session σ)

/-- The session held on a source, or a new one; the engine notes what became of the source's
pool. -/
def sessionOn (e : Engine σ) (sessions : Sessions σ) (name : String) (source : DataSource σ) :
    Except Error (Session σ) × Engine σ :=
  match sessions.get? name with
  | some session => (.ok session, e)
  | none =>
    let (result, pool) := Session.start e.queryTimeout source.pool
    (result, { e with catalog := e.catalog.add { source with pool } })

/-- Runs a task in a session, in a transaction. -/
def runInTransaction (compiler : Query.Compiler) (prepared : Prepared) :
    SessionM σ FieldOutput := do
  if !(← get).inTransaction then Session.begin_
  runPrepared compiler true prepared

/-- A request while its fields run in one transaction. -/
structure Shared (σ : Type) where
  engine : Engine σ
  sessions : Sessions σ
  data : Object

/-- Runs a task in the session of its source. -/
def runHeld (d : Document) (supplied : Variables) (t : Task) (s : Shared σ) :
    Except Error FieldOutput × Shared σ :=
  match s.engine.prepareTask d supplied t with
  | .error error => (.error error, s)
  | .ok (source, prepared) =>
    match s.engine.sessionOn s.sessions t.source source with
    | (.error error, engine) => (.error error, { s with engine })
    | (.ok session, engine) =>
      let (result, session) :=
        (runInTransaction (engine.compilerFor source) prepared).run.run session
      (result, { s with engine, sessions := s.sessions.insert t.source session })

/-- The data with the answer of a task in it. -/
def withOutput (t : Task) (data : Object) : Except Error FieldOutput → Object
  | .ok (.rows rows) => mergeRows t.outputName rows data
  | .ok (.written rows _) => Object.insert t.outputName (mutationPayload t.field rows none) data
  | .error error =>
    if t.isMutation then
      Object.insert t.outputName (mutationPayload t.field [] (some error.message)) data
    else data

/-- Runs tasks up to the first that fails, which comes back with its error. -/
def runTogether (d : Document) (supplied : Variables) :
    List Task → Shared σ → Shared σ × Option (Task × Error)
  | [], s => (s, none)
  | t :: rest, s =>
    let (result, s) := runHeld d supplied t s
    let s := { s with data := withOutput t s.data result }
    match result with
    | .ok _ => runTogether d supplied rest s
    | .error error => (s, some (t, error))

/-- Commits session after session up to the first that fails. -/
def commitAll : List (String × Session σ) → Sessions σ × Option Error
  | [] => ([], none)
  | (name, session) :: rest =>
    let (result, session) := (Session.commit 1).run.run session
    match result with
    | .ok _ =>
      let (rest, failure) := commitAll rest
      ((name, session) :: rest, failure)
    | .error error => ((name, session) :: rest, some error)

def rollbackAll (sessions : Sessions σ) : Sessions σ :=
  sessions.mapValues fun session => (Session.abandon.run.run session).2

/-- The catalog after a session on one of its sources has ended. -/
def finishSession (catalog : Catalog σ) (held : String × Session σ) : Catalog σ :=
  match catalog.sources.get? held.1 with
  | some source => catalog.add { source with pool := held.2.finish source.pool }
  | none => catalog

/-- The engine after its sessions have ended. -/
def withFinished (e : Engine σ) (sessions : Sessions σ) : Engine σ :=
  { e with catalog := sessions.foldl finishSession e.catalog }

/-- Empties the rows of a mutation that has been undone. -/
def withoutReturned (data : Object) (t : Task) : Object :=
  match t.isMutation, data.get? t.outputName with
  | true, some (.object payload) =>
    if Object.contains "returning" payload then
      Object.insert t.outputName (.object (Object.insert "returning" (.object []) payload)) data
    else data
  | _, _ => data

/-- The response to a request that has been undone. -/
def undone (tasks : List Task) (data : Object) (error : Error) (path : Option String) : Response :=
  ⟨tasks.foldl withoutReturned data, [⟨error, true, path⟩]⟩

def runShared (d : Document) (supplied : Variables) (tasks : List Task) (e : Engine σ) :
    Response × Engine σ :=
  match runTogether d supplied tasks ⟨e, [], []⟩ with
  | (s, some (t, error)) =>
    (undone tasks s.data error (some t.outputName),
      s.engine.withFinished (rollbackAll s.sessions))
  | (s, none) =>
    match commitAll s.sessions with
    | (sessions, none) => (⟨s.data, []⟩, s.engine.withFinished sessions)
    | (sessions, some error) =>
      (undone tasks s.data error none, s.engine.withFinished (rollbackAll sessions))

/-- Runs a request. -/
def execute (s : Submission) (e : Engine σ) : Response × Engine σ :=
  match Document.read s.document with
  | .error error => (.refused error, e)
  | .ok d =>
    match schedule e.defaultSource d s.vars with
    | .error error => (.refused error, e)
    | .ok tasks =>
      if spansTransaction s d then runShared d s.vars tasks e
      else runEach d s.vars tasks e

end Engine

end SqlGateway
