import SqlGateway.CommandLine.Invocation
import SqlGateway.Config.File
import SqlGateway.Engine.Basic
import SqlGateway.Schema.Stored

/-!
# Runs of the program

A run reads the configuration, then the files of its command, and only then speaks to data sources.
It prints one JSON value, or it ends with an error that has causes, the nearest to the user first.
-/
namespace SqlGateway.CommandLine

variable {σ : Type} {m : Type → Type}

/-- What is left to do when all files have been read. -/
inductive Task where
  | run (s : Engine.Submission)
  | compile (s : Engine.Submission)
  | introspect (source : Option String)
  deriving Repr

/-- How a run ends. -/
inductive Ending where
  /-- Something is printed; a response that is not in order counts as a failure. -/
  | printed (output : Json) (isOk : Bool)
  | failed (causes : List String)
  | misused (e : UsageError)
  deriving Repr

namespace Ending

def exitCode : Ending → Nat
  | printed _ isOk => if isOk then 0 else 1
  | failed _ => 1
  | misused .helpAsked | misused .versionAsked => 0
  | misused _ => 2

end Ending

/-- A step that may end the run with its causes. -/
abbrev Step (m : Type → Type) := ExceptT (List String) m

def loadConfig [Monad m] (readFile : String → m FileContent) (path : String) : Step m Config := do
  match Config.ofFile path (← readFile path) with
  | .ok config => return config
  | .error e =>
    let cause := match e with
      | .unreadable _ what => [what]
      | _ => []
    throw ([s!"loading config from {path}", e.message] ++ cause)

def loadText [Monad m] (readFile : String → m FileContent) (what path : String) :
    Step m String := do
  match (← readFile path).text with
  | .ok text => return text
  | .error cause => throw [s!"reading {what} {path}", cause]

/-- A value that is no object, in words. -/
def kindOf : Json → String
  | .null => "null"
  | .bool _ => "a boolean"
  | .int _ | .float _ => "a number"
  | .text _ => "a string"
  | .list _ => "an array"
  | .object _ => "an object"

def variablesOf (path text : String) : Except (List String) Request.Variables :=
  match Json.read? text with
  | none => .error [s!"parsing variables {path}"]
  | some (.object vars) => .ok vars
  | some other =>
    .error [s!"variables file {path} must hold a JSON object, found {kindOf other}"]

def loadSubmission [Monad m] (readFile : String → m FileContent) (request : String)
    (vars : Option String) (singleTransaction : Bool) : Step m Engine.Submission := do
  let document ← loadText readFile "request" request
  let vars ← match vars with
    | none => pure []
    | some path => do liftExcept (variablesOf path (← loadText readFile "variables" path))
  return ⟨document, vars, singleTransaction⟩

def loadTask [Monad m] (readFile : String → m FileContent) : Command → Step m Task
  | .run request vars singleTransaction =>
    return .run (← loadSubmission readFile request vars singleTransaction)
  | .compile request vars => return .compile (← loadSubmission readFile request vars false)
  | .introspect source => return .introspect source

/-- The configuration and the task of an invocation. -/
def load [Monad m] (readFile : String → m FileContent) (logFilter : Option String)
    (i : Invocation) : Step m (Config × Task) := do
  let config ← loadConfig readFile i.config
  if !LogFilter.canLog i.levelOverride logFilter config.logging.level then
    throw ["invalid log level"]
  return (config, ← loadTask readFile i.command)

/-- What is shown of a data source. -/
def sourceJson (s : DataSource σ) : Json := .object
  [("dialect", .text s.dialect.name), ("connected", .bool s.connected), ("schema", s.schema.toJson)]

/-- What is shown of the data sources: of one, or of all. -/
def introspection (c : Catalog σ) (source : Option String) : Except Error Json := do
  let aliases := match source with
    | some name => [name]
    | none => c.sources.keys
  return .object (← aliases.mapM fun name => return (name, sourceJson (← c.source name)))

/-- Prints a value, or ends with an error. -/
def shown (context : List String) : Except Error Json → Ending
  | .ok output => .printed output true
  | .error e => .failed (context ++ [e.message])

/-- Does a task on an engine whose sources have been read. -/
def performOn (e : Engine σ) : Task → Ending × Engine σ
  | .run s =>
    let (response, e) := e.execute s
    (.printed response.toJson response.isOk, e)
  | .compile s =>
    (shown ["compiling request"] ((e.explain s).map Engine.explanationsJson), e)
  | .introspect source => (shown [] (introspection e.catalog source), e)

/-- Does a task, and gives the engine that it was done on, if it came to one. -/
def perform (find : (name : String) → DriverFinder σ) (config : Config) (task : Task) :
    Ending × Option (Engine σ) :=
  match Catalog.ofConfig find config with
  | .error e => (.failed ["building engine", e.message], none)
  | .ok catalog =>
    match (Engine.new catalog .passThrough config.engine).refresh with
    | (.error e, engine) => (.failed ["introspecting data sources", e.message], some engine)
    | (.ok _, engine) =>
      let (ending, engine) := performOn engine task
      (ending, some engine)

/-- A run of the program. -/
def program [Monad m] (readFile : String → m FileContent) (logFilter : Option String)
    (find : (name : String) → DriverFinder σ) (args : List String) :
    m (Ending × Option (Engine σ)) := do
  match Invocation.read args with
  | .error e => return (.misused e, none)
  | .ok invocation =>
    match ← (load readFile logFilter invocation).run with
    | .error causes => return (.failed causes, none)
    | .ok (config, task) => return perform find config task

end SqlGateway.CommandLine
