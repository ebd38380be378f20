import SqlGateway.Connection.Pool
import SqlGateway.Dictionary
import SqlGateway.Text.Character

/-!
# Configuration

The settings of a deployment: of the engine, of what it logs, and of its data sources. Every setting
has a value of its own, so that only what differs has to be written down.
-/
namespace SqlGateway.Config

/-- What is wrong with a configuration. -/
inductive ConfigError where
  /-- The file cannot be read. -/
  | unreadable (path what : String)
  | unsupportedFormat (name : String)
  /-- The text is no configuration in its format. -/
  | malformed
  | invalid (what : String)
  | unknownSource (name : String)
  deriving DecidableEq, Repr

def ConfigError.message : ConfigError → String
  | .unreadable path what => s!"Failed to read config file {path}: {what}"
  | .unsupportedFormat name => s!"Unsupported config format: {name}"
  | .malformed => "Failed to parse config"
  | .invalid what => s!"Invalid configuration: {what}"
  | .unknownSource name => s!"Data source not configured: {name}"

structure EngineConfig where
  project : String
  /-- The source of fields that name none. -/
  defaultSource : Option String
  /-- How many rows a query reads that sets no limit. -/
  defaultLimit : Int
  queryTimeoutSeconds : Nat
  deriving DecidableEq, Repr

inductive LogFormat where
  | json
  | text
  | pretty
  deriving DecidableEq, Repr

structure LoggingConfig where
  level : String
  format : LogFormat
  deriving DecidableEq, Repr

structure PoolConfig where
  maxOpen : Nat
  maxIdle : Nat
  maxLifetimeSeconds : Nat
  acquireTimeoutSeconds : Nat
  deriving DecidableEq, Repr

structure SourceConfig where
  dialect : String
  url : String
  /-- The tables that requests may use. -/
  tables : List String
  /-- Requests may use every table. -/
  activateAll : Bool
  pool : PoolConfig
  deriving DecidableEq, Repr

end Config

structure Config where
  engine : Config.EngineConfig
  logging : Config.LoggingConfig
  sources : Dictionary Config.SourceConfig
  deriving DecidableEq, Repr

namespace Config

def EngineConfig.default : EngineConfig := ⟨"default", none, 1000, 300⟩

def LoggingConfig.default : LoggingConfig := ⟨"info", .text⟩

def PoolConfig.default : PoolConfig := ⟨16, 4, 1800, 30⟩

def SourceConfig.default : SourceConfig := ⟨"postgres", "", [], false, .default⟩

def default : Config := ⟨.default, .default, []⟩

def EngineConfig.queryTimeout (c : EngineConfig) : Duration := .ofSeconds c.queryTimeoutSeconds

def PoolConfig.limits (c : PoolConfig) : Connection.PoolLimits :=
  ⟨c.maxOpen, c.maxIdle, .ofSeconds c.maxLifetimeSeconds, .ofSeconds c.acquireTimeoutSeconds⟩

def EngineConfig.validate (c : EngineConfig) : Except ConfigError Unit := do
  if c.defaultLimit ≤ 0 then throw (.invalid "engine.default_limit must be positive")
  if c.queryTimeoutSeconds = 0 then
    throw (.invalid "engine.query_timeout_seconds must be positive")

def PoolConfig.validate (c : PoolConfig) : Except ConfigError Unit := do
  if c.maxOpen = 0 then throw (.invalid "pool.max_open must be at least 1")
  if c.maxOpen < c.maxIdle then
    throw (.invalid s!"pool.max_idle ({c.maxIdle}) exceeds pool.max_open ({c.maxOpen})")

/-- The names that a source may give as its dialect, in the order in which they are listed. -/
def dialectNames : List String := [Dialect.postgres, .mysql, .mssql, .sqlite].map (·.name)

def SourceConfig.validate (c : SourceConfig) : Except ConfigError Unit := do
  if !dialectNames.contains c.dialect then
    let known := ", ".intercalate dialectNames
    throw (.invalid s!"unknown dialect `{c.dialect}` (expected one of {known})")
  if (Text.trimmed c.url.toList).isEmpty then throw (.invalid "url must not be empty")
  c.pool.validate

/-- The first fault of a configuration: of the engine, of the default source, then of the sources in
the order of their names. -/
def validate (c : Config) : Except ConfigError Unit := do
  c.engine.validate
  if let some source := c.engine.defaultSource then
    if !c.sources.contains source then
      throw (.invalid s!"engine.default_source `{source}` is not a configured source")
  c.sources.forM fun (name, source) =>
    source.validate.mapError fun e => .invalid s!"sources.{name}: {e.message}"

def source (c : Config) (name : String) : Except ConfigError SourceConfig :=
  match c.sources.get? name with
  | some source => .ok source
  | none => .error (.unknownSource name)

end Config

end SqlGateway
