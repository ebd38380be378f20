import SqlGateway.Config.Basic
import SqlGateway.Json.Record

/-!
# Written configurations

Every section is a record whose missing fields keep their own values. The two formats of
configuration files differ in two places: a list that stands for a record may have items beyond its
fields in TOML only, and a name out of a list of names may also be written as the only key of an
object, with null under it in JSON and with an empty container in TOML.
-/
namespace SqlGateway

inductive Config.Format where
  | json
  | toml
  deriving DecidableEq, Repr

namespace Config

open Json (record? defaulted? texts? asBool?)

def fields? (format : Format) (names : List String) (v : Json) : Option Object :=
  match format, v with
  | .toml, .list items => some (names.zip items)
  | _, v => record? names 0 v

/-- A count of 64 bits. -/
def count? : Json → Option Nat
  | .int n => if 0 ≤ n ∧ n < Number.wordCount then some n.toNat else none
  | _ => none

def optionalText? : Json → Option (Option String)
  | .null => some none
  | .text s => some (some s)
  | _ => none

def LogFormat.name : LogFormat → String
  | .json => "json"
  | .text => "text"
  | .pretty => "pretty"

def LogFormat.ofName? (name : String) : Option LogFormat :=
  [json, text, pretty].find? (·.name == name)

/-- What stands under a name that is written as a key. -/
def isPlaceholder (format : Format) (v : Json) : Bool :=
  match format, v with
  | .json, .null | .toml, .list [] | .toml, .object [] => true
  | _, _ => false

def LogFormat.ofJson? (format : Format) : Json → Option LogFormat
  | .text name => ofName? name
  | .object [(name, v)] => if isPlaceholder format v then ofName? name else none
  | _ => none

def EngineConfig.ofJson? (format : Format) (v : Json) : Option EngineConfig := do
  let fields ← fields? format
    ["project", "default_source", "default_limit", "query_timeout_seconds"] v
  let d := EngineConfig.default
  return {
    project := ← defaulted? fields "project" d.project Json.asText?
    defaultSource := ← defaulted? fields "default_source" d.defaultSource optionalText?
    defaultLimit := ← defaulted? fields "default_limit" d.defaultLimit Json.asInt64?
    queryTimeoutSeconds :=
      ← defaulted? fields "query_timeout_seconds" d.queryTimeoutSeconds count? }

def LoggingConfig.ofJson? (format : Format) (v : Json) : Option LoggingConfig := do
  let fields ← fields? format ["level", "format"] v
  let d := LoggingConfig.default
  return {
    level := ← defaulted? fields "level" d.level Json.asText?
    format := ← defaulted? fields "format" d.format (LogFormat.ofJson? format) }

def PoolConfig.ofJson? (format : Format) (v : Json) : Option PoolConfig := do
  let fields ← fields? format
    ["max_open", "max_idle", "max_lifetime_seconds", "acquire_timeout_seconds"] v
  let d := PoolConfig.default
  return {
    maxOpen := ← defaulted? fields "max_open" d.maxOpen count?
    maxIdle := ← defaulted? fields "max_idle" d.maxIdle count?
    maxLifetimeSeconds := ← defaulted? fields "max_lifetime_seconds" d.maxLifetimeSeconds count?
    acquireTimeoutSeconds :=
      ← defaulted? fields "acquire_timeout_seconds" d.acquireTimeoutSeconds count? }

def SourceConfig.ofJson? (format : Format) (v : Json) : Option SourceConfig := do
  let fields ← fields? format ["dialect", "url", "tables", "activate_all", "pool"] v
  let d := SourceConfig.default
  return {
    dialect := ← defaulted? fields "dialect" d.dialect Json.asText?
    url := ← defaulted? fields "url" d.url Json.asText?
    tables := ← defaulted? fields "tables" d.tables texts?
    activateAll := ← defaulted? fields "activate_all" d.activateAll asBool?
    pool := ← defaulted? fields "pool" d.pool (PoolConfig.ofJson? format) }

/-- The sources by name; of two under one name the last counts. -/
def sources? (format : Format) (v : Json) : Option (Dictionary SourceConfig) :=
  (Json.entries? (SourceConfig.ofJson? format) v).map Dictionary.ofList

def ofJson? (format : Format) (v : Json) : Option Config := do
  let fields ← fields? format ["engine", "logging", "sources"] v
  let d := Config.default
  return {
    engine := ← defaulted? fields "engine" d.engine (EngineConfig.ofJson? format)
    logging := ← defaulted? fields "logging" d.logging (LoggingConfig.ofJson? format)
    sources := ← defaulted? fields "sources" d.sources (sources? format) }

def SourceConfig.toJson (c : SourceConfig) : Json := .object
  [("dialect", .text c.dialect),
    ("url", .text c.url),
    ("tables", Json.ofTexts c.tables),
    ("activate_all", .bool c.activateAll),
    ("pool", .object
      [("max_open", .int c.pool.maxOpen),
        ("max_idle", .int c.pool.maxIdle),
        ("max_lifetime_seconds", .int c.pool.maxLifetimeSeconds),
        ("acquire_timeout_seconds", .int c.pool.acquireTimeoutSeconds)])]

def toJson (c : Config) : Json := .object
  [("engine", .object
      [("project", .text c.engine.project),
        ("default_source", Json.ofOption .text c.engine.defaultSource),
        ("default_limit", .int c.engine.defaultLimit),
        ("query_timeout_seconds", .int c.engine.queryTimeoutSeconds)]),
    ("logging", .object
      [("level", .text c.logging.level),
        ("format", .text c.logging.format.name)]),
    ("sources", .object (c.sources.mapValues SourceConfig.toJson))]

end Config

end SqlGateway
