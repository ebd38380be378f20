import SqlGateway.CommandLine.Option
import SqlGateway.Text.Character
import SqlGateway.Text.Word

/-!
# Invocations

What the program is asked to do by its arguments. Options for the whole program may stand before or
after the command, and one that stands in both places counts after it.

A log filter lists, separated by commas, what is logged from which level on: a level for everything,
or the name of a target and a level for it. Only whether a text is a filter matters here.
-/
namespace SqlGateway.CommandLine

inductive LogLevel where
  | off
  | error
  | warn
  | info
  | debug
  | trace
  deriving DecidableEq, Repr

namespace LogLevel

def all : List LogLevel := [off, error, warn, info, debug, trace]

def name : LogLevel → String
  | off => "off"
  | error => "error"
  | warn => "warn"
  | info => "info"
  | debug => "debug"
  | trace => "trace"

def ofName? (s : String) : Option LogLevel := all.find? (·.name == s)

end LogLevel

inductive Command where
  /-- Runs a request and shows the response. -/
  | run (request : String) (vars : Option String) (singleTransaction : Bool)
  /-- Shows the statements of a request. -/
  | compile (request : String) (vars : Option String)
  /-- Shows the tables of one or all data sources. -/
  | introspect (source : Option String)
  deriving DecidableEq, Repr

structure Invocation where
  command : Command
  config : String
  verbose : Bool
  logLevel : Option LogLevel
  deriving DecidableEq, Repr

namespace Invocation

/-- The log level that the options ask for. -/
def levelOverride (i : Invocation) : Option LogLevel :=
  if i.verbose then some .debug else i.logLevel

/-- The options of the whole program. -/
def commonOptions : List Argument :=
  [⟨"--log-level", some 'l', .oneOf (LogLevel.all.map (·.name))⟩, ⟨"--verbose", some 'v', .switch⟩,
    ⟨"--config", some 'C', .path⟩, ⟨"--help", some 'h', .help⟩]

def requestOperand : Argument := ⟨"request", none, .path⟩

def variablesOption : Argument := ⟨"--vars", none, .path⟩

def transactionOption : Argument := ⟨"--single-txn", none, .switch⟩

def sourceOption : Argument := ⟨"--source", none, .text⟩

/-- The grammar of the arguments after the name of a command. -/
def grammarOf (command : String) : Grammar :=
  match command with
  | "run" => ⟨variablesOption :: transactionOption :: commonOptions, some requestOperand, []⟩
  | "compile" => ⟨variablesOption :: commonOptions, some requestOperand, []⟩
  | _ => ⟨sourceOption :: commonOptions, none, []⟩

def commandNames : List String := ["run", "compile", "introspect", "help"]

def grammar : Grammar :=
  ⟨⟨"--version", some 'V', .version⟩ :: commonOptions, none, commandNames⟩

/-- What a call for help comes to: help on the program or on one of its commands. -/
def helpOn : List String → UsageError
  | [] => .helpAsked
  | [topic] => if commandNames.contains topic then .helpAsked else .unknownCommand
  | _ => .unknownCommand

/-- The command that was read. -/
def commandOf (name : String) (r : Reading) : Except UsageError Command :=
  if name = "introspect" then .ok (.introspect (r.value? "--source"))
  else
    match r.value? "request" with
    | none => .error .missingArgument
    | some request =>
      let vars := r.value? "--vars"
      if name = "run" then .ok (.run request vars (r.value? "--single-txn").isSome)
      else .ok (.compile request vars)

/-- What the arguments of the program ask for. -/
def read (args : List String) : Except UsageError Invocation := do
  let (outer, named) ← (Reading.start grammar).run false args
  let some (name, rest) := named
    | let outer ← outer.settle
      throw (if outer.found.isEmpty then .nothingAsked else .missingCommand)
  if name = "help" then throw (helpOn rest)
  let inner ← (← (Reading.start (grammarOf name)).run false rest).1.settle
  let command ← commandOf name inner
  let outer ← outer.settle
  let value? (option : String) := (inner.value? option).or (outer.value? option)
  return {
    command
    config := (value? "--config").getD "strata.toml"
    verbose := (value? "--verbose").isSome
    logLevel := (value? "--log-level").bind LogLevel.ofName? }

end Invocation

end SqlGateway.CommandLine

namespace SqlGateway.CommandLine.LogFilter

/-- A level by its name in any case or by its number; the empty text is one too. -/
def isLevel (s : String) : Bool :=
  let lowered := String.ofList (s.toList.map Char.toLower)
  s == "" || LogLevel.all.any (·.name == lowered) ||
    (Number.unsigned64? s.toList).any (· ≤ 5)

/-- A character that the name of a target may begin with. -/
def beginsTarget (c : Char) : Bool := c == '-' || c == ':' || Text.isWordChar c

/-- What may follow a span: nothing, or a level. -/
def endsDirective : List Char → Bool
  | [] => true
  | '=' :: level => isLevel (String.ofList level)
  | _ => false

/-- The rest of a directive from the bracket of a span on. -/
def isSpan (cs : List Char) : Bool :=
  match cs.dropWhile (· != ']') with
  | ']' :: rest => endsDirective rest
  | _ => false

/-- One entry: a level, or a target, which may be followed by a span and by a level. -/
def isDirective (s : String) : Bool :=
  let cs := Text.trimmed s.toList
  match cs.dropWhile fun c => c != '=' && c != '[' with
  | '=' :: level => cs.head?.any beginsTarget && isLevel (String.ofList level)
  | '[' :: rest => (cs.head?.any fun c => c == '[' || beginsTarget c) && isSpan rest
  | _ => cs.head?.any beginsTarget

def accepts (s : String) : Bool :=
  ((s.splitToList (· == ',')).filter (· != "")).all isDirective

/-- Whether the log can be set up: a level from the command line is used first, then a filter from
the environment if it is one, then the level of the configuration, which is a level for one
target. -/
def canLog (override : Option LogLevel) (environment : Option String)
    (configured : String) : Bool :=
  override.isSome || environment.any accepts || accepts ("gateway=" ++ configured)

end SqlGateway.CommandLine.LogFilter
