import SqlGateway.CommandLine.Run
import SqlGateway.Source.Offline

/-!
# The program

Reads files, runs, and prints. The log level may also be given by the environment.
-/
namespace SqlGateway

open CommandLine

/-- What stands under a path of the file system. -/
def readFile (path : String) : IO FileContent := do
  try
    return .bytes (← IO.FS.readBinFile path).toList
  catch e =>
    return match e with
    | .inappropriateType .. => .directory
    | .noFileOrDirectory .. => .missing
    | _ => .blocked

/-- What a user sees of an error and its causes. -/
def failureText : List String → String
  | [] => "Error"
  | [what] => s!"Error: {what}"
  | what :: causes =>
    let lines := causes.mapIdx fun i cause => s!"    {i}: {cause}"
    "\n".intercalate ([s!"Error: {what}", "", "Caused by:"] ++ lines)

def usage : String := "\n".intercalate
  ["Usage: [OPTIONS] <COMMAND>", "", "Commands:",
    "  run <REQUEST> [--vars <VARS>] [--single-txn]  Execute a request and print the response",
    "  compile <REQUEST> [--vars <VARS>]             Print the statements of a request",
    "  introspect [--source <SOURCE>]                Print the tables of the data sources", "",
    "Options:", "  -l, --log-level <LEVEL>  off, error, warn, info, debug or trace",
    "  -v, --verbose            The log level debug",
    "  -C, --config <FILE>      The configuration",
    "  -h, --help               Print help", "  -V, --version            Print version"]

def usageFault : UsageError → String
  | .unknownArgument => "unexpected argument"
  | .invalidValue => "invalid value"
  | .missingArgument => "a required argument is missing"
  | .unknownCommand => "unrecognized command"
  | .repeatedOption => "an option is given twice"
  | .unexpectedValue => "a value is given to an option that takes none"
  | .missingCommand => "a command is required"
  | .nothingAsked | .helpAsked | .versionAsked => ""

def report : Ending → IO Unit
  | .printed output _ => IO.println output.pretty
  | .failed causes => IO.eprintln (failureText causes)
  | .misused .helpAsked => IO.println usage
  | .misused .versionAsked => IO.println "0.1.0"
  | .misused .nothingAsked => IO.eprintln usage
  | .misused e => IO.eprintln s!"error: {usageFault e}\n\n{usage}"

end SqlGateway

def main (args : List String) : IO UInt32 := do
  let logFilter ← IO.getEnv "GATEWAY_LOG"
  let find := fun _ => SqlGateway.Source.offline
  let (ending, _) ← SqlGateway.CommandLine.program SqlGateway.readFile logFilter find args
  SqlGateway.report ending
  return UInt32.ofNat ending.exitCode
