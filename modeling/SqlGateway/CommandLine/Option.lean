import SqlGateway.Number.Numeral

/-!
# Options

The options of a command by their long and short names, what each takes, and what is wrong with a
command line. Names are compared as a whole and in their own letters.
-/
namespace SqlGateway.CommandLine

/-- Why a command line is not run. Two of the reasons are that it asks for something else. -/
inductive UsageError where
  | unknownArgument
  | invalidValue
  | missingArgument
  | unknownCommand
  /-- An option that was given before. -/
  | repeatedOption
  /-- A value for an option that takes none. -/
  | unexpectedValue
  | missingCommand
  /-- There are no arguments at all. -/
  | nothingAsked
  | helpAsked
  | versionAsked
  deriving DecidableEq, Repr

/-- What an option or argument takes. -/
inductive ValueKind where
  /-- Nothing: the option is given or not. -/
  | switch
  | path
  | text
  | oneOf (words : List String)
  | help
  | version
  deriving DecidableEq, Repr

namespace ValueKind

def takesValue : ValueKind → Bool
  | path | text | oneOf _ => true
  | switch | help | version => false

/-- Whether a value can be taken; a path is not empty. -/
def accepts : ValueKind → String → Bool
  | path, value => value != ""
  | oneOf words, value => words.contains value
  | _, _ => true

end ValueKind

structure Argument where
  /-- The name, with two dashes in front for an option. -/
  name : String
  /-- The letter that stands for the name after one dash. -/
  letter : Option Char
  kind : ValueKind
  deriving DecidableEq, Repr

/-- What may stand on a command line up to the name of a command, or after it. -/
structure Grammar where
  options : List Argument
  /-- The argument that stands without a name. -/
  operand : Option Argument
  /-- The words that name a command. -/
  commands : List String
  deriving DecidableEq, Repr

/-- What has been read by a grammar. -/
structure Reading where
  grammar : Grammar
  /-- The options and arguments read so far with their values, the last first. -/
  found : List (String × String)
  /-- The argument read last, whose value may still follow. -/
  pending : Option (Argument × Option String)
  operandRead : Bool
  deriving Repr

namespace Reading

def start (g : Grammar) : Reading := ⟨g, [], none, false⟩

def value? (r : Reading) (name : String) : Option String :=
  (r.found.find? (·.1 == name)).map (·.2)

/-- Takes a value for an argument that has none yet. -/
def take (r : Reading) (a : Argument) (value : String) : Except UsageError Reading :=
  if (r.value? a.name).isSome then .error .repeatedOption
  else if a.kind.accepts value then .ok { r with found := (a.name, value) :: r.found }
  else .error .invalidValue

/-- Takes what the argument read last came with. -/
def settle (r : Reading) : Except UsageError Reading :=
  match r.pending with
  | none => .ok r
  | some (_, none) => .error .invalidValue
  | some (a, some value) => { r with pending := none }.take a value

/-- Whether the next argument is the value of an option. -/
def awaitsValue (r : Reading) : Bool :=
  match r.pending with
  | some (_, none) => true
  | _ => false

/-- An option that takes no value. -/
def switchOn (r : Reading) (a : Argument) : Except UsageError Reading := do
  let r ← r.settle
  match a.kind with
  | .help => throw .helpAsked
  | .version => throw .versionAsked
  | _ => r.take a "true"

/-- An option that takes a value, which may come with it. -/
def valued (r : Reading) (a : Argument) (attached : Option String) : Except UsageError Reading := do
  let r ← r.settle
  match attached with
  | some value => r.take a value
  | none => return { r with pending := some (a, none) }

/-- An option by its name, with the value after an equals sign. -/
def long (r : Reading) (name : String) (attached : Option String) : Except UsageError Reading :=
  match r.grammar.options.find? (·.name == name) with
  | none => .error .unknownArgument
  | some a =>
    if a.kind.takesValue then r.valued a attached
    else if attached.isSome then .error .unexpectedValue
    else r.switchOn a

/-- The value in the letters after an option's letter. -/
def attachedValue : List Char → Option String
  | [] => none
  | '=' :: rest => some (String.ofList rest)
  | letters => some (String.ofList letters)

/-- Options by their letters. One that takes a value takes the rest of the letters. -/
def letters (r : Reading) : List Char → Except UsageError Reading
  | [] => .ok r
  | c :: rest =>
    match r.grammar.options.find? (·.letter == some c) with
    | none => .error .unknownArgument
    | some a =>
      if a.kind.takesValue then r.valued a (attachedValue rest)
      else r.switchOn a |>.bind fun r => r.letters rest

/-- An argument without a name. `isQuoted` tells that it stands after two dashes. -/
def plain (r : Reading) (isQuoted : Bool) (value : String) : Except UsageError Reading :=
  match r.grammar.operand.filter fun _ => !r.operandRead with
  | some a => do
    let r ← r.settle
    return { r with pending := some (a, some value), operandRead := true }
  | none =>
    if r.grammar.commands.isEmpty || (isQuoted && r.grammar.commands.contains value) then
      .error .unknownArgument
    else .error .unknownCommand

/-- Reads an argument that names no command. -/
def step (r : Reading) (arg : String) : Except UsageError Reading :=
  match arg.toList, r.pending with
  | '-' :: '-' :: cs, _ =>
    let name := String.ofList ('-' :: '-' :: cs.takeWhile (· != '='))
    r.long name ((cs.dropWhile (· != '=')).tail?.map String.ofList)
  | '-' :: c :: cs, _ => r.letters (c :: cs)
  | _, some (a, none) => .ok { r with pending := some (a, some arg) }
  | _, _ => r.plain false arg

/-- Reads arguments up to the name of a command, and gives it with what follows. Two dashes alone
end the options. -/
def run (r : Reading) (isQuoted : Bool) :
    List String → Except UsageError (Reading × Option (String × List String))
  | [] => .ok (r, none)
  | arg :: rest =>
    if isQuoted then r.plain true arg |>.bind fun r => r.run true rest
    else if !r.awaitsValue && r.grammar.commands.contains arg then .ok (r, some (arg, rest))
    else if arg = "--" then r.run true rest
    else r.step arg |>.bind fun r => r.run false rest

end Reading

end SqlGateway.CommandLine
