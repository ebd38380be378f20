import SqlGateway.Config.Stored
import SqlGateway.Json.Read
import SqlGateway.Text.Utf8
import SqlGateway.Toml.Read

/-!
# Configuration files

The format of a file is told by the ending of its name. A configuration that can be read must also
be valid.

Paths are followed in a directory whose files are known.
-/

namespace SqlGateway

/-- What stands under a path. -/
inductive FileContent where
  | bytes (content : List UInt8)
  | directory
  | missing
  /-- The path leads through something that is no directory. -/
  | blocked
  deriving Repr

namespace FileContent

/-- The text of a file, or why there is none. -/
def text : FileContent → Except String String
  | bytes content =>
    match Text.decode? content with
    | some s => .ok s
    | none => .error "stream did not contain valid UTF-8"
  | directory => .error "Is a directory (os error 21)"
  | missing => .error "No such file or directory (os error 2)"
  | blocked => .error "Not a directory (os error 20)"

/-- What stands at the place that names lead to. A place on the way to a file is a directory. -/
def atPlace (files : List (String × FileContent)) (names : List String) : FileContent :=
  let path := "/".intercalate names
  match files.find? (·.1 == path) with
  | some (_, content) => content
  | none =>
    if names.isEmpty || files.any fun file => file.1.startsWith (path ++ "/") then directory
    else missing

/-- Follows names from a place. What is followed further must be a directory, and nothing is known
of what lies outside. -/
def follow (files : List (String × FileContent)) (place : List String) : List String → FileContent
  | [] => atPlace files place
  | name :: rest =>
    if name = "" ∨ name = "." then follow files place rest
    else if name = ".." then if place.isEmpty then missing else follow files place.dropLast rest
    else
      let here := place ++ [name]
      match atPlace files here with
      | directory => follow files here rest
      | bytes content => if rest.isEmpty then bytes content else blocked
      | other => other

/-- What stands under a path in a directory with given files. -/
def under (files : List (String × FileContent)) (path : String) : FileContent :=
  if path.startsWith "/" then missing else follow files [] (path.splitToList (· == '/'))

end FileContent

end SqlGateway

namespace SqlGateway

namespace Config

/-- The last name of a path, if it has one. -/
def fileName? (path : String) : Option String :=
  let parts := (path.splitToList (· == '/')).filter fun part => part != "" && part != "."
  parts.getLast?.filter (· != "..")

/-- What follows the last point of a file name; a point in front begins no ending. -/
def ending? (name : String) : Option String :=
  let reversed := name.toList.reverse
  match reversed.dropWhile (· != '.') with
  | [] | [_] => none
  | _ => some (String.ofList (reversed.takeWhile (· != '.')).reverse)

def Format.ofPath (path : String) : Except ConfigError Format :=
  match (fileName? path).bind ending? with
  | some "toml" => .ok .toml
  | some "json" => .ok .json
  | other => .error (.unsupportedFormat (other.getD "<none>"))

def Format.read? : Format → String → Option Json
  | .json => Json.readVerbatim?
  | .toml => Toml.read?

/-- The configuration a text writes. -/
def ofText (format : Format) (text : String) : Except ConfigError Config := do
  let some config := (format.read? text).bind (ofJson? format) | throw .malformed
  config.validate
  return config

/-- The configuration in a file. -/
def ofFile (path : String) (content : FileContent) : Except ConfigError Config := do
  let format ← Format.ofPath path
  match content.text with
  | .ok text => ofText format text
  | .error what => throw (.unreadable path what)

end Config

end SqlGateway
