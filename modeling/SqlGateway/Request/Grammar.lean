import SqlGateway.Error
import SqlGateway.Number.Numeral
import SqlGateway.Request.Document
import SqlGateway.Request.Parser
import SqlGateway.Text.Identifier

/-!
# The grammar of request documents

Blanks and comments, which a `#` starts and a line end ends, may stand around every token. Strings
stand in either kind of quotes. A bare word is a string, and so is a whole number too great for 64
bits unless it has a sign. Argument lists and the lists inside them may end with a comma.
-/
namespace SqlGateway.Request

open Number Text SqlGateway.Request.Parser

/-- Passes over blanks and comments. The flag tells whether the text begins inside a comment. -/
def skipSpace : Bool → Nat → List Char → Cursor
  | _, offset, [] => ⟨offset, []⟩
  | true, offset, c :: rest => skipSpace (c != '\n') (offset + 1) rest
  | false, offset, c :: rest =>
    if isBlank c then skipSpace false (offset + 1) rest
    else if c == '#' then skipSpace true (offset + 1) rest
    else ⟨offset, c :: rest⟩

/-- Blanks and comments; what ends them counts as a failure. -/
def space : Parser Unit := fun at_ =>
  let stop := skipSpace false at_.offset at_.rest
  ⟨stop.offset, some ((), stop)⟩

def padded (p : Parser α) : Parser α := do
  space
  let a ← p
  space
  return a

def symbol (c : Char) : Parser Unit := padded (char c)

def between (left right : Char) (p : Parser α) : Parser α := do
  symbol left
  let a ← p
  symbol right
  return a

def isNameChar (c : Char) : Bool := c.isAlphanum || c == '_'

def name : Parser String := do return String.ofList (← run1 isNameChar)

/-- A word of the grammar: a whole identifier that spells it. -/
def keyword (spelling : String) : Parser Unit :=
  judged
    (do
      let first ← satisfy isIdentifierStart
      let rest ← run isIdentifierPart
      return first :: rest)
    fun word => if word = spelling.toList then some () else none

/-- The character of an escape: a line end, a tab or a carriage return, else what was escaped. -/
def unescaped : Char → Char
  | 'n' => '\n'
  | 't' => '\t'
  | 'r' => '\r'
  | c => c

/-- The characters up to a closing quote, decoded, and the place after it. -/
def quotedBody (quote : Char) : Nat → List Char → Nat × Option (List Char × Cursor)
  | offset, [] => (offset, none)
  | offset, '\\' :: c :: rest =>
    let (furthest, result) := quotedBody quote (offset + 2) rest
    (furthest, result.map fun (s, next) => (unescaped c :: s, next))
  | offset, c :: rest =>
    if c = quote then (offset, some ([], ⟨offset + 1, rest⟩))
    else if c = '\\' then (offset + 1, none)
    else
      let (furthest, result) := quotedBody quote (offset + 1) rest
      (furthest, result.map fun (s, next) => (c :: s, next))

def quotedIn (quote : Char) : Parser String := do
  char quote
  fun at_ =>
    let (furthest, result) := quotedBody quote at_.offset at_.rest
    ⟨furthest, result.map fun (s, next) => (String.ofList s, next)⟩

def quotedText : Parser String := either (quotedIn '"') (quotedIn '\'')

/-- The characters of a numeral, and whether it has a fraction or an exponent. -/
structure Numeral where
  negative : Bool
  whole : List Char
  fraction : Option (List Char)
  exponent : Option (Bool × List Char)

def fractionDigits : Parser (List Char) := do
  char '.'
  run1 isDigit

/-- An exponent: whether it is negative, and its digits. -/
def exponentDigits : Parser (Bool × List Char) := do
  let _ ← satisfy fun c => c == 'e' || c == 'E'
  let sign ← optional (satisfy fun c => c == '+' || c == '-')
  let digits ← run1 isDigit
  return (sign == some '-', digits)

def numeral : Parser Numeral := do
  let sign ← optional (char '-')
  let whole ← run1 isDigit
  let fraction ← optional fractionDigits
  let exponent ← optional exponentDigits
  return ⟨sign.isSome, whole, fraction, exponent⟩

/-- The number of a numeral: an integer of 64 bits, or with a fraction or an exponent the nearest
floating-point number. -/
def Numeral.value? (n : Numeral) : Option Value :=
  match n.fraction, n.exponent with
  | none, none =>
    let magnitude : Int := digitsValue n.whole
    let i := if n.negative then -magnitude else magnitude
    if fitsInt64 i then some (.int i) else none
  | fraction, exponent =>
    let decimals := fraction.getD []
    let power : Int := match exponent with
      | none => 0
      | some (negative, digits) =>
        if negative then -(digitsValue digits : Int) else digitsValue digits
    some (.float
      (.ofDecimal n.negative (digitsValue (n.whole ++ decimals)) (power - decimals.length)))

def number : Parser Value := judged numeral Numeral.value?

def variableUse : Parser Value := do
  char '$'
  return .variable (← name)

def word : Parser Value :=
  firstOf [
    do keyword "true"; return .bool true,
    do keyword "false"; return .bool false,
    do keyword "null"; return .null,
    do return .text (← name)]

/-- A key without quotes, which may begin with a dollar sign and hold dots. -/
def bareKey : Parser String := do
  let dollar ← optional (char '$')
  let rest ← run1 fun c => isNameChar c || c == '.'
  return String.ofList (if dollar.isSome then '$' :: rest else rest)

def objectKey : Parser String := padded (either quotedText bareKey)

/-- A value whose lists and objects are nested at most `depth` deep. -/
def valueWithin : (depth : Nat) → Parser Value
  | 0 => failHere
  | depth + 1 =>
    let list := do
      return Value.list (← between '[' ']' (separated (valueWithin depth) (symbol ',')))
    let entry := do
      let key ← objectKey
      symbol ':'
      return (key, ← valueWithin depth)
    let object := do
      return Value.object (← between '\x7b' '\x7d' (separated entry (symbol ',')))
    padded (firstOf
      [variableUse, do return .text (← quotedText), number, word, list, object])

/-- A value. Each level of nesting takes a character, so no value is nested deeper than its text is
long. -/
def value : Parser Value := fun at_ => valueWithin (at_.rest.length + 1) at_

def argument : Parser Argument := do
  let key ← padded name
  symbol ':'
  return ⟨key, ← value⟩

def argumentList : Parser (List Argument) := between '(' ')' (separated argument (symbol ','))

def directive : Parser Directive := padded do
  char '@'
  let key ← name
  return ⟨key, (← optional argumentList).getD []⟩

/-- A name, or an alias, a colon and a name. -/
def aliasAndName : Parser (Option String × String) := do
  let first ← padded name
  let second ← optional do
    symbol ':'
    padded name
  return match second with
    | none => (none, first)
    | some field => (some first, field)

/-- A field whose selections are nested at most `depth` deep. -/
def fieldWithin : (depth : Nat) → Parser Field
  | 0 => failHere
  | depth + 1 => do
    let (label, key) ← aliasAndName
    let arguments ← optional argumentList
    let directives ← many directive
    let selection ← optional (between '\x7b' '\x7d' (many (fieldWithin depth)))
    let _ ← optional (symbol ',')
    return ⟨label, key, arguments.getD [], directives, selection.getD []⟩

def field : Parser Field := fun at_ => fieldWithin (at_.rest.length + 1) at_

/-- At least one field in braces. -/
def selectionSet : Parser (List Field) := between '\x7b' '\x7d' do
  let first ← field
  return first :: (← many field)

def isTypeChar (c : Char) : Bool := isNameChar c || c == '[' || c == ']' || c == '!'

def variableDefinition : Parser VariableDefinition := do
  let key ← padded do
    char '$'
    name
  symbol ':'
  let type ← padded (run1 isTypeChar)
  let default ← optional do
    symbol '='
    value
  return ⟨key, String.ofList type, default⟩

def variableDefinitions : Parser (List VariableDefinition) :=
  between '(' ')' (separated variableDefinition (symbol ','))

def operationKind : Parser OperationKind := padded <|
  either (do keyword "query"; return .query) (do keyword "mutation"; return .mutation)

def namedOperation : Parser Operation := do
  let kind ← operationKind
  let label ← optional (padded name)
  let definitions ← optional variableDefinitions
  let directives ← many directive
  let selection ← selectionSet
  return ⟨kind, label, definitions.getD [], directives, selection⟩

def operation : Parser Operation :=
  either namedOperation do
    return ⟨.query, none, [], [], ← selectionSet⟩

def document : Parser Document := do
  space
  let first ← operation
  let others ← many operation
  space
  endOfText
  return ⟨first :: others⟩

/-- The line of a place, from one, and the bytes of that line before it, plus one. -/
def lineAndColumn (before : List Char) : Nat × Nat :=
  let line := before.reverse.takeWhile (· != '\n')
  (before.count '\n' + 1, line.foldl (fun n c => n + c.utf8Size) 0 + 1)

/-- What is reported of a text whose reading failed at a place: where, and what was found there.
What the grammar would have taken in its place is not told. -/
def mistakeAt (text : List Char) (offset : Nat) : Error :=
  let (line, column) := lineAndColumn (text.take offset)
  let found := match text[offset]? with
    | some c => s!"'{c}'"
    | none => "end of input"
  .parse s!"line {line}, column {column} (found {found})"

/-- Reads a request document. -/
def Document.read (text : String) : Except Error Document :=
  let chars := text.toList
  match document (.start chars) with
  | ⟨_, some (d, _)⟩ => .ok d
  | ⟨furthest, none⟩ => .error (mistakeAt chars furthest)

end SqlGateway.Request
