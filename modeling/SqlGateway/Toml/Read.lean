import SqlGateway.Toml.Scalar
import SqlGateway.Toml.Table

/-!
# Reading TOML

A document is a sequence of lines: a header that opens a table, a path of keys with a value, a
comment, or nothing. Values in brackets may go over several lines.
-/
namespace SqlGateway.Toml

/-- The text after the rest of a line that may hold a comment. At the end of the document nothing is
left. -/
def afterLine? (cs : List Char) : Option (List Char) :=
  let cs := skipSpaces cs
  let comment := if cs.head? = some '#' then cs.takeWhile fun c => c != '\n' && c != '\r' else []
  if comment.any isControl then none
  else
    match cs.drop comment.length with
    | [] => some []
    | rest => afterBreak? rest

/-- The text after blanks, line breaks and comments. -/
def skipLines : (fuel : Nat) → List Char → List Char
  | 0, cs => cs
  | fuel + 1, cs =>
    match skipSpaces cs with
    | [] => []
    | c :: rest =>
      if c = '#' || c = '\n' || c = '\r' then
        match afterLine? (c :: rest) with
        | some rest => skipLines fuel rest
        | none => c :: rest
      else c :: rest

def skipBlank (cs : List Char) : List Char := skipLines cs.length cs

/-- Whether a character ends a word. -/
def endsWord (c : Char) : Bool :=
  isSpace c || c == '\n' || c == '\r' || c == ',' || c == ']' || c == '\x7d' || c == '#'

/-- A word, and what follows it. A date and a time may have a space between them. -/
def word (cs : List Char) : List Char × List Char :=
  let first := cs.takeWhile (!endsWord ·)
  match cs.drop first.length with
  | ' ' :: c :: rest =>
    if Number.isDigit c && (date? first).any (·.2.isEmpty) then
      let second := (c :: rest).takeWhile (!endsWord ·)
      (first ++ ' ' :: second, (c :: rest).drop second.length)
    else (first, ' ' :: c :: rest)
  | rest => (first, rest)

mutual

/-- A value and what follows it. -/
def value? : (fuel : Nat) → List Char → Option (Json × List Char)
  | 0, _ | _, [] => none
  | fuel + 1, c :: rest =>
    match c with
    | '"' | '\'' => (stringAfter? c rest).map fun (s, rest) => (.text s, rest)
    | '[' => (items? fuel (skipBlank rest)).map fun (items, rest) => (.list items, rest)
    | '\x7b' =>
      (fields? fuel [] (skipBlank rest)).map fun (entries, rest) =>
        (.object (entriesToJson entries), rest)
    | _ =>
      let (word, rest) := word (c :: rest)
      (scalar? word).map (·, rest)

/-- The items of a list up to its closing bracket. -/
def items? : (fuel : Nat) → List Char → Option (List Json × List Char)
  | 0, _ => none
  | _, ']' :: rest => some ([], rest)
  | fuel + 1, cs => do
    let (v, rest) ← value? fuel cs
    match skipBlank rest with
    | ']' :: rest => some ([v], rest)
    | ',' :: rest =>
      let (items, rest) ← items? fuel (skipBlank rest)
      some (v :: items, rest)
    | _ => none

/-- The fields of a table in braces up to its closing brace. -/
def fields? : (fuel : Nat) → Entries → List Char → Option (Entries × List Char)
  | 0, _, _ => none
  | _, entries, '\x7d' :: rest => some (entries, rest)
  | fuel + 1, entries, cs => do
    let (keys, rest) ← path? (cs.length + 1) cs
    let rest ← expect '=' rest
    let (v, rest) ← value? fuel (skipSpaces rest)
    let entries ← store keys v .header entries
    match skipBlank rest with
    | '\x7d' :: rest => some (entries, rest)
    | ',' :: rest => fields? fuel entries (skipBlank rest)
    | _ => none

end

/-- A document while it is being read, and the path of the table that is open. -/
structure Reading where
  entries : Entries
  current : List String

namespace Reading

/-- The header of a table, after its first bracket. -/
def header? (r : Reading) (cs : List Char) : Option (Reading × List Char) := do
  let isElement := cs.head? = some '['
  let inner := skipSpaces (if isElement then cs.drop 1 else cs)
  let (keys, rest) ← path? (cs.length + 1) inner
  let rest ← expect ']' rest
  let rest ← if isElement then expect ']' rest else some rest
  let entries ← openAt isElement keys r.entries
  some (⟨entries, keys⟩, rest)

/-- A path of keys and its value, stored in the open table. -/
def assignment? (r : Reading) (cs : List Char) : Option (Reading × List Char) := do
  let (keys, rest) ← path? (cs.length + 1) cs
  let rest ← expect '=' rest
  let rest := skipSpaces rest
  let (v, rest) ← value? (2 * rest.length + 2) rest
  let entries ← changeAt .implicit r.current (store keys v) .header r.entries
  some (⟨entries, r.current⟩, rest)

/-- Reads all lines, at most `fuel` of them. -/
def lines? : (fuel : Nat) → Reading → List Char → Option Reading
  | 0, r, cs => if cs.isEmpty then some r else none
  | fuel + 1, r, cs =>
    match skipBlank cs with
    | [] => some r
    | '[' :: rest => do
      let (r, rest) ← r.header? rest
      lines? fuel r (← afterLine? rest)
    | rest => do
      let (r, rest) ← r.assignment? rest
      lines? fuel r (← afterLine? rest)

end Reading

/-- The value a document writes. A byte-order mark in front is passed over. -/
def read? (s : String) : Option Json :=
  let cs := s.toList
  let cs := if cs.head? = some '\uFEFF' then cs.drop 1 else cs
  (Reading.lines? (cs.length + 1) ⟨[], []⟩ cs).map fun r => .object (entriesToJson r.entries)

end SqlGateway.Toml
