import SqlGateway.Error
import SqlGateway.Json.Write
import SqlGateway.Text.Character
import SqlGateway.Text.Word

/-!
# The guard

Request values are searched for statement keywords and for ways to break out of a quoted text. A
keyword may stand anywhere, also glued to a word in front of it, but a word must end where it ends.
Letters count in either case, by the simple case folding of Unicode: two characters outside ASCII
fold to a letter of the lists.

Strings are searched in their JSON form, so a control character inside one is searched as its
escape.
-/
namespace SqlGateway.Guard

open Text

/-- What a blocked phrase asks for at one place of a text. -/
inductive Piece where
  /-- A letter, given in lower case. -/
  | letter (c : Char)
  /-- Any number of blanks, perhaps at least one. -/
  | blanks (atLeastOne : Bool)
  | quote
  /-- No word character follows. -/
  | wordEnd
  deriving DecidableEq, Repr

abbrev Phrase := List Piece

def word (s : String) : Phrase := s.toList.map .letter

/-- The words of statements that may not be smuggled in. -/
def keywords : List Phrase :=
  [word "select", word "insert", word "update",
    word "delete" ++ [.blanks true] ++ word "from",
    word "create", word "drop", word "alter", word "truncate", word "rename", word "grant",
    word "revoke", word "commit", word "rollback", word "savepoint"].map (· ++ [.wordEnd])

/-- A connective and then a quote. -/
def breakouts : List Phrase :=
  [word "or" ++ [.blanks false, .quote], word "and" ++ [.blanks false, .quote]]

def phrases : List Phrase := keywords ++ breakouts

/-- Whether a character is the given lower-case letter in either case. -/
def folds (letter c : Char) : Bool :=
  c.toLower == letter || (letter == 's' && c == 'ſ') || (letter == 'k' && c == '\u212a')

/-- Whether a phrase matches at the start of a text. -/
def matchesHere : Phrase → List Char → Bool
  | [], _ => true
  | .letter l :: rest, cs =>
    match cs with
    | [] => false
    | c :: after => folds l c && matchesHere rest after
  | .blanks atLeastOne :: rest, cs =>
    (!atLeastOne || (cs.head?.any isBlank)) && matchesHere rest (cs.dropWhile isBlank)
  | .quote :: rest, cs =>
    match cs with
    | [] => false
    | c :: after => c == '\'' && matchesHere rest after
  | .wordEnd :: rest, cs => !(cs.head?.any isWordChar) && matchesHere rest cs

/-- Whether some phrase matches somewhere in a text. -/
def isBlockedChars : List Char → Bool
  | [] => phrases.any (matchesHere · [])
  | c :: rest => phrases.any (matchesHere · (c :: rest)) || isBlockedChars rest

def isBlocked (text : String) : Bool := isBlockedChars text.toList

mutual

/-- Screens a value found under `key`. Every string in it and every key is searched; the error names
the innermost key, and of a refused key the one around it. -/
def check (key : String) : Json → Except Error Unit
  | .text s =>
    let written := Json.quoted s
    if isBlocked written then .error (.suspicious key written) else .ok ()
  | .list items => checkItems key items
  | .object fields => checkFields key fields
  | _ => .ok ()

def checkItems (key : String) : List Json → Except Error Unit
  | [] => .ok ()
  | item :: rest => do
    check key item
    checkItems key rest

def checkFields (key : String) : Object → Except Error Unit
  | [] => .ok ()
  | (k, v) :: rest => do
    if isBlocked k then throw (.suspicious key (Json.quoted k))
    check k v
    checkFields key rest

end

def checkText (key text : String) : Except Error Unit := check key (.text text)

end SqlGateway.Guard
