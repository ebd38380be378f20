import SqlGateway.Text.Character

/-!
# Parsers with ordered choice

A parser reads from a cursor and gives a value with the cursor after it, or fails. Choice is ordered
and repetition is greedy; neither is ever taken back by what follows. Beside its result a parser
reports the furthest place at which anything failed on the way, also inside alternatives that were
given up and at the ends of repetitions that succeeded. That place is where a reader looks for the
mistake.
-/
namespace SqlGateway.Request

/-- A place in a text: how many characters lie before it, and the characters from it on. -/
structure Cursor where
  offset : Nat
  rest : List Char
  deriving Repr

def Cursor.start (text : List Char) : Cursor := ⟨0, text⟩

/-- The furthest failure on the way, and the result. -/
structure Reply (α : Type) where
  furthest : Nat
  result : Option (α × Cursor)

def Parser (α : Type) := Cursor → Reply α

namespace Parser

def succeed (a : α) : Parser α := fun at_ => ⟨0, some (a, at_)⟩

def failHere : Parser α := fun at_ => ⟨at_.offset, none⟩

def andThen (p : Parser α) (f : α → Parser β) : Parser β := fun at_ =>
  match p at_ with
  | ⟨furthest, none⟩ => ⟨furthest, none⟩
  | ⟨furthest, some (a, next)⟩ =>
    let reply := f a next
    ⟨max furthest reply.furthest, reply.result⟩

instance : Monad Parser where
  pure := succeed
  bind := andThen

def either (p q : Parser α) : Parser α := fun at_ =>
  match p at_ with
  | ⟨furthest, some r⟩ => ⟨furthest, some r⟩
  | ⟨furthest, none⟩ =>
    let reply := q at_
    ⟨max furthest reply.furthest, reply.result⟩

def firstOf : List (Parser α) → Parser α
  | [] => failHere
  | [p] => p
  | p :: rest => either p (firstOf rest)

def optional (p : Parser α) : Parser (Option α) :=
  either (andThen p fun a => succeed (some a)) (succeed none)

/-- At most `count` values of `p`, one after another. -/
def upTo (p : Parser α) : Nat → Parser (List α)
  | 0 => succeed []
  | count + 1 =>
    either (andThen p fun a => andThen (upTo p count) fun rest => succeed (a :: rest)) (succeed [])

/-- As many values of `p` as there are. Each reads a character at least, so there cannot be more of
them than characters. -/
def many (p : Parser α) : Parser (List α) := fun at_ => upTo p at_.rest.length at_

def satisfy (accept : Char → Bool) : Parser Char := fun at_ =>
  match at_.rest with
  | [] => ⟨at_.offset, none⟩
  | c :: rest => if accept c then ⟨0, some (c, ⟨at_.offset + 1, rest⟩)⟩ else ⟨at_.offset, none⟩

def char (c : Char) : Parser Unit := andThen (satisfy (· == c)) fun _ => succeed ()

/-- The longest run of accepted characters. The character that ends it counts as a failure. -/
def run (accept : Char → Bool) : Parser (List Char) := fun at_ =>
  let taken := at_.rest.takeWhile accept
  let stop := at_.offset + taken.length
  ⟨stop, some (taken, ⟨stop, at_.rest.dropWhile accept⟩)⟩

/-- The longest run of accepted characters, which must not be empty. -/
def run1 (accept : Char → Bool) : Parser (List Char) := fun at_ =>
  match run accept at_ with
  | ⟨furthest, some ([], _)⟩ => ⟨furthest, none⟩
  | reply => reply

/-- A parser whose value is judged as a whole: a refused value counts as a failure at its start, and
the failures inside it are forgotten. -/
def judged (p : Parser α) (judge : α → Option β) : Parser β := fun at_ =>
  match p at_ with
  | ⟨furthest, none⟩ => ⟨furthest, none⟩
  | ⟨furthest, some (a, next)⟩ =>
    match judge a with
    | some b => ⟨furthest, some (b, next)⟩
    | none => ⟨at_.offset, none⟩

/-- Values between separators, of which one more may follow the last value. -/
def separatedUpTo (p : Parser α) (separator : Parser Unit) : Nat → Parser (List α)
  | 0 => succeed []
  | count + 1 =>
    either
      (andThen p fun a =>
        andThen (optional separator) fun more =>
          match more with
          | none => succeed [a]
          | some () =>
            andThen (separatedUpTo p separator count) fun rest => succeed (a :: rest))
      (succeed [])

def separated (p : Parser α) (separator : Parser Unit) : Parser (List α) := fun at_ =>
  separatedUpTo p separator (at_.rest.length + 1) at_

def endOfText : Parser Unit := fun at_ =>
  if at_.rest.isEmpty then ⟨0, some ((), at_)⟩ else ⟨at_.offset, none⟩

end Parser

end SqlGateway.Request
