import SqlGateway.Text.Character

/-!
# Searching and cutting texts

Texts inside texts, cuts at the first place of a separator, and words between blanks. A text is a
list of characters.
-/
namespace SqlGateway.Text

/-- Removes a text from the front. -/
def dropFront? : (front : List Char) → List Char → Option (List Char)
  | [], cs => some cs
  | _ :: _, [] => none
  | f :: front, c :: rest => if f = c then dropFront? front rest else none

def startsWith (front cs : List Char) : Bool := (dropFront? front cs).isSome

/-- Whether a text occurs in another one. -/
def occurs (part : List Char) : List Char → Bool
  | [] => part.isEmpty
  | c :: rest => startsWith part (c :: rest) || occurs part rest

/-- What stands before and after the first place of a separator. -/
def splitOnce (separator : List Char) : List Char → Option (List Char × List Char)
  | [] => if separator.isEmpty then some ([], []) else none
  | c :: rest =>
    match dropFront? separator (c :: rest) with
    | some after => some ([], after)
    | none => (splitOnce separator rest).map fun (before, after) => (c :: before, after)

/-- The words of a text: its longest pieces without blanks. -/
def words : List Char → List (List Char)
  | [] => []
  | c :: rest =>
    if isBlank c then words rest
    else
      match rest, words rest with
      | [], _ => [[c]]
      | d :: _, others =>
        if isBlank d then [c] :: others
        else
          match others with
          | [] => [[c]]
          | first :: more => (c :: first) :: more

/-- Every place of a character, written twice. -/
def doubled (c : Char) : List Char → List Char
  | [] => []
  | d :: rest => if d = c then c :: c :: doubled c rest else d :: doubled c rest

def upper (cs : List Char) : List Char := cs.map Char.toUpper

def lower (cs : List Char) : List Char := cs.map Char.toLower

def lowered (s : String) : String := String.ofList (lower s.toList)

def uppered (s : String) : String := String.ofList (upper s.toList)

@[simp] theorem dropFront?_append (front rest : List Char) :
    dropFront? front (front ++ rest) = some rest := by
  induction front with
  | nil => rfl
  | cons f front ih => simp [dropFront?, ih]

end SqlGateway.Text
