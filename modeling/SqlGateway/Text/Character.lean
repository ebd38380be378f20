/-!
# Characters

Sets of characters, among them the white space of the Unicode standard, and texts without the blanks
at their ends.
-/
namespace SqlGateway.Text

/-- Closed ranges of code points; a character belongs to the set when one of them holds it. -/
abbrev Ranges := Array (Nat × Nat)

def Ranges.contains (ranges : Ranges) (c : Char) : Bool :=
  ranges.any fun range => range.1 ≤ c.toNat && c.toNat ≤ range.2

/-- The characters with the property White_Space. A byte order mark and a zero width space do not
have it. -/
def isBlank (c : Char) : Bool :=
  let n := c.toNat
  (0x9 ≤ n && n ≤ 0xd) || n == 0x20 || n == 0x85 || n == 0xa0 || n == 0x1680
    || (0x2000 ≤ n && n ≤ 0x200a) || n == 0x2028 || n == 0x2029 || n == 0x202f || n == 0x205f
    || n == 0x3000

/-- A text without the blanks at both ends. -/
def trimmed (s : List Char) : List Char :=
  ((s.dropWhile isBlank).reverse.dropWhile isBlank).reverse

def trim (s : String) : String :=
  String.ofList (trimmed s.toList)

/-- Characters are finitely many, so a statement about those of a list can be decided in two ways:
along the list, or by a search through all of them. Only the first one ends in time. -/
instance (priority := 2000) decidableForallMem (p : Char → Prop) [DecidablePred p]
    (cs : List Char) : Decidable (∀ c ∈ cs, p c) :=
  List.decidableBAll p cs

end SqlGateway.Text
