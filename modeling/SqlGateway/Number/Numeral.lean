import SqlGateway.Number.Binary64
import SqlGateway.Number.Word

/-!
# Numerals

Reading numbers from text: integers within a range, and decimal numerals as the nearest
floating-point number. Blanks are not skipped and digits are the ten ASCII ones.
-/
namespace SqlGateway.Number

def isDigit (c : Char) : Bool := '0' ≤ c && c ≤ '9'

def digitValue (c : Char) : Nat := c.toNat - '0'.toNat

/-- The number written by a list of digits. -/
def digitsValue (cs : List Char) : Nat :=
  cs.foldl (fun n c => 10 * n + digitValue c) 0

/-- A nonempty list of digits as a number. -/
def natural? (cs : List Char) : Option Nat :=
  if !cs.isEmpty && cs.all isDigit then some (digitsValue cs) else none

/-- A natural number of 64 bits, a plus sign allowed in front. -/
def unsigned64? (cs : List Char) : Option Nat :=
  let digits := match cs with
    | '+' :: rest => rest
    | _ => cs
  (natural? digits).filter (· < wordCount)

/-- An integer of 64 bits with an optional sign. -/
def signed64? (cs : List Char) : Option Int :=
  let value := match cs with
    | '+' :: rest => (natural? rest).map Int.ofNat
    | '-' :: rest => (natural? rest).map fun n => -(n : Int)
    | _ => (natural? cs).map Int.ofNat
  value.filter fitsInt64

def asciiLower (c : Char) : Char := c.toLower

/-- The sign in front of a numeral and what follows it. -/
def splitSign : List Char → Bool × List Char
  | '-' :: rest => (true, rest)
  | '+' :: rest => (false, rest)
  | cs => (false, cs)

/-- The exponent part of a numeral: nothing, or `e`, an optional sign and digits. -/
def exponentPart : List Char → Option Int
  | [] => some 0
  | c :: rest =>
    if c == 'e' || c == 'E' then
      let (negative, digits) := splitSign rest
      (natural? digits).map fun n => if negative then -(n : Int) else n
    else none

/-- Digits, a point and digits, of which one side may be empty, and an optional exponent. -/
def decimalNumeral (negative : Bool) (cs : List Char) : Option Binary64 :=
  let whole := cs.takeWhile isDigit
  let (fraction, rest) := match cs.dropWhile isDigit with
    | '.' :: after => (after.takeWhile isDigit, after.dropWhile isDigit)
    | other => ([], other)
  let digits := whole ++ fraction
  if digits.isEmpty then none
  else
    (exponentPart rest).map fun exponent =>
      Binary64.ofDecimal negative (digitsValue digits) (exponent - fraction.length)

/-- A floating-point numeral: a decimal numeral, or one of the words for infinity and not-a-number
in any case, with an optional sign. A numeral too great for the format reads as an infinity. -/
def float? (cs : List Char) : Option Binary64 :=
  let (negative, rest) := splitSign cs
  let word := rest.map asciiLower
  if word == "inf".toList || word == "infinity".toList then some (.infinite negative)
  else if word == "nan".toList then some .nan
  else decimalNumeral negative rest

end SqlGateway.Number
