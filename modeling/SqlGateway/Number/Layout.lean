import SqlGateway.Number.Binary64

/-!
# Written numbers

How a floating-point number is laid out once its digits are known. The two layouts in use are values
of one record; the digits are the same for both.

Every finite number but zero is the nearest one to an interval of reals around it. Among the
decimals in that interval the one with the fewest digits is found, and of several with that many
digits the one nearest to the number, of two equally near ones the even one.
-/

namespace SqlGateway.Number

/-- The decimal `digits · 10 ^ exponent`. -/
structure Decimal where
  digits : Nat
  exponent : Int
  deriving DecidableEq, Repr

/-- The reals that round to a number: all between the two bounds, which are multiples of
`2 ^ exponent`, with the bounds themselves or without them. -/
structure Basin where
  lower : Nat
  upper : Nat
  exponent : Int
  closed : Bool
  deriving DecidableEq, Repr

namespace Basin

/-- Half way to either neighbour; the lower neighbour of a power of two is only half as far away,
unless it lies in the least binade. -/
def around (significand : Nat) (exponent : Int) : Basin :=
  let narrow := significand = 4503599627370496 ∧ Format.double.least < exponent
  ⟨4 * significand - (if narrow then 1 else 2), 4 * significand + 2, exponent - 2,
    significand % 2 == 0⟩

/-- Whether the interval holds `num / den`. -/
def holds (b : Basin) (num den : Nat) : Bool :=
  let lower := scaled b.lower 1 2 b.exponent
  let upper := scaled b.upper 1 2 b.exponent
  let below := lower.1 * den
  let here := num
  if b.closed then below ≤ here * lower.2 && here * upper.2 ≤ upper.1 * den
  else below < here * lower.2 && here * upper.2 < upper.1 * den

end Basin

/-- A decimal without its trailing zeros, of which at most `fuel` are removed. -/
def Decimal.stripped : Nat → Decimal → Decimal
  | 0, d => d
  | fuel + 1, d =>
    if d.digits ≠ 0 ∧ d.digits % 10 = 0 then stripped fuel ⟨d.digits / 10, d.exponent + 1⟩ else d

/-- The nearer of the two neighbours of `num / den` on the grid of the multiples of
`10 ^ place`, if it lies in the interval; else the other, if that does. -/
def nearestOnGrid (b : Basin) (num den : Nat) (place : Int) : Option Decimal :=
  let onGrid := scaled num den 10 (-place)
  let floor := onGrid.1 / onGrid.2
  let twice := 2 * (onGrid.1 % onGrid.2)
  let upward := onGrid.2 < twice ∨ (twice = onGrid.2 ∧ floor % 2 = 1)
  let first := if upward then floor + 1 else floor
  let second := if upward then floor else floor + 1
  let fits (digits : Nat) : Bool :=
    let point := scaled digits 1 10 place
    digits != 0 && b.holds point.1 point.2
  if fits first then some ⟨first, place⟩
  else if fits second then some ⟨second, place⟩
  else none

/-- The first grid with a hit, from coarse to fine; seventeen digits always suffice. -/
def searchGrids (b : Basin) (num den : Nat) : Nat → Int → Decimal
  | 0, place => ⟨roundHalfEven (scaled num den 10 (-place)).1 (scaled num den 10 (-place)).2, place⟩
  | finer + 1, place =>
    match nearestOnGrid b num den place with
    | some d => d
    | none => searchGrids b num den finer (place - 1)

/-- The shortest decimal that reads back as `significand · 2 ^ exponent`. -/
def shortest (significand : Nat) (exponent : Int) : Decimal :=
  let fraction := Binary64.magnitude significand exponent
  let start := decimalMagnitude fraction.1 fraction.2
  let found := searchGrids (Basin.around significand exponent) fraction.1 fraction.2 16 start
  Decimal.stripped 17 found

/-- Where positional writing is used, and whether a whole number keeps a zero after the point.
`positional` gives the least and greatest exponent of the first digit that is written positionally;
without it every number is. -/
structure Layout where
  positional : Option (Int × Int)
  zeroAfterPoint : Bool
  deriving Repr

/-- Numbers inside documents: positional while the first digit stands at one of the places
`10 ^ -5` to `10 ^ 15`, and always with a digit after the point. -/
def Layout.json : Layout := ⟨some (-5, 15), true⟩

/-- Numbers as plain text: always positional, whole numbers without a point. -/
def Layout.plain : Layout := ⟨none, false⟩

def decimalDigits (n : Nat) : List Char := Nat.toDigits 10 n

def signed (negative : Bool) (cs : List Char) : List Char :=
  if negative then '-' :: cs else cs

/-- Digits with a decimal point `place` places from their start; zeros fill the gaps. -/
def positionalText (zeroAfterPoint : Bool) (digits : List Char) (place : Int) : List Char :=
  if place ≤ 0 then '0' :: '.' :: (List.replicate (-place).toNat '0' ++ digits)
  else
    let whole := place.toNat
    if digits.length ≤ whole then
      digits ++ List.replicate (whole - digits.length) '0' ++
        (if zeroAfterPoint then ['.', '0'] else [])
    else digits.take whole ++ '.' :: digits.drop whole

/-- One digit, the rest after a point, and the exponent with its sign. -/
def scientificText (digits : List Char) (exponent : Int) : List Char :=
  let mantissa := match digits with
    | [] => []
    | [d] => [d]
    | d :: rest => d :: '.' :: rest
  mantissa ++ 'e' :: (if exponent < 0 then '-' else '+') :: decimalDigits exponent.natAbs

/-- The text of a finite number. -/
def Layout.finiteText (layout : Layout) (negative : Bool) (significand : Nat) (exponent : Int) :
    List Char :=
  if significand = 0 then
    signed negative (if layout.zeroAfterPoint then ['0', '.', '0'] else ['0'])
  else
    let decimal := shortest significand exponent
    let digits := decimalDigits decimal.digits
    let first : Int := decimal.exponent + digits.length - 1
    let positional := match layout.positional with
      | none => true
      | some (least, greatest) => decide (least ≤ first ∧ first ≤ greatest)
    signed negative <|
      if positional then positionalText layout.zeroAfterPoint digits (first + 1)
      else scientificText digits first

/-- The text of a number; infinities and not-a-number have a word. -/
def Layout.write (layout : Layout) : Binary64 → String
  | .finite negative significand exponent =>
    String.ofList (layout.finiteText negative significand exponent)
  | .infinite negative => if negative then "-inf" else "inf"
  | .nan => "NaN"

end SqlGateway.Number
