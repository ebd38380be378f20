import SqlGateway.Number.Binary64
import SqlGateway.Number.Layout
import SqlGateway.Number.Numeral

/-!
# Decimal numbers of fixed scale

Numbers with a fixed count of digits after the point, which their text and their bytes keep. In
bytes the digits go in groups of four from the point in both directions, without groups of zeros at
the ends.

Integers and floating-point numbers go into a fixed number of bytes, the most significant byte
first.
-/

namespace SqlGateway.Number

/-- The last `count` bytes of a natural number. -/
def bytesOfNat : (count : Nat) → Nat → List UInt8
  | 0, _ => []
  | count + 1, n => bytesOfNat count (n / 256) ++ [UInt8.ofNat n]

def natOfBytes (bytes : List UInt8) : Nat := bytes.foldl (fun n b => n * 256 + b.toNat) 0

/-- The last `count` bytes of an integer in two's complement. -/
def bytesOfInt (count : Nat) (n : Int) : List UInt8 :=
  bytesOfNat count (n % (Nat.pow 256 count : Nat)).toNat

def intOfBytes (bytes : List UInt8) : Int := Int.bmod (natOfBytes bytes) (Nat.pow 256 bytes.length)

namespace Format

/-- The number of bits of a number of the format that are not its sign or its significand. -/
def exponentBits (f : Format) : Nat := Nat.log2 (f.greatest - f.least + 2).toNat + 1

/-- The greatest content of the exponent field, which stands for no finite number. -/
def topField (f : Format) : Nat := Nat.pow 2 f.exponentBits - 1

def pack (f : Format) (negative : Bool) (field mantissa : Nat) : Nat :=
  ((if negative then Nat.pow 2 f.exponentBits else 0) + field) * Nat.pow 2 (f.precision - 1) +
    mantissa

/-- The bits of a number that the format holds. -/
def toBits (f : Format) : Binary64 → Nat
  | .finite negative significand exponent =>
    let hidden := Nat.pow 2 (f.precision - 1)
    if significand < hidden then f.pack negative 0 significand
    else f.pack negative (exponent - f.least + 1).toNat (significand - hidden)
  | .infinite negative => f.pack negative f.topField 0
  | .nan => f.pack false f.topField (Nat.pow 2 (f.precision - 2))

/-- The number with given bits, as the format holds it. -/
def ofBits (f : Format) (bits : Nat) : Binary64 :=
  let hidden := Nat.pow 2 (f.precision - 1)
  let mantissa := bits % hidden
  let field := bits / hidden % Nat.pow 2 f.exponentBits
  let negative := bits / (hidden * Nat.pow 2 f.exponentBits) % 2 = 1
  if field = f.topField then if mantissa = 0 then .infinite negative else .nan
  else if field = 0 then .finite negative mantissa f.least
  else .finite negative (mantissa + hidden) (field - 1 + f.least)

end Format

namespace Binary64

def toBytes (x : Binary64) : List UInt8 := bytesOfNat 8 (Format.double.toBits x)

def ofBytes (bytes : List UInt8) : Binary64 := Format.double.ofBits (natOfBytes bytes)

/-- The four bytes of the nearest number of single precision. -/
def toSingleBytes (x : Binary64) : List UInt8 :=
  let single :=
    match x with
    | .finite negative significand exponent =>
      let fraction := magnitude significand exponent
      Format.single.nearest negative fraction.1 fraction.2
    | other => other
  bytesOfNat 4 (Format.single.toBits single)

/-- The number of single precision in four bytes. -/
def ofSingleBytes (bytes : List UInt8) : Binary64 :=
  match Format.single.ofBits (natOfBytes bytes) with
  | .finite negative significand exponent =>
    let fraction := magnitude significand exponent
    ofFraction negative fraction.1 fraction.2
  | other => other

end Binary64

structure Numeric where
  negative : Bool
  /-- The digits without the point. -/
  coefficient : Nat
  /-- How many of them stand behind the point. -/
  scale : Nat
  deriving DecidableEq, Repr

namespace Numeric

/-- The text: at least one digit in front of the point, and no point without digits behind it. -/
def text (x : Numeric) : String :=
  let digits := decimalDigits x.coefficient
  let padded := List.replicate (x.scale + 1 - digits.length) '0' ++ digits
  let whole := padded.take (padded.length - x.scale)
  let fraction := padded.drop (padded.length - x.scale)
  String.ofList <| signed x.negative <|
    if fraction.isEmpty then whole else whole ++ '.' :: fraction

/-- Digits with underscores between or behind them. -/
def groupedDigits? (cs : List Char) : Option (List Char) :=
  if cs.all (fun c => isDigit c || c == '_') then some (cs.filter isDigit) else none

/-- The number that a text writes: a sign, digits, and a point among, before or behind them. An
underscore may stand anywhere behind the first digit. Zero has no sign. -/
def ofText? (cs : List Char) : Option Numeric := do
  let (negative, rest) := splitSign cs
  let whole := rest.takeWhile (· != '.')
  let fraction := (rest.dropWhile (· != '.')).drop 1
  let digits := (← groupedDigits? whole) ++ (← groupedDigits? fraction)
  let first := (whole ++ fraction).head?
  if digits.isEmpty || first == some '_' then none
  else
    let coefficient := digitsValue digits
    return ⟨negative && coefficient != 0, coefficient, (← groupedDigits? fraction).length⟩

/-- Splits digits into groups of four. -/
def groups : List Char → List Nat
  | a :: b :: c :: d :: rest => digitsValue [a, b, c, d] :: groups rest
  | _ => []

def toBytes (x : Numeric) : List UInt8 :=
  let whole := decimalDigits (x.coefficient / Nat.pow 10 x.scale)
  let fractionDigits := decimalDigits (x.coefficient % Nat.pow 10 x.scale)
  let fraction :=
    if x.scale = 0 then []
    else List.replicate (x.scale - fractionDigits.length) '0' ++ fractionDigits
  let whole := List.replicate ((4 - whole.length % 4) % 4) '0' ++ whole
  let fraction := fraction ++ List.replicate ((4 - fraction.length % 4) % 4) '0'
  let all := groups whole ++ groups fraction
  let front := all.takeWhile (· == 0)
  let kept := ((all.dropWhile (· == 0)).reverse.dropWhile (· == 0)).reverse
  let weight : Int := if kept.isEmpty then 0 else (whole.length / 4 : Nat) - 1 - front.length
  bytesOfNat 2 kept.length ++ bytesOfInt 2 weight
    ++ bytesOfNat 2 (if x.negative then 0x4000 else 0) ++ bytesOfNat 2 x.scale
    ++ kept.flatMap (bytesOfNat 2)

/-- Splits bytes into numbers of two bytes. -/
def shorts : List UInt8 → List Nat
  | a :: b :: rest => natOfBytes [a, b] :: shorts rest
  | _ => []

/-- The number in given bytes; digits beyond its scale are rounded, a half away from zero. -/
def ofBytes? (bytes : List UInt8) : Option Numeric :=
  match shorts bytes with
  | count :: weight :: sign :: scale :: rest =>
    let digits := rest.take count
    let value := digits.foldl (fun n group => n * 10000 + group) 0
    let exponent := 4 * (Int.bmod weight 65536 + 1 - digits.length) + scale
    let fraction := scaled value 1 10 exponent
    let coefficient := (2 * fraction.1 + fraction.2) / (2 * fraction.2)
    if digits.length = count then some ⟨sign == 0x4000, coefficient, scale⟩ else none
  | _ => none

end Numeric

end SqlGateway.Number
