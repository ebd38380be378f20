/-!
# Floating-point numbers

The numbers of the binary64 interchange format as data: sign, significand and exponent, infinities
and one not-a-number. Arithmetic is exact arithmetic on integers followed by one rounding, so every
result is determined by the definitions below and not by a processor.

A finite number is kept in canonical form by every function that makes one: the significand has
exactly 53 bits, or the exponent is the least one. Two zeros exist.

Quotients of natural numbers are rounded to the nearest whole number, ties to the even neighbour,
and have their place among the powers of a base.
-/

namespace SqlGateway.Number

/-- The integer nearest to `num / den`; of two equally near ones, the even one. -/
def roundHalfEven (num den : Nat) : Nat :=
  let quotient := num / den
  let twice := 2 * (num % den)
  if den < twice ∨ (twice = den ∧ quotient % 2 = 1) then quotient + 1 else quotient

theorem roundHalfEven_of_dvd {den : Nat} (n : Nat) (h : 0 < den) :
    roundHalfEven (n * den) den = n := by
  simp [roundHalfEven, Nat.mul_div_cancel n h, Nat.ne_of_lt h]

/-- `base ^ exponent` as a fraction: the power stands above or below the line. -/
def powerFraction (base : Nat) (exponent : Int) : Nat × Nat :=
  if 0 ≤ exponent then (Nat.pow base exponent.toNat, 1) else (1, Nat.pow base (-exponent).toNat)

/-- `num / den · base ^ exponent` as a fraction. -/
def scaled (num den base : Nat) (exponent : Int) : Nat × Nat :=
  let power := powerFraction base exponent
  (num * power.1, den * power.2)

/-- The greatest `k` with `2 ^ k ≤ num / den`, for positive `num` and `den`. -/
def binaryMagnitude (num den : Nat) : Int :=
  let guess : Int := (num.log2 : Int) - (den.log2 : Int)
  let power := powerFraction 2 guess
  if power.1 * den ≤ num * power.2 then guess else guess - 1

/-- The greatest `k` with `10 ^ k ≤ num / den`, for positive `num` and `den`. The guess from the
binary magnitude is off by one place at most. -/
def decimalMagnitude (num den : Nat) : Int :=
  let guess : Int := (binaryMagnitude num den * 30103) / 100000
  let reaches (k : Int) : Bool :=
    let power := powerFraction 10 k
    power.1 * den ≤ num * power.2
  if reaches (guess + 1) then guess + 1 else if reaches guess then guess else guess - 1

inductive Binary64 where
  /-- The number `± significand · 2 ^ exponent`. -/
  | finite (negative : Bool) (significand : Nat) (exponent : Int)
  | infinite (negative : Bool)
  | nan
  deriving DecidableEq, Repr, Inhabited

/-- A binary format by the width of its significand and the exponents of its last place. -/
structure Format where
  precision : Nat
  least : Int
  greatest : Int
  deriving DecidableEq, Repr

def Format.double : Format := ⟨53, -1074, 971⟩
def Format.single : Format := ⟨24, -149, 104⟩

namespace Format

/-- The exponent of the last place of a number of this format near `num / den`. -/
def lastPlace (f : Format) (num den : Nat) : Int :=
  max f.least (binaryMagnitude num den + 1 - f.precision)

/-- The number of a format nearest to `± num / den`, ties to even, beyond the greatest an infinity.
It is given as a significand and an exponent of that format. -/
def nearest (f : Format) (negative : Bool) (num den : Nat) : Binary64 :=
  if num = 0 then .finite negative 0 f.least
  else
    let place := f.lastPlace num den
    let fraction := scaled num den 2 (-place)
    let significand := roundHalfEven fraction.1 fraction.2
    let carried := significand = Nat.pow 2 f.precision
    let exponent := if carried then place + 1 else place
    if f.greatest < exponent then .infinite negative
    else .finite negative (if carried then significand / 2 else significand) exponent

end Format

namespace Binary64

def ofFraction (negative : Bool) (num den : Nat) : Binary64 :=
  Format.double.nearest negative num den

def zero (negative : Bool) : Binary64 := .finite negative 0 Format.double.least

def ofNat (n : Nat) : Binary64 := ofFraction false n 1

def ofInt (n : Int) : Binary64 := ofFraction (n < 0) n.natAbs 1

/-- The number nearest to `± digits · 10 ^ exponent`. A place of ten takes more than three bits, so
numbers far outside the range are told by their bits, without the power. -/
def ofDecimal (negative : Bool) (digits : Nat) (exponent : Int) : Binary64 :=
  let bits : Int := digits.log2 + 3 * exponent
  if digits = 0 ∨ bits < -1075 then zero negative
  else if 0 ≤ exponent ∧ 1024 ≤ bits then .infinite negative
  else
    let fraction := scaled digits 1 10 exponent
    ofFraction negative fraction.1 fraction.2

def isFinite : Binary64 → Bool
  | .finite .. => true
  | _ => false

def isInfinite : Binary64 → Bool
  | .infinite _ => true
  | _ => false

def isNegative : Binary64 → Bool
  | .finite negative .. => negative
  | .infinite negative => negative
  | .nan => false

def isZero : Binary64 → Bool
  | .finite _ significand _ => significand == 0
  | _ => false

def neg : Binary64 → Binary64
  | .finite negative significand exponent => .finite (!negative) significand exponent
  | .infinite negative => .infinite (!negative)
  | .nan => .nan

/-- The absolute value of a finite number as a fraction. -/
def magnitude (significand : Nat) (exponent : Int) : Nat × Nat :=
  scaled significand 1 2 exponent

/-- The product of two finite numbers, rounded once. Only finite factors occur. -/
def mul : Binary64 → Binary64 → Binary64
  | .finite n₁ s₁ e₁, .finite n₂ s₂ e₂ =>
    let fraction := magnitude (s₁ * s₂) (e₁ + e₂)
    ofFraction (n₁ != n₂) fraction.1 fraction.2
  | _, _ => .nan

/-- The quotient of two finite numbers, rounded once. A zero divisor does not occur. -/
def div : Binary64 → Binary64 → Binary64
  | .finite n₁ s₁ e₁, .finite n₂ s₂ e₂ =>
    if s₂ = 0 then .nan
    else
      let fraction := scaled s₁ s₂ 2 (e₁ - e₂)
      ofFraction (n₁ != n₂) fraction.1 fraction.2
  | _, _ => .nan

/-- The integer part, towards zero. -/
def truncate? : Binary64 → Option Int
  | .finite negative significand exponent =>
    let fraction := magnitude significand exponent
    let whole : Int := fraction.1 / fraction.2
    some (if negative then -whole else whole)
  | _ => none

/-- The integer part, clamped to a range; not-a-number counts as zero. -/
def truncateInto (least greatest : Int) (x : Binary64) : Int :=
  match x with
  | .finite .. => max least (min greatest (x.truncate?.getD 0))
  | .infinite negative => if negative then least else greatest
  | .nan => 0

/-- The nearest number with a significand of 24 bits, held again in the wider format. -/
def toSingle : Binary64 → Binary64
  | .finite negative significand exponent =>
    let fraction := magnitude significand exponent
    match Format.single.nearest negative fraction.1 fraction.2 with
    | .finite _ s e =>
      let wide := magnitude s e
      ofFraction negative wide.1 wide.2
    | other => other
  | other => other

end Binary64

end SqlGateway.Number
