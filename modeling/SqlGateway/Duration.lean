import SqlGateway.Number.Layout

/-!
# Durations

Lengths of time in whole nanoseconds, and their text in the greatest unit that keeps a whole part.
-/
namespace SqlGateway

structure Duration where
  nanoseconds : Nat
  deriving DecidableEq, Repr, Inhabited

namespace Duration

def ofSeconds (n : Nat) : Duration := ⟨n * 1000000000⟩

def ofMilliseconds (n : Nat) : Duration := ⟨n * 1000000⟩

/-- A decimal fraction without its trailing zeros: the digits of `part / 10 ^ places`. -/
def fractionDigits (part places : Nat) : List Char :=
  let digits := Number.decimalDigits part
  let padded := List.replicate (places - digits.length) '0' ++ digits
  (padded.reverse.dropWhile (· == '0')).reverse

/-- `amount / 10 ^ places` with a unit. -/
def inUnit (amount places : Nat) (unit : String) : String :=
  let whole := amount / Nat.pow 10 places
  let part := amount % Nat.pow 10 places
  if part = 0 then s!"{whole}{unit}"
  else s!"{whole}.{String.ofList (fractionDigits part places)}{unit}"

/-- The text in seconds, milliseconds, microseconds or nanoseconds. -/
def text (d : Duration) : String :=
  if 1000000000 ≤ d.nanoseconds then inUnit d.nanoseconds 9 "s"
  else if 1000000 ≤ d.nanoseconds then inUnit d.nanoseconds 6 "ms"
  else if 1000 ≤ d.nanoseconds then inUnit d.nanoseconds 3 "µs"
  else inUnit d.nanoseconds 0 "ns"

end Duration

end SqlGateway
