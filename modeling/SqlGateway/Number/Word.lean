/-!
# Words of 64 bits

The integers that fit a word of 64 bits, with or without a sign, and the word that is left of an
integer that does not fit.
-/
namespace SqlGateway.Number

/-- How many words there are. -/
def wordCount : Nat := 18446744073709551616

def leastInt64 : Int := -9223372036854775808

def greatestInt64 : Int := 9223372036854775807

/-- Whether an integer fits a word with a sign. -/
def fitsInt64 (n : Int) : Bool := leastInt64 ≤ n && n ≤ greatestInt64

/-- The integer with a sign in the word of an integer. -/
def asInt64 (n : Int) : Int := Int.bmod n wordCount

end SqlGateway.Number
