import SqlGateway.Json.Basic
import SqlGateway.Number.Numeral

/-!
# Tokens of JSON documents

A document is cut into brackets, separators and scalars. Strings are decoded here: a character below
the space is refused, and so is an escape that names half of a surrogate pair.

A numeral without point and exponent is an integer while it fits 64 bits. Any other is read in two
steps: the leading digits that fit 64 bits give a first number, which is then multiplied or divided
by a power of ten, each step rounded. For long numerals the result can differ in the last place from
the number nearest to the numeral; this is the definition and not an approximation of another one. A
numeral beyond the greatest finite number is refused.
-/

namespace SqlGateway.Json

open Number

/-- Appends digits to a number while it fits a word; also gives the digits left over. -/
def absorb (significand : Nat) : List Char → Nat × List Char
  | [] => (significand, [])
  | c :: rest =>
    let next := 10 * significand + digitValue c
    if next < wordCount then absorb next rest else (significand, c :: rest)

/-- `x · 10 ^ exponent`, by steps within the powers of ten that are themselves numbers. -/
def scaleByTen (x : Binary64) (exponent : Int) : Option Binary64 :=
  let power (k : Nat) : Binary64 := .ofDecimal false 1 k
  if exponent.natAbs ≤ 308 then
    if 0 ≤ exponent then
      let product := x.mul (power exponent.natAbs)
      if product.isInfinite then none else some product
    else some (x.div (power exponent.natAbs))
  else if x.isZero then some x
  else if 0 ≤ exponent then none
  else scaleByTen (x.div (power 308)) (exponent + 308)
termination_by exponent.natAbs

/-- The number with the given digits before and after the point and the given exponent. -/
def floatOfParts (negative : Bool) (whole fraction : List Char) (exponent : Int) :
    Option Binary64 :=
  let (leading, dropped) := absorb 0 whole
  let (significand, ignored) := absorb leading fraction
  let taken := fraction.length - ignored.length
  (scaleByTen (.ofNat significand) (exponent + dropped.length - taken)).map fun x =>
    if negative then x.neg else x

/-- The number of a numeral without point and exponent. -/
def wholeNumber (negative : Bool) (digits : List Char) : Option Json :=
  let n := digitsValue digits
  if !negative && n < wordCount then some (.int n)
  else if negative && n != 0 && fitsInt64 (-(n : Int)) then some (.int (-(n : Int)))
  else (floatOfParts negative digits [] 0).map .float

/-- The digits before the point: a zero alone, or digits that do not begin with one. -/
def wellFormedWhole : List Char → Bool
  | [] => false
  | '0' :: rest => rest.isEmpty
  | _ :: _ => true

/-- Digits after a point, if there is one. -/
def fractionPart : List Char → Option (List Char × List Char)
  | '.' :: rest =>
    let digits := rest.takeWhile isDigit
    if digits.isEmpty then none else some (digits, rest.dropWhile isDigit)
  | cs => some ([], cs)

/-- The value of a numeral. -/
def numeral? (cs : List Char) : Option Json := do
  let (negative, unsigned) := match cs with
    | '-' :: rest => (true, rest)
    | _ => (false, cs)
  let whole := unsigned.takeWhile isDigit
  guard (wellFormedWhole whole)
  let (fraction, rest) ← fractionPart (unsigned.dropWhile isDigit)
  let exponent ← exponentPart rest
  if fraction.isEmpty && rest.isEmpty then wholeNumber negative whole
  else (floatOfParts negative whole fraction exponent).map .float

inductive Token where
  | listOpen
  | listClose
  | objectOpen
  | objectClose
  | comma
  | colon
  | scalar (value : Json)
  deriving Repr

/-- The four characters of white space of the format. -/
def isSpace (c : Char) : Bool := c == ' ' || c == '\n' || c == '\r' || c == '\t'

def hexValue? (c : Char) : Option Nat :=
  if '0' ≤ c && c ≤ '9' then some (c.toNat - '0'.toNat)
  else if 'a' ≤ c && c ≤ 'f' then some (c.toNat - 'a'.toNat + 10)
  else if 'A' ≤ c && c ≤ 'F' then some (c.toNat - 'A'.toNat + 10)
  else none

def hexUnit? : List Char → Option (Nat × List Char)
  | a :: b :: c :: d :: rest =>
    match hexValue? a, hexValue? b, hexValue? c, hexValue? d with
    | some a, some b, some c, some d => some (((a * 16 + b) * 16 + c) * 16 + d, rest)
    | _, _, _, _ => none
  | _ => none

/-- The character of an escape whose letter was `u`. -/
def unicodeEscape? (cs : List Char) : Option (Char × List Char) :=
  match hexUnit? cs with
  | none => none
  | some (unit, rest) =>
    if unit < 0xd800 || 0xe000 ≤ unit then some (Char.ofNat unit, rest)
    else if 0xdc00 ≤ unit then none
    else
      match rest with
      | '\\' :: 'u' :: more =>
        match hexUnit? more with
        | some (low, rest) =>
          if 0xdc00 ≤ low && low < 0xe000 then
            some (Char.ofNat (0x10000 + (unit - 0xd800) * 0x400 + (low - 0xdc00)), rest)
          else none
        | none => none
      | _ => none

/-- The character of an escape, after its backslash. -/
def escape? : List Char → Option (Char × List Char)
  | [] => none
  | c :: rest =>
    match c with
    | '"' => some ('"', rest)
    | '\\' => some ('\\', rest)
    | '/' => some ('/', rest)
    | 'b' => some ('\x08', rest)
    | 'f' => some ('\x0c', rest)
    | 'n' => some ('\n', rest)
    | 'r' => some ('\r', rest)
    | 't' => some ('\t', rest)
    | 'u' => unicodeEscape? rest
    | _ => none

theorem hexUnit?_length {cs rest : List Char} {n : Nat} (h : hexUnit? cs = some (n, rest)) :
    rest.length < cs.length := by
  unfold hexUnit? at h
  split at h
  · split at h <;> simp_all
    obtain ⟨_, rfl⟩ := h
    omega
  · simp at h

theorem unicodeEscape?_length {cs rest : List Char} {c : Char}
    (h : unicodeEscape? cs = some (c, rest)) : rest.length < cs.length := by
  unfold unicodeEscape? at h
  split at h
  · simp at h
  · rename_i unit after first
    have shorter := hexUnit?_length first
    split at h
    · simp_all
    · split at h
      · simp at h
      · split at h
        · split at h
          · rename_i second
            have shortest := hexUnit?_length second
            split at h
            · simp only [Option.some.injEq, Prod.mk.injEq] at h
              obtain ⟨_, rfl⟩ := h
              simp only [List.length_cons] at shorter
              omega
            · simp at h
          · simp at h
        · simp at h

theorem escape?_length {cs rest : List Char} {c : Char} (h : escape? cs = some (c, rest)) :
    rest.length < cs.length := by
  unfold escape? at h
  split at h
  · simp at h
  · split at h
    all_goals first
      | exact Nat.lt_succ_of_lt (unicodeEscape?_length h)
      | (simp only [Option.some.injEq, Prod.mk.injEq] at h
         obtain ⟨_, rfl⟩ := h
         simp)
      | simp at h

/-- The characters of a string and what follows its closing quote. -/
def stringBody : List Char → Option (List Char × List Char)
  | [] => none
  | '"' :: rest => some ([], rest)
  | c :: rest =>
    if c = '\\' then
      match h : escape? rest with
      | none => none
      | some (decoded, after) =>
        have := escape?_length h
        (stringBody after).map fun (s, rest) => (decoded :: s, rest)
    else if c.toNat < 0x20 then none
    else (stringBody rest).map fun (s, rest) => (c :: s, rest)
termination_by cs => cs.length

theorem stringBody_length {cs s rest : List Char} (h : stringBody cs = some (s, rest)) :
    rest.length < cs.length := by
  fun_induction stringBody cs generalizing s rest with
  | case1 => simp at h
  | case2 => simp_all
  | case3 => simp at h
  | case4 _ _ _ _ _ _ ih =>
    simp only [Option.map_eq_some_iff, Prod.mk.injEq, Prod.exists] at h
    obtain ⟨_, _, h, _, rfl⟩ := h
    have := ih h
    simp only [List.length_cons]
    omega
  | case5 => simp at h
  | case6 _ _ _ _ _ ih =>
    simp only [Option.map_eq_some_iff, Prod.mk.injEq, Prod.exists] at h
    obtain ⟨_, _, h, _, rfl⟩ := h
    have := ih h
    simp only [List.length_cons]
    omega

def isNumeralChar (c : Char) : Bool :=
  isDigit c || c == '-' || c == '+' || c == '.' || c == 'e' || c == 'E'

/-- The scalar written by a word or a numeral. -/
def bareScalar? (cs : List Char) : Option Json :=
  if cs = ['n', 'u', 'l', 'l'] then some .null
  else if cs = ['t', 'r', 'u', 'e'] then some (.bool true)
  else if cs = ['f', 'a', 'l', 's', 'e'] then some (.bool false)
  else numeral? cs

def isBare (c : Char) : Bool := c.isAlpha || isNumeralChar c

theorem dropWhile_length (p : Char → Bool) (cs : List Char) :
    (cs.dropWhile p).length ≤ cs.length :=
  (List.dropWhile_sublist p).length_le

/-- The first token of a text that does not begin with a space, and the rest of it. -/
def firstToken? (c : Char) (rest : List Char) : Option (Token × List Char) :=
  match c with
  | '[' => some (.listOpen, rest)
  | ']' => some (.listClose, rest)
  | '\x7b' => some (.objectOpen, rest)
  | '\x7d' => some (.objectClose, rest)
  | ',' => some (.comma, rest)
  | ':' => some (.colon, rest)
  | '"' => (stringBody rest).map fun (s, after) => (.scalar (.text (String.ofList s)), after)
  | _ =>
    (bareScalar? (c :: rest.takeWhile isBare)).map fun v => (.scalar v, rest.dropWhile isBare)

theorem firstToken?_length {c : Char} {rest after : List Char} {t : Token}
    (h : firstToken? c rest = some (t, after)) : after.length ≤ rest.length := by
  unfold firstToken? at h
  split at h
  case h_7 =>
    simp only [Option.map_eq_some_iff, Prod.mk.injEq, Prod.exists] at h
    obtain ⟨_, _, h, _, rfl⟩ := h
    exact Nat.le_of_lt (stringBody_length h)
  case h_8 =>
    simp only [Option.map_eq_some_iff, Prod.mk.injEq] at h
    obtain ⟨_, _, _, rfl⟩ := h
    exact dropWhile_length ..
  all_goals
    simp only [Option.some.injEq, Prod.mk.injEq] at h
    obtain ⟨_, rfl⟩ := h
    exact Nat.le_refl _

/-- The tokens of a text; a malformed one gives none. -/
def tokens? : List Char → Option (List Token)
  | [] => some []
  | c :: rest =>
    if isSpace c then tokens? rest
    else
      match h : firstToken? c rest with
      | none => none
      | some (token, after) =>
        have := firstToken?_length h
        (tokens? after).map (token :: ·)
termination_by cs => cs.length

end SqlGateway.Json
