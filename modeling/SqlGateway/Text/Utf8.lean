/-!
# Bytes as text

Base 64, and decoding UTF-8. A list of bytes is cut into units: a well-formed character, or a
maximal piece that is the start of one and goes on wrongly. A text is well formed when every unit is
a character; otherwise each bad piece can stand for one replacement character.

Base 64 has the standard alphabet, and writes three bytes as four characters, padded.
-/
namespace SqlGateway.Text

def base64Digit (n : Nat) : Char :=
  if n < 26 then Char.ofNat ('A'.toNat + n)
  else if n < 52 then Char.ofNat ('a'.toNat + (n - 26))
  else if n < 62 then Char.ofNat ('0'.toNat + (n - 52))
  else if n = 62 then '+' else '/'

def base64Chars : List UInt8 → List Char
  | [] => []
  | [a] =>
    let n := a.toNat * 16
    [base64Digit (n / 64), base64Digit (n % 64), '=', '=']
  | [a, b] =>
    let n := (a.toNat * 256 + b.toNat) * 4
    [base64Digit (n / 4096), base64Digit (n / 64 % 64), base64Digit (n % 64), '=']
  | a :: b :: c :: rest =>
    let n := (a.toNat * 256 + b.toNat) * 256 + c.toNat
    base64Digit (n / 262144) :: base64Digit (n / 4096 % 64) :: base64Digit (n / 64 % 64)
      :: base64Digit (n % 64) :: base64Chars rest

def base64 (bytes : List UInt8) : String := String.ofList (base64Chars bytes)

/-- Reads `count` further bytes of a character whose bits so far are `bits`. The first of them must
lie between `least` and `greatest`, the others may be any continuation byte. -/
def furtherBytes : (count : Nat) → (least greatest : UInt8) → (bits : Nat) → List UInt8 →
    Option Nat × List UInt8
  | 0, _, _, bits, bytes => (some bits, bytes)
  | _ + 1, _, _, _, [] => (none, [])
  | count + 1, least, greatest, bits, b :: rest =>
    if least ≤ b && b ≤ greatest then
      furtherBytes count 0x80 0xbf (bits * 64 + b.toNat % 64) rest
    else (none, b :: rest)

/-- The first unit of a list of bytes that begins with `b`, and the bytes after it. -/
def firstUnit (b : UInt8) (rest : List UInt8) : Option Nat × List UInt8 :=
  if b < 0x80 then (some b.toNat, rest)
  else if b < 0xc2 then (none, rest)
  else if b < 0xe0 then furtherBytes 1 0x80 0xbf (b.toNat % 32) rest
  else if b < 0xf0 then
    furtherBytes 2 (if b = 0xe0 then 0xa0 else 0x80) (if b = 0xed then 0x9f else 0xbf)
      (b.toNat % 16) rest
  else if b < 0xf5 then
    furtherBytes 3 (if b = 0xf0 then 0x90 else 0x80) (if b = 0xf4 then 0x8f else 0xbf)
      (b.toNat % 8) rest
  else (none, rest)

theorem furtherBytes_length (count : Nat) (least greatest : UInt8) (bits : Nat)
    (bytes : List UInt8) :
    (furtherBytes count least greatest bits bytes).2.length ≤ bytes.length := by
  induction bytes generalizing count least greatest bits with
  | nil => cases count <;> simp [furtherBytes]
  | cons b rest ih =>
    cases count with
    | zero => simp [furtherBytes]
    | succ count =>
      simp only [furtherBytes]
      split
      · exact Nat.le_succ_of_le (ih ..)
      · simp

theorem firstUnit_length (b : UInt8) (rest : List UInt8) :
    (firstUnit b rest).2.length ≤ rest.length := by
  unfold firstUnit
  repeat' split
  all_goals first
    | exact Nat.le_refl _
    | exact furtherBytes_length ..

def units : List UInt8 → List (Option Char)
  | [] => []
  | b :: rest =>
    let unit := firstUnit b rest
    unit.1.map Char.ofNat :: units unit.2
termination_by bytes => bytes.length
decreasing_by
  have := firstUnit_length b rest
  simp only [List.length_cons]
  omega

/-- The text of well-formed bytes. -/
def decode? (bytes : List UInt8) : Option String :=
  ((units bytes).mapM id).map String.ofList

/-- The text of any bytes, with a replacement character for each bad piece. -/
def decodeLossy (bytes : List UInt8) : String :=
  String.ofList ((units bytes).map (·.getD '\ufffd'))

def encode (s : String) : List UInt8 := s.toUTF8.toList

end SqlGateway.Text
