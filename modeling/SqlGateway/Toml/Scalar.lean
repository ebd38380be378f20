import SqlGateway.Calendar
import SqlGateway.Json.Basic
import SqlGateway.Text.Search

/-!
# TOML scalars

What a word of a TOML document means: a truth value, an integer in one of four bases, a
floating-point number, or a date or time. Underscores may stand between digits, and no number begins
with a zero that it does not need. Integers outside of 64 bits are refused.

Strings in double quotes have escapes, those in single quotes do not; both may be quoted three times
and then go over several lines. A key is a bare word or a string of one line, and a path is a list
of keys with points between them.
-/
namespace SqlGateway.Toml

open Number

/-- Digits without the underscores between them. -/
def withoutUnderscores (isDigitOf : Char → Bool) : List Char → Option (List Char)
  | [] => none
  | [c] => if isDigitOf c then some [c] else none
  | c :: '_' :: rest =>
    if isDigitOf c then (withoutUnderscores isDigitOf rest).map (c :: ·) else none
  | c :: rest =>
    if isDigitOf c then (withoutUnderscores isDigitOf rest).map (c :: ·) else none

def decimalDigits? (cs : List Char) : Option (List Char) := withoutUnderscores isDigit cs

/-- Digits without a needless zero in front. -/
def wholePart? (cs : List Char) : Option (List Char) :=
  (decimalDigits? cs).filter fun digits => digits.length = 1 || digits.head? != some '0'

def baseDigit? (base : Nat) (c : Char) : Option Nat :=
  let value :=
    if isDigit c then some (c.toNat - '0'.toNat)
    else if 'a' ≤ c.toLower && c.toLower ≤ 'f' then some (c.toLower.toNat - 'a'.toNat + 10)
    else none
  value.filter (· < base)

def inBase? (base : Nat) (cs : List Char) : Option Int :=
  (withoutUnderscores (fun c => (baseDigit? base c).isSome) cs).map fun digits =>
    Int.ofNat (digits.foldl (fun n c => n * base + (baseDigit? base c).getD 0) 0)

def integer? (cs : List Char) : Option Int :=
  let value :=
    match cs with
    | '0' :: 'x' :: rest => inBase? 16 rest
    | '0' :: 'o' :: rest => inBase? 8 rest
    | '0' :: 'b' :: rest => inBase? 2 rest
    | _ =>
      let (negative, digits) := splitSign cs
      (wholePart? digits).map fun ds =>
        if negative then -(digitsValue ds : Int) else digitsValue ds
  value.filter fun n => leastInt64 ≤ n && n < wordCount

def isExponentMark (c : Char) : Bool := c == 'e' || c == 'E'

/-- The exponent after its mark; nothing stands for no exponent. -/
def exponent? : List Char → Option Int
  | [] => some 0
  | _ :: rest =>
    let (negative, digits) := splitSign rest
    (decimalDigits? digits).map fun ds =>
      if negative then -(digitsValue ds : Int) else digitsValue ds

/-- A numeral with a fraction, an exponent, or both. One too great for the format is refused. -/
def decimal? (negative : Bool) (cs : List Char) : Option Binary64 := do
  let mantissa := cs.takeWhile (!isExponentMark ·)
  let exponent ← exponent? (cs.dropWhile (!isExponentMark ·))
  let whole ← wholePart? (mantissa.takeWhile (· != '.'))
  let fraction ←
    match mantissa.dropWhile (· != '.') with
    | [] => if mantissa.length = cs.length then none else some []
    | _ :: rest => decimalDigits? rest
  (some (Binary64.ofDecimal negative (digitsValue (whole ++ fraction))
    (exponent - fraction.length))).filter (·.isFinite)

def float? (cs : List Char) : Option Binary64 :=
  let (negative, rest) := splitSign cs
  if rest = ['i', 'n', 'f'] then some (.infinite negative)
  else if rest = ['n', 'a', 'n'] then some .nan
  else decimal? negative rest

/-- A number of exactly so many digits, and what follows it. -/
def digits? (count : Nat) (cs : List Char) : Option (Nat × List Char) :=
  let front := cs.take count
  if front.length = count && front.all isDigit then some (digitsValue front, cs.drop count)
  else none

def expect (c : Char) : List Char → Option (List Char)
  | d :: rest => if d = c then some rest else none
  | [] => none

/-- A day of the calendar, and what follows it. -/
def date? (cs : List Char) : Option (Date × List Char) := do
  let (year, cs) ← digits? 4 cs
  let cs ← expect '-' cs
  let (month, cs) ← digits? 2 cs
  let cs ← expect '-' cs
  let (day, cs) ← digits? 2 cs
  let date : Date := ⟨year, month, day⟩
  if date.isValid then some (date, cs) else none

/-- What follows the seconds and their fraction, of which both may be missing. -/
def afterSeconds? : List Char → Option (List Char)
  | ':' :: rest => do
    let (second, rest) ← digits? 2 rest
    if 60 < second then none
    else
      match rest with
      | '.' :: fraction =>
        if (fraction.takeWhile isDigit).isEmpty then none else some (fraction.dropWhile isDigit)
      | rest => some rest
  | rest => some rest

/-- What follows a time of day. -/
def afterTime? (cs : List Char) : Option (List Char) := do
  let (hour, cs) ← digits? 2 cs
  let cs ← expect ':' cs
  let (minute, cs) ← digits? 2 cs
  if hour < 24 && minute < 60 then afterSeconds? cs else none

/-- Whether a text is nothing or an offset from UTC. -/
def isOffset : List Char → Bool
  | [] => true
  | [c] => c == 'Z' || c == 'z'
  | sign :: rest =>
    (sign == '+' || sign == '-') &&
      ((do
        let (hour, rest) ← digits? 2 rest
        let rest ← expect ':' rest
        let (minute, rest) ← digits? 2 rest
        if hour < 24 && minute < 60 && rest.isEmpty then some () else none).isSome)

def isDateAndTime (cs : List Char) : Bool :=
  match date? cs with
  | some (_, []) => true
  | some (_, c :: rest) =>
    (c == 'T' || c == 't' || c == ' ') && ((afterTime? rest).any isOffset)
  | none => (afterTime? cs).any List.isEmpty

/-- A date or time as a value: an object that no record takes for one of its own. -/
def dateAndTime (cs : List Char) : Json := .object [("datetime", .text (String.ofList cs))]

def scalar? (cs : List Char) : Option Json :=
  if cs = ['t', 'r', 'u', 'e'] then some (.bool true)
  else if cs = ['f', 'a', 'l', 's', 'e'] then some (.bool false)
  else
    ((integer? cs).map Json.int)
      |>.or ((float? cs).map Json.float)
      |>.or (if isDateAndTime cs then some (dateAndTime cs) else none)

/-- Whether a character may not stand in a string of one line or in a comment. -/
def isControl (c : Char) : Bool := (c.toNat < 0x20 && c != '\t') || c.toNat = 0x7f

/-- The character with a code of so many digits in base sixteen. -/
def codeEscape? (count : Nat) (cs : List Char) : Option (Char × List Char) := do
  let digits ← (cs.take count).mapM (baseDigit? 16)
  let code := digits.foldl (fun n d => n * 16 + d) 0
  if digits.length = count && code.isValidChar then some (Char.ofNat code, cs.drop count)
  else none

def escape? : List Char → Option (Char × List Char)
  | [] => none
  | c :: rest =>
    match c with
    | '"' => some ('"', rest)
    | '\\' => some ('\\', rest)
    | 'b' => some ('\x08', rest)
    | 't' => some ('\t', rest)
    | 'n' => some ('\n', rest)
    | 'f' => some ('\x0c', rest)
    | 'r' => some ('\r', rest)
    | 'e' => some ('\x1b', rest)
    | 'x' => codeEscape? 2 rest
    | 'u' => codeEscape? 4 rest
    | 'U' => codeEscape? 8 rest
    | _ => none

/-- The rest of a text after a line break, if it begins with one. -/
def afterBreak? : List Char → Option (List Char)
  | '\n' :: rest => some rest
  | '\r' :: '\n' :: rest => some rest
  | _ => none

def isSpace (c : Char) : Bool := c == ' ' || c == '\t'

def skipSpaces (cs : List Char) : List Char := cs.dropWhile isSpace

/-- What follows a backslash at the end of a line: the text after all blanks. -/
def afterFoldedLine? (cs : List Char) : Option (List Char) :=
  (afterBreak? (skipSpaces cs)).map
    (·.dropWhile fun c => isSpace c || c == '\n' || c == '\r')

/-- The characters of a string of one line, and what follows its closing quote. -/
def line (quote : Char) (escapes : Bool) : (fuel : Nat) → List Char →
    Option (List Char × List Char)
  | 0, _ | _, [] => none
  | fuel + 1, c :: rest =>
    if c = quote then some ([], rest)
    else if escapes && c == '\\' then do
      let (decoded, rest) ← escape? rest
      (line quote escapes fuel rest).map fun (s, rest) => (decoded :: s, rest)
    else if isControl c then none
    else (line quote escapes fuel rest).map fun (s, rest) => (c :: s, rest)

/-- The characters of a string of several lines, and what follows its closing quotes. Up to two more
quotes may stand in front of the closing ones. -/
def lines (quote : Char) (escapes : Bool) : (fuel : Nat) → List Char →
    Option (List Char × List Char)
  | 0, _ | _, [] => none
  | fuel + 1, c :: rest =>
    let run := (c :: rest).takeWhile (· == quote)
    if 3 ≤ run.length then
      let extra := min (run.length - 3) 2
      some (List.replicate extra quote, (c :: rest).drop (extra + 3))
    else
      match afterBreak? (c :: rest) with
      | some rest => (lines quote escapes fuel rest).map fun (s, rest) => ('\n' :: s, rest)
      | none =>
        if escapes && c == '\\' then
          match afterFoldedLine? rest with
          | some rest => lines quote escapes fuel rest
          | none => do
            let (decoded, rest) ← escape? rest
            (lines quote escapes fuel rest).map fun (s, rest) => (decoded :: s, rest)
        else if isControl c then none
        else (lines quote escapes fuel rest).map fun (s, rest) => (c :: s, rest)

/-- A string in a kind of quotes, after the first of them. -/
def stringAfter? (quote : Char) (rest : List Char) : Option (String × List Char) :=
  let escapes := quote == '"'
  let read :=
    if rest.take 2 = [quote, quote] then
      let body := rest.drop 2
      let body := (afterBreak? body).getD body
      lines quote escapes (body.length + 1) body
    else line quote escapes (rest.length + 1) rest
  read.map fun (s, rest) => (String.ofList s, rest)

def isBareKey (c : Char) : Bool := c.isAlphanum || c == '_' || c == '-'

def key? : List Char → Option (String × List Char)
  | [] => none
  | c :: rest =>
    if c = '"' || c = '\'' then
      (line c (c == '"') (rest.length + 1) rest).map fun (s, rest) => (String.ofList s, rest)
    else
      let word := (c :: rest).takeWhile isBareKey
      if word.isEmpty then none
      else some (String.ofList word, (c :: rest).dropWhile isBareKey)

/-- A path of keys and what follows it, without the blanks around the points and behind the path. -/
def path? : (fuel : Nat) → List Char → Option (List String × List Char)
  | 0, _ => none
  | fuel + 1, cs => do
    let (key, rest) ← key? cs
    match skipSpaces rest with
    | '.' :: rest =>
      let (keys, rest) ← path? fuel (skipSpaces rest)
      some (key :: keys, rest)
    | rest => some ([key], rest)

end SqlGateway.Toml
