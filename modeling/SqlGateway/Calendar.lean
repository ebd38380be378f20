import SqlGateway.Number.Layout
import SqlGateway.Number.Numeral
import SqlGateway.Text.Character

/-!
# Dates and times

Days of the Gregorian calendar, times of day to the nanosecond, and their texts. A leap second is
written as second 60; it is held as second 59 with a thousand million nanoseconds or more.

Dates and times are read from texts with a fixed order of parts. Where a number stands, blanks may
stand in front of it and zeros may be missing; only the form with an offset from UTC is strict in
its widths.
-/
namespace SqlGateway

open Number

structure Date where
  year : Int
  month : Nat
  day : Nat
  deriving DecidableEq, Repr, Inhabited

structure Time where
  hour : Nat
  minute : Nat
  second : Nat
  /-- From a thousand million on it counts into a leap second. -/
  nanosecond : Nat
  deriving DecidableEq, Repr, Inhabited

structure DateTime where
  date : Date
  time : Time
  deriving DecidableEq, Repr, Inhabited

/-- A number with zeros in front up to a width. -/
def zeroPadded (width n : Nat) : String :=
  let digits := decimalDigits n
  String.ofList (List.replicate (width - digits.length) '0' ++ digits)

namespace Date

def isLeapYear (year : Int) : Bool := (year % 4 == 0 && year % 100 != 0) || year % 400 == 0

def daysInMonth (year : Int) (month : Nat) : Nat :=
  match month with
  | 2 => if isLeapYear year then 29 else 28
  | 4 | 6 | 9 | 11 => 30
  | _ => 31

def isValid (d : Date) : Bool :=
  1 ≤ d.month && d.month ≤ 12 && 1 ≤ d.day && d.day ≤ daysInMonth d.year d.month

/-- The year in four digits; one outside of them has a sign. -/
def yearText (year : Int) : String :=
  if 0 ≤ year ∧ year ≤ 9999 then zeroPadded 4 year.toNat
  else (if year < 0 then "-" else "+") ++ zeroPadded 4 year.natAbs

def text (d : Date) : String :=
  yearText d.year ++ "-" ++ zeroPadded 2 d.month ++ "-" ++ zeroPadded 2 d.day

/-- The days from the first of January of the year 1 to the first of January of a year. -/
def daysBeforeYear (year : Int) : Int :=
  let past := year - 1
  past * 365 + past / 4 - past / 100 + past / 400

/-- The days of a year before a month. -/
def daysBeforeMonth (year : Int) : (month : Nat) → Nat
  | 0 | 1 => 0
  | month + 1 => daysBeforeMonth year month + daysInMonth year month

/-- The days since the first of January of the year 1. -/
def dayNumber (d : Date) : Int :=
  daysBeforeYear d.year + daysBeforeMonth d.year d.month + d.day - 1

/-- The month and the day of the month of a day of the year, counted from zero. -/
def monthAndDay (year : Int) (dayOfYear : Nat) : (months : Nat) → Nat × Nat
  | 0 => (1, dayOfYear + 1)
  | earlier + 1 =>
    let month := 12 - earlier
    let before := daysBeforeMonth year month
    if earlier = 0 ∨ dayOfYear < before + daysInMonth year month then
      (month, dayOfYear - before + 1)
    else monthAndDay year dayOfYear earlier

/-- The day with a number of days between it and the first of January of the year 1. -/
def ofDayNumber (n : Int) : Date :=
  let cycle := (n % 146097).toNat
  let centuries := min (cycle / 36524) 3
  let century := cycle - centuries * 36524
  let fours := century / 1461
  let four := century % 1461
  let years := min (four / 365) 3
  let year := 400 * (n / 146097) + (100 * centuries + 4 * fours + years + 1 : Nat)
  let (month, day) := monthAndDay year (four - years * 365) 12
  ⟨year, month, day⟩

end Date

namespace Time

def leap : Nat := 1000000000

/-- The second as it is written. -/
def writtenSecond (t : Time) : Nat := if leap ≤ t.nanosecond then t.second + 1 else t.second

/-- The time without a fraction. -/
def clockText (t : Time) : String :=
  zeroPadded 2 t.hour ++ ":" ++ zeroPadded 2 t.minute ++ ":" ++ zeroPadded 2 t.writtenSecond

/-- A fraction of no, three, six or nine digits, as few as hold it. -/
def fractionText (t : Time) : String :=
  let n := t.nanosecond % leap
  if n = 0 then ""
  else if n % 1000000 = 0 then "." ++ zeroPadded 3 (n / 1000000)
  else if n % 1000 = 0 then "." ++ zeroPadded 6 (n / 1000)
  else "." ++ zeroPadded 9 n

def text (t : Time) : String := t.clockText ++ t.fractionText

def isValid (t : Time) : Bool := t.hour < 24 && t.minute < 60 && t.second < 60

/-- The nanoseconds since midnight; a leap second counts beyond its minute. -/
def nanoseconds (t : Time) : Nat :=
  ((t.hour * 60 + t.minute) * 60 + t.second) * leap + t.nanosecond

/-- The time so many microseconds after midnight, of whatever day. -/
def ofMicroseconds (n : Int) : Time :=
  let micro := (n % 86400000000).toNat
  let second := micro / 1000000
  ⟨second / 3600, second / 60 % 60, second % 60, micro % 1000000 * 1000⟩

end Time

namespace DateTime

/-- The whole microseconds since the first of January 2000, towards zero. -/
def microseconds (d : DateTime) : Int :=
  let days := d.date.dayNumber - (Date.dayNumber ⟨2000, 1, 1⟩)
  (days * 86400000000000 + d.time.nanoseconds).tdiv 1000

/-- The moment so many microseconds after the first of January 2000. -/
def ofMicroseconds (n : Int) : DateTime :=
  ⟨Date.ofDayNumber (n / 86400000000 + Date.dayNumber ⟨2000, 1, 1⟩), Time.ofMicroseconds n⟩

/-- Date and time to the second. -/
def clockText (d : DateTime) : String := d.date.text ++ " " ++ d.time.clockText

/-- Date and time with the fraction, and a text between them. -/
def textWith (between : String) (d : DateTime) : String := d.date.text ++ between ++ d.time.text

/-- A time in UTC with its offset. -/
def utcText (d : DateTime) : String := d.textWith "T" ++ "+00:00"

end DateTime

end SqlGateway

namespace SqlGateway

open Number

namespace Calendar

/-- A number of `least` to `greatest` digits, and what follows it. -/
def number? (least greatest : Nat) (cs : List Char) : Option (Nat × List Char) :=
  let digits := (cs.takeWhile isDigit).take greatest
  if digits.length < least then none else some (digitsValue digits, cs.drop digits.length)

def skipBlanks (cs : List Char) : List Char := cs.dropWhile Text.isBlank

/-- A number of one or two digits after blanks. -/
def part? (cs : List Char) : Option (Nat × List Char) := number? 1 2 (skipBlanks cs)

def literal? (c : Char) : List Char → Option (List Char)
  | d :: rest => if d = c then some rest else none
  | [] => none

/-- A year: up to four digits, or a sign and any number of digits. -/
def year? (cs : List Char) : Option (Int × List Char) :=
  match skipBlanks cs with
  | '-' :: rest => (number? 1 rest.length rest).map fun (n, rest) => (-(n : Int), rest)
  | '+' :: rest => (number? 1 rest.length rest).map fun (n, rest) => ((n : Int), rest)
  | rest => (number? 1 4 rest).map fun (n, rest) => ((n : Int), rest)

/-- The years that are counted. -/
def isCountedYear (year : Int) : Bool := -262143 ≤ year && year ≤ 262142

def date? (cs : List Char) : Option (Date × List Char) := do
  let (year, cs) ← year? cs
  let (month, cs) ← part? (← literal? '-' cs)
  let (day, cs) ← part? (← literal? '-' cs)
  let date : Date := ⟨year, month, day⟩
  if date.isValid && isCountedYear year then some (date, cs) else none

/-- A time of day from its parts; second 60 is a leap second. -/
def timeOf? (hour minute second nanosecond : Nat) : Option Time :=
  if 24 ≤ hour ∨ 60 ≤ minute ∨ 60 < second then none
  else if second = 60 then some ⟨hour, minute, 59, Time.leap + nanosecond⟩
  else some ⟨hour, minute, second, nanosecond⟩

def time? (cs : List Char) : Option (Time × List Char) := do
  let (hour, cs) ← part? cs
  let (minute, cs) ← part? (← literal? ':' cs)
  let (second, cs) ← part? (← literal? ':' cs)
  return (← timeOf? hour minute second 0, cs)

/-- A value that the whole text writes. -/
def whole? (read : List Char → Option (α × List Char)) (s : String) : Option α :=
  match read s.toList with
  | some (v, []) => some v
  | _ => none

/-- A fraction of a second in nanoseconds; digits beyond the ninth are dropped. -/
def fraction? (cs : List Char) : Option (Nat × List Char) :=
  let digits := cs.takeWhile isDigit
  let kept := digits.take 9
  if digits.isEmpty then none
  else some (digitsValue kept * Nat.pow 10 (9 - kept.length), cs.drop digits.length)

/-- An offset from UTC in minutes. -/
def offset? : List Char → Option (Int × List Char)
  | [] => none
  | c :: rest =>
    if c = 'Z' ∨ c = 'z' then some (0, rest)
    else if c = '+' ∨ c = '-' ∨ c = '−' then do
      let (hours, rest) ← number? 2 2 rest
      let (minutes, rest) ← number? 2 2 (← literal? ':' rest)
      if 24 ≤ hours ∨ 60 ≤ minutes then none
      else
        let total : Int := hours * 60 + minutes
        some (if c = '+' then total else -total, rest)
    else none

/-- A moment in its strict form, in UTC. -/
def moment? (cs : List Char) : Option (DateTime × List Char) := do
  let (year, cs) ← number? 4 4 cs
  let (month, cs) ← number? 2 2 (← literal? '-' cs)
  let (day, cs) ← number? 2 2 (← literal? '-' cs)
  let cs ←
    match cs with
    | c :: rest => if c = 'T' ∨ c = 't' ∨ c = ' ' then some rest else none
    | [] => none
  let (hour, cs) ← number? 2 2 cs
  let (minute, cs) ← number? 2 2 (← literal? ':' cs)
  let (second, cs) ← number? 2 2 (← literal? ':' cs)
  let (nanosecond, cs) ←
    match cs with
    | '.' :: rest => fraction? rest
    | rest => some (0, rest)
  let (offset, cs) ← offset? cs
  let date : Date := ⟨year, month, day⟩
  let time ← timeOf? hour minute second nanosecond
  let minutes : Int := (hour * 60 + minute : Nat) - offset
  let day := Date.ofDayNumber (date.dayNumber + minutes / 1440)
  let minuteOfDay := (minutes % 1440).toNat
  if date.isValid then
    some (⟨day, { time with hour := minuteOfDay / 60, minute := minuteOfDay % 60 }⟩, cs)
  else none

end Calendar

def Date.ofText? (s : String) : Option Date := Calendar.whole? Calendar.date? s

def Time.ofText? (s : String) : Option Time := Calendar.whole? Calendar.time? s

/-- A date and a time with one space between them. -/
def DateTime.ofText? (s : String) : Option DateTime :=
  Calendar.whole?
    (fun cs => do
      let (date, cs) ← Calendar.date? cs
      let (time, cs) ← Calendar.time? (← Calendar.literal? ' ' cs)
      return (⟨date, time⟩, cs))
    s

/-- A moment with its offset from UTC. -/
def DateTime.ofMoment? (s : String) : Option DateTime := Calendar.whole? Calendar.moment? s

end SqlGateway
