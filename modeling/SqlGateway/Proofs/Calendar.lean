import Mathlib.Algebra.Group.Nat.Defs
import SqlGateway.Calendar
import SqlGateway.Proofs.Number.Readable

/-!
# Dates and times that are written and read

The numbers of days and of microseconds determine days and times, and the texts of these are read
back as what they were written from, up to the fractions of seconds that a text leaves out.
-/
namespace SqlGateway

open Number

namespace Date

theorem daysBeforeMonth_succ {year : Int} {month : Nat} (h : 0 < month) :
    daysBeforeMonth year (month + 1) = daysBeforeMonth year month + daysInMonth year month := by
  obtain ⟨month, rfl⟩ := Nat.exists_eq_add_one_of_ne_zero (Nat.pos_iff_ne_zero.mp h)
  rfl

def daysInYear (year : Int) : Nat := if isLeapYear year then 366 else 365

theorem daysBeforeMonth_thirteen (year : Int) : daysBeforeMonth year 13 = daysInYear year := by
  simp only [daysBeforeMonth, daysInMonth, daysInYear]
  split_ifs <;> rfl

/-- A month and a day of the month that are a day of the year, which is counted from zero. -/
structure IsDayOfYear (year : Int) (day : Nat) (place : Nat × Nat) : Prop where
  month : 1 ≤ place.1 ∧ place.1 ≤ 12
  inMonth : 1 ≤ place.2 ∧ place.2 ≤ daysInMonth year place.1
  total : daysBeforeMonth year place.1 + place.2 = day + 1

/-- The induction goes over the months that are left. -/
theorem isDayOfYear_monthAndDay {year : Int} {day months : Nat} (hmonths : 1 ≤ months ∧ months ≤ 12)
    (hleast : daysBeforeMonth year (13 - months) ≤ day) (hless : day < daysInYear year) :
    IsDayOfYear year day (monthAndDay year day months) := by
  induction months with
  | zero => omega
  | succ earlier ih =>
      have hmonth : 13 - (earlier + 1) = 12 - earlier := by omega
      have hnext : daysBeforeMonth year (12 - earlier + 1) = _ := daysBeforeMonth_succ (by omega)
      rw [hmonth] at hleast
      rw [monthAndDay]
      split_ifs with hhere
      · have hin : day < daysBeforeMonth year (12 - earlier) + daysInMonth year (12 - earlier) := by
          rcases hhere with rfl | hin
          · rwa [← hnext, daysBeforeMonth_thirteen]
          · exact hin
        constructor <;> dsimp only <;> omega
      · have hlater : 12 - earlier + 1 = 13 - earlier := by omega
        rw [hlater] at hnext
        exact ih (by omega) (by omega)

section Year
variable {cycles : Int} {centuries fours years : Nat}

/-- The days before a year, by the centuries of its cycle, the leap years of its century and the
years since. -/
theorem daysBeforeYear_eq (hcenturies : centuries ≤ 3) (hfours : fours ≤ 24) (hyears : years ≤ 3) :
    daysBeforeYear (400 * cycles + (100 * centuries + 4 * fours + years + 1 : Nat)) =
      146097 * cycles + (36524 * centuries + 1461 * fours + 365 * years : Nat) := by
  generalize hyear : 400 * cycles + ((100 * centuries + 4 * fours + years + 1 : Nat) : Int) = year
  have hbefore : daysBeforeYear year = (year - 1) * 365 + (year - 1) / 4 - (year - 1) / 100 +
    (year - 1) / 400 := rfl
  have hquarter : (year - 1) / 4 = 100 * cycles + 25 * centuries + fours := by omega
  have hcentury : (year - 1) / 100 = 4 * cycles + centuries := by omega
  have hcycle : (year - 1) / 400 = cycles := by omega
  omega

theorem isLeapYear_eq (hcenturies : centuries ≤ 3) (hfours : fours ≤ 24) (hyears : years ≤ 3) :
    isLeapYear (400 * cycles + (100 * centuries + 4 * fours + years + 1 : Nat)) = true ↔
      years = 3 ∧ (fours < 24 ∨ centuries = 3) := by
  simp only [isLeapYear, Bool.or_eq_true, Bool.and_eq_true, beq_iff_eq, bne_iff_ne, ne_eq]
  omega

end Year

/-- The number of a day is that of its year and a day of the year. -/
theorem ofDayNumber_eq (n : Int) : ∃ year day place, daysBeforeYear year + (day : Nat) = n ∧
    IsDayOfYear year day place ∧ ofDayNumber n = ⟨year, place.1, place.2⟩ := by
  unfold ofDayNumber
  extract_lets cycle centuries century fours four years year
  have hcycle : cycle = (n % 146097).toNat := rfl
  have hcenturies : centuries = min (cycle / 36524) 3 := rfl
  have hcentury : century = cycle - centuries * 36524 := rfl
  have hfours : fours = century / 1461 := rfl
  have hfour : four = century % 1461 := rfl
  have hyears : years = min (four / 365) 3 := rfl
  have hbefore : daysBeforeYear year = _ := daysBeforeYear_eq (by omega) (by omega) (by omega)
  have hleap : isLeapYear year = true ↔ _ := isLeapYear_eq (by omega) (by omega) (by omega)
  clear_value cycle centuries century fours four years year
  have hless : four - years * 365 < daysInYear year := by
    unfold daysInYear
    split_ifs with h
    · omega
    · rw [hleap] at h
      omega
  have hplace : IsDayOfYear year _ (monthAndDay year (four - years * 365) 12) :=
    isDayOfYear_monthAndDay (by decide) (Nat.zero_le _) hless
  generalize monthAndDay year (four - years * 365) 12 = place at hplace
  exact ⟨year, four - years * 365, place, by omega, hplace, rfl⟩

/-- The number of a day gives the day. -/
theorem dayNumber_ofDayNumber (n : Int) : (ofDayNumber n).dayNumber = n := by
  obtain ⟨year, day, place, hnumber, hday, heq⟩ := ofDayNumber_eq n
  have htotal := hday.total
  rw [heq, dayNumber]
  dsimp only
  omega

theorem isValid_iff {d : Date} : d.isValid = true ↔
    (1 ≤ d.month ∧ d.month ≤ 12) ∧ 1 ≤ d.day ∧ d.day ≤ daysInMonth d.year d.month := by
  simp only [isValid, Bool.and_eq_true, decide_eq_true_eq, and_assoc]

theorem isValid_ofDayNumber (n : Int) : (ofDayNumber n).isValid = true := by
  obtain ⟨year, day, place, -, hday, heq⟩ := ofDayNumber_eq n
  rw [heq, isValid_iff]
  exact ⟨hday.month, hday.inMonth⟩

end Date

namespace Time

/-- The time up to a whole second. -/
def toSecond (t : Time) : Time := { t with nanosecond := 0 }

theorem isValid_iff {t : Time} :
    t.isValid = true ↔ t.hour < 24 ∧ t.minute < 60 ∧ t.second < 60 := by
  simp only [isValid, Bool.and_eq_true, decide_eq_true_eq, and_assoc]

theorem isValid_ofMicroseconds (n : Int) : (ofMicroseconds n).isValid = true := by
  rw [isValid_iff]
  simp only [ofMicroseconds]
  omega

theorem nanosecond_ofMicroseconds (n : Int) :
    ((ofMicroseconds n).nanosecond : Int) = n % 1000000 * 1000 := by
  simp only [ofMicroseconds]
  omega

theorem nanosecond_ofMicroseconds_lt (n : Int) : (ofMicroseconds n).nanosecond < leap := by
  have hvalue := nanosecond_ofMicroseconds n
  unfold leap
  omega

theorem nanoseconds_ofMicroseconds (n : Int) :
    ((ofMicroseconds n).nanoseconds : Int) = n % 86400000000 * 1000 := by
  simp only [ofMicroseconds, nanoseconds, leap]
  omega

theorem nanoseconds_toSecond (t : Time) :
    (t.toSecond.nanoseconds : Int) = t.nanoseconds - t.nanosecond := by
  simp only [toSecond, nanoseconds]
  omega

end Time

namespace DateTime

/-- The date and the time up to a whole second. -/
def toSecond (d : DateTime) : DateTime := { d with time := d.time.toSecond }

theorem microseconds_eq {d : DateTime} {n : Int}
    (h : (d.date.dayNumber - Date.dayNumber ⟨2000, 1, 1⟩) * 86400000000000
    + d.time.nanoseconds = n * 1000) : d.microseconds = n := by
  rw [microseconds, h]
  exact Int.mul_tdiv_cancel n (by decide)

/-- The number of microseconds gives date and time. -/
theorem microseconds_ofMicroseconds (n : Int) : (ofMicroseconds n).microseconds = n := by
  refine microseconds_eq ?_
  rw [ofMicroseconds]
  dsimp only
  rw [Date.dayNumber_ofDayNumber, Time.nanoseconds_ofMicroseconds]
  omega

theorem microseconds_toSecond_ofMicroseconds (n : Int) :
    (ofMicroseconds n).toSecond.microseconds = n - n % 1000000 := by
  refine microseconds_eq ?_
  rw [ofMicroseconds, toSecond, Date.dayNumber_ofDayNumber, Time.nanoseconds_toSecond,
    Time.nanoseconds_ofMicroseconds, Time.nanosecond_ofMicroseconds]
  omega

end DateTime

section Digits
variable {width n : Nat} {rest : List Char}

theorem toList_zeroPadded (width n : Nat) : (zeroPadded width n).toList =
    List.replicate (width - (decimalDigits n).length) '0' ++ decimalDigits n :=
  String.toList_ofList

theorem isDigit_of_mem_zeroPadded {c : Char} (h : c ∈ (zeroPadded width n).toList) :
    isDigit c = true := by
  rw [toList_zeroPadded] at h
  rcases List.mem_append.mp h with hzero | hdigit
  · rw [List.eq_of_mem_replicate hzero]
    rfl
  · exact isDigit_of_mem_decimalDigits hdigit

theorem digitsValue_zeroPadded (width n : Nat) : digitsValue (zeroPadded width n).toList = n := by
  have zeros (count : Nat) : digitsValue (List.replicate count '0') = 0 := by
    induction count with
    | zero => rfl
    | succ count ih => exact ih
  have hzeros := zeros (width - (decimalDigits n).length)
  have hdigits := digitsValue_decimalDigits n
  unfold digitsValue at hzeros hdigits
  rw [digitsValue, toList_zeroPadded, List.foldl_append, hzeros, hdigits]

theorem length_zeroPadded (width n : Nat) :
    (zeroPadded width n).toList.length = max width (decimalDigits n).length := by
  rw [toList_zeroPadded, List.length_append, List.length_replicate]
  omega

theorem length_zeroPadded_of_lt (hwidth : 0 < width) (h : n < 10 ^ width) :
    (zeroPadded width n).toList.length = width := by
  have hlength : (decimalDigits n).length ≤ width :=
    (Nat.length_toDigits_le_iff (by decide) hwidth).mpr h
  rw [length_zeroPadded, Nat.max_eq_left hlength]

theorem zeroPadded_ne_nil (width n : Nat) : (zeroPadded width n).toList ≠ [] := by
  rw [toList_zeroPadded]
  exact List.append_ne_nil_of_right_ne_nil _ Nat.toDigits_ne_nil

theorem endsDigits_cons {c : Char} (h : isDigit c = false) : EndsDigits (c :: rest) := by
  rintro d ⟨⟩
  exact h

namespace Calendar

theorem number?_digits {least greatest : Nat} {digits : List Char}
    (hdigits : ∀ c ∈ digits, isDigit c = true) (hrest : EndsDigits rest)
    (hleast : least ≤ digits.length) (hgreatest : digits.length ≤ greatest) :
    number? least greatest (digits ++ rest) = some (digitsValue digits, rest) := by
  rw [number?, (takeWhile_digits hdigits hrest).1, List.take_of_length_le hgreatest,
    if_neg (Nat.not_lt.mpr hleast), List.drop_left]

/-- A number that fits its width is read back. -/
theorem number?_zeroPadded {least greatest : Nat} (hwidth : 0 < width) (hn : n < 10 ^ width)
    (hleast : least ≤ width) (hgreatest : width ≤ greatest) (hrest : EndsDigits rest) :
    number? least greatest ((zeroPadded width n).toList ++ rest) = some (n, rest) := by
  have hlength := length_zeroPadded_of_lt hwidth hn
  rw [number?_digits (fun _ => isDigit_of_mem_zeroPadded) hrest (by omega) (by omega),
    digitsValue_zeroPadded]

theorem skipBlanks_cons {c : Char} (h : Text.isBlank c = false) :
    skipBlanks (c :: rest) = c :: rest := by
  rw [skipBlanks, List.dropWhile_cons, h]
  rfl

theorem isBlank_of_isDigit {c : Char} (h : isDigit c = true) : Text.isBlank c = false := by
  simp only [isDigit, Char.le_def, UInt32.le_iff_toNat_le, Bool.and_eq_true, decide_eq_true_eq] at h
  change '0'.toNat ≤ c.toNat ∧ c.toNat ≤ '9'.toNat at h
  simp only [Char.reduceToNat] at h
  simp only [Text.isBlank, Bool.or_eq_false_iff, Bool.and_eq_false_iff, decide_eq_false_iff_not,
    beq_eq_false_iff_ne]
  omega

theorem skipBlanks_zeroPadded (width n : Nat) (rest : List Char) :
    skipBlanks ((zeroPadded width n).toList ++ rest) = (zeroPadded width n).toList ++ rest := by
  obtain ⟨c, digits, hdigits⟩ := List.exists_cons_of_ne_nil (zeroPadded_ne_nil width n)
  have hc : isDigit c = true := isDigit_of_mem_zeroPadded (hdigits ▸ List.mem_cons_self)
  rw [hdigits, List.cons_append, skipBlanks_cons (isBlank_of_isDigit hc)]

theorem part?_zeroPadded (hn : n < 100) (hrest : EndsDigits rest) :
    part? ((zeroPadded 2 n).toList ++ rest) = some (n, rest) := by
  rw [part?, skipBlanks_zeroPadded, number?_zeroPadded (by decide) hn (by decide) (by decide) hrest]

theorem number?_signed (n : Nat) (hrest : EndsDigits rest) :
    number? 1 ((zeroPadded 4 n).toList ++ rest).length ((zeroPadded 4 n).toList ++ rest) =
      some (n, rest) := by
  have hlength := length_zeroPadded 4 n
  rw [number?_digits (fun _ => isDigit_of_mem_zeroPadded) hrest (by omega) (by simp),
    digitsValue_zeroPadded]

theorem year?_minus (cs : List Char) :
    year? ('-' :: cs) = (number? 1 cs.length cs).map fun part => (-(part.1 : Int), part.2) := rfl

theorem year?_plus (cs : List Char) :
    year? ('+' :: cs) = (number? 1 cs.length cs).map fun part => ((part.1 : Int), part.2) := rfl

/-- A year is read back with its sign. -/
theorem year?_yearText (year : Int) (hrest : EndsDigits rest) :
    year? ((Date.yearText year).toList ++ rest) = some (year, rest) := by
  rw [Date.yearText]
  split_ifs with hshort hnegative
  · have hnumber :
        number? 1 4 ((zeroPadded 4 year.toNat).toList ++ rest) = some (year.toNat, rest) :=
      number?_zeroPadded (by decide) (by omega) (by decide) (by decide) hrest
    obtain ⟨c, digits, hdigits⟩ := List.exists_cons_of_ne_nil (zeroPadded_ne_nil 4 year.toNat)
    have hc : isDigit c = true := isDigit_of_mem_zeroPadded (hdigits ▸ List.mem_cons_self)
    rw [year?, skipBlanks_zeroPadded]
    split
    · rename_i heq
      rw [hdigits] at heq
      obtain ⟨rfl, -⟩ := List.cons.inj heq
      cases hc
    · rename_i heq
      rw [hdigits] at heq
      obtain ⟨rfl, -⟩ := List.cons.inj heq
      cases hc
    · have hyear : (year.toNat : Int) = year := Int.toNat_of_nonneg hshort.1
      simp only [hnumber, Option.map_some, hyear]
  · have hyear : -(year.natAbs : Int) = year := by omega
    have hlist : ("-" ++ zeroPadded 4 year.natAbs).toList ++ rest =
        '-' :: ((zeroPadded 4 year.natAbs).toList ++ rest) := by simp
    rw [hlist, year?_minus, number?_signed _ hrest, Option.map_some, hyear]
  · have hyear : (year.natAbs : Int) = year := by omega
    have hlist : ("+" ++ zeroPadded 4 year.natAbs).toList ++ rest =
        '+' :: ((zeroPadded 4 year.natAbs).toList ++ rest) := by simp
    rw [hlist, year?_plus, number?_signed _ hrest, Option.map_some, hyear]

end Calendar

end Digits

theorem Date.toList_text (d : Date) (rest : List Char) : d.text.toList ++ rest =
    (yearText d.year).toList ++ '-' ::
      ((zeroPadded 2 d.month).toList ++ '-' :: ((zeroPadded 2 d.day).toList ++ rest)) := by
  simp [Date.text]

theorem Time.toList_clockText (t : Time) (rest : List Char) : t.clockText.toList ++ rest =
    (zeroPadded 2 t.hour).toList ++ ':' :: ((zeroPadded 2 t.minute).toList
      ++ ':' :: ((zeroPadded 2 t.writtenSecond).toList ++ rest)) := by
  simp [Time.clockText]

theorem Date.daysInMonth_le (year : Int) (month : Nat) : daysInMonth year month ≤ 31 := by
  unfold daysInMonth
  split
  · split_ifs <;> decide
  all_goals decide

namespace Calendar

section Texts
variable {d : Date} {t : Time} {rest : List Char}

theorem literal?_cons {c : Char} : literal? c (c :: rest) = some rest := if_pos rfl

/-- A part that is read leaves the rest to the parts behind it. -/
theorem bind_of_some {α β : Type} {x : Option α} {a : α} {f : α → Option β} (h : x = some a) :
    (x >>= f) = f a := by
  rw [h]
  rfl

/-- A date of a year that is counted is read back. -/
theorem date?_text (hvalid : d.isValid = true) (hyear : isCountedYear d.year = true)
    (hrest : EndsDigits rest) : date? (d.text.toList ++ rest) = some (d, rest) := by
  have hparts := Date.isValid_iff.mp hvalid
  have hdays := Date.daysInMonth_le d.year d.month
  have hhyphen {cs : List Char} : EndsDigits ('-' :: cs) := endsDigits_cons (by decide)
  rw [Date.toList_text, date?]
  refine (bind_of_some (year?_yearText d.year hhyphen)).trans ?_
  refine (bind_of_some literal?_cons).trans ?_
  refine (bind_of_some (part?_zeroPadded (by omega) hhyphen)).trans ?_
  refine (bind_of_some literal?_cons).trans ?_
  refine (bind_of_some (part?_zeroPadded (by omega) hrest)).trans ?_
  exact if_pos (Bool.and_eq_true_iff.mpr ⟨hvalid, hyear⟩)

theorem timeOf?_eq {hour minute second nanosecond : Nat} (hhour : hour < 24) (hminute : minute < 60)
    (hsecond : second < 60) :
    timeOf? hour minute second nanosecond = some ⟨hour, minute, second, nanosecond⟩ := by
  rw [timeOf?, if_neg (by omega), if_neg (by omega)]

/-- A time is read back up to its second. -/
theorem time?_clockText (hvalid : t.isValid = true) (hwhole : t.nanosecond < Time.leap)
    (hrest : EndsDigits rest) : time? (t.clockText.toList ++ rest) = some (t.toSecond, rest) := by
  obtain ⟨hhour, hminute, hsecond⟩ := Time.isValid_iff.mp hvalid
  have hwritten : t.writtenSecond = t.second := if_neg (by omega)
  have hcolon {cs : List Char} : EndsDigits (':' :: cs) := endsDigits_cons (by decide)
  rw [Time.toList_clockText, hwritten, time?]
  refine (bind_of_some (part?_zeroPadded (by omega) hcolon)).trans ?_
  refine (bind_of_some literal?_cons).trans ?_
  refine (bind_of_some (part?_zeroPadded (by omega) hcolon)).trans ?_
  refine (bind_of_some literal?_cons).trans ?_
  refine (bind_of_some (part?_zeroPadded (by omega) hrest)).trans ?_
  exact bind_of_some (timeOf?_eq hhour hminute hsecond)

-- The form with an offset is strict in its widths, so it has room for years of four digits only.
theorem number?_exact {width n : Nat} {c : Char} (hwidth : 0 < width) (hn : n < 10 ^ width)
    (hc : isDigit c = false) :
    number? width width ((zeroPadded width n).toList ++ c :: rest) = some (n, c :: rest) :=
  number?_zeroPadded hwidth hn (Nat.le_refl _) (Nat.le_refl _) (endsDigits_cons hc)

theorem fraction?_zeroPadded {width n : Nat} (hwidth : 0 < width) (hnine : width ≤ 9)
    (hn : n < 10 ^ width) (hrest : EndsDigits rest) :
    fraction? ((zeroPadded width n).toList ++ rest) = some (n * Nat.pow 10 (9 - width), rest) := by
  have hlength := length_zeroPadded_of_lt hwidth hn
  have hvalue := digitsValue_zeroPadded width n
  have hdigits : ∀ c ∈ (zeroPadded width n).toList, isDigit c = true := fun _ =>
    isDigit_of_mem_zeroPadded
  have hne := zeroPadded_ne_nil width n
  generalize (zeroPadded width n).toList = digits at hlength hvalue hdigits hne
  rw [fraction?, (takeWhile_digits hdigits hrest).1, List.take_of_length_le (by omega),
    hvalue, hlength, if_neg (by simpa using hne), ← hlength, List.drop_left]

/-- A fraction of a second is left out or read back. -/
theorem fractionText_cases (hwhole : t.nanosecond < Time.leap) :
    (t.nanosecond = 0 ∧ t.fractionText.toList = []) ∨
      ∃ digits, t.fractionText.toList = '.' :: digits ∧
        ∀ rest, EndsDigits rest → fraction? (digits ++ rest) = some (t.nanosecond, rest) := by
  have point (text : String) : ("." ++ text).toList = '.' :: text.toList := by simp
  rw [Time.fractionText, Nat.mod_eq_of_lt hwhole]
  unfold Time.leap at hwhole
  split_ifs with hzero hmilli hmicro
  · exact .inl ⟨hzero, rfl⟩
  · refine .inr ⟨_, point _, fun rest hrest => ?_⟩
    have hvalue : t.nanosecond / 1000000 * Nat.pow 10 6 = t.nanosecond :=
      Nat.div_mul_cancel (Nat.dvd_of_mod_eq_zero hmilli)
    rw [fraction?_zeroPadded (by decide) (by decide) (by omega) hrest, hvalue]
  · refine .inr ⟨_, point _, fun rest hrest => ?_⟩
    have hvalue : t.nanosecond / 1000 * Nat.pow 10 3 = t.nanosecond :=
      Nat.div_mul_cancel (Nat.dvd_of_mod_eq_zero hmicro)
    rw [fraction?_zeroPadded (by decide) (by decide) (by omega) hrest, hvalue]
  · refine .inr ⟨_, point _, fun rest hrest => ?_⟩
    rw [fraction?_zeroPadded (by decide) (by decide) (by omega) hrest, Nat.sub_self]
    exact congrArg (fun n => some (n, rest)) (Nat.mul_one _)

theorem toList_utcText (d : DateTime) : d.utcText.toList =
    d.date.text.toList ++ 'T' ::
      (d.time.clockText.toList ++ (d.time.fractionText.toList ++ '+' :: "00:00".toList)) := by
  simp [DateTime.utcText, DateTime.textWith, Time.text]

theorem offset?_utc : offset? ('+' :: "00:00".toList) = some (0, []) := by decide

/-- A moment without an offset lies on its own day. -/
theorem utc_eq {d : DateTime} (hdate : d.date = Date.ofDayNumber d.date.dayNumber)
    (htime : d.time.isValid = true) :
    (⟨Date.ofDayNumber
      (d.date.dayNumber + ((d.time.hour * 60 + d.time.minute : Nat) - (0 : Int)) / 1440),
      { d.time with
        hour := (((d.time.hour * 60 + d.time.minute : Nat) - (0 : Int)) % 1440).toNat / 60
        minute := (((d.time.hour * 60 + d.time.minute : Nat) - (0 : Int)) % 1440).toNat % 60 }⟩ :
          DateTime) = d := by
  obtain ⟨date, hour, minute, second, nanosecond⟩ := d
  obtain ⟨hhour, hminute, -⟩ := Time.isValid_iff.mp htime
  dsimp only at hdate hhour hminute ⊢
  have hday : ((hour * 60 + minute : Nat) - (0 : Int)) / 1440 = 0 := by omega
  have hofDay :
    (((hour * 60 + minute : Nat) - (0 : Int)) % 1440).toNat = hour * 60 + minute := by omega
  have hhours : (hour * 60 + minute) / 60 = hour := by omega
  have hminutes : (hour * 60 + minute) % 60 = minute := by omega
  rw [hday, hofDay, hhours, hminutes, Int.add_zero, ← hdate]

/-- A moment in a year of four digits is read back with its fraction of a second. -/
theorem moment?_utcText {d : DateTime} (hdate : d.date = Date.ofDayNumber d.date.dayNumber)
    (htime : d.time.isValid = true) (hwhole : d.time.nanosecond < Time.leap)
    (hyear : 0 ≤ d.date.year ∧ d.date.year ≤ 9999) : moment? d.utcText.toList = some (d, []) := by
  obtain ⟨hhour, hminute, hsecond⟩ := Time.isValid_iff.mp htime
  have hwritten : d.time.writtenSecond = d.time.second := if_neg (by omega)
  have hvalid : d.date.isValid = true := hdate ▸ Date.isValid_ofDayNumber _
  have hparts := Date.isValid_iff.mp hvalid
  have hdays := Date.daysInMonth_le d.date.year d.date.month
  have hfour : (d.date.year.toNat : Int) = d.date.year := Int.toNat_of_nonneg hyear.1
  rw [toList_utcText, Date.toList_text, Time.toList_clockText, hwritten, moment?, Date.yearText,
    if_pos hyear]
  -- The date up to the letter behind it, and then the hour and the minute.
  refine (bind_of_some (number?_exact (by decide) (by omega) (by decide))).trans ?_
  refine (bind_of_some literal?_cons).trans ?_
  refine (bind_of_some (number?_exact (by decide) (by omega) (by decide))).trans ?_
  refine (bind_of_some literal?_cons).trans ?_
  refine (bind_of_some (number?_exact (by decide) (by omega) (by decide))).trans ?_
  refine (if_pos (Or.inl rfl)).trans ?_
  refine (bind_of_some rfl).trans ?_
  refine (bind_of_some (number?_exact (by decide) (by omega) (by decide))).trans ?_
  refine (bind_of_some literal?_cons).trans ?_
  refine (bind_of_some (number?_exact (by decide) (by omega) (by decide))).trans ?_
  refine (bind_of_some literal?_cons).trans ?_
  rw [hfour]
  -- Behind the second there stands a point or at once the sign of the offset.
  rcases fractionText_cases hwhole with ⟨hzero, hempty⟩ | ⟨digits, hdigits, hfraction⟩
  · rw [hempty]
    have hnone : some (0, '+' :: "00:00".toList) =
      some (d.time.nanosecond, '+' :: "00:00".toList) := by rw [hzero]
    refine (bind_of_some (number?_exact (by decide) (by omega) (by decide))).trans ?_
    refine (bind_of_some hnone).trans ?_
    refine (bind_of_some offset?_utc).trans ?_
    refine (bind_of_some (timeOf?_eq hhour hminute hsecond)).trans ?_
    exact (if_pos hvalid).trans (congrArg (fun moment => some (moment, [])) (utc_eq hdate htime))
  · rw [hdigits]
    refine (bind_of_some (number?_exact (by decide) (by omega) (by decide))).trans ?_
    refine (bind_of_some (hfraction _ (endsDigits_cons (by decide)))).trans ?_
    refine (bind_of_some offset?_utc).trans ?_
    refine (bind_of_some (timeOf?_eq hhour hminute hsecond)).trans ?_
    exact (if_pos hvalid).trans (congrArg (fun moment => some (moment, [])) (utc_eq hdate htime))

/-- A year of another width is none for the strict form. -/
theorem moment?_eq_none {d : DateTime} (hyear : ¬(0 ≤ d.date.year ∧ d.date.year ≤ 9999)) :
    moment? d.utcText.toList = none := by
  have hsign : ∃ c cs, isDigit c = false ∧ d.utcText.toList = c :: cs := by
    rw [toList_utcText, Date.toList_text, Date.yearText, if_neg hyear]
    split_ifs
    · exact ⟨'-', _, by decide, by rw [String.toList_append]; rfl⟩
    · exact ⟨'+', _, by decide, by rw [String.toList_append]; rfl⟩
  obtain ⟨c, cs, hc, heq⟩ := hsign
  have hnumber : number? 4 4 (c :: cs) = none := by
    rw [number?, List.takeWhile_cons, hc]
    rfl
  rw [heq, moment?, hnumber]
  rfl

end Texts

theorem whole?_eq {α : Type} {read : List Char → Option (α × List Char)} {s : String} {v : α}
    (h : read s.toList = some (v, [])) : whole? read s = some v := by
  rw [whole?, h]

end Calendar

theorem Date.ofText?_text {d : Date} (hvalid : d.isValid = true)
    (hyear : Calendar.isCountedYear d.year = true) : Date.ofText? d.text = some d := by
  have hread : Calendar.date? (d.text.toList ++ []) = some (d, []) :=
    Calendar.date?_text hvalid hyear nofun
  rw [List.append_nil] at hread
  exact Calendar.whole?_eq hread

theorem Time.ofText?_clockText {t : Time} (hvalid : t.isValid = true)
    (hwhole : t.nanosecond < Time.leap) : Time.ofText? t.clockText = some t.toSecond := by
  have hread : Calendar.time? (t.clockText.toList ++ []) = some (t.toSecond, []) :=
    Calendar.time?_clockText hvalid hwhole nofun
  rw [List.append_nil] at hread
  exact Calendar.whole?_eq hread

/-- What is written without a fraction of a second is read back without one. -/
theorem DateTime.ofText?_clockText {d : DateTime} (hdate : d.date.isValid = true)
    (hyear : Calendar.isCountedYear d.date.year = true) (htime : d.time.isValid = true)
    (hwhole : d.time.nanosecond < Time.leap) : DateTime.ofText? d.clockText = some d.toSecond := by
  have hlist :
      d.clockText.toList = d.date.text.toList ++ ' ' :: (d.time.clockText.toList ++ []) := by
    simp [DateTime.clockText]
  have hend : EndsDigits [] := nofun
  refine Calendar.whole?_eq ?_
  rw [hlist]
  refine (Calendar.bind_of_some
    (Calendar.date?_text hdate hyear (endsDigits_cons (by decide)))).trans ?_
  refine (Calendar.bind_of_some Calendar.literal?_cons).trans ?_
  exact Calendar.bind_of_some (Calendar.time?_clockText htime hwhole hend)

theorem DateTime.ofMoment?_utcText {d : DateTime}
    (hdate : d.date = Date.ofDayNumber d.date.dayNumber) (htime : d.time.isValid = true)
    (hwhole : d.time.nanosecond < Time.leap)
    (hyear : 0 ≤ d.date.year ∧ d.date.year ≤ 9999) : DateTime.ofMoment? d.utcText = some d :=
  Calendar.whole?_eq (Calendar.moment?_utcText hdate htime hwhole hyear)

theorem DateTime.ofMoment?_eq_none {d : DateTime}
    (hyear : ¬(0 ≤ d.date.year ∧ d.date.year ≤ 9999)) : DateTime.ofMoment? d.utcText = none := by
  rw [ofMoment?, Calendar.whole?, Calendar.moment?_eq_none hyear]

end SqlGateway
