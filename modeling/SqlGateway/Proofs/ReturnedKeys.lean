import Mathlib.Algebra.Group.Nat.Defs
import Mathlib.Data.List.Induction
import SqlGateway.Postgres.Driver
import SqlGateway.Proofs.Calendar
import SqlGateway.Proofs.Number.Exact
import SqlGateway.Proofs.Text.Utf8

/-!
# Keys that are returned and bound again

The key of a written row comes back as bytes, becomes the JSON value of its cell, and is bound as
this value to the foreign key of a nested row. What the server then receives depends on three
tables, one for each step. An integer comes through them all, since a fixed number of bytes and the
integers of that width stand for each other.
-/
namespace SqlGateway.Number

theorem natOfBytes_concat (bytes : List UInt8) (b : UInt8) :
    natOfBytes (bytes ++ [b]) = natOfBytes bytes * 256 + b.toNat := by
  simp [natOfBytes, List.foldl_append]

theorem natOfBytes_lt (bytes : List UInt8) : natOfBytes bytes < 256 ^ bytes.length := by
  induction bytes using List.reverseRecOn with
  | nil => decide
  | append_singleton bytes b ih =>
      have hb := b.toNat_lt
      rw [natOfBytes_concat, List.length_append, List.length_singleton, Nat.pow_succ]
      omega

theorem natOfBytes_bytesOfNat (count n : Nat) :
    natOfBytes (bytesOfNat count n) = n % 256 ^ count := by
  induction count generalizing n with
  | zero => rw [bytesOfNat, Nat.pow_zero, Nat.mod_one]; rfl
  | succ count ih =>
      have hbyte : (UInt8.ofNat n).toNat = n % 256 := UInt8.toNat_ofNat'
      rw [bytesOfNat, natOfBytes_concat, ih, hbyte, Nat.pow_succ, Nat.mul_comm (256 ^ count),
        Nat.mod_mul]
      omega

theorem bytesOfNat_natOfBytes (bytes : List UInt8) :
    bytesOfNat bytes.length (natOfBytes bytes) = bytes := by
  induction bytes using List.reverseRecOn with
  | nil => rfl
  | append_singleton bytes b ih =>
      have hb := b.toNat_lt
      have hhigh : (natOfBytes bytes * 256 + b.toNat) / 256 = natOfBytes bytes := by omega
      have hlow : UInt8.ofNat (natOfBytes bytes * 256 + b.toNat) = b := by
        rw [← UInt8.toNat_inj, UInt8.toNat_ofNat']
        omega
      rw [natOfBytes_concat, List.length_append, List.length_singleton, bytesOfNat, hhigh, hlow, ih]

theorem intOfBytes_bounds (bytes : List UInt8) :
    -(256 ^ bytes.length : Nat) ≤ 2 * intOfBytes bytes ∧ 2 * intOfBytes bytes <
      (256 ^ bytes.length : Nat) := by
  have hpos : 0 < 256 ^ bytes.length := Nat.pow_pos (by decide)
  have hleast := Int.le_bmod (x := natOfBytes bytes) hpos
  have hgreatest := Int.bmod_lt (x := natOfBytes bytes) hpos
  unfold intOfBytes
  simp only [Nat.pow_eq]
  omega

theorem intOfBytes_emod (bytes : List UInt8) :
    intOfBytes bytes % (256 ^ bytes.length : Nat) = natOfBytes bytes := by
  rw [intOfBytes, Nat.pow_eq, Int.bmod_emod]
  exact_mod_cast Nat.mod_eq_of_lt (natOfBytes_lt bytes)

/-- Which integers give the bytes again: those that agree with the one in them up to the width. -/
theorem bytesOfInt_eq_iff {bytes : List UInt8} {n : Int} : bytesOfInt bytes.length n = bytes ↔
    n % (256 ^ bytes.length : Nat) = intOfBytes bytes % (256 ^ bytes.length : Nat) := by
  have hpos : 0 < 256 ^ bytes.length := Nat.pow_pos (by decide)
  have hnonneg : 0 ≤ n % (256 ^ bytes.length : Nat) := Int.emod_nonneg n (by omega)
  rw [intOfBytes_emod, bytesOfInt, Nat.pow_eq]
  constructor
  · intro heq
    have hvalue := natOfBytes_bytesOfNat bytes.length (n % (256 ^ bytes.length : Nat)).toNat
    have hlt : (n % (256 ^ bytes.length : Nat)).toNat < 256 ^ bytes.length := by
      have := Int.emod_lt_of_pos n (b := (256 ^ bytes.length : Nat)) (by omega)
      omega
    rw [heq, Nat.mod_eq_of_lt hlt] at hvalue
    rw [hvalue, Int.toNat_of_nonneg hnonneg]
  · intro heq
    rw [heq, Int.toNat_natCast, bytesOfNat_natOfBytes]

theorem bytesOfInt_intOfBytes (bytes : List UInt8) :
    bytesOfInt bytes.length (intOfBytes bytes) = bytes :=
  bytesOfInt_eq_iff.mpr rfl

theorem length_bytesOfNat (count n : Nat) : (bytesOfNat count n).length = count := by
  induction count generalizing n with
  | zero => rfl
  | succ count ih => rw [bytesOfNat, List.length_append, ih, List.length_singleton]

/-- An integer of the width of its bytes is the one in them. -/
theorem intOfBytes_bytesOfInt {count : Nat} {n : Int} (hleast : -(256 ^ count : Nat) ≤ 2 * n)
    (hless : 2 * n < (256 ^ count : Nat)) : intOfBytes (bytesOfInt count n) = n := by
  have hpos : 0 < 256 ^ count := Nat.pow_pos (by decide)
  have hnonneg : 0 ≤ n % (256 ^ count : Nat) := Int.emod_nonneg n (by omega)
  have hlt : (n % (256 ^ count : Nat)).toNat < 256 ^ count := by
    have := Int.emod_lt_of_pos n (b := (256 ^ count : Nat)) (by omega)
    omega
  rw [intOfBytes, bytesOfInt, length_bytesOfNat, Nat.pow_eq, natOfBytes_bytesOfNat,
    Nat.mod_eq_of_lt hlt, Int.toNat_of_nonneg hnonneg, Int.emod_bmod]
  exact Int.bmod_eq_of_le_mul_two (by omega) (by omega)

end SqlGateway.Number

namespace SqlGateway.Postgres

open Number Schema

/-- The cell that a parameter stands for. -/
def Parameter.cell : Parameter → Cell
  | .null => .null
  | .bool b => .bool b
  | .int n => .int n
  | .float x => .float x
  | .numeric x => .text x.text
  | .json v => .json v
  | .date d => .date d
  | .dateTime d => .dateTime d
  | .moment d => .moment d
  | .time t => .time t
  | .text s => .text s

/-- The JSON value of a value that a row returns in a column of a type. -/
def returned? (type : PgType) (bytes : List UInt8) : Option Json :=
  (decode? type bytes).map (Cell.coerce (resultColumn ("", type)).type)

/-- The bytes that a JSON value is sent in to a parameter of a type. -/
def bound? (type : PgType) (v : Json) : Option (List UInt8) :=
  (parameter? type v).bind fun p => encode type p.cell

/-- What is sent for a value of a parent's row to a parameter of the same type. -/
def rebound? (type : PgType) (bytes : List UInt8) : Option (List UInt8) :=
  (returned? type bytes).bind (bound? type)

/-- The types of keys, and what each stands for in JSON. -/
def keyTypes : List (PgType × ValueType) :=
  [(.bool, .boolean), (.int2, .integer), (.int4, .integer), (.int8, .integer), (.text, .text),
    (.varchar, .text),
    (.other "uuid", .uuid), (.date, .date), (.time, .time), (.timestamp, .dateTime),
      (.timestamptz, .dateTime)]

theorem resultColumn_type {type : PgType} {meaning : ValueType} (h : (type, meaning) ∈ keyTypes) :
    (resultColumn ("", type)).type = meaning := by
  have hall : ∀ entry ∈ keyTypes, (resultColumn ("", entry.1)).type = entry.2 := by decide +kernel
  have hentry := hall _ h
  dsimp only at hentry
  exact hentry

section Rebound
variable {type : PgType} {bytes : List UInt8} {cell : Cell}

/-- What is sent, by the cell of a value and the parameter that its JSON value becomes. -/
theorem rebound?_eq (meaning : ValueType) (htype : (type, meaning) ∈ keyTypes)
    (hcell : decode? type bytes = some cell) :
    rebound? type bytes = (parameter? type (cell.coerce meaning)).bind fun p =>
      encode type p.cell := by
  rw [rebound?, returned?, hcell, resultColumn_type htype, Option.map_some,
    Option.bind_some, bound?]

theorem rebound?_eq_none (hcell : decode? type bytes = none) : rebound? type bytes = none := by
  rw [rebound?, returned?, hcell, Option.map_none, Option.bind_none]

theorem parameter?_text (type : PgType) (s : String) :
    parameter? type (.text s) = convert? type (.text s) := rfl

theorem parameter?_int (type : PgType) (n : Int) :
    parameter? type (.int n) = convert? type (.int n) := rfl

theorem integer?_eq {count : Nat} (h : bytes.length = count) :
    integer? count bytes = some (intOfBytes bytes) :=
  if_pos h

theorem bytesOfInt_eq {count : Nat} (h : bytes.length = count) :
    bytesOfInt count (intOfBytes bytes) = bytes := by
  rw [← h, bytesOfInt_intOfBytes]

theorem rebound?_bool (h : bytes = [0] ∨ bytes = [1]) : rebound? .bool bytes = some bytes := by
  have hcell : decode? .bool bytes = some (.bool (bytes != [0])) := by
    rcases h with rfl | rfl <;> rfl
  rw [rebound?_eq .boolean (by decide) hcell]
  rcases h with rfl | rfl <;> rfl

/-- Integers of up to 53 bits go through a floating-point number and stay what they are. -/
theorem asInteger?_int {bits : Nat} {n : Int} (hbits : bits ≤ 53)
    (hleast : -(2 ^ (bits - 1) : Nat) ≤ n) (hless : n < (2 ^ (bits - 1) : Nat)) :
    asInteger? bits (.int n) = some (.int n) := by
  have hsmall : n.natAbs < Nat.pow 2 53 := by
    have hle : 2 ^ (bits - 1) ≤ 2 ^ 52 := Nat.pow_le_pow_right (by decide) (by omega)
    have hpow : Nat.pow 2 53 = 2 * 2 ^ 52 := rfl
    omega
  have hnumber : asNumber? (.int n) = some (Binary64.ofInt n) := rfl
  rw [asInteger?, hnumber, Option.map_some]
  dsimp only
  rw [Nat.pow_eq, truncateInto_ofInt hsmall hleast (by omega)]

/-- An integer that a parameter takes as it is comes back in its bytes. -/
theorem rebound?_int (htype : (type, .integer) ∈ keyTypes)
    (hcell : decode? type bytes = (integer? bytes.length bytes).map .int)
    (hparameter : convert? type (.int (intOfBytes bytes)) = some (.int (intOfBytes bytes)))
    (hencode : ∀ n, encode type (.int n) = some (bytesOfInt bytes.length n)) :
    rebound? type bytes = some bytes := by
  rw [integer?_eq rfl, Option.map_some] at hcell
  rw [rebound?_eq .integer htype hcell, Cell.coerce, if_neg (by decide), parameter?_int, hparameter,
    Option.bind_some, Parameter.cell, hencode, bytesOfInt_intOfBytes]

theorem rebound?_int2 (h : bytes.length = 2) : rebound? .int2 bytes = some bytes := by
  have hbounds := intOfBytes_bounds bytes
  rw [h] at hbounds
  exact rebound?_int (by decide) (by rw [h]; rfl) (asInteger?_int (by decide) (by omega) (by omega))
    fun n => by rw [h]; rfl

theorem rebound?_int4 (h : bytes.length = 4) : rebound? .int4 bytes = some bytes := by
  have hbounds := intOfBytes_bounds bytes
  rw [h] at hbounds
  exact rebound?_int (by decide) (by rw [h]; rfl) (asInteger?_int (by decide) (by omega) (by omega))
    fun n => by rw [h]; rfl

theorem rebound?_int8 (h : bytes.length = 8) : rebound? .int8 bytes = some bytes := by
  have hbounds := intOfBytes_bounds bytes
  rw [h] at hbounds
  have hfits : fitsInt64 (intOfBytes bytes) = true :=
    Bool.and_eq_true_iff.mpr ⟨decide_eq_true (by unfold leastInt64; omega),
      decide_eq_true (by unfold greatestInt64; omega)⟩
  have hparameter : convert? .int8 (.int (intOfBytes bytes)) = some (.int (intOfBytes bytes)) := by
    rw [convert?, Json.asInt64?, if_pos hfits]
  exact rebound?_int (by decide) (by rw [h]; rfl) hparameter fun n => by rw [h]; rfl

theorem rebound?_text (h : (Text.decode? bytes).isSome = true) :
    rebound? .text bytes = some bytes ∧ rebound? .varchar bytes = some bytes := by
  obtain ⟨s, hs⟩ := Option.isSome_iff_exists.mp h
  have hbytes := Text.encode_of_decode? hs
  have htext : decode? .text bytes = some (.text s) := by rw [decode?, hs, Option.map_some]
  have hvarchar : decode? .varchar bytes = some (.text s) := by rw [decode?, hs, Option.map_some]
  rw [rebound?_eq .text (by decide) htext, rebound?_eq .text (by decide) hvarchar]
  exact ⟨congrArg some hbytes, congrArg some hbytes⟩

/-- The bytes of an identifier are taken for those of a text, and are sent in base 64 if they are
none. -/
theorem rebound?_uuid (bytes : List UInt8) : rebound? (.other "uuid") bytes =
    some (if (Text.decode? bytes).isSome then bytes else Text.encode (Text.base64 bytes)) := by
  have hcell : decode? (.other "uuid") bytes = some (.bytes bytes) := rfl
  have hvalue :
      Cell.ofBytes bytes .uuid = .text ((Text.decode? bytes).getD (Text.base64 bytes)) := by
    unfold Cell.ofBytes
    cases Text.decode? bytes <;> rfl
  rw [rebound?_eq .uuid (by decide) hcell, Cell.coerce, hvalue]
  cases hs : Text.decode? bytes with
  | none => rfl
  | some s => exact congrArg some (Text.encode_of_decode? hs)

/-- The day in the bytes of a date. -/
def dateOf (bytes : List UInt8) : Date :=
  Date.ofDayNumber (intOfBytes bytes + Date.dayNumber ⟨2000, 1, 1⟩)

/-- Date and time in the bytes of a timestamp. -/
def dateTimeOf (bytes : List UInt8) : DateTime := DateTime.ofMicroseconds (intOfBytes bytes)

theorem date?_eq (h : bytes.length = 4) :
    date? bytes =
      if Calendar.isCountedYear (dateOf bytes).year then some (dateOf bytes) else none := by
  rw [date?, integer?_eq h, Option.map_some, Option.filter_some]
  rfl

theorem dateTime?_eq (h : bytes.length = 8) :
    dateTime? bytes =
      if Calendar.isCountedYear (dateTimeOf bytes).date.year then some (dateTimeOf bytes)
      else none := by
  rw [dateTime?, integer?_eq h, Option.map_some, Option.filter_some]
  rfl

/-- A date comes back, if its year is counted; another one is not even read. -/
theorem rebound?_date (h : bytes.length = 4) : rebound? .date bytes =
    if Calendar.isCountedYear (dateOf bytes).year then some bytes else none := by
  have hdate := date?_eq h
  split_ifs at hdate ⊢ with hyear
  · have hvalid : (dateOf bytes).isValid = true := Date.isValid_ofDayNumber _
    have hcell : decode? .date bytes = some (.date (dateOf bytes)) := by
      rw [decode?, hdate, Option.map_some]
    have hparameter : convert? .date (.text (dateOf bytes).text) = some (.date (dateOf bytes)) := by
      rw [convert?, Json.bareText, Date.ofText?_text hvalid hyear, Option.map_some]
    have hnumber : (dateOf bytes).dayNumber - Date.dayNumber ⟨2000, 1, 1⟩ = intOfBytes bytes := by
      rw [dateOf, Date.dayNumber_ofDayNumber, Int.add_sub_cancel]
    rw [rebound?_eq .date (by decide) hcell, Cell.coerce, parameter?_text, hparameter,
      Option.bind_some, Parameter.cell, encode, hnumber, bytesOfInt_eq h]
  · exact rebound?_eq_none (by rw [decode?, hdate, Option.map_none])

/-- A time comes back without its fraction of a second, and the end of a day as its beginning. -/
theorem rebound?_time (h : bytes.length = 8) : rebound? .time bytes =
    some (bytesOfInt 8 (intOfBytes bytes % 86400000000 - intOfBytes bytes % 1000000)) := by
  have hcell : decode? .time bytes = some (.time (Time.ofMicroseconds (intOfBytes bytes))) := by
    rw [decode?, integer?_eq h, Option.map_some]
  generalize intOfBytes bytes = n at hcell ⊢
  have hvalid := Time.isValid_ofMicroseconds n
  have hread :
      Time.ofText? (Time.ofMicroseconds n).clockText = some (Time.ofMicroseconds n).toSecond :=
    Time.ofText?_clockText hvalid (Time.nanosecond_ofMicroseconds_lt n)
  have hseconds : ((Time.ofMicroseconds n).toSecond.nanoseconds : Int) =
      (n % 86400000000 - n % 1000000) * 1000 := by
    rw [Time.nanoseconds_toSecond, Time.nanoseconds_ofMicroseconds, Time.nanosecond_ofMicroseconds]
    omega
  have hkept :
    ((Time.ofMicroseconds ((Time.ofMicroseconds n).toSecond.nanoseconds / 1000 : Nat)).nanoseconds /
      1000 : Nat) = n % 86400000000 - n % 1000000 := by
    have hagain :=
      Time.nanoseconds_ofMicroseconds ((Time.ofMicroseconds n).toSecond.nanoseconds / 1000 : Nat)
    omega
  rw [rebound?_eq .time (by decide) hcell, Cell.coerce, parameter?_text, convert?,
    Json.bareText, hread, Option.map_some, Option.bind_some, Parameter.cell, encode, hkept]

theorem isValid_dateTimeOf (bytes : List UInt8) :
    (dateTimeOf bytes).date.isValid = true ∧ (dateTimeOf bytes).time.isValid = true ∧
      (dateTimeOf bytes).time.nanosecond < Time.leap :=
  ⟨Date.isValid_ofDayNumber _, Time.isValid_ofMicroseconds _, Time.nanosecond_ofMicroseconds_lt _⟩

theorem microseconds_keptDateTime (d : DateTime) : (keptDateTime d).microseconds = d.microseconds :=
  DateTime.microseconds_ofMicroseconds _

/-- A timestamp comes back without its fraction of a second, if its year is counted. -/
theorem rebound?_timestamp (h : bytes.length = 8) : rebound? .timestamp bytes =
    if Calendar.isCountedYear (dateTimeOf bytes).date.year then
      some (bytesOfInt 8 (intOfBytes bytes - intOfBytes bytes % 1000000))
    else none := by
  have hdateTime := dateTime?_eq h
  split_ifs at hdateTime ⊢ with hyear
  · have hcell : decode? .timestamp bytes = some (.dateTime (dateTimeOf bytes)) := by
      rw [decode?, hdateTime, Option.map_some]
    obtain ⟨hdate, htime, hwhole⟩ := isValid_dateTimeOf bytes
    rw [rebound?_eq .dateTime (by decide) hcell, Cell.coerce, if_neg (by decide),
      parameter?_text, convert?,
      Json.bareText, DateTime.ofText?_clockText hdate hyear htime hwhole, Option.map_some,
        Option.bind_some,
      Parameter.cell, encode, microseconds_keptDateTime, dateTimeOf,
        DateTime.microseconds_toSecond_ofMicroseconds]
  · exact rebound?_eq_none (by rw [decode?, hdateTime, Option.map_none])

/-- A moment comes back whole, if its year has four digits. -/
theorem rebound?_timestamptz (h : bytes.length = 8) : rebound? .timestamptz bytes =
    if 0 ≤ (dateTimeOf bytes).date.year ∧ (dateTimeOf bytes).date.year ≤ 9999 then some bytes
    else none := by
  have hdateTime := dateTime?_eq h
  by_cases hyear : Calendar.isCountedYear (dateTimeOf bytes).date.year = true
  · rw [if_pos hyear] at hdateTime
    have hcell : decode? .timestamptz bytes = some (.moment (dateTimeOf bytes)) := by
      rw [decode?, hdateTime, Option.map_some]
    obtain ⟨-, htime, hwhole⟩ := isValid_dateTimeOf bytes
    have hdate : (dateTimeOf bytes).date = Date.ofDayNumber (dateTimeOf bytes).date.dayNumber := by
      rw [dateTimeOf, DateTime.ofMicroseconds, Date.dayNumber_ofDayNumber]
    have hnumber : (dateTimeOf bytes).microseconds = intOfBytes bytes :=
      DateTime.microseconds_ofMicroseconds _
    rw [rebound?_eq .dateTime (by decide) hcell, Cell.coerce, if_neg (by decide),
      parameter?_text, convert?, Json.bareText]
    split_ifs with hdigits
    · rw [DateTime.ofMoment?_utcText hdate htime hwhole hdigits, Option.map_some, Option.bind_some,
        Parameter.cell, encode, microseconds_keptDateTime, hnumber, bytesOfInt_eq h]
    · rw [DateTime.ofMoment?_eq_none hdigits]
      rfl
  · rw [if_neg hyear] at hdateTime
    have hother : ¬(0 ≤ (dateTimeOf bytes).date.year ∧ (dateTimeOf bytes).date.year ≤ 9999) := by
      intro hdigits
      refine hyear (Bool.and_eq_true_iff.mpr ⟨decide_eq_true ?_, decide_eq_true ?_⟩) <;> omega
    rw [if_neg hother]
    exact rebound?_eq_none (by rw [decode?, hdateTime, Option.map_none])

end Rebound

/-- The bytes that are a value of a type of keys. -/
def IsValue (type : PgType) (bytes : List UInt8) : Prop :=
  match type with
  | .bool => bytes = [0] ∨ bytes = [1]
  | .int2 => bytes.length = 2
  | .int4 | .date => bytes.length = 4
  | .int8 | .timestamp | .timestamptz => bytes.length = 8
  | .time => bytes.length = 8 ∧ 0 ≤ intOfBytes bytes ∧ intOfBytes bytes ≤ 86400000000
  | .text | .varchar => (Text.decode? bytes).isSome = true
  | .other name => name = "uuid" ∧ bytes.length = 16
  | _ => False

/-- The values of keys that the JSON value of their column holds whole: an identifier whose bytes
happen to be a text, a date in a year that is counted, a time and a timestamp of whole seconds, a
moment in a year of four digits, and every truth value, integer and text. -/
def IsHeld (type : PgType) (bytes : List UInt8) : Prop :=
  match type with
  | .other _ => (Text.decode? bytes).isSome = true
  | .date => Calendar.isCountedYear (dateOf bytes).year = true
  | .time => intOfBytes bytes % 1000000 = 0 ∧ intOfBytes bytes < 86400000000
  | .timestamp =>
    Calendar.isCountedYear (dateTimeOf bytes).date.year = true ∧ intOfBytes bytes % 1000000 = 0
  | .timestamptz => 0 ≤ (dateTimeOf bytes).date.year ∧ (dateTimeOf bytes).date.year ≤ 9999
  | _ => True

/-- The bytes of an integer are those of an integer near it only if the two are the same. -/
theorem bytesOfInt_eq_iff_of_near {bytes : List UInt8} {n : Int} (h : bytes.length = 8)
    (hnear : -86400000000 ≤ n - intOfBytes bytes ∧ n - intOfBytes bytes ≤ 86400000000) :
    bytesOfInt 8 n = bytes ↔ n = intOfBytes bytes := by
  have hiff : bytesOfInt bytes.length n = bytes ↔ _ := bytesOfInt_eq_iff
  rw [h] at hiff
  rw [hiff]
  omega

/-- A key that is returned for a written row and bound again below it is the same key, on the wire,
exactly if the JSON value of its column holds it whole. -/
theorem rebound?_eq_self_iff (type : PgType) (bytes : List UInt8) (h : IsValue type bytes) :
    rebound? type bytes = some bytes ↔ IsHeld type bytes := by
  cases type with
  | bool => exact iff_of_true (rebound?_bool h) trivial
  | int2 => exact iff_of_true (rebound?_int2 h) trivial
  | int4 => exact iff_of_true (rebound?_int4 h) trivial
  | int8 => exact iff_of_true (rebound?_int8 h) trivial
  | text => exact iff_of_true (rebound?_text h).1 trivial
  | varchar => exact iff_of_true (rebound?_text h).2 trivial
  | other name =>
      obtain ⟨rfl, hlength⟩ := h
      have hne : bytes ≠ [] := by
        rintro rfl
        cases hlength
      rw [rebound?_uuid, Option.some.injEq]
      change _ ↔ (Text.decode? bytes).isSome = true
      split_ifs with htext
      · exact iff_of_true rfl htext
      · exact iff_of_false (Text.encode_base64_ne hne) htext
  | date =>
      rw [rebound?_date h]
      change _ ↔ Calendar.isCountedYear (dateOf bytes).year = true
      split_ifs with hyear <;> simp [hyear]
  | time =>
      obtain ⟨hlength, hleast, hgreatest⟩ := h
      rw [rebound?_time hlength, Option.some.injEq, bytesOfInt_eq_iff_of_near hlength (by omega)]
      change _ ↔ intOfBytes bytes % 1000000 = 0 ∧ intOfBytes bytes < 86400000000
      omega
  | timestamp =>
      rw [rebound?_timestamp h]
      change _ ↔ Calendar.isCountedYear (dateTimeOf bytes).date.year = true ∧
        intOfBytes bytes % 1000000 = 0
      split_ifs with hyear
      · rw [Option.some.injEq, bytesOfInt_eq_iff_of_near h (by omega)]
        refine ⟨fun heq => ⟨hyear, by omega⟩, ?_⟩
        rintro ⟨-, hwhole⟩
        omega
      · exact iff_of_false nofun fun held => hyear held.1
  | timestamptz =>
      rw [rebound?_timestamptz h]
      change _ ↔ 0 ≤ (dateTimeOf bytes).date.year ∧ (dateTimeOf bytes).date.year ≤ 9999
      split_ifs with hyear <;> simp [hyear]
  | float4 => exact h.elim
  | float8 => exact h.elim
  | numeric => exact h.elim
  | json => exact h.elim
  | jsonb => exact h.elim
  | bpchar => exact h.elim
  | name => exact h.elim
  | bytea => exact h.elim

/-- The 9th of March 2024, 13:04:05.123456. -/
def afternoon : List UInt8 := [0, 2, 182, 56, 182, 58, 93, 128]

def identifier : List UInt8 :=
  [160, 238, 188, 153, 156, 11, 78, 248, 187, 109, 107, 185, 189, 56, 10, 17]

/-- With its offset the moment is held, without it the fraction of its second is not. -/
theorem rebound?_eq_self_iff_afternoon :
    rebound? .timestamptz afternoon = some afternoon ∧ rebound? .timestamp afternoon ≠
      some afternoon := by
  constructor
  · refine (rebound?_eq_self_iff .timestamptz afternoon rfl).mpr ?_
    change 0 ≤ (dateTimeOf afternoon).date.year ∧ (dateTimeOf afternoon).date.year ≤ 9999
    decide +kernel
  · refine mt (rebound?_eq_self_iff .timestamp afternoon rfl).mp ?_
    rintro ⟨-, hwhole⟩
    exact absurd hwhole (by decide +kernel)

/-- A key that is a timestamp loses the fraction of its second, and an identifier is sent as a text
in base 64. -/
theorem rebound?_loses : (IsValue .timestamp afternoon ∧
      rebound? .timestamp afternoon = some [0, 2, 182, 56, 182, 56, 123, 64] ∧
      [0, 2, 182, 56, 182, 56, 123, 64] ≠ afternoon) ∧
    IsValue (.other "uuid") identifier ∧
      rebound? (.other "uuid") identifier = some (Text.encode "oO68mZwLTvi7bWu5vTgKEQ==") ∧
      Text.encode "oO68mZwLTvi7bWu5vTgKEQ==" ≠ identifier := by
  refine ⟨⟨rfl, ?_, by decide⟩, ⟨rfl, rfl⟩, ?_, ?_⟩
  · rw [rebound?_timestamp rfl]
    decide +kernel
  · rw [rebound?_uuid]
    decide +kernel
  · decide +kernel

end SqlGateway.Postgres
