import SqlGateway.Proofs.Number.Readable
import SqlGateway.Proofs.Request.Numerals
import SqlGateway.Proofs.ReturnedKeys

/-!
# Integers that are bound

What a parameter of an integer type holds for a number or a text. Numbers that are no integers are
cut off, those out of range are clamped, and a text goes through a floating-point number. So a value
is bound as what it denotes only if none of this changes it; the others are bound as well, as other
integers.

The texts that are read as floating-point numbers are decimals, with a sign of either kind, digits
on one side of the point at least, and an exponent, and the words for infinity and not-a-number. A
decimal is read as the nearest number, and no other text is read.
-/

namespace SqlGateway.Number

open Request (ExponentText IsDigits Numeral)

/-- A sign that may be left out. -/
inductive SignText : Bool → List Char → Prop
  | none : SignText false []
  | plus : SignText false ['+']
  | minus : SignText true ['-']

/-- How a numeral may be written in a text. -/
inductive DecimalText : Numeral → List Char → Prop
  | whole {negative sign whole exponent last} : SignText negative sign → IsDigits whole →
      ExponentText exponent last → DecimalText ⟨negative, whole, none, exponent⟩
        (sign ++ (whole ++ last))
  | point {negative sign whole fraction exponent last} :
      SignText negative sign → IsDigits (whole ++ fraction) → ExponentText exponent last →
      DecimalText ⟨negative, whole, some fraction, exponent⟩
        (sign ++ (whole ++ '.' :: (fraction ++ last)))

/-- A word for infinity or not-a-number. -/
inductive WordText : List Char → Prop
  | mk {negative sign word} : SignText negative sign → word.map Char.toLower ∈ numberWords →
      WordText (sign ++ word)

/-- The number that a numeral is read as. -/
def nearestTo (n : Numeral) : Binary64 := .ofDecimal n.negative (digitsValue n.digits) n.power

section Texts
variable {n : Numeral} {cs ds last : List Char} {negative : Bool}
  {exponent : Option (Bool × List Char)} {c : Char}

theorem ne_sign_of_isDigit (h : isDigit c = true) : c ≠ '-' ∧ c ≠ '+' := by
  constructor <;> rintro rfl <;> cases h

theorem splitSign_eq {sign : List Char} (h : SignText negative sign)
    (hhead : ∀ c ∈ cs.head?, c ≠ '-' ∧ c ≠ '+') : splitSign (sign ++ cs) = (negative, cs) := by
  cases h with
  | plus | minus => rfl
  | none =>
      cases cs with
      | nil => rfl
      | cons c rest =>
          obtain ⟨hminus, hplus⟩ := hhead c rfl
          rw [List.nil_append, splitSign]
          · rintro _ ⟨⟩
            exact hminus rfl
          · rintro _ ⟨⟩
            exact hplus rfl

theorem exists_signText (cs : List Char) :
    ∃ sign, SignText (splitSign cs).1 sign ∧ cs = sign ++ (splitSign cs).2 := by
  unfold splitSign
  split
  · exact ⟨_, .minus, rfl⟩
  · exact ⟨_, .plus, rfl⟩
  · exact ⟨_, .none, rfl⟩

theorem natural?_eq_some_iff {value : Nat} :
    natural? ds = some value ↔ IsDigits ds ∧ value = digitsValue ds := by
  have hdigits : (!ds.isEmpty && ds.all isDigit) = true ↔ IsDigits ds := by
    unfold IsDigits
    simp
  rw [natural?, ← hdigits]
  split_ifs with h
  · exact ⟨fun hvalue => ⟨h, (Option.some.inj hvalue).symm⟩, fun hvalue =>
      congrArg some hvalue.2.symm⟩
  · exact iff_of_false not_false fun hvalue => h hvalue.1

/-- The exponent with its sign. -/
def exponentValue : Option (Bool × List Char) → Int
  | none => 0
  | some (negative, ds) => if negative then -(digitsValue ds : Int) else digitsValue ds

theorem exponentPart_mark {e : Char} {sign : List Char} (he : e = 'e' ∨ e = 'E')
    (hsign : SignText negative sign) (hds : IsDigits ds) :
    exponentPart (e :: (sign ++ ds)) = some (exponentValue (some (negative, ds))) := by
  have hmark : (e == 'e' || e == 'E') = true := by simpa using he
  have hhead : ∀ c ∈ ds.head?, c ≠ '-' ∧ c ≠ '+' :=
    fun c hc => ne_sign_of_isDigit (hds.2 c (List.mem_of_mem_head? hc))
  rw [exponentPart, if_pos hmark, splitSign_eq hsign hhead]
  dsimp only
  rw [natural?_eq_some_iff.mpr ⟨hds, rfl⟩]
  rfl

theorem exponentPart_eq (h : ExponentText exponent last) :
    exponentPart last = some (exponentValue exponent) := by
  -- The goal shows the sign already joined to the digits, so each lemma is elaborated before it
  -- meets the goal.
  cases h with
  | none => rfl
  | plain he hds => exact (exponentPart_mark he .none hds :)
  | plus he hds => exact (exponentPart_mark he .plus hds :)
  | minus he hds => exact (exponentPart_mark he .minus hds :)

theorem exists_exponentText {power : Int} (h : exponentPart last = some power) :
    ∃ exponent, ExponentText exponent last := by
  unfold exponentPart at h
  split at h
  · exact ⟨_, .none⟩
  · next e rest =>
    split_ifs at h with hmark
    have he : e = 'e' ∨ e = 'E' := by simpa using hmark
    obtain ⟨sign, hsign, hrest⟩ := exists_signText rest
    obtain ⟨_, hvalue, -⟩ := Option.map_eq_some_iff.mp h
    obtain ⟨_, hvalue, -⟩ := Option.bind_eq_some_iff.mp hvalue
    have hds : IsDigits (splitSign rest).2 := (natural?_eq_some_iff.mp hvalue).1
    rw [hrest]
    generalize (splitSign rest).1 = negative at hsign
    generalize (splitSign rest).2 = ds at hds
    cases hsign with
    | none => exact ⟨_, .plain he hds⟩
    | plus => exact ⟨_, .plus he hds⟩
    | minus => exact ⟨_, .minus he hds⟩

theorem not_mem_numberWords (hc : isNumeric c = true) :
    (c :: cs).map Char.toLower ∉ numberWords := by
  intro hmem
  have hall : ∀ w ∈ numberWords, w.head?.any isNumeric = false := by decide
  have hfirst : isNumeric c.toLower = false := hall _ hmem
  rw [isNumeric_toLower hc] at hfirst
  cases hfirst

theorem float?_of_splitSign (hsplit : splitSign cs = (negative, ds))
    (hword : ds.map Char.toLower ∉ numberWords) : float? cs = decimalNumeral negative ds := by
  have hlower : ds.map asciiLower = ds.map Char.toLower := rfl
  simp only [numberWords, List.mem_cons, List.not_mem_nil, or_false, not_or] at hword
  obtain ⟨hinf, hinfinity, hnan⟩ := hword
  unfold float?
  rw [hsplit]
  dsimp only
  rw [hlower, beq_eq_false_iff_ne.mpr hinf, beq_eq_false_iff_ne.mpr hinfinity,
    beq_eq_false_iff_ne.mpr hnan]
  rfl

theorem float?_of_wordText (h : WordText cs) : (float? cs).isSome = true := by
  obtain @⟨negative, sign, word, hsign, hword⟩ := h
  have hlower : word.map asciiLower = word.map Char.toLower := rfl
  have hhead : ∀ c ∈ word.head?, c ≠ '-' ∧ c ≠ '+' := by
    intro c hc
    obtain ⟨rest, rfl⟩ := List.head?_eq_some_iff.mp hc
    constructor <;> rintro rfl <;> exact not_mem_numberWords rfl hword
  simp only [numberWords, List.mem_cons, List.not_mem_nil, or_false] at hword
  unfold float?
  rw [splitSign_eq hsign hhead]
  dsimp only
  rw [hlower]
  rcases hword with hword | hword | hword <;> rw [hword] <;> rfl

theorem power_eq (n : Numeral) :
    n.power = exponentValue n.exponent - (n.fraction.getD []).length := by
  obtain ⟨_, _, _, exponent⟩ := n
  cases exponent <;> rfl

theorem endsDigits_of_exponentText (h : ExponentText exponent last) :
    EndsDigits last ∧ last.head? ≠ some '.' := by
  have hmark := h.head
  refine ⟨fun c hc => (Request.isExponentMark_spec (hmark c hc)).2.1, fun hpoint => ?_⟩
  exact absurd (hmark '.' hpoint) (by decide)

theorem float?_of_head {sign : List Char} (hsign : SignText negative sign)
    (hc : isDigit c = true ∨ c = '.') :
    float? (sign ++ c :: cs) = decimalNumeral negative (c :: cs) := by
  have hnumeric : isNumeric c = true ∧ c ≠ '-' ∧ c ≠ '+' := by
    rcases hc with hc | rfl
    · exact ⟨isNumeric_of_isDigit hc, ne_sign_of_isDigit hc⟩
    · decide
  have hhead : ∀ d ∈ (c :: cs).head?, d ≠ '-' ∧ d ≠ '+' := by
    rintro d ⟨⟩
    exact hnumeric.2
  exact float?_of_splitSign (splitSign_eq hsign hhead) (not_mem_numberWords hnumeric.1)

theorem float?_of_decimalText (h : DecimalText n cs) : float? cs = some (nearestTo n) := by
  cases h with
  | @whole negative sign whole exponent last hsign hwhole hlast =>
      obtain ⟨hends, hpoint⟩ := endsDigits_of_exponentText hlast
      have hread : decimalNumeral negative (whole ++ last) =
          some (nearestTo ⟨negative, whole, none, exponent⟩) := by
        rw [decimalNumeral_whole hwhole.2 hwhole.1 hends hpoint, exponentPart_eq hlast,
          nearestTo, power_eq]
        simp [Numeral.digits]
      obtain ⟨c, more, rfl⟩ := List.exists_cons_of_ne_nil hwhole.1
      exact (float?_of_head hsign (.inl (hwhole.2 c List.mem_cons_self))).trans hread
  | @point negative sign whole fraction exponent last hsign hdigits hlast =>
      obtain ⟨hends, _⟩ := endsDigits_of_exponentText hlast
      obtain ⟨hwhole, hfraction⟩ := List.forall_mem_append.mp hdigits.2
      have hread : decimalNumeral negative (whole ++ '.' :: (fraction ++ last)) =
          some (nearestTo ⟨negative, whole, some fraction, exponent⟩) := by
        rw [decimalNumeral_point hwhole hfraction hdigits.1 hends, exponentPart_eq hlast,
          nearestTo, power_eq]
        rfl
      cases whole with
      | nil => exact (float?_of_head hsign (.inr rfl)).trans hread
      | cons c more => exact (float?_of_head hsign (.inl (hwhole c List.mem_cons_self))).trans hread

theorem exists_decimalText {sign : List Char} {x : Binary64} (hsign : SignText negative sign)
    (h : decimalNumeral negative cs = some x) : ∃ n, DecimalText n (sign ++ cs) := by
  have hwhole : ∀ c ∈ cs.takeWhile isDigit, isDigit c = true :=
    List.all_eq_true.mp List.all_takeWhile
  have hcs : cs.takeWhile isDigit ++ cs.dropWhile isDigit = cs := List.takeWhile_append_dropWhile
  unfold decimalNumeral at h
  extract_lets whole at h
  split at h
  rename_i fraction rest hafter
  extract_lets digits at h
  split_ifs at h with hnone
  have hne : whole ++ fraction ≠ [] := fun hempty => hnone (List.isEmpty_iff.mpr hempty)
  obtain ⟨_, hn, -⟩ := Option.map_eq_some_iff.mp h
  obtain ⟨exponent, hlast⟩ := exists_exponentText hn
  rw [← hcs]
  split at hafter
  · rename_i after hpoint
    obtain ⟨rfl, rfl⟩ := Prod.mk.inj hafter
    rw [hpoint, ← List.takeWhile_append_dropWhile (p := isDigit) (l := after)]
    exact ⟨_,
      .point hsign
        ⟨hne, List.forall_mem_append.mpr ⟨hwhole, List.all_eq_true.mp List.all_takeWhile⟩⟩ hlast⟩
  · obtain ⟨rfl, rfl⟩ := Prod.mk.inj hafter
    rw [List.append_nil] at hne
    exact ⟨_, .whole hsign ⟨hne, hwhole⟩ hlast⟩

/-- No text is read but a decimal or a word. -/
theorem text_of_float? {x : Binary64} (h : float? cs = some x) :
    (∃ n, DecimalText n cs) ∨ WordText cs := by
  obtain ⟨sign, hsign, hcs⟩ := exists_signText cs
  by_cases hword : (splitSign cs).2.map Char.toLower ∈ numberWords
  · rw [hcs]
    exact .inr ⟨hsign, hword⟩
  · rw [float?_of_splitSign rfl hword] at h
    rw [hcs]
    exact .inl (exists_decimalText hsign h)

end Texts

end SqlGateway.Number

namespace SqlGateway.Postgres

open Number
open Request (Numeral)

/-- The integer types and the numbers of their bits. -/
def integerTypes : List (PgType × Nat) := [(.int2, 16), (.int4, 32), (.int8, 64)]

/-- The number that a JSON value denotes: itself, or the decimal in a text. A text may also hold a
word that denotes no rational number. -/
inductive Denotes : Json → Option ℚ → Prop
  | int (n : Int) : Denotes (.int n) (some n)
  | float (negative : Bool) (s : Nat) (e : Int) :
      Denotes (.float (.finite negative s e)) (some (signedValue negative s e))
  | decimal {s : String} {n : Numeral} :
      DecimalText n (Text.trimmed s.toList) → Denotes (.text s) (some n.rational)
  | word {s : String} : WordText (Text.trimmed s.toList) → Denotes (.text s) none

/-- The greatest integer of so many bits. -/
def greatest (bits : Nat) : Int := 2 ^ (bits - 1) - 1

def InRange (bits : Nat) (n : Int) : Prop := -2 ^ (bits - 1) ≤ n ∧ n ≤ greatest bits

instance (bits : Nat) (n : Int) : Decidable (InRange bits n) := inferInstanceAs (Decidable (_ ∧ _))

/-- An integer of a width that stays the same on the way into a parameter: in a text it has to be a
floating-point number, or the greatest of the width. -/
structure Keeps (bits : Nat) (v : Json) (n : Int) : Prop where
  inRange : InRange bits n
  number : ∀ s, v = .text s → IsDouble n ∨ n = greatest bits

section Bound
variable {type : PgType} {bits : Nat} {v : Json} {value : Option ℚ} {n : Int}

theorem asInteger?_eq {x : Binary64} (h : asNumber? v = some x) :
    asInteger? bits v = some (.int (x.truncateInto (-2 ^ (bits - 1)) (greatest bits))) := by
  have hhalf : ((Nat.pow 2 (bits - 1) : Nat) : Int) = 2 ^ (bits - 1) := by
    rw [Nat.pow_eq]
    push_cast
    rfl
  rw [asInteger?, h, Option.map_some]
  simp only [hhalf]
  rfl

/-- Whatever the number is, an integer of the width is left of it. -/
theorem inRange_truncateInto (bits : Nat) (x : Binary64) :
    InRange bits (x.truncateInto (-2 ^ (bits - 1)) (greatest bits)) := by
  have hpos : (0 : Int) < 2 ^ (bits - 1) := Int.pow_pos (by decide)
  unfold InRange greatest
  cases x with
  | finite negative s e =>
      rw [truncateInto_finite (truncate?_finite negative s e)]
      omega
  | infinite negative => cases negative <;> simp only [Binary64.truncateInto] <;> omega
  | nan => simp only [Binary64.truncateInto]; omega

section Types
variable (htype : (type, bits) ∈ integerTypes)
include htype

theorem cases_integerTypes : type = .int2 ∧ bits = 16 ∨ type = .int4 ∧ bits = 32 ∨ type = .int8 ∧
    bits = 64 := by
  simpa [integerTypes] using htype

theorem isDouble_greatest : IsDouble (greatest bits) ∨ greatest bits = greatestInt64 := by
  rcases cases_integerTypes htype with ⟨-, rfl⟩ | ⟨-, rfl⟩ | ⟨-, rfl⟩
  · exact .inl (isDouble_of_lt (by decide))
  · exact .inl (isDouble_of_lt (by decide))
  · exact .inr (by decide)

theorem isDouble_least : IsDouble (-2 ^ (bits - 1)) := by
  refine (isDouble_two_pow ?_).2
  rcases cases_integerTypes htype with ⟨-, rfl⟩ | ⟨-, rfl⟩ | ⟨-, rfl⟩ <;> decide

theorem natAbs_le_of_inRange (h : InRange bits n) : n.natAbs ≤ 2 ^ 63 := by
  unfold InRange greatest at h
  rcases cases_integerTypes htype with ⟨-, rfl⟩ | ⟨-, rfl⟩ | ⟨-, rfl⟩ <;> omega

/-- Texts and fractions take the way through a floating-point number. -/
theorem parameter?_eq_asInteger? (hv : v.asInt64? = none) (hnull : v.isNull = false) :
    parameter? type v = asInteger? bits v := by
  have hparameter : parameter? type v = convert? type v := by
    cases v <;> first | rfl | cases hnull
  rw [hparameter]
  rcases cases_integerTypes htype with ⟨rfl, rfl⟩ | ⟨rfl, rfl⟩ | ⟨rfl, rfl⟩
  · rfl
  · rfl
  · rw [convert?, hv]

/-- An integer in range is bound as it is. -/
theorem parameter?_of_inRange (h : InRange bits n) : parameter? type (.int n) = some (.int n) := by
  rw [parameter?_int]
  unfold InRange greatest at h
  rcases cases_integerTypes htype with ⟨rfl, rfl⟩ | ⟨rfl, rfl⟩ | ⟨rfl, rfl⟩
  · exact asInteger?_int (by decide) (by omega) (by omega)
  · exact asInteger?_int (by decide) (by omega) (by omega)
  · have hfits : fitsInt64 n = true :=
      Bool.and_eq_true_iff.mpr ⟨decide_eq_true (by unfold leastInt64; omega),
        decide_eq_true (by unfold greatestInt64; omega)⟩
    rw [convert?, Json.asInt64?, if_pos hfits]

/-- An integer out of range is bound as another one. -/
theorem parameter?_of_not_inRange (h : ¬ InRange bits n) :
    ∃ m, parameter? type (.int n) = some (.int m) ∧ InRange bits m := by
  have hway : parameter? type (.int n) = asInteger? bits (.int n) := by
    rcases cases_integerTypes htype with ⟨rfl, rfl⟩ | ⟨rfl, rfl⟩ | ⟨rfl, rfl⟩
    · rfl
    · rfl
    · have hfits : fitsInt64 n = false := by
        refine (Bool.not_eq_true _).mp fun hfits => h ?_
        obtain ⟨hleast, hgreatest⟩ := Bool.and_eq_true_iff.mp hfits
        have hleast := of_decide_eq_true hleast
        have hgreatest := of_decide_eq_true hgreatest
        unfold leastInt64 at hleast
        unfold greatestInt64 at hgreatest
        unfold InRange greatest
        omega
      rw [parameter?_int, convert?, Json.asInt64?, if_neg (by simp [hfits])]
  exact ⟨_, hway.trans (asInteger?_eq rfl), inRange_truncateInto bits _⟩

/-- A number or a text that denotes something is bound, as an integer of the width. If an integer of
the width is denoted it is this one just if it is kept. -/
theorem exists_parameter (h : Denotes v value) :
    ∃ n, parameter? type v = some (.int n) ∧ InRange bits n ∧
    ∀ m : Int, value = some (m : ℚ) → InRange bits m → (n = m ↔ Keeps bits v m) := by
  cases h with
  | int n =>
      have hnumber : ∀ s, Json.int n ≠ .text s := nofun
      by_cases hn : InRange bits n
      · refine ⟨n, parameter?_of_inRange htype hn, hn, fun m hm hrange => ?_⟩
        have hm : n = m := by exact_mod_cast Option.some.inj hm
        exact iff_of_true hm ⟨hrange, fun s hs => absurd hs (hnumber s)⟩
      · obtain ⟨k, hk, hrangeK⟩ := parameter?_of_not_inRange htype hn
        refine ⟨k, hk, hrangeK, fun m hm hrange => absurd hrange ?_⟩
        have hm : n = m := by exact_mod_cast Option.some.inj hm
        rwa [← hm]
  | float negative s e =>
      refine ⟨_, (parameter?_eq_asInteger? htype rfl rfl).trans (asInteger?_eq rfl),
        inRange_truncateInto bits _, fun m hm hrange => iff_of_true ?_ ⟨hrange, nofun⟩⟩
      rw [truncateInto_finite (truncate?_of_signedValue (Option.some.inj hm))]
      unfold InRange at hrange
      omega
  | @decimal s n hs =>
      have hnumber : asNumber? (.text s) = some (nearestTo n) := float?_of_decimalText hs
      refine ⟨_, (parameter?_eq_asInteger? htype rfl rfl).trans (asInteger?_eq hnumber),
        inRange_truncateInto bits _, fun m hm hrange => ?_⟩
      have hback : (nearestTo n).truncateInto (-2 ^ (bits - 1)) (greatest bits) = m ↔
          IsDouble m ∨ m = greatest bits :=
        truncateInto_ofDecimal_eq_iff (Option.some.inj hm)
          hrange (natAbs_le_of_inRange htype hrange)
          (isDouble_least htype) (isDouble_greatest htype)
      rw [hback]
      exact ⟨fun h => ⟨hrange, fun _ _ => h⟩, fun h => h.number s rfl⟩
  | @word s hs =>
      obtain ⟨x, hx⟩ := Option.isSome_iff_exists.mp (float?_of_wordText hs)
      have hnumber : asNumber? (.text s) = some x := hx
      exact ⟨_, (parameter?_eq_asInteger? htype rfl rfl).trans (asInteger?_eq hnumber),
        inRange_truncateInto bits _, nofun⟩

/-- A parameter of an integer type is sent in bytes that hold its integer. -/
theorem exists_bytes (hparameter : parameter? type v = some (.int n)) (hrange : InRange bits n) :
    ∃ bytes, bound? type v = some bytes ∧ intOfBytes bytes = n := by
  unfold InRange greatest at hrange
  rw [bound?, hparameter, Option.bind_some, Parameter.cell]
  rcases cases_integerTypes htype with ⟨rfl, rfl⟩ | ⟨rfl, rfl⟩ | ⟨rfl, rfl⟩
  · exact ⟨_, rfl, intOfBytes_bytesOfInt (by omega) (by omega)⟩
  · exact ⟨_, rfl, intOfBytes_bytesOfInt (by omega) (by omega)⟩
  · exact ⟨_, rfl, intOfBytes_bytesOfInt (by omega) (by omega)⟩

/-- Whatever is bound for a number or a text to a parameter of an integer type is what it denotes,
just if it denotes an integer that is kept. A text that denotes nothing is not bound. -/
theorem bound_exactly_iff_keeps :
    (∀ v value, Denotes v value →
      ((∀ bytes, bound? type v = some bytes → value = some (intOfBytes bytes : ℚ)) ↔
        ∃ n : Int, value = some (n : ℚ) ∧ Keeps bits v n)) ∧
      ∀ s, (∀ value, ¬ Denotes (.text s) value) → bound? type (.text s) = none := by
  constructor
  · intro v value hdenotes
    obtain ⟨n, hparameter, hrange, hkept⟩ := exists_parameter htype hdenotes
    obtain ⟨bytes, hbound, hbytes⟩ := exists_bytes htype hparameter hrange
    have hexact : (∀ bytes, bound? type v = some bytes → value = some (intOfBytes bytes : ℚ)) ↔
        value = some (n : ℚ) := by
      rw [hbound, ← hbytes]
      exact ⟨fun h => h bytes rfl, fun h _ heq => Option.some.inj heq ▸ h⟩
    rw [hexact]
    constructor
    · exact fun hvalue => ⟨n, hvalue, (hkept n hvalue hrange).mp rfl⟩
    · rintro ⟨m, hvalue, hkeeps⟩
      rw [hvalue, (hkept m hvalue hkeeps.inRange).mpr hkeeps]
  · intro s hnothing
    have hnumber : asNumber? (.text s) = none := by
      refine Option.eq_none_iff_forall_ne_some.mpr fun x hx => ?_
      obtain ⟨n, hn⟩ | hword := text_of_float? hx
      · exact hnothing _ (.decimal hn)
      · exact hnothing _ (.word hword)
    rw [bound?, parameter?_eq_asInteger? htype rfl rfl, asInteger?, hnumber, Option.map_none,
      Option.bind_none]

end Types

end Bound

/-- The text of an integer without a fraction or an exponent denotes it. -/
theorem denotes_digits {s : String} (ds : List Char) (hs : Text.trimmed s.toList = ds)
    (hds : Request.IsDigits ds) : Denotes (.text s) (some (digitsValue ds : ℚ)) := by
  have htext : DecimalText ⟨false, ds, none, none⟩ (Text.trimmed s.toList) := by
    rw [hs]
    simpa using DecimalText.whole .none hds .none
  have hvalue : Numeral.rational ⟨false, ds, none, none⟩ = digitsValue ds := by
    simp [Numeral.rational, Numeral.magnitude, Numeral.digits, Numeral.power, signedRat]
  exact hvalue ▸ .decimal htext

theorem bound_exactly_keeps_text : (PgType.int8, 64) ∈ integerTypes ∧
    Denotes (.text " 9007199254740992") (some (9007199254740992 : ℕ)) ∧
      ∀ bytes, bound? .int8 (.text " 9007199254740992") = some bytes →
        some ((9007199254740992 : ℕ) : ℚ) = some (intOfBytes bytes : ℚ) := by
  have hdenotes : Denotes (.text " 9007199254740992") (some (9007199254740992 : ℕ)) :=
    denotes_digits "9007199254740992".toList (by decide) ⟨by decide, by decide⟩
  have hkeeps : Keeps 64 (.text " 9007199254740992") 9007199254740992 :=
    ⟨by decide, fun _ _ => .inl (isDouble_two_pow (k := 53) (by decide)).1⟩
  exact ⟨by decide, hdenotes,
    ((bound_exactly_iff_keeps (by decide)).1 _ _ hdenotes).mpr ⟨_, rfl, hkeeps⟩⟩

/-- An integer out of range, a fraction, and an integer of 54 bits in a text are bound as other
integers. -/
theorem other_integers_bound :
    (Denotes (.int 70000) (some (70000 : Int)) ∧ (bound? .int2 (.int 70000)).map intOfBytes =
      some 32767) ∧ (Denotes (.float (.finite false 6755399441055744 (-52))) (some (3 / 2)) ∧
        (bound? .int4 (.float (.finite false 6755399441055744 (-52)))).map intOfBytes = some 1) ∧
      (Denotes (.text "9007199254740993") (some (9007199254740993 : ℕ)) ∧
        (bound? .int8 (.text "9007199254740993")).map intOfBytes = some 9007199254740992) := by
  have hfraction : signedValue false 6755399441055744 (-52) = 3 / 2 := by
    norm_num [signedValue]
  refine ⟨⟨.int 70000, by decide +kernel⟩, ⟨hfraction ▸ .float _ _ _, by decide +kernel⟩,
    ?_, by decide +kernel⟩
  exact denotes_digits "9007199254740993".toList (by decide) ⟨by decide, by decide⟩

end SqlGateway.Postgres
