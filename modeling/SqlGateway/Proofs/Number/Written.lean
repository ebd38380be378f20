import Mathlib.Data.List.Basic
import SqlGateway.Json.Write
import SqlGateway.Number.Numeral
import SqlGateway.Text.Character

/-!
# Characters of numbers

Whatever its layout, a number is written with digits, signs, a point and the mark of its exponent. A
numeral that can be read holds nothing else, apart from the words for infinity and not-a-number.
-/
namespace SqlGateway.Number

def isNumeric (c : Char) : Bool := isDigit c || c == '-' || c == '+' || c == '.' || c == 'e'

abbrev AllNumeric (cs : List Char) : Prop := ∀ c ∈ cs, isNumeric c = true

theorem isNumeric_of_isDigit {c : Char} (h : isDigit c = true) : isNumeric c = true := by
  simp [isNumeric, h]

theorem isDigit_of_mem_decimalDigits {n : Nat} {c : Char} (h : c ∈ decimalDigits n) :
    isDigit c = true := by
  have := Nat.isDigit_of_mem_toDigits (by decide) (by decide) h
  simpa [isDigit, Char.isDigit, Char.le_def] using this

theorem digitsValue_decimalDigits (n : Nat) : digitsValue (decimalDigits n) = n := by
  have := Nat.ofDigitChars_ten_toDigits (n := n)
  rwa [Nat.ofDigitChars_eq_foldl] at this

theorem natural?_decimalDigits (n : Nat) : natural? (decimalDigits n) = some n := by
  have hne : decimalDigits n ≠ [] := Nat.toDigits_ne_nil
  have hall : (decimalDigits n).all isDigit = true :=
    List.all_eq_true.mpr fun c hc => isDigit_of_mem_decimalDigits hc
  simp [natural?, hne, hall, digitsValue_decimalDigits]

section Written
variable {cs ds : List Char}

theorem numeric_decimalDigits (n : Nat) : AllNumeric (decimalDigits n) :=
  fun _ hc => isNumeric_of_isDigit (isDigit_of_mem_decimalDigits hc)

theorem numeric_signed {negative : Bool} (h : AllNumeric cs) : AllNumeric (signed negative cs) := by
  cases negative with
  | false => exact h
  | true => exact List.forall_mem_cons.mpr ⟨rfl, h⟩

/-- An integer is written as its digits after its sign. -/
theorem toList_toString (n : Int) :
    (toString n).toList = signed (n < 0) (decimalDigits n.natAbs) := by
  cases n with
  | ofNat m => exact Nat.toList_repr
  | negSucc m =>
      change ("-" ++ (m + 1).repr).toList = _
      have hnegative : decide (Int.negSucc m < 0) = true := decide_eq_true (Int.negSucc_lt_zero m)
      rw [String.toList_append, Nat.toList_repr, hnegative]
      rfl

theorem numeric_toString (n : Int) : AllNumeric (toString n).toList := by
  rw [toList_toString]
  exact numeric_signed (numeric_decimalDigits n.natAbs)

theorem numeric_positionalText {zero : Bool} {place : Int} (h : AllNumeric ds) :
    AllNumeric (positionalText zero ds place) := by
  intro c hc
  unfold positionalText at hc
  extract_lets whole at hc
  split_ifs at hc <;>
    simp only [List.mem_cons, List.mem_append, List.mem_replicate, List.not_mem_nil, or_false] at hc
  · rcases hc with rfl | rfl | ⟨_, rfl⟩ | hc
    exacts [rfl, rfl, rfl, h c hc]
  · rcases hc with (hc | ⟨_, rfl⟩) | rfl | rfl
    exacts [h c hc, rfl, rfl, rfl]
  · rcases hc with hc | ⟨_, rfl⟩
    exacts [h c hc, rfl]
  · rcases hc with hc | rfl | hc
    exacts [h c (List.mem_of_mem_take hc), rfl, h c (List.mem_of_mem_drop hc)]

theorem numeric_scientificText {exponent : Int} (h : AllNumeric ds) :
    AllNumeric (scientificText ds exponent) := by
  have hsign : isNumeric (if exponent < 0 then '-' else '+') = true := by split_ifs <;> rfl
  unfold scientificText
  refine List.forall_mem_append.mpr ⟨?_, ?_⟩
  · match ds, h with
    | [], h => exact h
    | [_], h => exact h
    | d :: e :: rest, h =>
        obtain ⟨hd, hrest⟩ := List.forall_mem_cons.mp h
        exact List.forall_mem_cons.mpr ⟨hd, List.forall_mem_cons.mpr ⟨rfl, hrest⟩⟩
  · exact List.forall_mem_cons.mpr
      ⟨rfl, List.forall_mem_cons.mpr ⟨hsign, numeric_decimalDigits exponent.natAbs⟩⟩

theorem numeric_finiteText (layout : Layout) (negative : Bool) (significand : Nat)
    (exponent : Int) : AllNumeric (layout.finiteText negative significand exponent) := by
  unfold Layout.finiteText
  extract_lets decimal digits first positional
  have hdigits : AllNumeric digits := numeric_decimalDigits _
  split_ifs
  · exact numeric_signed (List.all_eq_true.mp rfl)
  · exact numeric_signed (List.all_eq_true.mp rfl)
  · exact numeric_signed (numeric_positionalText hdigits)
  · exact numeric_signed (numeric_scientificText hdigits)

end Written

section Read
variable {cs : List Char}

theorem toLower_of_isDigit {c : Char} (h : isDigit c = true) : c.toLower = c := by
  simp only [isDigit, Char.le_def, Bool.and_eq_true, decide_eq_true_eq] at h
  unfold Char.toLower
  rw [dif_neg]
  rintro ⟨hupper, _⟩
  have : '9'.val < 'A'.val := by decide
  exact absurd (UInt32.lt_of_lt_of_le this hupper) (UInt32.not_lt.mpr h.2)

theorem isNumeric_toLower {c : Char} (h : isNumeric c = true) : isNumeric c.toLower = true := by
  by_cases hdigit : isDigit c = true
  · rwa [toLower_of_isDigit hdigit]
  · simp only [isNumeric, hdigit, Bool.false_or, Bool.or_eq_true, beq_iff_eq] at h
    rcases h with ((rfl | rfl) | rfl) | rfl <;> decide

/-- A text of numeric characters, in which letters may be great. -/
abbrev LooselyNumeric (cs : List Char) : Prop := ∀ c ∈ cs, isNumeric c.toLower = true

theorem looselyNumeric_of_digits (h : cs.all isDigit = true) : LooselyNumeric cs :=
  fun c hc => isNumeric_toLower (isNumeric_of_isDigit (List.all_eq_true.mp h c hc))

theorem looselyNumeric_natural? {n : Nat} (h : natural? cs = some n) : LooselyNumeric cs := by
  unfold natural? at h
  split_ifs at h with hall
  exact looselyNumeric_of_digits (Bool.and_eq_true_iff.mp hall).2

theorem looselyNumeric_of_splitSign (h : LooselyNumeric (splitSign cs).2) : LooselyNumeric cs := by
  unfold splitSign at h
  split at h
  · exact List.forall_mem_cons.mpr ⟨rfl, h⟩
  · exact List.forall_mem_cons.mpr ⟨rfl, h⟩
  · exact h

theorem looselyNumeric_exponentPart {n : Int} (h : exponentPart cs = some n) :
    LooselyNumeric cs := by
  unfold exponentPart at h
  split at h
  · intro c hc
    cases hc
  · rename_i c rest
    split_ifs at h with hmark
    obtain ⟨_, hvalue, -⟩ := Option.map_eq_some_iff.mp h
    obtain ⟨m, hdigits, -⟩ := Option.bind_eq_some_iff.mp hvalue
    have hrest : LooselyNumeric (splitSign rest).2 := looselyNumeric_natural? hdigits
    refine List.forall_mem_cons.mpr ⟨?_, looselyNumeric_of_splitSign hrest⟩
    rcases Bool.or_eq_true_iff.mp hmark with he | he
    · rw [beq_iff_eq.mp he]
      rfl
    · rw [beq_iff_eq.mp he]
      rfl

theorem looselyNumeric_decimalNumeral {negative : Bool} {x : Binary64}
    (h : decimalNumeral negative cs = some x) : cs ≠ [] ∧ LooselyNumeric cs := by
  have hwhole : LooselyNumeric (cs.takeWhile isDigit) := looselyNumeric_of_digits List.all_takeWhile
  have hcs : cs.takeWhile isDigit ++ cs.dropWhile isDigit = cs := List.takeWhile_append_dropWhile
  constructor
  · rintro rfl
    cases h
  rw [← hcs]
  refine List.forall_mem_append.mpr ⟨hwhole, ?_⟩
  unfold decimalNumeral at h
  extract_lets whole at h
  split at h
  rename_i fraction rest hafter
  extract_lets digits at h
  split_ifs at h
  obtain ⟨n, hn, -⟩ := Option.map_eq_some_iff.mp h
  have hrest := looselyNumeric_exponentPart hn
  split at hafter
  · rename_i after hpoint
    obtain ⟨rfl, rfl⟩ := Prod.mk.inj hafter
    rw [hpoint]
    refine List.forall_mem_cons.mpr ⟨rfl, ?_⟩
    rw [← List.takeWhile_append_dropWhile (p := isDigit) (l := after)]
    exact List.forall_mem_append.mpr ⟨looselyNumeric_of_digits List.all_takeWhile, hrest⟩
  · obtain ⟨rfl, rfl⟩ := Prod.mk.inj hafter
    exact hrest

/-- The words that are read as numbers. -/
def numberWords : List (List Char) := ["inf".toList, "infinity".toList, "nan".toList]

/-- A numeral is made of numeric characters, or is a word after an optional sign. -/
theorem float?_eq_some {x : Binary64} (h : float? cs = some x) :
    (cs ≠ [] ∧ LooselyNumeric cs) ∨ (splitSign cs).2.map Char.toLower ∈ numberWords := by
  unfold float? at h
  split at h
  rename_i negative rest hsplit
  extract_lets word at h
  have hrest : (splitSign cs).2 = rest := by rw [hsplit]
  rw [hrest]
  split_ifs at h with hinf hnan
  · right
    rcases Bool.or_eq_true_iff.mp hinf with hw | hw
    · exact List.mem_cons.mpr (.inl (beq_iff_eq.mp hw))
    · exact List.mem_cons_of_mem _ (List.mem_cons.mpr (.inl (beq_iff_eq.mp hw)))
  · right
    exact List.mem_cons_of_mem _
      (List.mem_cons_of_mem _ (List.mem_singleton.mpr (beq_iff_eq.mp hnan)))
  · left
    obtain ⟨hne, hnumeric⟩ := looselyNumeric_decimalNumeral h
    refine ⟨?_, looselyNumeric_of_splitSign (hrest ▸ hnumeric)⟩
    rintro rfl
    exact hne (by simpa [splitSign] using hrest.symm)

/-- A character of a numeral: a numeric one, or a letter of the words for infinity and
not-a-number. -/
def isNumeralChar (c : Char) : Bool :=
  isNumeric c.toLower || ['i', 'n', 'f', 't', 'y', 'a'].contains c.toLower

theorem isNumeralChar_of_float? {x : Binary64} (h : float? cs = some x) :
    ∀ c ∈ cs, isNumeralChar c = true := by
  rcases float?_eq_some h with ⟨_, hnumeric⟩ | hword
  · intro c hc
    rw [isNumeralChar, hnumeric c hc, Bool.true_or]
  · have hletters : ∀ c ∈ (splitSign cs).2, isNumeralChar c = true := by
      intro c hc
      have hall :
        numberWords.all (·.all ['i', 'n', 'f', 't', 'y', 'a'].contains) = true := by decide
      have hletter :=
        List.all_eq_true.mp (List.all_eq_true.mp hall _ hword) _ (List.mem_map_of_mem hc)
      rw [isNumeralChar, hletter, Bool.or_true]
    unfold splitSign at hletters
    split at hletters
    · exact List.forall_mem_cons.mpr ⟨rfl, hletters⟩
    · exact List.forall_mem_cons.mpr ⟨rfl, hletters⟩
    · exact hletters

theorem visible_of_isNumeralChar {c : Char} (h : isNumeralChar c = true) : '!' ≤ c ∧ c ≤ '~' := by
  have hlower : '!' ≤ c.toLower ∧ c.toLower ≤ '~' := by
    simp only [isNumeralChar, isNumeric, isDigit, Bool.or_eq_true, Bool.and_eq_true, beq_iff_eq,
      decide_eq_true_eq, List.contains_iff_mem, List.mem_cons, List.not_mem_nil, or_false] at h
    generalize c.toLower = d at h
    rcases h with ((((⟨h0, h9⟩ | rfl) | rfl) | rfl) | rfl) | rfl | rfl | rfl | rfl | rfl | rfl
    · exact ⟨Char.le_trans (by decide) h0, Char.le_trans h9 (by decide)⟩
    all_goals decide
  unfold Char.toLower at hlower
  split at hlower
  · rename_i hupper
    simp only [Char.le_def, UInt32.le_iff_toNat_le, ge_iff_le] at hupper ⊢
    exact ⟨Nat.le_trans (by decide) hupper.1, Nat.le_trans hupper.2 (by decide)⟩
  · exact hlower
end Read

end SqlGateway.Number
