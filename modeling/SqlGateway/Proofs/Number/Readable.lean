import SqlGateway.Proofs.Number.Written

/-!
# Numerals of written numbers

What a decimal numeral is read as, by its sign, its digits on both sides of the point and its
exponent. So every number that is written is a numeral.
-/
namespace SqlGateway.Number

section Decimal
variable {whole fraction rest cs : List Char} {negative : Bool} {c : Char}

/-- A text in which no digit stands first. -/
abbrev EndsDigits (cs : List Char) : Prop := ∀ c ∈ cs.head?, isDigit c = false

theorem takeWhile_digits (hdigits : ∀ c ∈ whole, isDigit c = true) (hrest : EndsDigits rest) :
    (whole ++ rest).takeWhile isDigit = whole ∧ (whole ++ rest).dropWhile isDigit = rest := by
  rw [List.takeWhile_append_of_pos hdigits, List.dropWhile_append_of_pos hdigits]
  cases rest with
  | nil => simp
  | cons c rest =>
      have hc : isDigit c = false := hrest c rfl
      simp [hc]

/-- A numeral without a point. -/
theorem decimalNumeral_whole (hwhole : ∀ c ∈ whole, isDigit c = true) (hne : whole ≠ [])
    (hrest : EndsDigits rest) (hpoint : rest.head? ≠ some '.') :
    decimalNumeral negative (whole ++ rest) =
      (exponentPart rest).map (Binary64.ofDecimal negative (digitsValue whole)) := by
  obtain ⟨htake, hdrop⟩ := takeWhile_digits hwhole hrest
  unfold decimalNumeral
  rw [htake, hdrop]
  split
  rename_i fraction after hafter
  have hparts : ([], rest) = (fraction, after) := by
    split at hafter
    · exact absurd rfl hpoint
    · exact hafter
  obtain ⟨rfl, rfl⟩ := Prod.mk.inj hparts
  simp [hne]

/-- A numeral with a point and digits on one side of it at least. -/
theorem decimalNumeral_point (hwhole : ∀ c ∈ whole, isDigit c = true)
    (hfraction : ∀ c ∈ fraction, isDigit c = true) (hne : whole ++ fraction ≠ [])
    (hrest : EndsDigits rest) : decimalNumeral negative (whole ++ '.' :: (fraction ++ rest)) =
      (exponentPart rest).map fun exponent =>
        Binary64.ofDecimal negative (digitsValue (whole ++ fraction))
          (exponent - fraction.length) := by
  have hdot : EndsDigits ('.' :: (fraction ++ rest)) := by
    rintro c ⟨⟩
    rfl
  obtain ⟨htake, hdrop⟩ := takeWhile_digits hwhole hdot
  obtain ⟨htake', hdrop'⟩ := takeWhile_digits hfraction hrest
  unfold decimalNumeral
  rw [htake, hdrop]
  simp only [htake', hdrop', List.isEmpty_eq_false_iff.mpr hne, Bool.false_eq_true, if_false]

/-- After its sign a numeral is read by its digits, if it has one in front. -/
theorem float?_signed (hc : isDigit c = true) :
    float? (signed negative (c :: cs)) = decimalNumeral negative (c :: cs) := by
  have hsplit : splitSign (signed negative (c :: cs)) = (negative, c :: cs) := by
    cases negative with
    | true => rfl
    | false =>
        unfold signed splitSign
        split
        · rename_i heq
          obtain ⟨rfl, _⟩ := List.cons.inj heq
          cases hc
        · rename_i heq
          obtain ⟨rfl, _⟩ := List.cons.inj heq
          cases hc
        · rfl
  have hlower : asciiLower c = c := toLower_of_isDigit hc
  have hi : c ≠ 'i' := by
    rintro rfl
    cases hc
  have hn : c ≠ 'n' := by
    rintro rfl
    cases hc
  simp [float?, hsplit, hlower, hi, hn]

/-- A text that a numeral can be read from. -/
abbrev Readable (cs : List Char) : Prop := (float? cs).isSome = true

theorem readable_whole (hwhole : ∀ c ∈ whole, isDigit c = true) (hne : whole ≠ [])
    (hrest : EndsDigits rest) (hpoint : rest.head? ≠ some '.')
    (hexponent : (exponentPart rest).isSome = true) :
    Readable (signed negative (whole ++ rest)) := by
  obtain ⟨c, more, rfl⟩ := List.exists_cons_of_ne_nil hne
  have hread : float? (signed negative (c :: (more ++ rest))) =
      decimalNumeral negative (c :: (more ++ rest)) := float?_signed (hwhole c List.mem_cons_self)
  unfold Readable
  rw [List.cons_append, hread, ← List.cons_append, decimalNumeral_whole hwhole hne hrest hpoint,
    Option.isSome_map, hexponent]

theorem readable_point (hwhole : ∀ c ∈ whole, isDigit c = true) (hne : whole ≠ [])
    (hfraction : ∀ c ∈ fraction, isDigit c = true) (hrest : EndsDigits rest)
    (hexponent : (exponentPart rest).isSome = true) :
    Readable (signed negative (whole ++ '.' :: (fraction ++ rest))) := by
  obtain ⟨c, more, rfl⟩ := List.exists_cons_of_ne_nil hne
  have hread : float? (signed negative (c :: (more ++ '.' :: (fraction ++ rest)))) =
      decimalNumeral negative (c :: (more ++ '.' :: (fraction ++ rest))) :=
    float?_signed (hwhole c List.mem_cons_self)
  unfold Readable
  rw [List.cons_append, hread, ← List.cons_append, decimalNumeral_point hwhole hfraction
    (by simp) hrest, Option.isSome_map, hexponent]

theorem readable_digits (hwhole : ∀ c ∈ whole, isDigit c = true) (hne : whole ≠ []) :
    Readable (signed negative whole) := by
  have hread : Readable (signed negative (whole ++ [])) :=
    readable_whole hwhole hne nofun nofun rfl
  simpa using hread

theorem readable_fraction (hwhole : ∀ c ∈ whole, isDigit c = true) (hne : whole ≠ [])
    (hfraction : ∀ c ∈ fraction, isDigit c = true) :
    Readable (signed negative (whole ++ '.' :: fraction)) := by
  have hread : Readable (signed negative (whole ++ '.' :: (fraction ++ []))) :=
    readable_point hwhole hne hfraction nofun rfl
  simpa using hread

theorem digits_zero : ∀ c ∈ ['0'], isDigit c = true := by decide

theorem digits_replicate (n : Nat) : ∀ c ∈ List.replicate n '0', isDigit c = true := by
  intro c hc
  rw [List.eq_of_mem_replicate hc]
  rfl

theorem readable_positionalText {zero : Bool} {place : Int} (hwhole : ∀ c ∈ whole, isDigit c = true)
    (hne : whole ≠ []) : Readable (signed negative (positionalText zero whole place)) := by
  unfold positionalText
  extract_lets count
  split_ifs with hplace hlength
  · have hfraction := List.forall_mem_append.mpr ⟨digits_replicate (-place).toNat, hwhole⟩
    exact readable_fraction digits_zero (by simp) hfraction
  · have hdigits := List.forall_mem_append.mpr ⟨hwhole, digits_replicate (count - whole.length)⟩
    exact readable_fraction hdigits (by simp [hne]) digits_zero
  · have hdigits := List.forall_mem_append.mpr ⟨hwhole, digits_replicate (count - whole.length)⟩
    rw [List.append_nil]
    exact readable_digits hdigits (by simp [hne])
  · have htake : whole.take count ≠ [] := by
      simp only [count, ne_eq, List.take_eq_nil_iff, hne, or_false]
      omega
    exact readable_fraction (fun c hc => hwhole c (List.mem_of_mem_take hc)) htake
      fun c hc => hwhole c (List.mem_of_mem_drop hc)

theorem isSome_exponentPart (n : Int) :
    (exponentPart ('e' :: (if n < 0 then '-' else '+') :: decimalDigits n.natAbs)).isSome =
      true := by
  split_ifs <;> simp [exponentPart, splitSign, natural?_decimalDigits]

theorem readable_scientificText {exponent : Int} (hwhole : ∀ c ∈ whole, isDigit c = true)
    (hne : whole ≠ []) : Readable (signed negative (scientificText whole exponent)) := by
  have hmark : EndsDigits ('e' :: (if exponent < 0 then '-' else '+') ::
      decimalDigits exponent.natAbs) := by
    rintro c ⟨⟩
    rfl
  unfold scientificText
  match whole, hne with
  | [d], hne => exact readable_whole hwhole hne hmark (by simp) (isSome_exponentPart exponent)
  | d :: e :: more, _ =>
      obtain ⟨hd, hmore⟩ := List.forall_mem_cons.mp hwhole
      have hfirst : ∀ c ∈ [d], isDigit c = true := List.forall_mem_singleton.mpr hd
      exact readable_point hfirst (by simp) hmore hmark (isSome_exponentPart exponent)

/-- Every finite number that is written can be read. -/
theorem readable_finiteText (layout : Layout) (significand : Nat) (exponent : Int) :
    Readable (layout.finiteText negative significand exponent) := by
  unfold Layout.finiteText
  extract_lets decimal digits first positional
  have hdigits : ∀ c ∈ digits, isDigit c = true := fun c hc => isDigit_of_mem_decimalDigits hc
  have hne : digits ≠ [] := Nat.toDigits_ne_nil
  split_ifs
  · exact readable_fraction digits_zero (by simp) digits_zero
  · exact readable_digits digits_zero (by simp)
  · exact readable_positionalText hdigits hne
  · exact readable_scientificText hdigits hne

theorem readable_toString (n : Int) : Readable (toString n).toList := by
  rw [toList_toString]
  exact readable_digits (fun c hc => isDigit_of_mem_decimalDigits hc) Nat.toDigits_ne_nil

end Decimal

end SqlGateway.Number
