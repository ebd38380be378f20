import Mathlib.Algebra.Order.Floor.Semifield
import SqlGateway.Number.Word
import SqlGateway.Proofs.Number.Rounding

/-!
# Exact decimals and integers

Every finite floating-point number is a decimal, since two divides ten, and this decimal reads back
as the number. And every integer of up to 53 bits is a floating-point number.

A decimal that is an integer can get lost on its way through a floating-point number. It is rounded
to the nearest one, which is cut off to an integer and clamped to a range. It comes back just if it
is a floating-point number itself, or if it is the greatest integer of the range, which every
greater number is clamped to.
-/
namespace SqlGateway.Number

section Exact
variable {negative : Bool} {s num den : Nat} {e : Int}

/-- The last place of an exact number is its exponent. -/
theorem lastPlace_eq (hc : IsCanonical s e) (hs : 0 < s) (hnum : 0 < num) (hden : 0 < den)
    (hvalue : (num : ℚ) / den = s * 2 ^ e) : Format.double.lastPlace num den = e := by
  obtain ⟨hless, hleast, _, hfull⟩ := hc
  have hlog : s.log2 < 53 := (Nat.log2_lt (Nat.pos_iff_ne_zero.mp hs)).mpr hless
  have hplace : Format.double.lastPlace num den = max (-1074) (s.log2 + e + 1 - 53) := by
    rw [Format.lastPlace, binaryMagnitude_eq_log hnum hden, hvalue, log_mul_zpow hs]
    rfl
  rw [hplace]
  rcases hfull with rfl | hfull
  · omega
  · have hlogFull : 52 ≤ s.log2 := (Nat.le_log2 (Nat.pos_iff_ne_zero.mp hs)).mpr hfull
    omega

/-- A fraction that is a number of the format is rounded to it. -/
theorem ofFraction_exact (hc : IsCanonical s e) (hs : 0 < s) (hden : 0 < den)
    (hvalue : (num : ℚ) / den = s * 2 ^ e) :
    Binary64.ofFraction negative num den = .finite negative s e := by
  have hdenPos : (0 : ℚ) < den := by exact_mod_cast hden
  have hnum : 0 < num := by
    refine Nat.pos_iff_ne_zero.mpr ?_
    rintro rfl
    rw [Nat.cast_zero, zero_div] at hvalue
    have hpos : (0 : ℚ) < s * 2 ^ e := mul_pos (by exact_mod_cast hs) (two_zpow_pos e)
    exact absurd hvalue hpos.ne
  have hplace := lastPlace_eq hc hs hnum hden hvalue
  obtain ⟨hless, _, hgreatest, _⟩ := hc
  have hpower := powerFraction_pos (by decide : 0 < 2) (-e)
  have hpowerPos : (0 : ℚ) < (powerFraction 2 (-e)).2 := by exact_mod_cast hpower.2
  have hscaled : num * (powerFraction 2 (-e)).1 = s * (den * (powerFraction 2 (-e)).2) := by
    have hpowerValue := powerFraction_eq 2 (-e)
    rw [div_eq_iff hpowerPos.ne', Nat.cast_ofNat] at hpowerValue
    have hnumValue : (num : ℚ) = s * 2 ^ e * den := (div_eq_iff hdenPos.ne').mp hvalue
    have hcancel : (2 : ℚ) ^ e * 2 ^ (-e) = 1 := by
      rw [← zpow_add₀ (by decide), add_neg_cancel, zpow_zero]
    have hrat : (num : ℚ) * (powerFraction 2 (-e)).1 = s * (den * (powerFraction 2 (-e)).2) := by
      calc (num : ℚ) * (powerFraction 2 (-e)).1
          = s * (den * (powerFraction 2 (-e)).2) * (2 ^ e * 2 ^ (-e)) := by
            rw [hnumValue, hpowerValue]
            ring
        _ = s * (den * (powerFraction 2 (-e)).2) := by rw [hcancel, mul_one]
    exact_mod_cast hrat
  have hround : roundHalfEven (scaled num den 2 (-e)).1 (scaled num den 2 (-e)).2 = s := by
    rw [scaled, hscaled]
    exact roundHalfEven_of_dvd s (Nat.mul_pos hden hpower.2)
  have hcarried : ¬ s = Nat.pow 2 Format.double.precision := Nat.ne_of_lt hless
  have hin : ¬ Format.double.greatest < e := Int.not_lt.mpr hgreatest
  simp only [Binary64.ofFraction, Format.nearest, if_neg (Nat.pos_iff_ne_zero.mp hnum),
    hplace, hround, if_neg hcarried, if_neg hin]

end Exact

/-- The digits and the exponent of the decimal `s · 2 ^ e`, with a power of five for every missing
two. -/
def exactDecimal (s : Nat) (e : Int) : Nat × Int :=
  if 0 ≤ e then (s * Nat.pow 2 e.toNat, 0) else (s * Nat.pow 5 (-e).toNat, e)

theorem exactDecimal_value (s : Nat) (e : Int) :
    ((exactDecimal s e).1 : ℚ) * 10 ^ (exactDecimal s e).2 = s * 2 ^ e := by
  rw [exactDecimal]
  split_ifs with he
  · obtain ⟨n, rfl⟩ := Int.eq_ofNat_of_zero_le he
    dsimp only
    rw [zpow_zero, mul_one, zpow_natCast, Int.toNat_natCast]
    exact_mod_cast rfl
  · obtain ⟨k, rfl⟩ := Int.exists_eq_neg_ofNat (Int.le_of_lt (Int.not_le.mp he))
    have hten : (5 : ℚ) ^ k * 10 ^ (-(k : Int)) = 2 ^ (-(k : Int)) := by
      rw [zpow_neg, zpow_neg, zpow_natCast, zpow_natCast, show (10 : ℚ) =
        5 * 2 by norm_num, mul_pow,
        mul_inv, ← mul_assoc, mul_inv_cancel₀ (pow_ne_zero k (by decide)), one_mul]
    dsimp only
    rw [Int.neg_neg, Int.toNat_natCast, ← hten, ← mul_assoc]
    exact_mod_cast rfl

/-- The exact decimal of a number reads back as the number. -/
theorem ofDecimal_exact {negative : Bool} {s : Nat} {e : Int} (hc : IsCanonical s e) :
    Binary64.ofDecimal negative (exactDecimal s e).1 (exactDecimal s e).2 =
      .finite negative s e := by
  rw [ofDecimal_eq]
  rcases Nat.eq_zero_or_pos s with rfl | hs
  · obtain ⟨_, _, _, hfull⟩ := hc
    obtain rfl : e = -1074 := hfull.resolve_right (by decide)
    have hzero : (scaled (exactDecimal 0 (-1074)).1 1 10 (exactDecimal 0 (-1074)).2).1 = 0 := by
      rw [exactDecimal, if_neg (by decide), Nat.zero_mul, scaled, Nat.zero_mul]
    rw [hzero]
    rfl
  · refine ofFraction_exact hc hs (scaled_pos _ Nat.one_pos (by decide) _) ?_
    rw [scaled_eq, Nat.cast_one, div_one, Nat.cast_ofNat, exactDecimal_value]

section Integers
variable {negative : Bool} {s : Nat} {e n : Int}

/-- What is left of a number without its fraction. -/
theorem truncate?_finite (negative : Bool) (s : Nat) (e : Int) :
    (Binary64.finite negative s e).truncate? =
    some (if negative then -(⌊(s * 2 ^ e : ℚ)⌋₊ : Int) else ⌊(s * 2 ^ e : ℚ)⌋₊) := by
  have hfloor : ⌊(s * 2 ^ e : ℚ)⌋₊ = (Binary64.magnitude s e).1 / (Binary64.magnitude s e).2 := by
    have hvalue := scaled_eq s 1 2 e
    rw [Nat.cast_one, div_one, Nat.cast_ofNat] at hvalue
    rw [← hvalue]
    exact Nat.floor_div_eq_div _ _
  rw [Binary64.truncate?, hfloor]
  norm_cast

theorem abs_signedValue (negative : Bool) (s : Nat) (e : Int) :
    |signedValue negative s e| = s * 2 ^ e := by
  have hnonneg : (0 : ℚ) ≤ s * 2 ^ e := mul_nonneg (Nat.cast_nonneg s) (two_zpow_pos e).le
  cases negative <;> simp [signedValue, abs_of_nonneg hnonneg]

/-- A number that is an integer is left as it is. -/
theorem truncate?_of_signedValue (h : signedValue negative s e = n) :
    (Binary64.finite negative s e).truncate? = some n := by
  have hmagnitude : (s * 2 ^ e : ℚ) = n.natAbs := by
    rw [← abs_signedValue negative, h, ← Int.cast_abs, Int.abs_eq_natAbs, Int.cast_natCast]
  rw [signedValue, hmagnitude] at h
  rw [truncate?_finite, hmagnitude, Nat.floor_natCast]
  congr 1
  cases negative with
  | true =>
      have hn : -(n.natAbs : Int) = n := by
        rw [if_pos rfl, neg_one_mul] at h
        exact_mod_cast h
      rwa [if_pos rfl]
  | false =>
      have hn : (n.natAbs : Int) = n := by
        rw [if_neg (by decide), one_mul, ← Int.cast_natCast] at h
        exact Int.cast_injective h
      rwa [if_neg (by decide)]

/-- An integer that is a number of the format. -/
def IsDouble (n : Int) : Prop := ∃ negative s e, IsCanonical s e ∧ signedValue negative s e = n

/-- An integer of up to 53 bits is a number. -/
theorem ofInt_exact (h : n.natAbs < Nat.pow 2 53) :
    ∃ s e, IsCanonical s e ∧ Binary64.ofInt n = .finite (n < 0) s e ∧
    signedValue (n < 0) s e = n := by
  rcases Nat.eq_zero_or_pos n.natAbs with hzero | hpos
  · obtain rfl := Int.natAbs_eq_zero.mp hzero
    exact ⟨0, -1074, by decide, by decide, by simp [signedValue]⟩
  -- The significand is filled up to its 53 bits, so the exponent is the negative of the bits that
  -- are added.
  have hlog : n.natAbs.log2 ≤ 52 :=
    Nat.lt_succ_iff.mp ((Nat.log2_lt (Nat.pos_iff_ne_zero.mp hpos)).mpr h)
  obtain ⟨k, hk⟩ := Nat.exists_eq_add_of_le hlog
  have hcanonical : IsCanonical (n.natAbs * 2 ^ k) (-k) := by
    refine ⟨?_, by omega, by omega, .inr ?_⟩
    · calc n.natAbs * 2 ^ k < 2 ^ (n.natAbs.log2 + 1) * 2 ^ k :=
            Nat.mul_lt_mul_of_pos_right Nat.lt_log2_self (Nat.pow_pos (by decide))
        _ = 2 ^ 53 := by rw [← Nat.pow_add, Nat.add_right_comm, ← hk]
    · calc 2 ^ 52 = 2 ^ n.natAbs.log2 * 2 ^ k := by rw [← Nat.pow_add, ← hk]
        _ ≤ n.natAbs * 2 ^ k :=
            Nat.mul_le_mul_right _ (Nat.log2_self_le (Nat.pos_iff_ne_zero.mp hpos))
  have hvalue : ((n.natAbs : ℕ) : ℚ) / (1 : ℕ) = (n.natAbs * 2 ^ k : ℕ) * 2 ^ (-(k : Int)) := by
    rw [Nat.cast_one, div_one, zpow_neg, zpow_natCast, Nat.cast_mul, Nat.cast_pow,
      Nat.cast_ofNat, mul_assoc, mul_inv_cancel₀ (pow_ne_zero k (by decide)), mul_one]
  refine ⟨_, _, hcanonical, ofFraction_exact hcanonical (Nat.mul_pos hpos (Nat.pow_pos (by decide)))
    Nat.one_pos hvalue, ?_⟩
  rw [signedValue, ← hvalue, Nat.cast_one, div_one]
  rcases lt_or_ge n 0 with hneg | hnonneg
  · have hn : -(n.natAbs : Int) = n := by omega
    rw [if_pos (decide_eq_true hneg), neg_one_mul]
    exact_mod_cast hn
  · have hn : (n.natAbs : Int) = n := by omega
    rw [if_neg (by simpa using hnonneg), one_mul, ← Int.cast_natCast, hn]

theorem isDouble_of_lt (h : n.natAbs < Nat.pow 2 53) : IsDouble n := by
  obtain ⟨s, e, hcanonical, _, hvalue⟩ := ofInt_exact h
  exact ⟨_, s, e, hcanonical, hvalue⟩

/-- No fraction is cut off from an integer of up to 53 bits. -/
theorem truncate?_ofInt (h : n.natAbs < Nat.pow 2 53) :
    (Binary64.ofInt n).isFinite = true ∧ (Binary64.ofInt n).truncate? = some n := by
  obtain ⟨s, e, _, hfinite, hvalue⟩ := ofInt_exact h
  rw [hfinite]
  exact ⟨rfl, truncate?_of_signedValue hvalue⟩

/-- So it is cut off to itself in every range that holds it. -/
theorem truncateInto_ofInt {least greatest : Int} (h : n.natAbs < Nat.pow 2 53) (hleast : least ≤ n)
    (hgreatest : n ≤ greatest) : (Binary64.ofInt n).truncateInto least greatest = n := by
  obtain ⟨hfinite, htruncate⟩ := truncate?_ofInt h
  generalize Binary64.ofInt n = x at hfinite htruncate
  cases x with
  | finite negative s e =>
      rw [Binary64.truncateInto, htruncate, Option.getD_some]
      omega
  | infinite => cases hfinite
  | nan => cases hfinite

end Integers

section CutOff
variable {negative : Bool} {s : Nat} {e n least greatest : Int}

/-- The integer that is left of a number is a number as well. -/
theorem isDouble_of_truncate? (hc : IsCanonical s e)
    (h : (Binary64.finite negative s e).truncate? = some n) : IsDouble n := by
  rcases lt_or_ge e 0 with he | he
  · have hfloor : ⌊(s * 2 ^ e : ℚ)⌋₊ ≤ s :=
      Nat.floor_le_of_le
        (mul_le_of_le_one_right (Nat.cast_nonneg s) (zpow_le_one_of_nonpos₀ (by norm_num) he.le))
    refine isDouble_of_lt (lt_of_le_of_lt ?_ hc.1)
    rw [truncate?_finite] at h
    obtain rfl := Option.some.inj h
    split_ifs <;> omega
  · obtain ⟨m, hm⟩ := exists_units_eq_signedValue negative s he
    rw [zpow_zero, mul_one] at hm
    obtain rfl : m = n := Option.some.inj ((truncate?_of_signedValue hm).symm.trans h)
    exact ⟨negative, s, e, hc, hm⟩

theorem truncateInto_finite (h : (Binary64.finite negative s e).truncate? = some n) :
    (Binary64.finite negative s e).truncateInto least greatest = max least (min greatest n) := by
  rw [Binary64.truncateInto, h, Option.getD_some]

/-- The nearest number to a number is this number. -/
theorem IsNearest.signedValue_eq {q : ℚ} (h : IsNearest q negative s e) (hn : IsDouble n)
    (hq : q = n) : signedValue negative s e = n := by
  obtain ⟨b, t, k, hc, hvalue⟩ := hn
  have hle := h.nearest b t k hc
  rw [hvalue, hq, sub_self, abs_zero] at hle
  exact (sub_eq_zero.mp (abs_nonpos_iff.mp hle)).symm

theorem isDouble_two_pow {k : Nat} (hk : k ≤ 1023) : IsDouble (2 ^ k) ∧ IsDouble (-2 ^ k) := by
  have hc : IsCanonical (2 ^ 52) (k - 52) := ⟨by decide, by omega, by omega, .inr le_rfl⟩
  have hvalue : ((2 ^ 52 : ℕ) : ℚ) * 2 ^ ((k : Int) - 52) = 2 ^ k := by
    rw [Nat.cast_pow, Nat.cast_ofNat, ← zpow_natCast, ← zpow_add₀ (by decide), ← zpow_natCast]
    congr 1
    omega
  refine ⟨⟨false, _, _, hc, ?_⟩, ⟨true, _, _, hc, ?_⟩⟩
  · rw [signedValue, hvalue]
    simp
  · rw [signedValue, hvalue]
    simp

/-- A number with more bits than its significand has zeros behind them. -/
theorem exists_multiple (hc : IsCanonical s e) {k : Nat} (h : (2 : ℚ) ^ (53 + k) ≤ s * 2 ^ e) :
    ∃ units : Nat, (s : ℚ) * 2 ^ e = (2 ^ k * units : ℕ) := by
  have hexponent : (k : Int) ≤ e := by
    refine Int.not_lt.mp fun hless => not_lt.mpr h ?_
    have hs : (s : ℚ) < 2 ^ 53 := by exact_mod_cast hc.1
    calc (s : ℚ) * 2 ^ e < 2 ^ 53 * 2 ^ e := mul_lt_mul_of_pos_right hs (two_zpow_pos e)
      _ ≤ 2 ^ 53 * 2 ^ (k : Int) :=
          mul_le_mul_of_nonneg_left (zpow_le_zpow_right₀ (by norm_num) hless.le) (by norm_num)
      _ = 2 ^ (53 + k) := by rw [zpow_natCast, pow_add]
  obtain ⟨j, rfl⟩ := Int.le.dest hexponent
  refine ⟨s * 2 ^ j, ?_⟩
  rw [zpow_add₀ (by decide), zpow_natCast, zpow_natCast]
  push_cast
  ring

/-- The greatest integer of 64 bits is rounded up. -/
theorem IsNearest.greatestInt64_le (h : IsNearest greatestInt64 negative s e) :
    negative = false ∧ (greatestInt64 : ℚ) ≤ s * 2 ^ e := by
  have hgreatest : (greatestInt64 : ℚ) = 2 ^ 63 - 1 := by norm_num [greatestInt64]
  obtain ⟨b, t, k, hc, hvalue⟩ := (isDouble_two_pow (k := 63) (by decide)).1
  have hnear := h.nearest b t k hc
  have hone : |(2 : ℚ) ^ 63 - 1 - ((2 ^ 63 : Int) : ℚ)| = 1 := by norm_num
  rw [hvalue, hgreatest, hone] at hnear
  have hleast : (2 : ℚ) ^ 63 - 2 ≤ signedValue negative s e := by
    have hbelow := (abs_le.mp hnear).2
    linarith
  have hnonneg : (0 : ℚ) ≤ s * 2 ^ e := mul_nonneg (Nat.cast_nonneg s) (two_zpow_pos e).le
  obtain rfl : negative = false := by
    refine (Bool.not_eq_true _).mp fun hnegative => ?_
    rw [hnegative, signedValue, if_pos rfl] at hleast
    norm_num at hleast
    linarith
  rw [signedValue, if_neg (by decide), one_mul] at hleast
  refine ⟨rfl, ?_⟩
  -- There is no multiple of 512 between the two integers below the power of two.
  obtain ⟨units, hunits⟩ := exists_multiple (k := 9) h.canonical (le_trans (by norm_num) hleast)
  rw [hunits] at hleast ⊢
  have hbelow : 2 ^ 63 - 2 ≤ 2 ^ 9 * units := by
    have hcast : ((2 ^ 63 - 2 : ℕ) : ℚ) ≤ (2 ^ 9 * units : ℕ) :=
      le_trans (le_of_eq (by norm_num)) hleast
    exact_mod_cast hcast
  have habove : ((2 ^ 63 - 1 : ℕ) : ℚ) ≤ (2 ^ 9 * units : ℕ) := by
    have hnat : 2 ^ 63 - 1 ≤ 2 ^ 9 * units := by omega
    exact_mod_cast hnat
  exact le_trans (le_of_eq (by norm_num [greatestInt64])) habove

theorem abs_signedRat (negative : Bool) {q : ℚ} (hq : 0 ≤ q) : |signedRat negative q| = q := by
  cases negative <;> simp [signedRat, abs_of_nonneg hq]

/-- A decimal that is an integer of a range comes back from the nearest number just if it is a
number itself, or the greatest integer of the range. That one has to be a number or the greatest of
64 bits. -/
theorem truncateInto_ofDecimal_eq_iff {digits : Nat} {power : Int}
    (hvalue : signedRat negative (digits * 10 ^ power) = n) (hrange : least ≤ n ∧ n ≤ greatest)
    (hsmall : n.natAbs ≤ 2 ^ 63) (hleast : IsDouble least)
    (hgreatest : IsDouble greatest ∨ greatest = greatestInt64) :
    (Binary64.ofDecimal negative digits power).truncateInto least greatest = n ↔ IsDouble n ∨
    n = greatest := by
  have hmagnitude : (digits * 10 ^ power : ℚ) < overflow := by
    have hnonneg : (0 : ℚ) ≤ digits * 10 ^ power :=
      mul_nonneg (Nat.cast_nonneg digits) (zpow_nonneg (by norm_num) power)
    have habs : (digits * 10 ^ power : ℚ) = n.natAbs := by
      rw [← abs_signedRat negative hnonneg, hvalue, ← Int.cast_abs, Int.abs_eq_natAbs,
        Int.cast_natCast]
    have hcast : (n.natAbs : ℚ) ≤ (2 ^ 63 : ℕ) := by exact_mod_cast hsmall
    have hpower : ((2 ^ 63 : ℕ) : ℚ) < 2 ^ (1023 : Int) := by
      rw [Nat.cast_pow, Nat.cast_ofNat, ← zpow_natCast]
      exact zpow_lt_zpow_right₀ (by norm_num) (by decide)
    rw [habs]
    exact (hcast.trans_lt hpower).trans_le overflow_bounds.1
  obtain ⟨s, e, hfinite, hnear⟩ := (ofDecimal_nearest negative digits power).1 hmagnitude
  rw [hvalue] at hnear
  rw [hfinite]
  constructor
  · intro hback
    have htruncate := truncate?_finite negative s e
    have hcut := isDouble_of_truncate? hnear.canonical htruncate
    rw [truncateInto_finite htruncate] at hback
    generalize (if negative then -(⌊(s * 2 ^ e : ℚ)⌋₊ : Int) else ⌊(s * 2 ^ e : ℚ)⌋₊) =
      cut at hback hcut
    rcases lt_trichotomy cut n with hless | rfl | hmore
    · obtain rfl : n = least := by omega
      exact .inl hleast
    · exact .inl hcut
    · exact .inr (by omega)
  · intro hback
    by_cases hn : IsDouble n
    · rw [truncateInto_finite (truncate?_of_signedValue (hnear.signedValue_eq hn rfl))]
      omega
    · obtain rfl := hback.resolve_left hn
      obtain rfl := hgreatest.resolve_left hn
      obtain ⟨rfl, hle⟩ := hnear.greatestInt64_le
      have hfloor : greatestInt64.toNat ≤ ⌊(s * 2 ^ e : ℚ)⌋₊ := Nat.le_floor hle
      rw [truncateInto_finite (truncate?_finite false s e), if_neg (by decide)]
      omega

end CutOff

end SqlGateway.Number
