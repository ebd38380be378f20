import Mathlib.Data.Int.Log
import Mathlib.Data.Rat.Floor
import Mathlib.Tactic.Linarith
import SqlGateway.Number.Binary64

/-!
# Rounding to the nearest number

A fraction is rounded to a number of the format that no other number of the format is nearer to, and
of two that are equally near to the one with the even significand. From half a place above the
greatest number on it is rounded to an infinity. So are decimals, whatever the power of ten.
-/
namespace SqlGateway.Number

open Format (double)

theorem powerFraction_eq (base : Nat) (e : Int) :
    ((powerFraction base e).1 : ℚ) / (powerFraction base e).2 = (base : ℚ) ^ e := by
  rw [powerFraction]
  split_ifs with he
  · obtain ⟨n, rfl⟩ := Int.eq_ofNat_of_zero_le he
    simp
  · obtain ⟨n, hn⟩ :=
      Int.eq_ofNat_of_zero_le (Int.neg_nonneg_of_nonpos (Int.le_of_lt (Int.not_le.mp he)))
    obtain rfl : e = -n := by omega
    simp

theorem powerFraction_pos {base : Nat} (hbase : 0 < base) (e : Int) :
    0 < (powerFraction base e).1 ∧ 0 < (powerFraction base e).2 := by
  rw [powerFraction]
  split_ifs
  · exact ⟨Nat.pow_pos hbase, Nat.one_pos⟩
  · exact ⟨Nat.one_pos, Nat.pow_pos hbase⟩

theorem scaled_pos (num : Nat) {den base : Nat} (hden : 0 < den) (hbase : 0 < base) (e : Int) :
    0 < (scaled num den base e).2 :=
  Nat.mul_pos hden (powerFraction_pos hbase e).2

theorem scaled_eq (num den base : Nat) (e : Int) :
    ((scaled num den base e).1 : ℚ) / (scaled num den base e).2 = (num : ℚ) / den * base ^ e := by
  rw [scaled, Nat.cast_mul, Nat.cast_mul, mul_div_mul_comm, powerFraction_eq]

theorem two_zpow_pos (k : Int) : (0 : ℚ) < 2 ^ k := zpow_pos (by decide) k

theorem log_eq {q : ℚ} {k : Int} (hleast : (2 : ℚ) ^ k ≤ q) (hgreatest : q < 2 ^ (k + 1)) :
    Int.log 2 q = k := by
  have hq : 0 < q := lt_of_lt_of_le (two_zpow_pos k) hleast
  refine le_antisymm (Int.lt_add_one_iff.mp ?_) ?_
  · exact (Int.lt_zpow_iff_log_lt (by decide) hq).mp (by exact_mod_cast hgreatest)
  · exact (Int.zpow_le_iff_le_log (by decide) hq).mp (by exact_mod_cast hleast)

theorem log2_bounds {n : Nat} (hn : 0 < n) :
    (2 : ℚ) ^ (n.log2 : Int) ≤ n ∧ (n : ℚ) < 2 ^ ((n.log2 : Int) + 1) := by
  have hne := Nat.pos_iff_ne_zero.mp hn
  constructor
  · exact_mod_cast Nat.log2_self_le hne
  · exact_mod_cast Nat.lt_log2_self

/-- The power of two below a fraction is the one of its logarithm. -/
theorem binaryMagnitude_eq_log {num den : Nat} (hnum : 0 < num) (hden : 0 < den) :
    binaryMagnitude num den = Int.log 2 ((num : ℚ) / den) := by
  obtain ⟨hnumLeast, hnumGreatest⟩ := log2_bounds hnum
  obtain ⟨hdenLeast, hdenGreatest⟩ := log2_bounds hden
  have hdenPos : (0 : ℚ) < den := by exact_mod_cast hden
  have hguess : (powerFraction 2 ((num.log2 : Int) - den.log2)).1 * den ≤
      num * (powerFraction 2 ((num.log2 : Int) - den.log2)).2 ↔
        (2 : ℚ) ^ ((num.log2 : Int) - den.log2) ≤ num / den := by
    have hpower := powerFraction_pos (by decide : 0 < 2) ((num.log2 : Int) - den.log2)
    have hpowerPos : (0 : ℚ) < (powerFraction 2 ((num.log2 : Int) - den.log2)).2 := by
      exact_mod_cast hpower.2
    have hvalue := powerFraction_eq 2 ((num.log2 : Int) - den.log2)
    rw [Nat.cast_ofNat] at hvalue
    rw [← hvalue, div_le_div_iff₀ hpowerPos hdenPos]
    exact_mod_cast Iff.rfl
  rw [binaryMagnitude]
  symm
  split_ifs with hle
  · refine log_eq (hguess.mp hle) ?_
    rw [div_lt_iff₀ hdenPos]
    calc (num : ℚ) < 2 ^ ((num.log2 : Int) + 1) := hnumGreatest
      _ = 2 ^ ((num.log2 : Int) - den.log2 + 1) * 2 ^ (den.log2 : Int) := by
          rw [← zpow_add₀ (by decide)]
          congr 1
          omega
      _ ≤ _ := mul_le_mul_of_nonneg_left hdenLeast (two_zpow_pos _).le
  · refine log_eq ?_ ?_
    · rw [le_div_iff₀ hdenPos]
      calc (2 : ℚ) ^ ((num.log2 : Int) - den.log2 - 1) * den
          ≤ 2 ^ ((num.log2 : Int) - den.log2 - 1) * 2 ^ ((den.log2 : Int) + 1) :=
            mul_le_mul_of_nonneg_left hdenGreatest.le (two_zpow_pos _).le
        _ = 2 ^ (num.log2 : Int) := by
            rw [← zpow_add₀ (by decide)]
            congr 1
            omega
        _ ≤ num := hnumLeast
    · rw [Int.sub_add_cancel]
      exact lt_of_not_ge fun hge => hle (hguess.mpr hge)

theorem log_mul_zpow {s : Nat} (hs : 0 < s) (e : Int) :
    Int.log 2 ((s : ℚ) * 2 ^ e) = s.log2 + e := by
  obtain ⟨hleast, hgreatest⟩ := log2_bounds hs
  refine log_eq ?_ ?_
  · rw [zpow_add₀ (by decide)]
    exact mul_le_mul_of_nonneg_right hleast (two_zpow_pos e).le
  · rw [add_right_comm, zpow_add₀ (by decide)]
    exact mul_lt_mul_of_pos_right hgreatest (two_zpow_pos e)

/-- A quotient is rounded by half of one at most, and by all of it to an even integer only. -/
theorem abs_sub_roundHalfEven (num : Nat) {den : Nat} (hden : 0 < den) :
    |(num : ℚ) / den - roundHalfEven num den| ≤ 1 / 2 ∧
      (|(num : ℚ) / den - roundHalfEven num den| = 1 / 2 → roundHalfEven num den % 2 = 0) := by
  have hdenPos : (0 : ℚ) < den := by exact_mod_cast hden
  have hdivide : (num : ℚ) / den = (num / den : Nat) + ((num % den : Nat) : ℚ) / den := by
    rw [div_eq_iff hdenPos.ne', add_mul, div_mul_cancel₀ _ hdenPos.ne']
    exact_mod_cast (Nat.div_add_mod' num den).symm
  have hless : ((num % den : Nat) : ℚ) / den < 1 := by
    rw [div_lt_one hdenPos]
    exact_mod_cast Nat.mod_lt num hden
  have hnonneg : 0 ≤ ((num % den : Nat) : ℚ) / den := by positivity
  have htwice : ((num % den : Nat) : ℚ) / den ≤ 1 / 2 ↔ 2 * (num % den) ≤ den := by
    rw [div_le_div_iff₀ hdenPos two_pos, one_mul, mul_comm]
    exact_mod_cast Iff.rfl
  have hhalf : ((num % den : Nat) : ℚ) / den = 1 / 2 ↔ 2 * (num % den) = den := by
    rw [div_eq_div_iff hdenPos.ne' two_ne_zero, one_mul, mul_comm]
    exact_mod_cast Iff.rfl
  rw [hdivide]
  unfold roundHalfEven
  dsimp only
  generalize ((num % den : Nat) : ℚ) / den = r at hless hnonneg htwice hhalf
  split_ifs with hup
  · have hr : 1 / 2 ≤ r := by
      rcases hup with hmore | ⟨heven, _⟩
      · exact le_of_not_ge fun hle => absurd (htwice.mp hle) (Nat.not_le.mpr hmore)
      · exact (hhalf.mpr heven).ge
    have hdistance : |((num / den : Nat) : ℚ) + r - (num / den + 1 : Nat)| = 1 - r := by
      rw [Nat.cast_add_one, add_sub_add_left_eq_sub, abs_sub_comm,
        abs_of_nonneg (sub_nonneg.mpr hless.le)]
    rw [hdistance]
    refine ⟨by linarith, fun htie => ?_⟩
    have htwiceEq := hhalf.mp (by linarith)
    omega
  · have hr : r ≤ 1 / 2 := htwice.mpr (by omega)
    have hdistance : |((num / den : Nat) : ℚ) + r - (num / den : Nat)| = r := by
      rw [add_sub_cancel_left, abs_of_nonneg hnonneg]
    rw [hdistance]
    refine ⟨hr, fun htie => ?_⟩
    have htwiceEq := hhalf.mp htie
    omega

/-- No integer is nearer to a quotient than the one it is rounded to, and only an even one has
another as near. -/
theorem roundHalfEven_nearest (num : Nat) {den : Nat} (hden : 0 < den) (m : Int) :
    |(num : ℚ) / den - roundHalfEven num den| ≤ |(num : ℚ) / den - m| ∧
      (|(num : ℚ) / den - m| = |(num : ℚ) / den - roundHalfEven num den| →
        m = roundHalfEven num den ∨ roundHalfEven num den % 2 = 0) := by
  obtain ⟨hhalf, htie⟩ := abs_sub_roundHalfEven num hden
  generalize roundHalfEven num den = n at hhalf htie ⊢
  generalize (num : ℚ) / den = q at hhalf htie ⊢
  by_cases hm : m = n
  · subst hm
    exact ⟨le_rfl, fun _ => .inl rfl⟩
  · have hapart : (1 : ℚ) ≤ |((n : Int) : ℚ) - m| := by
      exact_mod_cast Int.one_le_abs (sub_ne_zero_of_ne (Ne.symm hm))
    have htriangle : |((n : Int) : ℚ) - m| ≤ |q - n| + |q - m| := by
      have h := abs_sub_le ((n : Int) : ℚ) q m
      rwa [abs_sub_comm ((n : Int) : ℚ) q] at h
    exact ⟨by linarith, fun heq => .inr (htie (by linarith))⟩

/-- The finite numbers of the format: the significand has all its bits, or the exponent is the
least. -/
def IsCanonical (s : Nat) (e : Int) : Prop :=
  s < Nat.pow 2 53 ∧ -1074 ≤ e ∧ e ≤ 971 ∧ (e = -1074 ∨ Nat.pow 2 52 ≤ s)

instance (s : Nat) (e : Int) : Decidable (IsCanonical s e) := inferInstanceAs (Decidable (_ ∧ _))

/-- The number with a sign, a significand and an exponent. -/
def signedValue (negative : Bool) (s : Nat) (e : Int) : ℚ :=
  (if negative then -1 else 1) * (s * 2 ^ e)

section Units
variable {num den s : Nat} {e : Int}

/-- A fraction in units of its last place, rounded. -/
def units (num den : Nat) : Nat :=
  let fraction := scaled num den 2 (-double.lastPlace num den)
  roundHalfEven fraction.1 fraction.2

/-- The last place is the 53rd of a fraction, if it is not the least place that there is. -/
theorem lastPlace_bounds (hnum : 0 < num) (hden : 0 < den) :
    -1074 ≤ double.lastPlace num den ∧
      (num : ℚ) / den < 2 ^ (double.lastPlace num den + 53) ∧
        (double.lastPlace num den = -1074 ∨
          (2 : ℚ) ^ (double.lastPlace num den + 52) ≤ num / den) := by
  have hpos : (0 : ℚ) < num / den := div_pos (by exact_mod_cast hnum) (by exact_mod_cast hden)
  have hplace : double.lastPlace num den = max (-1074) (Int.log 2 ((num : ℚ) / den) + 1 - 53) := by
    rw [Format.lastPlace, binaryMagnitude_eq_log hnum hden]
    rfl
  have hless := Int.lt_zpow_succ_log_self (b := 2) (by decide) ((num : ℚ) / den)
  have hleast := Int.zpow_log_le_self (b := 2) (by decide) hpos
  rw [hplace]
  generalize Int.log 2 ((num : ℚ) / den) = k at hless hleast
  refine ⟨le_max_left _ _, ?_, ?_⟩
  · exact hless.trans_le (zpow_le_zpow_right₀ (by norm_num) (by omega))
  · rcases max_choice (-1074) (k + 1 - 53) with hmax | hmax
    · exact .inl hmax
    · refine .inr ?_
      have hk : max (-1074) (k + 1 - 53) + 52 = k := by omega
      rw [hk]
      exact hleast

theorem abs_sub_mul_zpow (q m : ℚ) (e : Int) : |q - m * 2 ^ e| = |q * 2 ^ (-e) - m| * 2 ^ e := by
  rw [← abs_of_pos (two_zpow_pos e), ← abs_mul, sub_mul, mul_assoc, abs_of_pos (two_zpow_pos e),
    ← zpow_add₀ (by decide), neg_add_cancel, zpow_zero, mul_one]

theorem abs_sub_units (num : Nat) (hden : 0 < den) :
    |(num : ℚ) / den * 2 ^ (-double.lastPlace num den) - units num den| ≤ 1 / 2 ∧
      (|(num : ℚ) / den * 2 ^ (-double.lastPlace num den) - units num den| = 1 / 2 →
        units num den % 2 = 0) := by
  have hround := abs_sub_roundHalfEven (scaled num den 2 (-double.lastPlace num den)).1
    (scaled_pos num hden (by decide : 0 < 2) (-double.lastPlace num den))
  rw [scaled_eq] at hround
  exact hround

theorem units_nearest (num : Nat) (hden : 0 < den) (m : Int) :
    |(num : ℚ) / den - units num den * 2 ^ double.lastPlace num den| ≤
        |(num : ℚ) / den - m * 2 ^ double.lastPlace num den| ∧
      (|(num : ℚ) / den - m * 2 ^ double.lastPlace num den| =
          |(num : ℚ) / den - units num den * 2 ^ double.lastPlace num den| →
        m = units num den ∨ units num den % 2 = 0) := by
  obtain ⟨hle, heven⟩ := roundHalfEven_nearest (scaled num den 2 (-double.lastPlace num den)).1
    (scaled_pos num hden (by decide : 0 < 2) (-double.lastPlace num den)) m
  rw [scaled_eq] at hle heven
  have hpower := two_zpow_pos (double.lastPlace num den)
  rw [abs_sub_mul_zpow, abs_sub_mul_zpow]
  exact ⟨mul_le_mul_of_nonneg_right hle hpower.le, fun heq =>
    heven (mul_right_cancel₀ hpower.ne' heq)⟩

/-- The units have all the bits of a significand, if the last place is not the least, and one more
at most. -/
theorem units_bounds (hnum : 0 < num) (hden : 0 < den) :
    units num den ≤ Nat.pow 2 53 ∧
    (double.lastPlace num den = -1074 ∨ Nat.pow 2 52 ≤ units num den) := by
  obtain ⟨_, hless, hleast⟩ := lastPlace_bounds hnum hden
  have hround := abs_le.mp (abs_sub_units num hden).1
  have hpower := two_zpow_pos (-double.lastPlace num den)
  generalize double.lastPlace num den = p at hless hleast hround hpower ⊢
  generalize units num den = n at hround ⊢
  have hscale : ∀ k : Int, (2 : ℚ) ^ (p + k) * 2 ^ (-p) = 2 ^ k := by
    intro k
    rw [← zpow_add₀ (by decide)]
    congr 1
    omega
  constructor
  · have hunits : (num : ℚ) / den * 2 ^ (-p) < 2 ^ 53 := by
      have h := mul_lt_mul_of_pos_right hless hpower
      rw [hscale] at h
      exact_mod_cast h
    have hn : (n : ℚ) < 2 ^ 53 + 1 := by linarith
    exact Nat.lt_succ_iff.mp (by exact_mod_cast hn)
  · refine hleast.imp_right fun hleast => ?_
    have hunits : 2 ^ 52 ≤ (num : ℚ) / den * 2 ^ (-p) := by
      have h := mul_le_mul_of_nonneg_right hleast hpower.le
      rw [hscale] at h
      exact_mod_cast h
    have hn : (2 ^ 52 : ℚ) < n + 1 := by linarith
    exact Nat.lt_succ_iff.mp (by exact_mod_cast hn)

theorem exists_units_eq_signedValue {p : Int} (negative : Bool) (s : Nat) (h : p ≤ e) :
    ∃ m : Int, signedValue negative s e = m * 2 ^ p := by
  obtain ⟨k, rfl⟩ := Int.le.dest h
  refine ⟨(if negative then -1 else 1) * (s * 2 ^ k), ?_⟩
  rw [signedValue, zpow_add₀ (by decide), zpow_natCast]
  cases negative with
  | true => simp; ring
  | false => simp; ring

/-- A number with places below the last place of a fraction is less than the fraction, and another
number with that last place is between them. -/
theorem signedValue_lt (hs : IsCanonical s e) {p : Int} (he : e < p) (negative : Bool) :
    signedValue negative s e < ((2 ^ 52 : Int) : ℚ) * 2 ^ p := by
  have hless : (s : ℚ) < 2 ^ 53 := by exact_mod_cast hs.1
  have hpower := two_zpow_pos e
  have hvalue : signedValue negative s e ≤ s * 2 ^ e := by
    have hnonneg : (0 : ℚ) ≤ s * 2 ^ e := by positivity
    cases negative with
    | false => simp [signedValue]
    | true =>
        rw [signedValue, if_pos rfl]
        linarith
  calc signedValue negative s e ≤ s * 2 ^ e := hvalue
    _ < 2 ^ 53 * 2 ^ e := mul_lt_mul_of_pos_right hless hpower
    _ = 2 ^ 52 * 2 ^ (e + 1) := by
        rw [zpow_add_one₀ (by decide)]
        ring
    _ ≤ 2 ^ 52 * 2 ^ p :=
        mul_le_mul_of_nonneg_left (zpow_le_zpow_right₀ (by norm_num) he) (by norm_num)
    _ = _ := by norm_cast

/-- No number of the format is nearer to a fraction than its units, and only if they are even
another is as near. -/
theorem units_nearest_number (hnum : 0 < num) (hden : 0 < den) (hs : IsCanonical s e)
    (negative : Bool) :
    |(num : ℚ) / den - units num den * 2 ^ double.lastPlace num den| ≤
        |(num : ℚ) / den - signedValue negative s e| ∧
      (|(num : ℚ) / den - signedValue negative s e| =
          |(num : ℚ) / den - units num den * 2 ^ double.lastPlace num den| →
        signedValue negative s e = units num den * 2 ^ double.lastPlace num den ∨
        units num den % 2 = 0) := by
  by_cases he : double.lastPlace num den ≤ e
  · obtain ⟨m, hm⟩ := exists_units_eq_signedValue negative s he
    obtain ⟨hle, heven⟩ := units_nearest num hden m
    rw [hm]
    refine ⟨hle, fun heq => (heven heq).imp_left fun hm => ?_⟩
    rw [hm, Int.cast_natCast]
  · have he := Int.not_le.mp he
    obtain ⟨_, _, hleast⟩ := lastPlace_bounds hnum hden
    have hplace : double.lastPlace num den ≠ -1074 := by
      have hbottom := hs.2.1
      omega
    have hbetween : ((2 ^ 52 : Int) : ℚ) * 2 ^ double.lastPlace num den ≤ num / den := by
      refine le_trans (le_of_eq ?_) (hleast.resolve_left hplace)
      rw [zpow_add₀ (by decide), mul_comm]
      norm_cast
    have hless := signedValue_lt hs he negative
    have hnear := (units_nearest num hden (2 ^ 52)).1
    rw [abs_of_nonneg (sub_nonneg.mpr hbetween)] at hnear
    have hstrict : |(num : ℚ) / den - units num den * 2 ^ double.lastPlace num den| <
        |(num : ℚ) / den - signedValue negative s e| := by
      rw [abs_of_nonneg (sub_nonneg.mpr (hless.le.trans hbetween))]
      exact hnear.trans_lt (sub_lt_sub_left hless _)
    exact ⟨hstrict.le, fun heq => absurd heq hstrict.ne'⟩

end Units

/-- A number of the format that none is nearer to a rational than, and if another one is as near,
the significand is even. -/
structure IsNearest (q : ℚ) (negative : Bool) (s : Nat) (e : Int) : Prop where
  canonical : IsCanonical s e
  nearest : ∀ b t k, IsCanonical t k → |q - signedValue negative s e| ≤ |q - signedValue b t k|
  even : ∀ b t k, IsCanonical t k → |q - signedValue b t k| = |q - signedValue negative s e| →
    signedValue b t k = signedValue negative s e ∨ s % 2 = 0

section Nearest
variable {num den s : Nat} {e : Int} {q : ℚ} {negative : Bool}

theorem signedValue_not (negative : Bool) (s : Nat) (e : Int) :
    signedValue (!negative) s e = -signedValue negative s e := by
  cases negative <;> simp [signedValue]

theorem abs_neg_sub_signedValue (q : ℚ) (negative : Bool) (s : Nat) (e : Int) :
    |-q - signedValue negative s e| = |q - signedValue (!negative) s e| := by
  rw [signedValue_not, ← abs_neg]
  congr 1
  ring

/-- The nearest number to the opposite of a rational is the opposite of the nearest one. -/
theorem IsNearest.neg (h : IsNearest q negative s e) : IsNearest (-q) (!negative) s e := by
  refine ⟨h.canonical, fun b t k ht => ?_, fun b t k ht heq => ?_⟩
  · rw [abs_neg_sub_signedValue, abs_neg_sub_signedValue, Bool.not_not]
    exact h.nearest _ t k ht
  · rw [abs_neg_sub_signedValue, abs_neg_sub_signedValue, Bool.not_not] at heq
    refine (h.even _ t k ht heq).imp_left fun hvalue => ?_
    rw [signedValue_not, ← hvalue, signedValue_not, neg_neg]

/-- The greatest rational that is rounded to a number is less than this one, half a place above that
number. -/
def overflow : ℚ := 2 ^ 1024 - 2 ^ 970

/-- The significand and the exponent of units: 53 bits that are carried are halved. -/
def carry (n : Nat) (place : Int) : Nat × Int :=
  if n = Nat.pow 2 53 then (n / 2, place + 1) else (n, place)

theorem ofFraction_eq (negative : Bool) (hnum : 0 < num) :
    Binary64.ofFraction negative num den =
      if 971 < (carry (units num den) (double.lastPlace num den)).2 then .infinite negative
      else .finite negative (carry (units num den) (double.lastPlace num den)).1
        (carry (units num den) (double.lastPlace num den)).2 := by
  simp only [Binary64.ofFraction, Format.nearest, if_neg (Nat.pos_iff_ne_zero.mp hnum), carry]
  by_cases hcarry : units num den = Nat.pow 2 53
  · have hcarried : roundHalfEven (scaled num den 2 (-double.lastPlace num den)).1
        (scaled num den 2 (-double.lastPlace num den)).2 = Nat.pow 2 double.precision := hcarry
    simp only [if_pos hcarry, if_pos hcarried]
    rfl
  · have hcarried : ¬ roundHalfEven (scaled num den 2 (-double.lastPlace num den)).1
        (scaled num den 2 (-double.lastPlace num den)).2 = Nat.pow 2 double.precision := hcarry
    simp only [if_neg hcarry, if_neg hcarried]
    rfl

theorem carry_value (n : Nat) (place : Int) :
    ((carry n place).1 : ℚ) * 2 ^ (carry n place).2 = n * 2 ^ place ∧
    (n % 2 = 0 → (carry n place).1 % 2 = 0) := by
  rw [carry]
  split_ifs with hn
  · subst hn
    have heven : Nat.pow 2 53 / 2 % 2 = 0 := by decide
    refine ⟨?_, fun _ => heven⟩
    rw [zpow_add_one₀ (by decide)]
    norm_num
    ring
  · exact ⟨rfl, id⟩

theorem isCanonical_carry {n : Nat} {place : Int} (hn : n ≤ Nat.pow 2 53) (hplace : -1074 ≤ place)
    (hfull : place = -1074 ∨ Nat.pow 2 52 ≤ n) (h : (carry n place).2 ≤ 971) :
    IsCanonical (carry n place).1 (carry n place).2 := by
  rw [carry] at h ⊢
  split_ifs at h ⊢ with hcarry
  · subst hcarry
    have hbits : Nat.pow 2 53 / 2 < Nat.pow 2 53 ∧ Nat.pow 2 52 ≤ Nat.pow 2 53 / 2 := by decide
    exact ⟨hbits.1, Int.le_add_one hplace, h, .inr hbits.2⟩
  · exact ⟨lt_of_le_of_ne hn hcarry, hplace, h, hfull⟩

theorem overflow_eq : overflow = (2 ^ 53 - 1 / 2) * 2 ^ (971 : Int) := by
  have hsplit : (2 : ℚ) ^ 1024 = 2 ^ 53 * 2 ^ 971 := by
    rw [show 1024 = 53 + 971 from rfl, pow_add]
  have hhalf : (2 : ℚ) ^ 971 = 2 ^ 970 * 2 := pow_succ 2 970
  rw [overflow, zpow_ofNat, sub_mul, ← hsplit, hhalf]
  generalize (2 : ℚ) ^ 970 = x
  generalize (2 : ℚ) ^ 1024 = y
  ring

theorem overflow_bounds :
    (2 : ℚ) ^ (1023 : Int) ≤ overflow ∧ overflow ≤ (2 : ℚ) ^ (1024 : Int) := by
  have hdouble : (2 : ℚ) ^ 1024 = 2 ^ 1023 * 2 := pow_succ 2 1023
  have hless : (2 : ℚ) ^ 970 ≤ 2 ^ 1023 := pow_le_pow_right₀ (by norm_num) (by decide)
  have hnonneg : (0 : ℚ) ≤ 2 ^ 970 := by positivity
  rw [overflow, zpow_ofNat, zpow_ofNat, hdouble]
  generalize (2 : ℚ) ^ 970 = x at hless hnonneg
  generalize (2 : ℚ) ^ 1023 = y at hless
  constructor <;> linarith

/-- The exponent is too great just from half a place above the greatest number on. -/
theorem lt_carry_iff (hnum : 0 < num) (hden : 0 < den) :
    971 < (carry (units num den) (double.lastPlace num den)).2 ↔ overflow ≤ (num : ℚ) / den := by
  obtain ⟨_, hless, hleast⟩ := lastPlace_bounds hnum hden
  obtain ⟨hgreatest, _⟩ := units_bounds hnum hden
  obtain ⟨hnear, htie⟩ := abs_sub_units num hden
  have hpower := two_zpow_pos (-double.lastPlace num den)
  generalize double.lastPlace num den = p at hless hleast hnear htie hpower ⊢
  generalize units num den = n at hgreatest hnear htie ⊢
  have hupper :
      p = 971 → (overflow ≤ (num : ℚ) / den ↔ 2 ^ 53 - 1 / 2 ≤ (num : ℚ) / den * 2 ^ (-p)) := by
    rintro rfl
    rw [overflow_eq, zpow_neg, ← div_eq_mul_inv, le_div_iff₀ (two_zpow_pos 971)]
  rcases lt_trichotomy p 971 with hp | hp | hp
  · have hcarry : (carry n p).2 ≤ 971 := by
      rw [carry]
      split_ifs <;> dsimp only <;> omega
    refine iff_of_false (Int.not_lt.mpr hcarry) fun hover => ?_
    have hpow : (2 : ℚ) ^ (p + 53) ≤ 2 ^ (1023 : Int) :=
      zpow_le_zpow_right₀ (by norm_num) (by omega)
    exact absurd (overflow_bounds.1.trans hover) (not_le.mpr (hless.trans_le hpow))
  · have hcarry : 971 < (carry n p).2 ↔ n = Nat.pow 2 53 := by
      rw [carry]
      split_ifs with hcarry
      · exact iff_of_true (by dsimp only; omega) hcarry
      · exact iff_of_false (by dsimp only; omega) hcarry
    rw [hupper hp, hcarry]
    generalize (num : ℚ) / den * 2 ^ (-p) = r at hnear htie
    obtain ⟨hlow, hhigh⟩ := abs_le.mp hnear
    constructor
    · rintro rfl
      norm_num at hlow ⊢
      linarith
    · -- The greatest significand is odd, so a tie with it goes up.
      intro hover
      refine le_antisymm hgreatest (Nat.not_lt.mp fun hless => ?_)
      have hn : (n : ℚ) ≤ 2 ^ 53 - 1 := by
        have hcast : (n : ℚ) + 1 ≤ 2 ^ 53 := by exact_mod_cast hless
        linarith
      have heven := htie (by rw [abs_of_nonneg] <;> linarith)
      have hodd : (2 : ℚ) ^ 53 - 1 ≤ n := by linarith
      have hmost : Nat.pow 2 53 ≤ n + 1 := by exact_mod_cast sub_le_iff_le_add.mp hodd
      have hlast : n = Nat.pow 2 53 - 1 := by omega
      rw [hlast] at heven
      exact absurd heven (by decide)
  · have hcarry : 971 < (carry n p).2 := by
      rw [carry]
      split_ifs <;> dsimp only <;> omega
    refine iff_of_true hcarry ?_
    have hpow : (2 : ℚ) ^ (1024 : Int) ≤ 2 ^ (p + 52) :=
      zpow_le_zpow_right₀ (by norm_num) (by omega)
    exact overflow_bounds.2.trans (hpow.trans (hleast.resolve_left (by omega)))

theorem isNearest_units (hnum : 0 < num) (hden : 0 < den) (h : (num : ℚ) / den < overflow) :
    IsNearest (num / den) false (carry (units num den) (double.lastPlace num den)).1
      (carry (units num den) (double.lastPlace num den)).2 := by
  obtain ⟨hplace, _, _⟩ := lastPlace_bounds hnum hden
  obtain ⟨hunits, hfull⟩ := units_bounds hnum hden
  obtain ⟨hvalue, heven⟩ := carry_value (units num den) (double.lastPlace num den)
  have hexponent := Int.not_lt.mp fun hless => not_le.mpr h ((lt_carry_iff hnum hden).mp hless)
  have hunsigned : signedValue false (carry (units num den) (double.lastPlace num den)).1
      (carry (units num den) (double.lastPlace num den)).2 =
        units num den * 2 ^ double.lastPlace num den := by
    rw [signedValue, hvalue]
    exact one_mul _
  refine ⟨isCanonical_carry hunits hplace hfull hexponent, fun b t k ht => ?_, fun b t k ht => ?_⟩
  · rw [hunsigned]
    exact (units_nearest_number hnum hden ht b).1
  · rw [hunsigned]
    exact fun heq => ((units_nearest_number hnum hden ht b).2 heq).imp_right heven

/-- Zero with a sign. -/
theorem isNearest_zero (negative : Bool) : IsNearest 0 negative 0 (-1074) := by
  have hzero : signedValue negative 0 (-1074) = 0 := by simp [signedValue]
  refine ⟨by decide, fun b t k _ => ?_, fun b t k _ _ => .inr rfl⟩
  rw [hzero, sub_zero, abs_zero]
  exact abs_nonneg _

/-- A number with a sign. -/
def signedRat (negative : Bool) (q : ℚ) : ℚ := if negative then -q else q

theorem IsNearest.signed (h : IsNearest q false s e) (negative : Bool) :
    IsNearest (signedRat negative q) negative s e := by
  cases negative with
  | false => exact h
  | true => exact h.neg

/-- A fraction is rounded to the nearest number of the format. -/
theorem ofFraction_nearest (negative : Bool) (num : Nat) (hden : 0 < den)
    (h : (num : ℚ) / den < overflow) :
    ∃ s e, Binary64.ofFraction negative num den = .finite negative s e ∧
      IsNearest (signedRat negative (num / den)) negative s e := by
  rcases Nat.eq_zero_or_pos num with rfl | hnum
  · refine ⟨0, -1074, rfl, ?_⟩
    rw [Nat.cast_zero, zero_div]
    exact (isNearest_zero false).signed negative
  · have hexponent := mt (lt_carry_iff hnum hden).mp (not_le.mpr h)
    rw [ofFraction_eq negative hnum, if_neg hexponent]
    exact ⟨_, _, rfl, (isNearest_units hnum hden h).signed negative⟩

theorem ofFraction_infinite (negative : Bool) (hden : 0 < den) (h : overflow ≤ (num : ℚ) / den) :
    Binary64.ofFraction negative num den = .infinite negative := by
  have hpos : (0 : ℚ) < num / den := (two_zpow_pos 1023).trans_le (overflow_bounds.1.trans h)
  have hnum : 0 < num := by
    refine Nat.pos_iff_ne_zero.mpr fun hzero => ?_
    rw [hzero, Nat.cast_zero, zero_div] at hpos
    exact hpos.false
  rw [ofFraction_eq negative hnum, if_pos ((lt_carry_iff hnum hden).mpr h)]

/-- A fraction of less than half the least number is rounded to zero. -/
theorem ofFraction_zero (negative : Bool) (num : Nat) (hden : 0 < den)
    (h : (num : ℚ) / den < 2 ^ (-1075 : Int)) :
    Binary64.ofFraction negative num den = Binary64.zero negative := by
  rcases Nat.eq_zero_or_pos num with rfl | hnum
  · rfl
  · obtain ⟨_, _, hleast⟩ := lastPlace_bounds hnum hden
    have hplace : double.lastPlace num den = -1074 := by
      refine hleast.resolve_right fun hle => ?_
      have hpow := (zpow_lt_zpow_iff_right₀ (by norm_num : (1 : ℚ) < 2)).mp (hle.trans_lt h)
      have hbottom := (lastPlace_bounds hnum hden).1
      omega
    have hunits : units num den = 0 := by
      have hnear := (abs_le.mp (abs_sub_units num hden).1).1
      have hsmall := mul_lt_mul_of_pos_right h (two_zpow_pos 1074)
      have hhalf : (2 : ℚ) ^ (-1075 : Int) * 2 ^ (1074 : Int) = 1 / 2 := by
        rw [← zpow_add₀ (by decide)]
        norm_num
      rw [hhalf] at hsmall
      rw [hplace, neg_neg] at hnear
      generalize (num : ℚ) / den * 2 ^ (1074 : Int) = r at hnear hsmall
      have hless : (units num den : ℚ) < 1 := by linarith
      exact Nat.lt_one_iff.mp (by exact_mod_cast hless)
    rw [ofFraction_eq negative hnum, hplace, hunits]
    rfl

theorem decimal_bounds {digits : Nat} (hdigits : 0 < digits) (e : Int) :
    (0 ≤ e → (2 : ℚ) ^ ((digits.log2 : Int) + 3 * e) ≤ digits * 10 ^ e) ∧
      (e ≤ 0 → (digits : ℚ) * 10 ^ e < 2 ^ ((digits.log2 : Int) + 3 * e + 1)) := by
  obtain ⟨hleast, hgreatest⟩ := log2_bounds hdigits
  have hten : (0 : ℚ) < 10 ^ e := zpow_pos (by decide) e
  have hcube : (2 : ℚ) ^ (3 * e) = 8 ^ e := by
    rw [zpow_mul]
    norm_num
  constructor
  · intro he
    have hpower : (8 : ℚ) ^ e ≤ 10 ^ e := zpow_le_zpow_left₀ he (by norm_num) (by norm_num)
    rw [zpow_add₀ (by decide), hcube]
    exact mul_le_mul hleast hpower (zpow_nonneg (by norm_num) e) (Nat.cast_nonneg _)
  · intro he
    have hpower : (10 : ℚ) ^ e ≤ 8 ^ e := by
      obtain ⟨k, rfl⟩ := Int.exists_eq_neg_ofNat he
      rw [zpow_neg, zpow_neg, zpow_natCast, zpow_natCast]
      exact inv_anti₀ (by positivity) (pow_le_pow_left₀ (by norm_num) (by norm_num) k)
    rw [add_right_comm, zpow_add₀ (by decide), hcube]
    exact mul_lt_mul_of_lt_of_le_of_pos_of_nonneg hgreatest hpower hten (two_zpow_pos _).le

/-- The numbers far outside the range are rounded as the others are. -/
theorem ofDecimal_eq (negative : Bool) (digits : Nat) (e : Int) :
    Binary64.ofDecimal negative digits e =
      Binary64.ofFraction negative (scaled digits 1 10 e).1 (scaled digits 1 10 e).2 := by
  have hden := scaled_pos digits Nat.one_pos (by decide : 0 < 10) e
  have hvalue := scaled_eq digits 1 10 e
  rw [Nat.cast_one, div_one, Nat.cast_ofNat] at hvalue
  simp only [Binary64.ofDecimal]
  split_ifs with hsmall hgreat
  · symm
    refine ofFraction_zero negative _ hden ?_
    rw [hvalue]
    rcases hsmall with rfl | hsmall
    · rw [Nat.cast_zero, zero_mul]
      exact two_zpow_pos _
    · rcases Nat.eq_zero_or_pos digits with rfl | hdigits
      · rw [Nat.cast_zero, zero_mul]
        exact two_zpow_pos _
      · refine ((decimal_bounds hdigits e).2 (by omega)).trans_le ?_
        exact zpow_le_zpow_right₀ (by norm_num) (by omega)
  · symm
    refine ofFraction_infinite negative hden ?_
    obtain ⟨hnonneg, hgreat⟩ := hgreat
    have hdigits : 0 < digits := by omega
    rw [hvalue]
    refine overflow_bounds.2.trans (le_trans ?_ ((decimal_bounds hdigits e).1 hnonneg))
    exact zpow_le_zpow_right₀ (by norm_num) hgreat
  · rfl

/-- A decimal is rounded to the nearest number, unless it is too great for all of them. -/
theorem ofDecimal_nearest (negative : Bool) (digits : Nat) (e : Int) :
    (digits * 10 ^ e < overflow → ∃ s k, Binary64.ofDecimal negative digits e =
      .finite negative s k ∧
        IsNearest (signedRat negative (digits * 10 ^ e)) negative s k) ∧
      (overflow ≤ digits * 10 ^ e → Binary64.ofDecimal negative digits e = .infinite negative) := by
  have hden := scaled_pos digits Nat.one_pos (by decide : 0 < 10) e
  have hvalue := scaled_eq digits 1 10 e
  rw [Nat.cast_one, div_one, Nat.cast_ofNat] at hvalue
  rw [ofDecimal_eq, ← hvalue]
  exact ⟨ofFraction_nearest negative _ hden, ofFraction_infinite negative hden⟩

end Nearest

end SqlGateway.Number
