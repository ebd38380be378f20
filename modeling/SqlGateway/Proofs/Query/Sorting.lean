import SqlGateway.Proofs.Query.ColumnReferences
import SqlGateway.Proofs.Query.Walk

/-!
# What order terms say

The terms of a sort value stand for its scalars, in order: a text for a column, a number for the
ordinal of a column. Ordinals are clamped to 64 bits and the absolute value is taken in that
arithmetic, so every number has a positive ordinal but those that are clamped to the least integer,
which keeps its sign.
-/
namespace SqlGateway

open Number Text

namespace Number

theorem isNegative_nearest (f : Format) (negative : Bool) (num den : Nat) :
    (f.nearest negative num den).isNegative = negative := by
  unfold Format.nearest
  dsimp only
  split_ifs <;> rfl

/-- The integer part of a number that is not negative is not negative, and the other way round. -/
theorem truncateInto_sign {least greatest : Int} (hleast : least ≤ 0) (hgreatest : 0 ≤ greatest)
    (x : Binary64) :
    if x.isNegative then x.truncateInto least greatest ≤ 0
    else 0 ≤ x.truncateInto least greatest := by
  cases x with
  | finite negative significand exponent =>
      have hwhole : (0 : Int) ≤ (Binary64.magnitude significand exponent).1 /
          (Binary64.magnitude significand exponent).2 := Int.ediv_nonneg (by omega) (by omega)
      simp only [Binary64.isNegative, Binary64.truncateInto, Binary64.truncate?, Option.getD_some]
      cases negative <;> simp only [Bool.false_eq_true, if_false, if_true] <;> omega
  | infinite negative =>
      simp only [Binary64.isNegative, Binary64.truncateInto]
      split_ifs <;> assumption
  | nan => exact Int.le_refl 0

theorem truncateInto_mem {least greatest : Int} (hleast : least ≤ 0) (hgreatest : 0 ≤ greatest)
    (x : Binary64) :
    least ≤ x.truncateInto least greatest ∧ x.truncateInto least greatest ≤ greatest := by
  cases x with
  | finite negative significand exponent =>
      simp only [Binary64.truncateInto]
      omega
  | infinite negative =>
      simp only [Binary64.truncateInto]
      split_ifs <;> omega
  | nan => exact ⟨hleast, hgreatest⟩

end Number

namespace Query.OrderTerm

mutual

/-- The scalars of a value in order: its items and theirs, without nulls and blank texts. -/
def scalars : Json → List Json
  | .null => []
  | .text s => if (trimmed s.toList).isEmpty then [] else [.text s]
  | .list items => itemScalars items
  | scalar => [scalar]

def itemScalars : List Json → List Json
  | [] => []
  | item :: rest => scalars item ++ itemScalars rest

end

def isNegative : Json → Bool
  | .int n => n < 0
  | .float x => x.isNegative
  | _ => false

/-- What a column of a sort value is called: a safe name with a dot, of the table where it names
none, else of the table that its last two segments name. -/
structure IsColumnKey (table column key : String) : Prop where
  safe : Name.isSafe key = true
  dotted : '.' ∈ key.toList
  bare : '.' ∉ column.toList → key = table ++ "." ++ column
  owned : ∀ front owner name, Name.segments '.' column.toList = front ++ [owner, name] →
    key = Name.internal (String.ofList owner) ++ "." ++ String.ofList name

/-- The term of a scalar: a column with the direction of its sign, or a positive ordinal with the
direction of the number, which is its absolute value if it fits 64 bits. -/
inductive Says (table : String) : Json → String → Prop
  | ascending {s column key : String} (hspec : trimmed s.toList = column.toList)
      (hsign : column.toList.head? ≠ some '-') (hkey : IsColumnKey table column key) :
      Says table (.text s) key
  | descending {s key : String} {column : List Char} (hspec : trimmed s.toList = '-' :: column)
      (hkey : IsColumnKey table (String.ofList (trimmed column)) key) :
      Says table (.text s) (key ++ " DESC")
  | ordinal {v : Json} {text : String} {n : Nat} (hnumber : v.asFloat?.isSome = true)
      (hpositive : 0 < n) (habsolute : ∀ k, v.asInt64? = some k → n = k.natAbs)
      (htext : text = if isNegative v then toString n ++ " DESC" else toString n) :
      Says table v text

section Terms
variable {table : String} {v : Json} {n : Int} {t : OrderTerm} {ts : List OrderTerm}

theorem isColumnKey_qualify {column : String} (h : Name.isSafe (Name.qualify table column) = true) :
    IsColumnKey table column (Name.qualify table column) where
  safe := h
  dotted := Name.dot_mem_qualify table column
  bare hdot := String.toList_injective (by simp [Name.toList_qualify_of_not_mem hdot])
  owned front owner name hsegments :=
    String.toList_injective (by simp [Name.toList_qualify hsegments, Name.internal])

theorem says_columnTerm {s : String} (h : columnTerm table (trimmed s.toList) = .ok t) :
    Says table (.text s) t.text := by
  obtain ⟨_, hsafe, h⟩ := bind_eq_ok.mp h
  obtain rfl := pure_eq_ok.mp h
  have hkey := isColumnKey_qualify (Compiler.ensureSafe_ok hsafe)
  generalize hspec : trimmed s.toList = spec at hkey ⊢
  split at hkey
  · exact .descending hspec hkey
  · rename_i hminus
    refine .ascending (by rw [hspec, String.toList_ofList]) ?_ hkey
    rw [String.toList_ofList]
    intro hhead
    obtain ⟨rest, rfl⟩ := List.head?_eq_some_iff.mp hhead
    exact hminus rest rfl

theorem ordinal_of_asInt64? {k : Int} (h : v.asInt64? = some k) : ordinal v = k := by
  rw [ordinal, h]

theorem fitsInt64_iff : fitsInt64 n = true ↔ leastInt64 ≤ n ∧ n ≤ greatestInt64 := by
  simp [fitsInt64]

theorem fitsInt64_ordinal (v : Json) : fitsInt64 (ordinal v) = true := by
  unfold ordinal
  split
  · rename_i k _ hk
    unfold Json.asInt64? at hk
    split at hk
    · split_ifs at hk with hfits
      exact Option.some.inj hk ▸ hfits
    · cases hk
  · exact fitsInt64_iff.mpr (truncateInto_mem (by decide) (by decide) _)
  · rfl

/-- The ordinal of a number has its sign, unless it is zero. -/
theorem ordinal_neg_iff (hnumber : v.asFloat?.isSome = true) (hzero : ordinal v ≠ 0) :
    ordinal v < 0 ↔ isNegative v = true := by
  have of_float : ∀ x : Binary64, ordinal v = x.truncateInto leastInt64 greatestInt64 →
      x.isNegative = isNegative v → (ordinal v < 0 ↔ isNegative v = true) := by
    intro x hordinal hsign
    have htruncated :=
      truncateInto_sign (by decide : leastInt64 ≤ 0) (by decide : 0 ≤ greatestInt64) x
    rw [hsign, ← hordinal] at htruncated
    split_ifs at htruncated with hnegative
    · exact iff_of_true (by omega) hnegative
    · exact iff_of_false (Int.not_lt.mpr htruncated) hnegative
  cases v with
  | int n =>
      by_cases hfits : fitsInt64 n = true
      · have hself : ordinal (.int n) = n := ordinal_of_asInt64? (by simp [Json.asInt64?, hfits])
        rw [hself, isNegative, decide_eq_true_eq]
      · refine of_float (Binary64.ofInt n) ?_ (isNegative_nearest _ _ _ _)
        simp [ordinal, Json.asInt64?, Json.asFloat?, hfits]
  | float x => exact of_float x rfl rfl
  | null | bool b | text s | list items | object fields => cases hnumber

/-- In 64 bits every integer but the least has an absolute value. -/
theorem absolute64_eq (h : fitsInt64 n = true) (hn : n ≠ leastInt64) : absolute64 n = n.natAbs := by
  obtain ⟨hleast, hgreatest⟩ := fitsInt64_iff.mp h
  unfold leastInt64 at hleast hn
  unfold greatestInt64 at hgreatest
  unfold absolute64 asInt64 wordCount
  exact Int.bmod_eq_of_le (by omega) (by omega)

/-- No number has a term with a sign in it. -/
theorem Says.not_mem_of_number {text : String} (hnumber : v.asFloat?.isSome = true)
    (h : Says table v text) : '-' ∉ text.toList := by
  cases h with
  | ascending | descending => cases hnumber
  | @ordinal _ _ n _ _ _ htext =>
      have hdigits : '-' ∉ (toString n).toList := by
        rw [Nat.toString_eq_repr, Nat.toList_repr]
        exact fun hminus =>
          absurd (Nat.isDigit_of_mem_toDigits (by decide) (by decide) hminus) (by decide)
      rw [htext]
      split_ifs
      · rw [String.toList_append]
        exact fun hminus => (List.mem_append.mp hminus).elim hdigits (by decide)
      · exact hdigits

/-- The term of a number: with the least integer as its ordinal it has a sign, else it says what it
stands for. -/
theorem says_ordinalTerm (table : String) (hnumber : v.asFloat?.isSome = true)
    (h : ordinalTerm (ordinal v) = .ok ts) :
    ∃ t, ts = [t] ∧ (ordinal v ≠ leastInt64 → Says table v t.text) ∧
      (ordinal v = leastInt64 → t.text = "-9223372036854775808 DESC") := by
  unfold ordinalTerm at h
  split_ifs at h with hzero
  obtain rfl := Except.ok.inj h
  refine ⟨_, rfl, fun hleast => ?_, fun hleast => ?_⟩
  · refine .ordinal hnumber (Int.natAbs_pos.mpr hzero)
      (fun k hk => congrArg Int.natAbs (ordinal_of_asInt64? hk)) ?_
    simp only [OrderTerm.text, absolute64_eq (fitsInt64_ordinal v) hleast, decide_eq_true_eq,
      ordinal_neg_iff hnumber hzero]
    rfl
  · rw [hleast]
    decide

/-- The term of a scalar says what it stands for, unless its ordinal is the least integer. -/
structure IsTerm (table : String) (scalar : Json) (text : String) : Prop where
  says_iff : Says table scalar text ↔ ordinal scalar ≠ leastInt64
  least : ordinal scalar = leastInt64 → text = "-9223372036854775808 DESC"

theorem isTerm_ordinalTerm (hnumber : v.asFloat?.isSome = true)
    (h : ordinalTerm (ordinal v) = .ok ts) : List.Forall₂ (IsTerm table) [v] (ts.map (·.text)) := by
  obtain ⟨t, rfl, hsays, hleast⟩ := says_ordinalTerm table hnumber h
  refine .cons ⟨⟨fun ht hordinal => ?_, hsays⟩, hleast⟩ .nil
  have hsign : '-' ∉ t.text.toList := ht.not_mem_of_number hnumber
  rw [hleast hordinal] at hsign
  exact hsign (by decide)

mutual

theorem isTerm_terms : (v : Json) → ∀ {ts}, terms table v = .ok ts →
    List.Forall₂ (IsTerm table) (scalars v) (ts.map (·.text))
  | .null, ts, h => by
      obtain rfl : [] = ts := by simpa [terms] using h
      exact .nil
  | .text s, ts, h => by
      simp only [terms] at h
      rw [scalars]
      split_ifs at h ⊢
      · obtain rfl := Except.ok.inj h
        exact .nil
      · cases hterm : columnTerm table (trimmed s.toList) with
        | error e =>
            rw [hterm] at h
            cases h
        | ok t =>
            rw [hterm] at h
            obtain rfl := Except.ok.inj h
            have hordinal : ordinal (.text s) ≠ leastInt64 :=
              fun hzero : (0 : Int) = leastInt64 => by cases hzero
            exact .cons ⟨iff_of_true (says_columnTerm hterm) hordinal, fun hleast =>
              absurd hleast hordinal⟩ .nil
  | .int n, ts, h => isTerm_ordinalTerm rfl (by simpa only [terms] using h)
  | .float x, ts, h => isTerm_ordinalTerm rfl (by simpa only [terms] using h)
  | .list items, ts, h => isTerm_itemTerms items (by simpa only [terms] using h)
  | .bool b, ts, h => by simp [terms] at h
  | .object fields, ts, h => by simp [terms] at h

theorem isTerm_itemTerms : (items : List Json) → ∀ {ts}, itemTerms table items = .ok ts →
    List.Forall₂ (IsTerm table) (itemScalars items) (ts.map (·.text))
  | [], ts, h => by
      obtain rfl : [] = ts := by simpa [itemTerms] using h
      exact .nil
  | item :: rest, ts, h => by
      rw [itemTerms] at h
      obtain ⟨first, hfirst, h⟩ := bind_eq_ok.mp h
      obtain ⟨others, hothers, h⟩ := bind_eq_ok.mp h
      obtain rfl := pure_eq_ok.mp h
      rw [itemScalars, List.map_append]
      exact List.rel_append (isTerm_terms item hfirst) (isTerm_itemTerms rest hothers)

end

/-- The terms of a sort value are those of its scalars, in order. Each says what its scalar asks
for, but that of a number whose ordinal is the least integer of 64 bits has a sign. -/
theorem terms_say_scalars {texts : List String} (h : compile table v = .ok texts) :
    List.Forall₂ (IsTerm table) (scalars v) texts := by
  obtain ⟨_, _, h⟩ := bind_eq_ok.mp h
  obtain ⟨ts, hts, h⟩ := bind_eq_ok.mp h
  obtain rfl := pure_eq_ok.mp h
  exact isTerm_terms v hts

/-- Columns, ordinals at both ends of 64 bits, and values that ask for nothing. -/
theorem terms_say_scalars_mixed :
    let v : Json :=
      .list [.text " -name", .int (-3), .null, .list [.text "sales__orders.total", .text " "],
      .int 18446744073709551615, .int (-9223372036854775807)]
    ∃ texts, compile "users" v = .ok texts ∧ List.Forall₂ (IsTerm "users") (scalars v) texts ∧
      texts = ["users.name DESC", "3 DESC", "sales.orders.total", "9223372036854775807",
        "9223372036854775807 DESC"] := by
  intro v
  obtain ⟨texts, h⟩ : ∃ texts, compile "users" v = .ok texts := exists_eq_ok (by decide +kernel)
  exact ⟨texts, h, terms_say_scalars h, part_eq (g := id) h (by decide +kernel)⟩

/-- The absolute value of the least integer of 64 bits is not one of them, so its term has a
sign. -/
theorem term_of_least_has_sign :
    compile "users" (.int (-9223372036854775808)) = .ok ["-9223372036854775808 DESC"] ∧
      ¬ Says "users" (.int (-9223372036854775808)) "-9223372036854775808 DESC" := by
  refine ⟨eq_ok_of_toOption (by decide +kernel), fun h => ?_⟩
  exact h.not_mem_of_number rfl (by decide)

end Terms

end Query.OrderTerm

end SqlGateway
