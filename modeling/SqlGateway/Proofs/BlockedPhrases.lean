import Mathlib.Data.List.Chain
import SqlGateway.Proofs.Guarded
import SqlGateway.Text.Character

/-!
# Blocked phrases

Where a blocked phrase stands in a text, said without the search that finds it, and where one stands
in the form in which a string is written and searched. There a control character is an escape: it is
no blank any more, so a phrase with one between its words is not found, and the last letter of the
escape may begin a phrase instead.
-/
namespace SqlGateway

/-- The strings of a value, however deep they stand, its keys left out. -/
inductive Json.HasString : Json → String → Prop
  | text {s : String} : HasString (.text s) s
  | item {items : List Json} {item : Json} {s : String} :
      item ∈ items → HasString item s → HasString (.list items) s
  | value {fields : Object} {field : String × Json} {s : String} :
      field ∈ fields → HasString field.2 s → HasString (.object fields) s

namespace Guard

open Text

/-- A phrase stands on the characters `found`, which `after` follows. -/
inductive Stands : Phrase → (found after : List Char) → Prop
  | nil {after : List Char} : Stands [] [] after
  | letter {l c : Char} {rest : Phrase} {found after : List Char} :
      folds l c = true → Stands rest found after → Stands (.letter l :: rest) (c :: found) after
  | blanks {atLeastOne : Bool} {bs : List Char} {rest : Phrase} {found after : List Char} :
      (∀ b ∈ bs, isBlank b = true) → (atLeastOne = true → bs ≠ []) → Stands rest found after →
      Stands (.blanks atLeastOne :: rest) (bs ++ found) after
  | quote {rest : Phrase} {found after : List Char} :
      Stands rest found after → Stands (.quote :: rest) ('\'' :: found) after
  | wordEnd {rest : Phrase} {found after : List Char} :
      (∀ c ∈ (found ++ after).head?, isWordChar c = false) → Stands rest found after →
      Stands (.wordEnd :: rest) found after

/-- A character that is written as it is, unless it is a quotation mark or a backslash. -/
def IsPlain (c : Char) : Prop := 0x20 ≤ c.toNat

instance (c : Char) : Decidable (IsPlain c) := inferInstanceAs (Decidable (_ ≤ _))

def StandsIn (phrase : Phrase) (cs : List Char) : Prop :=
  ∃ before found after, cs = before ++ (found ++ after) ∧ Stands phrase found after

/-- A phrase stands in a text and no control character is a part of it. -/
def StandsPlainly (phrase : Phrase) (cs : List Char) : Prop :=
  ∃ before found after, cs = before ++ (found ++ after) ∧ Stands phrase found after ∧
    ∀ c ∈ found, IsPlain c

/-- The last character of what a character is written as. -/
def lastWritten (c : Char) : Char := (Json.escapedChar c).getLast (escapedChar_ne_nil c)

/-- A phrase stands in a text whose first character counts as the last one of what it is written as,
and no other character of it is a control character. -/
def StandsWritten (phrase : Phrase) (cs : List Char) : Prop :=
  ∃ before c found after, cs = before ++ (c :: (found ++ after)) ∧
    Stands phrase (lastWritten c :: found) after ∧ ∀ d ∈ found, IsPlain d

/-- The letters and the two characters outside of ASCII that fold to one. -/
def IsFolded (c : Char) : Prop := c.isAlpha = true ∨ c = 'ſ' ∨ c = '\u212a'

instance (c : Char) : Decidable (IsFolded c) := inferInstanceAs (Decidable (_ ∨ _ ∨ _))

/-- A phrase begins with a letter or a quote. -/
def opensDark : Phrase → Bool
  | .letter _ :: _ | .quote :: _ => true
  | _ => false

/-- The letters of a phrase are in lower case, and its blanks end where a letter or a quote
stands. -/
def isWellMade : Phrase → Bool
  | [] => true
  | .letter l :: rest => l.isLower && isWellMade rest
  | .blanks _ :: rest => opensDark rest && isWellMade rest
  | .quote :: rest | .wordEnd :: rest => isWellMade rest

/-- A phrase begins with two letters. -/
def opensWithWord : Phrase → Bool
  | .letter _ :: .letter _ :: _ => true
  | _ => false

theorem wellMade_of_mem {phrase : Phrase} (h : phrase ∈ phrases) :
    isWellMade phrase = true ∧ opensWithWord phrase = true := by
  have hall :
    ∀ phrase ∈ phrases, isWellMade phrase = true ∧ opensWithWord phrase = true := by decide
  exact hall phrase h

section Characters
variable {c l : Char}

theorem isFolded_of_folds (hl : l.isLower = true) (h : folds l c = true) : IsFolded c := by
  simp only [folds, Bool.or_eq_true, beq_iff_eq, Bool.and_eq_true] at h
  rcases h with (hlower | ⟨-, rfl⟩) | ⟨-, rfl⟩
  · refine .inl ?_
    by_cases hupper : c.isUpper = true
    · exact Bool.or_eq_true_iff.mpr (.inl hupper)
    · have hsame : c.toLower = c := by
        refine dif_neg fun hbounds => hupper ?_
        delta Char.isUpper
        simpa using hbounds
      rw [hsame] at hlower
      exact Bool.or_eq_true_iff.mpr (.inr (hlower ▸ hl))
  · exact .inr (.inl rfl)
  · exact .inr (.inr rfl)

theorem IsFolded.not_isBlank (h : IsFolded c) : isBlank c = false := by
  rcases h with h | rfl | rfl
  · delta Char.isAlpha Char.isUpper Char.isLower at h
    simp only [Bool.or_eq_true, Bool.and_eq_true, decide_eq_true_eq, UInt32.le_iff_toNat_le,
      ge_iff_le] at h
    change (65 ≤ c.toNat ∧ c.toNat ≤ 90) ∨ (97 ≤ c.toNat ∧ c.toNat ≤ 122) at h
    simp only [isBlank, Bool.or_eq_false_iff, Bool.and_eq_false_iff, decide_eq_false_iff_not,
      beq_eq_false_iff_ne]
    omega
  · decide
  · decide

/-- No two letters stand side by side in what a character is written as. -/
theorem isChain_escapedChar (c : Char) :
    (Json.escapedChar c).IsChain fun x y => ¬ (IsFolded x ∧ IsFolded y) := by
  by_cases hcontrol : c.toNat < 0x20
  · have hall : ∀ n < 0x20, (Json.escapedChar (Char.ofNat n)).IsChain fun x y =>
      ¬ (IsFolded x ∧ IsFolded y) := by
      decide
    have hc := hall c.toNat hcontrol
    rwa [Char.ofNat_toNat] at hc
  · unfold Json.escapedChar
    rw [if_pos (Nat.not_lt.mp hcontrol)]
    split_ifs
    · decide
    · decide
    · exact .singleton c

end Characters

section Standing
variable {phrase : Phrase} {found after cs : List Char}

/-- A word stands on its letters in either case. -/
theorem Stands.word {w : String} {written : List Char} (hw : lower written = w.toList)
    (h : Stands phrase found after) : Stands (Guard.word w ++ phrase) (written ++ found) after := by
  rw [Guard.word, ← hw]
  clear hw
  induction written with
  | nil => exact h
  | cons c written ih => exact .letter (by simp [folds]) ih

theorem exists_stands (h : matchesHere phrase cs = true) :
    ∃ found after, cs = found ++ after ∧ Stands phrase found after := by
  induction phrase generalizing cs with
  | nil => exact ⟨[], cs, rfl, .nil⟩
  | cons piece rest ih =>
      cases piece with
      | letter l =>
          cases cs with
          | nil => cases h
          | cons c cs =>
              obtain ⟨hc, hrest⟩ := Bool.and_eq_true_iff.mp h
              obtain ⟨found, after, rfl, hstands⟩ := ih hrest
              exact ⟨c :: found, after, rfl, .letter hc hstands⟩
      | blanks atLeastOne =>
          obtain ⟨hsome, hrest⟩ := Bool.and_eq_true_iff.mp h
          obtain ⟨found, after, hcs, hstands⟩ := ih hrest
          refine ⟨cs.takeWhile isBlank ++ found, after, ?_, .blanks ?_ ?_ hstands⟩
          · rw [List.append_assoc, ← hcs, List.takeWhile_append_dropWhile]
          · exact fun b hb => List.mem_takeWhile_imp hb
          · rintro rfl hnone
            cases cs with
            | nil => cases hsome
            | cons c cs =>
                have hc : isBlank c = true := by simpa using hsome
                rw [List.takeWhile_cons_of_pos hc] at hnone
                cases hnone
      | quote =>
          cases cs with
          | nil => cases h
          | cons c cs =>
              obtain ⟨hc, hrest⟩ := Bool.and_eq_true_iff.mp h
              obtain ⟨found, after, rfl, hstands⟩ := ih hrest
              obtain rfl : c = '\'' := by simpa using hc
              exact ⟨'\'' :: found, after, rfl, .quote hstands⟩
      | wordEnd =>
          obtain ⟨hend, hrest⟩ := Bool.and_eq_true_iff.mp h
          obtain ⟨found, after, rfl, hstands⟩ := ih hrest
          refine ⟨found, after, rfl, .wordEnd (fun c hc => ?_) hstands⟩
          rw [Option.mem_def.mp hc] at hend
          simpa using hend

theorem Stands.head_not_isBlank (h : Stands phrase found after) (hmade : isWellMade phrase = true)
    (hdark : opensDark phrase = true) : ∃ c rest, found = c :: rest ∧ isBlank c = false := by
  cases h with
  | letter hc _ =>
      exact ⟨_, _, rfl, (isFolded_of_folds (Bool.and_eq_true_iff.mp hmade).1 hc).not_isBlank⟩
  | quote _ => exact ⟨_, _, rfl, by decide⟩
  | nil | blanks _ _ _ | wordEnd _ _ => cases hdark

theorem Stands.matchesHere (h : Stands phrase found after) (hmade : isWellMade phrase = true) :
    matchesHere phrase (found ++ after) = true := by
  induction h with
  | nil => rfl
  | letter hc _ ih => exact Bool.and_eq_true_iff.mpr ⟨hc, ih (Bool.and_eq_true_iff.mp hmade).2⟩
  | @blanks atLeastOne bs rest found after hbs hsome hstands ih =>
      obtain ⟨hdark, hrest⟩ := Bool.and_eq_true_iff.mp hmade
      obtain ⟨c, more, rfl, hc⟩ := hstands.head_not_isBlank hrest hdark
      have hdrop : (bs ++ (c :: more) ++ after).dropWhile isBlank = c :: more ++ after := by
        rw [List.append_assoc, List.dropWhile_append_of_pos hbs, List.cons_append,
          List.dropWhile_cons_of_neg (by simp [hc])]
      refine Bool.and_eq_true_iff.mpr ⟨?_, hdrop ▸ ih hrest⟩
      cases bs with
      | nil => cases atLeastOne <;> simp_all
      | cons b bs => simp [hbs b List.mem_cons_self]
  | quote _ ih => exact Bool.and_eq_true_iff.mpr ⟨rfl, ih hmade⟩
  | @wordEnd _ found after hend _ ih =>
      refine Bool.and_eq_true_iff.mpr ⟨?_, ih hmade⟩
      cases hhead : (found ++ after).head? with
      | none => rfl
      | some c => simp [hend c hhead]

/-- Of what follows a phrase it only counts whether a word goes on. -/
theorem Stands.followed {after' : List Char} (h : Stands phrase found after)
    (hafter : (∀ c ∈ after.head?, isWordChar c = false) →
      ∀ c ∈ after'.head?, isWordChar c = false) : Stands phrase found after' := by
  induction h with
  | nil => exact .nil
  | letter hc _ ih => exact .letter hc (ih hafter)
  | blanks hbs hsome _ ih => exact .blanks hbs hsome (ih hafter)
  | quote _ ih => exact .quote (ih hafter)
  | @wordEnd rest found after hend _ ih =>
      refine .wordEnd ?_ (ih hafter)
      cases found with
      | nil => exact hafter hend
      | cons c found => exact hend

/-- No phrase has a quotation mark or a backslash in it. -/
theorem Stands.ne_of_mem (h : Stands phrase found after) (hmade : isWellMade phrase = true) :
    ∀ c ∈ found, c ≠ '"' ∧ c ≠ '\\' := by
  induction h with
  | nil => exact List.forall_mem_nil _
  | letter hc _ ih =>
      obtain ⟨hl, hrest⟩ := Bool.and_eq_true_iff.mp hmade
      have hfolded := isFolded_of_folds hl hc
      refine List.forall_mem_cons.mpr ⟨⟨?_, ?_⟩, ih hrest⟩
      · rintro rfl
        exact absurd hfolded (by decide)
      · rintro rfl
        exact absurd hfolded (by decide)
  | blanks hbs _ _ ih =>
      refine List.forall_mem_append.mpr ⟨fun b hb => ?_, ih (Bool.and_eq_true_iff.mp hmade).2⟩
      have hblank := hbs b hb
      constructor
      · rintro rfl
        exact absurd hblank (by decide)
      · rintro rfl
        exact absurd hblank (by decide)
  | quote _ ih => exact List.forall_mem_cons.mpr ⟨by decide, ih hmade⟩
  | wordEnd _ _ ih => exact ih hmade

theorem Stands.exists_letters (h : Stands phrase found after) (hmade : isWellMade phrase = true)
    (hword : opensWithWord phrase = true) :
    ∃ x y rest, found = x :: y :: rest ∧ IsFolded x ∧ IsFolded y := by
  cases h with
  | letter hx hrest =>
      obtain ⟨hl, hmade⟩ := Bool.and_eq_true_iff.mp hmade
      cases hrest with
      | letter hy _ =>
          obtain ⟨hl', -⟩ := Bool.and_eq_true_iff.mp hmade
          exact ⟨_, _, _, rfl, isFolded_of_folds hl hx, isFolded_of_folds hl' hy⟩
      | nil | blanks _ _ _ | quote _ | wordEnd _ _ => cases hword
  | nil | blanks _ _ _ | quote _ | wordEnd _ _ => cases hword

end Standing

theorem isBlockedChars_iff {cs : List Char} :
    isBlockedChars cs = true ↔ ∃ phrase ∈ phrases, StandsIn phrase cs := by
  constructor
  · intro h
    have hplace : ∃ before rest, cs = before ++ rest ∧ phrases.any (matchesHere · rest) = true := by
      induction cs with
      | nil => exact ⟨[], [], rfl, h⟩
      | cons c cs ih =>
          rcases Bool.or_eq_true_iff.mp h with hhere | hlater
          · exact ⟨[], c :: cs, rfl, hhere⟩
          · obtain ⟨before, rest, rfl, hany⟩ := ih hlater
            exact ⟨c :: before, rest, rfl, hany⟩
    obtain ⟨before, rest, rfl, hany⟩ := hplace
    obtain ⟨phrase, hphrase, hmatches⟩ := List.any_eq_true.mp hany
    obtain ⟨found, after, rfl, hstands⟩ := exists_stands hmatches
    exact ⟨phrase, hphrase, before, found, after, rfl, hstands⟩
  · rintro ⟨phrase, hphrase, before, found, after, rfl, hstands⟩
    exact isBlockedChars_append hphrase (hstands.matchesHere (wellMade_of_mem hphrase).1) before

section Written
variable {phrase : Phrase} {c : Char} {cs found after : List Char} {s : String}

theorem escapedChar_of_plain (hc : IsPlain c) (hne : c ≠ '"' ∧ c ≠ '\\') :
    Json.escapedChar c = [c] := by
  have hplain : 0x20 ≤ c.toNat := hc
  rw [Json.escapedChar, if_neg hne.1, if_neg hne.2, if_pos hplain]

/-- A character is written as it is, or else it is in no word and its escape begins with a
backslash. -/
theorem escapedChar_cases (c : Char) :
    (Json.escapedChar c = [c] ∧ IsPlain c) ∨ isWordChar c = false ∧ ∃ rest, Json.escapedChar c =
      '\\' :: rest := by
  by_cases hquote : c = '"'
  · subst hquote
    exact .inr ⟨by decide, ['"'], rfl⟩
  by_cases hslash : c = '\\'
  · subst hslash
    exact .inr ⟨by decide, ['\\'], rfl⟩
  by_cases hplain : IsPlain c
  · exact .inl ⟨escapedChar_of_plain hplain ⟨hquote, hslash⟩, hplain⟩
  · have hall : ∀ n < 0x20,
        isWordChar (Char.ofNat n) = false ∧ (Json.escapedChar (Char.ofNat n)).head? =
          some '\\' := by decide
    obtain ⟨hword, hhead⟩ := hall c.toNat (Nat.not_le.mp hplain)
    rw [Char.ofNat_toNat] at hword hhead
    exact .inr ⟨hword, List.head?_eq_some_iff.mp hhead⟩

theorem isWordChar_of_written_head (h : ∀ d ∈ (Json.escaped after ++ ['"']).head?,
    isWordChar d = false) : ∀ d ∈ after.head?, isWordChar d = false := by
  cases after with
  | nil => exact nofun
  | cons c rest =>
      rintro d hd
      obtain rfl := Option.some.inj hd
      rcases escapedChar_cases c with ⟨hsame, -⟩ | ⟨hword, -⟩
      · exact h c (by rw [Json.escaped, List.flatMap_cons, hsame]; rfl)
      · exact hword

/-- Two letters in a written text: the first one ends what some character is written as. -/
theorem exists_lastWritten {x y : Char} {before rest : List Char} (hx : IsFolded x)
    (hy : IsFolded y) (h : Json.escaped cs ++ ['"'] = before ++ (x :: y :: rest)) :
    ∃ front c back, cs = front ++ (c :: back) ∧ lastWritten c = x ∧
    y :: rest = Json.escaped back ++ ['"'] := by
  induction cs generalizing before with
  | nil =>
      have hlength := congrArg List.length h
      simp [Json.escaped] at hlength
      omega
  | cons c cs ih =>
      rw [Json.escaped, List.flatMap_cons, List.append_assoc] at h
      obtain ⟨middle, rfl, hrest⟩ | ⟨middle, hc, hrest⟩ := List.append_eq_append_iff.mp h
      · obtain ⟨front, d, back, rfl, hlast, hback⟩ := ih hrest
        exact ⟨c :: front, d, back, rfl, hlast, hback⟩
      · rcases middle with _ | ⟨z, _ | ⟨w, middle⟩⟩
        · have hstart : Json.escaped cs ++ ['"'] = [] ++ (x :: y :: rest) := hrest.symm
          obtain ⟨front, d, back, rfl, hlast, hback⟩ := ih hstart
          exact ⟨c :: front, d, back, rfl, hlast, hback⟩
        · obtain ⟨rfl, hback⟩ := List.cons.inj hrest
          refine ⟨[], c, cs, rfl, ?_, hback⟩
          simp [lastWritten, hc]
        · obtain ⟨rfl, hback⟩ := List.cons.inj hrest
          obtain ⟨rfl, -⟩ := List.cons.inj hback
          have hchain := isChain_escapedChar c
          rw [hc, List.isChain_append_cons_cons] at hchain
          exact absurd ⟨hx, hy⟩ hchain.2.1

/-- What stands in a written text without a quotation mark or a backslash stands there as it was. -/
theorem exists_of_written (hfound : ∀ c ∈ found, c ≠ '"' ∧ c ≠ '\\')
    (h : Json.escaped cs ++ ['"'] = found ++ after) :
    ∃ rest, cs = found ++ rest ∧ after = Json.escaped rest ++ ['"'] ∧ ∀ c ∈ found, IsPlain c := by
  induction found generalizing cs with
  | nil => exact ⟨cs, rfl, h.symm, List.forall_mem_nil _⟩
  | cons d found ih =>
      obtain ⟨hd, hothers⟩ := List.forall_mem_cons.mp hfound
      cases cs with
      | nil => exact absurd (List.cons.inj h).1.symm hd.1
      | cons c cs =>
          rw [Json.escaped, List.flatMap_cons, List.append_assoc] at h
          rcases escapedChar_cases c with ⟨hsame, hplain⟩ | ⟨-, more, hescape⟩
          · rw [hsame] at h
            obtain ⟨rfl, hrest⟩ := List.cons.inj h
            obtain ⟨rest, rfl, hafter, hall⟩ := ih hothers hrest
            exact ⟨rest, rfl, hafter, List.forall_mem_cons.mpr ⟨hplain, hall⟩⟩
          · rw [hescape] at h
            exact absurd (List.cons.inj h).1.symm hd.2

theorem standsIn_of_written (hmade : isWellMade phrase = true) (h : StandsWritten phrase s.toList) :
    StandsIn phrase (Json.quoted s).toList := by
  obtain ⟨before, c, found, after, hs, hstands, hplain⟩ := h
  have hne := (List.forall_mem_cons.mp (hstands.ne_of_mem hmade)).2
  have hsame : Json.escaped found = found := by
    rw [Json.escaped, List.flatMap_congr fun d hd => escapedChar_of_plain (hplain d hd) (hne d hd),
      List.flatMap_singleton']
  have hlast : (Json.escapedChar c).dropLast ++ [lastWritten c] = Json.escapedChar c :=
    List.dropLast_append_getLast _
  have hescaped : Json.escaped s.toList = Json.escaped before ++
      ((Json.escapedChar c).dropLast ++ (lastWritten c :: (found ++ Json.escaped after))) := by
    calc Json.escaped s.toList
      _ = Json.escaped before ++
          (Json.escapedChar c ++ (Json.escaped found ++ Json.escaped after)) := by
        rw [hs, Json.escaped, List.flatMap_append, List.flatMap_cons, List.flatMap_append]
        rfl
      _ = _ := by rw [hsame, ← hlast]; simp
  refine ⟨'"' :: (Json.escaped before ++ (Json.escapedChar c).dropLast), lastWritten c :: found,
    Json.escaped after ++ ['"'], ?_, hstands.followed fun hafter d =>
      isWordChar_of_head_written hafter⟩
  rw [Json.quoted, String.toList_ofList, hescaped]
  simp

theorem standsWritten_of_quoted (hmade : isWellMade phrase = true)
    (hword : opensWithWord phrase = true) (h : StandsIn phrase (Json.quoted s).toList) :
    StandsWritten phrase s.toList := by
  obtain ⟨before, found, after, hs, hstands⟩ := h
  obtain ⟨x, y, rest, rfl, hx, hy⟩ := hstands.exists_letters hmade hword
  rw [Json.quoted, String.toList_ofList] at hs
  cases before with
  | nil =>
      obtain ⟨rfl, -⟩ := List.cons.inj hs
      exact absurd hx (by decide)
  | cons b before =>
      obtain ⟨-, hs⟩ := List.cons.inj hs
      obtain ⟨front, c, back, hcs, rfl, hback⟩ := exists_lastWritten hx hy hs
      have hne := (List.forall_mem_cons.mp (hstands.ne_of_mem hmade)).2
      obtain ⟨more, rfl, rfl, hplain⟩ := exists_of_written hne hback.symm
      exact ⟨front, c, y :: rest, more, hcs, hstands.followed isWordChar_of_written_head, hplain⟩

theorem isBlocked_quoted_iff :
    isBlocked (Json.quoted s) = true ↔ ∃ phrase ∈ phrases, StandsWritten phrase s.toList := by
  refine isBlockedChars_iff.trans (exists_congr fun phrase => and_congr_right fun hphrase => ?_)
  obtain ⟨hmade, hword⟩ := wellMade_of_mem hphrase
  exact ⟨standsWritten_of_quoted hmade hword, standsIn_of_written hmade⟩

/-- A letter is written as it is, so a phrase without control characters stands in the written form
as well. -/
theorem StandsPlainly.standsWritten (hmade : isWellMade phrase = true)
    (hword : opensWithWord phrase = true) (h : StandsPlainly phrase cs) :
    StandsWritten phrase cs := by
  obtain ⟨before, found, after, rfl, hstands, hplain⟩ := h
  obtain ⟨x, y, rest, rfl, -, -⟩ := hstands.exists_letters hmade hword
  obtain ⟨hx, hrest⟩ := List.forall_mem_cons.mp hplain
  have hsame : lastWritten x = x := by
    simp [lastWritten, escapedChar_of_plain hx (hstands.ne_of_mem hmade x List.mem_cons_self)]
  exact ⟨before, x, y :: rest, after, rfl, hsame.symm ▸ hstands, hrest⟩

end Written

section Screened
variable {key : String} {v : Json} {s : String}

theorem checkText_eq_error_iff :
    checkText key s = .error (.suspicious key (Json.quoted s)) ↔
    isBlocked (Json.quoted s) = true := by
  rw [checkText, check]
  split_ifs with hblocked
  · exact ⟨fun _ => hblocked, fun _ => rfl⟩
  · refine ⟨fun h => ?_, fun h => absurd h hblocked⟩
    cases h

theorem isBlocked_quoted_of_check (h : check key v = .ok ()) (hs : v.HasString s) :
    isBlocked (Json.quoted s) = false := by
  induction hs generalizing key with
  | text =>
      rw [check] at h
      split_ifs at h with hblocked
      exact (Bool.not_eq_true _).mp hblocked
  | item hitem _ ih => exact ih (checkItems_eq_ok.mp h _ hitem)
  | value hfield _ ih => exact ih (checkFields_eq_ok.mp h _ hfield).2

theorem exists_error_of_hasString (hblocked : isBlocked (Json.quoted s) = true)
    (hs : v.HasString s) : ∃ e, check key v = .error e := by
  cases hcheck : check key v with
  | error e => exact ⟨e, rfl⟩
  | ok =>
      rw [isBlocked_quoted_of_check hcheck hs] at hblocked
      cases hblocked

end Screened

/-- A text is blocked just if a phrase stands in it. A string is refused, under each key, just if a
phrase stands in it as it is written, and then every value is refused that has the string somewhere.
That is so in particular where a phrase stands in it that has no control character in it, whatever
other blanks are between its words or before its quote. -/
theorem strings_are_refused_as_written (s : String) :
    (isBlocked s = true ↔ ∃ phrase ∈ phrases, StandsIn phrase s.toList) ∧
    (∀ key, checkText key s = .error (.suspicious key (Json.quoted s)) ↔
      ∃ phrase ∈ phrases, StandsWritten phrase s.toList) ∧
    (∀ key v, v.HasString s → (∃ phrase ∈ phrases, StandsWritten phrase s.toList) →
      ∃ e, check key v = .error e) ∧
    ((∃ phrase ∈ phrases, StandsPlainly phrase s.toList) →
      ∃ phrase ∈ phrases, StandsWritten phrase s.toList) := by
  refine ⟨isBlockedChars_iff, fun key => checkText_eq_error_iff.trans isBlocked_quoted_iff,
    fun key v hs hwritten => exists_error_of_hasString (isBlocked_quoted_iff.mpr hwritten) hs, ?_⟩
  rintro ⟨phrase, hphrase, hplain⟩
  obtain ⟨hmade, hword⟩ := wellMade_of_mem hphrase
  exact ⟨phrase, hphrase, hplain.standsWritten hmade hword⟩

/-- The two words stand apart by a no-break space and a blank, in a string that is deep inside a
filter. -/
theorem strings_are_refused_as_written_deep :
    isBlocked "id; Delete\u00a0 From t" = true ∧
      ∃ e, check "where"
        (.object [("name", .list [.null, .object [("$like", .text "id; Delete\u00a0 From t")]])])
        = .error e := by
  obtain ⟨hblocked, -, hrefused, hwritten⟩ :=
    strings_are_refused_as_written "id; Delete\u00a0 From t"
  have hphrase :
    word "delete" ++ ([.blanks true] ++ (word "from" ++ [.wordEnd])) ∈ phrases := by decide
  have hend : Stands [.wordEnd] [] " t".toList :=
    .wordEnd (fun c hc => Option.some.inj hc ▸ by decide) .nil
  have hfrom : Stands (word "from" ++ [.wordEnd]) ("From".toList ++ []) " t".toList :=
    .word (by decide) hend
  have hblanks : Stands ([.blanks true] ++ (word "from" ++ [.wordEnd]))
    ("\u00a0 ".toList ++ ("From".toList ++ []))
      " t".toList := .blanks (by decide) (by decide) hfrom
  have hstands : Stands (word "delete" ++ ([.blanks true] ++ (word "from" ++ [.wordEnd])))
      ("Delete".toList ++ ("\u00a0 ".toList ++ ("From".toList ++ []))) " t".toList :=
        .word (by decide) hblanks
  refine ⟨hblocked.mpr ⟨_, hphrase, "id; ".toList, _, _, by decide, hstands⟩, hrefused "where" _ ?_
    (hwritten ⟨_, hphrase, "id; ".toList, _, _, by decide, hstands, by decide⟩)⟩
  refine .value List.mem_cons_self (.item (List.mem_cons_of_mem _ List.mem_cons_self) ?_)
  exact .value List.mem_cons_self .text

/-- A newline between the two words is no blank where the string is searched: a blocked text is let
through. -/
theorem phrase_is_hidden_by_newline :
    isBlocked "DELETE\nFROM users" = true ∧ checkText "where" "DELETE\nFROM users" = .ok () :=
  ⟨by decide +kernel, eq_ok_of_toOption (by decide +kernel)⟩

end Guard

end SqlGateway
