import SqlGateway.Dialect.Paging
import SqlGateway.Proofs.Query.Vocabulary

/-!
# Statements that order their rows

Where a statement orders its rows is found in its text with the quoted parts blanked. For a
statement that SQL Server can cut into lexemes, the words found there are words of the statement, so
an order clause is found just if the statement has one.
-/
namespace SqlGateway.Query

open Text Dialect Lexer

namespace Lexer

/-- What ends the quoted part in which a lexer stands. -/
def closing? : Lexer → Option Char
  | outside _ | afterQuote _ | afterName _ => none
  | inLiteral _ | afterBackslash _ => some '\''
  | inName close _ => some close

/-- The characters of the word in which a lexer stands. -/
def pending : Lexer → List Char
  | outside word => word
  | _ => []

variable {lexer next last : Lexer} {cs ds : List Char} {xs ys : List Lexeme}

/-- No backslash was read in a literal, as SQL Server reads them. -/
def Plain (lexer : Lexer) : Prop := ∀ value, lexer ≠ afterBackslash value

theorem plain_outside (word : List Char) : (outside word).Plain := by
  intro value h
  cases h

/-- Only small letters have another upper case. -/
theorem toUpper_cases (c : Char) : c.toUpper = c ∨ c.toNat ∈ List.range' 97 26 := by
  by_cases hlower : 'a'.val ≤ c.val ∧ c.val ≤ 'z'.val
  · simp only [UInt32.le_iff_toNat_le] at hlower
    exact .inr (List.mem_range'_1.mpr ⟨hlower.1, Nat.lt_succ_of_le hlower.2⟩)
  · exact .inl (dif_neg hlower)

theorem toUpper_of_mark {c : Char} {marked : List Lexeme} (h : mark? c = some marked) :
    c.toUpper = c := by
  refine (toUpper_cases c).resolve_right fun hletter => ?_
  have hall : ∀ n ∈ List.range' 97 26, mark? (Char.ofNat n) = none := by decide
  have hnone := hall c.toNat hletter
  rw [Char.ofNat_toNat, h] at hnone
  cases hnone

theorem mark?_toUpper {c : Char} (h : mark? c = none) : mark? c.toUpper = none := by
  rcases toUpper_cases c with heq | hletter
  · rwa [heq]
  · have hall : ∀ n ∈ List.range' 97 26, mark? (Char.ofNat n).toUpper = none := by decide
    simpa using hall c.toNat hletter

theorem isBlank_of_mark?_none {c : Char} (h : mark? c = none) : isBlank c = false := by
  unfold mark? at h
  split_ifs at h with hblank
  exact (Bool.not_eq_true _).mp hblank

theorem unquotedUpper_of_plain {c : Char} (hquote : c ≠ '\'') (hname : nameEnd? .mssql c = none)
    (rest : List Char) : unquotedUpper none (c :: rest) = c.toUpper :: unquotedUpper none rest := by
  have hdouble : c ≠ '"' := by
    rintro rfl
    cases hname
  have hbracket : c ≠ '[' := by
    rintro rfl
    cases hname
  simp [unquotedUpper, hquote, hdouble, hbracket]

theorem unquotedUpper_of_mark {c : Char} {marked : List Lexeme} (h : mark? c = some marked)
    (rest : List Char) : unquotedUpper none (c :: rest) = c.toUpper :: unquotedUpper none rest := by
  refine unquotedUpper_of_plain ?_ ?_ rest
  · rintro rfl
    cases h
  · unfold nameEnd?
    split
    all_goals first | rfl | cases h

theorem unquotedUpper_of_name {c close : Char} (hname : nameEnd? .mssql c = some close)
    (rest : List Char) :
    unquotedUpper none (c :: rest) = ' ' :: unquotedUpper (some close) rest := by
  by_cases hdouble : c = '"'
  · subst hdouble
    obtain rfl := Option.some.inj hname
    rfl
  · by_cases hbracket : c = '['
    · subst hbracket
      obtain rfl := Option.some.inj hname
      rfl
    · simp [nameEnd?, hdouble, hbracket] at hname

/-- What a character does to the text with its quoted parts blanked. -/
inductive Blanked (c : Char) : Lexer → List Lexeme → Lexer → Prop
  /-- It is a part of something quoted. -/
  | quoted {lexer next : Lexer} (hpending : lexer.pending = []) (hnext : next.pending = [])
      (h : ∀ rest, unquotedUpper lexer.closing? (c :: rest) =
        ' ' :: unquotedUpper next.closing? rest) :
      Blanked c lexer [] next
  | mark {lexer : Lexer} {before marked : List Lexeme} (hclosing : lexer.closing? = none)
      (hfinish : lexer.finish = some before) (hmark : mark? c = some marked) :
      Blanked c lexer (before ++ marked) (outside [])
  | letter {word : List Char} (hmark : mark? c = none) (h : ∀ rest,
      unquotedUpper none (c :: rest) = c.toUpper :: unquotedUpper none rest) :
      Blanked c (outside word) [] (outside (word ++ [c]))

theorem blanked_of_step {c : Char} (hplain : lexer.Plain)
    (h : lexer.step .mssql c = some (xs, next)) : Blanked c lexer xs next ∧ next.Plain := by
  cases lexer with
  | outside word =>
      by_cases hquote : c = '\''
      · subst hquote
        simp only [step, if_true] at h
        split_ifs at h with hempty
        obtain ⟨rfl, rfl⟩ := Prod.mk.inj (Option.some.inj h)
        exact ⟨.quoted (List.isEmpty_iff.mp hempty) rfl
          fun rest => by simp [unquotedUpper, closing?], by simp [Plain]⟩
      · simp only [step, if_neg hquote] at h
        split at h
        · rename_i close _ hname
          split_ifs at h with hempty
          obtain ⟨rfl, rfl⟩ := Prod.mk.inj (Option.some.inj h)
          exact ⟨.quoted (List.isEmpty_iff.mp hempty)
            rfl (unquotedUpper_of_name hname), by simp [Plain]⟩
        · rename_i marked hname hmark
          obtain ⟨rfl, rfl⟩ := Prod.mk.inj (Option.some.inj h)
          exact ⟨.mark rfl rfl hmark, by simp [Plain]⟩
        · rename_i hname hmark
          obtain ⟨rfl, rfl⟩ := Prod.mk.inj (Option.some.inj h)
          exact ⟨.letter hmark (unquotedUpper_of_plain hquote hname), by simp [Plain]⟩
  | inLiteral value =>
      simp only [step] at h
      split_ifs at h with hquote hescape
      · obtain ⟨rfl, rfl⟩ := Prod.mk.inj (Option.some.inj h)
        exact ⟨.quoted rfl rfl
          fun rest => by simp [unquotedUpper, closing?, hquote], by simp [Plain]⟩
      · cases hescape.2
      · obtain ⟨rfl, rfl⟩ := Prod.mk.inj (Option.some.inj h)
        exact ⟨.quoted rfl rfl
          fun rest => by simp [unquotedUpper, closing?, hquote], by simp [Plain]⟩
  | afterBackslash value => exact absurd rfl (hplain value)
  | afterQuote value =>
      simp only [step] at h
      split_ifs at h with hquote
      · obtain ⟨rfl, rfl⟩ := Prod.mk.inj (Option.some.inj h)
        exact ⟨.quoted rfl rfl
          fun rest => by simp [unquotedUpper, closing?, hquote], by simp [Plain]⟩
      · obtain ⟨marked, hmark, h⟩ := Option.map_eq_some_iff.mp h
        obtain ⟨rfl, rfl⟩ := Prod.mk.inj h
        have hblanked : Blanked c (afterQuote value) ([.literal (String.ofList value)] ++ marked)
            (outside []) := .mark rfl rfl hmark
        exact ⟨hblanked, by simp [Plain]⟩
  | inName close text =>
      simp only [step] at h
      split_ifs at h with hclose
      · obtain ⟨rfl, rfl⟩ := Prod.mk.inj (Option.some.inj h)
        exact ⟨.quoted rfl rfl
          fun rest => by simp [unquotedUpper, closing?, hclose], by simp [Plain]⟩
      · obtain ⟨rfl, rfl⟩ := Prod.mk.inj (Option.some.inj h)
        exact ⟨.quoted rfl rfl
          fun rest => by simp [unquotedUpper, closing?, hclose], by simp [Plain]⟩
  | afterName text =>
      obtain ⟨marked, hmark, h⟩ := Option.map_eq_some_iff.mp h
      obtain ⟨rfl, rfl⟩ := Prod.mk.inj h
      have hblanked : Blanked c (afterName text) ([.name (String.ofList text)] ++ marked)
          (outside []) := .mark rfl rfl hmark
      exact ⟨hblanked, by simp [Plain]⟩

/-- What a run goes over is blanked as it is blanked at the front of any text. -/
theorem unquotedUpper_append (hplain : lexer.Plain) (h : run .mssql lexer cs = some (xs, last))
    (ds : List Char) :
    unquotedUpper lexer.closing? (cs ++ ds) =
      unquotedUpper lexer.closing? cs ++ unquotedUpper last.closing? ds := by
  induction cs generalizing lexer xs with
  | nil =>
      obtain ⟨rfl, rfl⟩ : [] = xs ∧ lexer = last := by simpa [run] using h
      rfl
  | cons c rest ih =>
      obtain ⟨⟨before, middle⟩, hstep, h⟩ := Option.bind_eq_some_iff.mp h
      obtain ⟨⟨after, reached⟩, hrun, h⟩ := Option.map_eq_some_iff.mp h
      obtain ⟨rfl, rfl⟩ := Prod.mk.inj h
      obtain ⟨hblanked, hmiddle⟩ := blanked_of_step hplain hstep
      have hrest := ih hmiddle hrun
      cases hblanked with
      | quoted _ _ hquoted => simp [hquoted, hrest]
      | mark hclosing hfinish hmark =>
          have hrest : unquotedUpper none (rest ++ ds) =
            unquotedUpper none rest ++ unquotedUpper reached.closing? ds := hrest
          rw [hclosing, List.cons_append, unquotedUpper_of_mark hmark,
            unquotedUpper_of_mark hmark, hrest, List.cons_append]
      | letter hmark hletter =>
          have hrest : unquotedUpper none (rest ++ ds) =
            unquotedUpper none rest ++ unquotedUpper reached.closing? ds := hrest
          rw [closing?, List.cons_append, hletter, hletter, hrest, List.cons_append]

/-- The words among lexemes, in upper case. -/
def upperWord? : Lexeme → Option (List Char)
  | .word w => some (upper w.toList)
  | _ => none

def isMark (c : Char) : Bool := (mark? c).isSome

theorem filterMap_upperWord?_of_mark {c : Char} {marked : List Lexeme} (h : mark? c = some marked) :
    marked.filterMap upperWord? = [] := by
  unfold mark? at h
  split_ifs at h <;> exact Option.some.inj h ▸ rfl

theorem cleared_of_forall (h : ∀ c ∈ cs, mark? c = none) :
    cleared isMark (upper cs) = upper cs := by
  have hplain : ∀ c ∈ upper cs, (if isMark c then ' ' else c) = c := by
    intro c hc
    obtain ⟨d, hd, rfl⟩ := List.mem_map.mp hc
    simp [isMark, mark?_toUpper (h d hd)]
  rw [cleared, List.map_congr_left hplain, List.map_id']

/-- The word in which a lexer stands is what the end of the text ends. -/
theorem upperWords_of_finish (hpending : ∀ c ∈ lexer.pending, mark? c = none)
    (hfinish : lexer.finish = some ys) :
    ys.filterMap upperWord? = Text.words (cleared isMark (upper lexer.pending)) := by
  rw [cleared_of_forall hpending]
  cases lexer with
  | outside word =>
      obtain rfl : wordLexeme word = ys := Option.some.inj hfinish
      cases word with
      | nil => rfl
      | cons c rest =>
          have hblank : ∀ d ∈ upper (c :: rest), isBlank d = false := by
            intro d hd
            obtain ⟨e, he, rfl⟩ := List.mem_map.mp hd
            exact isBlank_of_mark?_none (mark?_toUpper (hpending e he))
          have hne : upper (c :: rest) ≠ [] := List.cons_ne_nil _ _
          rw [pending, words_of_forall hne hblank]
          simp [wordLexeme, upperWord?]
  | afterQuote value | afterName text => exact Option.some.inj hfinish ▸ rfl
  | inLiteral value | afterBackslash value | inName close text => cases hfinish

/-- The words of a text are those of the text with its quoted parts and its marks blanked. -/
theorem upperWords_of_run (hplain : lexer.Plain) (hpending : ∀ c ∈ lexer.pending, mark? c = none)
    (h : run .mssql lexer cs = some (xs, last)) (hfinish : last.finish = some ys) :
    (xs ++ ys).filterMap upperWord? =
      Text.words (cleared isMark (upper lexer.pending ++ unquotedUpper lexer.closing? cs)) := by
  induction cs generalizing lexer xs with
  | nil =>
      obtain ⟨rfl, rfl⟩ : [] = xs ∧ lexer = last := by simpa [run] using h
      rw [unquotedUpper, List.append_nil]
      exact upperWords_of_finish hpending hfinish
  | cons c rest ih =>
      obtain ⟨⟨before, middle⟩, hstep, h⟩ := Option.bind_eq_some_iff.mp h
      obtain ⟨⟨after, reached⟩, hrun, h⟩ := Option.map_eq_some_iff.mp h
      obtain ⟨rfl, rfl⟩ := Prod.mk.inj h
      obtain ⟨hblanked, hmiddle⟩ := blanked_of_step hplain hstep
      cases hblanked with
      | quoted hnone hnext hquoted =>
          have hblank : cleared isMark (upper [] ++ ' ' :: unquotedUpper middle.closing? rest) =
            ' ' :: cleared isMark (unquotedUpper middle.closing? rest) := rfl
          have hrest := ih hmiddle (by simp [hnext]) hrun
          rw [hnext] at hrest
          rw [hnone, hquoted, hblank, words_cons_of_blank rfl]
          exact hrest
      | @mark _ ended marked hclosing hended hmark =>
          have hblank : cleared isMark (c :: unquotedUpper none rest) =
              ' ' :: cleared isMark (unquotedUpper none rest) := by
            simp [cleared, isMark, hmark]
          have hrest := ih hmiddle (List.forall_mem_nil _) hrun
          rw [hclosing, unquotedUpper_of_mark hmark, toUpper_of_mark hmark, cleared,
            List.map_append, ← cleared,
            ← cleared, hblank, words_append_blank rfl, ← upperWords_of_finish hpending hended,
              List.append_assoc,
            List.append_assoc, List.filterMap_append, List.filterMap_append,
              filterMap_upperWord?_of_mark hmark,
            hrest]
          rfl
      | @letter word hmark hletter =>
          have hnext : ∀ d ∈ (outside (word ++ [c])).pending, mark? d = none :=
            List.forall_mem_append.mpr ⟨hpending, List.forall_mem_singleton.mpr hmark⟩
          have hrest := ih hmiddle hnext hrun
          rw [closing?, hletter]
          simpa [upper, pending, closing?] using hrest

end Lexer

section Ordered
variable {xs : List Lexeme}

theorem toList_intercalate_words (ws : List (List Char)) :
    (" ".intercalate (ws.map String.ofList)).toList = [' '].intercalate ws := by
  simp [String.toList_intercalate]

/-- Where an order clause is found, its two words follow each other in the text. -/
theorem exists_of_hasOrderBy {text : String} (h : lexemes .mssql text.toList = some xs)
    (hfound : hasOrderBy text = true) :
    ∃ front back, xs.filterMap upperWord? = front ++ "ORDER".toList :: "BY".toList :: back := by
  generalize hws : Text.words (unquotedUpper none text.toList) = ws at hfound
  have hfound : occurs " ORDER BY ".toList ([' '].intercalate ws) = true := by
    rwa [hasOrderBy, hws, toList_intercalate_words] at hfound
  obtain ⟨front, back, hplace⟩ := exists_of_occurs hfound
  have hblanks : front ++ (" ORDER BY ".toList ++ back) =
      front ++ ' ' :: ("ORDER".toList ++ ' ' :: ("BY".toList ++ ' ' :: back)) := rfl
  have horder : Text.words "ORDER".toList = ["ORDER".toList] :=
    words_of_forall (by decide) (by decide)
  have hby : Text.words "BY".toList = ["BY".toList] := words_of_forall (by decide) (by decide)
  have hsplit : ws = Text.words front ++ "ORDER".toList :: "BY".toList :: Text.words back := by
    have hword : ∀ w ∈ ws, w ≠ [] ∧ ∀ c ∈ w, isBlank c = false :=
      fun w hw => not_blank_of_mem_words _ (hws ▸ hw)
    rw [← words_intercalate hword, hplace, hblanks, words_append_blank rfl, words_append_blank rfl,
      words_append_blank rfl, horder, hby]
    rfl
  obtain ⟨before, lexer, after, hrun, hfinish, rfl⟩ := lexemes_eq_some.mp h
  have hwords := upperWords_of_run (plain_outside []) (List.forall_mem_nil _) hrun hfinish
  have htext : upper (pending (outside [])) ++ unquotedUpper (closing? (outside [])) text.toList =
    unquotedUpper none text.toList := rfl
  rw [htext, words_cleared, hws, hsplit, List.flatMap_append, List.flatMap_cons,
    List.flatMap_cons] at hwords
  exact ⟨_, _, hwords⟩

/-- An order clause between words is found. -/
theorem hasOrderBy_eq_true {front back : String} (h : lexemes .mssql front.toList = some xs)
    (hfront : ∃ c rest, front.toList = c :: rest ∧ isUnmarked c = true)
    (hback : ∃ c rest, back.toList = c :: rest ∧ isUnmarked c = true) :
    hasOrderBy (front ++ " ORDER BY " ++ back) = true := by
  have starts : ∀ {text : String}, (∃ c rest, text.toList = c :: rest ∧ isUnmarked c = true) →
      Text.words (unquotedUpper none text.toList) ≠ [] := by
    rintro text ⟨c, rest, htext, hc⟩
    obtain ⟨hmark, hquote, hname⟩ := not_mark_of_isUnmarked (d := .mssql) hc
    rw [htext, unquotedUpper_of_plain hquote hname]
    exact words_ne_nil (isBlank_of_mark?_none (mark?_toUpper hmark))
  obtain ⟨before, lexer, after, hrun, hfinish, rfl⟩ := lexemes_eq_some.mp h
  have hclosing : lexer.closing? = none := by
    cases lexer with
    | outside word | afterQuote value | afterName label => rfl
    | inLiteral value | afterBackslash value | inName close label => cases hfinish
  have hupper : unquotedUpper none (front ++ " ORDER BY " ++ back).toList =
      unquotedUpper none front.toList ++
        ' ' :: ("ORDER".toList ++ ' ' ::
          ("BY".toList ++ ' ' :: unquotedUpper none back.toList)) := by
    have happend := unquotedUpper_append (plain_outside []) hrun
      (" ORDER BY ".toList ++ back.toList)
    rw [hclosing] at happend
    rw [String.toList_append, String.toList_append, List.append_assoc]
    exact happend
  have hwords : Text.words (unquotedUpper none (front ++ " ORDER BY " ++ back).toList) =
      Text.words (unquotedUpper none front.toList) ++ ("ORDER".toList :: "BY".toList ::
        Text.words (unquotedUpper none back.toList)) := by
    have horder : Text.words "ORDER".toList = ["ORDER".toList] :=
      words_of_forall (by decide) (by decide)
    have hby : Text.words "BY".toList = ["BY".toList] := words_of_forall (by decide) (by decide)
    rw [hupper, words_append_blank rfl, words_append_blank rfl, words_append_blank rfl, horder, hby]
    rfl
  have hfront : (Text.words (unquotedUpper none front.toList)).map String.ofList ≠ [] := by
    simpa using starts hfront
  have hback : (Text.words (unquotedUpper none back.toList)).map String.ofList ≠ [] := by
    simpa using starts hback
  rw [hasOrderBy, hwords, List.map_append, List.map_cons, List.map_cons,
    String.intercalate_append_of_ne_nil hfront (List.cons_ne_nil _ _), String.intercalate_cons_cons,
    String.intercalate_cons_of_ne_nil hback]
  generalize (Text.words (unquotedUpper none front.toList)).map String.ofList = before
  generalize (Text.words (unquotedUpper none back.toList)).map String.ofList = after
  have hplace := occurs_append (" ".intercalate before).toList " ORDER BY ".toList
    (" ".intercalate after).toList
  simpa using hplace

end Ordered

end SqlGateway.Query
