import Mathlib.Data.List.Basic
import SqlGateway.Query.Literal
import SqlGateway.Text.Character

/-!
# Lexemes of statements

How an engine cuts the text of a statement. A literal stands in single quotes and a quote inside it
is written twice; MySQL also takes a backslash inside a literal for the start of an escape. A name
in quotes, as an alias is one, goes on to its closing quote. Outside quotes, blanks, commas and
parentheses end a word and every other character belongs to one. What is quoted must stand by
itself: where a word or another quoted part touches it, there are no lexemes.
-/
namespace SqlGateway.Query

open Text

inductive Lexeme where
  | word (text : String)
  /-- A literal, by its value. -/
  | literal (value : String)
  /-- A name in quotes. -/
  | name (text : String)
  | opening
  | closing
  | comma
  deriving DecidableEq, Repr

/-- Where a lexer stands. -/
inductive Lexer where
  /-- Outside quotes, after the given characters of a word. -/
  | outside (word : List Char)
  | inLiteral (value : List Char)
  /-- After a backslash inside a literal. -/
  | afterBackslash (value : List Char)
  /-- After a quote inside a literal, which is its end unless another quote follows. -/
  | afterQuote (value : List Char)
  | inName (close : Char) (text : List Char)
  | afterName (text : List Char)
  deriving DecidableEq

namespace Lexer

/-- The end of the quoted name that a character begins. -/
def nameEnd? : Dialect → Char → Option Char
  | .postgres, '"' | .sqlite, '"' | .mssql, '"' => some '"'
  | .mssql, '[' => some ']'
  | .mysql, '\x60' => some '\x60'
  | _, _ => none

/-- What a backslash and a character stand for in a literal of MySQL. The two wildcards of patterns
keep their backslash. -/
def unescaped : Char → List Char
  | '0' => ['\x00']
  | 'b' => ['\x08']
  | 'n' => ['\n']
  | 'r' => ['\r']
  | 't' => ['\t']
  | 'Z' => ['\x1a']
  | '%' => ['\\', '%']
  | '_' => ['\\', '_']
  | c => [c]

/-- The lexemes of a character that separates words. -/
def mark? (c : Char) : Option (List Lexeme) :=
  if isBlank c then some []
  else if c = '(' then some [.opening]
  else if c = ')' then some [.closing]
  else if c = ',' then some [.comma]
  else none

def wordLexeme (word : List Char) : List Lexeme :=
  if word.isEmpty then [] else [.word (String.ofList word)]

/-- The lexemes that a character ends, and where the lexer stands after it. -/
def step (d : Dialect) : Lexer → Char → Option (List Lexeme × Lexer)
  | outside word, c =>
    if c = '\'' then if word.isEmpty then some ([], inLiteral []) else none
    else
      match nameEnd? d c, mark? c with
      | some close, _ => if word.isEmpty then some ([], inName close []) else none
      | none, some marked => some (wordLexeme word ++ marked, outside [])
      | none, none => some ([], outside (word ++ [c]))
  | inLiteral value, c =>
    if c = '\'' then some ([], afterQuote value)
    else if c = '\\' ∧ d = .mysql then some ([], afterBackslash value)
    else some ([], inLiteral (value ++ [c]))
  | afterBackslash value, c => some ([], inLiteral (value ++ unescaped c))
  | afterQuote value, c =>
    if c = '\'' then some ([], inLiteral (value ++ ['\'']))
    else (mark? c).map fun marked => (.literal (String.ofList value) :: marked, outside [])
  | inName close text, c =>
    if c = close then some ([], afterName text) else some ([], inName close (text ++ [c]))
  | afterName text, c =>
      (mark? c).map fun marked => (.name (String.ofList text) :: marked, outside [])

def run (d : Dialect) : Lexer → List Char → Option (List Lexeme × Lexer)
  | lexer, [] => some ([], lexer)
  | lexer, c :: rest =>
    (lexer.step d c).bind fun (before, next) =>
      (run d next rest).map fun (after, last) => (before ++ after, last)

/-- The lexemes that the end of the text ends; none where something quoted is open. -/
def finish : Lexer → Option (List Lexeme)
  | outside word => some (wordLexeme word)
  | afterQuote value => some [.literal (String.ofList value)]
  | afterName text => some [.name (String.ofList text)]
  | _ => none

end Lexer

/-- The lexemes of a text; none where a quoted part has no end or is touched by something else. -/
def lexemes (d : Dialect) (cs : List Char) : Option (List Lexeme) :=
  (Lexer.run d (.outside []) cs).bind fun (before, lexer) => lexer.finish.map (before ++ ·)

namespace Lexer

variable {d : Dialect} {lexer next last : Lexer} {cs ds : List Char} {xs ys : List Lexeme}

theorem run_cons {c : Char} (h : lexer.step d c = some (xs, next))
    (hrest : run d next cs = some (ys, last)) : run d lexer (c :: cs) = some (xs ++ ys, last) := by
  simp [run, h, hrest]

theorem run_append_eq_some {zs : List Lexeme} :
    run d lexer (cs ++ ds) = some (zs, last) ↔ ∃ xs next ys,
      run d lexer cs = some (xs, next) ∧ run d next ds = some (ys, last) ∧ zs = xs ++ ys := by
  induction cs generalizing lexer zs with
  | nil => simp [run]
  | cons c rest ih =>
      rw [List.cons_append, run, run]
      cases lexer.step d c with
      | none => simp
      | some stepped =>
          obtain ⟨before, middle⟩ := stepped
          constructor
          · intro h
            obtain ⟨⟨after, reached⟩, hrun, h⟩ := Option.map_eq_some_iff.mp h
            obtain ⟨rfl, rfl⟩ := Prod.mk.inj h
            obtain ⟨xs, next, ys, hxs, hys, rfl⟩ := ih.mp hrun
            exact ⟨before ++ xs, next, ys, by simp [hxs], hys, by simp⟩
          · rintro ⟨xs, next, ys, hxs, hys, rfl⟩
            obtain ⟨⟨after, reached⟩, hrun, hxs⟩ := Option.map_eq_some_iff.mp hxs
            obtain ⟨rfl, rfl⟩ := Prod.mk.inj hxs
            have happend := ih.mpr ⟨after, reached, ys, hrun, hys, rfl⟩
            simp [happend]

theorem run_append (h : run d lexer cs = some (xs, next))
    (hrest : run d next ds = some (ys, last)) : run d lexer (cs ++ ds) = some (xs ++ ys, last) :=
  run_append_eq_some.mpr ⟨xs, next, ys, h, hrest, rfl⟩

/-- A mark ends what stands before it. -/
theorem step_mark {c : Char} {marked : List Lexeme} (h : lexer.finish = some xs)
    (hc : mark? c = some marked) (hname : nameEnd? d c = none) (hquote : c ≠ '\'') :
    lexer.step d c = some (xs ++ marked, outside []) := by
  cases lexer with
  | outside word =>
      obtain rfl : wordLexeme word = xs := Option.some.inj h
      simp [step, hquote, hname, hc]
  | afterQuote value =>
      obtain rfl : [Lexeme.literal (String.ofList value)] = xs := Option.some.inj h
      simp [step, hquote, hc]
  | afterName text =>
      obtain rfl : [Lexeme.name (String.ofList text)] = xs := Option.some.inj h
      simp [step, hc]
  | inLiteral value => cases h
  | afterBackslash value => cases h
  | inName close text => cases h

end Lexer

open Lexer

variable {d : Dialect} {cs ds : List Char} {xs ys : List Lexeme}

theorem lexemes_eq_some : lexemes d cs = some xs ↔ ∃ before lexer after,
    run d (.outside []) cs = some (before, lexer) ∧ lexer.finish = some after ∧
      xs = before ++ after := by
  simp only [lexemes, Option.bind_eq_some_iff, Option.map_eq_some_iff, Prod.exists]
  constructor
  · rintro ⟨before, lexer, hrun, after, hfinish, rfl⟩
    exact ⟨before, lexer, after, hrun, hfinish, rfl⟩
  · rintro ⟨before, lexer, after, hrun, hfinish, rfl⟩
    exact ⟨before, lexer, hrun, after, hfinish, rfl⟩

/-- A text is cut at its marks: what stands before and after one is cut by itself. -/
theorem lexemes_append_mark {c : Char} {marked : List Lexeme} (hx : lexemes d cs = some xs)
    (hc : mark? c = some marked) (hname : nameEnd? d c = none) (hquote : c ≠ '\'')
    (hy : lexemes d ds = some ys) : lexemes d (cs ++ c :: ds) = some (xs ++ marked ++ ys) := by
  obtain ⟨before, lexer, after, hrun, hfinish, rfl⟩ := lexemes_eq_some.mp hx
  obtain ⟨before', lexer', after', hrun', hfinish', rfl⟩ := lexemes_eq_some.mp hy
  have hstep := step_mark hfinish hc hname hquote
  refine lexemes_eq_some.mpr ⟨_, lexer', after', run_append hrun (run_cons hstep hrun'),
    hfinish', ?_⟩
  simp

theorem lexemes_nil : lexemes d [] = some [] := rfl

theorem lexemes_append_blank (hx : lexemes d cs = some xs) (hy : lexemes d ds = some ys) :
    lexemes d (cs ++ ' ' :: ds) = some (xs ++ ys) := by
  have hname : nameEnd? d ' ' = none := by cases d <;> rfl
  have hmark : mark? ' ' = some [] := rfl
  have happend := lexemes_append_mark hx hmark hname (by decide) hy
  simpa using happend

theorem lexemes_append_comma (hx : lexemes d cs = some xs) (hy : lexemes d ds = some ys) :
    lexemes d (cs ++ ',' :: ' ' :: ds) = some (xs ++ .comma :: ys) := by
  have hname : nameEnd? d ',' = none := by cases d <;> rfl
  have hrest := lexemes_append_blank lexemes_nil hy
  have hmark : mark? ',' = some [.comma] := rfl
  have happend := lexemes_append_mark hx hmark hname (by decide) hrest
  simpa using happend

/-- A text before parentheses, with the lexemes of what they hold. -/
theorem lexemes_append_parenthesized (hx : lexemes d cs = some xs) (hy : lexemes d ds = some ys) :
    lexemes d (cs ++ '(' :: (ds ++ [')'])) = some (xs ++ .opening :: (ys ++ [.closing])) := by
  have hopen : nameEnd? d '(' = none := by cases d <;> rfl
  have hclose : nameEnd? d ')' = none := by cases d <;> rfl
  have hopening : mark? '(' = some [.opening] := rfl
  have hclosing : mark? ')' = some [.closing] := rfl
  have hinner := lexemes_append_mark hy hclosing hclose (by decide) lexemes_nil
  have happend := lexemes_append_mark hx hopening hopen (by decide) hinner
  simpa using happend

theorem lexemes_parenthesized (hx : lexemes d cs = some xs) :
    lexemes d ('(' :: (cs ++ [')'])) = some (.opening :: (xs ++ [.closing])) := by
  simpa using lexemes_append_parenthesized lexemes_nil hx

/-- A character that belongs to a word in every dialect. -/
def isUnmarked (c : Char) : Bool :=
  (mark? c).isNone && !(['\'', '"', '[', '\x60'].contains c)

/-- A class of visible characters without marks and quotes consists of characters of words. -/
theorem isUnmarked_of_class {p : Char → Bool} (hvisible : ∀ c, p c = true → '!' ≤ c ∧ c ≤ '~')
    (hp : ['\'', '"', '[', '\x60', '(', ')', ','].any p = false) {c : Char} (h : p c = true) :
    isUnmarked c = true := by
  obtain ⟨hleast, hgreatest⟩ := hvisible c h
  have hblank : isBlank c = false := by
    simp only [Char.le_def, UInt32.le_iff_toNat_le] at hleast hgreatest
    change 33 ≤ c.toNat at hleast
    change c.toNat ≤ 126 at hgreatest
    simp [isBlank]
    omega
  have hne : ∀ d ∈ ['\'', '"', '[', '\x60', '(', ')', ','], c ≠ d := by
    rintro d hd rfl
    exact List.any_eq_false.mp hp c hd h
  simp only [List.mem_cons, List.not_mem_nil, or_false, forall_eq_or_imp, forall_eq] at hne
  obtain ⟨hquote, hdouble, hbracket, htick, hopen, hclose, hcomma⟩ := hne
  simp [isUnmarked, mark?, *]

theorem not_mark_of_isUnmarked {c : Char} (h : isUnmarked c = true) :
    mark? c = none ∧ c ≠ '\'' ∧ nameEnd? d c = none := by
  have hmark : mark? c = none := by
    simp only [isUnmarked, Bool.and_eq_true, Option.isNone_iff_eq_none] at h
    exact h.1
  have hne : ∀ quote ∈ ['\'', '"', '[', '\x60'], c ≠ quote := by
    rintro quote hquote rfl
    simp only [isUnmarked, Bool.and_eq_true, Bool.not_eq_true'] at h
    rw [List.contains_iff_mem.mpr hquote] at h
    exact absurd h.2 (by decide)
  simp only [List.mem_cons, List.not_mem_nil, or_false, forall_eq_or_imp, forall_eq] at hne
  obtain ⟨hquote, hdouble, hbracket, htick⟩ := hne
  have hname : nameEnd? d c = none := by
    unfold nameEnd?
    split <;> simp_all
  exact ⟨hmark, hquote, hname⟩

theorem step_word {c : Char} (h : isUnmarked c = true) (word : List Char) :
    (outside word).step d c = some ([], outside (word ++ [c])) := by
  obtain ⟨hmark, hquote, hname⟩ := not_mark_of_isUnmarked (d := d) h
  simp [step, hquote, hname, hmark]

theorem run_word (h : ∀ c ∈ cs, isUnmarked c = true) (word : List Char) :
    run d (outside word) cs = some ([], outside (word ++ cs)) := by
  induction cs generalizing word with
  | nil => simp [run]
  | cons c rest ih =>
      obtain ⟨hc, hrest⟩ := List.forall_mem_cons.mp h
      have hrun := run_cons (step_word hc word) (ih hrest (word ++ [c]))
      simpa using hrun

theorem lexemes_word {s : String} (hne : s ≠ "") (h : ∀ c ∈ s.toList, isUnmarked c = true) :
    lexemes d s.toList = some [.word s] := by
  have hcs : s.toList ≠ [] := by simpa using hne
  refine lexemes_eq_some.mpr ⟨[], _, [.word s], run_word h [], ?_, rfl⟩
  simp [finish, wordLexeme, hcs]

/-- The backslashes of a text all stand before a wildcard of patterns. -/
def keepsBackslashes : List Char → Bool
  | [] => true
  | c :: rest =>
      (c != '\\' || rest.head?.any fun e => e == '%' || e == '_') && keepsBackslashes rest

/-- A dialect reads a text back from the literal that is written for it. -/
def Survives (d : Dialect) (s : String) : Prop := d = .mysql → keepsBackslashes s.toList = true

instance (d : Dialect) (s : String) : Decidable (Survives d s) := by
  unfold Survives
  infer_instance

theorem step_inLiteral {c : Char} (hquote : c ≠ '\'') (hplain : d = .mysql → c ≠ '\\')
    (value : List Char) : (inLiteral value).step d c = some ([], inLiteral (value ++ [c])) := by
  have hescape : ¬(c = '\\' ∧ d = .mysql) := fun h => hplain h.2 h.1
  simp only [step, if_neg hquote, if_neg hescape]

theorem run_doubled_quote (rest value : List Char) :
    run d (inLiteral value) (doubled '\'' ('\'' :: rest)) =
      run d (inLiteral (value ++ ['\''])) (doubled '\'' rest) := by
  simp [doubled, run, step, Function.comp_def]

/-- The text between the quotes of a literal is read as the text it was made of. After a backslash
the escape with the next character gives back both. -/
theorem run_doubled {s : List Char} (h : d = .mysql → keepsBackslashes s = true)
    (value : List Char) :
    run d (inLiteral value) (doubled '\'' s) = some ([], inLiteral (value ++ s)) ∧
      ((s.head?.any fun e => e == '%' || e == '_') = true →
        run d (afterBackslash value) (doubled '\'' s) =
          some ([], inLiteral (value ++ '\\' :: s))) := by
  induction s generalizing value with
  | nil => simp [doubled, run]
  | cons c rest ih =>
      have hrest : d = .mysql → keepsBackslashes rest = true := by
        intro hd
        have hkeeps := h hd
        simp only [keepsBackslashes, Bool.and_eq_true] at hkeeps
        exact hkeeps.2
      constructor
      · by_cases hquote : c = '\''
        · rw [hquote, run_doubled_quote, (ih hrest _).1]
          simp
        · have hcons : doubled '\'' (c :: rest) = c :: doubled '\'' rest := by
            simp [doubled, hquote]
          rw [hcons]
          by_cases hescape : c = '\\' ∧ d = .mysql
          · obtain ⟨rfl, hd⟩ := hescape
            have hwild : (rest.head?.any fun e => e == '%' || e == '_') = true := by
              have hkeeps := h hd
              simp only [keepsBackslashes, Bool.and_eq_true] at hkeeps
              simpa using hkeeps.1
            have hstep : (inLiteral value).step d '\\' = some ([], afterBackslash value) := by
              simp [step, hd]
            exact run_cons hstep ((ih hrest value).2 hwild)
          · have hstep := step_inLiteral hquote (fun hd hc => hescape ⟨hc, hd⟩) value
            have hrun := run_cons hstep (ih hrest (value ++ [c])).1
            simpa using hrun
      · intro hwild
        have hwild : c = '%' ∨ c = '_' := by simpa using hwild
        have hcons : doubled '\'' (c :: rest) = c :: doubled '\'' rest := by
          rcases hwild with rfl | rfl <;> rfl
        have hstep :
            (afterBackslash value).step d c = some ([], inLiteral (value ++ ['\\', c])) := by
          rcases hwild with rfl | rfl <;> rfl
        have hrun := run_cons hstep (ih hrest (value ++ ['\\', c])).1
        rw [hcons]
        simpa using hrun

theorem lexemes_quoteText {s : String} (h : Survives d s) :
    lexemes d (quoteText s).toList = some [.literal s] := by
  have hopen : (outside []).step d '\'' = some ([], inLiteral []) := by simp [step]
  have hclose : run d (inLiteral s.toList) ['\''] = some ([], afterQuote s.toList) := by
    simp [run, step]
  have hbody := (run_doubled h []).1
  rw [List.nil_append] at hbody
  have hrun := run_cons hopen (run_append hbody hclose)
  refine lexemes_eq_some.mpr ⟨[], afterQuote s.toList, [.literal s], ?_, by simp [finish], rfl⟩
  simpa [quoteText] using hrun

section Escapes
variable {s value content : List Char}

/-- Once a literal was ended by half of a doubled quote, its closing quote opens it again. -/
theorem run_afterQuote_doubled (s : List Char) :
    run d (afterQuote value) (doubled '\'' s ++ ['\'']) ≠ some ([], afterQuote content) := by
  induction s generalizing value with
  | nil => simp [doubled, run, step]
  | cons c rest ih =>
      by_cases hquote : c = '\''
      · simpa [doubled, hquote, run, step] using ih
      · have hcons : doubled '\'' (c :: rest) = c :: doubled '\'' rest := by simp [doubled, hquote]
        rw [hcons, List.cons_append, run]
        intro h
        obtain ⟨⟨before, next⟩, hstep, h⟩ := Option.bind_eq_some_iff.mp h
        obtain ⟨⟨after, last⟩, _, h⟩ := Option.map_eq_some_iff.mp h
        simp only [step, if_neg hquote, Option.map_eq_some_iff, Prod.mk.injEq] at hstep
        obtain ⟨marked, _, rfl, _⟩ := hstep
        simp at h

theorem length_unescaped (c : Char) : (unescaped c).length ≤ 2 := by
  unfold unescaped
  split <;> simp

theorem unescaped_of_length {c : Char} (h : (unescaped c).length = 2) : c = '%' ∨ c = '_' := by
  unfold unescaped at h
  split at h <;> simp_all

/-- Each character of a text gives at most one of the content of its literal, and an escape that is
none of the two wildcards gives less. -/
theorem keepsBackslashes_of_run : (s : List Char) → {value content : List Char} →
    run .mysql (inLiteral value) (doubled '\'' s ++ ['\'']) = some ([], afterQuote content) →
      content.length ≤ value.length + s.length ∧
        (content = value ++ s → keepsBackslashes s = true)
  | [], value, content, h => by
      obtain rfl : value = content := by simpa [doubled, run, step] using h
      simp [keepsBackslashes]
  | c :: rest, value, content, h => by
      by_cases hquote : c = '\''
      · subst hquote
        have hrun : run .mysql (inLiteral (value ++ ['\''])) (doubled '\'' rest ++ ['\'']) =
            some ([], afterQuote content) := by
          simpa [doubled, run, step] using h
        obtain ⟨hlength, hkeeps⟩ := keepsBackslashes_of_run rest hrun
        constructor
        · simpa [Nat.add_assoc, Nat.add_comm 1] using hlength
        · intro heq
          simp [keepsBackslashes, hkeeps (by simp [heq])]
      · have hcons : doubled '\'' (c :: rest) = c :: doubled '\'' rest := by simp [doubled, hquote]
        rw [hcons, List.cons_append] at h
        by_cases hescape : c = '\\'
        · subst hescape
          match rest, h with
          | [], h => simp [doubled, run, step] at h
          | e :: more, h =>
              by_cases he : e = '\''
              · subst he
                have hrun :
                  run .mysql (afterQuote (value ++ ['\''])) (doubled '\'' more ++ ['\'']) =
                    some ([], afterQuote content) := by
                  simpa [doubled, run, step, unescaped] using h
                exact absurd hrun (run_afterQuote_doubled more)
              · have hrun :
                  run .mysql (inLiteral (value ++ unescaped e)) (doubled '\'' more ++ ['\'']) =
                    some ([], afterQuote content) := by
                  simpa [doubled, he, run, step] using h
                obtain ⟨hlength, hkeeps⟩ := keepsBackslashes_of_run more hrun
                have htwo := length_unescaped e
                rw [List.length_append] at hlength
                constructor
                · simp only [List.length_cons]
                  omega
                · rintro rfl
                  have hwild : e = '%' ∨ e = '_' := by
                    simp only [List.length_append, List.length_cons] at hlength
                    exact unescaped_of_length (by omega)
                  have hmore := hkeeps (by rcases hwild with rfl | rfl <;> simp [unescaped])
                  rcases hwild with rfl | rfl <;> simp [keepsBackslashes, hmore]
        · have hrun : run .mysql (inLiteral (value ++ [c])) (doubled '\'' rest ++ ['\'']) =
              some ([], afterQuote content) := by
            simpa [run, step_inLiteral hquote fun _ => hescape] using h
          obtain ⟨hlength, hkeeps⟩ := keepsBackslashes_of_run rest hrun
          constructor
          · simpa [Nat.add_assoc, Nat.add_comm 1] using hlength
          · intro heq
            simp [keepsBackslashes, hescape, hkeeps (by simp [heq])]

end Escapes

/-- A quote at the end of a text closes a literal, or a name, or leaves something open. -/
theorem finish_after_quote {lexer last : Lexer} {before after : List Lexeme}
    (h : lexer.step d '\'' = some (before, last)) (hfinish : last.finish = some after) :
    (before = [] ∧ ∃ value, last = afterQuote value) ∨ ∃ text, after = [.name text] := by
  cases lexer with
  | outside word =>
      simp only [step, if_true] at h
      split_ifs at h
      obtain ⟨rfl, rfl⟩ := Prod.mk.inj (Option.some.inj h)
      cases hfinish
  | inLiteral value =>
      obtain ⟨rfl, rfl⟩ : [] = before ∧ afterQuote value = last := by simpa [step] using h
      exact .inl ⟨rfl, value, rfl⟩
  | afterBackslash value =>
      obtain ⟨rfl, rfl⟩ : [] = before ∧ inLiteral (value ++ unescaped '\'') = last := by
        simpa [step] using h
      cases hfinish
  | afterQuote value =>
      obtain ⟨rfl, rfl⟩ : [] = before ∧ inLiteral (value ++ ['\'']) = last := by
        simpa [step] using h
      cases hfinish
  | inName close text =>
      simp only [step] at h
      split_ifs at h
      · obtain ⟨rfl, rfl⟩ := Prod.mk.inj (Option.some.inj h)
        exact .inr ⟨String.ofList text, (Option.some.inj hfinish).symm⟩
      · obtain ⟨rfl, rfl⟩ := Prod.mk.inj (Option.some.inj h)
        cases hfinish
  | afterName text => simp [step, mark?, isBlank] at h

/-- A text comes back from its literal just if the dialect keeps its backslashes. -/
theorem lexemes_quoteText_iff {s : String} :
    lexemes d (quoteText s).toList = some [.literal s] ↔ Survives d s := by
  refine ⟨?_, lexemes_quoteText⟩
  rintro h rfl
  obtain ⟨before, last, after, hrun, hfinish, heq⟩ := lexemes_eq_some.mp h
  have htext : (quoteText s).toList = ['\''] ++ (doubled '\'' s.toList ++ ['\'']) := by
    simp [quoteText]
  rw [htext] at hrun
  obtain ⟨opened, start, rest, hopen, hrun, rfl⟩ := run_append_eq_some.mp hrun
  obtain ⟨rfl, rfl⟩ : [] = opened ∧ inLiteral [] = start := by simpa [run, step] using hopen
  obtain ⟨inside, middle, closed, hinside, hclose, rfl⟩ := run_append_eq_some.mp hrun
  obtain ⟨⟨closed', last'⟩, hstep, hclose⟩ := Option.bind_eq_some_iff.mp hclose
  obtain ⟨rfl, rfl⟩ : closed' = closed ∧ last' = last := by simpa [run] using hclose
  rcases finish_after_quote hstep hfinish with ⟨rfl, value, rfl⟩ | ⟨text, rfl⟩
  · obtain rfl : [Lexeme.literal (String.ofList value)] = after := Option.some.inj hfinish
    have hparts : inside = [] ∧ value = s.toList := by
      cases inside with
      | nil => simpa [String.ext_iff, eq_comm] using heq
      | cons x more => simp at heq
    obtain ⟨rfl, rfl⟩ := hparts
    exact (keepsBackslashes_of_run s.toList hrun).2 (List.nil_append _).symm
  · have hlast := congrArg List.getLast? heq
    simp at hlast

/-- An alias stands in the quotes of a dialect, if it does not hold their end. -/
theorem lexemes_quoteAlias {label : String}
    (h : ∀ c ∈ label.toList, isUnmarked c = true ∧ c ≠ ']') :
    lexemes d (d.quoteAlias label).toList = some [.name label] := by
  have run_inName : ∀ {close : Char} {text : List Char}, (∀ c ∈ text, c ≠ close) → ∀ before,
      run d (inName close before) (text ++ [close]) = some ([], afterName (before ++ text)) := by
    intro close text htext
    induction text with
    | nil =>
        intro before
        simp [run, step]
    | cons c rest ih =>
        intro before
        obtain ⟨hc, hrest⟩ := List.forall_mem_cons.mp htext
        have hstep : (inName close before).step d c = some ([], inName close (before ++ [c])) := by
          simp [step, hc]
        have hrun := run_cons hstep (ih hrest (before ++ [c]))
        simpa using hrun
  have quoted : ∀ (first : Char) {close : Char}, nameEnd? d first = some close → first ≠ '\'' →
      (∀ c ∈ label.toList, c ≠ close) →
      lexemes d (first :: (label.toList ++ [close])) = some [.name label] := by
    intro first close hfirst hquote hclose
    have hopen : (outside []).step d first = some ([], inName close []) := by
      simp [step, hquote, hfirst]
    have hrun := run_cons hopen (run_inName hclose [])
    refine lexemes_eq_some.mpr ⟨[], afterName label.toList, [.name label],
      ?_, by simp [finish], rfl⟩
    simpa using hrun
  have hne : ∀ {close : Char}, isUnmarked close = false → ∀ c ∈ label.toList, c ≠ close := by
    rintro close hclose c hc rfl
    rw [(h c hc).1] at hclose
    cases hclose
  cases d with
  | postgres => simpa [Dialect.quoteAlias] using quoted '"' rfl (by decide) (hne rfl)
  | mysql => simpa [Dialect.quoteAlias] using quoted '\x60' rfl (by decide) (hne rfl)
  | mssql =>
      have hbracket : ∀ c ∈ label.toList, c ≠ ']' := fun c hc => (h c hc).2
      simpa [Dialect.quoteAlias] using quoted '[' rfl (by decide) hbracket
  | sqlite => simpa [Dialect.quoteAlias] using quoted '"' rfl (by decide) (hne rfl)

end SqlGateway.Query
