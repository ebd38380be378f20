import SqlGateway.Query.Literal

/-!
# Tokens of conditions

How an engine with standard literals cuts the text of a condition: a literal stands in single
quotes, a quote inside it is written twice, and nothing else is special there. Outside literals,
blanks, commas and parentheses end a word; every other character belongs to one, so a dotted column
name is one word.
-/
namespace SqlGateway.Query

open Text

inductive Token where
  | word (text : String)
  /-- A literal, by its content. -/
  | literal (content : String)
  | opening
  | closing
  | comma
  deriving DecidableEq, Repr

/-- Where a scan stands. -/
inductive Scan where
  /-- Outside literals, after the given characters of a word. -/
  | outside (word : List Char)
  | inside (content : List Char)
  /-- After a quote inside a literal, which is its end unless another quote follows. -/
  | ending (content : List Char)

namespace Scan

def wordToken (word : List Char) : List Token :=
  if word.isEmpty then [] else [.word (String.ofList word)]

/-- The token of a character that ends a word, if it is one itself. -/
def mark? : Char → Option (List Token)
  | ' ' => some []
  | '(' => some [.opening]
  | ')' => some [.closing]
  | ',' => some [.comma]
  | _ => none

/-- The tokens that a character outside literals ends, and where the scan stands after it. -/
def outsideStep (word : List Char) (c : Char) : List Token × Scan :=
  if c = '\'' then (wordToken word, inside [])
  else
    match mark? c with
    | some tokens => (wordToken word ++ tokens, outside [])
    | none => ([], outside (word ++ [c]))

def step : Scan → Char → List Token × Scan
  | outside word, c => outsideStep word c
  | inside content, c =>
    if c = '\'' then ([], ending content) else ([], inside (content ++ [c]))
  | ending content, c =>
    if c = '\'' then ([], inside (content ++ ['\'']))
    else
      let (tokens, scan) := outsideStep [] c
      (.literal (String.ofList content) :: tokens, scan)

def run : Scan → List Char → List Token × Scan
  | scan, [] => ([], scan)
  | scan, c :: rest =>
    let (tokens, next) := scan.step c
    let (more, last) := run next rest
    (tokens ++ more, last)

/-- The token that the end of the text ends; none inside a literal. -/
def finish : Scan → Option (List Token)
  | outside word => some (wordToken word)
  | inside _ => none
  | ending content => some [.literal (String.ofList content)]

end Scan

/-- The tokens of a text; none if a literal has no end. -/
def tokens (cs : List Char) : Option (List Token) :=
  let (before, scan) := Scan.run (.outside []) cs
  scan.finish.map (before ++ ·)

/-- A character of a word. -/
def isWordPart (c : Char) : Bool := c != '\'' && (Scan.mark? c).isNone

/-- A class of characters without quotes, blanks, parentheses and commas consists of parts of
words. -/
theorem isWordPart_of_class {p : Char → Bool} (hp : ['\'', ' ', '(', ')', ','].any p = false)
    {c : Char} (h : p c = true) : isWordPart c = true := by
  have hne : ∀ d ∈ ['\'', ' ', '(', ')', ','], c ≠ d := by
    rintro d hd rfl
    exact List.any_eq_false.mp hp c hd h
  simp only [List.mem_cons, List.not_mem_nil, or_false, forall_eq_or_imp, forall_eq] at hne
  obtain ⟨hquote, hblank, hopen, hclose, hcomma⟩ := hne
  simp [isWordPart, Scan.mark?, hquote]

namespace Scan

theorem run_append (scan : Scan) (cs ds : List Char) :
    scan.run (cs ++ ds) =
      ((scan.run cs).1 ++ ((scan.run cs).2.run ds).1, ((scan.run cs).2.run ds).2) := by
  induction cs generalizing scan with
  | nil => rfl
  | cons c rest ih => simp only [List.cons_append, run, ih, List.append_assoc]

theorem run_word {cs : List Char} (h : ∀ c ∈ cs, isWordPart c = true) (word : List Char) :
    run (outside word) cs = ([], outside (word ++ cs)) := by
  induction cs generalizing word with
  | nil => simp [run]
  | cons c rest ih =>
      obtain ⟨hc, hrest⟩ := List.forall_mem_cons.mp h
      obtain ⟨hquote, hmark⟩ : c ≠ '\'' ∧ mark? c = none := by simpa [isWordPart] using hc
      simp [run, step, outsideStep, hquote, hmark, ih hrest]

theorem run_doubled (content cs : List Char) :
    run (inside content) (doubled '\'' cs) = ([], inside (content ++ cs)) := by
  induction cs generalizing content with
  | nil => simp [doubled, run]
  | cons c rest ih =>
      by_cases hc : c = '\''
      · simp [doubled, hc, run, step, ih]
      · simp [doubled, hc, run, step, ih]

/-- A mark ends what stands before it. -/
theorem step_mark {scan : Scan} {last marked : List Token} {c : Char} (h : scan.finish = some last)
    (hc : mark? c = some marked) : scan.step c = (last ++ marked, outside []) := by
  have hquote : c ≠ '\'' := by
    rintro rfl
    cases hc
  cases scan with
  | outside word =>
      obtain rfl : wordToken word = last := Option.some.inj h
      simp [step, outsideStep, hquote, hc]
  | inside content => cases h
  | ending content =>
      obtain rfl : [Token.literal (String.ofList content)] = last := Option.some.inj h
      simp [step, outsideStep, hquote, hc, wordToken]

end Scan

/-- A text is cut at its marks: what stands before and after one is cut by itself. -/
theorem tokens_append_mark {cs : List Char} {before marked : List Token} {c : Char}
    (h : tokens cs = some before) (hc : Scan.mark? c = some marked) (ds : List Char) :
    tokens (cs ++ c :: ds) = (tokens ds).map (before ++ marked ++ ·) := by
  obtain ⟨last, hlast, rfl⟩ := Option.map_eq_some_iff.mp h
  simp only [tokens, Scan.run_append, Scan.run, Scan.step_mark hlast hc, Option.map_map,
    Function.comp_def, List.append_assoc]

theorem tokens_word {s : String} (hne : s ≠ "") (h : ∀ c ∈ s.toList, isWordPart c = true) :
    tokens s.toList = some [.word s] := by
  have hcs : s.toList ≠ [] := by simpa using hne
  simp [tokens, Scan.run_word h, Scan.finish, Scan.wordToken, hcs]

theorem tokens_quoteText (s : String) : tokens (quoteText s).toList = some [.literal s] := by
  simp [tokens, quoteText, Scan.run, Scan.step, Scan.outsideStep, Scan.run_append, Scan.run_doubled,
    Scan.wordToken, Scan.finish]

theorem tokens_nil : tokens [] = some [] := rfl

section Joining
variable {cs ds : List Char} {ts us : List Token}

theorem tokens_append_blank (ht : tokens cs = some ts) (hu : tokens ds = some us) :
    tokens (cs ++ ' ' :: ds) = some (ts ++ us) := by
  have hblank : Scan.mark? ' ' = some [] := rfl
  rw [tokens_append_mark ht hblank, hu, Option.map_some, List.append_nil]

theorem tokens_append_comma (ht : tokens cs = some ts) (hu : tokens ds = some us) :
    tokens (cs ++ ',' :: ' ' :: ds) = some (ts ++ .comma :: us) := by
  have hcomma : Scan.mark? ',' = some [.comma] := rfl
  rw [tokens_append_mark ht hcomma, ← List.nil_append (' ' :: ds),
    tokens_append_blank tokens_nil hu]
  simp

/-- A text before parentheses, with the tokens of what they hold. -/
theorem tokens_append_parenthesized (ht : tokens cs = some ts) (hu : tokens ds = some us) :
    tokens (cs ++ '(' :: (ds ++ [')'])) = some (ts ++ .opening :: (us ++ [.closing])) := by
  have hopening : Scan.mark? '(' = some [.opening] := rfl
  have hclosing : Scan.mark? ')' = some [.closing] := rfl
  rw [tokens_append_mark ht hopening, tokens_append_mark hu hclosing, tokens_nil]
  simp

/-- The tokens of a text in parentheses are its own, in parentheses. -/
theorem tokens_parenthesized (h : tokens cs = some ts) :
    tokens ('(' :: (cs ++ [')'])) = some (.opening :: (ts ++ [.closing])) := by
  simpa using tokens_append_parenthesized tokens_nil h

end Joining

end SqlGateway.Query
