import SqlGateway.Proofs.Query.Lexemes
import SqlGateway.Proofs.Query.Reading
import SqlGateway.Query.Compiler

/-!
# Lexemes of conditions

What an engine reads in the text of a condition: the operands and the keywords between them, with
every parenthesis closed. The literals among them are the literals of the formula that the condition
says, in order, as long as the dialect reads each of them back.

A literal doubles the quotes of its text and nothing else. Where a doubled quote is the only escape
of the engine, every text comes back from its literal; MySQL reads backslashes as escapes too, and
there exactly the texts come back whose backslashes all stand before a wildcard of patterns. A
filter whose literals survive is read with these literals in their places.
-/
namespace SqlGateway.Query

open Number Text

/-- Whether lexemes close a number of open parentheses, and every other that they open. -/
def closes : Nat → List Lexeme → Bool
  | n, [] => n == 0
  | n, .opening :: rest => closes (n + 1) rest
  | 0, .closing :: _ => false
  | n + 1, .closing :: rest => closes n rest
  | n, _ :: rest => closes n rest

/-- Lexemes that close all parentheses that they open, and no other. -/
def Balanced (xs : List Lexeme) : Prop := ∀ n ys, closes n (xs ++ ys) = closes n ys

namespace Balanced
variable {xs ys : List Lexeme}

theorem closes (h : Balanced xs) : Query.closes 0 xs = true := by
  have hnil := h 0 []
  rwa [List.append_nil] at hnil

theorem nil : Balanced [] := fun _ _ => rfl

theorem append (hx : Balanced xs) (hy : Balanced ys) : Balanced (xs ++ ys) := by
  intro n zs
  rw [List.append_assoc, hx, hy]

theorem parenthesized (h : Balanced xs) : Balanced (.opening :: (xs ++ [.closing])) := by
  intro n zs
  have hinner := h (n + 1) (.closing :: zs)
  simpa [Query.closes] using hinner

theorem ofMem (h : ∀ x ∈ xs, x ≠ .opening ∧ x ≠ .closing) : Balanced xs := by
  intro n ys
  induction xs with
  | nil => rfl
  | cons x rest ih =>
      obtain ⟨⟨hopening, hclosing⟩, hrest⟩ := List.forall_mem_cons.mp h
      have hskip : Query.closes n (x :: (rest ++ ys)) = Query.closes n (rest ++ ys) := by
        cases x with
        | opening => exact absurd rfl hopening
        | closing => exact absurd rfl hclosing
        | word text => cases n <;> rfl
        | literal value => cases n <;> rfl
        | name text => cases n <;> rfl
        | comma => cases n <;> rfl
      rw [List.cons_append, hskip, ih hrest]

end Balanced

def Lexeme.literal? : Lexeme → Option String
  | .literal s => some s
  | _ => none

/-- A token as a lexeme of every dialect. -/
def Token.lexeme : Token → Lexeme
  | .word w => .word w
  | .literal s => .literal s
  | .opening => .opening
  | .closing => .closing
  | .comma => .comma

def Operand.token : Operand → Token
  | .word w => .word w
  | .literal s => .literal s

def Operand.literals : Operand → List String
  | .word _ => []
  | .literal s => [s]

/-- The keywords and operators inside the clauses of a statement. -/
def innerWords : List String :=
  Formula.relations ++ ["IS", "NOT", "NULL", "IN", "AND", "OR", "AS", "DESC", "distinct"] ++
    aggregates

/-- What stands inside the clauses of a statement: operands, keywords among them, names of columns
in quotes, and the marks between them. -/
inductive Lexeme.Inner : Lexeme → Prop
  | operand {text : String} {o : Operand} (h : o.Written text) : Inner o.token.lexeme
  | keyword {w : String} (h : w ∈ innerWords) : Inner (.word w)
  | label {a : Alias} (h : Name.isSafe a.name = true) : Inner (.name a.encode)
  | opening : Inner .opening
  | closing : Inner .closing
  | comma : Inner .comma

section Words
variable {d : Dialect} {s : String}

theorem isUnmarked_of_isNumeralChar {c : Char} (h : isNumeralChar c = true) : isUnmarked c = true :=
  isUnmarked_of_class (fun _ => visible_of_isNumeralChar) (by decide) h

theorem isUnmarked_of_isSafe (h : Name.isSafe s = true) : ∀ c ∈ s.toList, isUnmarked c = true := by
  intro c hc
  by_cases hdot : c = '.'
  · rw [hdot]
    decide
  · have htail := Name.isTailChar_of_isSafe h hc hdot
    exact isUnmarked_of_class (fun _ => Name.visible_of_isTailChar) (by decide) htail

theorem tokens_written {text : String} {o : Operand} (h : o.Written text) :
    tokens text.toList = some [o.token] := by
  cases o with
  | word w =>
      obtain ⟨rfl, hbare⟩ := h.bare
      exact tokens_word hbare.ne_empty hbare.isWordPart
  | literal s =>
      cases h
      exact tokens_quoteText s

/-- A written operand is one lexeme, if its literal survives. -/
theorem lexemes_written {text : String} {o : Operand} (h : o.Written text)
    (hs : ∀ s ∈ o.literals, Survives d s) : lexemes d text.toList = some [o.token.lexeme] := by
  cases h with
  | fixed hw =>
      have hall : ∀ w ∈ fixedWords, w ≠ "" ∧ w.toList.all isUnmarked = true := by decide
      obtain ⟨hne, hchars⟩ := hall _ hw
      exact lexemes_word hne (List.all_eq_true.mp hchars)
  | numeral hread =>
      obtain ⟨x, hx⟩ := Option.isSome_iff_exists.mp hread
      refine lexemes_word ?_ fun c hc =>
        isUnmarked_of_isNumeralChar (isNumeralChar_of_float? hx c hc)
      rintro rfl
      cases hx
  | column hsafe hdot =>
      refine lexemes_word ?_ (isUnmarked_of_isSafe hsafe)
      rintro rfl
      cases hdot
  | quoted s => exact lexemes_quoteText (hs s List.mem_cons_self)

theorem tokens_innerWord {w : String} (h : w ∈ innerWords) : tokens w.toList = some [.word w] := by
  have hall : ∀ w ∈ innerWords, w ≠ "" ∧ w.toList.all isWordPart = true := by decide
  obtain ⟨hne, hchars⟩ := hall w h
  exact tokens_word hne (List.all_eq_true.mp hchars)

theorem lexemes_innerWord {w : String} (h : w ∈ innerWords) :
    lexemes d w.toList = some [.word w] := by
  have hall : ∀ w ∈ innerWords, w ≠ "" ∧ w.toList.all isUnmarked = true := by decide
  obtain ⟨hne, hchars⟩ := hall w h
  exact lexemes_word hne (List.all_eq_true.mp hchars)

end Words

/-- A text that a dialect cuts as any other does, into lexemes that stand inside a clause, the
literals among them being the given ones. -/
def Worded (d : Dialect) (text : String) (literals : List String) : Prop :=
  ∃ ts, tokens text.toList = some ts ∧ lexemes d text.toList = some (ts.map Token.lexeme) ∧
    (∀ t ∈ ts, t.lexeme.Inner) ∧ Balanced (ts.map Token.lexeme) ∧
    (ts.map Token.lexeme).filterMap Lexeme.literal? = literals

namespace Worded
variable {d : Dialect} {a b : String} {before after : List String}

theorem exists_lexemes (h : Worded d a before) : ∃ xs, lexemes d a.toList = some xs ∧
    (∀ x ∈ xs, x.Inner) ∧ Balanced xs ∧ xs.filterMap Lexeme.literal? = before := by
  obtain ⟨ts, _, hlexemes, hinner, hbalanced, hliterals⟩ := h
  exact ⟨_, hlexemes, List.forall_mem_map.mpr hinner, hbalanced, hliterals⟩

theorem operand {o : Operand} (h : o.Written a) (hs : ∀ s ∈ o.literals, Survives d s) :
    Worded d a o.literals := by
  refine ⟨_, tokens_written h, lexemes_written h hs, List.forall_mem_singleton.mpr (.operand h),
    Balanced.ofMem ?_, ?_⟩
  · refine List.forall_mem_singleton.mpr ?_
    cases o <;> simp [Operand.token, Token.lexeme]
  · cases o <;> rfl

theorem keyword {w : String} (h : w ∈ innerWords) : Worded d w [] := by
  refine ⟨_, tokens_innerWord h, lexemes_innerWord h, List.forall_mem_singleton.mpr (.keyword h),
    Balanced.ofMem ?_, rfl⟩
  exact List.forall_mem_singleton.mpr (by simp [Token.lexeme])

theorem blank (ha : Worded d a before) (hb : Worded d b after) :
    Worded d (a ++ " " ++ b) (before ++ after) := by
  obtain ⟨ts, hts, hxs, hinner, hbalanced, rfl⟩ := ha
  obtain ⟨us, hus, hys, hinner', hbalanced', rfl⟩ := hb
  refine ⟨ts ++ us, ?_, ?_, List.forall_mem_append.mpr ⟨hinner, hinner'⟩, ?_, ?_⟩
  · simpa using tokens_append_blank hts hus
  · simpa using lexemes_append_blank hxs hys
  · rw [List.map_append]
    exact hbalanced.append hbalanced'
  · rw [List.map_append, List.filterMap_append]

theorem comma (ha : Worded d a before) (hb : Worded d b after) :
    Worded d (a ++ ", " ++ b) (before ++ after) := by
  obtain ⟨ts, hts, hxs, hinner, hbalanced, rfl⟩ := ha
  obtain ⟨us, hus, hys, hinner', hbalanced', rfl⟩ := hb
  have hcomma : Balanced [.comma] := .ofMem (by simp)
  refine ⟨ts ++ .comma :: us, ?_, ?_, ?_, ?_, ?_⟩
  · simpa using tokens_append_comma hts hus
  · simpa [Token.lexeme] using lexemes_append_comma hxs hys
  · exact List.forall_mem_append.mpr ⟨hinner, List.forall_mem_cons.mpr ⟨.comma, hinner'⟩⟩
  · simpa [Token.lexeme] using hbalanced.append (hcomma.append hbalanced')
  · simp [Token.lexeme, List.filterMap_cons, Lexeme.literal?]

/-- A text before parentheses. -/
theorem applied (ha : Worded d a before) (hb : Worded d b after) :
    Worded d (a ++ "(" ++ b ++ ")") (before ++ after) := by
  obtain ⟨ts, hts, hxs, hinner, hbalanced, rfl⟩ := ha
  obtain ⟨us, hus, hys, hinner', hbalanced', rfl⟩ := hb
  refine ⟨ts ++ .opening :: (us ++ [.closing]), ?_, ?_, ?_, ?_, ?_⟩
  · simpa using tokens_append_parenthesized hts hus
  · simpa [Token.lexeme] using lexemes_append_parenthesized hxs hys
  · refine List.forall_mem_append.mpr ⟨hinner, List.forall_mem_cons.mpr ⟨.opening, ?_⟩⟩
    exact List.forall_mem_append.mpr ⟨hinner', List.forall_mem_singleton.mpr .closing⟩
  · simpa [Token.lexeme] using hbalanced.append hbalanced'.parenthesized
  · simp [Token.lexeme, List.filterMap_cons, Lexeme.literal?]

theorem empty : Worded d "" [] := ⟨[], rfl, rfl, by simp, Balanced.nil, rfl⟩

theorem parenthesized (h : Worded d a before) : Worded d ("(" ++ a ++ ")") before := by
  simpa using empty.applied h

/-- Texts with the same text between each two of them. -/
theorem intercalate {separator : String} {texts : List String} {literals : List (List String)}
    (hsep : ∀ {a b before after}, Worded d a before → Worded d b after →
      Worded d (a ++ separator ++ b) (before ++ after))
    (h : List.Forall₂ (Worded d) texts literals) :
    Worded d (separator.intercalate texts) literals.flatten := by
  induction h with
  | nil => exact empty
  | @cons text own rest others htext hrest ih =>
      cases hrest with
      | nil => simpa using htext
      | cons hnext hmore =>
          rw [String.intercalate_cons_cons, List.flatten_cons]
          exact hsep htext ih

theorem commas {texts : List String} {literals : List (List String)}
    (h : List.Forall₂ (Worded d) texts literals) :
    Worded d (", ".intercalate texts) literals.flatten :=
  intercalate comma h

/-- A keyword between two texts. -/
theorem between {w : String} (hw : w ∈ innerWords) (ha : Worded d a before)
    (hb : Worded d b after) : Worded d (a ++ (" " ++ w ++ " ") ++ b) (before ++ after) := by
  have happend := ha.blank ((keyword hw).blank hb)
  have htext : a ++ (" " ++ w ++ " ") ++ b = a ++ " " ++ (w ++ " " ++ b) :=
    String.toList_injective (by simp)
  rwa [htext]

end Worded

def Comparison.literals : Comparison → List String
  | .relation left _ right => left.literals ++ right.literals
  | .null left _ => left.literals
  | .member left _ items => left.literals ++ items.flatMap Operand.literals

/-- The literals of a formula, in order. -/
def Formula.literals (f : Formula) : List String := f.leaves.flatMap Comparison.literals

namespace Formula

theorem literals_comparison (c : Comparison) : (comparison c).literals = c.literals := by
  simp [literals, leaves]

theorem literals_join (k : Connective) (fs : List Formula) :
    (join k fs).literals = fs.flatMap literals := by
  simp only [literals, leaves_join, List.flatMap_assoc]
  rfl

end Formula

open Formula

section Conditions
variable {d : Dialect} {l r operator : String} {left right : Operand} {texts : List String}
  {operands : List Operand} {cs : List Condition} {fs : List Formula} {c : Condition} {f : Formula}

theorem worded_relation (hl : left.Written l) (hop : operator ∈ relations) (hr : right.Written r)
    (hs : ∀ s ∈ left.literals ++ right.literals, Survives d s) :
    Worded d (l ++ " " ++ operator ++ " " ++ r) (left.literals ++ right.literals) := by
  obtain ⟨hsleft, hsright⟩ := List.forall_mem_append.mp hs
  have hinner : operator ∈ innerWords := List.mem_append_left _ (List.mem_append_left _ hop)
  simpa using ((Worded.operand hl hsleft).blank (.keyword hinner)).blank (Worded.operand hr hsright)

theorem worded_null (hl : left.Written l) (isNull : Bool) (hs : ∀ s ∈ left.literals, Survives d s) :
    Worded d (l ++ " " ++ (if isNull then "IS NULL" else "IS NOT NULL")) left.literals := by
  have hleft := Worded.operand hl hs
  have his : Worded d "IS" [] := .keyword (by decide)
  have hnot : Worded d "NOT" [] := .keyword (by decide)
  have hnull : Worded d "NULL" [] := .keyword (by decide)
  cases isNull with
  | false => simpa using hleft.blank ((his.blank hnot).blank hnull)
  | true => simpa using hleft.blank (his.blank hnull)

theorem forall₂_worded (h : List.Forall₂ Operand.Written texts operands)
    (hs : ∀ s ∈ operands.flatMap Operand.literals, Survives d s) :
    List.Forall₂ (Worded d) texts (operands.map Operand.literals) := by
  induction h with
  | nil => exact .nil
  | cons hwritten hrest ih =>
      rw [List.flatMap_cons] at hs
      obtain ⟨hown, hothers⟩ := List.forall_mem_append.mp hs
      exact .cons (.operand hwritten hown) (ih hothers)

theorem worded_member (hl : left.Written l) (isMember : Bool)
    (h : List.Forall₂ Operand.Written texts operands)
    (hs : ∀ s ∈ left.literals ++ operands.flatMap Operand.literals, Survives d s) :
    Worded d (l ++ " " ++ (if isMember then "IN" else "NOT IN") ++ " (" ++
      ", ".intercalate texts ++ ")") (left.literals ++ operands.flatMap Operand.literals) := by
  obtain ⟨hsleft, hsitems⟩ := List.forall_mem_append.mp hs
  have hin : Worded d "IN" [] := .keyword (by decide)
  have hnot : Worded d "NOT" [] := .keyword (by decide)
  have hoperator : Worded d (if isMember then "IN" else "NOT IN") [] := by
    cases isMember with
    | false => simpa using hnot.blank hin
    | true => exact hin
  have hitems := (Worded.commas (forall₂_worded h hsitems)).parenthesized
  have hworded := ((Worded.operand hl hsleft).blank hoperator).blank hitems
  have htext : ∀ front list : String,
      front ++ " " ++ ("(" ++ list ++ ")") = front ++ " (" ++ list ++ ")" := by
    intro front list
    exact String.toList_injective (by simp)
  rw [htext, List.append_nil, ← List.flatMap_def] at hworded
  exact hworded

/-- Conditions between connectives, each worded by its formula. -/
theorem worded_joined (k : Connective) (hlength : cs.length = fs.length)
    (h : ∀ c f, (c, f) ∈ cs.zip fs → Worded d c.text f.literals) :
    Worded d ((" " ++ k.keyword ++ " ").intercalate (conditionTexts cs)) (join k fs).literals := by
  have htexts : List.Forall₂ (Worded d) (conditionTexts cs) (fs.map literals) := by
    rw [List.forall₂_map_right_iff]
    exact forall₂_conditionTexts hlength h
  have hkeyword : k.keyword ∈ innerWords := by cases k <;> decide
  rw [literals_join]
  exact Worded.intercalate (Worded.between hkeyword) htexts

/-- The text of a condition is worded inside a clause, with the literals of its formula. -/
theorem Renders.worded (h : Renders c f) (hs : ∀ s ∈ f.literals, Survives d s) :
    Worded d c.text f.literals := by
  have below : ∀ {k : Connective} {cs : List Condition} {fs : List Formula},
      (∀ s ∈ (join k fs).literals, Survives d s) →
      ∀ c f, (c, f) ∈ cs.zip fs → ∀ s ∈ f.literals, Survives d s := by
    intro k cs fs hs c f hmem s hliteral
    rw [literals_join] at hs
    exact hs s (List.mem_flatMap.mpr ⟨f, (List.of_mem_zip hmem).2, hliteral⟩)
  induction h with
  | relation hl hop hr =>
      rw [literals_comparison] at hs ⊢
      exact worded_relation hl hop hr hs
  | null hl isNull =>
      rw [literals_comparison] at hs ⊢
      exact worded_null hl isNull hs
  | member hl isMember h hne =>
      rw [literals_comparison] at hs ⊢
      exact worded_member hl isMember h hs
  | both hne hlength _ ih =>
      have hjoined := worded_joined .and hlength fun c f hmem => ih c f hmem (below hs c f hmem)
      exact hjoined
  | @group k cs fs hne hlength _ ih =>
      have hjoined := worded_joined k hlength fun c f hmem => ih c f hmem (below hs c f hmem)
      exact hjoined.parenthesized

end Conditions

end SqlGateway.Query

namespace SqlGateway.Query

open Formula

/-- A value that is written as a literal. -/
def IsQuoted : Json → Prop
  | .text _ | .list _ | .object _ => True
  | _ => False

theorem literal_of_isQuoted {d : Dialect} {v : Json} (h : IsQuoted v) :
    literal d v = quoteText v.bareText := by
  cases v with
  | text s => rfl
  | list items => rfl
  | object fields => rfl
  | null | bool b | int n | float x => cases h

/-- A literal is read back just if its text survives, and a filter whose literals survive is read
with all of them in order, among operands and keywords with their parentheses closed. -/
theorem literals_read_back {context : FilterContext} {v : Json} {text : String}
    (h : Condition.compile context v = .ok (some text)) :
    (∀ d v, IsQuoted v → (lexemes d (literal d v).toList = some [.literal v.bareText] ↔
      Survives d v.bareText)) ∧
    ∃ f, reading context [] v = some f ∧ clause? text = some f ∧
      ((∀ s ∈ f.literals, Survives context.dialect s) →
        ∃ xs, lexemes context.dialect text.toList = some xs ∧
          xs.filterMap Lexeme.literal? = f.literals ∧ (∀ x ∈ xs, x.Inner) ∧
          closes 0 xs = true) := by
  constructor
  · intro d v hv
    rw [literal_of_isQuoted hv]
    exact lexemes_quoteText_iff
  · obtain ⟨c?, hagrees, htext⟩ := exists_renders_of_compile h
    generalize reading context [] v = f? at hagrees ⊢
    cases hagrees with
    | none => cases htext
    | @some c f hrenders =>
        obtain rfl : text = c.text := Option.some.inj htext
        refine ⟨f, rfl, hrenders.clause?, fun hs => ?_⟩
        obtain ⟨xs, hxs, hinner, hbalanced, hliterals⟩ := (hrenders.worded hs).exists_lexemes
        exact ⟨xs, hxs, hliterals, hinner, hbalanced.closes⟩

/-- A filter whose literals hold quotes, a connective, parentheses, a wildcard and a backslash
before it. -/
def quotedNames : Json := .object [
  ("name", .object [("$like", .text "50\\%"), ("$nin", .list [.text "o'neil", .text "') OR ('a"])]),
  ("tags", .object [("$eq", .list [.text "x", .int 1])]),
  ("CONST_it's", .text "''")]

theorem literals_read_back_quotedNames :
    let context : FilterContext := ⟨.mysql, "users", false⟩
    let text := "users.name LIKE '%50\\%%' AND users.name NOT IN ('o''neil', ''') OR (''a') " ++
      "AND users.tags = '[\"x\",1]' AND 'it''s' = ''''''"
    Condition.compile context quotedNames = .ok (some text) ∧
      ∃ xs, lexemes .mysql text.toList = some xs ∧ xs.filterMap Lexeme.literal? =
        ["%50\\%%", "o'neil", "') OR ('a", "[\"x\",1]", "it's", "''"] := by
  intro context text
  have h : Condition.compile context quotedNames = .ok (some text) :=
    eq_ok_of_toOption (by decide +kernel)
  obtain ⟨f, hf, -, hread⟩ := (literals_read_back h).2
  have hliterals : (reading context [] quotedNames).map literals =
      some ["%50\\%%", "o'neil", "') OR ('a", "[\"x\",1]", "it's", "''"] := by decide +kernel
  rw [hf, Option.map_some, Option.some.injEq] at hliterals
  rw [hliterals] at hread
  obtain ⟨xs, hxs, hxliterals, -⟩ := hread (by decide)
  exact ⟨h, xs, hxs, hxliterals⟩

/-- A backslash escapes the first half of the quote that is doubled after it, and the other half
ends the literal: the rest of the text is read outside of it. -/
theorem backslash_ends_literal :
    let v : Json := .object [("name", .text "\\' OR 1=1 -- ")]
    Condition.compile ⟨.mysql, "users", false⟩ v =
        .ok (some ("users.name = '\\'' OR 1=1" ++ " -- '")) ∧
      lexemes .mysql "users.name = '\\'' OR 1=1".toList =
        some [.word "users.name", .word "=", .literal "'", .word "OR", .word "1=1"] ∧
      lexemes .mysql (literal .mysql (.text "\\")).toList ≠ some [.literal "\\"] := by
  intro v
  exact ⟨eq_ok_of_toOption (by decide +kernel), by decide +kernel, by decide +kernel⟩

end SqlGateway.Query
