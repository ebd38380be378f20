import Mathlib.Data.List.Forall2
import SqlGateway.Proofs.Except
import SqlGateway.Proofs.Name
import SqlGateway.Proofs.Number.Readable
import SqlGateway.Proofs.Query.Formula
import SqlGateway.Query.Condition

/-!
# Comparisons in texts

The operands of a condition stand in its text as one word or one literal each, and none of them can
be taken for a connective. So the text of a comparison is a clause that says this comparison.

The conditions that filters are read as come with the formulas that they say: a comparison between
operands as they are written, and conditions joined by a connective. The text of such a condition
spells its formula.
-/
namespace SqlGateway.Query

open Number Formula

/-- A text that is one word and no connective. -/
structure Bare (s : String) : Prop where
  ne_empty : s ≠ ""
  isWordPart : ∀ c ∈ s.toList, isWordPart c = true
  not_keyword : ∀ k, (Item.operand (.word s)).isKeyword k = false

theorem bare_iff {s : String} : Bare s ↔ s ≠ "" ∧ s.toList.all isWordPart = true ∧
    (Item.operand (.word s)).isKeyword .and = false ∧
    (Item.operand (.word s)).isKeyword .or = false := by
  constructor
  · intro h
    exact ⟨h.ne_empty, List.all_eq_true.mpr h.isWordPart, h.not_keyword .and, h.not_keyword .or⟩
  · rintro ⟨hne, hparts, hand, hor⟩
    refine ⟨hne, List.all_eq_true.mp hparts, fun k => ?_⟩
    cases k with
    | and => exact hand
    | or => exact hor

instance (s : String) : Decidable (Bare s) := decidable_of_iff' _ bare_iff

namespace Bare
variable {s : String}

/-- The letters of the connectives. -/
def keywordLetters : List Char := "andor".toList

theorem ofMem (h : ∀ c ∈ s.toList, Query.isWordPart c = true) {c : Char} (hc : c ∈ s.toList)
    (hletter : c.toLower ∉ keywordLetters) : Bare s where
  ne_empty := by
    rintro rfl
    cases hc
  isWordPart := h
  not_keyword := by
    intro k
    refine beq_eq_false_iff_ne.mpr fun heq => hletter ?_
    have hmem : c.toLower ∈ k.keyword.toList.map Char.toLower := heq ▸ List.mem_map_of_mem hc
    have hall : (k.keyword.toList.map Char.toLower).all (keywordLetters.contains ·) = true := by
      cases k <;> decide
    exact List.contains_iff_mem.mp (List.all_eq_true.mp hall _ hmem)

theorem ofName (h : Name.isSafe s = true) (hmem : '.' ∈ s.toList) : Bare s := by
  refine ofMem (fun c hc => ?_) hmem (by decide)
  by_cases hdot : c = '.'
  · rw [hdot]
    decide
  · exact isWordPart_of_class (by decide) (Name.isTailChar_of_isSafe h hc hdot)

theorem ofLooselyNumeric (hne : s ≠ "") (h : LooselyNumeric s.toList) : Bare s := by
  obtain ⟨c, rest, hcs⟩ := List.exists_cons_of_ne_nil (mt String.toList_eq_nil_iff.mp hne)
  have hc : c ∈ s.toList := hcs ▸ List.mem_cons_self
  have hparts : ∀ d ∈ s.toList, Query.isWordPart d = true := fun d hd =>
    isWordPart_of_class (p := fun d => isNumeric d.toLower) (by decide) (h d hd)
  refine ofMem hparts hc fun hletter => ?_
  have hnone : keywordLetters.any isNumeric = false := by decide
  exact List.any_eq_false.mp hnone _ hletter (h c hc)

/-- The words for infinity and not-a-number, after any sign. -/
theorem ofNumberWord (h : (splitSign s.toList).2.map Char.toLower ∈ numberWords) : Bare s := by
  have hword : ∀ {cs : List Char}, cs.map Char.toLower ∈ numberWords →
      ∀ c ∈ cs, Query.isWordPart c = true := by
    intro cs hcs c hc
    have hall : numberWords.all (·.all Query.isWordPart) = true := by decide
    refine isWordPart_of_class (p := fun c => Query.isWordPart c.toLower) (by decide) ?_
    exact List.all_eq_true.mp (List.all_eq_true.mp hall _ hcs) _ (List.mem_map_of_mem hc)
  have hsigned : ∀ {sign : Char} {rest : List Char}, s.toList = sign :: rest →
      rest.map Char.toLower ∈ numberWords → sign = '-' ∨ sign = '+' → Bare s := by
    intro sign rest hs hrest hsign
    refine ofMem (c := sign) ?_ (hs ▸ List.mem_cons_self)
      (by rcases hsign with rfl | rfl <;> decide)
    rw [hs]
    refine List.forall_mem_cons.mpr ⟨by rcases hsign with rfl | rfl <;> decide, hword hrest⟩
  unfold splitSign at h
  split at h
  · exact hsigned ‹_› h (.inl rfl)
  · exact hsigned ‹_› h (.inr rfl)
  · refine ⟨?_, hword h, fun k => beq_eq_false_iff_ne.mpr fun heq => ?_⟩
    · rintro rfl
      exact absurd h (by decide)
    · have : k.keyword.toList.map Char.toLower ∉ numberWords := by cases k <;> decide
      exact this (heq ▸ h)

theorem ofNumeral {x : Binary64} (h : float? s.toList = some x) : Bare s := by
  rcases float?_eq_some h with ⟨hne, hnumeric⟩ | hword
  · exact ofLooselyNumeric (by simpa using hne) hnumeric
  · exact ofNumberWord hword

end Bare

/-- A text that stands for an operand. -/
def Spells (text : String) (o : Operand) : Prop :=
  items? text.toList = some [.operand o] ∧ ∀ k, (Item.operand o).isKeyword k = false

theorem Bare.spells {s : String} (h : Bare s) : Spells s (.word s) :=
  ⟨items?_word h.ne_empty h.isWordPart, h.not_keyword⟩

/-- The words of values that are neither numbers nor texts. -/
def fixedWords : List String := ["NULL", "null", "true", "false"]

/-- How operands are written: a fixed word, a numeral, the dotted name of a column, or a literal. -/
inductive Operand.Written : String → Operand → Prop
  | fixed {w : String} (h : w ∈ fixedWords) : Written w (.word w)
  | numeral {s : String} (h : Readable s.toList) : Written s (.word s)
  | column {name : String} (h : Name.isSafe name = true) (hdot : '.' ∈ name.toList) :
      Written name (.word name)
  | quoted (s : String) : Written (quoteText s) (.literal s)

theorem Operand.Written.bare {text w : String} (h : (Operand.word w).Written text) :
    text = w ∧ Bare w := by
  cases h with
  | fixed hw =>
      have hall : ∀ w ∈ fixedWords, Bare w := by decide
      exact ⟨rfl, hall _ hw⟩
  | numeral hread =>
      obtain ⟨x, hx⟩ := Option.isSome_iff_exists.mp hread
      exact ⟨rfl, Bare.ofNumeral hx⟩
  | column hsafe hdot => exact ⟨rfl, Bare.ofName hsafe hdot⟩

theorem Operand.Written.spells {text : String} {o : Operand} (h : o.Written text) :
    Spells text o := by
  cases o with
  | word w =>
      obtain ⟨rfl, hbare⟩ := h.bare
      exact hbare.spells
  | literal s =>
      cases h
      exact ⟨items?_quoteText s, fun _ => rfl⟩

/-- A constant of a filter: a numeral is a word, and anything else a literal. -/
def Operand.constant (s : String) : Operand :=
  if (float? s.toList).isSome then .word s else .literal s

/-- A value on the right side of a comparison. -/
def Operand.ofValue (context : FilterContext) : Json → Operand
  | .null => .word "NULL"
  | .bool b => .word (context.dialect.boolLiteral b)
  | .int n => .word (Json.int n).compact
  | .float x => .word (Json.float x).compact
  | .text s =>
    if context.columnReferences then .word (Name.qualify context.table (Name.internal s))
    else .literal s
  | .list items => .literal (Json.list items).compact
  | .object fields => .literal (Json.object fields).compact

section Operands
variable {context : FilterContext} {path text : String}

theorem written_constantText (s : String) :
    (Operand.constant s).Written (Condition.constantText s) := by
  unfold Condition.constantText Operand.constant
  split_ifs with h
  · exact .numeral h
  · exact .quoted s

theorem columnText_ok (h : Condition.columnText context path = .ok text) :
    text = Name.qualify context.table path ∧ Name.isSafe text = true := by
  obtain ⟨_, hsafe, h⟩ := bind_eq_ok.mp h
  obtain rfl := pure_eq_ok.mp h
  unfold Name.ensureSafe at hsafe
  split_ifs at hsafe with hname
  exact ⟨rfl, hname⟩

theorem written_columnText (h : Condition.columnText context path = .ok text) :
    (Operand.word (Name.qualify context.table path)).Written text := by
  obtain ⟨rfl, hsafe⟩ := columnText_ok h
  exact .column hsafe (Name.dot_mem_qualify context.table path)

theorem written_boolLiteral (d : Dialect) (b : Bool) :
    (Operand.word (d.boolLiteral b)).Written (d.boolLiteral b) := by
  have hdecided : d.boolLiteral b ∈ fixedWords ∨ Readable (d.boolLiteral b).toList := by
    cases d <;> cases b <;> decide
  rcases hdecided with h | h
  · exact .fixed h
  · exact .numeral h

theorem written_float (x : Binary64) :
    (Operand.word (Json.float x).compact).Written (Json.float x).compact := by
  simp only [Json.compact, Json.scalarText]
  split_ifs with hx
  · cases x with
    | finite negative significand exponent =>
        have hread : Readable (Layout.json.finiteText negative significand exponent) :=
          readable_finiteText Layout.json significand exponent
        exact .numeral (by simpa [Layout.write] using hread)
    | infinite negative => cases hx
    | nan => cases hx
  · exact .fixed (by decide)

theorem written_operandText {v : Json} (h : Condition.operandText context v = .ok text) :
    (Operand.ofValue context v).Written text := by
  cases v with
  | text s =>
      simp only [Condition.operandText] at h
      unfold Operand.ofValue
      split_ifs at h ⊢
      · exact written_columnText h
      · obtain rfl := Except.ok.inj h
        exact .quoted s
  | null =>
      obtain rfl : "NULL" = text := Except.ok.inj h
      exact .fixed (by decide)
  | bool b =>
      obtain rfl := Except.ok.inj h
      exact written_boolLiteral context.dialect b
  | int n =>
      obtain rfl := Except.ok.inj h
      exact .numeral (readable_toString n)
  | float x =>
      obtain rfl := Except.ok.inj h
      exact written_float x
  | list items =>
      obtain rfl := Except.ok.inj h
      exact .quoted _
  | object fields =>
      obtain rfl := Except.ok.inj h
      exact .quoted _

end Operands

section Comparisons
variable {l r : String} {left right : Operand}

/-- Items without a connective among them. -/
abbrev Plain (items : List Item) : Prop := ∀ item ∈ items, ∀ k, item.isKeyword k = false

def words (ws : List String) : List Item := ws.map fun w => .operand (.word w)

theorem plain_words {ws : List String} (h : ∀ w ∈ ws, Bare w) : Plain (words ws) := by
  intro item hitem
  obtain ⟨w, hw, rfl⟩ := List.mem_map.mp hitem
  exact (h w hw).not_keyword

theorem clause?_of_comparison? (rest : String) {items : List Item} {c : Comparison}
    (hl : Spells l left) (hrest : items? rest.toList = some items) (hplain : Plain items)
    (hc : comparison? (.operand left :: items) = some c) :
    clause? (l ++ " " ++ rest) = some (.comparison c) := by
  have hitems : items? (l ++ " " ++ rest).toList = some (.operand left :: items) := by
    simpa using items?_append_blank hl.1 hrest
  refine clause?_of_factor? hitems (List.forall_mem_cons.mpr ⟨hl.2, hplain⟩) ?_
  have hfactor : factor? (.operand left :: items) =
      (comparison? (.operand left :: items)).map .comparison := by
    cases items <;> rfl
  rw [hfactor, hc, Option.map_some]

theorem clause?_relation {operator : String} (hl : Spells l left) (hr : Spells r right)
    (hop : operator ∈ relations) :
    clause? (l ++ " " ++ operator ++ " " ++ r) =
      some (.comparison (.relation left operator right)) := by
  have hword : Spells operator (.word operator) := by
    have : ∀ operator ∈ relations, Bare operator := by decide
    exact (this operator hop).spells
  have hcompared : comparedBy? left operator [.operand right] =
      some (.relation left operator right) := by
    simp only [relations, List.mem_cons, List.not_mem_nil, or_false] at hop
    rcases hop with rfl | rfl | rfl | rfl | rfl | rfl | rfl <;> rfl
  have hrest :
      items? (operator ++ " " ++ r).toList = some [.operand (.word operator), .operand right] := by
    simpa using items?_append_blank hword.1 hr.1
  have hplain : Plain [.operand (.word operator), .operand right] :=
    List.forall_mem_cons.mpr ⟨hword.2, List.forall_mem_cons.mpr ⟨hr.2, List.forall_mem_nil _⟩⟩
  simpa [String.append_assoc] using clause?_of_comparison? _ hl hrest hplain hcompared

theorem clause?_null (hl : Spells l left) (isNull : Bool) :
    clause? (l ++ " " ++ (if isNull then "IS NULL" else "IS NOT NULL")) =
      some (.comparison (.null left isNull)) := by
  cases isNull with
  | false =>
      have hplain : Plain (words ["IS", "NOT", "NULL"]) := plain_words (by decide)
      exact clause?_of_comparison? "IS NOT NULL" hl rfl hplain rfl
  | true =>
      have hplain : Plain (words ["IS", "NULL"]) := plain_words (by decide)
      exact clause?_of_comparison? "IS NULL" hl rfl hplain rfl

/-- Texts of operands with commas between them. -/
theorem operands?_intercalate {texts : List String} {operands : List Operand}
    (h : List.Forall₂ Spells texts operands) (hne : texts ≠ []) :
    ∃ items, items? (", ".intercalate texts).toList = some items ∧
      operands? items = some operands := by
  induction h with
  | nil => exact absurd rfl hne
  | @cons text o rest os ho hrest ih =>
      cases hrest with
      | nil => exact ⟨[.operand o], by simpa using ho.1, rfl⟩
      | cons hnext hmore =>
          obtain ⟨items, hitems, hos⟩ := ih (by simp)
          refine ⟨.operand o :: .comma :: items, ?_, ?_⟩
          · rw [String.intercalate_cons_cons]
            simpa using items?_append_comma ho.1 hitems
          · rw [operands?, hos, Option.map_some]

theorem clause?_member {texts : List String} {operands : List Operand} (hl : Spells l left)
    (isMember : Bool) (h : List.Forall₂ Spells texts operands) (hne : texts ≠ []) :
    clause? (l ++ " " ++ (if isMember then "IN" else "NOT IN") ++ " (" ++ ", ".intercalate
      texts ++ ")") = some (.comparison (.member left isMember operands)) := by
  obtain ⟨items, hitems, hoperands⟩ := operands?_intercalate h hne
  have hgroup : items? ("(" ++ ", ".intercalate texts ++ ")").toList = some [grouped items] := by
    simpa using items?_parenthesized hitems
  have clause : ∀ (operator : String) (ws : List String), items? operator.toList = some (words ws) →
      (∀ w ∈ ws, Bare w) →
      comparison? (.operand left :: (words ws ++ [grouped items])) =
        some (.member left isMember operands) →
      clause? (l ++ " " ++ operator ++ " (" ++ ", ".intercalate texts ++ ")") =
        some (.comparison (.member left isMember operands)) := by
    intro operator ws hop hws hc
    have hrest : items? (operator ++ " " ++ ("(" ++ ", ".intercalate texts ++ ")")).toList =
        some (words ws ++ [grouped items]) := by
      simpa using items?_append_blank hop hgroup
    have hplain : Plain (words ws ++ [grouped items]) :=
      List.forall_mem_append.mpr ⟨plain_words hws, by simp [Item.isKeyword, grouped]⟩
    have htext : l ++ " " ++ operator ++ " (" ++ ", ".intercalate texts ++ ")" =
        l ++ " " ++ (operator ++ " " ++ ("(" ++ ", ".intercalate texts ++ ")")) :=
      String.toList_injective (by simp)
    rw [htext]
    exact clause?_of_comparison? _ hl hrest hplain hc
  cases isMember with
  | false =>
      refine clause "NOT IN" ["NOT", "IN"] rfl (by decide) ?_
      simp [comparison?, comparedBy?, words, grouped, hoperands]
  | true =>
      refine clause "IN" ["IN"] rfl (by decide) ?_
      simp [comparison?, comparedBy?, words, grouped, hoperands]

end Comparisons

end SqlGateway.Query

namespace SqlGateway.Query

open Formula

/-- A condition and the formula that it says. -/
inductive Renders : Condition → Formula → Prop
  | relation {l operator r : String} {left right : Operand} (hl : left.Written l)
      (hop : operator ∈ relations) (hr : right.Written r) :
      Renders (.test (l ++ " " ++ operator ++ " " ++ r))
        (.comparison (.relation left operator right))
  | null {l : String} {left : Operand} (hl : left.Written l) (isNull : Bool) :
      Renders (.test (l ++ " " ++ (if isNull then "IS NULL" else "IS NOT NULL")))
        (.comparison (.null left isNull))
  | member {l : String} {left : Operand} {texts : List String} {operands : List Operand}
      (hl : left.Written l) (isMember : Bool) (h : List.Forall₂ Operand.Written texts operands)
      (hne : texts ≠ []) :
      Renders (.test (l ++ " " ++ (if isMember then "IN" else "NOT IN") ++ " (" ++
        ", ".intercalate texts ++ ")")) (.comparison (.member left isMember operands))
  | both {cs : List Condition} {fs : List Formula} (hne : cs ≠ []) (hlength : cs.length = fs.length)
      (h : ∀ c f, (c, f) ∈ cs.zip fs → Renders c f) : Renders (.both cs) (conj fs)
  | group (k : Connective) {cs : List Condition} {fs : List Formula} (hne : cs ≠ [])
      (hlength : cs.length = fs.length) (h : ∀ c f, (c, f) ∈ cs.zip fs → Renders c f) :
      Renders (.group k.keyword cs) (join k fs)

theorem conditionTexts_eq_map (cs : List Condition) :
    conditionTexts cs = cs.map Condition.text := by
  induction cs with
  | nil => rfl
  | cons c rest ih => rw [conditionTexts, ih, List.map_cons]

/-- Conditions one by one related to formulas, and then their texts. -/
theorem forall₂_conditionTexts {R : String → Formula → Prop} {cs : List Condition}
    {fs : List Formula} (hlength : cs.length = fs.length)
    (h : ∀ c f, (c, f) ∈ cs.zip fs → R c.text f) : List.Forall₂ R (conditionTexts cs) fs := by
  rw [conditionTexts_eq_map, List.forall₂_map_left_iff, List.forall₂_iff_zip]
  exact ⟨hlength, fun hmem => h _ _ hmem⟩

theorem conditionTexts_ne_nil {cs : List Condition} (hne : cs ≠ []) : conditionTexts cs ≠ [] := by
  rwa [conditionTexts_eq_map, ne_eq, List.map_eq_nil_iff]

namespace Renders
variable {cs : List Condition} {fs : List Formula}

theorem bothOf (hne : cs ≠ []) (h : List.Forall₂ Renders cs fs) : Renders (.both cs) (conj fs) := by
  obtain ⟨hlength, hzip⟩ := List.forall₂_iff_zip.mp h
  exact .both hne hlength fun c f hmem => hzip hmem

theorem groupOf (k : Connective) (hne : cs ≠ []) (h : List.Forall₂ Renders cs fs) :
    Renders (.group k.keyword cs) (join k fs) := by
  obtain ⟨hlength, hzip⟩ := List.forall₂_iff_zip.mp h
  exact .group k hne hlength fun c f hmem => hzip hmem

/-- The text of a condition is a clause that says its formula. -/
theorem clause? {c : Condition} {f : Formula} (h : Renders c f) :
    Query.clause? c.text = some f := by
  induction h with
  | relation hl hop hr => exact clause?_relation hl.spells hr.spells hop
  | null hl isNull => exact clause?_null hl.spells isNull
  | member hl isMember h hne =>
      exact clause?_member hl.spells isMember (h.imp fun _ _ => (·.spells)) hne
  | both hne hlength _ ih =>
      have hclauses : Clauses (conditionTexts _) _ := forall₂_conditionTexts hlength ih
      exact clause?_intercalate hclauses (conditionTexts_ne_nil hne)
  | @group k cs fs hne hlength _ ih =>
      have hclauses : Clauses (conditionTexts cs) fs := forall₂_conditionTexts hlength ih
      have hgroup : ∃ items,
          items? ((" " ++ k.keyword ++ " ").intercalate (conditionTexts cs)).toList = some items ∧
            disjunction? items = some (join k fs) := by
        cases k with
        | and =>
            have hclause := clause?_intercalate hclauses (conditionTexts_ne_nil hne)
            exact disjunction?_of_clause? hclause
        | or => exact disjunction?_intercalate hclauses (conditionTexts_ne_nil hne)
      obtain ⟨items, hitems, hf⟩ := hgroup
      exact clause?_parenthesized hitems hf

end Renders

end SqlGateway.Query
