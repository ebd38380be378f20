import SqlGateway.Proofs.Query.Statement
import SqlGateway.Proofs.Query.Walk

/-!
# Texts of statements

The text of a compiled query, put together from the texts of its clauses. Every clause begins with a
blank, so it adds its own lexemes to those before it, whatever they are.
-/
namespace SqlGateway.Query

open SelectStatement
open Number
open Schema (JoinKind)

/-- A text with its lexemes. -/
abbrev Lexed (d : Dialect) (text : String) (xs : List Lexeme) : Prop :=
  lexemes d text.toList = some xs

/-- A text adds lexemes to those of every text before it. -/
def Adds (d : Dialect) (text : String) (xs : List Lexeme) : Prop :=
  ∀ front fs, Lexed d front fs → Lexed d (front ++ text) (fs ++ xs)

/-- Words with a blank before each. -/
def spaced (ws : List String) : String := String.join (ws.map (" " ++ ·))

section Texts
variable {d : Dialect} {a b : String} {xs ys : List Lexeme} {ws : List String}

theorem Adds.empty : Adds d "" [] := by
  intro front fs h
  simpa using h

theorem Adds.append (ha : Adds d a xs) (hb : Adds d b ys) : Adds d (a ++ b) (xs ++ ys) := by
  intro front fs h
  have hboth := hb _ _ (ha front fs h)
  rwa [String.append_assoc, List.append_assoc] at hboth

theorem Adds.blank (h : Lexed d a xs) : Adds d (" " ++ a) xs := by
  intro front fs hfront
  have happend := lexemes_append_blank hfront h
  rwa [Lexed, String.toList_append, String.toList_append]

theorem Lexed.blank (ha : Lexed d a xs) (hb : Lexed d b ys) :
    Lexed d (a ++ (" " ++ b)) (xs ++ ys) :=
  Adds.blank hb a xs ha

/-- Words that are cut as they are. -/
def AreWords (d : Dialect) (ws : List String) : Prop := ∀ w ∈ ws, Lexed d w [.word w]

theorem areWords_of_forall (h : ∀ w ∈ ws, w ≠ "" ∧ w.toList.all isUnmarked = true) :
    AreWords d ws :=
  fun w hw => lexemes_word (h w hw).1 (List.all_eq_true.mp (h w hw).2)

theorem AreWords.append {more : List String} (h : AreWords d ws) (hmore : AreWords d more) :
    AreWords d (ws ++ more) :=
  List.forall_mem_append.mpr ⟨h, hmore⟩

theorem areWords_number (n : Int) : AreWords d [toString n] :=
  List.forall_mem_singleton.mpr
    (lexemes_written (.numeral (readable_toString n)) (List.forall_mem_nil _))

theorem adds_spaced (h : AreWords d ws) : Adds d (spaced ws) (keywords ws) := by
  induction ws with
  | nil => exact .empty
  | cons w rest ih =>
      obtain ⟨hw, hrest⟩ := List.forall_mem_cons.mp h
      have hcons : spaced (w :: rest) = (" " ++ w) ++ spaced rest := String.join_cons
      rw [hcons]
      exact (Adds.blank hw).append (ih hrest)

theorem adds_join {texts : List String} {xss : List (List Lexeme)}
    (h : List.Forall₂ (Adds d) texts xss) : Adds d (String.join texts) xss.flatten := by
  induction h with
  | nil => exact .empty
  | cons htext _ ih =>
      rw [String.join_cons]
      exact htext.append ih

/-- Texts with commas between them. -/
theorem lexed_separated {texts : List String} {xss : List (List Lexeme)}
    (h : List.Forall₂ (Lexed d) texts xss) : Lexed d (", ".intercalate texts) (separated xss) := by
  induction h with
  | nil => exact lexemes_nil
  | @cons text xs rest others htext hrest ih =>
      cases hrest with
      | nil => simpa [separated] using htext
      | cons hnext hmore =>
          have hcomma := lexemes_append_comma htext ih
          rw [String.intercalate_cons_cons, separated, List.intercalate_cons_cons]
          simpa [Lexed, separated] using hcomma

theorem AreWords.separated (h : AreWords d ws) :
    Lexed d (", ".intercalate ws) (separated (ws.map fun w => [.word w])) := by
  refine lexed_separated ?_
  rw [List.forall₂_map_right_iff, List.forall₂_same]
  exact h

theorem Lexed.parenthesized (h : Lexed d a xs) :
    Lexed d ("(" ++ a ++ ")") (.opening :: (xs ++ [.closing])) := by
  have hchars := lexemes_parenthesized h
  simpa [Lexed] using hchars

theorem adds_clause {terms : List String} {xss : List (List Lexeme)}
    (hkeyword : Lexed d a (keywords ws)) (h : List.Forall₂ (Lexed d) terms xss) :
    Adds d (Compiler.clause a ", " terms) (SelectStatement.clause ws xss) := by
  cases h with
  | nil => exact .empty
  | @cons text xs rest others htext hrest =>
      have hterms := lexed_separated (.cons htext hrest)
      have hadds : Adds d (" " ++ (a ++ (" " ++ ", ".intercalate (text :: rest))))
          (SelectStatement.clause ws (xs :: others)) := .blank (hkeyword.blank hterms)
      simpa [Compiler.clause, String.append_assoc] using hadds

end Texts

/-- A statement has the clauses of a compiled query. -/
structure Composes (d : Dialect) (q : CompiledQuery) (s : SelectStatement) : Prop where
  distinct : s.distinct = q.distinct
  table : s.table = q.mainTable
  items : List.Forall₂ (fun column item => Lexed d column.expression item.1 ∧ item.2 = column.label)
    q.columns s.items
  joins : List.Forall₂ (fun text j => ∃ condition, Lexed d condition j.condition ∧
    text = s!"{j.kind.sql} {j.table} ON {condition}") q.joins s.joins
  condition : Option.Rel (Lexed d) q.filter s.condition
  groupBy : List.Forall₂ (Lexed d) q.groupBy s.groupBy
  orderBy : List.Forall₂ (Lexed d) q.orderBy s.orderBy

theorem Composes.withCut {d : Dialect} {q : CompiledQuery} {s : SelectStatement}
    (h : Composes d q s) (cut : Cut) : Composes d q { s with cut } :=
  ⟨h.distinct, h.table, h.items, h.joins, h.condition, h.groupBy, h.orderBy⟩

/-- The text of a query from its columns up to its groups. -/
def selectedText (d : Dialect) (q : CompiledQuery) : String :=
  ", ".intercalate (q.columns.map fun column =>
      column.expression ++ " AS " ++ d.quoteAlias column.label.encode) ++
    " FROM " ++ q.mainTable ++ String.join (q.joins.map (" " ++ ·)) ++
      Compiler.whereText q.filter ++
    Compiler.clause "GROUP BY" ", " q.groupBy

/-- The text of the order of a query, with a constant in place of terms where rows are skipped. -/
def orderText (q : CompiledQuery) (cut : Cut) : String :=
  match q.orderBy, cut with
  | [], .fetch _ _ => " ORDER BY (SELECT NULL)"
  | terms, _ => Compiler.clause "ORDER BY" ", " terms

def frontText (d : Dialect) (q : CompiledQuery) (cut : Cut) : String :=
  "SELECT" ++ spaced ((if q.distinct then ["DISTINCT"] else []) ++ cut.topWords) ++
    (" " ++ selectedText d q)

def statementText (d : Dialect) (q : CompiledQuery) (cut : Cut) : String :=
  frontText d q cut ++ orderText q cut ++ spaced cut.lastWords

section Composes
variable {d : Dialect} {q : CompiledQuery} {s : SelectStatement}

theorem lexed_of_isSafe {name : String} (h : Name.isSafe name = true) :
    Lexed d name [.word name] := by
  refine lexemes_word ?_ (isUnmarked_of_isSafe h)
  rintro rfl
  cases h

theorem lexed_label {label : Alias} (h : Name.isSafe label.name = true) :
    Lexed d (d.quoteAlias label.encode) [.name label.encode] := by
  refine lexemes_quoteAlias fun c hc => ⟨?_, ?_⟩
  · exact isUnmarked_of_isLabelChar (isLabelChar_of_mem_encode h c hc)
  · rintro rfl
    exact absurd (isLabelChar_of_mem_encode h _ hc) (by decide)

theorem lexed_item {column : SelectColumn} {xs : List Lexeme} (h : Lexed d column.expression xs)
    (hlabel : Name.isSafe column.label.name = true) :
    Lexed d (column.expression ++ " AS " ++ d.quoteAlias column.label.encode)
      (itemLexemes (xs, column.label)) := by
  have has : Lexed d "AS" [.word "AS"] := lexemes_innerWord (by decide)
  have hitem := h.blank (has.blank (lexed_label hlabel))
  simpa [Lexed, itemLexemes] using hitem

theorem adds_joinPart {j : JoinPart} {condition : String} (htable : Name.isSafe j.table = true)
    (h : Lexed d condition j.condition) :
    Adds d (" " ++ s!"{j.kind.sql} {j.table} ON {condition}") j.lexemes := by
  have hkind : Lexed d j.kind.sql (keywords (JoinPart.kindWords j.kind)) := by
    cases j.kind <;> cases d <;> decide
  have hon : Lexed d "ON" [.word "ON"] := by cases d <;> decide
  have htext : j.kind.sql ++ (" " ++ (j.table ++ (" " ++ ("ON" ++ (" " ++ condition))))) =
      j.kind.sql ++ " " ++ j.table ++ " ON " ++ condition := String.toList_injective (by simp)
  have hpart := hkind.blank ((lexed_of_isSafe htable).blank (hon.blank h))
  rw [htext] at hpart
  exact .blank hpart

theorem Composes.lexed_selectedText (h : Composes d q s) (hs : s.Legible (Name.isSafe · = true)) :
    Lexed d (selectedText d q)
      (separated (s.items.map itemLexemes) ++ .word "FROM" :: .word s.table :: s.middle) := by
  have hitems : List.Forall₂ (Lexed d)
      (q.columns.map fun column => column.expression ++ " AS " ++ d.quoteAlias column.label.encode)
      (s.items.map itemLexemes) := by
    rw [List.forall₂_map_left_iff, List.forall₂_map_right_iff]
    have hmem := List.forall₂_iff_zip.mp h.items
    refine List.forall₂_iff_zip.mpr ⟨hmem.1, fun {column item} hzip => ?_⟩
    obtain ⟨xs, label⟩ := item
    obtain ⟨hexpression, rfl⟩ := hmem.2 hzip
    exact lexed_item hexpression (hs.items _ (List.of_mem_zip hzip).2).2
  have hjoins : List.Forall₂ (Adds d) (q.joins.map (" " ++ ·)) (s.joins.map JoinPart.lexemes) := by
    rw [List.forall₂_map_left_iff, List.forall₂_map_right_iff]
    have hmem := List.forall₂_iff_zip.mp h.joins
    refine List.forall₂_iff_zip.mpr ⟨hmem.1, fun {text j} hzip => ?_⟩
    obtain ⟨condition, hcondition, rfl⟩ := hmem.2 hzip
    exact adds_joinPart (hs.joins j (List.of_mem_zip hzip).2).1 hcondition
  have hwhere : Adds d (Compiler.whereText q.filter) (clause ["WHERE"] s.condition.toList) := by
    have hcondition := h.condition
    generalize q.filter = filter, s.condition = condition at hcondition
    cases hcondition with
    | none => exact .empty
    | @some text xs htext =>
        have hword : Lexed d "WHERE" [.word "WHERE"] := by cases d <;> decide
        have hwords : " " ++ ("WHERE" ++ (" " ++ text)) = " WHERE " ++ text :=
          String.toList_injective (by simp)
        have hadds := Adds.blank (hword.blank htext)
        rw [hwords] at hadds
        simpa [Compiler.whereText, SelectStatement.clause, keywords, separated] using hadds
  have hgroup :
      Adds d (Compiler.clause "GROUP BY" ", " q.groupBy) (clause ["GROUP", "BY"] s.groupBy) :=
    adds_clause (by cases d <;> decide) h.groupBy
  have hfrom : Lexed d "FROM" [.word "FROM"] := by cases d <;> decide
  have hmain : Lexed d q.mainTable [.word s.table] := by
    rw [h.table]
    exact lexed_of_isSafe (h.table ▸ hs.table)
  have hfront := (lexed_separated hitems).blank (hfrom.blank hmain)
  have hmiddle := ((adds_join hjoins).append hwhere).append hgroup
  have hwhole := hmiddle _ _ hfront
  simpa [Lexed, selectedText, SelectStatement.middle, List.flatMap_def] using hwhole

theorem Composes.adds_orderText (h : Composes d q s) :
    Adds d (orderText q s.cut) s.orderClause := by
  have hclause :
      Adds d (Compiler.clause "ORDER BY" ", " q.orderBy) (clause ["ORDER", "BY"] s.orderBy) :=
    adds_clause (by cases d <;> decide) h.orderBy
  have hconstant : Lexed d "ORDER BY (SELECT NULL)" constantOrder := by cases d <;> decide
  have horder := h.orderBy
  unfold orderText orderClause
  generalize q.orderBy = terms, s.orderBy = xss at hclause horder ⊢
  cases horder with
  | nil =>
      cases s.cut with
      | fetch skip n =>
          have htext : " " ++ "ORDER BY (SELECT NULL)" = " ORDER BY (SELECT NULL)" := by decide
          have hadds := Adds.blank hconstant
          rwa [htext] at hadds
      | whole | top n | limit n skip => exact hclause
  | cons htext hrest => exact hclause

theorem areWords_topWords (cut : Cut) : AreWords d cut.topWords := by
  cases cut with
  | top n =>
      have htop : AreWords d ["TOP"] := areWords_of_forall (by decide)
      exact htop.append (areWords_number n)
  | whole | limit n skip | fetch skip n => exact List.forall_mem_nil _

theorem areWords_lastWords (cut : Cut) : AreWords d cut.lastWords := by
  have hlimit : AreWords d ["LIMIT"] := areWords_of_forall (by decide)
  have hoffset : AreWords d ["OFFSET"] := areWords_of_forall (by decide)
  cases cut with
  | whole | top n => exact List.forall_mem_nil _
  | limit n skip =>
      have hcut := hlimit.append (areWords_number n)
      cases skip with
      | none => exact hcut
      | some k => exact hcut.append (hoffset.append (areWords_number k))
  | fetch skip n =>
      have hnext : AreWords d ["ROWS", "FETCH", "NEXT"] := areWords_of_forall (by decide)
      have honly : AreWords d ["ROWS", "ONLY"] := areWords_of_forall (by decide)
      exact hoffset.append ((areWords_number skip).append
        (hnext.append ((areWords_number n).append honly)))

theorem Composes.lexed_frontText (h : Composes d q s) (hs : s.Legible (Name.isSafe · = true)) :
    Lexed d (frontText d q s.cut) (s.before ++ .word "FROM" :: .word s.table :: s.middle) := by
  have hselect : Lexed d "SELECT" [.word "SELECT"] := by cases d <;> decide
  have hdistinct : AreWords d (if q.distinct then ["DISTINCT"] else []) := by
    cases q.distinct
    · exact List.forall_mem_nil _
    · exact areWords_of_forall (by decide)
  have hfirst := adds_spaced (hdistinct.append (areWords_topWords s.cut)) _ _ hselect
  have hfront := hfirst.blank (h.lexed_selectedText hs)
  simpa [frontText, before, firstWords, keywords, h.distinct] using hfront

/-- The text of a query with its rows cut has the lexemes of the statement. -/
theorem Composes.lexed (h : Composes d q s) (hs : s.Legible (Name.isSafe · = true)) :
    Lexed d (statementText d q s.cut) s.lexemes := by
  have hlast := adds_spaced (areWords_lastWords s.cut) _ _
    (h.adds_orderText _ _ (h.lexed_frontText hs))
  simpa [statementText, SelectStatement.lexemes, after] using hlast

end Composes

end SqlGateway.Query
