import SqlGateway.Proofs.Query.Vocabulary

/-!
# Statements by their clauses

The lexemes of a statement that reads, clause by clause. A clause holds operands and keywords of its
own with every parenthesis closed, and none of the words that stand around clauses, so a statement
has one `FROM`.
-/
namespace SqlGateway.Query

open Number Text
open Schema (JoinKind Registry)

/-- Lexemes that may stand inside a clause. -/
structure InClause (xs : List Lexeme) : Prop where
  inner : ∀ x ∈ xs, x.Inner
  balanced : Balanced xs

/-- A table of a schema that may stand in a statement as a word of its own. -/
structure IsTableWord (schema : Registry) (table : String) : Prop where
  found : schema.hasTable table = true
  safe : Name.isSafe table = true
  not_reserved : ¬Reserved table

def keywords (ws : List String) : List Lexeme := ws.map .word

/-- Lexemes with commas between them. -/
def separated (xss : List (List Lexeme)) : List Lexeme := [Lexeme.comma].intercalate xss

/-- A join of a statement. -/
structure JoinPart where
  kind : JoinKind
  table : String
  condition : List Lexeme

namespace JoinPart

def kindWords : JoinKind → List String
  | .inner => ["INNER", "JOIN"]
  | .left => ["LEFT", "JOIN"]
  | .right => ["RIGHT", "JOIN"]

def lexemes (j : JoinPart) : List Lexeme :=
  keywords (kindWords j.kind) ++ .word j.table :: .word "ON" :: j.condition

end JoinPart

/-- How the rows of a statement are cut to a number of them. -/
inductive Cut where
  | whole
  /-- A number of rows, which stands before the columns. -/
  | top (limit : Int)
  /-- A number of rows, perhaps after some that are skipped. -/
  | limit (limit : Int) (skip : Option Int)
  /-- A number of rows after some that are skipped. -/
  | fetch (skip limit : Int)
  deriving DecidableEq, Repr

namespace Cut

def topWords : Cut → List String
  | .top n => ["TOP", toString n]
  | _ => []

def lastWords : Cut → List String
  | .whole | .top _ => []
  | .limit n none => ["LIMIT", toString n]
  | .limit n (some skip) => ["LIMIT", toString n, "OFFSET", toString skip]
  | .fetch skip n => ["OFFSET", toString skip, "ROWS", "FETCH", "NEXT", toString n, "ROWS", "ONLY"]

end Cut

structure SelectStatement where
  distinct : Bool
  /-- The columns: an expression and its label. -/
  items : List (List Lexeme × Alias)
  table : String
  joins : List JoinPart
  condition : Option (List Lexeme)
  groupBy : List (List Lexeme)
  orderBy : List (List Lexeme)
  cut : Cut

namespace SelectStatement

def itemLexemes (item : List Lexeme × Alias) : List Lexeme :=
  item.1 ++ [.word "AS", .name item.2.encode]

/-- The words from the first one up to the columns. -/
def firstWords (s : SelectStatement) : List String :=
  "SELECT" :: ((if s.distinct then ["DISTINCT"] else []) ++ s.cut.topWords)

/-- What stands before `FROM`. -/
def before (s : SelectStatement) : List Lexeme :=
  keywords s.firstWords ++ separated (s.items.map itemLexemes)

/-- A clause with its keywords, if it has terms. -/
def clause (ws : List String) : List (List Lexeme) → List Lexeme
  | [] => []
  | terms => keywords ws ++ separated terms

/-- A constant in place of order terms, where rows are skipped and nothing orders them. -/
def constantOrder : List Lexeme :=
  keywords ["ORDER", "BY"] ++ [.opening, .word "SELECT", .word "NULL", .closing]

def orderClause (s : SelectStatement) : List Lexeme :=
  match s.orderBy, s.cut with
  | [], .fetch _ _ => constantOrder
  | terms, _ => clause ["ORDER", "BY"] terms

/-- What stands between the main table and the order. -/
def middle (s : SelectStatement) : List Lexeme :=
  s.joins.flatMap JoinPart.lexemes ++ clause ["WHERE"] s.condition.toList ++
    clause ["GROUP", "BY"] s.groupBy

/-- What stands after the main table. -/
def after (s : SelectStatement) : List Lexeme :=
  s.middle ++ s.orderClause ++ keywords s.cut.lastWords

def lexemes (s : SelectStatement) : List Lexeme :=
  s.before ++ .word "FROM" :: .word s.table :: s.after

/-- A statement on tables of a schema, with nothing in its clauses that does not belong there. -/
structure Sound (schema : Registry) (s : SelectStatement) : Prop where
  items_ne_nil : s.items ≠ []
  items : ∀ item ∈ s.items, InClause item.1 ∧ Name.isSafe item.2.name = true
  table : IsTableWord schema s.table
  joins : ∀ j ∈ s.joins, IsTableWord schema j.table ∧ InClause j.condition
  condition : ∀ xs ∈ s.condition, InClause xs
  groupBy : ∀ xs ∈ s.groupBy, InClause xs
  orderBy : ∀ xs ∈ s.orderBy, InClause xs

/-- A statement whose tables have some property, with nothing in its clauses that does not belong
there. -/
structure Legible (IsTable : String → Prop) (s : SelectStatement) : Prop where
  items_ne_nil : s.items ≠ []
  items : ∀ item ∈ s.items, InClause item.1 ∧ Name.isSafe item.2.name = true
  table : IsTable s.table
  joins : ∀ j ∈ s.joins, IsTable j.table ∧ InClause j.condition
  condition : ∀ xs ∈ s.condition, InClause xs
  groupBy : ∀ xs ∈ s.groupBy, InClause xs
  orderBy : ∀ xs ∈ s.orderBy, InClause xs

section Legible
variable {IsTable IsWord : String → Prop} {s : SelectStatement}

theorem Legible.withCut (h : s.Legible IsTable) (cut : Cut) : Legible IsTable { s with cut } :=
  ⟨h.items_ne_nil, h.items, h.table, h.joins, h.condition, h.groupBy, h.orderBy⟩

theorem Legible.mono (h : s.Legible IsTable) (hword : ∀ table, IsTable table → IsWord table) :
    s.Legible IsWord :=
  ⟨h.items_ne_nil, h.items, hword _ h.table, fun j hj => (h.joins j hj).imp_left (hword _),
    h.condition, h.groupBy, h.orderBy⟩

theorem sound_iff {schema : Registry} : s.Sound schema ↔ s.Legible (IsTableWord schema) :=
  ⟨fun h => ⟨h.items_ne_nil, h.items, h.table, h.joins, h.condition, h.groupBy, h.orderBy⟩,
    fun h => ⟨h.items_ne_nil, h.items, h.table, h.joins, h.condition, h.groupBy, h.orderBy⟩⟩

end Legible

end SelectStatement

/-- A lexeme of a part of a statement: one that may stand inside a clause, one of the words around
the clauses of that part, or a table. -/
inductive Lexeme.Among (schema : Registry) (ws : List String) : Lexeme → Prop
  | inner {x : Lexeme} (h : x.Inner) : Among schema ws x
  | around {w : String} (h : w ∈ ws) : Among schema ws (.word w)
  | table {name : String} (h : IsTableWord schema name) : Among schema ws (.word name)

/-- A lexeme of a sound statement. -/
abbrev Lexeme.Admitted (schema : Registry) : Lexeme → Prop :=
  Lexeme.Among schema ("DISTINCT" :: clauseWords)

/-- Neither ends a statement nor begins a comment, outside literals. -/
def Lexeme.Quiet : Lexeme → Prop
  | .word w | .name w => Query.Quiet w.toList
  | _ => True

def Lexeme.isFrom : Lexeme → Bool
  | .word w => uppered w == "FROM"
  | _ => false

section Parts
variable {schema : Registry} {xs : List Lexeme} {xss : List (List Lexeme)} {ws more : List String}

theorem Lexeme.Admitted.quiet {x : Lexeme} (h : x.Admitted schema) : x.Quiet := by
  cases h with
  | inner hinner =>
      cases x with
      | word w => exact quiet_of_inner_word hinner
      | name w => exact quiet_of_inner_name hinner
      | literal s => trivial
      | opening => trivial
      | closing => trivial
      | comma => trivial
  | around h =>
      have hall : ∀ w ∈ "DISTINCT" :: clauseWords, Query.Quiet w.toList := by decide
      exact hall _ h
  | table h => exact quiet_of_isSafe h.safe

namespace Lexeme.Among
variable {x : Lexeme} {w : String}

theorem mono (hws : ws ⊆ more) (h : x.Among schema ws) : x.Among schema more := by
  cases h with
  | inner hinner => exact .inner hinner
  | around hw => exact .around (hws hw)
  | table htable => exact .table htable

theorem number (n : Int) : (Lexeme.word (toString n)).Among schema ws :=
  .inner (.operand (.numeral (readable_toString n)))

theorem keywords {words : List String} (h : words ⊆ ws) :
    ∀ x ∈ Query.keywords words, x.Among schema ws := by
  intro x hx
  obtain ⟨w, hw, rfl⟩ := List.mem_map.mp hx
  exact .around (h hw)

/-- A word around clauses stands in no part of a statement that does not have it. -/
theorem uppered_ne {reserved : String} (h : (Lexeme.word w).Among schema ws)
    (hreserved : reserved ∈ clauseWords) (hws : ∀ w ∈ ws, uppered w ≠ reserved) :
    uppered w ≠ reserved := by
  rintro rfl
  generalize hx : Lexeme.word w = x at h
  cases h with
  | inner hinner => exact not_reserved_of_inner (hx ▸ hinner) hreserved
  | around hw => exact hws _ hw (congrArg uppered (Lexeme.word.inj hx).symm)
  | table htable => exact htable.not_reserved (Lexeme.word.inj hx ▸ hreserved)

theorem isFrom_eq_false (h : x.Among schema ws) (hws : ∀ w ∈ ws, uppered w ≠ "FROM") :
    x.isFrom = false := by
  cases x with
  | word w => exact beq_eq_false_iff_ne.mpr (h.uppered_ne (by decide) hws)
  | literal s => rfl
  | name label => rfl
  | opening => rfl
  | closing => rfl
  | comma => rfl

end Lexeme.Among

/-- Properties of lexemes that hold of every part of a statement. -/
theorem forall_mem_separated {P : Lexeme → Prop} (hcomma : P .comma)
    (h : ∀ xs ∈ xss, ∀ x ∈ xs, P x) : ∀ x ∈ separated xss, P x := by
  induction xss with
  | nil => simp [separated]
  | cons xs rest ih =>
      obtain ⟨hxs, hrest⟩ := List.forall_mem_cons.mp h
      cases rest with
      | nil => simpa [separated] using hxs
      | cons ys more =>
          rw [separated, List.intercalate_cons_cons]
          refine List.forall_mem_append.mpr ⟨List.forall_mem_append.mpr ⟨hxs, ?_⟩, ih hrest⟩
          exact List.forall_mem_singleton.mpr hcomma

theorem balanced_separated (h : ∀ xs ∈ xss, Balanced xs) : Balanced (separated xss) := by
  induction xss with
  | nil => exact Balanced.nil
  | cons xs rest ih =>
      obtain ⟨hxs, hrest⟩ := List.forall_mem_cons.mp h
      cases rest with
      | nil => simpa [separated] using hxs
      | cons ys more =>
          have hcomma : Balanced [.comma] := .ofMem (by simp)
          rw [separated, List.intercalate_cons_cons]
          exact (hxs.append hcomma).append (ih hrest)

theorem balanced_keywords (ws : List String) : Balanced (keywords ws) := by
  refine .ofMem fun x hx => ?_
  obtain ⟨w, _, rfl⟩ := List.mem_map.mp hx
  simp

theorem balanced_flatMap {α : Type} {parts : List α} {f : α → List Lexeme}
    (h : ∀ part ∈ parts, Balanced (f part)) : Balanced (parts.flatMap f) := by
  induction parts with
  | nil => exact Balanced.nil
  | cons part rest ih =>
      obtain ⟨hpart, hrest⟩ := List.forall_mem_cons.mp h
      rw [List.flatMap_cons]
      exact hpart.append (ih hrest)

end Parts

namespace SelectStatement
variable {schema : Registry}

theorem among_clause {ws : List String} {terms : List (List Lexeme)}
    (hterms : ∀ xs ∈ terms, InClause xs) : ∀ x ∈ clause ws terms, x.Among schema ws := by
  cases terms with
  | nil => exact List.forall_mem_nil _
  | cons xs rest =>
      refine List.forall_mem_append.mpr ⟨.keywords (List.Subset.refl ws), ?_⟩
      exact forall_mem_separated (.inner .comma) fun ys hys x hx =>
        .inner ((hterms ys hys).inner x hx)

theorem balanced_clause {ws : List String} {terms : List (List Lexeme)}
    (hterms : ∀ xs ∈ terms, InClause xs) : Balanced (clause ws terms) := by
  cases terms with
  | nil => exact Balanced.nil
  | cons xs rest =>
      exact (balanced_keywords ws).append (balanced_separated fun ys hys =>
        (hterms ys hys).balanced)

def beforeWords : List String := ["SELECT", "DISTINCT", "TOP"]

def middleWords : List String :=
  ["INNER", "LEFT", "RIGHT", "JOIN", "ON"] ++ ["WHERE"] ++ ["GROUP", "BY"]

def orderWords : List String := ["ORDER", "BY", "SELECT"]

def lastWords : List String := ["LIMIT", "OFFSET", "ROWS", "FETCH", "NEXT", "ONLY"]

/-- The words of what stands after the main table. -/
def afterWords : List String := middleWords ++ orderWords ++ lastWords

theorem among_topWords (cut : Cut) : ∀ x ∈ keywords cut.topWords, x.Among schema beforeWords := by
  cases cut with
  | top n =>
      exact List.forall_mem_cons.mpr
        ⟨.around (by decide), List.forall_mem_singleton.mpr (.number n)⟩
  | whole | limit n skip | fetch skip n => exact List.forall_mem_nil _

theorem among_lastWords (cut : Cut) : ∀ x ∈ keywords cut.lastWords, x.Among schema lastWords := by
  cases cut with
  | whole | top n => exact List.forall_mem_nil _
  | limit n skip =>
      cases skip with
      | none =>
          simp only [Cut.lastWords, keywords, List.map_cons, List.map_nil, List.forall_mem_cons]
          exact ⟨.around (by decide), .number n, List.forall_mem_nil _⟩
      | some k =>
          simp only [Cut.lastWords, keywords, List.map_cons, List.map_nil, List.forall_mem_cons]
          exact ⟨.around (by decide), .number n, .around (by decide), .number k,
            List.forall_mem_nil _⟩
  | fetch skip n =>
      simp only [Cut.lastWords, keywords, List.map_cons, List.map_nil, List.forall_mem_cons]
      exact ⟨.around (by decide), .number skip, .around (by decide), .around (by decide),
        .around (by decide), .number n, .around (by decide), .around (by decide),
          List.forall_mem_nil _⟩

theorem among_constantOrder : ∀ x ∈ constantOrder, x.Among schema orderWords := by
  refine List.forall_mem_append.mpr ⟨.keywords (by decide), ?_⟩
  simp only [List.forall_mem_cons]
  exact ⟨.inner .opening, .around (by decide), .inner (.keyword (by decide)), .inner .closing,
    List.forall_mem_nil _⟩

theorem Legible.among_before {IsTable : String → Prop} {s : SelectStatement}
    (h : s.Legible IsTable) : ∀ x ∈ s.before, x.Among schema beforeWords := by
  have hdistinct : (if s.distinct then ["DISTINCT"] else []) ⊆ beforeWords := by
    cases s.distinct <;> decide
  have hfirst : ∀ x ∈ keywords s.firstWords, x.Among schema beforeWords := by
    rw [firstWords, keywords, List.map_cons, List.map_append]
    exact List.forall_mem_cons.mpr ⟨.around (by decide),
      List.forall_mem_append.mpr ⟨.keywords hdistinct, among_topWords s.cut⟩⟩
  refine List.forall_mem_append.mpr ⟨hfirst, forall_mem_separated (.inner .comma) ?_⟩
  intro xs hxs
  obtain ⟨item, hitem, rfl⟩ := List.mem_map.mp hxs
  obtain ⟨hexpression, hlabel⟩ := h.items item hitem
  refine List.forall_mem_append.mpr ⟨fun x hx => .inner (hexpression.inner x hx), ?_⟩
  exact List.forall_mem_cons.mpr ⟨.inner (.keyword (by decide)),
    List.forall_mem_singleton.mpr (.inner (.label hlabel))⟩

section Sound
variable {s : SelectStatement} (h : s.Sound schema)

include h

theorem Sound.among_joins : ∀ x ∈ s.joins.flatMap JoinPart.lexemes,
    x.Among schema ["INNER", "LEFT", "RIGHT", "JOIN", "ON"] := by
  intro x hx
  obtain ⟨j, hj, hx⟩ := List.mem_flatMap.mp hx
  obtain ⟨htable, hcondition⟩ := h.joins j hj
  have hkind : JoinPart.kindWords j.kind ⊆ ["INNER", "LEFT", "RIGHT", "JOIN", "ON"] := by
    cases j.kind <;> decide
  have hparts : ∀ x ∈ j.lexemes, x.Among schema ["INNER", "LEFT", "RIGHT", "JOIN", "ON"] := by
    refine List.forall_mem_append.mpr ⟨.keywords hkind, ?_⟩
    refine List.forall_mem_cons.mpr
      ⟨.table htable, List.forall_mem_cons.mpr ⟨.around (by decide), ?_⟩⟩
    exact fun x hx => .inner (hcondition.inner x hx)
  exact hparts x hx

theorem Sound.among_middle : ∀ x ∈ s.middle, x.Among schema middleWords := by
  have hcondition : ∀ x ∈ clause ["WHERE"] s.condition.toList, x.Among schema ["WHERE"] :=
    among_clause fun xs hxs => h.condition xs (Option.mem_toList.mp hxs)
  have hgroup : ∀ x ∈ clause ["GROUP", "BY"] s.groupBy, x.Among schema ["GROUP", "BY"] :=
    among_clause h.groupBy
  simp only [middle, List.forall_mem_append]
  exact ⟨⟨fun x hx => (h.among_joins x hx).mono (by decide),
    fun x hx => (hcondition x hx).mono (by decide)⟩, fun x hx => (hgroup x hx).mono (by decide)⟩

theorem Sound.among_orderClause : ∀ x ∈ s.orderClause, x.Among schema orderWords := by
  unfold orderClause
  split
  · exact among_constantOrder
  · exact fun x hx => (among_clause h.orderBy x hx).mono (by decide)

theorem Sound.among_after : ∀ x ∈ s.after, x.Among schema afterWords := by
  simp only [after, List.forall_mem_append]
  exact ⟨⟨fun x hx => (h.among_middle x hx).mono (by decide),
    fun x hx => (h.among_orderClause x hx).mono (by decide)⟩,
    fun x hx => (among_lastWords s.cut x hx).mono (by decide)⟩

/-- The word `FROM` stands nowhere but before the main table. -/
theorem Sound.isFrom_eq_false : ∀ x ∈ s.before ++ .word s.table :: s.after, x.isFrom = false := by
  have htable : (Lexeme.word s.table).Among schema [] := .table h.table
  have hbefore : ∀ x ∈ s.before, x.Among schema beforeWords := (sound_iff.mp h).among_before
  refine List.forall_mem_append.mpr ⟨?_, List.forall_mem_cons.mpr ⟨?_, ?_⟩⟩
  · exact fun x hx => (hbefore x hx).isFrom_eq_false (by decide)
  · exact htable.isFrom_eq_false (List.forall_mem_nil _)
  · exact fun x hx => (h.among_after x hx).isFrom_eq_false (by decide)

/-- Every lexeme of a sound statement belongs to it, and none outside literals ends it or begins a
comment. -/
theorem Sound.admitted : ∀ x ∈ s.lexemes, x.Admitted schema ∧ x.Quiet := by
  have hall : ∀ x ∈ s.lexemes, x.Admitted schema := by
    refine List.forall_mem_append.mpr
      ⟨fun x hx => ((sound_iff.mp h).among_before x hx).mono (by decide), ?_⟩
    refine List.forall_mem_cons.mpr
      ⟨.around (by decide), List.forall_mem_cons.mpr ⟨.table h.table, ?_⟩⟩
    exact fun x hx => (h.among_after x hx).mono (by decide)
  exact fun x hx => ⟨hall x hx, (hall x hx).quiet⟩

end Sound

section Balanced
variable {IsTable : String → Prop} {s : SelectStatement} (h : s.Legible IsTable)

include h

theorem Legible.balanced_before : Balanced s.before := by
  refine (balanced_keywords _).append (balanced_separated ?_)
  intro xs hxs
  obtain ⟨item, hitem, rfl⟩ := List.mem_map.mp hxs
  have hlabel : Balanced [.word "AS", .name item.2.encode] := .ofMem (by simp)
  exact (h.items item hitem).1.balanced.append hlabel

theorem Legible.balanced_orderClause : Balanced s.orderClause := by
  unfold orderClause
  split
  · have hnull : Balanced [.word "SELECT", .word "NULL"] := .ofMem (by simp)
    exact (balanced_keywords _).append hnull.parenthesized
  · exact balanced_clause h.orderBy

theorem Legible.balanced_middle : Balanced s.middle := by
  have hjoins : Balanced (s.joins.flatMap JoinPart.lexemes) := by
    refine balanced_flatMap fun j hj => ?_
    have hon : Balanced [.word j.table, .word "ON"] := .ofMem (by simp)
    have hcondition := (h.joins j hj).2.balanced
    exact (balanced_keywords _).append (hon.append hcondition)
  have hcondition : Balanced (clause ["WHERE"] s.condition.toList) :=
    balanced_clause fun xs hxs => h.condition xs (Option.mem_toList.mp hxs)
  have hgroup : Balanced (clause ["GROUP", "BY"] s.groupBy) := balanced_clause h.groupBy
  exact (hjoins.append hcondition).append hgroup

theorem Legible.balanced_after : Balanced s.after :=
  (h.balanced_middle.append h.balanced_orderClause).append (balanced_keywords _)

theorem Legible.balanced : Balanced s.lexemes := by
  have hfrom : Balanced [.word "FROM", .word s.table] := .ofMem (by simp)
  exact h.balanced_before.append (hfrom.append h.balanced_after)

end Balanced

end SelectStatement

end SqlGateway.Query
