import SqlGateway.Proofs.Query.Phrases
import SqlGateway.Proofs.Shop

/-!
# Statements of compiled queries

The statement of a compiled query, cut into lexemes, has its clauses in order and one `FROM`.
Whatever a request writes stands in it as a literal, a safe name, a numeral or a label, for no field
can collect anything else.
-/
namespace SqlGateway.Query

open Request (Field Variables)
open Schema (JoinKind Registry)

mutual

/-- No field of a tree has an argument for a calculation. -/
def isUncalculated : Field → Bool
  | ⟨_, _, arguments, _, selection⟩ => arguments.all (·.name != "calc") && areUncalculated selection

def areUncalculated : List Field → Bool
  | [] => true
  | f :: rest => isUncalculated f && areUncalculated rest

end

theorem isUncalculated_iff {f : Field} : isUncalculated f = true ↔
    (∀ a ∈ f.arguments, a.name ≠ "calc") ∧ areUncalculated f.selection = true := by
  cases f
  simp [isUncalculated]

theorem resolved_of_isUncalculated {f : Field} (h : isUncalculated f = true) (vars : Variables) :
    f.resolved vars "calc" = none := by
  have hfind : f.arguments.find? (·.name == "calc") = none := by
    refine List.find?_eq_none.mpr fun a ha => ?_
    simpa using (isUncalculated_iff.mp h).1 a ha
  simp [Field.resolved, Field.argument, Request.findArgument, hfind]

/-- The text of a join of a table. -/
def IsJoinText (c : Compiler) (text : String) : Prop :=
  ∃ (kind : JoinKind) (table condition : String), text = s!"{kind.sql} {table} ON {condition}" ∧
    c.IsTable table ∧ Phrase c.dialect condition

/-- The columns and order terms that a walk has collected can stand in their clauses. -/
structure Walk.Named (c : Compiler) (w : Walk) : Prop where
  columns : ∀ column ∈ w.columns, Name.isSafe column.label.name = true ∧
    Phrase c.dialect column.expression ∧ Headed column.expression ∧
    Compiler.Led c.dialect column.expression
  orderBy : ∀ text ∈ w.orderBy, Phrase c.dialect text ∧ Fronted text

/-- The joins and conditions that a walk has collected can stand in their clauses. -/
structure Walk.Phrased (c : Compiler) (w : Walk) : Prop where
  joins : ∀ text ∈ w.joins, IsJoinText c text
  filters : ∀ text ∈ w.filters, Phrase c.dialect text

/-- The joins and the condition of a query can be cut into operands and keywords. -/
structure CompiledQuery.Legible (c : Compiler) (q : CompiledQuery) : Prop where
  joins : ∀ text ∈ q.joins, IsJoinText c text
  filter : ∀ text ∈ q.filter, Phrase c.dialect text

namespace Compiler

variable {c : Compiler} {vars : Variables} {f : Field} {table : String} {w : Walk}

theorem IsTable.isTableWord (h : c.IsTable table) (hschema : c.schema.SafeNames) :
    IsTableWord c.schema table := by
  obtain ⟨t, ht⟩ := h.found
  have hget : c.schema.active.get? table = some t := by
    unfold Registry.table at ht
    cases hget : c.schema.active.get? table with
    | none =>
        rw [hget] at ht
        cases ht
    | some t' =>
        rw [hget] at ht
        rw [Except.ok.inj ht]
  have hkey : table ∈ c.schema.active.keys := List.mem_map_of_mem (Dictionary.mem_of_get? hget)
  refine ⟨?_, h.safe, (hschema.tables table hkey).2⟩
  simp [Registry.hasTable, Dictionary.contains, hget]

theorem phrase_of_ruleClause {context : FilterContext} {clause : Option String}
    (hd : context.dialect ≠ .mysql) (h : RuleClause c.rules c.schema vars context clause) :
    ∀ text ∈ clause, Phrase context.dialect text := by
  obtain ⟨decision, _, h⟩ := h
  cases decision with
  | allow =>
      obtain rfl : clause = none := h
      simp
  | deny reason => cases h
  | filter tree => exact phrase_of_compile hd h

theorem TableClauses.phrases {filters orderBy : List String} (hd : c.dialect ≠ .mysql)
    (h : c.TableClauses vars f table filters orderBy) :
    ∀ text ∈ filters, Phrase c.dialect text := by
  obtain ⟨own, ruled, hown, hruled, rfl⟩ := h.conditions
  refine List.forall_mem_append.mpr ⟨fun text htext => ?_, fun text htext => ?_⟩
  · exact phrase_of_filterClause hd hown text (Option.mem_toList.mp htext)
  · exact phrase_of_ruleClause hd hruled text (Option.mem_toList.mp htext)

theorem TableClauses.fronted {filters orderBy : List String}
    (h : c.TableClauses vars f table filters orderBy) :
    ∀ text ∈ orderBy, Phrase c.dialect text ∧ Fronted text := by
  have hterms := h.terms
  unfold OrderTerms at hterms
  split at hterms
  · rw [hterms]
    exact List.forall_mem_nil _
  · exact OrderTerm.phrase_of_compile hterms

theorem named_withLeaf {level slot : Nat} {column : SelectColumn}
    (htable : Name.isSafe table = true) (hname : Name.isSafe f.outputName = true)
    (hf : isUncalculated f = true)
    (h : c.leafColumn vars f table level slot = .ok column) (hw : w.Named c) :
    (w.withLeaf level slot f column).Named c := by
  obtain ⟨base, _, hlabel, _⟩ := leafColumn_ok h
  have hphrase := phrase_leafColumn (d := c.dialect) htable (resolved_of_isUncalculated hf vars) h
  have hsafe : Name.isSafe column.label.name = true := by rwa [hlabel]
  exact ⟨List.forall_mem_append.mpr ⟨hw.columns, List.forall_mem_singleton.mpr ⟨hsafe, hphrase⟩⟩,
    hw.orderBy⟩

theorem named_withJoin {child : String} {joined : Walk}
    (h : c.addJoin vars f table child w = .ok joined) (hw : w.Named c) : joined.Named c := by
  obtain ⟨_, rfl⟩ | ⟨kind, condition, _, _, rfl⟩ := addJoin_ok h
  · exact hw
  · exact ⟨hw.columns, hw.orderBy⟩

theorem named_withClauses {filters orderBy : List String}
    (h : c.TableClauses vars f table filters orderBy) (hw : w.Named c) :
    (w.withClauses filters orderBy).Named c :=
  ⟨hw.columns, List.forall_mem_append.mpr ⟨hw.orderBy, h.fronted⟩⟩

/-- Every field of a selection keeps the columns and order terms of a walk as they must be. -/
theorem Walks.named {level slot : Nat} {fields : List Field} {w' : Walk}
    (h : Walks c vars table level slot w fields w') (htable : Name.isSafe table = true)
    (hfields : areUncalculated fields = true) (hw : w.Named c) : w'.Named c := by
  induction h with
  | nil => exact hw
  | leaf _ hname hcolumn _ ih =>
      obtain ⟨hf, hrest⟩ := Bool.and_eq_true_iff.mp hfields
      exact ih htable hrest (named_withLeaf htable hname hf hcolumn hw)
  | nested _ _ hchild hjoin hclauses _ _ ihbelow ih =>
      obtain ⟨hf, hrest⟩ := Bool.and_eq_true_iff.mp hfields
      have hjoined := named_withJoin hjoin ⟨hw.columns, hw.orderBy⟩
      have hbelow :=
        ihbelow hchild.safe (isUncalculated_iff.mp hf).2 (named_withClauses hclauses hjoined)
      exact ih htable hrest hbelow

theorem phrased_withJoin {child : String} {joined : Walk} (hd : c.dialect ≠ .mysql)
    (hjoins : c.schema.SafeJoins) (hchild : c.IsTable child)
    (h : c.addJoin vars f table child w = .ok joined) (hw : w.Phrased c) : joined.Phrased c := by
  obtain ⟨_, rfl⟩ | ⟨kind, condition, _, hspec, rfl⟩ := addJoin_ok h
  · exact hw
  · have hjoin : IsJoinText c s!"{kind.sql} {child} ON {condition}" :=
      ⟨kind, child, condition, rfl, hchild, phrase_linkCondition hd hjoins (joinSpec_ok hspec)⟩
    exact ⟨List.forall_mem_append.mpr ⟨hw.joins, List.forall_mem_singleton.mpr hjoin⟩, hw.filters⟩

theorem phrased_withClauses {filters orderBy : List String} (hd : c.dialect ≠ .mysql)
    (h : c.TableClauses vars f table filters orderBy) (hw : w.Phrased c) :
    (w.withClauses filters orderBy).Phrased c :=
  ⟨hw.joins, List.forall_mem_append.mpr ⟨hw.filters, h.phrases hd⟩⟩

/-- Every field of a selection keeps the joins and conditions of a walk as they must be. -/
theorem Walks.phrased {level slot : Nat} {fields : List Field} {w' : Walk} (hd : c.dialect ≠ .mysql)
    (hjoins : c.schema.SafeJoins) (h : Walks c vars table level slot w fields w')
    (hw : w.Phrased c) : w'.Phrased c := by
  induction h with
  | nil => exact hw
  | leaf _ _ _ _ ih => exact ih ⟨hw.joins, hw.filters⟩
  | nested _ _ hchild hjoin hclauses _ _ ihbelow ih =>
      have hjoined := phrased_withJoin hd hjoins hchild hjoin ⟨hw.joins, hw.filters⟩
      exact ih (ihbelow (phrased_withClauses hd hclauses hjoined))

section Compiled
variable {limited : Bool} {q : CompiledQuery} {filters orderBy : List String}

theorem Compiled.named (hf : isUncalculated f = true)
    (h : c.Compiled vars limited f q filters orderBy w) : w.Named c := by
  have hstart : (startWalk f q.mainTable).Named c := ⟨List.forall_mem_nil _, List.forall_mem_nil _⟩
  exact h.walks.named h.table.safe (isUncalculated_iff.mp hf).2 (named_withClauses h.clauses hstart)

/-- Where joins have safe names, a query can be cut in every dialect without escapes in its
literals. -/
theorem Compiled.legible (hd : c.dialect ≠ .mysql) (hjoins : c.schema.SafeJoins)
    (h : c.Compiled vars limited f q filters orderBy w) : q.Legible c := by
  have hstart : (startWalk f q.mainTable).Phrased c :=
    ⟨List.forall_mem_nil _, List.forall_mem_nil _⟩
  have hw := h.walks.phrased hd hjoins (phrased_withClauses hd h.clauses hstart)
  refine ⟨h.joins ▸ hw.joins, fun text htext => ?_⟩
  rw [h.filter] at htext
  split_ifs at htext
  · cases htext
  · exact Option.some.inj htext ▸ Phrase.conjunction hw.filters

end Compiled

end Compiler

section Statements
variable {c : Compiler} {w : Walk} {main : String} {distinct : Bool} {q : CompiledQuery}

theorem exists_parts {α β : Type} {R : α → β → Prop} {Q : β → Prop} {as : List α}
    (h : ∀ a ∈ as, ∃ b, R a b ∧ Q b) : ∃ bs, List.Forall₂ R as bs ∧ ∀ b ∈ bs, Q b := by
  obtain ⟨bs, hbs⟩ := exists_forall₂ h
  refine ⟨bs, hbs.imp fun _ _ hboth => hboth.1, fun b hb => ?_⟩
  obtain ⟨n, hn, rfl⟩ := List.getElem_of_mem hb
  exact (hbs.get (hbs.length_eq ▸ hn) hn).2

/-- The groups of a query are expressions of its columns. -/
theorem exists_of_mem_groupTerms {columns : List SelectColumn} {text : String}
    (h : text ∈ Compiler.groupTerms columns) : ∃ column ∈ columns, column.expression = text := by
  have mem_of_foldl : ∀ (terms seen : List String),
      text ∈ terms.foldl (fun seen e => if seen.contains e then seen else seen ++ [e]) seen →
        text ∈ seen ∨ text ∈ terms := by
    intro terms
    induction terms with
    | nil => exact fun seen hmem => .inl hmem
    | cons term rest ih =>
        intro seen hmem
        rcases ih _ hmem with hseen | hrest
        · dsimp only at hseen
          split_ifs at hseen
          · exact .inl hseen
          · rcases List.mem_append.mp hseen with hseen | hterm
            · exact .inl hseen
            · exact .inr (List.mem_singleton.mp hterm ▸ List.mem_cons_self)
        · exact .inr (List.mem_cons_of_mem term hrest)
  unfold Compiler.groupTerms at h
  split_ifs at h
  · rcases mem_of_foldl _ _ h with hnil | hmem
    · cases hnil
    · obtain ⟨column, hcolumn, rfl⟩ := List.mem_map.mp hmem
      exact ⟨column, List.mem_of_mem_filter hcolumn, rfl⟩
  · cases h

/-- A query that can be cut has the clauses of a statement. -/
theorem exists_composes {vars : Variables} {limited : Bool} {f : Field}
    {filters orderBy : List String} (h : c.Compiled vars limited f q filters orderBy w)
    (hw : w.Named c) (hq : q.Legible c) :
    ∃ s : SelectStatement, s.cut = .whole ∧ Composes c.dialect q s ∧ s.Legible c.IsTable := by
  have hitems : ∀ column ∈ q.columns, ∃ item : List Lexeme × Alias,
      (Lexed c.dialect column.expression item.1 ∧ item.2 = column.label) ∧
        InClause item.1 ∧ Name.isSafe item.2.name = true := by
    intro column hcolumn
    obtain ⟨hsafe, hphrase, _⟩ := hw.columns column (h.columns ▸ hcolumn)
    obtain ⟨xs, hlexed, hclause⟩ := hphrase.exists_lexed
    exact ⟨(xs, column.label), ⟨hlexed, rfl⟩, hclause, hsafe⟩
  have hjoins :
    ∀ text ∈ q.joins, ∃ j : JoinPart, (∃ condition, Lexed c.dialect condition j.condition ∧
      text = s!"{j.kind.sql} {j.table} ON {condition}") ∧ c.IsTable j.table ∧
        InClause j.condition := by
    intro text htext
    obtain ⟨kind, table, condition, rfl, htable, hphrase⟩ := hq.joins text htext
    obtain ⟨xs, hlexed, hclause⟩ := hphrase.exists_lexed
    exact ⟨⟨kind, table, xs⟩, ⟨condition, hlexed, rfl⟩, htable, hclause⟩
  have hgroupBy : ∀ text ∈ q.groupBy, ∃ xs, Lexed c.dialect text xs ∧ InClause xs := by
    intro text htext
    rw [h.groupBy] at htext
    obtain ⟨column, hcolumn, rfl⟩ := exists_of_mem_groupTerms htext
    exact (hw.columns column hcolumn).2.1.exists_lexed
  have horderBy : ∀ text ∈ q.orderBy, ∃ xs, Lexed c.dialect text xs ∧ InClause xs := by
    intro text htext
    exact (hw.orderBy text (h.orderBy ▸ htext)).1.exists_lexed
  have hcondition : ∃ condition, Option.Rel (Lexed c.dialect) q.filter condition ∧
      ∀ xs ∈ condition, InClause xs := by
    have hfilter := hq.filter
    cases hq : q.filter with
    | none => exact ⟨none, .none, by simp⟩
    | some text =>
        obtain ⟨xs, hlexed, hclause⟩ := (hfilter text hq).exists_lexed
        exact ⟨some xs, .some hlexed, by simpa using hclause⟩
  obtain ⟨items, hitems, hitemsOk⟩ := exists_parts hitems
  obtain ⟨joins, hjoins, hjoinsOk⟩ := exists_parts hjoins
  obtain ⟨groupBy, hgroupBy, hgroupByOk⟩ := exists_parts hgroupBy
  obtain ⟨orderBy, horderBy, horderByOk⟩ := exists_parts horderBy
  obtain ⟨condition, hcondition, hconditionOk⟩ := hcondition
  have hne : items ≠ [] := by
    rintro rfl
    exact h.columns_ne_nil (h.columns ▸ List.forall₂_nil_right_iff.mp hitems)
  exact ⟨⟨q.distinct, items, q.mainTable, joins, condition, groupBy, orderBy, .whole⟩, rfl,
    ⟨rfl, rfl, hitems, hjoins, hcondition, hgroupBy, horderBy⟩,
    ⟨hne, hitemsOk, h.table, hjoinsOk, hconditionOk, hgroupByOk, horderByOk⟩⟩

theorem statement_eq {vars : Variables} {limited : Bool} {f : Field} {filters orderBy : List String}
    (h : c.Compiled vars limited f q filters orderBy w) :
    c.statement q.distinct q.mainTable w = statementText c.dialect q .whole := by
  have hitem : c.selectItem =
      fun column => column.expression ++ " AS " ++ c.dialect.quoteAlias column.label.encode := rfl
  delta Compiler.statement
  rw [Compiler.clause_where, ← h.groupBy, ← h.columns, ← h.joins, ← h.filter, ← h.orderBy,
    statementText_whole, hitem]
  refine String.toList_injective ?_
  cases hdistinct : q.distinct <;> simp [frontText, selectedText, spaced, Cut.topWords, hdistinct]

/-- The text of a compiled query is cut into the lexemes of a statement with its clauses: one
`FROM`, before the main table, every parenthesis closed, and nothing in it but operands, labels,
tables of the schema and keywords, none of which ends the statement or begins a comment. -/
theorem sql_is_sound_statement {vars : Variables} {limited : Bool} {f : Field}
    (hd : c.dialect ≠ .mysql) (hschema : c.schema.SafeNames) (hf : isUncalculated f = true)
    (h : c.compileWith limited vars f = .ok q) :
    ∃ s : SelectStatement, lexemes c.dialect q.sql.toList = some s.lexemes ∧
      Composes c.dialect q s ∧ s.Sound c.schema ∧ closes 0 s.lexemes = true ∧
      (∀ x ∈ s.before ++ .word s.table :: s.after, x.isFrom = false) ∧
      ∀ x ∈ s.lexemes, x.Admitted c.schema ∧ x.Quiet := by
  obtain ⟨filters, orderBy, w, hq⟩ := Compiler.exists_compiled h
  have hw := hq.named hf
  obtain ⟨s, _, hs, hlegible⟩ := exists_composes hq hw (hq.legible hd hschema.joins)
  have hsafe := hlegible.mono fun _ htable => htable.safe
  have hcut : ∃ cut, q.sql = statementText c.dialect q cut := by
    rw [hq.sql, statement_eq hq]
    split_ifs
    · exact exists_paged_eq hd hs hsafe (hq.columns ▸ hq.columns_ne_nil)
        (fun column hcolumn => (hw.columns column (hq.columns ▸ hcolumn)).2.2.1)
        (fun text htext => (hw.orderBy text (hq.orderBy ▸ htext)).2) _ _ _
    · exact ⟨.whole, rfl⟩
  obtain ⟨cut, hcut⟩ := hcut
  have hs := hs.withCut cut
  have hlexed := hs.lexed (hsafe.withCut cut)
  rw [Lexed, ← hcut] at hlexed
  have hsound : SelectStatement.Sound c.schema { s with cut } :=
    SelectStatement.sound_iff.mpr
      ((hlegible.mono fun _ htable => htable.isTableWord hschema).withCut cut)
  exact ⟨_, hlexed, hs, hsound, (hlegible.withCut cut).balanced.closes, hsound.isFrom_eq_false,
    hsound.admitted⟩

end Statements

/-- Users and their orders, under texts that would end a literal, a statement or an alias. -/
def hostileUsers : Field := ⟨none, "users",
  [⟨"where", .object [("name", .text "'; x /* ] -- "), ("CONST_[it's", .text "a\"")]⟩,
    ⟨"sort", .text "-name"⟩, ⟨"skip", .int 10⟩], [],
  [Shop.leaf "name", ⟨some "n", "id", [⟨"aggregate", .text "COUNT"⟩], [], []⟩,
    ⟨none, "orders", [⟨"join", .object [("on", .object [("id", .text "user_id")])]⟩], [],
      [Shop.leaf "total"]⟩]⟩

theorem sql_is_sound_statement_hostileUsers :
    let c : Compiler := { Shop.compiler with dialect := .mssql }
    ∃ q, c.compile [] hostileUsers = .ok q ∧ c.schema.SafeNames ∧
      ∃ s : SelectStatement, lexemes .mssql q.sql.toList = some s.lexemes ∧ s.Sound c.schema ∧
        s.condition = some [.word "users.name", .word "=", .literal "'; x /* ] -- ", .word "AND",
          .literal "[it's", .word "=", .literal "a\""] := by
  intro c
  obtain ⟨q, hq⟩ : ∃ q, c.compile [] hostileUsers = .ok q := exists_eq_ok (by decide +kernel)
  have hschema : c.schema.SafeNames := ⟨by decide +kernel, by decide +kernel⟩
  obtain ⟨s, hs, hcomposes, hsound, _⟩ := sql_is_sound_statement (by decide) hschema (by decide) hq
  refine ⟨q, hq, hschema, s, hs, hsound, ?_⟩
  have hfilter : q.filter = some "users.name = '''; x /* ] -- ' AND '[it''s' = 'a\"'" :=
    part_eq (g := CompiledQuery.filter) hq (by decide +kernel)
  have hcondition := hcomposes.condition
  rw [hfilter] at hcondition
  generalize s.condition = condition at hcondition ⊢
  cases hcondition with
  | @some _ xs hxs =>
      have hlexed : Lexed .mssql "users.name = '''; x /* ] -- ' AND '[it''s' = 'a\"'" xs := hxs
      rw [← hlexed]
      decide +kernel

end SqlGateway.Query
