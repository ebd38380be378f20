import SqlGateway.Proofs.Query.Vocabulary

/-!
# Clauses of a table

The rows of a table that a statement may touch: the filter of the caller and the filter of the
security role each give at most one clause, and the clauses of a statement stand as they are between
its `AND`s. Where a dialect reads the literals of a condition back, it reads the condition as the
formulas of its clauses.
-/
namespace SqlGateway.Query

open Request (Variables)
open Schema (Registry)
open Formula

/-- The token that a lexeme is in a condition. A name in quotes is none, nor is a word that ends the
statement or begins a comment. -/
def Lexeme.token? : Lexeme → Option Token
  | .word w => if Quiet w.toList ∧ '#' ∉ w.toList then some (.word w) else none
  | .literal s => some (.literal s)
  | .name _ => none
  | .opening => some .opening
  | .closing => some .closing
  | .comma => some .comma

/-- The items of a text by the lexical rules of a dialect. -/
def Formula.itemsIn? (d : Dialect) (text : String) : Option (List Item) :=
  (lexemes d text.toList).bind fun xs => (xs.mapM Lexeme.token?).bind nested?

/-- The formula of a text that has no `OR` outside parentheses, by the lexical rules of a
dialect. -/
def clauseIn? (d : Dialect) (text : String) : Option Formula :=
  (itemsIn? d text).bind fun items =>
    if items.any (·.isKeyword .or) then none else conjunction? items

section Reading
variable {d : Dialect} {text : String} {literals : List String}

theorem token?_of_inner {t : Token} (h : t.lexeme.Inner) : t.lexeme.token? = some t := by
  cases t with
  | word w => exact if_pos ⟨quiet_of_inner_word h, hash_not_mem_of_inner_word h⟩
  | literal s => rfl
  | opening => rfl
  | closing => rfl
  | comma => rfl

/-- The dialect reads what is worded for it by the rules of every other. -/
theorem Worded.itemsIn? (h : Worded d text literals) : itemsIn? d text = items? text.toList := by
  obtain ⟨ts, htokens, hlexemes, hinner, -⟩ := h
  have hback : (ts.map Token.lexeme).mapM Lexeme.token? = some ts := by
    clear htokens hlexemes
    induction ts with
    | nil => rfl
    | cons t rest ih =>
        obtain ⟨ht, hrest⟩ := List.forall_mem_cons.mp hinner
        rw [List.map_cons, List.mapM_cons, token?_of_inner ht, ih hrest]
        rfl
  rw [Formula.itemsIn?, hlexemes, Option.bind_some, hback, items?, htokens]

theorem Worded.clauseIn? (h : Worded d text literals) : clauseIn? d text = clause? text := by
  rw [Query.clauseIn?, clause?, h.itemsIn?]

end Reading

/-- A dialect reads the literals of a condition back. -/
def ReadBack (d : Dialect) (text : String) : Prop :=
  ∀ f, clause? text = some f → ∀ s ∈ f.literals, Survives d s

/-- No dialect but MySQL fails to. -/
theorem readBack_of_ne_mysql {d : Dialect} (h : d ≠ .mysql) (text : String) : ReadBack d text :=
  fun _ _ _ _ hmysql => absurd hmysql h

/-- A text says a formula as a clause: by the rules that standard literals have, and by those of a
dialect as soon as this reads the literals back. -/
structure Says (d : Dialect) (text : String) (f : Formula) : Prop where
  clause : clause? text = some f
  clauseIn : ReadBack d text → clauseIn? d text = some f

/-- A text that says a formula, and is worded with its literals where these are read back. -/
structure Phrased (d : Dialect) (text : String) (f : Formula) : Prop where
  clause : clause? text = some f
  worded : (∀ s ∈ f.literals, Survives d s) → Worded d text f.literals

section Phrased
variable {d : Dialect} {text : String} {f : Formula} {texts : List String} {fs : List Formula}

theorem Phrased.says (h : Phrased d text f) : Says d text f :=
  ⟨h.clause, fun hs => (h.worded (hs f h.clause)).clauseIn?.trans h.clause⟩

theorem Renders.phrased {c : Condition} (h : Renders c f) : Phrased d c.text f :=
  ⟨h.clause?, h.worded⟩

/-- Clauses with `AND` between them. -/
theorem phrased_intercalate (h : List.Forall₂ (Phrased d) texts fs) (hne : texts ≠ []) :
    Phrased d (" AND ".intercalate texts) (conj fs) := by
  refine ⟨clause?_intercalate (h.imp fun _ _ htext => htext.clause) hne, fun hs => ?_⟩
  rw [literals_join] at hs ⊢
  have hworded : List.Forall₂ (Worded d) texts (fs.map literals) := by
    clear hne
    induction h with
    | nil => exact .nil
    | cons htext _ ih =>
        rw [List.flatMap_cons] at hs
        obtain ⟨hown, hothers⟩ := List.forall_mem_append.mp hs
        exact .cons (htext.worded hown) (ih hothers)
  have hand : " " ++ "AND" ++ " " = " AND " := by decide
  rw [List.flatMap_def]
  refine Worded.intercalate (fun ha hb => ?_) hworded
  rw [← hand]
  exact Worded.between (by decide) ha hb

end Phrased

/-- A clause stands in a condition between `AND`s, and a dialect reads it as one of the clauses that
the condition joins. -/
def IsConjunct (d : Dialect) (condition clause : String) : Prop :=
  ∃ texts fs, clause ∈ texts ∧ condition = " AND ".intercalate texts ∧
    List.Forall₂ (fun text f => clauseIn? d text = some f) texts fs ∧ clauseIn? d condition =
      some (conj fs)

/-- A clause stands in a condition between `AND`s, and a dialect that reads the literals of the
condition back reads it there. -/
def Keeps (d : Dialect) (condition clause : String) : Prop :=
  ∃ texts fs, clause ∈ texts ∧ condition = " AND ".intercalate texts ∧ Clauses texts fs ∧
    (ReadBack d condition → List.Forall₂ (fun text f => clauseIn? d text = some f) texts fs ∧
      clauseIn? d condition = some (conj fs))

section Conjuncts
variable {d : Dialect} {texts : List String} {condition clause : String}

theorem Keeps.isConjunct (h : Keeps d condition clause) (hread : ReadBack d condition) :
    IsConjunct d condition clause := by
  obtain ⟨texts, fs, hmem, htext, _, hdialect⟩ := h
  obtain ⟨hparts, hwhole⟩ := hdialect hread
  exact ⟨texts, fs, hmem, htext, hparts, hwhole⟩

theorem exists_forall₂ {α β : Type} {R : α → β → Prop} {as : List α} (h : ∀ a ∈ as, ∃ b, R a b) :
    ∃ bs, List.Forall₂ R as bs := by
  induction as with
  | nil => exact ⟨[], .nil⟩
  | cons a rest ih =>
      obtain ⟨⟨b, hb⟩, hrest⟩ := List.forall_mem_cons.mp h
      obtain ⟨bs, hbs⟩ := ih hrest
      exact ⟨b :: bs, .cons hb hbs⟩

theorem keeps_intercalate (h : ∀ text ∈ texts, ∃ f, Phrased d text f) (hclause : clause ∈ texts) :
    Keeps d (" AND ".intercalate texts) clause := by
  obtain ⟨fs, hfs⟩ := exists_forall₂ h
  have hwhole := phrased_intercalate hfs (List.ne_nil_of_mem hclause)
  refine ⟨texts, fs, hclause, rfl, hfs.imp fun _ _ htext => htext.clause, fun hread =>
    ⟨?_, hwhole.says.clauseIn hread⟩⟩
  -- The literals of the parts are among those of the whole.
  have hs := hread _ hwhole.clause
  rw [literals_join] at hs
  clear hwhole hread hclause h
  induction hfs with
  | nil => exact .nil
  | cons htext _ ih =>
      rw [List.flatMap_cons] at hs
      obtain ⟨hown, hothers⟩ := List.forall_mem_append.mp hs
      exact .cons ((htext.worded hown).clauseIn?.trans htext.clause) (ih hothers)

/-- The clauses of a condition that there is for them, if there are any, are its conjuncts. -/
theorem exists_keeps {condition : Option String} (h : ∀ text ∈ texts, ∃ f, Phrased d text f)
    (hcondition : condition = if texts.isEmpty then none else some (" AND ".intercalate texts)) :
    ∀ text ∈ texts, ∃ whole ∈ condition, Keeps d whole text := by
  intro text htext
  have hne : texts.isEmpty = false := by
    simpa using List.ne_nil_of_mem htext
  exact ⟨_, by simp [hcondition, hne], keeps_intercalate h htext⟩

theorem mem_of_clauses {fs : List Formula} (h : Clauses texts fs) {g : Formula}
    (hclause : clause ∈ texts) (hg : clause? clause = some g) : g ∈ fs := by
  induction h with
  | nil => cases hclause
  | cons hf hrest ih =>
      rcases List.mem_cons.mp hclause with rfl | hclause
      · exact List.mem_cons.mpr (.inl (Option.some.inj (hg.symm.trans hf)))
      · exact List.mem_cons_of_mem _ (ih hclause)

/-- What a clause says, the condition says, at the top. -/
theorem Keeps.conjuncts_subset (h : Keeps d condition clause) {g : Formula}
    (hg : clause? clause = some g) : ∃ f, Says d condition f ∧ g.conjuncts ⊆ f.conjuncts := by
  obtain ⟨texts, fs, hmem, rfl, hfs, hdialect⟩ := h
  refine ⟨conj fs, ⟨clause?_intercalate hfs (List.ne_nil_of_mem hmem), fun hread =>
    (hdialect hread).2⟩, ?_⟩
  intro part hpart
  rw [conjuncts, parts_join]
  exact List.mem_flatMap.mpr ⟨g, mem_of_clauses hfs hmem hg, hpart⟩

end Conjuncts

/-- The clause of a filter that may be lacking; none, if the filter says nothing. -/
def FilterClause (context : FilterContext) (filter : Option Json) (clause : Option String) : Prop :=
  match filter with
  | none => clause = none
  | some tree => Condition.compile context tree = .ok clause

/-- The security role lets a table be touched, under a clause if its filter says anything. -/
def RuleClause (rules : Rules) (schema : Registry) (vars : Variables) (context : FilterContext)
    (clause : Option String) : Prop :=
  ∃ d, rules.security context.table (schema.securityRules.get? context.table) vars = .ok d ∧
    match d with
    | .allow => clause = none
    | .deny _ => False
    | .filter tree => Condition.compile context tree = .ok clause

/-- The security role lets a table be touched, and its clause is a conjunct of a condition. -/
def Heeded (rules : Rules) (schema : Registry) (vars : Variables) (context : FilterContext)
    (condition : Option String) : Prop :=
  ∃ clause, RuleClause rules schema vars context clause ∧
    ∀ text ∈ clause, ∃ whole ∈ condition, Keeps context.dialect whole text

theorem RuleClause.unique {rules : Rules} {schema : Registry} {vars : Variables}
    {context : FilterContext} {clause other : Option String}
    (h : RuleClause rules schema vars context clause)
    (k : RuleClause rules schema vars context other) : clause = other := by
  obtain ⟨d, hd, h⟩ := h
  obtain ⟨d', hd', k⟩ := k
  obtain rfl := Except.ok.inj (hd.symm.trans hd')
  cases d with
  | allow => exact h.trans k.symm
  | deny reason => cases h
  | filter tree => exact Except.ok.inj (h.symm.trans k)

theorem asRole_eq_ok {α : Type} {role : String} {x : Except Error α} {a : α}
    (h : Rules.asRole role x = .ok a) : x = .ok a := by
  cases x with
  | error e => cases h
  | ok b => exact h

section Clauses
variable {rules : Rules} {schema : Registry} {vars : Variables} {context : FilterContext}
  {clause : Option String}

/-- The text of a filter is phrased by the formula of its tree. -/
theorem phrased_compile {tree : Json} (h : Condition.compile context tree = .ok clause) :
    Option.Rel (Phrased context.dialect) clause (reading context [] tree) := by
  obtain ⟨c?, hagrees, rfl⟩ := exists_renders_of_compile h
  generalize reading context [] tree = f at hagrees ⊢
  cases hagrees with
  | none => exact .none
  | some hrenders => exact .some hrenders.phrased

theorem exists_phrased_of_compile {tree : Json} (h : Condition.compile context tree = .ok clause) :
    ∀ text ∈ clause, ∃ f, Phrased context.dialect text f := by
  have hagrees := phrased_compile h
  generalize reading context [] tree = f at hagrees
  cases hagrees with
  | none => simp
  | @some text f hphrased =>
      rintro _ ⟨⟩
      exact ⟨f, hphrased⟩

theorem FilterClause.exists_phrased {filter : Option Json}
    (h : FilterClause context filter clause) :
    ∀ text ∈ clause, ∃ f, Phrased context.dialect text f := by
  cases filter with
  | none =>
      obtain rfl : clause = none := h
      simp
  | some tree => exact exists_phrased_of_compile h

theorem RuleClause.exists_phrased (h : RuleClause rules schema vars context clause) :
    ∀ text ∈ clause, ∃ f, Phrased context.dialect text f := by
  obtain ⟨d, _, h⟩ := h
  cases d with
  | allow =>
      obtain rfl : clause = none := h
      simp
  | deny reason => cases h
  | filter tree => exact exists_phrased_of_compile h

theorem exists_phrased_of_mem_append {filter : Option Json} {own : Option String}
    (hown : FilterClause context filter own)
    (hruled : RuleClause rules schema vars context clause) :
    ∀ text ∈ own.toList ++ clause.toList, ∃ f, Phrased context.dialect text f := by
  intro text htext
  rcases List.mem_append.mp htext with htext | htext
  · exact hown.exists_phrased text (Option.mem_toList.mp htext)
  · exact hruled.exists_phrased text (Option.mem_toList.mp htext)

end Clauses

end SqlGateway.Query
