import SqlGateway.Proofs.Query.Clauses

/-!
# What a walk does

A successful walk over a selection, taken apart once and for all: the relation `Walks` has one rule
for each kind of field, and every successful walk is derived by it. Facts about compiled queries are
then inductions over this relation and never open the compiler.
-/
namespace SqlGateway.Query

open Request (Field Variables)
open Schema (JoinKind)

namespace Walk

/-- A walk with one more column, which a leaf asked for in a slot. -/
def withLeaf (w : Walk) (level slot : Nat) (f : Field) (column : SelectColumn) : Walk :=
  { w with
    columns := w.columns ++ [column]
    slots := w.slots.addEntry level slot (.field f.outputName) }

/-- The number of the next slot on the level below. -/
def nextSlot (w : Walk) (level : Nat) : Nat := (w.slots.level (level + 1)).length

/-- A walk with a new slot for a nested field on the level below. -/
def withSlot (w : Walk) (level slot : Nat) (f : Field) : Walk :=
  { w with
    slots := (w.slots.add (level + 1)
      ⟨Name.internal f.name, f.outputName, true, some slot, []⟩).addEntry level slot
        (.child (w.nextSlot level)) }

/-- A walk with one more joined table. -/
def withJoin (w : Walk) (kind : JoinKind) (child condition : String) : Walk :=
  { w with
    joins := w.joins ++ [s!"{kind.sql} {child} ON {condition}"]
    joined := w.joined ++ [child] }

/-- A walk with further conditions and order terms. -/
def withClauses (w : Walk) (filters orderBy : List String) : Walk :=
  { w with filters := w.filters ++ filters, orderBy := w.orderBy ++ orderBy }

end Walk

namespace Compiler

variable {c : Compiler} {vars : Variables}

theorem addFilter_ok {table : String} {w w' : Walk} {tree : Json}
    (h : c.addFilter table w tree = .ok w') :
    ∃ clause, Condition.compile (c.filterContext table) tree = .ok clause ∧
      w' = w.withClauses clause.toList [] := by
  obtain ⟨clause, hclause, h⟩ := bind_eq_ok.mp h
  obtain rfl := pure_eq_ok.mp h
  exact ⟨clause, hclause, by simp [Walk.withClauses]⟩

/-- The terms that a field orders a table by. -/
def OrderTerms (vars : Variables) (f : Field) (table : String) (orderBy : List String) : Prop :=
  match f.resolved vars "sort" with
  | none => orderBy = []
  | some sort => OrderTerm.compile table sort = .ok orderBy

/-- What a field asks for of a table that it reads: the clause of the caller and that of the
security role as conditions, and order terms. -/
structure TableClauses (c : Compiler) (vars : Variables) (f : Field) (table : String)
    (filters orderBy : List String) : Prop where
  conditions : ∃ own ruled, FilterClause (c.filterContext table) (f.resolved vars "where") own ∧
    RuleClause c.rules c.schema vars (c.filterContext table) ruled ∧
    filters = own.toList ++ ruled.toList
  terms : OrderTerms vars f table orderBy

section TableClauses
variable {f : Field} {table : String} {filters orderBy : List String}

theorem TableClauses.exists_phrased (h : c.TableClauses vars f table filters orderBy) :
    ∀ text ∈ filters, ∃ g, Phrased c.dialect text g := by
  obtain ⟨own, ruled, hown, hruled, rfl⟩ := h.conditions
  exact exists_phrased_of_mem_append hown hruled

/-- The clause of the security role is among the filters. -/
theorem TableClauses.ruled (h : c.TableClauses vars f table filters orderBy) :
    ∃ clause, RuleClause c.rules c.schema vars (c.filterContext table) clause ∧
      ∀ text ∈ clause, text ∈ filters := by
  obtain ⟨own, ruled, _, hruled, rfl⟩ := h.conditions
  exact ⟨ruled, hruled, fun text htext => List.mem_append_right _ (Option.mem_toList.mpr htext)⟩

theorem tableClauses_ok {w w' : Walk} (h : c.tableClauses vars f table w = .ok w') :
    ∃ filters orderBy, c.TableClauses vars f table filters orderBy ∧
      w' = w.withClauses filters orderBy := by
  unfold tableClauses at h
  extract_lets rule sort security at h
  have sort_ok : ∀ u, sort u = .ok w' →
      ∃ orderBy, OrderTerms vars f table orderBy ∧ w' = u.withClauses [] orderBy := by
    intro u hu
    simp only [sort] at hu
    unfold OrderTerms
    split at hu
    · rename_i value hvalue
      obtain ⟨terms, hterms, hu⟩ := bind_eq_ok.mp hu
      obtain rfl := pure_eq_ok.mp hu
      rw [hvalue]
      exact ⟨terms, hterms, by simp [Walk.withClauses]⟩
    · rename_i hnone
      obtain rfl := pure_eq_ok.mp hu
      rw [hnone]
      exact ⟨[], rfl, by simp [Walk.withClauses]⟩
  have security_ok : ∀ u, security u = .ok w' →
      ∃ ruled orderBy, RuleClause c.rules c.schema vars (c.filterContext table) ruled ∧
        OrderTerms vars f table orderBy ∧ w' = u.withClauses ruled.toList orderBy := by
    intro u hu
    obtain ⟨decision, hdecision, hu⟩ := bind_eq_ok.mp hu
    have hdecision := asRole_eq_ok hdecision
    cases decision with
    | allow =>
        obtain ⟨orderBy, horder, rfl⟩ := sort_ok u hu
        exact ⟨none, orderBy, ⟨_, hdecision, rfl⟩, horder, rfl⟩
    | deny reason => cases hu
    | filter tree =>
        obtain ⟨v, hv, hu⟩ := bind_eq_ok.mp hu
        obtain ⟨ruled, hruled, rfl⟩ := addFilter_ok hv
        obtain ⟨orderBy, horder, rfl⟩ := sort_ok _ hu
        exact ⟨ruled, orderBy, ⟨_, hdecision, hruled⟩, horder, by simp [Walk.withClauses]⟩
  cases hfilter : f.resolved vars "where" with
  | some tree =>
      rw [hfilter] at h
      obtain ⟨u, hu, h⟩ := bind_eq_ok.mp h
      obtain ⟨own, hown, rfl⟩ := addFilter_ok hu
      obtain ⟨ruled, orderBy, hruled, horder, rfl⟩ := security_ok _ h
      exact ⟨_, orderBy, ⟨⟨own, ruled, by rwa [hfilter], hruled, rfl⟩, horder⟩,
        by simp [Walk.withClauses]⟩
  | none =>
      rw [hfilter] at h
      obtain ⟨ruled, orderBy, hruled, horder, rfl⟩ := security_ok w h
      exact ⟨_, orderBy, ⟨⟨none, ruled, by rw [hfilter]; rfl, hruled, rfl⟩, horder⟩, rfl⟩

end TableClauses

theorem addJoin_ok {f : Field} {parent child : String} {w w' : Walk}
    (h : c.addJoin vars f parent child w = .ok w') :
    (child ∈ w.joined ∧ w' = w) ∨
      ∃ kind condition, child ∉ w.joined ∧ c.joinSpec vars f parent child = .ok (kind, condition) ∧
        w' = w.withJoin kind child condition := by
  unfold addJoin at h
  by_cases hc : child ∈ w.joined
  · rw [if_pos (by simpa using hc)] at h
    exact .inl ⟨hc, (pure_eq_ok.mp h).symm⟩
  · rw [if_neg (by simpa using hc)] at h
    obtain ⟨⟨kind, condition⟩, hspec, h⟩ := bind_eq_ok.mp h
    exact .inr ⟨kind, condition, hc, hspec, (pure_eq_ok.mp h).symm⟩

theorem ensureSafe_ok {context name : String} (h : Name.ensureSafe context name = .ok ()) :
    Name.isSafe name = true := by
  unfold Name.ensureSafe at h
  split at h
  · assumption
  · cases h

section Columns
variable {f : Field} {table : String}

/-- Without a calculation, the expression of a leaf is a column of its table. -/
theorem baseExpression_ok {base : String} (hcalc : f.resolved vars "calc" = none)
    (h : c.baseExpression vars f table = .ok base) :
    base = table ++ "." ++ f.name ∧ Name.isSafe f.name = true ∧
      (c.schema.column? table f.name).isSome = true := by
  unfold baseExpression at h
  rw [hcalc] at h
  obtain ⟨_, hsafe, h⟩ := bind_eq_ok.mp h
  split_ifs at h with hcolumn
  · cases h
  · exact ⟨(pure_eq_ok.mp h).symm, ensureSafe_ok hsafe,
      by simpa [Option.isSome_iff_ne_none] using hcolumn⟩

theorem aggregateOf_ok {name : String} (h : aggregateOf vars f = .ok (some name)) :
    name ∈ aggregates := by
  unfold aggregateOf at h
  split at h
  · cases h
  · dsimp only at h
    split_ifs at h with hname
    obtain rfl := Option.some.inj (Except.ok.inj h)
    exact List.contains_iff_mem.mp hname
  · cases h

/-- The column of a leaf is its expression, or an aggregate of it. -/
theorem leafColumn_ok {level slot : Nat} {column : SelectColumn}
    (h : c.leafColumn vars f table level slot = .ok column) :
    ∃ base, c.baseExpression vars f table = .ok base ∧ column.label = ⟨level, slot, f.outputName⟩ ∧
      (column.expression = base ∨ ∃ name ∈ aggregates, column.expression =
        name ++ "(" ++ base ++ ")" ∨
        column.expression = name ++ "(" ++ ("distinct" ++ " " ++ base) ++ ")") := by
  obtain ⟨base, hbase, h⟩ := bind_eq_ok.mp h
  obtain ⟨aggregate, haggregate, h⟩ := bind_eq_ok.mp h
  obtain ⟨distinct, _, h⟩ := bind_eq_ok.mp h
  have hdistinct : ∀ name : String, name ++ "(distinct " ++ base ++ ")" =
      name ++ "(" ++ ("distinct" ++ " " ++ base) ++ ")" :=
    fun name => String.toList_injective (by simp)
  refine ⟨base, hbase, ?_⟩
  cases aggregate with
  | none =>
      cases distinct with
      | false =>
          obtain rfl := pure_eq_ok.mp h
          exact ⟨rfl, .inl rfl⟩
      | true =>
          obtain rfl := pure_eq_ok.mp h
          exact ⟨rfl, .inr ⟨"count", by decide, .inr (hdistinct "count")⟩⟩
  | some name =>
      have hname := aggregateOf_ok haggregate
      cases distinct with
      | false =>
          obtain rfl := pure_eq_ok.mp h
          exact ⟨rfl, .inr ⟨name, hname, .inl rfl⟩⟩
      | true =>
          obtain rfl := pure_eq_ok.mp h
          exact ⟨rfl, .inr ⟨name, hname, .inr (hdistinct name)⟩⟩

end Columns

/-- A table of the schema whose name may stand in a statement. -/
structure IsTable (c : Compiler) (table : String) : Prop where
  safe : Name.isSafe table = true
  found : ∃ t, c.schema.table table = .ok t

/-- The walks over a selection in a slot of a table, by the fields of the selection. -/
inductive Walks (c : Compiler) (vars : Variables) :
    (table : String) → (level slot : Nat) → Walk → List Field → Walk → Prop
  | nil {table level slot w} : Walks c vars table level slot w [] w
  | leaf {table level slot w f rest column w'} :
      f.isLeaf = true → Name.isSafe f.outputName = true →
      c.leafColumn vars f table level slot = .ok column →
      Walks c vars table level slot (w.withLeaf level slot f column) rest w' →
      Walks c vars table level slot w (f :: rest) w'
  | nested {table level slot w f rest joined filters orderBy below w'} :
      f.isLeaf = false → Name.isSafe f.outputName = true →
      c.IsTable (Name.internal f.name) →
      c.addJoin vars f table (Name.internal f.name) (w.withSlot level slot f) = .ok joined →
      c.TableClauses vars f (Name.internal f.name) filters orderBy →
      Walks c vars (Name.internal f.name) (level + 1) (w.nextSlot level)
        (joined.withClauses filters orderBy) f.selection below →
      Walks c vars table level slot below rest w' →
      Walks c vars table level slot w (f :: rest) w'

mutual

theorem walks_of_walkField {table : String} {level slot : Nat} {w u : Walk} :
    (f : Field) → c.walkField vars table level slot w f = .ok u → {rest : List Field} →
      {w' : Walk} → Walks c vars table level slot u rest w' →
        Walks c vars table level slot w (f :: rest) w'
  | ⟨label, name, arguments, directives, selection⟩, h, rest, w', hrest => by
      simp only [walkField] at h
      obtain ⟨⟨⟩, hsafe, h⟩ := bind_eq_ok.mp h
      by_cases hs : selection.isEmpty = true
      · rw [if_pos hs] at h
        obtain ⟨column, hcolumn, h⟩ := bind_eq_ok.mp h
        obtain rfl := pure_eq_ok.mp h
        exact .leaf hs (ensureSafe_ok hsafe) hcolumn hrest
      · rw [if_neg hs] at h
        obtain ⟨⟨⟩, htable, h⟩ := bind_eq_ok.mp h
        obtain ⟨t, ht, h⟩ := bind_eq_ok.mp h
        obtain ⟨joined, hjoined, h⟩ := bind_eq_ok.mp h
        obtain ⟨v, hv, h⟩ := bind_eq_ok.mp h
        obtain ⟨filters, orderBy, hclauses, rfl⟩ := tableClauses_ok hv
        exact .nested (by simpa [Field.isLeaf] using hs) (ensureSafe_ok hsafe)
          ⟨ensureSafe_ok htable, t, ht⟩ hjoined hclauses (walks_of_walkSelection selection h) hrest

/-- Every successful walk is derived by the rules. -/
theorem walks_of_walkSelection {table : String} {level slot : Nat} {w w' : Walk} :
    (fields : List Field) → c.walkSelection vars table level slot w fields = .ok w' →
      Walks c vars table level slot w fields w'
  | [], h => by
      simp only [walkSelection, Except.ok.injEq] at h
      exact h ▸ .nil
  | f :: rest, h => by
      simp only [walkSelection] at h
      obtain ⟨u, hu, h⟩ := bind_eq_ok.mp h
      exact walks_of_walkField f hu (walks_of_walkSelection rest h)

end

/-- A walk before anything of a selection of a table was walked. -/
def startWalk (f : Field) (main : String) : Walk :=
  ⟨Slots.empty.add 0 ⟨main, f.outputName, false, none, []⟩, [], [], [main], [], []⟩

/-- A condition as it stands in a statement. -/
def whereText : Option String → String
  | none => ""
  | some condition => " WHERE " ++ condition

theorem clause_where (filters : List String) : clause "WHERE" " AND " filters =
    whereText (if filters.isEmpty then none else some (" AND ".intercalate filters)) := by
  unfold clause
  split <;> rfl

theorem exists_statement_eq (c : Compiler) (distinct : Bool) (main : String) (w : Walk) :
    ∃ before after, c.statement distinct main w = before ++
      whereText (if w.filters.isEmpty then none else some (" AND ".intercalate w.filters)) ++
        after := by
  -- Deriving the equation of `statement`, which `rw` and `unfold` need, takes seconds.
  delta statement
  rw [clause_where]
  exact ⟨_, _, String.append_assoc⟩

/-- The statement of a query holds its condition, whether it is paged or not. -/
def Spelled (c : Compiler) (q : CompiledQuery) : Prop :=
  ∃ before after, let unpaged := before ++ whereText q.filter ++ after
    q.sql = unpaged ∨ q.sql = c.dialect.paged unpaged q.limit q.skip c.defaultLimit

/-- A compiled field with its finished walk, from the clauses of the main table. -/
structure Compiled (c : Compiler) (vars : Variables) (limited : Bool) (f : Field)
    (q : CompiledQuery) (filters orderBy : List String) (w : Walk) : Prop where
  mainTable : q.mainTable = Name.internal f.name
  table : c.IsTable q.mainTable
  limit : intArgument f "limit" vars = .ok q.limit
  skip : intArgument f "skip" vars = .ok q.skip
  walk : c.walkRoot vars f q.mainTable = .ok w
  clauses : c.TableClauses vars f q.mainTable filters orderBy
  walks : Walks c vars q.mainTable 0 0 ((startWalk f q.mainTable).withClauses filters orderBy)
    f.selection w
  columns_ne_nil : w.columns ≠ []
  slots : q.slots = w.slots
  columns : q.columns = w.columns
  joins : q.joins = w.joins
  filter : q.filter = if w.filters.isEmpty then none else some (" AND ".intercalate w.filters)
  groupBy : q.groupBy = groupTerms w.columns
  orderBy : q.orderBy = w.orderBy
  sql : q.sql =
    if limited || 0 < q.limit || 0 < q.skip then
      c.dialect.paged (c.statement q.distinct q.mainTable w) q.limit q.skip c.defaultLimit
    else c.statement q.distinct q.mainTable w

theorem exists_compiled {limited : Bool} {f : Field} {q : CompiledQuery}
    (h : c.compileWith limited vars f = .ok q) :
    ∃ filters orderBy w, c.Compiled vars limited f q filters orderBy w := by
  unfold compileWith at h
  obtain ⟨_, hsafe, h⟩ := bind_eq_ok.mp h
  obtain ⟨t, ht, h⟩ := bind_eq_ok.mp h
  obtain ⟨_, _, h⟩ := bind_eq_ok.mp h
  obtain ⟨distinct, _, h⟩ := bind_eq_ok.mp h
  obtain ⟨limit, hlimit, h⟩ := bind_eq_ok.mp h
  obtain ⟨skip, hskip, h⟩ := bind_eq_ok.mp h
  obtain ⟨w, hw, h⟩ := bind_eq_ok.mp h
  by_cases hcolumns : w.columns.isEmpty = true
  · rw [if_pos hcolumns] at h
    cases h
  · rw [if_neg hcolumns] at h
    obtain rfl := pure_eq_ok.mp h
    obtain ⟨v, hv, hselection⟩ := bind_eq_ok.mp hw
    obtain ⟨filters, orderBy, hclauses, rfl⟩ := tableClauses_ok hv
    exact ⟨filters, orderBy, w, {
      mainTable := rfl
      table := ⟨ensureSafe_ok hsafe, t, ht⟩
      limit := hlimit
      skip := hskip
      walk := hw
      clauses := hclauses
      walks := walks_of_walkSelection _ hselection
      columns_ne_nil := by simpa using hcolumns
      slots := rfl
      columns := rfl
      joins := rfl
      filter := rfl
      groupBy := rfl
      orderBy := rfl
      sql := rfl }⟩

/-- The statement holds its condition. -/
theorem Compiled.spelled {limited : Bool} {f : Field} {q : CompiledQuery}
    {filters orderBy : List String} {w : Walk}
    (h : c.Compiled vars limited f q filters orderBy w) : c.Spelled q := by
  obtain ⟨before, after, hstatement⟩ := exists_statement_eq c q.distinct q.mainTable w
  refine ⟨before, after, ?_⟩
  dsimp only
  rw [h.filter, ← hstatement, h.sql]
  split
  · exact .inr rfl
  · exact .inl rfl

/-- What is known of the slots, columns and joins of a compiled field: they are those of a walk over
its selection. -/
theorem compileWith_ok {limited : Bool} {f : Field} {q : CompiledQuery}
    (h : c.compileWith limited vars f = .ok q) :
    ∃ filters orderBy w, q.mainTable = Name.internal f.name ∧ w.columns ≠ [] ∧
      Walks c vars q.mainTable 0 0 ((startWalk f q.mainTable).withClauses filters orderBy)
        f.selection w ∧
      q.slots = w.slots ∧ q.columns = w.columns ∧ q.joins = w.joins ∧
      q.filter = (if w.filters.isEmpty then none else some (" AND ".intercalate w.filters)) ∧
      q.groupBy = groupTerms w.columns := by
  obtain ⟨filters, orderBy, w, hq⟩ := exists_compiled h
  exact ⟨filters, orderBy, w, hq.mainTable, hq.columns_ne_nil, hq.walks, hq.slots, hq.columns,
    hq.joins, hq.filter, hq.groupBy⟩

end Compiler

end SqlGateway.Query
