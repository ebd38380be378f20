import SqlGateway.Proofs.Query.Walk

/-!
# Security decisions on reads

Every table that a query reads was decided on by the security role: the main table, and the tables
of all nested fields, from which alone the joins come. No conditions are dropped on the way, so the
clause of each decision is a conjunct of the condition of the query.
-/
namespace SqlGateway.Query

open Request (Field Variables)

/-- The tables of the nested fields of a selection, however deep. -/
inductive Reaches : List Field → String → Prop
  | here {fields : List Field} {f : Field} :
      f ∈ fields → f.isLeaf = false → Reaches fields (Name.internal f.name)
  | deeper {fields : List Field} {f : Field} {table : String} :
      f ∈ fields → Reaches f.selection table → Reaches fields table

theorem Reaches.cases_cons {f : Field} {rest : List Field} {table : String}
    (h : Reaches (f :: rest) table) :
    (f.isLeaf = false ∧ table = Name.internal f.name) ∨ Reaches f.selection table ∨
      Reaches rest table := by
  cases h with
  | here hmem hleaf =>
      rcases List.mem_cons.mp hmem with rfl | hmem
      · exact .inl ⟨hleaf, rfl⟩
      · exact .inr (.inr (.here hmem hleaf))
  | deeper hmem hbelow =>
      rcases List.mem_cons.mp hmem with rfl | hmem
      · exact .inr (.inl hbelow)
      · exact .inr (.inr (.deeper hmem hbelow))

theorem not_reaches_of_isLeaf {f : Field} {table : String} (h : f.isLeaf = true) :
    ¬ Reaches f.selection table := by
  have hnil : f.selection = [] := List.isEmpty_iff.mp h
  rw [hnil]
  rintro (hmem | hmem)
  all_goals cases ‹_ ∈ []›

theorem Reaches.mono {fields more : List Field} {table : String} (h : Reaches fields table)
    (hsub : fields ⊆ more) : Reaches more table := by
  cases h with
  | here hmem hleaf => exact .here (hsub hmem) hleaf
  | deeper hmem hbelow => exact .deeper (hsub hmem) hbelow

namespace Compiler

variable {c : Compiler} {vars : Variables}

theorem filters_addJoin {f : Field} {parent child : String} {w w' : Walk}
    (h : c.addJoin vars f parent child w = .ok w') : w'.filters = w.filters := by
  obtain ⟨_, rfl⟩ | ⟨_, _, _, _, rfl⟩ := addJoin_ok h
  · rfl
  · rfl

section Walking
variable {table : String} {level slot : Nat} {w w' : Walk} {fields : List Field}
  (h : Walks c vars table level slot w fields w')

include h

theorem Walks.filters_subset : w.filters ⊆ w'.filters := by
  induction h with
  | nil => exact List.Subset.refl _
  | leaf _ _ _ _ ih => exact ih
  | nested _ _ _ hjoin _ _ _ ihbelow ih =>
      intro text htext
      refine ih (ihbelow ?_)
      rw [Walk.withClauses, filters_addJoin hjoin]
      exact List.mem_append_left _ htext

theorem Walks.filters_phrased (hw : ∀ text ∈ w.filters, ∃ f, Phrased c.dialect text f) :
    ∀ text ∈ w'.filters, ∃ f, Phrased c.dialect text f := by
  induction h with
  | nil => exact hw
  | leaf _ _ _ _ ih => exact ih hw
  | nested _ _ _ hjoin hclauses _ _ ihbelow ih =>
      refine ih (ihbelow ?_)
      rw [Walk.withClauses, filters_addJoin hjoin]
      exact List.forall_mem_append.mpr ⟨hw, hclauses.exists_phrased⟩

/-- Every reached table was decided on, and the clause of the decision is kept. -/
theorem Walks.ruled {t : String} (ht : Reaches fields t) :
    ∃ clause, RuleClause c.rules c.schema vars (c.filterContext t) clause ∧
      ∀ text ∈ clause, text ∈ w'.filters := by
  induction h with
  | nil =>
      rcases ht with ⟨hmem, _⟩ | ⟨hmem, _⟩
      all_goals cases hmem
  | leaf hleaf _ _ _ ih =>
      rcases ht.cases_cons with ⟨hnested, _⟩ | hbelow | hrest
      · rw [hleaf] at hnested
        cases hnested
      · exact absurd hbelow (not_reaches_of_isLeaf hleaf)
      · exact ih hrest
  | nested _ _ _ hjoin hclauses hbelow hrest ihbelow ih =>
      rcases ht.cases_cons with ⟨_, rfl⟩ | hselection | hmore
      · obtain ⟨clause, hclause, hmem⟩ := hclauses.ruled
        refine ⟨clause, hclause, fun text htext => ?_⟩
        refine hrest.filters_subset (hbelow.filters_subset ?_)
        exact List.mem_append_right _ (hmem text htext)
      · obtain ⟨clause, hclause, hkept⟩ := ihbelow hselection
        exact ⟨clause, hclause, fun text htext => hrest.filters_subset (hkept text htext)⟩
      · exact ih hmore

/-- Every join is of a reached table. -/
theorem Walks.joins_reach : ∀ join ∈ w'.joins, join ∈ w.joins ∨
    ∃ (kind : Schema.JoinKind) (t condition : String), Reaches fields t ∧
      join = s!"{kind.sql} {t} ON {condition}" := by
  induction h with
  | nil => exact fun _ hjoin => .inl hjoin
  | @leaf _ _ _ w f rest _ _ _ _ _ _ ih =>
      intro join hjoin
      rcases ih join hjoin with hjoin | ⟨kind, t, condition, ht, hjoin⟩
      · exact .inl hjoin
      · exact .inr ⟨kind, t, condition, ht.mono (List.subset_cons_self f rest), hjoin⟩
  | @nested _ _ _ w f rest joined _ _ below _ hleaf _ _ haddJoin _ _ _ ihbelow ih =>
      intro join hjoin
      rcases ih join hjoin with hjoin | ⟨kind, t, condition, ht, hjoin⟩
      · rcases ihbelow join hjoin with hjoin | ⟨kind, t, condition, ht, hjoin⟩
        · obtain ⟨_, rfl⟩ | ⟨kind, condition, _, _, rfl⟩ := addJoin_ok haddJoin
          · exact .inl hjoin
          · rcases List.mem_append.mp hjoin with hjoin | hjoin
            · exact .inl hjoin
            · exact .inr ⟨kind, _, condition, .here List.mem_cons_self hleaf,
                List.mem_singleton.mp hjoin⟩
        · exact .inr ⟨kind, t, condition, .deeper List.mem_cons_self ht, hjoin⟩
      · exact .inr ⟨kind, t, condition, ht.mono (List.subset_cons_self f rest), hjoin⟩

end Walking

/-- The tables that a field reads: its own, and those of the nested fields below it. -/
def Reads (f : Field) (table : String) : Prop :=
  table = Name.internal f.name ∨ Reaches f.selection table

theorem heeded_of_compileWith {limited : Bool} {f : Field} {q : CompiledQuery}
    (h : c.compileWith limited vars f = .ok q) {table : String} (ht : Reads f table) :
    Heeded c.rules c.schema vars (c.filterContext table) q.filter := by
  obtain ⟨filters, orderBy, w, hq⟩ := exists_compiled h
  have hphrased : ∀ text ∈ w.filters, ∃ f, Phrased c.dialect text f :=
    hq.walks.filters_phrased
      (List.forall_mem_append.mpr ⟨by simp [startWalk], hq.clauses.exists_phrased⟩)
  have hkept := exists_keeps hphrased hq.filter
  rcases ht with rfl | ht
  · obtain ⟨clause, hclause, hmem⟩ := hq.clauses.ruled
    refine ⟨clause, hq.mainTable ▸ hclause, fun text htext =>
      hkept text (hq.walks.filters_subset ?_)⟩
    exact List.mem_append_right _ (hmem text htext)
  · obtain ⟨clause, hclause, hmem⟩ := hq.walks.ruled ht
    exact ⟨clause, hclause, fun text htext => hkept text (hmem text htext)⟩

/-- Every join of a compiled query is of a table that its field reads. -/
theorem reads_of_join {limited : Bool} {f : Field} {q : CompiledQuery}
    (h : c.compileWith limited vars f = .ok q) {join : String} (hjoin : join ∈ q.joins) :
    ∃ (kind : Schema.JoinKind) (table condition : String), Reads f table ∧
      join = s!"{kind.sql} {table} ON {condition}" := by
  obtain ⟨filters, orderBy, w, _, _, hw, _, _, hjoins, _⟩ := compileWith_ok h
  rcases hw.joins_reach join (hjoins ▸ hjoin) with hnone | ⟨kind, t, condition, ht, rfl⟩
  · cases hnone
  · exact ⟨kind, t, condition, .inr ht, rfl⟩

end Compiler

end SqlGateway.Query
