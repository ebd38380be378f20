import SqlGateway.Proofs.Name
import SqlGateway.Proofs.Query.Denotation
import SqlGateway.Proofs.Query.Walk

/-!
# Joins of compiled queries

The texts of the joins of a compiled query are read in one way only, and none of them joins the main
table again.
-/
namespace SqlGateway.Query

open Schema (JoinKind)

namespace JoinClause

theorem toList_text (clause : JoinClause) :
    clause.text.toList = clause.kind.sql.toList ++ ' ' :: (clause.table.toList ++
      ' ' :: ("ON ".toList ++ clause.condition.toList)) := by
  have hblank : (toString " ").toList = [' '] := rfl
  have hon : (toString " ON ").toList = ' ' :: "ON ".toList := rfl
  simp only [text, String.toList_append, hblank, hon, List.append_assoc, List.cons_append,
    List.nil_append]
  rfl

theorem kind_eq_of_sql_append {kind kind' : JoinKind} {rest rest' : List Char}
    (h : kind.sql.toList ++ rest = kind'.sql.toList ++ rest') : kind = kind' := by
  have hhead : kind.sql.toList.head? = kind'.sql.toList.head? := by
    have := congrArg List.head? h
    cases kind <;> cases kind' <;> exact this
  cases kind <;> cases kind' <;> first | rfl | exact absurd hhead (by decide)

/-- The text of a join tells its kind, its table and its condition. -/
theorem text_injective {a b : JoinClause} (h : a.text = b.text) : a = b := by
  obtain ⟨kind, table, condition, safe⟩ := a
  obtain ⟨kind', table', condition', safe'⟩ := b
  have hchars := congrArg String.toList h
  rw [toList_text, toList_text] at hchars
  obtain rfl : kind = kind' := kind_eq_of_sql_append hchars
  have hrest := List.cons.inj (List.append_cancel_left hchars)
  -- No blank is part of a table's name, so the name ends at the first one.
  have htable : ∀ {name : String} {after : List Char}, Name.isSafe name = true →
      (name.toList ++ ' ' :: after).takeWhile (· != ' ') = name.toList := by
    intro name after hsafe
    rw [List.takeWhile_append_of_pos]
    · simp
    · intro c hc
      simpa using fun hblank : c = ' ' => Name.not_mem_of_isSafe hsafe (hblank ▸ hc)
  obtain rfl : table = table' := by
    have := congrArg (List.takeWhile (· != ' ')) hrest.2
    rw [htable safe, htable safe'] at this
    exact String.toList_injective this
  have hcondition := (List.cons.inj (List.append_cancel_left hrest.2)).2
  obtain rfl : condition = condition' :=
    String.toList_injective (List.append_cancel_left hcondition)
  rfl

end JoinClause

namespace Compiler

variable {c : Compiler} {vars : Request.Variables}

/-- The joins of a walk are joins of tables that were joined by it, and none joins a given table. -/
def JoinsOthers (main : String) (w : Walk) : Prop :=
  main ∈ w.joined ∧ ∃ clauses : List JoinClause,
    w.joins = clauses.map JoinClause.text ∧ ∀ clause ∈ clauses, clause.table ≠ main

theorem Walks.joinsOthers {main table : String} {level slot : Nat} {w w' : Walk}
    {fields : List Request.Field} (h : Walks c vars table level slot w fields w')
    (hw : JoinsOthers main w) : JoinsOthers main w' := by
  induction h with
  | nil => exact hw
  | leaf _ _ _ _ ih => exact ih hw
  | nested _ _ htable hjoin _ _ _ ihbelow ih =>
      refine ih (ihbelow ?_)
      obtain ⟨hmain, clauses, hjoins, hothers⟩ := hw
      obtain ⟨_, rfl⟩ | ⟨kind, condition, hfresh, _, rfl⟩ := addJoin_ok hjoin
      · exact ⟨hmain, clauses, hjoins, hothers⟩
      · refine ⟨List.mem_append_left _ hmain,
          clauses ++ [⟨kind, _, condition, htable.safe⟩], ?_, ?_⟩
        · rw [List.map_append, ← hjoins]
          rfl
        · refine List.forall_mem_append.mpr ⟨hothers, List.forall_mem_singleton.mpr ?_⟩
          rintro rfl
          exact hfresh hmain

section Compiled
variable {limited : Bool} {f : Request.Field} {q : CompiledQuery}
  (h : c.compileWith limited vars f = .ok q)

include h

theorem exists_clauses : ∃ clauses : List JoinClause, q.joins = clauses.map JoinClause.text ∧
    ∀ clause ∈ clauses, clause.table ≠ q.mainTable := by
  obtain ⟨filters, orderBy, w, _, _, hw, _, _, hjoins, _⟩ := compileWith_ok h
  have hstart : JoinsOthers q.mainTable ((startWalk f q.mainTable).withClauses filters orderBy) :=
    ⟨List.mem_singleton.mpr rfl, [], rfl, by simp⟩
  obtain ⟨_, clauses, hclauses, hmain⟩ := hw.joinsOthers hstart
  exact ⟨clauses, hjoins ▸ hclauses, hmain⟩

/-- The joins of a compiled query have one reading. -/
theorem existsUnique_clauses :
    ∃! clauses : List JoinClause, q.joins = clauses.map JoinClause.text := by
  obtain ⟨clauses, hclauses, _⟩ := exists_clauses h
  refine ⟨clauses, hclauses, fun others hothers => ?_⟩
  exact (List.map_inj_right fun _ _ => JoinClause.text_injective).mp (hothers ▸ hclauses)

theorem table_ne_mainTable {clauses : List JoinClause}
    (hclauses : q.joins = clauses.map JoinClause.text) :
    ∀ clause ∈ clauses, clause.table ≠ q.mainTable := by
  obtain ⟨others, hothers, hmain⟩ := exists_clauses h
  rwa [(existsUnique_clauses h).unique hclauses hothers]

end Compiled

end Compiler

end SqlGateway.Query
