import SqlGateway.Proofs.Engine.Preparation
import SqlGateway.Proofs.Mutation.Decisions
import SqlGateway.Proofs.Query.Paging

/-!
# What compiled statements begin with

Everything that is compiled reads or writes rows, and its first words say so. Only a raw statement
can be anything else.
-/
namespace SqlGateway

/-- A statement that reads or writes rows, by its first words. -/
def ReadsOrWrites (sql : String) : Prop :=
  ∃ keywords ∈ ["SELECT ", "insert into ", "update ", "delete from "], ∃ rest, sql =
    keywords ++ rest

theorem ReadsOrWrites.append {sql : String} (h : ReadsOrWrites sql) (more : String) :
    ReadsOrWrites (sql ++ more) := by
  obtain ⟨keywords, hkeywords, rest, rfl⟩ := h
  exact ⟨keywords, hkeywords, rest ++ more, String.append_assoc ..⟩

theorem readsOrWrites_select (rest : String) : ReadsOrWrites ("SELECT " ++ rest) :=
  ⟨"SELECT ", List.mem_cons_self, rest, rfl⟩

namespace Query

open Dialect Text

variable {c : Compiler} {vars : Request.Variables}

theorem readsOrWrites_withTop (rest : String) (n : Int) :
    ReadsOrWrites (withTop ("SELECT " ++ rest) n) := by
  have htrim : ("SELECT " ++ rest).toList.dropWhile isBlank = "SELECT ".toList ++ rest.toList := by
    rw [String.toList_append]
    rfl
  have hstart := startsWith_upper_append "SELECT " (by decide) rest
  simp only [withTop, htrim, hstart, if_true]
  split
  next _ hcut =>
    -- The cut is behind the second word, whatever its letters, and so behind the first.
    have htake : String.ofList (("SELECT ".toList ++ rest.toList).take "SELECT DISTINCT ".length) =
        "SELECT " ++ String.ofList (rest.toList.take 9) := String.toList_injective (by simp; rfl)
    split at hcut
    · cases hcut
      rw [htake]
      exact ((readsOrWrites_select _).append _).append _
    · cases hcut
  next _ hcut =>
    cases hcut
    rw [cut_append]
    exact (readsOrWrites_select _).append _
  next hcut => cases hcut

theorem readsOrWrites_paged (d : Dialect) (rest : String) (limit skip default : Int) :
    ReadsOrWrites (d.paged ("SELECT " ++ rest) limit skip default) := by
  have hselect := readsOrWrites_select rest
  unfold paged
  cases d with
  | postgres | sqlite | mysql =>
      dsimp only
      split
      · exact (((hselect.append _).append _).append _).append _
      · exact (hselect.append _).append _
  | mssql =>
      dsimp only
      split
      · exact (((((hselect.append _).append _).append _).append _).append _).append _
      · exact readsOrWrites_withTop rest _

theorem readsOrWrites_compileWith {limited : Bool} {f : Request.Field} {q : CompiledQuery}
    (h : c.compileWith limited vars f = .ok q) : ReadsOrWrites q.sql := by
  obtain ⟨_, _, w, hq⟩ := Compiler.exists_compiled h
  obtain ⟨rest, hrest⟩ : ∃ rest, c.statement q.distinct q.mainTable w = "SELECT " ++ rest := by
    unfold Compiler.statement
    simp only [String.append_assoc]
    exact ⟨_, rfl⟩
  rw [hq.sql, hrest]
  split
  · exact readsOrWrites_paged ..
  · exact readsOrWrites_select rest

end Query

namespace Mutation

variable {p : Planner} {vars : Request.Variables} {plan : Plan}

theorem readsOrWrites_insert (d : Dialect) (table : String) (columns : List String) (rows : Nat)
    (returning : List String) :
    ReadsOrWrites (Statement.insert d table columns rows returning) := by
  unfold Statement.insert
  simp only [String.append_assoc]
  exact ⟨"insert into ", by simp, _, rfl⟩

theorem readsOrWrites_insertSelect (d : Dialect) (table : String) (columns : List String)
    (select : String) (returning : List String) :
    ReadsOrWrites (Statement.insertSelect d table columns select returning) := by
  unfold Statement.insertSelect
  simp only [String.append_assoc]
  exact ⟨"insert into ", by simp, _, rfl⟩

theorem readsOrWrites_update (d : Dialect) (table : String) (columns : List String)
    (filter : Option String) (returning : List String) :
    ReadsOrWrites (Statement.update d table columns filter returning) := by
  unfold Statement.update
  simp only [String.append_assoc]
  exact ⟨"update ", by simp, _, rfl⟩

theorem readsOrWrites_delete (d : Dialect) (table : String) (filter : Option String)
    (returning : List String) : ReadsOrWrites (Statement.delete d table filter returning) := by
  unfold Statement.delete
  simp only [String.append_assoc]
  exact ⟨"delete from ", by simp, _, rfl⟩

theorem readsOrWrites_statementOf {n : WriteNode} (h : n.kind ≠ .insertSelect) :
    ReadsOrWrites (p.statementOf n) := by
  unfold Planner.statementOf
  cases hkind : n.kind with
  | insert => exact readsOrWrites_insert ..
  | update => exact readsOrWrites_update ..
  | delete => exact readsOrWrites_delete ..
  | insertSelect => exact absurd hkind h

/-- No write of a plan inserts from a query, but for a field that asks for that. -/
theorem kind_of_plan {f : Request.Field} (h : p.plan vars f = .ok plan) :
    ∀ n ∈ plan.nodes, n.kind ≠ .insertSelect := by
  have hlasting : Planner.Lasting (·.kind ≠ .insertSelect) := fun _ _ _ _ hn => hn
  have hattached : ∀ {root : WriteNode} {depth : Nat} {rows : List (Nat × SplitDocument)}
      {nodes : List WriteNode}, p.attachRows vars depth 0 [root] rows = .ok nodes →
      root.kind ≠ .insertSelect → ∀ n ∈ p.finish nodes 0, n.kind ≠ .insertSelect := by
    intro root depth rows nodes hnodes hroot
    exact Planner.forall_mem_finish_attachRows hlasting (fun _ _ _ _ _ _ _ _ => nofun) hroot hnodes
  obtain ⟨⟨kind, table⟩, _, h⟩ := bind_eq_ok.mp h
  cases kind with
  | insert =>
      obtain ⟨docs, _, h⟩ := bind_eq_ok.mp h
      obtain ⟨_, _, h⟩ := bind_eq_ok.mp h
      obtain ⟨_, _, h⟩ := bind_eq_ok.mp h
      obtain ⟨_, _, h⟩ := bind_eq_ok.mp h
      extract_lets columns root rest at h
      split at h
      · cases h
      · obtain ⟨nodes, hnodes, h⟩ := bind_eq_ok.mp h
        obtain rfl := pure_eq_ok.mp h
        exact hattached hnodes (nofun : Kind.insert ≠ .insertSelect)
  | update =>
      obtain ⟨docs, _, h⟩ := bind_eq_ok.mp h
      obtain ⟨_, _, h⟩ := bind_eq_ok.mp h
      obtain ⟨filter, _, h⟩ := bind_eq_ok.mp h
      obtain ⟨_, _, h⟩ := bind_eq_ok.mp h
      extract_lets root rest at h
      split at h
      · cases h
      · obtain ⟨nodes, hnodes, h⟩ := bind_eq_ok.mp h
        obtain rfl := pure_eq_ok.mp h
        exact hattached hnodes (nofun : Kind.update ≠ .insertSelect)
  | delete =>
      obtain ⟨_, _, h⟩ := bind_eq_ok.mp h
      obtain rfl := pure_eq_ok.mp h
      exact Planner.forall_mem_finish hlasting
        (List.forall_mem_singleton.mpr (nofun : Kind.delete ≠ .insertSelect)) 0
  | insertSelect => cases h

theorem readsOrWrites_of_plan {f : Request.Field} (h : p.plan vars f = .ok plan) :
    ∀ n ∈ plan.nodes, ReadsOrWrites n.sql := by
  intro n hn
  rw [(Planner.decided_of_plan h n hn).2]
  exact readsOrWrites_statementOf (kind_of_plan h n hn)

theorem readsOrWrites_of_planInsertSelect {f : Request.Field} {query : Query.CompiledQuery}
    (h : p.planInsertSelect vars f query = .ok plan) : ∀ n ∈ plan.nodes, ReadsOrWrites n.sql := by
  obtain ⟨⟨kind, table⟩, _, h⟩ := bind_eq_ok.mp h
  dsimp only at h
  split at h
  · cases h
  · split at h
    · cases h
    · obtain ⟨_, _, h⟩ := bind_eq_ok.mp h
      obtain ⟨_, _, h⟩ := bind_eq_ok.mp h
      obtain rfl := pure_eq_ok.mp h
      exact List.forall_mem_singleton.mpr (readsOrWrites_insertSelect ..)

end Mutation

namespace Engine

variable {compiler : Query.Compiler} {document : Request.Document} {supplied : Request.Variables}
  {t : Task} {prepared : Prepared}

theorem readsOrWrites_of_planOf {plan : Mutation.Plan}
    (h : planOf compiler document supplied t = .ok plan) :
    ∀ n ∈ plan.nodes, ReadsOrWrites n.sql := by
  rw [planOf] at h
  split at h
  · obtain ⟨_, _, h⟩ := bind_eq_ok.mp h
    obtain ⟨_, _, h⟩ := bind_eq_ok.mp h
    exact Mutation.readsOrWrites_of_planInsertSelect h
  · exact Mutation.readsOrWrites_of_plan h

/-- Unless it is raw, a prepared field sends statements that read or write rows. -/
theorem readsOrWrites_of_prepare (h : prepare compiler document supplied t = .ok prepared) :
    (∀ q, prepared = .query q → ReadsOrWrites q.sql) ∧
      ∀ plan own, prepared = .write plan own → ∀ n ∈ plan.nodes, ReadsOrWrites n.sql := by
  rcases prepare_cases h with ⟨_, _, rfl, -⟩ | ⟨q, rfl, hquery⟩ | ⟨plan, own, rfl, hplan⟩
  · exact ⟨nofun, nofun⟩
  · refine ⟨?_, nofun⟩
    rintro _ ⟨⟩
    exact Query.readsOrWrites_compileWith hquery
  · refine ⟨nofun, ?_⟩
    rintro _ _ ⟨⟩
    exact readsOrWrites_of_planOf hplan

end Engine

end SqlGateway
