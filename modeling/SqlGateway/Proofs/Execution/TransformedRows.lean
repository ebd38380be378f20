import SqlGateway.Execution.Read
import SqlGateway.Proofs.Execution.ForeignKeys
import SqlGateway.Proofs.Query.Walk

/-!
# Rows behind the transforming role

A deployment changes or withholds what a read returns in one place, the transforming role. An answer
keeps to it if there are rows that were given to the role, and the answer is a rendering of what the
role makes of them: its failure is the failure of the read. The objects of a read keep to it. Flat
lines are returned before the role is asked, so that no role can change them.
-/
namespace SqlGateway.Execution

open Connection (Scripted Session)
open Query (Compiler CompiledQuery)
open Request (Field Variables)

variable {σ : Type}

/-- What the transforming role makes of rows of a table. -/
def afterRole (schema : Schema.Registry) (table : String) (given : List Json) (rules : Rules) :
    Except Error (List Json) :=
  Rules.asRole "transform" (rules.transformOutput table (schema.transformRules.get? table) given)

/-- An answer, as it depends on the rules, is a rendering of what the transforming role makes of
some rows of a table. -/
def Transformed (schema : Schema.Registry) (table : String)
    (answer : Rules → Except Error (List Json)) : Prop :=
  ∃ (given : List Json) (render : List Json → List Json),
    ∀ rules, answer rules = (afterRole schema table given rules).map render

/-- Rules under which no row is returned. -/
def withholding (e : Error) : Rules :=
  { Rules.passThrough with transformOutput := fun _ _ _ => .error e }

section Transformed
variable {schema : Schema.Registry} {table : String} {answer : Rules → Except Error (List Json)}

/-- A failure of the role is the failure of a transformed answer. -/
theorem Transformed.withheld (h : Transformed schema table answer) (e : Error) :
    answer (withholding e) = .error (Rules.failure "transform" e) := by
  obtain ⟨given, render, h⟩ := h
  exact h (withholding e)

theorem not_transformed_of_const {rows : List Json} (h : ∀ rules, answer rules = .ok rows) :
    ¬ Transformed schema table answer := by
  intro htransformed
  have hwithheld := htransformed.withheld (.invalid "")
  rw [h] at hwithheld
  cases hwithheld

end Transformed

theorem csv_of_compileWith {c : Compiler} {vars : Variables} {limited : Bool} {f : Field}
    {q : CompiledQuery} (h : c.compileWith limited vars f = .ok q) :
    q.csv = f.hasDirective "csv" := by
  unfold Compiler.compileWith at h
  obtain ⟨_, _, h⟩ := bind_eq_ok.mp h
  obtain ⟨_, _, h⟩ := bind_eq_ok.mp h
  obtain ⟨_, _, h⟩ := bind_eq_ok.mp h
  obtain ⟨_, _, h⟩ := bind_eq_ok.mp h
  obtain ⟨_, _, h⟩ := bind_eq_ok.mp h
  obtain ⟨_, _, h⟩ := bind_eq_ok.mp h
  obtain ⟨w, _, h⟩ := bind_eq_ok.mp h
  by_cases hcolumns : w.columns.isEmpty = true
  · rw [if_pos hcolumns] at h
    cases h
  · rw [if_neg hcolumns] at h
    obtain rfl := pure_eq_ok.mp h
    rfl

theorem liftExcept_run {α : Type} (r : Except Error α) (s : Session σ) :
    (liftExcept r : Connection.SessionM σ α) s = (r, s) := by
  cases r <;> rfl

section Answered
variable {schema : Schema.Registry} {rules : Rules} {q : CompiledQuery} {s s' : Session σ}
  {result : ResultSet} (hanswer : Session.query q.sql [] 1 s = (.ok result, s'))
include hanswer

theorem runQuery_flat (hflat : q.csv = true) :
    runQuery schema rules q s = (.ok (flatRows result), s') := by
  rw [runQuery, Session.bind_run, hanswer]
  simp only [hflat, if_true]
  rfl

theorem runQuery_objects (hflat : q.csv = false) : runQuery schema rules q s =
    (afterRole schema q.mainTable (Assembly.objects q.slots result) rules, s') := by
  rw [runQuery, Session.bind_run, hanswer]
  simp only [hflat, Bool.false_eq_true, if_false]
  exact liftExcept_run _ s'

/-- The answer to a field is what the transforming role makes of the objects of its rows, except
under the directive that asks for flat lines: those do not depend on the role at all. -/
theorem transformed_iff {c : Compiler} {vars : Variables} {limited : Bool} {f : Field}
    (h : c.compileWith limited vars f = .ok q) :
    ((Transformed schema q.mainTable fun rules => (runQuery schema rules q s).1) ↔
      f.hasDirective "csv" = false) ∧
      (f.hasDirective "csv" = false → ∀ rules, (runQuery schema rules q s).1 =
        afterRole schema q.mainTable (Assembly.objects q.slots result) rules) ∧
      (f.hasDirective "csv" = true → ∀ rules, (runQuery schema rules q s).1 =
        .ok (flatRows result)) := by
  have hobjects : f.hasDirective "csv" = false → ∀ rules, (runQuery schema rules q s).1 =
      afterRole schema q.mainTable (Assembly.objects q.slots result) rules :=
    fun hcsv rules =>
      congrArg Prod.fst (runQuery_objects hanswer ((csv_of_compileWith h).trans hcsv))
  have hlines : f.hasDirective "csv" = true → ∀ rules, (runQuery schema rules q s).1 =
      .ok (flatRows result) :=
    fun hcsv rules => congrArg Prod.fst (runQuery_flat hanswer ((csv_of_compileWith h).trans hcsv))
  refine ⟨⟨fun htransformed => ?_, fun hcsv => ?_⟩, hobjects, hlines⟩
  · by_contra hcsv
    exact not_transformed_of_const (hlines (by simpa using hcsv)) htransformed
  · refine ⟨Assembly.objects q.slots result, id, fun rules => (hobjects hcsv rules).trans ?_⟩
    cases afterRole schema q.mainTable (Assembly.objects q.slots result) rules <;> rfl

end Answered

section Shop

/-- The names of all users. -/
def userNames : Field := Shop.nested "users" [Shop.leaf "name"]

/-- The names of all users as flat lines. -/
def userNameLines : Field := { userNames with directives := [⟨"csv", []⟩] }

/-- The answer to the names of users: one row. -/
def annsName : ResultSet := ⟨[⟨"L0~~0**name", "", .text⟩], [[.text "ann"]], 1, none⟩

theorem transformed_userNames :
    ∃ q, Shop.compiler.compileWith true [] userNames = .ok q ∧
      (Session.query q.sql [] 1 (scriptedSession .postgres [annsName])).1 = .ok annsName ∧
      Transformed Shop.registry q.mainTable fun rules =>
        (runQuery Shop.registry rules q (scriptedSession .postgres [annsName])).1 := by
  obtain ⟨q, hq⟩ :=
    exists_eq_ok (x := Shop.compiler.compileWith true [] userNames) (by decide +kernel)
  have hanswer :
    Session.query q.sql [] 1 (scriptedSession .postgres [annsName]) = (.ok annsName, _) := rfl
  exact ⟨q, hq, rfl, (transformed_iff hanswer hq).1.mpr rfl⟩

/-- The lines of a user are returned by rules under which no row is. -/
theorem lines_pass_withholding : ∃ q, Shop.compiler.compileWith true [] userNameLines = .ok q ∧
    ¬ (Transformed Shop.registry q.mainTable fun rules =>
        (runQuery Shop.registry rules q (scriptedSession .postgres [annsName])).1) ∧
      (runQuery Shop.registry (withholding (.rule "mask" "masked")) q
        (scriptedSession .postgres [annsName])).1 = .ok (flatRows annsName) ∧
      Assembly.flatLines annsName = [["name"], ["ann"]] := by
  obtain ⟨q, hq⟩ :=
    exists_eq_ok (x := Shop.compiler.compileWith true [] userNameLines) (by decide +kernel)
  have hflat : q.csv = true := csv_of_compileWith hq
  have hlines : ∀ rules, (runQuery Shop.registry rules q (scriptedSession .postgres [annsName])).1 =
      .ok (flatRows annsName) := fun rules => congrArg Prod.fst (runQuery_flat rfl hflat)
  exact ⟨q, hq, not_transformed_of_const hlines, hlines _, by decide +kernel⟩

end Shop

end SqlGateway.Execution
