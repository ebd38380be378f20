import SqlGateway.Proofs.Mutation.Decisions

/-!
# Declared filters

A declared rule may compare a column with a variable of the request. What the condition of a
statement then says depends on the value of the variable: a scalar is what the column must equal, a
null says nothing, and an object is read as a filter of its own below the column. A variable without
a value, and one that is a list, let the statement fail.
-/
namespace SqlGateway

open Query
open Request (Field Variables)
open Schema (Registry)

namespace Rules

theorem mem_of_substituteFields {vars : Variables} {fields out : Object}
    (h : substituteFields vars fields = .ok out) {field : String × Json} (hmem : field ∈ fields) :
    ∃ value, substitute vars field.2 = .ok value ∧ (field.1, value) ∈ out := by
  induction fields generalizing out with
  | nil => cases hmem
  | cons first rest ih =>
      obtain ⟨value, hvalue, h⟩ := bind_eq_ok.mp h
      obtain ⟨others, hothers, h⟩ := bind_eq_ok.mp h
      obtain rfl := pure_eq_ok.mp h
      rcases List.mem_cons.mp hmem with rfl | hmem
      · exact ⟨value, hvalue, List.mem_cons_self⟩
      · obtain ⟨value', hvalue', hout⟩ := ih hothers hmem
        exact ⟨value', hvalue', List.mem_cons_of_mem _ hout⟩

theorem get?_of_substitute {vars : Variables} {s name : String} {a : Json}
    (h : substitute vars (.text s) = .ok a) (hname : variableOf? s = some name) :
    vars.get? name = some a := by
  simp only [substitute, hname] at h
  cases ha : vars.get? name with
  | none =>
      rw [ha] at h
      cases h
  | some value =>
      rw [ha] at h
      rw [Except.ok.inj h]

end Rules

/-- A key of a filter that names a column: it may stand in a statement, and it is no connective and
no constant. -/
structure IsColumnKey (key : String) : Prop where
  safe : Name.isSafe key = true
  connective : connectiveOf? key = none
  constant : constantOf? key = none

def IsScalar : Json → Prop
  | .bool _ | .int _ | .float _ | .text _ => True
  | _ => False

namespace IsColumnKey
variable {context : FilterContext} {key : String}

theorem isOperator_eq_false (h : IsColumnKey key) : Condition.isOperator key = false := by
  have hsafe := h.safe
  unfold Condition.isOperator
  unfold Name.isSafe Name.isSafeChars at hsafe
  cases hcs : key.toList with
  | nil => rfl
  | cons c rest =>
      refine beq_eq_false_iff_ne.mpr ?_
      rintro ⟨⟩
      rw [hcs, Name.segments, if_neg (by decide)] at hsafe
      split at hsafe <;> simp [Name.isSafeSegment, Name.isHeadChar] at hsafe

theorem entryReading_eq (h : IsColumnKey key) {a : Json} (ha : IsScalar a) :
    entryReading context [] key a = some (.comparison
      (.relation (.word (Name.qualify context.table key)) "=" (.ofValue context a))) := by
  have hleft : leftSide context.table [key] = .word (Name.qualify context.table key) := by
    simp [leftSide, h.constant, pathOf]
  cases a with
  | bool _ | int _ | float _ | text _ => simp [entryReading, h.isOperator_eq_false, hleft]
  | null | list _ | object _ => cases ha

theorem asList?_eq_none (h : IsColumnKey key) {a : Json} {c? : Option Condition}
    (hread : Condition.readField context none key a = .ok c?) : a.asList? = none := by
  cases a with
  | list items =>
      simp [Condition.readField, connective?_eq, h.connective, h.isOperator_eq_false] at hread
  | _ => rfl

end IsColumnKey

section Entries
variable {context : FilterContext} {fields : Object} {key : String} {a : Json}

theorem readField_of_mem {subject : Option Subject} {cs : List Condition}
    (h : Condition.readFields context subject fields = .ok cs) (hmem : (key, a) ∈ fields) :
    ∃ c?, Condition.readField context subject key a = .ok c? := by
  induction fields generalizing cs with
  | nil => cases hmem
  | cons field rest ih =>
      obtain ⟨k, v⟩ := field
      obtain ⟨first, hfirst, h⟩ := bind_eq_ok.mp h
      obtain ⟨others, hothers, _⟩ := bind_eq_ok.mp h
      rcases List.mem_cons.mp hmem with heq | hmem
      · obtain ⟨rfl, rfl⟩ := Prod.mk.inj heq
        exact ⟨first, hfirst⟩
      · exact ih hothers hmem

theorem mem_entryReadings {keys : List String} (hmem : (key, a) ∈ fields) {f : Formula}
    (hf : entryReading context keys key a = some f) : f ∈ entryReadings context keys fields := by
  induction fields with
  | nil => cases hmem
  | cons field rest ih =>
      obtain ⟨k, v⟩ := field
      rw [entryReadings, List.mem_append]
      rcases List.mem_cons.mp hmem with heq | hmem
      · obtain ⟨rfl, rfl⟩ := Prod.mk.inj heq
        exact .inl (by simp [hf])
      · exact .inr (ih hmem)

/-- The formula of an object says what each of its entries says, at the top. -/
theorem conjuncts_reading_object {keys : List String} (hmem : (key, a) ∈ fields) {f : Formula}
    (hf : entryReading context keys key a = some f) :
    ∃ g, reading context keys (.object fields) = some g ∧ f.conjuncts ⊆ g.conjuncts := by
  have hentry := mem_entryReadings hmem hf
  have hne : (entryReadings context keys fields).isEmpty = false := by
    simpa using List.ne_nil_of_mem hentry
  refine ⟨_, by simp only [reading, joinedOf?, hne]; rfl, fun part hpart => ?_⟩
  rw [Formula.conjuncts, Formula.parts_join]
  exact List.mem_flatMap.mpr ⟨f, hentry, hpart⟩

end Entries

/-- The condition of a statement that reads, updates or deletes rows of a table. -/
inductive Touches (rules : Rules) (schema : Registry) (dialect : Dialect) (vars : Variables) :
    (table : String) → Option String → Prop
  | read {limit : Int} {limited : Bool} {f : Field} {q : CompiledQuery} {table : String} :
      Compiler.compileWith ⟨schema, dialect, rules, limit⟩ limited vars f = .ok q →
      Compiler.Reads f table → Touches rules schema dialect vars table q.filter
  | write {f : Field} {plan : Mutation.Plan} {n : Mutation.WriteNode} :
      Mutation.Planner.plan ⟨schema, dialect, rules⟩ vars f = .ok plan → n ∈ plan.nodes →
      n.kind = .update ∨ n.kind = .delete → Touches rules schema dialect vars n.table n.filter

section Touches
variable {rules : Rules} {schema : Registry} {dialect : Dialect} {vars : Variables} {table : String}
  {condition : Option String}

theorem Touches.heeded (h : Touches rules schema dialect vars table condition) :
    Heeded rules schema vars ⟨dialect, table, false⟩ condition := by
  cases h with
  | read hq hreads => exact Compiler.heeded_of_compileWith hq hreads
  | write hplan hmem hkind =>
      exact ((Mutation.Planner.decided_of_plan hplan _ hmem).1.restricted hkind).heeded

/-- The clause of a declared filter spells the filter with the variables put in. -/
theorem compile_of_ruleClause {context : FilterContext} {clause : Option String} {filter : Json}
    (hsecurity : rules.security = Rules.declarative.security)
    (hdeny : Rules.part? (schema.securityRules.get? context.table) "deny" = none)
    (hwhere : Rules.part? (schema.securityRules.get? context.table) "where" = some filter)
    (h : RuleClause rules schema vars context clause) :
    ∃ tree, Rules.substitute vars filter = .ok tree ∧
      Condition.compile context tree = .ok clause := by
  obtain ⟨d, hd, h⟩ := h
  simp only [hsecurity, Rules.declarative, Rules.declarativeSecurity, hdeny, hwhere] at hd
  obtain ⟨tree, htree, hd⟩ := bind_eq_ok.mp hd
  obtain rfl := pure_eq_ok.mp hd
  exact ⟨tree, htree, h⟩

/-- Of a column that a declared rule compares with a variable, a condition says what the value of
the variable says as a filter: that the column equals it, if it is a scalar. A variable that lacks a
value, or has a list for one, leaves no condition and no statement. -/
theorem declared_filter_holds_scalars {fields : Object} {column s name : String}
    (hsecurity : rules.security = Rules.declarative.security)
    (hdeny : Rules.part? (schema.securityRules.get? table) "deny" = none)
    (hwhere : Rules.part? (schema.securityRules.get? table) "where" = some (.object fields))
    (hentry : (column, .text s) ∈ fields) (hname : Rules.variableOf? s = some name)
    (hcolumn : IsColumnKey column) (htouches : Touches rules schema dialect vars table condition) :
    let context : FilterContext := ⟨dialect, table, false⟩
    ∃ a tree clause, vars.get? name = some a ∧ a.asList? = none ∧
      Rules.substitute vars (.object fields) = .ok tree ∧
      Option.Rel (Says dialect) clause (reading context [] tree) ∧
      (∀ text ∈ clause, ∃ whole ∈ condition, Keeps dialect whole text) ∧
      (IsScalar a → ∃ whole ∈ condition, ∃ f, Says dialect whole f ∧
        .comparison (.relation (.word (Name.qualify table column)) "=" (.ofValue context a)) ∈
          f.conjuncts) := by
  intro context
  obtain ⟨clause, hclause, hconjunct⟩ := htouches.heeded
  obtain ⟨tree, htree, hcompile⟩ := compile_of_ruleClause hsecurity hdeny hwhere hclause
  obtain ⟨out, hout, hobject⟩ := bind_eq_ok.mp htree
  obtain rfl := pure_eq_ok.mp hobject
  obtain ⟨a, ha, hmem⟩ := Rules.mem_of_substituteFields hout hentry
  have ha := Rules.get?_of_substitute ha hname
  have hphrased := phrased_compile hcompile
  have hsays : Option.Rel (Says dialect) clause (reading context [] (.object out)) := by
    generalize reading context [] (.object out) = f at hphrased ⊢
    cases hphrased with
    | none => exact .none
    | some htext => exact .some htext.says
  refine ⟨a, .object out, clause, ha, ?_, htree, hsays, hconjunct, fun hscalar => ?_⟩
  · obtain ⟨c?, hc, _⟩ := bind_eq_ok.mp hcompile
    obtain ⟨_, _, hread⟩ := bind_eq_ok.mp hc
    obtain ⟨cs, hcs, _⟩ := bind_eq_ok.mp hread
    obtain ⟨_, hfield⟩ := readField_of_mem hcs hmem
    exact hcolumn.asList?_eq_none hfield
  · have hentry : entryReading context [] column a = _ := hcolumn.entryReading_eq hscalar
    obtain ⟨g, hg, hsub⟩ := conjuncts_reading_object hmem hentry
    rw [hg] at hsays
    cases hsays with
    | @some text _ htext =>
        obtain ⟨whole, hwhole, hconjunct⟩ := hconjunct text rfl
        obtain ⟨f, hf, hgf⟩ := hconjunct.conjuncts_subset htext.clause
        exact ⟨whole, hwhole, f, hf, hgf (hsub (List.mem_singleton.mpr rfl))⟩

/-- A plan of a single write touches the table of it. -/
theorem touches_of_plan {f : Field} {kind : Mutation.Kind} (hkind : kind = .update ∨ kind = .delete)
    (h : (Mutation.Planner.plan ⟨schema, dialect, rules⟩ vars f).toOption.map
      (fun plan => plan.nodes.map fun n => (n.table, n.kind, n.filter)) =
        some [(table, kind, condition)]) : Touches rules schema dialect vars table condition := by
  obtain ⟨plan, hplan, hnodes⟩ := Option.map_eq_some_iff.mp h
  obtain ⟨n, hn, hparts⟩ := List.mem_map.mp (hnodes ▸ List.mem_singleton.mpr rfl)
  obtain ⟨rfl, hrest⟩ := Prod.mk.inj hparts
  obtain ⟨rfl, rfl⟩ := Prod.mk.inj hrest
  exact .write (eq_ok_of_toOption hplan) hn hkind

end Touches

/-- The shop, where everybody sees and changes only orders of their own. -/
def ownOrders : Registry := { Shop.registry with
  securityRules := [("orders", .object [("where", .object [("user_id", .text "$user")])])] }

def deleteOrders : Field := ⟨none, "delete_orders", [], [], [Shop.leaf "affected_rows"]⟩

theorem declared_filter_holds_seven :
    Touches .declarative ownOrders .postgres [("user", .int 7)] "orders"
      (some "orders.user_id = 7") ∧ ∃ f, clauseIn? .postgres "orders.user_id = 7" = some f ∧
        Formula.comparison (.relation (.word "orders.user_id") "=" (.word "7")) ∈ f.conjuncts := by
  have htouches : Touches .declarative ownOrders .postgres [("user", .int 7)] "orders"
      (some "orders.user_id = 7") :=
    touches_of_plan (f := deleteOrders) (.inr rfl) (by decide +kernel)
  have hcolumn : IsColumnKey "user_id" := ⟨by decide, by decide, by decide⟩
  obtain ⟨a, _, _, ha, _, _, _, _, hholds⟩ := declared_filter_holds_scalars
    rfl rfl rfl (List.mem_singleton.mpr rfl) rfl hcolumn htouches
  obtain rfl : Json.int 7 = a := Option.some.inj ha
  obtain ⟨_, ⟨⟩, f, hf, hmem⟩ := hholds trivial
  exact ⟨htouches, f, hf.clauseIn (readBack_of_ne_mysql (by decide) _), hmem⟩

/-- The shop, where an order is seen and changed by those who know its number. -/
def numberedOrders : Registry := { Shop.registry with
  securityRules :=
    [("orders", .object [("where", .object [("user_id", .text "$user"), ("id", .text "$id")])])] }

/-- A null in place of the user lifts the filter, and an object turns it into another comparison.
For MySQL the backslash that stands for a user joins the two literals, and the rest is a comparison
of its own and a comment. -/
theorem declared_filter_lifted :
    Touches .declarative ownOrders .postgres [("user", .null)] "orders" none ∧
      Touches .declarative ownOrders .postgres [("user", .object [("$ne", .int 0)])] "orders"
        (some "orders.user_id <> 0") ∧
      formula? "orders.user_id <> 0" =
        some (.comparison (.relation (.word "orders.user_id") "<>" (.word "0"))) ∧
      let seen := "orders.user_id = '\\' AND orders.id = ' OR 1=1"
      Touches .declarative numberedOrders .mysql [("user", .text "\\"), ("id", .text " OR 1=1 -- ")]
        "orders" (some (seen ++ " -- '")) ∧
      lexemes .mysql seen.toList =
        some [.word "orders.user_id", .word "=", .literal "' AND orders.id = ",
        .word "OR", .word "1=1"] ∧
      clauseIn? .mysql (seen ++ " -- '") = none :=
  ⟨touches_of_plan (f := deleteOrders) (.inr rfl) (by decide +kernel),
    touches_of_plan (f := deleteOrders) (.inr rfl) (by decide +kernel), by rfl,
    touches_of_plan (f := deleteOrders) (.inr rfl) (by decide +kernel), by
      decide +kernel, by decide +kernel⟩

end SqlGateway
