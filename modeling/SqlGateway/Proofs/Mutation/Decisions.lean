import SqlGateway.Proofs.Mutation.Layout
import SqlGateway.Proofs.Query.Decisions
import SqlGateway.Proofs.Shop

/-!
# Security decisions on every table

No statement touches a table that the security role denies. A read, an update and a delete hold the
clause of the role's filter as a conjunct of their condition; of what the role may say, an insert
heeds only a refusal.
-/
namespace SqlGateway.Mutation

open Query (FilterClause RuleClause IsConjunct Keeps Heeded)
open Request (Field Variables)

namespace Planner

variable {p : Planner} {vars : Variables}

/-- The security role has a decision on a table, and it is no refusal. -/
def Admits (p : Planner) (vars : Variables) (table : String) : Prop :=
  ∃ d, p.rules.security table (p.schema.securityRules.get? table) vars = .ok d ∧
    ∀ reason, d ≠ .deny reason

theorem admits_of_checkWrite {kind : Kind} {table : String}
    (h : p.checkWrite vars kind table = .ok ()) : p.Admits vars table := by
  obtain ⟨d, hd, h⟩ := bind_eq_ok.mp h
  refine ⟨d, Query.asRole_eq_ok hd, ?_⟩
  rintro reason rfl
  cases h

theorem admits_of_ruleClause {context : Query.FilterContext} {clause : Option String}
    (h : RuleClause p.rules p.schema vars context clause) : p.Admits vars context.table := by
  obtain ⟨d, hd, h⟩ := h
  refine ⟨d, hd, ?_⟩
  rintro reason rfl
  exact h

/-- The condition of a write is the caller's clause and the clause of the security role, as far as
there are any, and nothing else. -/
def Restricted (p : Planner) (vars : Variables) (table : String) (filter : Option Json)
    (condition : Option String) : Prop :=
  ∃ own ruled, FilterClause ⟨p.dialect, table, false⟩ filter own ∧
    RuleClause p.rules p.schema vars ⟨p.dialect, table, false⟩ ruled ∧
    let clauses := own.toList ++ ruled.toList
    condition = (if clauses.isEmpty then none else some (" AND ".intercalate clauses)) ∧
    ∀ text ∈ clauses, ∃ whole ∈ condition, Keeps p.dialect whole text

theorem restricted_of_writeFilter {kind : Kind} {table : String} {filter : Option Json}
    {condition : Option String} (h : p.writeFilter vars kind table filter = .ok condition) :
    p.Restricted vars table filter condition := by
  unfold writeFilter at h
  extract_lets context rest at h
  have hown : ∃ own, FilterClause context filter own ∧ rest own = .ok condition := by
    cases filter with
    | none => exact ⟨none, rfl, h⟩
    | some tree =>
        obtain ⟨own, hown, h⟩ := bind_eq_ok.mp h
        exact ⟨own, hown, h⟩
  obtain ⟨own, hown, hrest⟩ := hown
  obtain ⟨d, hd, hrest⟩ := bind_eq_ok.mp hrest
  have hd := Query.asRole_eq_ok hd
  have hruled : ∃ ruled, RuleClause p.rules p.schema vars context ruled ∧
      condition = (if (own.toList ++ ruled.toList).isEmpty then none
        else some (" AND ".intercalate (own.toList ++ ruled.toList))) := by
    cases d with
    | allow => exact ⟨none, ⟨_, hd, rfl⟩, (pure_eq_ok.mp hrest).symm⟩
    | deny reason => cases hrest
    | filter tree =>
        obtain ⟨ruled, hruled, hrest⟩ := bind_eq_ok.mp hrest
        exact ⟨ruled, ⟨_, hd, hruled⟩, (pure_eq_ok.mp hrest).symm⟩
  obtain ⟨ruled, hruled, rfl⟩ := hruled
  have hphrased := Query.exists_phrased_of_mem_append hown hruled
  exact ⟨own, ruled, hown, hruled, rfl, Query.exists_keeps hphrased rfl⟩

/-- A property of writes that leaves open what is filled in while a plan is made. -/
def Lasting (Q : WriteNode → Prop) : Prop :=
  ∀ n returning children sql, Q n → Q { n with returning, children, sql }

/-- A property that the write of every nested document has, where the security role admits it. -/
def OfNested (p : Planner) (vars : Variables) (Q : WriteNode → Prop) : Prop :=
  ∀ (number : Nat) (projection : Projection) (link : ParentLink) (group : ChildGroup)
    (content : Object)
    (child : SplitDocument), p.Admits vars group.table →
    p.split vars group.table content = .ok child →
    Q (childWrite p number projection link group child)

section Lasting
variable {Q : WriteNode → Prop} {nodes : List WriteNode}

theorem forall_mem_modify {change : WriteNode → WriteNode} (hchange : ∀ n, Q n → Q (change n))
    (h : ∀ n ∈ nodes, Q n) (id : Nat) : ∀ n ∈ nodes.modify id change, Q n := by
  intro n hn
  obtain ⟨i, hi⟩ := List.mem_iff_getElem?.mp hn
  rw [List.getElem?_modify] at hi
  obtain ⟨m, hm, rfl⟩ := Option.map_eq_some_iff.mp hi
  have hQ := h m (List.mem_of_getElem? hm)
  split
  · exact hchange m hQ
  · exact hQ

theorem forall_mem_finish (hQ : Lasting Q) (h : ∀ n ∈ nodes, Q n) (id : Nat) :
    ∀ n ∈ p.finish nodes id, Q n :=
  forall_mem_modify (fun n hn => hQ n n.returning n.children _ hn) h id

/-- Nested documents are inserted only where the security role admits it. -/
theorem forall_mem_attachGroup (hQ : Lasting Q) (hnested : p.OfNested vars Q) {document depth : Nat}
    {parent row : Nat} {group : ChildGroup} {nodes' : List WriteNode}
    (hnodes : p.attachGroup vars document depth nodes parent row group = .ok nodes')
    (h : ∀ n ∈ nodes, Q n) : ∀ n ∈ nodes', Q n := by
  induction depth generalizing nodes nodes' parent row group with
  | zero => cases hnodes
  | succ depth ih =>
      obtain ⟨_, hadmits, hnodes⟩ := bind_eq_ok.mp hnodes
      have hadmits := admits_of_checkWrite hadmits
      refine foldlM_ok (motive := fun nodes => ∀ n ∈ nodes, Q n) ?_ hnodes h
      intro before after content _ hbefore hafter
      obtain ⟨child, attached, hchild, hattached, rfl⟩ := attachDocument_ok hafter
      refine forall_mem_finish hQ (foldlM_ok (motive := fun nodes => ∀ n ∈ nodes, Q n)
        ?_ hattached ?_) _
      · exact fun before after group _ hbefore hafter => ih hafter hbefore
      · refine List.forall_mem_append.mpr ⟨forall_mem_modify ?_ hbefore _, ?_⟩
        · exact fun n hn => hQ n _ _ n.sql hn
        · exact List.forall_mem_singleton.mpr (hnested _ _ _ _ content child hadmits hchild)

theorem forall_mem_attachRows (hQ : Lasting Q) (hnested : p.OfNested vars Q) {depth root : Nat}
    {rows : List (Nat × SplitDocument)} {nodes' : List WriteNode}
    (hnodes : p.attachRows vars depth root nodes rows = .ok nodes') (h : ∀ n ∈ nodes, Q n) :
    ∀ n ∈ nodes', Q n := by
  refine foldlM_ok (motive := fun nodes => ∀ n ∈ nodes, Q n) ?_ hnodes h
  intro before after row _ hbefore hafter
  refine foldlM_ok (motive := fun nodes => ∀ n ∈ nodes, Q n) ?_ hafter hbefore
  exact fun before after group _ hbefore hafter => forall_mem_attachGroup hQ hnested hafter hbefore

/-- What the root has and the write of every nested document, every write of the finished plan
has. -/
theorem forall_mem_finish_attachRows (hQ : Lasting Q) (hnested : p.OfNested vars Q) {depth : Nat}
    {root : WriteNode} {rows : List (Nat × SplitDocument)} (hroot : Q root)
    (h : p.attachRows vars depth 0 [root] rows = .ok nodes) : ∀ n ∈ p.finish nodes 0, Q n :=
  forall_mem_finish hQ (forall_mem_attachRows hQ hnested h (List.forall_mem_singleton.mpr hroot)) 0

end Lasting

/-- A write is admitted, and the condition of an update or a delete is restricted and stands in its
statement. -/
structure Decided (p : Planner) (vars : Variables) (filter : Option Json) (n : WriteNode) :
    Prop where
  admits : p.Admits vars n.table
  restricted : n.kind = .update ∨ n.kind = .delete → p.Restricted vars n.table filter n.filter

theorem lasting_decided (filter : Option Json) : Lasting (p.Decided vars filter) :=
  fun _ _ _ _ hn => ⟨hn.admits, hn.restricted⟩

theorem decided_of_insert {filter : Option Json} {n : WriteNode} (hkind : n.kind = .insert)
    (h : p.Admits vars n.table) : p.Decided vars filter n := by
  refine ⟨h, ?_⟩
  rw [hkind]
  rintro (hkind | hkind) <;> cases hkind

theorem Restricted.heeded {table : String} {filter : Option Json} {condition : Option String}
    (h : p.Restricted vars table filter condition) :
    Heeded p.rules p.schema vars ⟨p.dialect, table, false⟩ condition := by
  obtain ⟨own, ruled, _, hruled, _, hconjuncts⟩ := h
  refine ⟨ruled, hruled, fun text htext => hconjuncts text ?_⟩
  exact List.mem_append_right _ (Option.mem_toList.mpr htext)

theorem Restricted.admits {table : String} {filter : Option Json} {condition : Option String}
    (h : p.Restricted vars table filter condition) : p.Admits vars table := by
  obtain ⟨_, _, _, hruled, _⟩ := h
  exact admits_of_ruleClause hruled

theorem decided_of_attachRows {filter : Option Json} {depth : Nat} {root : WriteNode}
    {rows : List (Nat × SplitDocument)} {nodes : List WriteNode}
    (hroot : p.Decided vars filter root) (h : p.attachRows vars depth 0 [root] rows = .ok nodes) :
    ∀ n ∈ p.finish nodes 0, p.Decided vars filter n :=
  forall_mem_finish_attachRows (lasting_decided filter)
    (fun _ _ _ _ _ _ hadmits _ => decided_of_insert rfl hadmits) hroot h

section Plans
variable {table : String} {docs : Json} {filter : Option Json} {projection : Projection}
  {plan : Plan}

theorem decided_of_planInsert (h : p.planInsert vars table docs projection = .ok plan) :
    ∀ n ∈ plan.nodes, p.Decided vars filter n := by
  obtain ⟨_, _, h⟩ := bind_eq_ok.mp h
  obtain ⟨_, hadmits, h⟩ := bind_eq_ok.mp h
  obtain ⟨_, _, h⟩ := bind_eq_ok.mp h
  extract_lets columns root rest at h
  split at h
  · cases h
  · obtain ⟨nodes, hnodes, h⟩ := bind_eq_ok.mp h
    obtain rfl := pure_eq_ok.mp h
    exact decided_of_attachRows (decided_of_insert rfl (admits_of_checkWrite hadmits)) hnodes

theorem decided_of_planUpdate (h : p.planUpdate vars table docs filter projection = .ok plan) :
    ∀ n ∈ plan.nodes, p.Decided vars filter n := by
  obtain ⟨_, _, h⟩ := bind_eq_ok.mp h
  obtain ⟨condition, hcondition, h⟩ := bind_eq_ok.mp h
  have hrestricted := restricted_of_writeFilter hcondition
  obtain ⟨_, _, h⟩ := bind_eq_ok.mp h
  extract_lets root rest at h
  split at h
  · cases h
  · obtain ⟨nodes, hnodes, h⟩ := bind_eq_ok.mp h
    obtain rfl := pure_eq_ok.mp h
    have hroot : p.Decided vars filter { root with filter := condition } :=
      ⟨hrestricted.admits, fun _ => hrestricted⟩
    exact decided_of_attachRows hroot hnodes

theorem decided_of_planDelete (h : p.planDelete vars table filter projection = .ok plan) :
    ∀ n ∈ plan.nodes, p.Decided vars filter n := by
  obtain ⟨condition, hcondition, h⟩ := bind_eq_ok.mp h
  have hrestricted := restricted_of_writeFilter hcondition
  obtain rfl := pure_eq_ok.mp h
  exact forall_mem_finish (lasting_decided filter)
    (List.forall_mem_singleton.mpr ⟨hrestricted.admits, fun _ => hrestricted⟩) 0

theorem sql_eq_of_laid {documents : List (List SplitDocument)} {nodes : List WriteNode}
    (h : Laid p vars documents nodes []) : ∀ n ∈ nodes, n.sql = p.statementOf n := by
  intro n hn
  obtain ⟨id, hid⟩ := List.mem_iff_getElem?.mp hn
  exact h.sql id n hid List.not_mem_nil

theorem decided_of_plan {f : Field} (h : p.plan vars f = .ok plan) :
    ∀ n ∈ plan.nodes, p.Decided vars (f.resolved vars "where") n ∧ n.sql = p.statementOf n := by
  obtain ⟨⟨kind, table⟩, _, h⟩ := bind_eq_ok.mp h
  cases kind with
  | insert =>
      obtain ⟨docs, _, h⟩ := bind_eq_ok.mp h
      obtain ⟨documents, hplanned⟩ := planned_of_planInsert h
      exact fun n hn => ⟨decided_of_planInsert h n hn, sql_eq_of_laid hplanned.laid n hn⟩
  | update =>
      obtain ⟨docs, _, h⟩ := bind_eq_ok.mp h
      obtain ⟨documents, hplanned⟩ := planned_of_planUpdate h
      exact fun n hn => ⟨decided_of_planUpdate h n hn, sql_eq_of_laid hplanned.laid n hn⟩
  | delete =>
      refine fun n hn => ⟨decided_of_planDelete h n hn, ?_⟩
      obtain ⟨_, _, h⟩ := bind_eq_ok.mp h
      obtain rfl := pure_eq_ok.mp h
      obtain rfl := List.mem_singleton.mp hn
      rfl
  | insertSelect => cases h

theorem decided_of_planInsertSelect {f : Field} {query : Query.CompiledQuery}
    (h : p.planInsertSelect vars f query = .ok plan) :
    ∀ n ∈ plan.nodes, p.Decided vars (f.resolved vars "where") n := by
  obtain ⟨⟨kind, table⟩, _, h⟩ := bind_eq_ok.mp h
  dsimp only at h
  split at h
  · cases h
  · rename_i hkind
    obtain rfl := not_not.mp hkind
    split at h
    · cases h
    · obtain ⟨_, hadmits, h⟩ := bind_eq_ok.mp h
      obtain ⟨_, _, h⟩ := bind_eq_ok.mp h
      obtain rfl := pure_eq_ok.mp h
      refine List.forall_mem_singleton.mpr ⟨admits_of_checkWrite hadmits, ?_⟩
      rintro (hkind | hkind) <;> cases hkind

end Plans

end Planner

/-- Whatever the security role decides, it is heeded. A compiled query reads no table that is
denied, and the clause of every decision on its main table and on a joined one is a conjunct of its
condition. No write of a plan is to a table that is denied, and the condition of an update or a
delete is the caller's clause and the clause of the decision. -/
theorem security_reaches_every_table (c : Query.Compiler) (p : Planner) (vars : Variables)
    (f : Field) : (∀ limited q, c.compileWith limited vars f = .ok q → c.Spelled q ∧
      (∀ join ∈ q.joins, ∃ (kind : Schema.JoinKind) (table condition : String),
        Query.Compiler.Reads f table ∧ join = s!"{kind.sql} {table} ON {condition}") ∧
      ∀ table, Query.Compiler.Reads f table →
        Heeded c.rules c.schema vars (c.filterContext table) q.filter) ∧
    (∀ plan, p.plan vars f = .ok plan → ∀ n ∈ plan.nodes,
      p.Decided vars (f.resolved vars "where") n ∧ n.sql = p.statementOf n) ∧
    ∀ query plan, p.planInsertSelect vars f query = .ok plan → ∀ n ∈ plan.nodes,
      p.Decided vars (f.resolved vars "where") n := by
  refine ⟨fun limited q h => ?_, fun plan h => Planner.decided_of_plan h,
    fun query plan h => Planner.decided_of_planInsertSelect h⟩
  obtain ⟨_, _, _, hq⟩ := Query.Compiler.exists_compiled h
  exact ⟨hq.spelled, fun join hjoin => Query.Compiler.reads_of_join h hjoin,
    fun table ht => Query.Compiler.heeded_of_compileWith h ht⟩

/-- In the shop, users are denied to writers, and of the orders only the small ones may be
touched. -/
def smallOrders : Rules := { Rules.passThrough with
  security := fun table _ vars =>
    if table = "orders" then
      .ok (.filter (.object [("or", .list [.object [("total", .object [("$lt", .int 9)])],
        .object [("total", .object [("$null", .bool true)])]])]))
    else if (vars.get? "writes").isSome then .ok (.deny "read only")
    else .ok .allow }

/-- The users with their orders, or an update of an order, by the name of the field. -/
def ordersField (name : String) : Field :=
  ⟨none, name, [⟨"docs", .object [("user_id", .int 4)]⟩, ⟨"where", .object [("id", .int 1)]⟩], [],
    [Shop.leaf "id", Shop.nested "orders" [Shop.leaf "total"]]⟩

theorem security_reaches_orders :
    let c : Query.Compiler := ⟨Shop.registry, .postgres, smallOrders, 1000⟩
    let p : Planner := ⟨Shop.registry, .postgres, smallOrders⟩
    let small := "(orders.total < 9 OR orders.total IS NULL)"
    (∃ q, c.compileWith true [] (ordersField "users") = .ok q ∧
      q.filter = some ("users.id = 1 AND " ++ small) ∧
      Heeded smallOrders Shop.registry [] (c.filterContext "orders") q.filter) ∧
    IsConjunct .postgres ("users.id = 1 AND " ++ small) small ∧
    (∃ plan, p.plan [("writes", .bool true)] (ordersField "update_orders") = .ok plan ∧
      plan.nodes.map (·.filter) = [some ("orders.id = 1 AND " ++ small)] ∧
      ∀ n ∈ plan.nodes, p.Admits [("writes", .bool true)] n.table) ∧
    ∃ query plan, p.planInsertSelect [] (ordersField "insertselect_orders") query = .ok plan ∧
      ∀ n ∈ plan.nodes, p.Admits [] n.table := by
  intro c p small
  obtain ⟨q, hq⟩ :=
    exists_eq_ok (x := c.compileWith true [] (ordersField "users")) (by decide +kernel)
  have hfilter : q.filter = some ("users.id = 1 AND " ++ small) :=
    part_eq (g := (·.filter)) hq (by decide +kernel)
  have hheeded : Heeded smallOrders Shop.registry [] (c.filterContext "orders") q.filter := by
    obtain ⟨_, _, hheeded⟩ :=
      (security_reaches_every_table c p [] (ordersField "users")).1 true q hq
    refine hheeded "orders" (.inr ?_)
    exact Query.Reaches.here (f := Shop.nested "orders" [Shop.leaf "total"])
      (by simp [ordersField]) rfl
  refine ⟨⟨q, hq, hfilter, hheeded⟩, ?_, ?_, ?_⟩
  · obtain ⟨clause, hruled, hkeeps⟩ := hheeded
    have hsmall : RuleClause smallOrders Shop.registry [] (c.filterContext "orders") (some small) :=
      ⟨_, rfl, eq_ok_of_toOption (by decide +kernel)⟩
    obtain rfl := hruled.unique hsmall
    obtain ⟨whole, hwhole, hkept⟩ := hkeeps small rfl
    obtain rfl : "users.id = 1 AND " ++ small = whole := Option.some.inj (hfilter.symm.trans hwhole)
    exact hkept.isConjunct (Query.readBack_of_ne_mysql (by decide) _)
  · obtain ⟨plan, hplan⟩ := exists_eq_ok
      (x := p.plan [("writes", .bool true)] (ordersField "update_orders")) (by decide +kernel)
    have hdecided := (security_reaches_every_table c p [("writes", .bool true)]
      (ordersField "update_orders")).2.1 plan hplan
    refine ⟨plan, hplan, part_eq (g := fun plan : Plan => plan.nodes.map (·.filter)) hplan
      (by decide +kernel), fun n hn => (hdecided n hn).1.admits⟩
  · obtain ⟨plan, h⟩ := exists_eq_ok (x := do
      let query ← c.compileWith true [] (Shop.nested "users" [Shop.leaf "id"])
      p.planInsertSelect [] (ordersField "insertselect_orders") query) (by decide +kernel)
    obtain ⟨query, _, hplan⟩ := bind_eq_ok.mp h
    have hdecided := (security_reaches_every_table c p [] (ordersField "insertselect_orders")).2.2
      query plan hplan
    exact ⟨query, plan, hplan, fun n hn => (hdecided n hn).admits⟩

/-- Everybody is user 7. -/
def onlySeventh : Rules := { Rules.passThrough with
  security := fun _ _ _ => .ok (.filter (.object [("id", .int 7)])) }

/-- Users by a name that holds a backslash, a quote, a connective and a comment. -/
def hiddenUsers : Field :=
  ⟨none, "users", [⟨"where", .object [("name", .text "\\' OR 1=1 -- ")]⟩], [], [Shop.leaf "id"]⟩

/-- For MySQL the backslash escapes the first of the doubled quotes, and the second ends the
literal. So the connective stands outside of it, and the clause of the security role in a
comment. -/
theorem backslash_hides_security_clause :
    let c : Query.Compiler := ⟨Shop.registry, .mysql, onlySeventh, 1000⟩
    let seen := "users.name = '\\'' OR 1=1"
    let whole := seen ++ " -- ' AND users.id = 7"
    (c.compileWith true [] hiddenUsers).toOption.map (·.filter) = some (some whole) ∧
      RuleClause c.rules c.schema [] (c.filterContext "users") (some "users.id = 7") ∧
      Query.lexemes .mysql seen.toList =
        some [.word "users.name", .word "=", .literal "'", .word "OR", .word "1=1"] ∧
      Query.clauseIn? .mysql whole = none ∧ ¬IsConjunct .mysql whole "users.id = 7" := by
  intro c seen whole
  have hnone : Query.clauseIn? .mysql whole = none := by decide +kernel
  refine ⟨by decide +kernel, ⟨_, rfl, eq_ok_of_toOption (by decide +kernel)⟩, by decide +kernel,
    hnone, ?_⟩
  rintro ⟨_, _, _, _, _, hwhole⟩
  cases hnone.symm.trans hwhole

end SqlGateway.Mutation
