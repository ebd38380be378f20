import SqlGateway.Connection.Scripted
import SqlGateway.Proofs.Execution.Trace
import SqlGateway.Proofs.Mutation.Layout
import SqlGateway.Proofs.Shop

/-!
# Foreign keys of nested writes

What the statements of nested documents bind. Every child statement binds the columns that its
document supplies and, for the other columns of the join, values of the row that its document was
nested in, taken from the answer to the parent's statement, which asked for them. Where a join names
a column twice, its first pair counts.
-/
namespace SqlGateway.Execution

open Connection (Driver Recorded Scripted Session)
open Mutation
open Request (Variables)

/-- What the statement of a nested document binds, given the rows that the parent answered with. -/
structure Binds (dialect : Dialect) (parent : Sent) (rows : List Object) (row : Nat) (w : Sent)
    (group : ChildGroup) (child : SplitDocument) : Prop where
  sql : w.node.sql = Statement.insert dialect group.table w.node.columns 1 w.node.returning
  length : w.node.parameters.length = w.node.columns.length
  values : w.node.columns.zip w.node.parameters =
    child.columns ++ (missing group.join child.columns).map fun pair =>
      (pair.2, linkedValue ((rows[row]?).getD []) pair.1)
  asked : ∀ pair ∈ missing group.join child.columns, Asks parent.node.returning pair.1
  answered : missing group.join child.columns ≠ [] → row < rows.length

/-- A relation between a child statement and what it follows: the parent's statement, the reply to
it, the row that the document was nested in, the child statement itself, and its document in its
group. -/
abbrev Binding := Sent → ResultSet → Nat → Sent → ChildGroup → SplitDocument → Prop

/-- The writes that were sent are those of a plan, up to the values of their rows. Every write below
a parent was sent after its parent had answered, and its values are bound to those of its document
and of the row that the document was nested in. -/
def Propagates (p : Planner) (vars : Variables) (table : String) (docs : Json) (plan : Plan)
    (binds : Binding) (sent : List Sent) : Prop :=
  ∃ documents, Planned p vars table docs plan documents ∧
    (∀ w ∈ sent, ∃ n, plan.nodes[w.id]? = some n ∧ w.node = { n with rows := w.node.rows }) ∧
    ∀ before w after, sent = before ++ w :: after → ∀ link, w.node.parent = some link →
      ∃ parent ∈ before, parent.id = link.node ∧ parent.node.sql = p.statementOf parent.node ∧
        (∀ values ∈ parent.node.rows, values.length = parent.node.columns.length) ∧
        ∃ r, parent.reply.result = .ok r ∧
        ∃ document group content child, (documents[link.node]?.getD [])[link.row]? = some document ∧
          group ∈ document.children ∧ group.key = link.key ∧ content ∈ group.documents ∧
          p.split vars group.table content = .ok child ∧ documents[w.id]? = some [child] ∧
          p.schema.join parent.node.table group.table = .ok group.join ∧
          binds parent r link.row w group child

theorem Propagates.mono {p : Planner} {vars : Variables} {table : String} {docs : Json}
    {plan : Plan} {binds binds' : Binding} {sent : List Sent}
    (h : Propagates p vars table docs plan binds sent)
    (himp : ∀ parent r row w group child,
      (∀ values ∈ parent.node.rows, values.length = parent.node.columns.length) →
      binds parent r row w group child → binds' parent r row w group child) :
    Propagates p vars table docs plan binds' sent := by
  obtain ⟨documents, hplan, hnodes, hsent⟩ := h
  refine ⟨documents, hplan, hnodes, fun before w after hsplit link hlink => ?_⟩
  obtain ⟨parent, hparent, hid, hsql, hwidth, r, hr, document, group, content, child,
    hdocument, hgroup,
    hkey, hcontent, hchild, hown, hjoin, hbinds⟩ := hsent before w after hsplit link hlink
  exact ⟨parent, hparent, hid, hsql, hwidth, r, hr, document, group, content, child,
    hdocument, hgroup, hkey, hcontent, hchild, hown, hjoin, himp _ _ _ _ _ _ hwidth hbinds⟩

section General
variable {p : Planner} {vars : Variables} {table : String} {docs : Json} {plan : Plan}
  {dialect : Dialect} {sent : List Sent} {answers : Answers}

/-- A linked write differs from the planned one in the values of its rows only. -/
theorem Linked.same {before : List Sent} {w : Sent} (h : Linked plan dialect before w) :
    ∃ n, plan.nodes[w.id]? = some n ∧ w.node.rows.map List.length = n.rows.map List.length ∧
      w.node = { n with rows := w.node.rows } := by
  obtain ⟨n, hn, hlinked⟩ := h
  refine ⟨n, hn, ?_⟩
  split at hlinked
  · rw [hlinked]
    exact ⟨rfl, rfl⟩
  · obtain ⟨parent, _, _, r, _, hrow⟩ := hlinked
    split at hrow
    · rw [hrow, inject_eq]
      refine ⟨?_, rfl⟩
      rw [List.map_map]
      exact List.map_congr_left fun values _ => length_injectedValues _ _ values
    · rw [hrow.2]
      exact ⟨rfl, rfl⟩

theorem Linked.statement {before : List Sent} {w : Sent} (h : Linked plan dialect before w)
    {documents : List (List SplitDocument)} (hlaid : Laid p vars documents plan.nodes []) :
    w.node.sql = p.statementOf w.node := by
  obtain ⟨n, hn, hrows, hsame⟩ := h.same
  have hsql := hlaid.sql w.id n hn List.not_mem_nil
  have hcount : w.node.rows.length = n.rows.length := by
    simpa using congrArg List.length hrows
  rw [hsame]
  simpa [Planner.statementOf, hcount] using hsql

theorem Linked.width {before : List Sent} {w : Sent} (h : Linked plan dialect before w)
    {documents : List (List SplitDocument)} (hlaid : Laid p vars documents plan.nodes []) :
    ∀ values ∈ w.node.rows, values.length = w.node.columns.length := by
  obtain ⟨n, hn, hrows, hsame⟩ := h.same
  intro values hvalues
  have hlength : values.length ∈ n.rows.map List.length := hrows ▸ List.mem_map_of_mem hvalues
  obtain ⟨planned, hplanned, heq⟩ := List.mem_map.mp hlength
  rw [hsame, ← heq]
  exact hlaid.width w.id n hn planned hplanned

theorem zip_inject {n : WriteNode} {group : ChildGroup} {child : SplitDocument}
    (hn : Describes n group child) (row : Object) :
    n.columns.zip (n.inject row).parameters =
      child.columns ++ (missing group.join child.columns).map fun pair =>
        (pair.2, linkedValue row pair.1) := by
  have hvalues := injectedValues_mapIdx row (missing group.join child.columns)
    (child.columns.map (·.2))
  rw [List.length_map] at hvalues
  simp only [WriteNode.parameters, inject_eq, hn.rows, hn.injected, hn.columns, List.map_singleton,
    hvalues, List.flatten_singleton]
  rw [List.zip_append (by simp)]
  simp [List.zip_map']

/-- Without the row of a parent only a write that takes nothing from it is sent, and it is sent as
if the row were empty. -/
theorem linked_row {n m : WriteNode} {row? : Option Object}
    (h : match row? with
      | some row => m = n.inject row
      | none => n.injected = [] ∧ m = n) :
    m = n.inject (row?.getD []) ∧ (n.injected ≠ [] → row?.isSome = true) := by
  cases row? with
  | some row => exact ⟨h, fun _ => rfl⟩
  | none =>
      obtain ⟨hnone, rfl⟩ := h
      refine ⟨?_, fun hsome => absurd hnone hsome⟩
      have hrows : m.rows.map (injectedValues [] m.injected) = m.rows := by
        rw [hnone]
        exact List.map_id m.rows
      rw [Option.getD_none, inject_eq, hrows]

theorem binds_of_inject {parent w : Sent} {n : WriteNode} {rows : List Object} {row : Nat}
    {group : ChildGroup} {child : SplitDocument} (hn : Describes n group child)
    (hsql : w.node.sql = p.statementOf w.node) (hnode : w.node = n.inject ((rows[row]?).getD []))
    (hanswered : n.injected ≠ [] → (rows[row]?).isSome = true)
    (hasks : ∀ pair ∈ group.join.pairs, Asks parent.node.returning pair.1) :
    Binds p.dialect parent rows row w group child := by
  have hinject := inject_eq ((rows[row]?).getD []) n
  have hrows : n.rows.length = 1 := by
    rw [hn.rows]
    rfl
  constructor
  · rw [hsql, Planner.statementOf, hnode, hinject]
    simp only [hn.kind, hn.table, List.length_map, hrows]
  · have hvalues := congrArg List.length (injectedValues_mapIdx ((rows[row]?).getD [])
      (missing group.join child.columns) (child.columns.map (·.2)))
    rw [hnode, WriteNode.parameters, hinject, hn.rows, hn.columns, hn.injected]
    simpa using hvalues
  · rw [hnode, ← zip_inject hn, hinject]
  · exact fun pair hpair => hasks pair (mem_of_mem_unsupplied hpair)
  · intro hmissing
    have hinjected : n.injected ≠ [] := by
      rw [hn.injected]
      simpa using hmissing
    exact (List.getElem?_eq_some_iff.mp (Option.eq_some_of_isSome (hanswered hinjected))).1

theorem propagates_of_ran {documents : List (List SplitDocument)}
    (hplan : Planned p vars table docs plan documents) (hran : Ran plan dialect sent answers) :
    Propagates p vars table docs plan (fun parent r row w group child =>
      Binds p.dialect parent (rowsOf dialect parent.node r) row w group child) sent := by
  refine ⟨documents, hplan, fun w hw => ?_, ?_⟩
  · obtain ⟨_, hlinked⟩ := hran.linked_of_mem hw
    obtain ⟨n, hn, _, hsame⟩ := hlinked.same
    exact ⟨n, hn, hsame⟩
  intro before w after hsent link hlink
  have hw := hran.linked hsent
  obtain ⟨n, hn, _, hsame⟩ := hw.same
  have hparentLink : n.parent = some link := by
    rw [hsame] at hlink
    exact hlink
  obtain ⟨n', hn', hlinked⟩ := hw
  obtain rfl : n = n' := Option.some.inj (hn.symm.trans hn')
  rw [hparentLink] at hlinked
  obtain ⟨parent, hparent, hid, r, hr, hrow⟩ := hlinked
  obtain ⟨hnode, hanswered⟩ := linked_row hrow
  have hparentSent : parent ∈ sent := hsent ▸ List.mem_append_left _ hparent
  obtain ⟨_, hp⟩ := hran.linked_of_mem hparentSent
  obtain ⟨pn, hpn, _, hpsame⟩ := hp.same
  obtain ⟨planned, hplanned, hstands⟩ := hplan.laid.stands w.id n link hn hparentLink
  obtain rfl : pn = planned := by
    rw [hid] at hpn
    exact Option.some.inj (hpn.symm.trans hplanned)
  obtain ⟨document, group, content, child, hdocument, hgroup, hkey, hcontent, hsplit, hchild, hjoin,
    hdescribes, hasks⟩ := hstands
  refine ⟨parent, hparent, hid, hp.statement hplan.laid, hp.width hplan.laid, r, hr, document,
    group, content, child, hdocument, hgroup, hkey, hcontent, hsplit, hchild, ?_, ?_⟩
  · rw [hpsame]
    exact hjoin
  · refine binds_of_inject hdescribes ((hran.linked hsent).statement hplan.laid) hnode hanswered ?_
    rw [hpsame]
    exact hasks

end General

/-- The documents of a plan are those of an insert or of an update. -/
def Plans (p : Planner) (vars : Variables) (table : String) (docs : Json) (projection : Projection)
    (plan : Plan) : Prop :=
  p.planInsert vars table docs projection = .ok plan ∨
    ∃ filter, p.planUpdate vars table docs filter projection = .ok plan

theorem Plans.planned {p : Planner} {vars : Variables} {table : String} {docs : Json}
    {projection : Projection} {plan : Plan} (h : Plans p vars table docs projection plan) :
    ∃ documents, Planned p vars table docs plan documents := by
  obtain h | ⟨filter, h⟩ := h
  · exact planned_of_planInsert h
  · exact planned_of_planUpdate h

/-- Foreign keys propagate. Where the database answers writes with rows, every child statement of a
run binds what its document supplies, and for every other column of the join the value that the
parent's row was answered with. -/
theorem propagates_returned_rows {σ : Type} {d : Driver σ} {s : Session (Recorded σ)}
    (hs : s.driver = d.recorded) {p : Planner} (hd : d.dialect = p.dialect)
    (hreturns : p.dialect.returning ≠ .unsupported) {vars : Variables} {table : String}
    {docs : Json}
    {projection : Projection} {plan : Plan} (h : Plans p vars table docs projection plan)
    (options : TransactionOptions) :
    ∃ sent, (runPlan options plan s).2.record = s.record ++ sent.map (Sent.exchange p.dialect) ∧
      Propagates p vars table docs plan (fun parent r row w group child =>
        Binds p.dialect parent (r.rows.map r.rowObject) row w group child) sent := by
  obtain ⟨documents, hplan⟩ := h.planned
  obtain ⟨_, hsends, sent, answers, rfl, hran⟩ := sending_runPlan options s hs
  rw [hd] at hsends hran
  have hrows : rowsOf p.dialect = fun _ r => r.rows.map r.rowObject := by
    funext n r
    unfold rowsOf
    split
    · exact absurd ‹_› hreturns
    · rfl
  refine ⟨sent, hsends.record, ?_⟩
  have := propagates_of_ran hplan hran
  rwa [hrows] at this

section Shop

/-- The planner of the shop for a dialect. -/
def shopPlanner (dialect : Dialect) : Planner := ⟨Shop.registry, dialect, .passThrough⟩

/-- A session on a recorded database that answers from a script. -/
def scriptedSession (dialect : Dialect) (answers : List ResultSet) :
    Session (Recorded Scripted) where
  driver := (Scripted.driver dialect).recorded
  clock := ⟨0⟩
  server := ⟨⟨answers.map .rows, [], [], []⟩, []⟩
  lease := ⟨⟨0⟩, false⟩
  timeout := .ofSeconds 1
  inTransaction := false

def withoutTransaction : TransactionOptions := ⟨false, false, false, false⟩

/-- A user with an order, which has an item. -/
def annsOrder : Json :=
  .object [("name", .text "ann"), ("orders", .object [("total", .int 5),
    ("items", .list [.object [("id", .int 8)]])])]

/-- The answer to an insert: a row with its key. -/
def keyRow (key : Int) : ResultSet := ⟨[⟨"id", "", .integer⟩], [[.int key]], 1, none⟩

theorem propagates_annsOrder : ∃ plan,
    Plans (shopPlanner .postgres) [] "users" annsOrder .empty plan ∧
    ∃ sent, (runPlan withoutTransaction plan
        (scriptedSession .postgres [keyRow 1, keyRow 10, keyRow 8])).2.record =
          sent.map (Sent.exchange .postgres) ∧
      Propagates (shopPlanner .postgres)
        [] "users" annsOrder plan (fun parent r row w group child =>
        Binds .postgres parent (r.rows.map r.rowObject) row w group child) sent := by
  obtain ⟨plan, hplan⟩ := exists_eq_ok
    (x := (shopPlanner .postgres).planInsert [] "users" annsOrder .empty) (by decide +kernel)
  refine ⟨plan, .inl hplan, ?_⟩
  exact propagates_returned_rows (s := scriptedSession .postgres [keyRow 1, keyRow 10, keyRow 8])
    rfl rfl (by decide) (.inl hplan) withoutTransaction

def exchangeText : Connection.Exchange → String × List String
  | .query sql parameters _ => (sql, parameters.map (·.compact))
  | .execute sql parameters _ => (sql, parameters.map (·.compact))

/-- The statements of a run on a scripted database. -/
def statementsOf (dialect : Dialect) (answers : List ResultSet) (plan : Plan) :
    List (String × List String) :=
  (runPlan withoutTransaction plan (scriptedSession dialect answers)).2.record.map exchangeText

example : ((shopPlanner .postgres).planInsert [] "users" annsOrder .empty).toOption.map
    (statementsOf .postgres [keyRow 1, keyRow 10, keyRow 8]) = some
      [("insert into users (name) values ($1) RETURNING *", ["\"ann\""]),
        ("insert into orders (total, user_id) values ($1, $2) RETURNING *", ["5", "1"]),
        ("insert into items (id, order_id) values ($1, $2) RETURNING *", ["8", "10"])] := by
  decide +kernel

/-- A join that names one column of the orders twice. -/
def twiceJoined : Planner :=
  { shopPlanner .postgres with
    schema :=
      Shop.registry.addJoin (.custom "users" ["id", "name"] "orders" ["user_id", "user_id"]) }

def annsTotal : Json := .object [("name", .text "ann"), ("orders", .object [("total", .int 5)])]

def userRow : ResultSet :=
  ⟨[⟨"id", "", .integer⟩, ⟨"name", "", .text⟩], [[.int 1, .text "ann"]], 1, none⟩

/-- Of two pairs with one column the second is not heeded, though its value was returned. -/
theorem second_pair_not_bound :
    ((twiceJoined.schema.join "users" "orders").toOption.map (·.pairs)) =
      some [("id", "user_id"), ("name", "user_id")] ∧
    ((userRow.objectAt 0).get? "name").map (·.compact) = some "\"ann\"" ∧
    ∃ plan, Plans twiceJoined [] "users" annsTotal .empty plan ∧
      statementsOf .postgres [userRow] plan =
          [("insert into users (name) values ($1) RETURNING *", ["\"ann\""]),
            ("insert into orders (total, user_id) values ($1, $2) RETURNING *", ["5", "1"])] := by
  obtain ⟨plan, hplan⟩ := exists_eq_ok
    (x := twiceJoined.planInsert [] "users" annsTotal .empty) (by decide +kernel)
  refine ⟨by decide +kernel, by decide +kernel, plan, .inl hplan, ?_⟩
  exact part_eq (g := statementsOf .postgres [userRow]) hplan (by decide +kernel)

end Shop

end SqlGateway.Execution
