import Mathlib.Data.List.Induction
import SqlGateway.Proofs.Connection.ServerTransactions
import SqlGateway.Proofs.Engine.Transactions
import SqlGateway.Proofs.Execution.Sends

/-!
# The fields of a request as they are run

A field is run on a session as it is when the field begins. Whatever the mode of the request, a
transaction is opened first if one is wanted and none is open, and what is left is the field's own:
a read, a raw statement, or the writes of a plan and the end of the transaction that the plan opened
for itself.
-/
namespace SqlGateway.Engine

open Connection (Driver Entry Journaled Session SessionM dataTexts dataTexts_append dataTexts_data
  dataTexts_of_none)
open Execution (PutsAll Sent sentWrites)
open Request (Document Variables)

variable {σ : Type}

/-- A field as it is run. -/
structure FieldRun (σ : Type) where
  task : Task
  compiler : Query.Compiler
  prepared : Prepared
  /-- One transaction spans the request. -/
  spans : Bool
  /-- The session as it is when the field begins, or why there is none. -/
  start : Except Error (Session σ)

namespace FieldRun

def steps (r : FieldRun σ) : SessionM σ FieldOutput :=
  if r.spans then runInTransaction r.compiler r.prepared
  else runPrepared r.compiler false r.prepared

/-- The field is to be run inside of a transaction. -/
def wantsTransaction (r : FieldRun σ) : Bool :=
  r.spans || match r.prepared with
    | .write _ own => own
    | _ => false

/-- What the field does once its transaction, if it wants one, is open. -/
def body (r : FieldRun σ) : SessionM σ FieldOutput :=
  match r.prepared with
  | .write plan own => do
    let outcome ← Execution.runOpened ⟨false, false, own, r.spans⟩ plan
    return .written outcome.rows outcome.failures
  | prepared => runPrepared r.compiler r.spans prepared

/-- The session as it is when the body of the field begins. -/
def opened (r : FieldRun σ) (s : Session σ) : Session σ :=
  if r.wantsTransaction && !s.inTransaction then (Session.begin_ s).2 else s

/-- Every write of the field that is sent and accepted returns a row for each write that is linked
to it. -/
def ReturnsLinked (r : FieldRun σ) : Prop :=
  ∀ s plan own, r.start = .ok s → r.prepared = .write plan own →
    Execution.ReturnsLinked plan s.dialect s.timeout (sentWrites plan (r.opened s))

/-- The transforming role accepts the rows that the field reads. -/
def AcceptsRows (r : FieldRun σ) : Prop :=
  ∀ s q result, r.start = .ok s → r.prepared = .query q →
    (Session.query q.sql [] 1 (r.opened s)).1 = .ok result → q.csv = false →
    (r.compiler.rules.transformOutput q.mainTable
      (r.compiler.schema.transformRules.get? q.mainTable)
      (Assembly.objects q.slots result)).isOk = true

/-- Whether the rows are there that the writes of the field are linked to. -/
def returnsLinked (r : FieldRun σ) : Bool :=
  match r.start, r.prepared with
  | .ok s, .write plan _ =>
    Execution.returnsLinked plan s.dialect s.timeout (sentWrites plan (r.opened s))
  | _, _ => true

instance (r : FieldRun σ) : Decidable r.ReturnsLinked :=
  decidable_of_iff (r.returnsLinked = true) <| by
    unfold returnsLinked ReturnsLinked
    cases r.start <;> cases r.prepared <;> simp [Execution.returnsLinked_iff]

/-- Whether the rows that the field reads are accepted. -/
def acceptsRows (r : FieldRun σ) : Bool :=
  match r.start, r.prepared with
  | .ok s, .query q =>
    match (Session.query q.sql [] 1 (r.opened s)).1 with
    | .ok result => q.csv || (r.compiler.rules.transformOutput q.mainTable
        (r.compiler.schema.transformRules.get? q.mainTable) (Assembly.objects q.slots result)).isOk
    | .error _ => true
  | _, _ => true

theorem acceptsRows_iff (r : FieldRun σ) : r.acceptsRows = true ↔ r.AcceptsRows := by
  unfold acceptsRows AcceptsRows
  cases r.start with
  | error _ => simp
  | ok s =>
      cases r.prepared with
      | raw _ _ _ => simp
      | write _ _ => simp
      | query q =>
          dsimp only
          cases hresult : (Session.query q.sql [] 1 (r.opened s)).1 with
          | error _ =>
              refine ⟨fun _ => ?_, fun _ => rfl⟩
              rintro s' q' result ⟨⟩ ⟨⟩ hanswered
              cases hresult.symm.trans hanswered
          | ok result =>
              rw [Bool.or_eq_true]
              constructor
              · rintro h s' q' result' ⟨⟩ ⟨⟩ hanswered hflat
                cases hresult.symm.trans hanswered
                exact h.resolve_left (by rw [hflat]; exact Bool.false_ne_true)
              · intro h
                cases hflat : q.csv with
                | true => exact .inl rfl
                | false => exact .inr (h s q result rfl rfl hresult hflat)

instance (r : FieldRun σ) : Decidable r.AcceptsRows := decidable_of_iff _ r.acceptsRows_iff

/-- The statements that the field puts on the journal of its source. -/
def sent (r : FieldRun (Journaled σ)) : List Entry :=
  match r.start with
  | .ok s => (r.steps s).2.journal.drop s.journal.length
  | .error _ => []

theorem runPrepared_write (compiler : Query.Compiler) (spans : Bool) (plan : Mutation.Plan)
    (own : Bool) (s : Session σ) : runPrepared compiler spans (.write plan own) s =
      (Execution.runPlan ⟨spans && !s.inTransaction, false, own, spans⟩ plan >>= fun outcome =>
        pure (.written outcome.rows outcome.failures) : SessionM σ FieldOutput) s := rfl

theorem runPrepared_raw (compiler : Query.Compiler) (spans : Bool) (sql : String)
    (parameters : List Json) (isMutation : Bool) (s : Session σ) :
    (runPrepared compiler spans (.raw sql parameters isMutation) s).2 =
      (Execution.runRaw sql parameters s).2 := by
  dsimp only [runPrepared]
  rw [Session.bind_run]
  rcases Execution.runRaw sql parameters s with ⟨result, s'⟩
  cases result <;> rfl

/-- By itself a plan opens the transaction that it wants for itself. -/
theorem runPrepared_alone (compiler : Query.Compiler) (plan : Mutation.Plan) (own : Bool)
    (s : Session σ) : let written : SessionM σ FieldOutput := do
      let outcome ← Execution.runOpened ⟨false, false, own, false⟩ plan
      return .written outcome.rows outcome.failures
    runPrepared compiler false (.write plan own) s =
      if own && !s.inTransaction then (Session.begin_ >>= fun _ => written) s else written s := by
  intro written
  have hbegins :
    (⟨false && !s.inTransaction, false, own, false⟩ : Execution.TransactionOptions).begins =
      own := by
    simp [Execution.TransactionOptions.begins, Execution.TransactionOptions.isOwn]
  rw [runPrepared_write, Session.bind_run, Execution.runPlan_eq, hbegins]
  by_cases hopens : (own && !s.inTransaction) = true
  · simp only [if_pos hopens, Session.bind_run, written]
    rcases Session.begin_ s with ⟨result, s'⟩
    cases result <;> rfl
  · simp only [if_neg hopens, Session.bind_run, written]
    rfl

/-- In a transaction of the request a plan neither opens nor closes one. -/
theorem runPrepared_inside (r : FieldRun σ) (hspans : r.spans = true) {s : Session σ}
    (hopen : s.inTransaction = true) : runPrepared r.compiler true r.prepared s = r.body s := by
  unfold body
  cases hprepared : r.prepared with
  | query q => rw [hspans]
  | raw sql parameters isMutation => rw [hspans]
  | write plan own =>
      rw [runPrepared_write, Session.bind_run, Execution.runPlan_eq, hopen, Bool.not_true,
        Bool.and_false, if_neg Bool.false_ne_true, hspans]
      dsimp only
      rw [Session.bind_run]
      rfl

theorem runInTransaction_eq (compiler : Query.Compiler) (prepared : Prepared) (s : Session σ) :
    runInTransaction compiler prepared s = if !s.inTransaction then
      (Session.begin_ >>= fun _ => runPrepared compiler true prepared) s
      else runPrepared compiler true prepared s := by
  have hget : (get : SessionM σ (Session σ)) s = (.ok s, s) := rfl
  rw [runInTransaction, Session.bind_run, hget]
  dsimp only
  split <;> rfl

/-- A field opens its transaction, if it wants one and none is open, and then runs its body. -/
theorem steps_eq (r : FieldRun σ) (s : Session σ) : r.steps s =
    if r.wantsTransaction && !s.inTransaction then (Session.begin_ >>= fun _ => r.body) s
    else r.body s := by
  cases hspans : r.spans with
  | true =>
      have hwants : r.wantsTransaction = true := by rw [wantsTransaction, hspans, Bool.true_or]
      rw [steps, hspans, if_pos rfl, runInTransaction_eq, hwants, Bool.true_and]
      cases hopen : s.inTransaction with
      | true =>
          simp only [Bool.not_true, Bool.false_eq_true, if_false]
          exact r.runPrepared_inside hspans hopen
      | false =>
          simp only [Bool.not_false, if_true, Session.bind_run, Session.begin_run s hopen]
          rcases Session.batch s.dialect.beginStatement 0 s with ⟨result, s'⟩
          cases result with
          | ok _ => exact r.runPrepared_inside hspans rfl
          | error e => rfl
  | false =>
      rw [steps, hspans, if_neg Bool.false_ne_true]
      unfold wantsTransaction body
      rw [hspans, Bool.false_or]
      cases hprepared : r.prepared with
      | query q => rfl
      | raw sql parameters isMutation => rfl
      | write plan own => exact runPrepared_alone r.compiler plan own s

variable {d : Driver σ} {s : Session (Journaled σ)}

theorem dataTexts_writes (writes : List Sent) :
    dataTexts (writes.map Sent.entry) = writes.map (·.node.sql) := by
  have hall : (writes.map Sent.entry).filter Entry.isData = writes.map Sent.entry := by
    refine List.filter_eq_self.mpr fun e he => ?_
    obtain ⟨w, -, rfl⟩ := List.mem_map.mp he
    rfl
  rw [dataTexts, hall, List.map_map]
  rfl

/-- The writes of a tree run in the order in which they are listed. -/
theorem statements_of_isTree {plan : Mutation.Plan} (htree : plan.IsTree) (own : Bool) :
    (Prepared.write plan own).statements = plan.nodes.map (·.sql) := by
  have listed : ∀ nodes : List Mutation.WriteNode, (List.range nodes.length).filterMap
      (fun id => (nodes[id]?).map (·.sql)) = nodes.map (·.sql) := by
    intro nodes
    induction nodes using List.reverseRecOn with
    | nil => rfl
    | append_singleton before n ih =>
        have hbefore : (List.range before.length).filterMap
            (fun id => ((before ++ [n])[id]?).map (·.sql)) = before.map (·.sql) := by
          rw [← ih]
          refine List.filterMap_congr fun id hid => ?_
          rw [List.getElem?_append_left (List.mem_range.mp hid)]
        rw [List.length_append, List.length_singleton, List.range_succ,
          List.filterMap_append, hbefore]
        simp
  rw [Prepared.statements, htree.order.1, listed]

/-- If all that the body of a field sends succeeds, and the rows are there that are linked to, the
body has sent the statements that the field was prepared to, and it comes to a result unless its
rows are refused. -/
theorem body_sends (r : FieldRun (Journaled σ)) (hs : s.driver = d.journaled)
    (htree : ∀ plan own, r.prepared = .write plan own → plan.IsTree) :
    ∃ sent, PutsAll d s (r.body s).2 sent ∧ ((∀ w ∈ sent, w.Succeeded s.timeout) →
      (∀ plan own, r.prepared = .write plan own →
        Execution.ReturnsLinked plan s.dialect s.timeout (sentWrites plan s)) →
      dataTexts sent = r.prepared.statements ∧
      ((∀ q result, r.prepared = .query q → (Session.query q.sql [] 1 s).1 = .ok result →
        q.csv = false →
          (r.compiler.rules.transformOutput q.mainTable
            (r.compiler.schema.transformRules.get? q.mainTable)
            (Assembly.objects q.slots result)).isOk = true) →
        (r.body s).1.isOk = true)) := by
  unfold body
  cases hprepared : r.prepared with
  | query q =>
      obtain ⟨e, hput, hstatement, hok⟩ :=
        Execution.runQuery_sends r.compiler.schema r.compiler.rules q hs
      dsimp only [runPrepared]
      rw [Session.bind_run]
      refine ⟨[e], ?_, fun hall _ => ⟨dataTexts_data hstatement, fun haccepts => ?_⟩⟩
      · rcases hrun : Execution.runQuery r.compiler.schema r.compiler.rules q s with ⟨result, s'⟩
        rw [hrun] at hput
        cases result <;> exact hput
      · have hdone := hok (hall e List.mem_cons_self) fun result => haccepts q result rfl
        rcases hrun : Execution.runQuery r.compiler.schema r.compiler.rules q s with ⟨result, s'⟩
        rw [hrun] at hdone
        obtain ⟨rows, rfl⟩ := exists_eq_ok hdone
        rfl
  | raw sql parameters isMutation =>
      obtain ⟨e, hput, hstatement, hok⟩ := Execution.runRaw_sends sql parameters hs
      dsimp only [runPrepared]
      rw [Session.bind_run]
      refine ⟨[e], ?_, fun hall _ => ⟨dataTexts_data hstatement, fun _ => ?_⟩⟩
      · rcases hrun : Execution.runRaw sql parameters s with ⟨result, s'⟩
        rw [hrun] at hput
        cases result <;> exact hput
      · have hdone := hok (hall e List.mem_cons_self)
        rcases hrun : Execution.runRaw sql parameters s with ⟨result, s'⟩
        rw [hrun] at hdone
        obtain ⟨rows, rfl⟩ := exists_eq_ok hdone
        rfl
  | write plan own =>
      let options : Execution.TransactionOptions := ⟨false, false, own, r.spans⟩
      obtain ⟨closing, hput, hdata, hok⟩ := Execution.runOpened_sends options plan hs
      have htree := htree plan own hprepared
      dsimp only
      rw [Session.bind_run]
      refine ⟨(sentWrites plan s).map Sent.entry ++ closing, ?_, fun hall hreturns => ?_⟩
      · rcases hrun : Execution.runOpened options plan s with ⟨result, s'⟩
        rw [hrun] at hput
        cases result <;> exact hput
      · obtain ⟨hwrites, hclosing⟩ := List.forall_mem_append.mp hall
        have hstands : Execution.Stands d.journaled s.timeout s.inTransaction s.server s :=
          ⟨hs, rfl, rfl, rfl⟩
        have hsucceeded : ∀ w ∈ sentWrites plan s, ∃ r, w.outcome s.timeout = .ok r :=
          fun w hw => w.entry_succeeded.mp (hwrites _ (List.mem_map_of_mem hw))
        have hdialect : d.journaled.dialect = s.dialect := by rw [Session.dialect, hs]
        have hlinked :
            Execution.ReturnsLinked plan d.journaled.dialect s.timeout (sentWrites plan s) :=
          hdialect ▸ hreturns plan own rfl
        obtain ⟨⟨answers, s', hrun⟩, hsqls⟩ :=
          Execution.runNodes_ready htree hstands hsucceeded hlinked
        refine ⟨?_, fun _ => ?_⟩
        · rw [dataTexts_append, dataTexts_of_none hdata, List.append_nil, dataTexts_writes, hsqls,
            statements_of_isTree htree]
        · have hdone := hok _ (by rw [hrun]) hclosing
          rcases hopened : Execution.runOpened options plan s with ⟨result, s''⟩
          rw [hopened] at hdone
          obtain rfl := hdone
          rfl

/-- What is known of a field on its session once its transaction, if it wants one, is open. -/
structure Sends (r : FieldRun (Journaled σ)) (d : Driver σ) (s : Session (Journaled σ)) : Prop where
  puts : PutsAll d s (r.steps s).2 r.sent
  /-- If all that the field sends succeeds, these are the statements that it was prepared to. -/
  texts : (∀ w ∈ r.sent, w.Succeeded s.timeout) → r.ReturnsLinked →
    dataTexts r.sent = r.prepared.statements
  isOk : (∀ w ∈ r.sent, w.Succeeded s.timeout) → r.ReturnsLinked → r.AcceptsRows →
    (r.steps s).1.isOk = true

theorem sent_eq {r : FieldRun (Journaled σ)} (hstart : r.start = .ok s) {sent : List Entry}
    (h : PutsAll d s (r.steps s).2 sent) : r.sent = sent := by
  rw [FieldRun.sent, hstart]
  dsimp only
  rw [h.journal]
  exact List.drop_left

/-- What opens the transaction of a field puts no data statement on the journal, and if it succeeds
the field goes on with its body. -/
theorem opened_sends (r : FieldRun (Journaled σ)) (hs : s.driver = d.journaled) : ∃ opening,
    PutsAll d s (r.opened s) opening ∧ (∀ w ∈ opening, w.isData = false) ∧
      ((∀ w ∈ opening, w.Succeeded s.timeout) ∧ r.steps s = r.body (r.opened s) ∨
        (¬ ∀ w ∈ opening, w.Succeeded s.timeout) ∧ (r.steps s).2 = r.opened s) := by
  by_cases hopens : (r.wantsTransaction && !s.inTransaction) = true
  · have hclosed : s.inTransaction = false := by simpa using (Bool.and_eq_true_iff.mp hopens).2
    obtain ⟨e, hputs⟩ := Session.batch_puts hs s.dialect.beginStatement 0
    have hput := Execution.putsAll_of_puts hputs
    have hok := hputs.isOk
    rw [steps_eq, opened, if_pos hopens, if_pos hopens, Session.bind_run,
      Session.begin_run s hclosed]
    rcases hrun : Session.batch s.dialect.beginStatement 0 s with ⟨result, s'⟩
    rw [hrun] at hput hok
    have hdata : ∀ w ∈ [e], w.isData = false :=
      List.forall_mem_singleton.mpr (Entry.isData_eq_false hputs.statement)
    cases result with
    | ok _ =>
        refine ⟨[e], ⟨hput.driver, hput.timeout, hput.journal⟩, hdata, .inl ⟨?_, rfl⟩⟩
        exact List.forall_mem_singleton.mpr (hok.mp rfl)
    | error err =>
        refine ⟨[e], hput, hdata, .inr ⟨fun hall => ?_, rfl⟩⟩
        cases hok.mpr (hall e List.mem_cons_self)
  · rw [steps_eq, opened, if_neg hopens, if_neg hopens]
    exact ⟨[], ⟨hs, rfl, (List.append_nil _).symm⟩, List.forall_mem_nil _,
      .inl ⟨List.forall_mem_nil _, rfl⟩⟩

theorem sends_of_start (r : FieldRun (Journaled σ)) (hstart : r.start = .ok s)
    (hs : s.driver = d.journaled) (htree : ∀ plan own, r.prepared = .write plan own → plan.IsTree) :
    r.Sends d s := by
  obtain ⟨opening, hopening, hdata, ⟨_, hsteps⟩ | ⟨hfailed, hsteps⟩⟩ := r.opened_sends hs
  · obtain ⟨sent, hbody, hresult⟩ := r.body_sends hopening.driver htree
    have hputs : PutsAll d s (r.steps s).2 (opening ++ sent) := by
      rw [hsteps]
      exact hopening.trans hbody
    have hsent := sent_eq hstart hputs
    have htexts : dataTexts r.sent = dataTexts sent := by
      rw [hsent, dataTexts_append, dataTexts_of_none hdata, List.nil_append]
    have hdialect : (r.opened s).dialect = s.dialect := by
      rw [Session.dialect, hopening.driver, Session.dialect, hs]
    rw [hdialect, hopening.timeout] at hresult
    have hall (h : ∀ w ∈ r.sent, w.Succeeded s.timeout) : ∀ w ∈ sent, w.Succeeded s.timeout :=
      fun w hw => h w (hsent ▸ List.mem_append_right _ hw)
    refine ⟨hsent ▸ hputs, fun h hreturns => ?_, fun h hreturns haccepts => ?_⟩
    · rw [htexts]
      exact (hresult (hall h) fun plan own => hreturns s plan own hstart).1
    · rw [hsteps]
      exact (hresult (hall h) fun plan own => hreturns s plan own hstart).2
        fun q result => haccepts s q result hstart
  · rw [← hsteps] at hopening
    obtain rfl := sent_eq hstart hopening
    exact ⟨hopening, fun h => absurd h hfailed, fun h => absurd h hfailed⟩

end FieldRun

end SqlGateway.Engine
