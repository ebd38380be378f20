import SqlGateway.Execution.Read
import SqlGateway.Proofs.Connection.Responders
import SqlGateway.Proofs.Execution.Writes

/-!
# Reads and plans on databases that answer by what they were asked

A read, a raw statement and a plan come to the same on every session with the same history, in a
transaction and outside of one. For a plan it is enough that on one of these sessions its writes
return the rows that others are linked to.
-/
namespace SqlGateway.Execution

open Connection (Question Responder Session SessionM)
open Connection.Session (Gives On gives_pure gives_query gives_execute)
open Mutation (Plan WriteNode)

variable {σ : Type} {R : Responder σ} {timeout acquireTimeout : Duration} {h : List Question}
  {p : Plan} {s : Session σ}

/-- A write as a data statement. -/
def question (dialect : Dialect) (n : WriteNode) : Question :=
  match dialect.returning with
  | .unsupported => .execute n.sql n.parameters
  | _ => .query n.sql n.parameters

theorem gives_liftExcept {α : Type} {r : Except Error α} {v : α} (hr : r = .ok v)
    (h : List Question) : Gives R timeout (liftExcept r : SessionM σ α) h v h := by
  subst hr
  exact gives_pure v

section Statements
variable (hR : R.Responds timeout acquireTimeout)
include hR

theorem gives_runQuery {schema : Schema.Registry} {rules : Rules} {q : Query.CompiledQuery}
    (haccepts : q.csv = false →
      (rules.transformOutput q.mainTable (schema.transformRules.get? q.mainTable)
      (Assembly.objects q.slots (R.answer h (.query q.sql [])))).isOk = true) :
    ∃ rows, Gives R timeout (runQuery schema rules q) h rows (h ++ [.query q.sql []]) := by
  have hquery := gives_query hR q.sql [] 1 h
  cases hflat : q.csv with
  | true =>
      refine ⟨flatRows (R.answer h (.query q.sql [])), hquery.bind ?_⟩
      simp only [hflat, if_true]
      exact gives_pure _
  | false =>
      obtain ⟨rows, hrows⟩ := exists_eq_ok (haccepts hflat)
      refine ⟨rows, hquery.bind ?_⟩
      simp only [hflat, Bool.false_eq_true, if_false]
      exact gives_liftExcept (by rw [hrows]; rfl) _

theorem gives_runRaw (sql : String) (parameters : List Json) :
    ∃ rows, Gives R timeout (runRaw sql parameters) h rows (h ++ [.query sql parameters]) :=
  ⟨_, (gives_query hR sql parameters 1 h).bind (gives_pure _)⟩

theorem answer_returns (n : WriteNode) (a : σ) :
    Connection.Returns R.history timeout (answer R.driver n a)
      (R.answer (R.history a) (question R.driver.dialect n))
      (R.history a ++ [question R.driver.dialect n]) := by
  unfold answer question
  cases R.driver.dialect.returning with
  | unsupported => exact hR.execute n.sql n.parameters a
  | suffixClause => exact hR.query n.sql n.parameters a
  | outputClause => exact hR.query n.sql n.parameters a

theorem gives_runNode (n : WriteNode) (h : List Question) :
    Gives R timeout (runNode n) h
      (rowsOf R.driver.dialect n (R.answer h (question R.driver.dialect n)))
      (h ++ [question R.driver.dialect n]) := by
  have executed : Gives R timeout
      (Session.execute n.sql n.parameters n.document >>= fun r => pure (presumedRows n r)) h
      (presumedRows n (R.answer h (.execute n.sql n.parameters)))
      (h ++ [.execute n.sql n.parameters]) :=
    (gives_execute hR n.sql n.parameters n.document h).bind (gives_pure _)
  have queried : Gives R timeout
      (Session.query n.sql n.parameters n.document >>= fun r => pure (r.rows.map r.rowObject)) h
      ((R.answer h (.query n.sql n.parameters)).rows.map
        (R.answer h (.query n.sql n.parameters)).rowObject) (h ++ [.query n.sql n.parameters]) :=
    (gives_query hR n.sql n.parameters n.document h).bind (gives_pure _)
  intro s hs
  have hdialect : s.dialect = R.driver.dialect := by rw [Session.dialect, hs.driver]
  rw [runNode_eq, hdialect]
  unfold rowsOf question
  cases R.driver.dialect.returning with
  | unsupported => exact executed s hs
  | suffixClause => exact queried s hs
  | outputClause => exact queried s hs

/-- What is sent on the database comes to the answer of the database. -/
theorem outcome_of_answer (id : Nat) (n : WriteNode) (a : σ) :
    Sent.outcome timeout ⟨id, n, (answer R.driver n a).1⟩ =
      .ok (R.answer (R.history a) (question R.driver.dialect n)) := by
  have hreturns := answer_returns hR n a
  rw [Sent.outcome, settled, if_neg hreturns.timely, hreturns.result]

end Statements

theorem gives_step (state : Answers × List Error) {id : Nat} {n m : WriteNode} {rows : List Object}
    {h' : List Question} (hn : p.nodes[id]? = some n) (hlinked : linked? p state.1 n = .ok (some m))
    (hm : Gives R timeout (runNode m) h rows h') :
    Gives R timeout (step p state id) h (state.1.set id (some rows), state.2) h' := by
  have hanswered : Gives R timeout
      (runNode m >>= fun rows => pure (state.1.set id (some rows), state.2)) h
      (state.1.set id (some rows), state.2) h' := hm.bind (gives_pure _)
  rw [step_some hn]
  refine Gives.tryCatch fun s hs => ?_
  rw [attempt_eq, hlinked]
  exact hanswered s hs

section Plans
variable (hR : R.Responds timeout acquireTimeout)
include hR

/-- From a place on, a run over a plan comes to the same on every session with the same history, if
on one of them the writes return the rows that others are linked to. -/
theorem gives_foldlM_step (htree : p.IsTree) {k more : Nat} (hlength : k + more = p.nodes.length)
    {answers : Answers} (hready : Ready p k answers) (hs : On R timeout h s)
    (hreturns : ReturnsLinked p R.driver.dialect timeout
      (sentFrom p (List.range' k more) (answers, []) s)) :
    ∃ answers' h', Gives R timeout
      ((List.range' k more).foldlM (step p) (answers, [])) h (answers', []) h' := by
  induction more generalizing k answers s h with
  | zero => exact ⟨answers, h, gives_pure _⟩
  | succ more ih =>
      have hk : k < p.nodes.length := by omega
      have hn : p.nodes[k]? = some p.nodes[k] := List.getElem?_eq_getElem hk
      obtain ⟨m, hlinked, -⟩ := hready.exists_linked htree hn
      have hstep := gives_step (answers, []) hn hlinked (gives_runNode hR m h)
      have hnow : sentNow p answers k s = [⟨k, m, (answer R.driver m s.server).1⟩] := by
        rw [sentNow, hn, Option.map_some, hlinked, hs.driver]
      -- The session at hand tells that the rows are there; the step itself is one of every session.
      obtain ⟨s', hrun, hs'⟩ := hstep s hs
      rw [List.range'_succ, sentFrom, hrun, hnow] at hreturns
      dsimp only at hreturns
      have houtcome := outcome_of_answer hR k m s.server
      rw [hs.history] at houtcome
      have hset := hready.set hk fun n' hn' link hlink hid =>
        hreturns _ List.mem_cons_self _ houtcome n' hn' link hlink hid
      obtain ⟨answers', h', hrest⟩ := ih (by omega) hset hs' fun w hw =>
        hreturns w (List.mem_cons_of_mem _ hw)
      refine ⟨answers', h', ?_⟩
      rw [List.range'_succ, List.foldlM_cons]
      exact hstep.bind hrest

theorem gives_runNodes (htree : p.IsTree) (hs : On R timeout h s)
    (hreturns : ReturnsLinked p R.driver.dialect timeout (sentWrites p s)) :
    ∃ answers h', Gives R timeout (runNodes p) h (outcome p answers []) h' := by
  have horder : p.executionOrder = List.range' 0 p.nodes.length := by
    rw [htree.order.1, List.range_eq_range']
  rw [sentWrites, horder] at hreturns
  obtain ⟨answers, h', hfold⟩ :=
    gives_foldlM_step hR htree (Nat.zero_add _) (ready_start p) hs hreturns
  refine ⟨answers, h', ?_⟩
  rw [runNodes, horder]
  exact hfold.bind (gives_pure _)

/-- A plan comes to the same whatever transactions it opens and closes. -/
theorem gives_runPlan (htree : p.IsTree) (hs : On R timeout h s)
    (hreturns : ReturnsLinked p R.driver.dialect timeout (sentWrites p s)) :
    ∃ answers h', ∀ options : TransactionOptions,
      Gives R timeout (runPlan options p) h (outcome p answers []) h' := by
  obtain ⟨answers, h', hnodes⟩ := gives_runNodes hR htree hs hreturns
  have hopened : ∀ options : TransactionOptions,
      Gives R timeout (runOpened options p) h (outcome p answers []) h' := by
    intro options
    refine hnodes.tryCatch.bind ?_
    split
    · exact (Session.gives_commit hR 1 h').bind (gives_pure _)
    · exact gives_pure _
  refine ⟨answers, h', fun options t ht => ?_⟩
  rw [runPlan_eq]
  split
  next hopens =>
    have hclosed : t.inTransaction = false := by simpa using (Bool.and_eq_true_iff.mp hopens).2
    obtain ⟨t', hbegin, ht'⟩ := ht.begin hR hclosed
    rw [Session.bind_run, hbegin]
    exact hopened options t' ht'
  · exact hopened options t ht

end Plans

end SqlGateway.Execution
