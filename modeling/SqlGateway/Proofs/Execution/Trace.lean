import SqlGateway.Execution.Write
import SqlGateway.Proofs.Connection.Recorded

/-!
# What a plan sends

The statements that running a plan puts on record are its writes as they were linked: each write
below a parent was sent after a write of the parent's place had answered, with the row of that
answer put in. This holds whether the run succeeds or fails, for every database and with or without
a transaction.
-/
namespace SqlGateway.Execution

open Connection (Exchange Recorded Reply Session SessionM Driver)
open Connection.Session (Quiet Sending Sends)
open Mutation (ParentLink Plan WriteNode)

/-- A write as it was sent, with its place in the plan and the reply to it. -/
structure Sent where
  id : Nat
  node : WriteNode
  reply : Reply ResultSet

/-- The statement that a write is sent as. -/
def Sent.exchange (dialect : Dialect) (w : Sent) : Exchange :=
  match dialect.returning with
  | .unsupported => .execute w.node.sql w.node.parameters w.reply
  | _ => .query w.node.sql w.node.parameters w.reply

/-- The rows that a write is taken to have answered with. -/
def rowsOf (dialect : Dialect) (n : WriteNode) (r : ResultSet) : List Object :=
  match dialect.returning with
  | .unsupported => presumedRows n r
  | _ => r.rows.map r.rowObject

/-- The writes that were sent, and the answers that are known after them. -/
inductive Ran (p : Plan) (dialect : Dialect) : List Sent → Answers → Prop
  | start : Ran p dialect [] (List.replicate p.nodes.length none)
  | unanswered {sent answers id n m reply} : Ran p dialect sent answers →
      p.nodes[id]? = some n → linked? p answers n = .ok (some m) →
      Ran p dialect (sent ++ [⟨id, m, reply⟩]) answers
  | answered {sent answers id n m reply r} : Ran p dialect sent answers →
      p.nodes[id]? = some n → linked? p answers n = .ok (some m) → reply.result = .ok r →
      Ran p dialect (sent ++ [⟨id, m, reply⟩]) (answers.set id (some (rowsOf dialect m r)))

section Runs
variable {σ : Type} {d : Driver σ} {s : Session (Recorded σ)} {p : Plan}

theorem runNode_eq (n : WriteNode) (s : Session σ) : runNode n s =
    (match s.dialect.returning with
      | .unsupported => (do
          let result ← Session.execute n.sql n.parameters n.document
          return presumedRows n result : SessionM σ _)
      | _ => do
          let result ← Session.query n.sql n.parameters n.document
          return result.rows.map result.rowObject) s := rfl

/-- A write that is run is sent once, and its rows are those of the reply. -/
theorem runNode_run (hs : s.driver = d.recorded) (id : Nat) (n : WriteNode) :
    ∃ reply, Sends d s (runNode n s).2 [Sent.exchange d.dialect ⟨id, n, reply⟩] ∧
      ∀ rows, (runNode n s).1 = .ok rows →
        ∃ r, reply.result = .ok r ∧ rows = rowsOf d.dialect n r := by
  have hdialect : s.dialect = d.dialect := by
    rw [Session.dialect, hs]
    rfl
  have mapped : ∀ {m : SessionM (Recorded σ) ResultSet} {f : ResultSet → List Object}
      {exchange : Exchange} {reply : Reply ResultSet}, Sends d s (m s).2 [exchange] →
      (∀ r, (m s).1 = .ok r → reply.result = .ok r) →
      Sends d s ((m >>= fun r => pure (f r)) s).2 [exchange] ∧
        ∀ rows, ((m >>= fun r => pure (f r)) s).1 = .ok rows →
          ∃ r, reply.result = .ok r ∧ rows = f r := by
    intro m f exchange reply hsends hresult
    rw [Session.bind_run]
    rcases hrun : m s with ⟨result, s'⟩
    rw [hrun] at hsends hresult
    cases result with
    | ok r => exact ⟨hsends, fun rows hrows => ⟨r, hresult r rfl, by cases hrows; rfl⟩⟩
    | error e => exact ⟨hsends, fun rows hrows => by cases hrows⟩
  rw [runNode_eq, hdialect]
  unfold Sent.exchange rowsOf
  cases d.dialect.returning with
  | unsupported =>
      obtain ⟨reply, hsends, hresult⟩ := Session.execute_run hs n.sql n.parameters n.document
      exact ⟨reply, mapped hsends hresult⟩
  | suffixClause =>
      obtain ⟨reply, hsends, hresult⟩ := Session.query_run hs n.sql n.parameters n.document
      exact ⟨reply, mapped hsends hresult⟩
  | outputClause =>
      obtain ⟨reply, hsends, hresult⟩ := Session.query_run hs n.sql n.parameters n.document
      exact ⟨reply, mapped hsends hresult⟩

/-- The answers that are known after a step that gave a result. -/
def Known (result : Except Error (Answers × List Error)) (answers : Answers) : Prop :=
  ∀ state, result = .ok state → state.1 = answers

theorem known_ok (state : Answers × List Error) : Known (.ok state) state.1 := by
  intro _ h
  cases h
  rfl

theorem known_error (e : Error) (answers : Answers) : Known (.error e) answers := by
  intro _ h
  cases h

def attempt (p : Plan) (state : Answers × List Error) (id : Nat) (n : WriteNode) :
    SessionM σ (Answers × List Error) := do
  match ← liftExcept (linked? p state.1 n) with
  | none => return state
  | some n =>
    let rows ← runNode n
    return (state.1.set id (some rows), state.2)

theorem step_some {id : Nat} {n : WriteNode} (hn : p.nodes[id]? = some n)
    (state : Answers × List Error) :
    (step p state id : SessionM σ _) = tryCatch (attempt p state id n) fun e => do
      if n.parent.isNone || (← get).inTransaction then throw e
      return (state.1, state.2 ++ [e]) := by
  rw [step, hn]
  rfl

theorem attempt_eq (state : Answers × List Error) (id : Nat) (n : WriteNode) (s : Session σ) :
    attempt p state id n s = match linked? p state.1 n with
      | .error e => (.error e, s)
      | .ok none => (.ok state, s)
      | .ok (some m) =>
        (runNode m >>= fun rows => pure (state.1.set id (some rows), state.2) : SessionM
          σ _) s := by
  unfold attempt
  cases linked? p state.1 n with
  | error e => rfl
  | ok linked => cases linked <;> rfl

theorem attempt_run {sent : List Sent} {state : Answers × List Error}
    (hran : Ran p d.dialect sent state.1) (hs : s.driver = d.recorded) {id : Nat} {n : WriteNode}
    (hn : p.nodes[id]? = some n) :
    ∃ more answers, Sends d s (attempt p state id n s).2 (more.map (Sent.exchange d.dialect)) ∧
      Ran p d.dialect (sent ++ more) answers ∧ Known (attempt p state id n s).1 answers ∧
      ∀ e, (attempt p state id n s).1 = .error e → answers = state.1 := by
  have unsent : Ran p d.dialect (sent ++ []) state.1 := by simpa using hran
  rw [attempt_eq]
  cases hlinked : linked? p state.1 n with
  | error e => exact ⟨[], state.1, .refl hs, unsent, known_error e _, fun _ _ => rfl⟩
  | ok linked =>
      cases linked with
      | none =>
          exact ⟨[], state.1, .refl hs, unsent, known_ok state, fun _ h => by cases h⟩
      | some m =>
          obtain ⟨reply, hsends, hrows⟩ := runNode_run hs id m
          dsimp only
          rw [Session.bind_run]
          rcases hrun : runNode m s with ⟨result, s'⟩
          rw [hrun] at hsends hrows
          cases result with
          | ok rows =>
              obtain ⟨r, hr, rfl⟩ := hrows rows rfl
              exact ⟨[⟨id, m, reply⟩], _, hsends, .answered hran hn hlinked hr,
                known_ok _, fun _ h => by cases h⟩
          | error e =>
              exact ⟨[⟨id, m, reply⟩], _, hsends, .unanswered hran hn hlinked,
                known_error e _, fun _ _ => rfl⟩

/-- A failed attempt ends the run, or is noted and leaves the answers as they are. -/
theorem handle_run (state : Answers × List Error) (n : WriteNode) (e : Error)
    (s : Session (Recorded σ)) (hs : s.driver = d.recorded) :
    let handle : SessionM (Recorded σ) (Answers × List Error) := do
      if n.parent.isNone || (← get).inTransaction then throw e
      return (state.1, state.2 ++ [e])
    Sends d s (handle s).2 [] ∧ Known (handle s).1 state.1 := by
  intro handle
  have hhandle : handle s = if n.parent.isNone || s.inTransaction then (.error e, s)
      else (.ok (state.1, state.2 ++ [e]), s) := by
    have hget : (get : SessionM (Recorded σ) (Session (Recorded σ))) s = (.ok s, s) := rfl
    simp only [handle, Session.bind_run, hget]
    split <;> rfl
  rw [hhandle]
  split
  · exact ⟨.refl hs, known_error e _⟩
  · exact ⟨.refl hs, known_ok (state.1, state.2 ++ [e])⟩

theorem step_run {sent : List Sent} {state : Answers × List Error}
    (hran : Ran p d.dialect sent state.1) (hs : s.driver = d.recorded) (id : Nat) :
    ∃ more answers, Sends d s (step p state id s).2 (more.map (Sent.exchange d.dialect)) ∧
      Ran p d.dialect (sent ++ more) answers ∧ Known (step p state id s).1 answers := by
  cases hn : p.nodes[id]? with
  | none =>
      have hstep : step p state id s = (.ok state, s) := by
        rw [step, hn]
        rfl
      rw [hstep]
      exact ⟨[], state.1, .refl hs, by simpa using hran, known_ok state⟩
  | some n =>
      obtain ⟨more, answers, hsends, hmore, hknown, hfailed⟩ := attempt_run hran hs hn
      rw [step_some hn, Session.tryCatch_run]
      rcases hrun : attempt p state id n s with ⟨result, s'⟩
      rw [hrun] at hsends hknown hfailed
      cases result with
      | ok next => exact ⟨more, answers, hsends, hmore, hknown⟩
      | error e =>
          obtain rfl := hfailed e rfl
          obtain ⟨hquiet, hknown⟩ := handle_run state n e s' hsends.driver
          exact ⟨more, state.1, by simpa using hsends.trans hquiet, hmore, hknown⟩

/-- A run over places of a plan sends linked writes, one after another. -/
theorem foldlM_step_run (ids : List Nat) {sent : List Sent} {state : Answers × List Error}
    (hran : Ran p d.dialect sent state.1) (hs : s.driver = d.recorded) :
    ∃ more answers,
      Sends d s ((ids.foldlM (step p) state) s).2 (more.map (Sent.exchange d.dialect)) ∧
      Ran p d.dialect (sent ++ more) answers := by
  induction ids generalizing sent state s with
  | nil => exact ⟨[], state.1, .refl hs, by simpa using hran⟩
  | cons id rest ih =>
      obtain ⟨more, answers, hsends, hmore, hknown⟩ := step_run hran hs id
      rw [List.foldlM_cons, Session.bind_run]
      rcases hrun : step p state id s with ⟨result, s'⟩
      rw [hrun] at hsends hknown
      cases result with
      | ok next =>
          obtain rfl := hknown next rfl
          obtain ⟨further, answers, hrest, hfurther⟩ := ih hmore hsends.driver
          refine ⟨more ++ further, answers, ?_, by rwa [← List.append_assoc]⟩
          rw [List.map_append]
          exact hsends.trans hrest
      | error e => exact ⟨more, answers, hsends, hmore⟩

/-- What running a plan puts on record: writes of the plan as they were linked. -/
def SendsLinked (p : Plan) (dialect : Dialect) (record : List Exchange) : Prop :=
  ∃ sent answers, record = sent.map (Sent.exchange dialect) ∧ Ran p dialect sent answers

theorem sending_runNodes : Sending d (runNodes p) (SendsLinked p d.dialect) := by
  have hfold : Sending d (p.executionOrder.foldlM (step p) (List.replicate p.nodes.length none, []))
      (SendsLinked p d.dialect) := by
    intro s hs
    have hstart :
      Ran p d.dialect [] (List.replicate p.nodes.length none, ([] : List Error)).1 := .start
    obtain ⟨sent, answers, hsends, hran⟩ := foldlM_step_run p.executionOrder hstart hs
    exact ⟨_, hsends, sent, answers, rfl, hran⟩
  exact hfold.then_quiet fun _ => Session.quiet_pure _

/-- Running a plan sends linked writes, and beside them only what opens and closes its
transaction. -/
theorem sending_runPlan (options : TransactionOptions) :
    Sending d (runPlan options p) (SendsLinked p d.dialect) := by
  have hnone : SendsLinked p d.dialect [] := ⟨[], _, rfl, .start⟩
  have hrest : Sending d (do
      let result ← tryCatch (runNodes p) fun e => do
        Session.abandon
        throw e
      if options.commits then Session.commit 1
      return result) (SendsLinked p d.dialect) := by
    refine (sending_runNodes.tryCatch_quiet fun e =>
      Session.quiet_abandon.bind fun _ => Session.quiet_throw e).then_quiet fun result => ?_
    split
    · exact (Session.quiet_commit 1).bind fun _ => Session.quiet_pure result
    · exact Session.quiet_pure result
  refine Session.Sending.after_quiet Session.quiet_get (fun s => ?_) hnone
  by_cases hbegins : (options.begins && !s.inTransaction) = true
  · simp only [hbegins, if_true]
    exact Session.Sending.after_quiet Session.quiet_begin (fun _ => hrest) hnone
  · simp only [hbegins]
    exact hrest

end Runs

/-- What is known of a write that was sent: it is the write at its place of the plan, and below a
parent it was sent after the parent had answered, with the row that it is linked to put in. Without
that row only a write that takes nothing from it is sent. -/
def Linked (p : Plan) (dialect : Dialect) (before : List Sent) (w : Sent) : Prop :=
  ∃ n, p.nodes[w.id]? = some n ∧ match n.parent with
    | none => w.node = n
    | some link => ∃ parent ∈ before, parent.id = link.node ∧ ∃ r, parent.reply.result = .ok r ∧
        match (rowsOf dialect parent.node r)[link.row]? with
        | some row => w.node = n.inject row
        | none => n.injected = [] ∧ w.node = n

section Linked
variable {p : Plan} {dialect : Dialect} {sent : List Sent} {answers : Answers}

theorem Ran.answer (h : Ran p dialect sent answers) {id : Nat} {rows : List Object}
    (hrows : answerOf answers id = some rows) :
    ∃ w ∈ sent, w.id = id ∧ ∃ r, w.reply.result = .ok r ∧ rows = rowsOf dialect w.node r := by
  induction h with
  | start =>
      rw [answerOf, List.getD_eq_getElem?_getD, List.getElem?_replicate] at hrows
      split at hrows <;> cases hrows
  | unanswered _ _ _ ih =>
      obtain ⟨w, hw, hid⟩ := ih hrows
      exact ⟨w, List.mem_append_left _ hw, hid⟩
  | @answered sent answers id' n m reply r _ _ _ hr ih =>
      by_cases hsame : id' = id ∧ id' < answers.length
      · obtain ⟨rfl, hlt⟩ := hsame
        have : rowsOf dialect m r = rows := by simpa [answerOf, hlt] using hrows
        exact ⟨_, List.mem_append_right _ List.mem_cons_self, rfl, r, hr, this.symm⟩
      · have : answerOf answers id = some rows := by
          rw [← hrows, answerOf, answerOf, List.getD_eq_getElem?_getD, List.getD_eq_getElem?_getD,
            List.getElem?_set]
          by_cases hid : id' = id
          · have hge : ¬ id' < answers.length := fun hlt => hsame ⟨hid, hlt⟩
            simp [hid ▸ hge, hid]
          · simp [hid]
        obtain ⟨w, hw, hid⟩ := ih this
        exact ⟨w, List.mem_append_left _ hw, hid⟩

theorem linked_of_linked? (h : Ran p dialect sent answers) {id : Nat} {n m : WriteNode}
    {reply : Reply ResultSet} (hn : p.nodes[id]? = some n)
    (hlinked : linked? p answers n = .ok (some m)) : Linked p dialect sent ⟨id, m, reply⟩ := by
  refine ⟨n, hn, ?_⟩
  unfold linked? at hlinked
  cases hparent : n.parent with
  | none =>
      rw [hparent] at hlinked
      cases hlinked
      rfl
  | some link =>
      rw [hparent] at hlinked
      dsimp only at hlinked ⊢
      cases hanswer : answerOf answers link.node with
      | none =>
          rw [hanswer] at hlinked
          cases hlinked
      | some rows =>
          rw [hanswer] at hlinked
          obtain ⟨parent, hmem, hid, r, hr, rfl⟩ := h.answer hanswer
          refine ⟨parent, hmem, hid, r, hr, ?_⟩
          dsimp only at hlinked
          cases hrow : (rowsOf dialect parent.node r)[link.row]? with
          | none =>
              rw [hrow] at hlinked
              dsimp only at hlinked ⊢
              split at hlinked
              · cases hlinked
                exact ⟨List.isEmpty_iff.mp ‹_›, rfl⟩
              · cases hlinked
          | some row =>
              rw [hrow] at hlinked
              cases hlinked
              rfl

/-- Every write that was sent is linked to what was sent before it. -/
theorem Ran.linked (h : Ran p dialect sent answers) {before after : List Sent} {w : Sent}
    (hsent : sent = before ++ w :: after) : Linked p dialect before w := by
  -- Only the last write is new in a step; any write before it was linked in the run so far.
  have last : ∀ {sent : List Sent} {v : Sent}, (∀ {before after : List Sent},
      sent = before ++ w :: after → Linked p dialect before w) → Linked p dialect sent v →
      ∀ {before after : List Sent}, sent ++ [v] = before ++ w :: after →
      Linked p dialect before w := by
    intro sent v ih hv before after hsplit
    rcases List.eq_nil_or_concat after with rfl | ⟨init, x, rfl⟩
    · obtain ⟨rfl, heq⟩ := List.append_inj' hsplit rfl
      obtain rfl := (List.cons.inj heq).1
      exact hv
    · rw [List.concat_eq_append, ← List.cons_append, ← List.append_assoc] at hsplit
      exact ih (List.append_inj' hsplit rfl).1
  induction h generalizing before after with
  | start => simp at hsent
  | unanswered hran hn hlinked ih => exact last ih (linked_of_linked? hran hn hlinked) hsent
  | answered hran hn hlinked _ ih => exact last ih (linked_of_linked? hran hn hlinked) hsent

theorem Ran.linked_of_mem (h : Ran p dialect sent answers) {w : Sent} (hw : w ∈ sent) :
    ∃ before, Linked p dialect before w := by
  obtain ⟨before, after, hsent⟩ := List.append_of_mem hw
  exact ⟨before, h.linked hsent⟩

end Linked

end SqlGateway.Execution
