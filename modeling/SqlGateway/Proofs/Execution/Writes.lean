import SqlGateway.Proofs.Execution.Account

/-!
# Runs in which every write is answered

The writes that a run sends, read off the run itself. Where all of them are accepted, and each
returns a row for every write that is linked to it, a run passes over nothing: it goes through all
places of the plan, sends the write at each of them, and comes to an outcome without failures.
-/
namespace SqlGateway.Execution

open Connection (Driver Session SessionM)
open Mutation (ParentLink Plan WriteNode)

variable {σ : Type} {d : Driver σ} {p : Plan} {timeout : Duration} {inTransaction : Bool} {a : σ}
  {s : Session σ}

/-- What is sent of the write at a place, if its parent has answered. -/
def sentNow (p : Plan) (answers : Answers) (id : Nat) (s : Session σ) : List Sent :=
  match (p.nodes[id]?).map (linked? p answers) with
  | some (.ok (some m)) => [⟨id, m, (answer s.driver m s.server).1⟩]
  | _ => []

/-- The writes that a run over places sends, with the replies to them. -/
def sentFrom (p : Plan) : List Nat → Answers × List Error → Session σ → List Sent
  | [], _, _ => []
  | id :: rest, state, s =>
    sentNow p state.1 id s ++
      match step p state id s with
      | (.ok state', s') => sentFrom p rest state' s'
      | (.error _, _) => []

/-- The writes that a plan sends on a session. -/
def sentWrites (p : Plan) (s : Session σ) : List Sent :=
  sentFrom p p.executionOrder (List.replicate p.nodes.length none, []) s

/-- Whether every write that succeeded returned a row for each write that is linked to it. -/
def returnsLinked (p : Plan) (dialect : Dialect) (timeout : Duration) (sent : List Sent) : Bool :=
  sent.all fun w =>
    match w.outcome timeout with
    | .error _ => true
    | .ok r => p.nodes.all fun n => n.parent.all fun link =>
        !(link.node == w.id) || decide (link.row < (rowsOf dialect w.node r).length)

theorem returnsLinked_iff {dialect : Dialect} {sent : List Sent} :
    returnsLinked p dialect timeout sent = true ↔ ReturnsLinked p dialect timeout sent := by
  unfold returnsLinked ReturnsLinked
  rw [List.all_eq_true]
  refine forall₂_congr fun w _ => ?_
  cases w.outcome timeout with
  | error e => exact ⟨fun _ r hr => (nomatch hr), fun _ => rfl⟩
  | ok r =>
      have hlink : ∀ (id : Nat) (shorter : Prop) [Decidable shorter],
          (!(id == w.id) || decide shorter) = true ↔ (id = w.id → shorter) := by
        intro id shorter _
        by_cases hid : id = w.id <;> simp [hid]
      simp only [List.all_eq_true, Option.all_eq_true, hlink, Except.ok.injEq, forall_eq']

theorem step_serves (state : Answers × List Error) (id : Nat)
    (hs : Stands d timeout inTransaction a s) : ∃ b, Serves d a (sentNow p state.1 id s) b ∧
      Stands d timeout inTransaction b (step p state id s).2 := by
  unfold sentNow
  cases hn : p.nodes[id]? with
  | none =>
      refine ⟨a, .nil, ?_⟩
      rw [step, hn]
      exact hs
  | some n =>
      have handled : ∀ (e : Error) (s' : Session σ), ((do
          if n.parent.isNone || (← get).inTransaction then throw e
          return (state.1, state.2 ++ [e]) : SessionM σ (Answers × List Error)) s').2 = s' := by
        intro e s'
        rw [handle_eq]
        split <;> rfl
      rw [step_some hn, Session.tryCatch_run, attempt_eq, Option.map_some]
      cases hlinked : linked? p state.1 n with
      | error e =>
          refine ⟨a, .nil, ?_⟩
          dsimp only
          rw [handled]
          exact hs
      | ok linked =>
          cases linked with
          | none => exact ⟨a, .nil, hs⟩
          | some m =>
              obtain ⟨reply, b, s', hanswer, hrun, hs'⟩ := runNode_stands hs m
              dsimp only
              rw [hs.driver, hs.server, hanswer, Session.bind_run, hrun]
              refine ⟨b, .single hanswer, ?_⟩
              cases settled timeout m.document reply with
              | ok r => exact hs'
              | error e =>
                  dsimp only [Except.map]
                  rw [handled]
                  exact hs'

theorem foldlM_serves (ids : List Nat) (state : Answers × List Error)
    (hs : Stands d timeout inTransaction a s) :
    ∃ b, Serves d a (sentFrom p ids state s) b ∧
      Stands d timeout inTransaction b ((ids.foldlM (step p) state) s).2 := by
  induction ids generalizing state s a with
  | nil => exact ⟨a, .nil, hs⟩
  | cons id rest ih =>
      obtain ⟨b, hserves, hs'⟩ := step_serves (p := p) state id hs
      rw [sentFrom, List.foldlM_cons, Session.bind_run]
      rcases hstep : step p state id s with ⟨result, s'⟩
      rw [hstep] at hs'
      cases result with
      | error e => exact ⟨b, by simpa using hserves, hs'⟩
      | ok state' =>
          obtain ⟨c, hrest, hs''⟩ := ih state' hs'
          exact ⟨c, hserves.append hrest, hs''⟩

theorem runNodes_serves (p : Plan) (hs : Stands d timeout inTransaction a s) :
    ∃ b, Serves d a (sentWrites p s) b ∧ Stands d timeout inTransaction b (runNodes p s).2 := by
  obtain ⟨b, hserves, hs'⟩ :=
    foldlM_serves p.executionOrder (List.replicate p.nodes.length none, []) hs
  refine ⟨b, hserves, ?_⟩
  rw [runNodes, Session.bind_run]
  rcases hrun :
    p.executionOrder.foldlM (step p) (List.replicate p.nodes.length none, []) s with ⟨result, s'⟩
  rw [hrun] at hs'
  cases result with
  | ok state => exact hs'
  | error e => exact hs'

/-- The answers known so far have the row that any further write at a place below `k` is linked
to. -/
structure Ready (p : Plan) (k : Nat) (answers : Answers) : Prop where
  length : answers.length = p.nodes.length
  row : ∀ n ∈ p.nodes, ∀ link, n.parent = some link → link.node < k →
    ∃ rows, answerOf answers link.node = some rows ∧ link.row < rows.length

section Ready
variable {answers : Answers} {k : Nat} {n m : WriteNode} {rows : List Object}

theorem ready_start (p : Plan) : Ready p 0 (List.replicate p.nodes.length none) where
  length := List.length_replicate
  row _ _ _ _ h := absurd h (Nat.not_lt_zero _)

/-- The next write is sent, and its statement is the one that was planned. -/
theorem Ready.exists_linked (h : Ready p k answers) (htree : p.IsTree) (hn : p.nodes[k]? = some n) :
    ∃ m, linked? p answers n = .ok (some m) ∧ m.sql = n.sql := by
  unfold linked?
  cases hparent : n.parent with
  | none => exact ⟨n, rfl, rfl⟩
  | some link =>
      obtain ⟨rows, hrows, hrow⟩ :=
        h.row n (List.mem_of_getElem? hn) link hparent (htree.parent_lt hn hparent)
      dsimp only
      rw [hrows]
      dsimp only
      rw [List.getElem?_eq_getElem hrow]
      exact ⟨_, rfl, by rw [Mutation.inject_eq]⟩

theorem Ready.set (h : Ready p k answers) (hk : k < p.nodes.length)
    (hrows : ∀ n ∈ p.nodes, ∀ link, n.parent = some link → link.node = k → link.row < rows.length) :
    Ready p (k + 1) (answers.set k (some rows)) where
  length := (List.length_set ..).trans h.length
  row n hn link hlink hlt := by
    rw [answerOf_set (by rwa [h.length])]
    rcases Nat.lt_succ_iff_lt_or_eq.mp hlt with hold | hnew
    · rw [if_neg (Nat.ne_of_lt hold)]
      exact h.row n hn link hlink hold
    · rw [if_pos hnew]
      exact ⟨rows, rfl, hrows n hn link hlink hnew⟩

end Ready

/-- A write that is linked and answered in time takes its place among the answers. -/
theorem step_answered (state : Answers × List Error) {id : Nat} {n m : WriteNode}
    (hn : p.nodes[id]? = some n) (hlinked : linked? p state.1 n = .ok (some m))
    (hs : Stands d timeout inTransaction a s) {r : ResultSet}
    (hr : settled timeout m.document (answer d m a).1 = .ok r) :
    ∃ s', step p state id s = (.ok (state.1.set id (some (rowsOf d.dialect m r)), state.2), s') ∧
      Stands d timeout inTransaction (answer d m a).2 s' := by
  obtain ⟨reply, b, s', hanswer, hrun, hs'⟩ := runNode_stands hs m
  rw [hanswer] at hr ⊢
  refine ⟨s', ?_, hs'⟩
  rw [step_some hn, Session.tryCatch_run, attempt_eq, hlinked]
  dsimp only
  rw [Session.bind_run, hrun, hr]
  rfl

/-- From a place on, a run whose writes are all accepted and return the rows that are linked to goes
through the rest of the plan. -/
theorem foldlM_ready (htree : p.IsTree) {k more : Nat} (hlength : k + more = p.nodes.length)
    {answers : Answers} (hready : Ready p k answers) (hs : Stands d timeout inTransaction a s)
    (hsucceeded : ∀ w ∈ sentFrom p (List.range' k more) (answers, []) s, ∃ r,
      w.outcome timeout = .ok r)
    (hreturns : ReturnsLinked p d.dialect timeout
      (sentFrom p (List.range' k more) (answers, []) s)) :
    (∃ answers' s', ((List.range' k more).foldlM (step p) (answers, [])) s =
      (.ok (answers', []), s')) ∧
      (sentFrom p (List.range' k more) (answers, []) s).map (·.node.sql) =
        (p.nodes.drop k).map (·.sql) := by
  induction more generalizing k answers s a with
  | zero =>
      have hnone : p.nodes.drop k = [] := List.drop_eq_nil_iff.mpr (by omega)
      rw [hnone]
      exact ⟨⟨answers, s, rfl⟩, rfl⟩
  | succ more ih =>
      have hk : k < p.nodes.length := by omega
      have hn : p.nodes[k]? = some p.nodes[k] := List.getElem?_eq_getElem hk
      obtain ⟨m, hlinked, hsql⟩ := hready.exists_linked htree hn
      have hnow : sentNow p answers k s = [⟨k, m, (answer d m a).1⟩] := by
        rw [sentNow, hn, Option.map_some, hlinked, hs.driver, hs.server]
      rw [List.range'_succ, sentFrom] at hsucceeded hreturns ⊢
      dsimp only at hsucceeded hreturns ⊢
      rw [hnow] at hsucceeded hreturns ⊢
      obtain ⟨⟨r, hr⟩, hlater⟩ := List.forall_mem_cons.mp hsucceeded
      obtain ⟨s', hstep, hs'⟩ := step_answered (answers, []) hn hlinked hs hr
      rw [hstep] at hlater hreturns ⊢
      have hset := hready.set hk fun n' hn' link hlink hid =>
        hreturns _ List.mem_cons_self r hr n' hn' link hlink hid
      obtain ⟨⟨answers', s'', hrest⟩, hsqls⟩ := ih (by omega) hset hs' hlater
        fun w hw => hreturns w (List.mem_cons_of_mem _ hw)
      refine ⟨⟨answers', s'', ?_⟩, ?_⟩
      · rw [List.foldlM_cons, Session.bind_run, hstep]
        exact hrest
      · rw [List.singleton_append, List.map_cons, hsqls, List.drop_eq_getElem_cons hk,
          List.map_cons, hsql]

/-- A plan all of whose writes are accepted, and return the rows that are linked to, sends its
statements in their order and comes to an outcome without failures. -/
theorem runNodes_ready (htree : p.IsTree) (hs : Stands d timeout inTransaction a s)
    (hsucceeded : ∀ w ∈ sentWrites p s, ∃ r, w.outcome timeout = .ok r)
    (hreturns : ReturnsLinked p d.dialect timeout (sentWrites p s)) :
    (∃ answers s', runNodes p s = (.ok (outcome p answers []), s')) ∧
      (sentWrites p s).map (·.node.sql) = p.nodes.map (·.sql) := by
  have horder : p.executionOrder = List.range' 0 p.nodes.length := by
    rw [htree.order.1, List.range_eq_range']
  rw [sentWrites, horder] at hsucceeded hreturns ⊢
  obtain ⟨⟨answers, s', hrun⟩, hsqls⟩ :=
    foldlM_ready htree (Nat.zero_add _) (ready_start p) hs hsucceeded hreturns
  refine ⟨⟨answers, s', ?_⟩, hsqls⟩
  rw [runNodes, horder, Session.bind_run, hrun]
  rfl

end SqlGateway.Execution
