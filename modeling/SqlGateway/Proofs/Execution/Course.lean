import SqlGateway.Proofs.Connection.Journal
import SqlGateway.Proofs.Execution.Trace

/-!
# The course of a run

How the writes of a plan go one after another, on any database: each is left out because its parent
has no answer, or cannot be linked to its parent's row, or is sent and answered, or is sent and
fails. The statements that were sent are told by what the driver is asked for in each state of the
database, so no other call was made between them.
-/
namespace SqlGateway.Execution

open Connection (Driver Recorded Reply Session SessionM)
open Mutation (Plan WriteNode)

/-- What a session makes of a reply. One that comes too late is none. -/
def settled {α : Type} (timeout : Duration) (document : Nat) (reply : Reply α) : Except Error α :=
  if timeout.nanoseconds < reply.delay.nanoseconds then .error (.timeout timeout)
  else
    match reply.result with
    | .ok v => .ok v
    | .error e => .error (e.toError document)

def Sent.outcome (timeout : Duration) (w : Sent) : Except Error ResultSet :=
  settled timeout w.node.document w.reply

theorem result_of_outcome {timeout : Duration} {w : Sent} {r : ResultSet}
    (h : w.outcome timeout = .ok r) : w.reply.result = .ok r := by
  unfold Sent.outcome settled at h
  split at h
  · cases h
  · cases hresult : w.reply.result with
    | error e =>
        rw [hresult] at h
        cases h
    | ok v =>
        rw [hresult] at h
        cases h
        rfl

section Serves
variable {σ : Type}

/-- The call that sends a write. -/
def answer (d : Driver σ) (n : WriteNode) : StateM σ (Reply ResultSet) :=
  match d.dialect.returning with
  | .unsupported => d.execute n.sql n.parameters
  | _ => d.query n.sql n.parameters

/-- A driver is sent writes, and nothing else, and they lead its database from one state to
another. -/
inductive Serves (d : Driver σ) : σ → List Sent → σ → Prop where
  | nil {a : σ} : Serves d a [] a
  | cons {a b c : σ} {w : Sent} {rest : List Sent} : answer d w.node a = (w.reply, b) →
      Serves d b rest c → Serves d a (w :: rest) c

variable {d : Driver σ} {a b c : σ} {sent more : List Sent}

theorem Serves.append (h : Serves d a sent b) (k : Serves d b more c) :
    Serves d a (sent ++ more) c := by
  induction h with
  | nil => exact k
  | cons hanswer _ ih => exact .cons hanswer (ih k)

theorem Serves.single {w : Sent} (h : answer d w.node a = (w.reply, b)) : Serves d a [w] b :=
  .cons h .nil

theorem record_answer (d : Driver σ) (n : WriteNode) (a : Recorded σ) (id : Nat) :
    (answer d.recorded n a).2.record =
      a.record ++ [Sent.exchange d.dialect ⟨id, n, (answer d.recorded n a).1⟩] := by
  have hdialect : d.recorded.dialect = d.dialect := rfl
  unfold answer Sent.exchange
  rw [hdialect]
  cases d.dialect.returning <;> rfl

/-- On a recorded driver, what was sent is what was put on record. -/
theorem Serves.record {d : Driver σ} {a b : Recorded σ} (h : Serves d.recorded a sent b) :
    b.record = a.record ++ sent.map (Sent.exchange d.dialect) := by
  induction h with
  | nil => exact (List.append_nil _).symm
  | @cons a b c w rest hanswer _ ih =>
      have hnoted := record_answer d w.node a w.id
      rw [hanswer] at hnoted
      rw [ih, hnoted, List.append_assoc]
      rfl

/-- A session on a driver whose database is in a given state. -/
structure Stands (d : Driver σ) (timeout : Duration) (inTransaction : Bool) (a : σ)
    (s : Session σ) : Prop where
  driver : s.driver = d
  timeout : s.timeout = timeout
  inTransaction : s.inTransaction = inTransaction
  server : s.server = a

variable {timeout : Duration} {inTransaction : Bool} {s : Session σ}

theorem Stands.dialect (h : Stands d timeout inTransaction a s) : s.dialect = d.dialect := by
  rw [Session.dialect, h.driver]

theorem call_stands {α : Type} (hs : Stands d timeout inTransaction a s) (document : Nat)
    (f : Driver σ → StateM σ (Reply α)) : ∃ reply b s', f d a = (reply, b) ∧
      Session.call document f s = (settled timeout document reply, s') ∧
      Stands d timeout inTransaction b s' := by
  obtain ⟨rfl, rfl, rfl, rfl⟩ := hs
  rcases hrun : f s.driver s.server with ⟨⟨delay, result⟩, server⟩
  refine ⟨⟨delay, result⟩, server, (Session.call document f s).2, rfl, ?_⟩
  unfold Session.call settled
  simp only [ExceptT.mk, StateT.run, hrun]
  split
  · exact ⟨rfl, rfl, rfl, rfl, rfl⟩
  · cases result with
    | ok v => exact ⟨rfl, rfl, rfl, rfl, rfl⟩
    | error e => exact ⟨rfl, rfl, rfl, rfl, rfl⟩

/-- A write that is run is sent once, and its rows are those of the reply. -/
theorem runNode_stands (hs : Stands d timeout inTransaction a s) (n : WriteNode) :
    ∃ reply b s', answer d n a = (reply, b) ∧
      runNode n s = ((settled timeout n.document reply).map (rowsOf d.dialect n), s') ∧
      Stands d timeout inTransaction b s' := by
  have mapped :
    ∀ {m : SessionM σ ResultSet} {f : ResultSet → List Object} {result : Except Error ResultSet}
      {s' : Session σ}, m s = (result, s') →
      (m >>= fun r => pure (f r)) s = (result.map f, s') := by
    intro m f result s' hm
    rw [Session.bind_run, hm]
    cases result <;> rfl
  rw [runNode_eq, hs.dialect]
  unfold answer rowsOf
  cases d.dialect.returning with
  | unsupported =>
      obtain ⟨reply, b, s', hanswer, hrun, hs'⟩ :=
        call_stands hs n.document (·.execute n.sql n.parameters)
      exact ⟨reply, b, s', hanswer, mapped hrun, hs'⟩
  | suffixClause =>
      obtain ⟨reply, b, s', hanswer, hrun, hs'⟩ :=
        call_stands hs n.document (·.query n.sql n.parameters)
      exact ⟨reply, b, s', hanswer, mapped hrun, hs'⟩
  | outputClause =>
      obtain ⟨reply, b, s', hanswer, hrun, hs'⟩ :=
        call_stands hs n.document (·.query n.sql n.parameters)
      exact ⟨reply, b, s', hanswer, mapped hrun, hs'⟩

end Serves

/-- What has become of the writes at some places, one after another: the statements sent, the
answers known after them, and the failures that were passed over. -/
inductive Course (p : Plan) (dialect : Dialect) (timeout : Duration) :
    List Nat → List Sent → Answers → List Error → Prop where
  | start : Course p dialect timeout [] [] (List.replicate p.nodes.length none) []
  | skipped {ids sent answers failures id n} : Course p dialect timeout ids sent answers failures →
      p.nodes[id]? = some n → linked? p answers n = .ok none →
      Course p dialect timeout (ids ++ [id]) sent answers failures
  | answered {ids sent answers failures id n m reply r} :
      Course p dialect timeout ids sent answers failures →
      p.nodes[id]? = some n → linked? p answers n = .ok (some m) →
      settled timeout m.document reply = .ok r →
      Course p dialect timeout (ids ++ [id]) (sent ++ [⟨id, m, reply⟩])
        (answers.set id (some (rowsOf dialect m r))) failures
  | failed {ids sent answers failures id n m reply e} :
      Course p dialect timeout ids sent answers failures →
      p.nodes[id]? = some n → linked? p answers n = .ok (some m) →
      settled timeout m.document reply = .error e →
      Course p dialect timeout (ids ++ [id]) (sent ++ [⟨id, m, reply⟩]) answers (failures ++ [e])
  | unlinked {ids sent answers failures id n e} :
      Course p dialect timeout ids sent answers failures →
      p.nodes[id]? = some n → linked? p answers n = .error e →
      Course p dialect timeout (ids ++ [id]) sent answers (failures ++ [e])

/-- A run ended before its time: at a root, or anywhere in a transaction, a write failed or could
not be linked. -/
inductive Halts (p : Plan) (dialect : Dialect) (timeout : Duration) (inTransaction : Bool) :
    List Nat → List Sent → Error → Prop where
  | failed {ids rest sent answers failures id n m reply e} :
      Course p dialect timeout ids sent answers failures → p.nodes[id]? = some n →
      linked? p answers n = .ok (some m) → settled timeout m.document reply = .error e →
      n.parent = none ∨ inTransaction = true →
      Halts p dialect timeout inTransaction (ids ++ id :: rest) (sent ++ [⟨id, m, reply⟩]) e
  | unlinked {ids rest sent answers failures id n e} :
      Course p dialect timeout ids sent answers failures → p.nodes[id]? = some n →
      linked? p answers n = .error e → n.parent = none ∨ inTransaction = true →
      Halts p dialect timeout inTransaction (ids ++ id :: rest) sent e

section Runs
variable {σ : Type} {d : Driver σ} {p : Plan} {timeout : Duration} {inTransaction : Bool} {a : σ}
  {s : Session σ}

/-- No write failed whose failure would have stopped the run. -/
def PassedOver (p : Plan) (timeout : Duration) (inTransaction : Bool) (sent : List Sent) : Prop :=
  ∀ w ∈ sent, ∀ n, p.nodes[w.id]? = some n → n.parent = none ∨ inTransaction = true →
    ∃ r, w.outcome timeout = .ok r

/-- What a run over places comes to: it gets through those that were to be run, or it stops at one
of them. -/
def Comes (p : Plan) (dialect : Dialect) (timeout : Duration) (inTransaction : Bool)
    (ids rest : List Nat) (sent : List Sent) : Except Error (Answers × List Error) → Prop
  | .ok state =>
      Course p dialect timeout ids sent state.1 state.2 ∧ PassedOver p timeout inTransaction sent
  | .error e => Halts p dialect timeout inTransaction (ids ++ rest) sent e

theorem handle_eq (state : Answers × List Error) (n : WriteNode) (e : Error) (s : Session σ) :
    (do
      if n.parent.isNone || (← get).inTransaction then throw e
      return (state.1, state.2 ++ [e]) : SessionM σ (Answers × List Error)) s =
    if n.parent.isNone || s.inTransaction then (.error e, s)
    else (.ok (state.1, state.2 ++ [e]), s) := by
  have hget : (get : SessionM σ (Session σ)) s = (.ok s, s) := rfl
  simp only [Session.bind_run, hget]
  split <;> rfl

/-- A failure is passed over below a root and outside of a transaction. -/
theorem comes_handled {ids : List Nat} (rest : List Nat) {id : Nat} {sent : List Sent}
    {state : Answers × List Error}
    {n : WriteNode} {e : Error} (hs : Stands d timeout inTransaction a s)
    (hnoted : Course p d.dialect timeout (ids ++ [id]) sent state.1 (state.2 ++ [e]))
    (hpassed : ¬ (n.parent = none ∨ inTransaction = true) → PassedOver p timeout inTransaction sent)
    (hhalts : n.parent = none ∨ inTransaction = true →
      Halts p d.dialect timeout inTransaction (ids ++ id :: rest) sent e) :
    ∃ result, (if n.parent.isNone || s.inTransaction then (.error e, s)
        else (.ok (state.1, state.2 ++ [e]), s) : Except Error (Answers × List Error) × Session σ) =
          (result, s) ∧ Comes p d.dialect timeout inTransaction (ids ++ [id]) rest sent result := by
  have hends :
      (n.parent.isNone || s.inTransaction) = true ↔ n.parent = none ∨ inTransaction = true := by
    rw [hs.inTransaction, Bool.or_eq_true, Option.isNone_iff_eq_none]
  by_cases hstops : n.parent = none ∨ inTransaction = true
  · refine ⟨.error e, if_pos (hends.mpr hstops), ?_⟩
    rw [Comes, List.append_assoc]
    exact hhalts hstops
  · exact ⟨_, if_neg (mt hends.mp hstops), hnoted, hpassed hstops⟩

theorem step_stands {ids : List Nat} {sent : List Sent} {state : Answers × List Error}
    (hcourse : Course p d.dialect timeout ids sent state.1 state.2)
    (hpassed : PassedOver p timeout inTransaction sent) (hs : Stands d timeout inTransaction a s)
    {id : Nat} (hid : id < p.nodes.length) (rest : List Nat) :
    ∃ more b s' result, Serves d a more b ∧ Stands d timeout inTransaction b s' ∧
      step p state id s = (result, s') ∧
      Comes p d.dialect timeout inTransaction (ids ++ [id]) rest (sent ++ more) result := by
  obtain ⟨n, hn⟩ : ∃ n, p.nodes[id]? = some n := ⟨_, List.getElem?_eq_getElem hid⟩
  rw [step_some hn, Session.tryCatch_run, attempt_eq]
  cases hlinked : linked? p state.1 n with
  | error e =>
      obtain ⟨result, hresult, hcomes⟩ := comes_handled rest hs (.unlinked hcourse hn hlinked)
        (fun _ => hpassed) (.unlinked hcourse hn hlinked)
      refine ⟨[], a, s, result, .nil, hs, ?_, by simpa using hcomes⟩
      exact (handle_eq state _ e s).trans hresult
  | ok linked =>
      cases linked with
      | none =>
          refine ⟨[], a, s, .ok state, .nil, hs, rfl, ?_⟩
          rw [List.append_nil]
          exact ⟨.skipped hcourse hn hlinked, hpassed⟩
      | some m =>
          obtain ⟨reply, b, s', hanswer, hrun, hs'⟩ := runNode_stands hs m
          have hserves : Serves d a [⟨id, m, reply⟩] b := .single hanswer
          -- the new write is no obstacle if it succeeded, or if a failure of it may be passed over
          have hmore :
              (n.parent = none ∨ inTransaction = true →
                ∃ r, settled timeout m.document reply = .ok r) →
              PassedOver p timeout inTransaction (sent ++ [⟨id, m, reply⟩]) := by
            intro hlast
            refine List.forall_mem_append.mpr
              ⟨hpassed, List.forall_mem_singleton.mpr fun n' hn' => ?_⟩
            obtain rfl := Option.some.inj (hn.symm.trans hn')
            exact hlast
          dsimp only
          rw [Session.bind_run, hrun]
          cases hsettled : settled timeout m.document reply with
          | ok r =>
              exact ⟨_, b, s', _, hserves, hs', rfl, .answered hcourse hn hlinked hsettled,
                hmore fun _ => ⟨r, hsettled⟩⟩
          | error e =>
              obtain ⟨result, hresult, hcomes⟩ :=
                comes_handled rest hs' (.failed hcourse hn hlinked hsettled)
                (fun hpasses => hmore fun hstops => absurd hstops hpasses)
                (.failed hcourse hn hlinked hsettled)
              refine ⟨_, b, s', result, hserves, hs', ?_, hcomes⟩
              exact (handle_eq state _ e s').trans hresult

theorem foldlM_step_stands {ids rest : List Nat} {sent : List Sent} {state : Answers × List Error}
    (hcourse : Course p d.dialect timeout ids sent state.1 state.2)
    (hpassed : PassedOver p timeout inTransaction sent) (hs : Stands d timeout inTransaction a s)
    (hrest : ∀ id ∈ rest, id < p.nodes.length) :
    ∃ more b s' result, Serves d a more b ∧ Stands d timeout inTransaction b s' ∧
      (rest.foldlM (step p) state) s = (result, s') ∧
      Comes p d.dialect timeout inTransaction (ids ++ rest) [] (sent ++ more) result := by
  induction rest generalizing ids sent state s a with
  | nil =>
      refine ⟨[], a, s, .ok state, .nil, hs, rfl, ?_⟩
      rw [List.append_nil, List.append_nil]
      exact ⟨hcourse, hpassed⟩
  | cons id rest ih =>
      obtain ⟨hid, hothers⟩ := List.forall_mem_cons.mp hrest
      obtain ⟨more, b, s', result, hserves, hs', hstep, hcomes⟩ :=
        step_stands hcourse hpassed hs hid rest
      rw [List.foldlM_cons, Session.bind_run, hstep]
      cases result with
      | error e =>
          refine ⟨more, b, s', .error e, hserves, hs', rfl, ?_⟩
          simpa [Comes] using hcomes
      | ok next =>
          obtain ⟨further, c, s'', result, hlater, hs'', hfold, hends⟩ :=
            ih hcomes.1 hcomes.2 hs' hothers
          refine ⟨more ++ further, c, s'', result, hserves.append hlater, hs'', hfold, ?_⟩
          simpa using hends

/-- The writes of a plan are run in its order, as far as the run goes. -/
theorem runNodes_stands (hs : Stands d timeout inTransaction a s)
    (horder : ∀ id ∈ p.executionOrder, id < p.nodes.length) :
    ∃ sent b s' result, Serves d a sent b ∧ Stands d timeout inTransaction b s' ∧
      runNodes p s = (result, s') ∧
      match result with
      | .ok reached => ∃ answers failures,
          Course p d.dialect timeout p.executionOrder sent answers failures ∧
          PassedOver p timeout inTransaction sent ∧ reached = outcome p answers failures
      | .error e => Halts p d.dialect timeout inTransaction p.executionOrder sent e := by
  have hstart : Course p d.dialect timeout [] [] (List.replicate p.nodes.length none,
      ([] : List Error)).1 [] :=
    .start
  obtain ⟨sent, b, s', result, hserves, hs', hfold, hcomes⟩ :=
    foldlM_step_stands hstart (List.forall_mem_nil _) hs horder
  rw [runNodes, Session.bind_run, hfold]
  cases result with
  | ok state => exact ⟨sent, b, s', _, hserves, hs', rfl, state.1, state.2, hcomes.1, hcomes.2, rfl⟩
  | error e =>
      refine ⟨sent, b, s', .error e, hserves, hs', rfl, ?_⟩
      simpa [Comes] using hcomes

/-- A plan as it runs once its transaction, if it wants one, is open. -/
def runOpened (options : TransactionOptions) (p : Plan) : SessionM σ WriteOutcome := do
  let result ← tryCatch (runNodes p) fun e => do
    Session.abandon
    throw e
  if options.commits then Session.commit 1
  return result

theorem runPlan_eq (options : TransactionOptions) (p : Plan) (s : Session σ) : runPlan options p s =
    if options.begins && !s.inTransaction then (Session.begin_ >>= fun _ => runOpened options p) s
    else runOpened options p s := by
  have hget : (get : SessionM σ (Session σ)) s = (.ok s, s) := rfl
  unfold runPlan
  rw [Session.bind_run, hget]
  dsimp only
  split <;> rfl

end Runs

end SqlGateway.Execution
