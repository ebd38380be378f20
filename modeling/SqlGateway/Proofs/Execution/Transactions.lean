import SqlGateway.Execution.Read
import SqlGateway.Proofs.Connection.ServerTransactions
import SqlGateway.Proofs.Connection.Stages
import SqlGateway.Proofs.Execution.Obliging
import SqlGateway.Proofs.Execution.Trace

/-!
# Reads and plans and the transaction around them

A read or a raw statement leaves the transaction open that it runs in. A plan leaves it open if it
succeeds and gives it up if it fails, and inside a transaction no failure of a child is passed over.
A plan with a transaction of its own opens it first and closes it last.

Compiled reads and the writes of plans open no transaction, so that whatever comes of them, with and
without a transaction around them, a session knows of every transaction that is open on its
connection.
-/
namespace SqlGateway.Execution

open Connection (Closes Driver Journaled Session SessionM Stage)
open Connection.Session (Leads leads_pure leads_throw leads_get)
open Mutation (Plan WriteNode)

variable {σ : Type} {d : Driver σ} {timeout : Duration} {p : Plan}

theorem leads_liftExcept {α : Type} {r : Except Error α} {a : Stage} {ok : α → Stage → Prop}
    {failed : Stage → Prop} (hok : ∀ x, r = .ok x → ok x a) (hfailed : failed a) :
    Leads d timeout a (liftExcept r : SessionM (Journaled σ) α) ok failed := by
  cases r with
  | ok x => exact leads_pure (hok x rfl)
  | error e => exact leads_throw hfailed

/-- The stages at which a field may have failed without having ended its transaction. -/
def Halted (b : Stage) : Prop := b = .running ∨ b = .failing

theorem Halted.isOpen {b : Stage} (h : Halted b) : b.isOpen = true := by
  rcases h with rfl | rfl <;> rfl

theorem Halted.rolledBack {b : Stage} (h : Halted b) : b.rolledBack = .undone := by
  rcases h with rfl | rfl <;> rfl

/-- The stages that a plan may have failed at; the last only if it was to commit. -/
def GivenUp (commits : Bool) (b : Stage) : Prop :=
  b = .refused ∨ b = .undone ∨ b = .lost ∧ commits = true

theorem leads_runNode (n : WriteNode) :
    Leads d timeout .running (runNode n) (fun _ b => b = .running) (· = .failing) := by
  refine leads_get fun s _ => ?_
  split
  · refine (Session.leads_execute _ _ _).bind fun _ b hb => ?_
    exact leads_pure hb
  · refine (Session.leads_query _ _ _).bind fun _ b hb => ?_
    exact leads_pure hb

theorem leads_attempt (state : Answers × List Error) (id : Nat) (n : WriteNode) :
    Leads d timeout .running (attempt p state id n) (fun next b => b = .running ∧ next.2 = state.2)
      Halted := by
  intro s hs
  rw [attempt_eq]
  cases linked? p state.1 n with
  | error e => exact leads_throw (.inl rfl) s hs
  | ok linked =>
      cases linked with
      | none => exact leads_pure ⟨rfl, rfl⟩ s hs
      | some m =>
          have hnode : Leads d timeout .running (runNode m) (fun _ b => b = .running) Halted :=
            (leads_runNode m).weaken (fun _ _ hb => hb) fun _ hb => .inr hb
          refine hnode.bind (fun rows b hb => ?_) s hs
          exact leads_pure ⟨hb, rfl⟩

/-- Inside a transaction every failure ends the plan, so a step adds none to those that are
noted. -/
theorem leads_step (state : Answers × List Error) (id : Nat) :
    Leads d timeout .running (step p state id) (fun next b => b = .running ∧ next.2 = state.2)
      Halted := by
  cases hn : p.nodes[id]? with
  | none =>
      have hstep : (step p state id : SessionM (Journaled σ) _) = pure state := by
        rw [step, hn]
      rw [hstep]
      exact leads_pure ⟨rfl, rfl⟩
  | some n =>
      rw [step_some hn]
      refine (leads_attempt state id n).tryCatch fun e b hb => leads_get fun s hs => ?_
      rw [hs.inTransaction, hb.isOpen, Bool.or_true, if_pos rfl]
      exact leads_throw hb

theorem leads_foldlM_step (ids : List Nat) (state : Answers × List Error) :
    Leads d timeout .running (ids.foldlM (step p) state)
      (fun next b => b = .running ∧ next.2 = state.2) Halted := by
  induction ids generalizing state with
  | nil => exact leads_pure ⟨rfl, rfl⟩
  | cons id rest ih =>
      rw [List.foldlM_cons]
      refine (leads_step state id).bind fun next b hnext => ?_
      obtain ⟨rfl, hnext⟩ := hnext
      exact (ih next).weaken (fun _ _ hlast => ⟨hlast.1, hlast.2.trans hnext⟩) fun _ hb => hb

theorem leads_runNodes :
    Leads d timeout .running (runNodes p) (fun outcome b => b = .running ∧ outcome.failures = [])
      Halted := by
  refine (leads_foldlM_step p.executionOrder _).bind fun next b hnext => ?_
  exact leads_pure hnext

/-- A plan that runs in a transaction, whether one is open or it opens its own, passes over no
failure. It ends with the transaction still open or, where the plan closes it, kept; a failure
leaves none open. -/
theorem leads_runPlan (options : TransactionOptions) {a : Stage}
    (ha : a = .running ∨ a = .unopened ∧ options.begins = true) :
    Leads d timeout a (runPlan options p)
      (fun outcome b => b = (if options.commits then .kept else .running) ∧ outcome.failures = [])
      (GivenUp options.commits) := by
  have hnodes : Leads d timeout .running
      (tryCatch (runNodes p) fun e => do
        Session.abandon
        throw e)
      (fun outcome b => b = .running ∧ outcome.failures = []) (GivenUp options.commits) := by
    refine leads_runNodes.tryCatch fun e b hb => ?_
    refine (Session.leads_abandon.weaken (fun _ _ hc => hc) fun _ => False.elim).bind ?_
    exact fun _ c hc => leads_throw (.inr (.inl (hc.trans hb.rolledBack)))
  have hrest : Leads d timeout .running (do
      let result ← tryCatch (runNodes p) fun e => do
        Session.abandon
        throw e
      if options.commits then Session.commit 1
      return result)
      (fun outcome b => b = (if options.commits then .kept else .running) ∧ outcome.failures = [])
      (GivenUp options.commits) := by
    refine hnodes.bind fun outcome b hb => ?_
    obtain ⟨rfl, hfailures⟩ := hb
    by_cases hcommits : options.commits = true
    · simp only [hcommits, if_true]
      have hcommit :
          Leads d timeout .running (Session.commit 1) (fun _ b => b = .kept) (GivenUp true) :=
        (Session.leads_commit 1).weaken (fun _ _ hb => hb) fun _ hb => .inr (.inr ⟨hb, rfl⟩)
      exact hcommit.bind fun _ b hb => leads_pure ⟨hb, hfailures⟩
    · simp only [hcommits]
      exact leads_pure ⟨rfl, hfailures⟩
  refine leads_get fun s hs => ?_
  rcases ha with rfl | ⟨rfl, hbegins⟩
  · have hopen : (options.begins && !s.inTransaction) = false := by
      rw [hs.inTransaction]
      simp [Stage.isOpen]
    simp only [hopen, Bool.false_eq_true, if_false]
    exact hrest
  · have hclosed : (options.begins && !s.inTransaction) = true := by
      rw [hs.inTransaction, hbegins]
      rfl
    simp only [hclosed, if_true]
    refine (Session.leads_begin.weaken (fun _ _ hb => hb) fun _ hb => .inl hb).bind ?_
    rintro _ b rfl
    exact hrest

/-- A plan that succeeds inside a transaction has no failures to report. -/
theorem runPlan_failures (options : TransactionOptions) {s : Session (Journaled σ)}
    (hs : s.driver = d.journaled) (h : options.begins = true ∨ s.inTransaction = true)
    {outcome : WriteOutcome} (hok : (runPlan options p s).1 = .ok outcome) :
    outcome.failures = [] := by
  have hleads : ∃ a, Session.At d s.timeout s a ∧
      (a = .running ∨ a = .unopened ∧ options.begins = true) := by
    cases hopen : s.inTransaction with
    | true => exact ⟨.running, ⟨hs, rfl, hopen⟩, .inl rfl⟩
    | false => exact ⟨.unopened, ⟨hs, rfl, hopen⟩, .inr ⟨rfl, by simpa [hopen] using h⟩⟩
  obtain ⟨a, hat, ha⟩ := hleads
  obtain ⟨_, b, -, hends⟩ := leads_runPlan options ha s hat
  exact (hends.of_ok hok).2

theorem leads_runQuery (schema : Schema.Registry) (rules : Rules) (q : Query.CompiledQuery) :
    Leads d timeout .running (runQuery schema rules q) (fun _ b => b = .running) Halted := by
  refine ((Session.leads_query q.sql [] 1).weaken (fun _ _ hb => hb) fun _ hb => .inr hb).bind ?_
  rintro result b rfl
  split
  · exact leads_pure rfl
  · exact leads_liftExcept (fun _ _ => rfl) (.inl rfl)

theorem leads_runRaw (sql : String) (parameters : List Json) :
    Leads d timeout .running (runRaw sql parameters) (fun _ b => b = .running) Halted := by
  refine ((Session.leads_query sql parameters 1).weaken (fun _ _ hb => hb) fun _ hb =>
    .inr hb).bind ?_
  exact fun _ b hb => leads_pure hb

section Tracking
open Connection.Session (Tracking Tracks query_tracks execute_tracks tracking_get tracking_pure
  tracking_throw)
variable {effect : String → Option Bool}

theorem tracking_liftExcept {α : Type} (r : Except Error α) :
    Tracking effect d (liftExcept r : SessionM (Journaled σ) α) := by
  cases r with
  | ok x => exact tracking_pure x
  | error e => exact tracking_throw e

theorem tracking_runQuery (schema : Schema.Registry) (rules : Rules) {q : Query.CompiledQuery}
    (hsql : effect q.sql ≠ some true) : Tracking effect d (runQuery schema rules q) := by
  have hquery : Tracking effect d (Session.query q.sql [] 1) :=
    fun s hs => query_tracks hs [] 1 (.inl hsql)
  refine hquery.bind fun result => ?_
  split
  · exact tracking_pure _
  · exact tracking_liftExcept _

/-- A raw statement that opens a transaction has to be sent inside of one. -/
theorem runRaw_tracks {sql : String} (parameters : List Json) {s : Session (Journaled σ)}
    (hs : s.driver = d.journaled) (hsql : effect sql ≠ some true ∨ s.inTransaction = true) :
    ∃ sent, Tracks effect d s (runRaw sql parameters s).2 sent := by
  obtain ⟨sent, hsent⟩ := query_tracks hs parameters 1 hsql
  refine ⟨sent, ?_⟩
  rw [runRaw, Session.bind_run]
  rcases hrun : Session.query sql parameters 1 s with ⟨result, s'⟩
  rw [hrun] at hsent
  cases result with
  | ok r => exact hsent
  | error e => exact hsent

theorem tracking_runNode {n : WriteNode} (hsql : effect n.sql ≠ some true) :
    Tracking effect d (runNode n) := by
  refine tracking_get fun s => ?_
  split
  · have hexecute : Tracking effect d (Session.execute n.sql n.parameters n.document) :=
      fun s hs => execute_tracks hs _ _ (.inl hsql)
    exact hexecute.bind fun _ => tracking_pure _
  · have hquery : Tracking effect d (Session.query n.sql n.parameters n.document) :=
      fun s hs => query_tracks hs _ _ (.inl hsql)
    exact hquery.bind fun _ => tracking_pure _

theorem Fills.sql {n m : WriteNode} (h : Fills n m) : m.sql = n.sql := by
  rcases h with rfl | ⟨row, rfl⟩
  · rfl
  · rw [Mutation.inject_eq]

theorem tracking_step (hplan : ∀ n ∈ p.nodes, effect n.sql ≠ some true)
    (state : Answers × List Error) (id : Nat) : Tracking effect d (step p state id) := by
  cases hn : p.nodes[id]? with
  | none =>
      have hstep : (step p state id : SessionM (Journaled σ) _) = pure state := by
        rw [step, hn]
      rw [hstep]
      exact tracking_pure state
  | some n =>
      have hattempt : Tracking effect d (attempt p state id n) := by
        unfold attempt
        cases hlinked : linked? p state.1 n with
        | error e => exact tracking_throw e
        | ok linked =>
            cases linked with
            | none => exact tracking_pure state
            | some m =>
                have hsql : effect m.sql ≠ some true := by
                  rw [(fills_of_linked? hlinked).sql]
                  exact hplan n (List.mem_of_getElem? hn)
                exact (tracking_runNode hsql).bind fun _ => tracking_pure _
      rw [step_some hn]
      refine hattempt.tryCatch fun e => tracking_get fun s => ?_
      split
      · exact (tracking_throw e).bind fun _ => tracking_pure _
      · exact tracking_pure _

theorem tracking_foldlM_step (hplan : ∀ n ∈ p.nodes, effect n.sql ≠ some true) (ids : List Nat)
    (state : Answers × List Error) : Tracking effect d (ids.foldlM (step p) state) := by
  induction ids generalizing state with
  | nil => exact tracking_pure state
  | cons id rest ih =>
      rw [List.foldlM_cons]
      exact (tracking_step hplan state id).bind ih

theorem tracking_runNodes (hplan : ∀ n ∈ p.nodes, effect n.sql ≠ some true) :
    Tracking effect d (runNodes p) :=
  (tracking_foldlM_step hplan p.executionOrder _).bind fun _ => tracking_pure _

theorem tracking_runOpened (heffect : Closes effect)
    (hplan : ∀ n ∈ p.nodes, effect n.sql ≠ some true) (options : TransactionOptions) :
    Tracking effect d (runOpened options p) := by
  have hnodes : Tracking effect d (tryCatch (runNodes p) fun e => do
      Session.abandon
      throw e) :=
    (tracking_runNodes hplan).tryCatch fun e =>
      (Session.tracking_abandon heffect).bind fun _ => tracking_throw e
  refine hnodes.bind fun result => ?_
  split
  · have hcommit : Tracking effect d (Session.commit 1) := fun s hs =>
      Session.commit_tracks heffect hs 1
    exact hcommit.bind fun _ => tracking_pure result
  · exact tracking_pure result

theorem tracking_runPlan (heffect : Closes effect) (hplan : ∀ n ∈ p.nodes, effect n.sql ≠ some true)
    (options : TransactionOptions) : Tracking effect d (runPlan options p) := by
  intro s hs
  rw [runPlan_eq]
  split
  · have hbegin : Tracking effect d Session.begin_ := fun s hs => Session.begin_tracks hs
    exact (hbegin.bind fun _ => tracking_runOpened heffect hplan options) s hs
  · exact tracking_runOpened heffect hplan options s hs

end Tracking

end SqlGateway.Execution
