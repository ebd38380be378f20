import SqlGateway.Execution.Read
import SqlGateway.Proofs.Connection.Stages
import SqlGateway.Proofs.Execution.Writes

/-!
# What fields put on a journal

A read and a raw statement put one statement on the journal of their source. A plan puts its writes
there, as they were sent, and after them only what ends a transaction. If all of them succeed, the
plan comes to an outcome without failures, provided that the rows are there that its writes are
linked to.
-/
namespace SqlGateway.Execution

open Connection (Driver Entry Journaled Session SessionM)
open Mutation (Plan WriteNode)

variable {σ : Type} {d : Driver σ} {s : Session (Journaled σ)}

/-- A write as it stands on a journal. -/
def Sent.entry (w : Sent) : Entry :=
  ⟨.data w.node.sql w.node.parameters, w.reply.delay, w.reply.result.isOk⟩

theorem Sent.entry_succeeded {timeout : Duration} (w : Sent) :
    w.entry.Succeeded timeout ↔ ∃ r, w.outcome timeout = .ok r := by
  unfold Entry.Succeeded Sent.entry Sent.outcome settled
  split
  next late => simp [late]
  next timely =>
    cases w.reply.result with
    | ok r => simp [timely, Except.isOk, Except.toBool]
    | error e => simp [Except.isOk, Except.toBool]

theorem answer_journal (d : Driver σ) (n : WriteNode) (a : Journaled σ) (id : Nat) :
    (answer d.journaled n a).2.journal =
      a.journal ++ [Sent.entry ⟨id, n, (answer d.journaled n a).1⟩] := by
  have hdialect : d.journaled.dialect = d.dialect := rfl
  unfold answer
  rw [hdialect]
  cases d.dialect.returning <;> rfl

theorem Serves.journal {a b : Journaled σ} {sent : List Sent} (h : Serves d.journaled a sent b) :
    b.journal = a.journal ++ sent.map Sent.entry := by
  induction h with
  | nil => exact (List.append_nil _).symm
  | @cons a b c w rest hanswer _ ih =>
      have hnoted := answer_journal d w.node a w.id
      rw [hanswer] at hnoted
      rw [ih, hnoted, List.append_assoc]
      rfl

/-- A step puts given entries on the journal. -/
structure PutsAll (d : Driver σ) (s s' : Session (Journaled σ)) (sent : List Entry) : Prop where
  driver : s'.driver = d.journaled
  timeout : s'.timeout = s.timeout
  journal : s'.journal = s.journal ++ sent

theorem PutsAll.trans {s' s'' : Session (Journaled σ)} {sent more : List Entry}
    (h : PutsAll d s s' sent) (k : PutsAll d s' s'' more) : PutsAll d s s'' (sent ++ more) :=
  ⟨k.driver, k.timeout.trans h.timeout, by rw [k.journal, h.journal, List.append_assoc]⟩

theorem putsAll_of_puts {α : Type} {statement : Connection.Statement}
    {run : Except Error α × Session (Journaled σ)} {e : Entry}
    (h : Session.Puts d statement s run e) : PutsAll d s run.2 [e] :=
  ⟨h.driver, h.timeout, h.journal⟩

theorem runQuery_sends (schema : Schema.Registry) (rules : Rules) (q : Query.CompiledQuery)
    (hs : s.driver = d.journaled) : ∃ e, PutsAll d s (runQuery schema rules q s).2 [e] ∧
      e.statement = .data q.sql [] ∧ (e.Succeeded s.timeout →
        (∀ result, (Session.query q.sql [] 1 s).1 = .ok result → q.csv = false →
          (rules.transformOutput q.mainTable (schema.transformRules.get? q.mainTable)
            (Assembly.objects q.slots result)).isOk = true) →
        (runQuery schema rules q s).1.isOk = true) := by
  obtain ⟨e, hputs⟩ := Session.query_puts hs q.sql [] 1
  have hput := putsAll_of_puts hputs
  have hok := hputs.isOk
  refine ⟨e, ?_, hputs.statement, fun hsucceeded haccepts => ?_⟩
  · rw [runQuery, Session.bind_run]
    rcases hrun : Session.query q.sql [] 1 s with ⟨result, s'⟩
    rw [hrun] at hput
    cases result with
    | error err => exact hput
    | ok result =>
        dsimp only
        split
        · exact hput
        · cases Rules.asRole "transform" (rules.transformOutput q.mainTable
            (schema.transformRules.get? q.mainTable) (Assembly.objects q.slots result)) <;>
              exact hput
  · rw [runQuery, Session.bind_run]
    rcases hrun : Session.query q.sql [] 1 s with ⟨result, s'⟩
    rw [hrun] at hok haccepts
    obtain ⟨result, rfl⟩ := exists_eq_ok (hok.mpr hsucceeded)
    dsimp only
    split
    · rfl
    next hflat =>
      obtain ⟨rows, hrows⟩ := exists_eq_ok (haccepts result rfl (Bool.eq_false_iff.mpr hflat))
      rw [hrows]
      rfl

theorem runRaw_sends (sql : String) (parameters : List Json) (hs : s.driver = d.journaled) :
    ∃ e, PutsAll d s (runRaw sql parameters s).2 [e] ∧ e.statement = .data sql parameters ∧
      (e.Succeeded s.timeout → (runRaw sql parameters s).1.isOk = true) := by
  obtain ⟨e, hputs⟩ := Session.query_puts hs sql parameters 1
  have hput := putsAll_of_puts hputs
  have hok := hputs.isOk
  rw [runRaw, Session.bind_run]
  rcases hrun : Session.query sql parameters 1 s with ⟨result, s'⟩
  rw [hrun] at hput hok
  refine ⟨e, ?_, hputs.statement, fun hsucceeded => ?_⟩
  · cases result <;> exact hput
  · obtain ⟨result, rfl⟩ := exists_eq_ok (hok.mpr hsucceeded)
    rfl

/-- What ends a transaction, or does nothing where none is open, puts no data statement on the
journal. -/
theorem abandon_sends (hs : s.driver = d.journaled) : ∃ sent,
    PutsAll d s (Session.abandon s).2 sent ∧ ∀ w ∈ sent, w.isData = false := by
  obtain ⟨_, hat⟩ := Session.exists_at hs
  obtain ⟨sent, hpasses, hdata⟩ := Session.rollback_passes hat
  rw [Session.abandon_run]
  exact ⟨sent, ⟨hpasses.at_.driver, hpasses.at_.timeout, hpasses.journal⟩, hdata⟩

theorem commit_sends (hs : s.driver = d.journaled) (document : Nat) : ∃ sent,
    PutsAll d s (Session.commit document s).2 sent ∧ (∀ w ∈ sent, w.isData = false) ∧
      ((∀ w ∈ sent, w.Succeeded s.timeout) → (Session.commit document s).1 = .ok ()) := by
  cases hopen : s.inTransaction with
  | false =>
      rw [Session.commit_of_closed document s hopen]
      exact ⟨[], ⟨hs, rfl, (List.append_nil _).symm⟩, List.forall_mem_nil _, fun _ => rfl⟩
  | true =>
      obtain ⟨e, hputs⟩ := Session.batch_puts hs s.dialect.commitStatement document
      have hdata := Connection.Entry.isData_eq_false hputs.statement
      have hput : PutsAll d s (Session.batch s.dialect.commitStatement document s).2 [e] :=
        ⟨hputs.driver, hputs.timeout, hputs.journal⟩
      rw [Session.commit_run document s hopen]
      rcases hrun : Session.batch s.dialect.commitStatement document s with ⟨result, s'⟩
      rw [hrun] at hputs hput
      cases result with
      | ok _ =>
          exact ⟨[e], ⟨hput.driver, hput.timeout, hput.journal⟩,
            List.forall_mem_singleton.mpr hdata, fun _ => rfl⟩
      | error err =>
          obtain ⟨sent, hsent, hclosing⟩ := abandon_sends hput.driver
          rw [Session.abandon_run] at hsent
          refine ⟨[e] ++ sent, hput.trans hsent, List.forall_mem_cons.mpr ⟨hdata, hclosing⟩,
            fun hall => ?_⟩
          cases hputs.isOk.mpr (hall e List.mem_cons_self)

theorem runNodes_sends (p : Plan) (hs : s.driver = d.journaled) :
    PutsAll d s (runNodes p s).2 ((sentWrites p s).map Sent.entry) := by
  have hstands : Stands d.journaled s.timeout s.inTransaction s.server s := ⟨hs, rfl, rfl, rfl⟩
  obtain ⟨b, hserves, hs'⟩ := runNodes_serves p hstands
  refine ⟨hs'.driver, hs'.timeout, ?_⟩
  rw [Session.journal, hs'.server]
  exact hserves.journal

/-- A plan puts its writes on the journal, and behind them what ends its transaction. -/
theorem runOpened_sends (options : TransactionOptions) (p : Plan) (hs : s.driver = d.journaled) :
    ∃ closing, PutsAll d s (runOpened options p s).2 ((sentWrites p s).map Sent.entry ++ closing) ∧
      (∀ w ∈ closing, w.isData = false) ∧
      ∀ result, (runNodes p s).1 = .ok result → (∀ w ∈ closing, w.Succeeded s.timeout) →
        (runOpened options p s).1 = .ok result := by
  have hnodes := runNodes_sends p hs
  rw [runOpened, Session.bind_run, Session.tryCatch_run]
  rcases hrun : runNodes p s with ⟨result, s'⟩
  rw [hrun] at hnodes
  cases result with
  | error e =>
      obtain ⟨sent, hsent, hdata⟩ := abandon_sends hnodes.driver
      refine ⟨sent, ?_, hdata, nofun⟩
      dsimp only
      rw [Session.bind_run, Session.abandon_run]
      rw [Session.abandon_run] at hsent
      exact hnodes.trans hsent
  | ok result =>
      dsimp only
      by_cases hcommits : options.commits = true
      · obtain ⟨sent, hsent, hdata, hok⟩ := commit_sends hnodes.driver 1
        simp only [hcommits, if_true, Session.bind_run]
        rcases hcommit : Session.commit 1 s' with ⟨ended, s''⟩
        rw [hcommit] at hsent hok
        refine ⟨sent, ?_, hdata, ?_⟩
        · cases ended <;> exact hnodes.trans hsent
        · rintro _ ⟨⟩ hall
          rw [hnodes.timeout] at hok
          obtain rfl : ended = .ok () := hok hall
          rfl
      · simp only [hcommits]
        refine ⟨[], ?_, List.forall_mem_nil _, fun _ h _ => h⟩
        rw [List.append_nil]
        exact hnodes

end SqlGateway.Execution
