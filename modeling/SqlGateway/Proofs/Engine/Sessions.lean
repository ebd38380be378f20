import SqlGateway.Engine.Basic
import SqlGateway.Proofs.Execution.Transactions

/-!
# Sessions of requests

What fields do to the transactions of the sessions that they run in, and how a request in one
transaction takes the session that it holds on its only source from its first field to its end. The
session is told by its stage and by the statements that were sent on it.
-/
namespace SqlGateway.Engine

open Connection (Driver Entry Journaled Session SessionM Stage)
open Connection.Session (At Ends Leads Passes Pooled leads_get leads_pure)
open Execution (Halted)
open Request (Document Variables)

variable {σ : Type} {d : Driver σ} {timeout : Duration}

/-- The failures of children that a field reports although it succeeded. -/
def FieldOutput.failures : FieldOutput → List Error
  | .rows _ => []
  | .written _ failures => failures

/-- A field that runs in the transaction of its request leaves it open, or fails; it never
commits. -/
theorem leads_runPrepared (compiler : Query.Compiler) (prepared : Prepared) :
    Leads d timeout .running (runPrepared compiler true prepared)
      (fun output b => b = .running ∧ output.failures = []) (·.commits = false) := by
  have hhalted : ∀ b, Halted b → b.commits = false := by
    rintro b (rfl | rfl) <;> rfl
  cases prepared with
  | query q =>
      refine ((Execution.leads_runQuery _ _ q).weaken (fun _ _ hb => hb) hhalted).bind ?_
      exact fun _ b hb => leads_pure ⟨hb, rfl⟩
  | raw sql parameters isMutation =>
      refine ((Execution.leads_runRaw _ _).weaken (fun _ _ hb => hb) hhalted).bind ?_
      rintro rows b rfl
      cases isMutation
      · exact leads_pure ⟨rfl, rfl⟩
      · exact leads_pure ⟨rfl, rfl⟩
  | write plan own =>
      refine leads_get fun s hs => ?_
      let options : Execution.TransactionOptions := ⟨true && !s.inTransaction, false, own, true⟩
      have hcommits : options.commits = false := by
        simp [options, Execution.TransactionOptions.commits, Execution.TransactionOptions.isOwn]
      have hplan : Leads d timeout .running (Execution.runPlan options plan)
          (fun outcome b => b = .running ∧ outcome.failures = []) (·.commits = false) := by
        refine (Execution.leads_runPlan options (.inl rfl)).weaken (fun outcome b hb => ?_) ?_
        · rwa [hcommits] at hb
        · rw [hcommits]
          rintro b (rfl | rfl | ⟨rfl, hnone⟩)
          · rfl
          · rfl
          · cases hnone
      exact hplan.bind fun outcome b hb => leads_pure hb

theorem leads_runInTransaction (compiler : Query.Compiler) (prepared : Prepared) {a : Stage}
    (ha : a = .running ∨ a = .unopened) :
    Leads d timeout a (runInTransaction compiler prepared)
      (fun output b => b = .running ∧ output.failures = []) (·.commits = false) := by
  refine leads_get fun s hs => ?_
  rcases ha with rfl | rfl
  · simp only [hs.inTransaction, Stage.isOpen, Bool.not_true, Bool.false_eq_true, if_false]
    exact leads_runPrepared compiler prepared
  · simp only [hs.inTransaction, Stage.isOpen, Bool.not_false, if_true]
    refine (Session.leads_begin.weaken (fun _ _ hb => hb) ?_).bind ?_
    · rintro b rfl
      rfl
    · rintro _ b rfl
      exact leads_runPrepared compiler prepared

/-- A plan with a transaction of its own keeps it, or fails and leaves none open. -/
theorem leads_runPrepared_own (compiler : Query.Compiler) (plan : Mutation.Plan) :
    Leads d timeout .unopened (runPrepared compiler false (.write plan true))
      (fun output b => b = .kept ∧ ∃ rows, output = .written rows []) (·.isOpen = false) := by
  refine leads_get fun s _ => ?_
  let options : Execution.TransactionOptions := ⟨false && !s.inTransaction, false, true, false⟩
  have hplan : Leads d timeout .unopened (Execution.runPlan options plan)
      (fun outcome b => b = .kept ∧ outcome.failures = []) (·.isOpen = false) := by
    refine (Execution.leads_runPlan options (.inr ⟨rfl, rfl⟩)).weaken (fun _ _ hb => hb) ?_
    rintro b (rfl | rfl | ⟨rfl, -⟩) <;> rfl
  refine hplan.bind fun outcome b hb => leads_pure ⟨hb.1, outcome.rows, ?_⟩
  rw [hb.2]

variable {e : Engine (Journaled σ)} {source : DataSource (Journaled σ)} {document : Document}
  {supplied : Variables}

/-- The journal of a source. -/
def journalOf (e : Engine (Journaled σ)) (name : String) : List Entry :=
  ((e.catalog.sources.get? name).map (·.pool.server.journal)).getD []

/-- A source of the engine whose statements are journaled. -/
structure Journals (d : Driver σ) (e : Engine (Journaled σ)) (source : DataSource (Journaled σ)) :
    Prop where
  known : e.catalog.sources.get? source.name = some source
  driver : source.pool.driver = d.journaled

theorem Journals.journalOf (h : Journals d e source) :
    journalOf e source.name = source.pool.server.journal := by
  simp only [Engine.journalOf, h.known, Option.map_some, Option.getD_some]

theorem prepareTask_eq {e : Engine σ} {source : DataSource σ} {t : Task}
    (h : e.catalog.sources.get? t.source = some source) (document : Document)
    (supplied : Variables) : e.prepareTask document supplied t =
      (prepare (e.compilerFor source) document supplied t).map (source, ·) := by
  have hsource : e.catalog.source t.source = .ok source := by rw [Catalog.source, h]
  have hprepare : e.prepareTask document supplied t =
      (do return (source, ← prepare (e.compilerFor source) document supplied t)) := by
    rw [prepareTask, hsource]
    rfl
  rw [hprepare]
  cases prepare (e.compilerFor source) document supplied t <;> rfl

theorem journalOf_add (e : Engine (Journaled σ)) (source : DataSource (Journaled σ)) :
    journalOf { e with catalog := e.catalog.add source } source.name =
      source.pool.server.journal := by
  have hadded : (e.catalog.add source).sources.get? source.name = some source :=
    Dictionary.get?_insert_self _ _ _
  simp only [journalOf, hadded, Option.map_some, Option.getD_some]

theorem inSession_run {α : Type} (timeout : Duration) (steps : Connection.SessionM σ α)
    (source : DataSource σ) : (DataSource.inSession timeout steps).run.run source =
      match Session.start timeout source.pool with
      | (.error e, pool) => (.error e, { source with pool })
      | (.ok session, pool) =>
        ((steps session).1, { source with pool := (steps session).2.finish pool }) := rfl

/-- An engine that differs from another at most in the pool of one source, to which nothing was
sent. -/
structure Alike (d : Driver σ) (e : Engine (Journaled σ)) (source : DataSource (Journaled σ))
    (engine : Engine (Journaled σ)) : Prop where
  settings : engine = { e with catalog := engine.catalog }
  pool : ∃ pool, engine.catalog.sources.get? source.name = some { source with pool } ∧
    Pooled d source.pool.server.journal pool

/-- The sessions of a request on its only source: none before the first field, then the one that has
been brought to a stage by what was sent. -/
def Held (d : Driver σ) (e : Engine (Journaled σ)) (source : DataSource (Journaled σ))
    (sessions : Sessions (Journaled σ)) (a : Stage) (sent : List Entry) : Prop :=
  sessions = [] ∧ a = .unopened ∧ sent = [] ∨
    ∃ session, sessions = [(source.name, session)] ∧
      Passes d e.queryTimeout source.pool.server.journal session .unopened sent a

section Held
variable {engine : Engine (Journaled σ)} {sessions : Sessions (Journaled σ)} {a b : Stage}
  {sent other : List Entry} {pool : Connection.Pool (Journaled σ)} {t : Task} {tasks : List Task}

theorem Journals.alike (h : Journals d e source) : Alike d e source e :=
  ⟨rfl, source.pool, h.known, h.driver, rfl⟩

theorem Alike.add (h : Alike d e source engine) (hpool : Pooled d source.pool.server.journal pool) :
    Alike d e source { engine with catalog := engine.catalog.add { source with pool } } := by
  refine ⟨?_, pool, Dictionary.get?_insert_self _ _ _, hpool⟩
  rw [h.settings]

theorem Alike.compilerFor (h : Alike d e source engine) (he : Journals d e source)
    (hpool : pool.driver = d.journaled) :
    engine.compilerFor { source with pool } = e.compilerFor source := by
  rw [h.settings]
  simp only [Engine.compilerFor, DataSource.dialect, hpool, he.driver]

/-- What a field comes to does not depend on what was sent before it. -/
theorem Alike.prepareTask (h : Alike d e source engine) (he : Journals d e source)
    (ht : t.source = source.name) (document : Document) (supplied : Variables) :
    ∃ pool, Pooled d source.pool.server.journal pool ∧
      engine.prepareTask document supplied t =
        (e.prepareTask document supplied t).map fun q => ({ source with pool }, q.2) := by
  obtain ⟨pool, hknown, hpool⟩ := h.pool
  have hthere : engine.catalog.sources.get? t.source = some { source with pool } := by
    rw [ht, hknown]
  have hhere : e.catalog.sources.get? t.source = some source := by
    rw [ht, he.known]
  refine ⟨pool, hpool, ?_⟩
  rw [prepareTask_eq hthere, prepareTask_eq hhere, h.compilerFor he hpool.driver]
  cases prepare (e.compilerFor source) document supplied t <;> rfl

/-- The session of a field is the one that is held, or a new one on which nothing was sent. -/
theorem Alike.sessionOn (h : Alike d e source engine) (hheld : Held d e source sessions a sent)
    (hpool : Pooled d source.pool.server.journal pool) :
    Alike d e source (engine.sessionOn sessions source.name { source with pool }).2 ∧
      ∀ session, (engine.sessionOn sessions source.name { source with pool }).1 = .ok session →
        Passes d e.queryTimeout source.pool.server.journal session .unopened sent a ∧
        ∀ session', sessions.insert source.name session' = [(source.name, session')] := by
  rcases hheld with ⟨rfl, rfl, rfl⟩ | ⟨session, rfl, hpasses⟩
  · have htimeout : engine.queryTimeout = e.queryTimeout := by rw [h.settings]
    obtain ⟨hstarted, hstart⟩ := Session.start_pooled hpool engine.queryTimeout
    refine ⟨h.add hstarted, fun session hsession => ⟨?_, fun _ => rfl⟩⟩
    rw [← htimeout]
    exact hstart session hsession
  · have hon : engine.sessionOn [(source.name, session)] source.name { source with pool } =
        (.ok session, engine) := by
      simp [Engine.sessionOn, Dictionary.get?]
    rw [hon]
    refine ⟨h, fun session' hsession => ?_⟩
    cases hsession
    exact ⟨hpasses, fun _ => by simp [Dictionary.insert]⟩

theorem runHeld_refused {s : Shared σ} {error : Error} {t : Task}
    (h : s.engine.prepareTask document supplied t = .error error) :
    runHeld document supplied t s = (.error error, s) := by
  rw [runHeld, h]

/-- A field leaves the transaction of its request running, or fails; it never commits. -/
theorem runHeld_held {s : Shared (Journaled σ)} (he : Journals d e source)
    (halike : Alike d e source s.engine) (hheld : Held d e source s.sessions a sent)
    (ha : a = .running ∨ a = .unopened) (ht : t.source = source.name) :
    ∃ more b, Alike d e source (runHeld document supplied t s).2.engine ∧
      Held d e source (runHeld document supplied t s).2.sessions b (sent ++ more) ∧
      Ends (fun output b => b = .running ∧ output.failures = []) (·.commits = false)
        (runHeld document supplied t s).1 b := by
  have hcommits : a.commits = false := by
    rcases ha with rfl | rfl <;> rfl
  have hsame : Held d e source s.sessions a (sent ++ []) := by rwa [List.append_nil]
  obtain ⟨pool, hpool, hprepare⟩ := halike.prepareTask he ht document supplied
  cases hprepared : e.prepareTask document supplied t with
  | error error =>
      have hrefused : s.engine.prepareTask document supplied t = .error error := by
        rw [hprepare, hprepared]
        rfl
      rw [runHeld_refused hrefused]
      exact ⟨[], a, halike, hsame, hcommits⟩
  | ok prepared =>
      obtain ⟨hengine, hsession⟩ := halike.sessionOn hheld hpool
      rw [runHeld, hprepare, hprepared]
      dsimp only [Except.map]
      rw [ht]
      rcases hon :
        s.engine.sessionOn s.sessions source.name { source with pool } with ⟨session, engine⟩
      rw [hon] at hengine hsession
      cases session with
      | error error => exact ⟨[], a, hengine, hsame, hcommits⟩
      | ok session =>
          obtain ⟨hpasses, hinsert⟩ := hsession session rfl
          obtain ⟨more, b, hmore, hends⟩ := leads_runInTransaction
            (engine.compilerFor { source with pool }) prepared.2 ha session hpasses.at_
          refine ⟨more, b, hengine, .inr ⟨_, hinsert _, ?_⟩, hends⟩
          exact hpasses.trans hmore

/-- The fields of a request leave its transaction running, or one of them fails and none commits. -/
theorem runTogether_held (document : Document) (supplied : Variables) {s : Shared (Journaled σ)}
    (he : Journals d e source) (halike : Alike d e source s.engine)
    (hheld : Held d e source s.sessions a sent) (ha : a = .running ∨ a = .unopened)
    (htasks : ∀ t ∈ tasks, t.source = source.name) :
    ∃ more b, Alike d e source (runTogether document supplied tasks s).1.engine ∧
      Held d e source (runTogether document supplied tasks s).1.sessions b (sent ++ more) ∧
      b.commits = false ∧
      ((runTogether document supplied tasks s).2 = none → b = .running ∨ tasks = [] ∧ b = a) := by
  induction tasks generalizing s a sent with
  | nil =>
      refine ⟨[], a, halike, by rwa [List.append_nil], ?_, fun _ => .inr ⟨rfl, rfl⟩⟩
      rcases ha with rfl | rfl <;> rfl
  | cons t rest ih =>
      obtain ⟨ht, hrest⟩ := List.forall_mem_cons.mp htasks
      obtain ⟨more, b, halike, hheld, hends⟩ := runHeld_held he halike hheld ha ht
      rcases hrun : runHeld document supplied t s with ⟨result, s'⟩
      rw [hrun] at halike hheld hends
      rw [runTogether, hrun]
      cases result with
      | error error => exact ⟨more, b, halike, hheld, hends, nofun⟩
      | ok output =>
          obtain ⟨rfl, -⟩ := hends
          obtain ⟨further, c, hengine, hsessions, hcommits, hnone⟩ :=
            ih (s := { s' with data := withOutput t s'.data (.ok output) }) halike hheld
              (.inl rfl) hrest
          rw [List.append_assoc] at hsessions
          refine ⟨more ++ further, c, hengine, hsessions, hcommits, fun h => ?_⟩
          rcases hnone h with hrunning | ⟨-, hrunning⟩
          · exact .inl hrunning
          · exact .inl hrunning

theorem rollbackAll_held (h : Held d e source sessions a sent) :
    ∃ more, Held d e source (rollbackAll sessions) a.rolledBack (sent ++ more) ∧
      ∀ w ∈ more, w.isData = false := by
  rcases h with ⟨rfl, rfl, rfl⟩ | ⟨session, rfl, hpasses⟩
  · exact ⟨[], .inl ⟨rfl, rfl, rfl⟩, List.forall_mem_nil _⟩
  · have habandon : Session.abandon.run.run session = (.ok (), (Session.rollback session).2) :=
      Session.abandon_run session
    simp only [rollbackAll, Dictionary.mapValues, List.map_cons, List.map_nil, habandon]
    obtain ⟨more, hmore, hnone⟩ := Session.rollback_passes hpasses.at_
    exact ⟨more, .inr ⟨_, rfl, hpasses.trans hmore⟩, hnone⟩

theorem commitAll_held (h : Held d e source sessions .running sent) :
    ∃ more b, Held d e source (commitAll sessions).1 b (sent ++ more) ∧
      b = (if (commitAll sessions).2 = none then .kept else .lost) ∧
      ∀ w ∈ more, w.isData = false := by
  rcases h with ⟨rfl, hstart, -⟩ | ⟨session, rfl, hpasses⟩
  · cases hstart
  · obtain ⟨more, b, hmore, hends, hnone⟩ := Session.commit_passes 1 hpasses.at_
    have hcommit : (Session.commit 1).run.run session = Session.commit 1 session := rfl
    rw [commitAll, hcommit]
    rcases hrun : Session.commit 1 session with ⟨result, session'⟩
    rw [hrun] at hmore hends
    cases result with
    | ok _ => exact ⟨more, b, .inr ⟨session', rfl, hpasses.trans hmore⟩, hends, hnone⟩
    | error _ => exact ⟨more, b, .inr ⟨session', rfl, hpasses.trans hmore⟩, hends, hnone⟩

/-- The journal of the source after the sessions have ended. -/
theorem journalOf_withFinished (h : Alike d e source engine)
    (hheld : Held d e source sessions a sent) :
    journalOf (engine.withFinished sessions) source.name = source.pool.server.journal ++ sent := by
  obtain ⟨pool, hknown, hpool⟩ := h.pool
  rcases hheld with ⟨rfl, rfl, rfl⟩ | ⟨session, rfl, hpasses⟩
  · simp only [journalOf, withFinished, List.foldl_nil, hknown, Option.map_some, Option.getD_some,
      List.append_nil]
    exact hpool.journal
  · have hfinished :
      (engine.withFinished [(source.name, session)]).catalog.sources.get? source.name =
        some { source with pool := session.finish pool } := by
      simp only [withFinished, List.foldl_cons, List.foldl_nil, finishSession, hknown]
      exact Dictionary.get?_insert_self _ _ _
    simp only [journalOf, hfinished, Option.map_some, Option.getD_some]
    exact (Session.finish_pooled session hpool.driver).journal.trans hpasses.journal

theorem Held.steps (h : Held d e source sessions a sent) :
    Stage.Steps d.dialect e.queryTimeout .unopened sent a := by
  rcases h with ⟨-, rfl, rfl⟩ | ⟨_, -, hpasses⟩
  · exact .nil
  · exact hpasses.steps

/-- What was sent is told by the sessions. -/
theorem Held.unique (h : Held d e source sessions a sent)
    (k : Held d e source sessions b other) : sent = other := by
  rcases h with ⟨rfl, -, rfl⟩ | ⟨session, rfl, hpasses⟩
  · rcases k with ⟨-, -, rfl⟩ | ⟨session, hsessions, -⟩
    · rfl
    · cases hsessions
  · rcases k with ⟨hsessions, -, -⟩ | ⟨session', hsessions, hother⟩
    · cases hsessions
    · cases hsessions
      exact List.append_cancel_left (hpasses.journal.symm.trans hother.journal)

/-- The sessions of a request in one transaction when it is over: given up after a failure, else
committed as far as that goes. -/
def ended (s : Shared σ) : Option (Task × Error) → Sessions σ
  | some _ => rollbackAll s.sessions
  | none =>
    match (commitAll s.sessions).2 with
    | some _ => rollbackAll (commitAll s.sessions).1
    | none => (commitAll s.sessions).1

/-- A request in one transaction after its last field, and the field that failed. -/
abbrev afterFields (document : Document) (supplied : Variables) (tasks : List Task) (e : Engine σ) :
    Shared σ × Option (Task × Error) :=
  runTogether document supplied tasks ⟨e, [], []⟩

/-- The sessions of a request in one transaction as they go back to the pools. -/
def sessionsAtEnd (document : Document) (supplied : Variables) (tasks : List Task) (e : Engine σ) :
    Sessions σ :=
  ended (afterFields document supplied tasks e).1 (afterFields document supplied tasks e).2

theorem runShared_engine (document : Document) (supplied : Variables) (tasks : List Task)
    (e : Engine σ) : (runShared document supplied tasks e).2 =
      (afterFields document supplied tasks e).1.engine.withFinished
        (sessionsAtEnd document supplied tasks e) := by
  rw [runShared, sessionsAtEnd, afterFields]
  rcases runTogether document supplied tasks ⟨e, [], []⟩ with ⟨s, _ | failure⟩
  · dsimp only [ended]
    rcases commitAll s.sessions with ⟨sessions, _ | failure⟩ <;> rfl
  · rfl

theorem runShared_isOk {e : Engine σ} (h : (runShared document supplied tasks e).1.isOk = true) :
    (afterFields document supplied tasks e).2 = none ∧
      (commitAll (afterFields document supplied tasks e).1.sessions).2 = none := by
  rw [runShared] at h
  split at h
  · cases h
  next hrun =>
    rw [afterFields, hrun]
    split at h
    next hcommit => exact ⟨rfl, congrArg Prod.snd hcommit⟩
    · cases h

/-- At the end of a request only what commits and rolls back is sent, and the commit only if no
field failed. -/
theorem ended_held {s : Shared (Journaled σ)} {failure : Option (Task × Error)}
    (h : Held d e source s.sessions a sent) (hcommits : a.commits = false)
    (hnone : failure = none → a = .running ∨ s.sessions = []) :
    ∃ more b, Held d e source (ended s failure) b (sent ++ more) ∧ b.isOpen = false ∧
      (∀ w ∈ more, w.isData = false) ∧ (failure.isSome = true → b.commits = false) ∧
      (failure = none → (commitAll s.sessions).2 = none → a = .unopened ∨ b = .kept) := by
  cases failure with
  | some failure =>
      obtain ⟨more, hrolledBack, hdata⟩ := rollbackAll_held h
      exact ⟨more, a.rolledBack, hrolledBack, a.rolledBack_isOpen, hdata,
        fun _ => a.rolledBack_commits.trans hcommits, nofun⟩
  | none =>
      rcases hnone rfl with rfl | hsessions
      · obtain ⟨more, b, hcommitted, rfl, hdata⟩ := commitAll_held h
        unfold ended
        cases hcommit : (commitAll s.sessions).2 with
        | none =>
            rw [hcommit, if_pos rfl] at hcommitted
            exact ⟨more, .kept, hcommitted, rfl, hdata, nofun, fun _ _ => .inr rfl⟩
        | some error =>
            rw [hcommit, if_neg nofun] at hcommitted
            obtain ⟨further, hrolledBack, hfurther⟩ := rollbackAll_held hcommitted
            rw [List.append_assoc] at hrolledBack
            refine ⟨more ++ further, .lost, hrolledBack, rfl, ?_, nofun, nofun⟩
            exact List.forall_mem_append.mpr ⟨hdata, hfurther⟩
      · have hstart : a = .unopened := by
          rcases h with ⟨-, hstart, -⟩ | ⟨session, hheld, -⟩
          · exact hstart
          · cases hsessions.symm.trans hheld
        subst hstart
        rw [← List.append_nil sent] at h
        refine ⟨[], .unopened, ?_, rfl, List.forall_mem_nil _, nofun, fun _ _ => .inl rfl⟩
        simpa only [ended, hsessions, commitAll] using h

theorem runTogether_append (document : Document) (supplied : Variables) (before rest : List Task)
    (s : Shared σ) : runTogether document supplied (before ++ rest) s =
      match (runTogether document supplied before s).2 with
      | none => runTogether document supplied rest (runTogether document supplied before s).1
      | some failure => ((runTogether document supplied before s).1, some failure) := by
  induction before generalizing s with
  | nil => rfl
  | cons t others ih =>
      rw [List.cons_append, runTogether, runTogether]
      rcases runHeld document supplied t s with ⟨result, s'⟩
      cases result with
      | ok output => exact ih _
      | error error => rfl

/-- A field that cannot be prepared fails its request, and nothing is sent for it or for a later
one. -/
theorem runTogether_refused {before : List Task} (after : List Task) {error : Error}
    {s : Shared (Journaled σ)} (he : Journals d e source) (halike : Alike d e source s.engine)
    (hheld : Held d e source s.sessions a sent) (ha : a = .running ∨ a = .unopened)
    (hbefore : ∀ t ∈ before, t.source = source.name) (ht : t.source = source.name)
    (hprepare : e.prepareTask document supplied t = .error error) :
    (runTogether document supplied (before ++ t :: after) s).1.sessions =
        (runTogether document supplied before s).1.sessions ∧
      (runTogether document supplied (before ++ t :: after) s).2.isSome = true := by
  obtain ⟨-, -, halike, -⟩ := runTogether_held document supplied he halike hheld ha hbefore
  rw [runTogether_append]
  rcases hrun : runTogether document supplied before s with ⟨s', failure⟩
  rw [hrun] at halike
  cases failure with
  | some failure => exact ⟨rfl, rfl⟩
  | none =>
      obtain ⟨pool, -, hlater⟩ := halike.prepareTask he ht document supplied
      have hrefused : s'.engine.prepareTask document supplied t = .error error := by
        rw [hlater, hprepare]
        rfl
      dsimp only
      rw [runTogether, runHeld_refused hrefused]
      exact ⟨rfl, rfl⟩

/-- What a request in one transaction sends to its only source: the statements of its fields, then
what commits and rolls back. -/
structure SentTogether (d : Driver σ) (e : Engine (Journaled σ)) (source : DataSource (Journaled σ))
    (document : Document) (supplied : Variables) (tasks : List Task) (sent more : List Entry)
    (b : Stage) : Prop where
  fields : ∃ a, Held d e source (afterFields document supplied tasks e).1.sessions a sent
  sessions : Held d e source (sessionsAtEnd document supplied tasks e) b (sent ++ more)
  closed : b.isOpen = false
  closing : ∀ w ∈ more, w.isData = false
  journal : journalOf (runShared document supplied tasks e).2 source.name =
    source.pool.server.journal ++ (sent ++ more)
  failed : (afterFields document supplied tasks e).2.isSome = true → b.commits = false
  ok : (runShared document supplied tasks e).1.isOk = true →
    b = .kept ∨ tasks = [] ∧ sent ++ more = []

theorem exists_sentTogether (he : Journals d e source)
    (htasks : ∀ t ∈ tasks, t.source = source.name) (document : Document) (supplied : Variables) :
    ∃ fields closing b, SentTogether d e source document supplied tasks fields closing b := by
  have hstart : Held d e source [] .unopened [] := .inl ⟨rfl, rfl, rfl⟩
  obtain ⟨fields, a, halike, hfields, hcommits, hnone⟩ :=
    runTogether_held document supplied (s := ⟨e, [], []⟩) he he.alike hstart (.inr rfl) htasks
  rw [List.nil_append] at hfields
  have hlast : (afterFields document supplied tasks e).2 = none → a = .running ∨ tasks = [] :=
    fun h => (hnone h).imp_right And.left
  have hsessions : tasks = [] → (afterFields document supplied tasks e).1.sessions = [] := by
    rintro rfl
    rfl
  obtain ⟨closing, b, hended, hclosed, hclosing, hfailed, hkept⟩ :=
    ended_held hfields hcommits fun h => (hlast h).imp_right hsessions
  refine ⟨fields, closing, b, ⟨a, hfields⟩, hended, hclosed, hclosing, ?_, hfailed, fun hok => ?_⟩
  · rw [runShared_engine]
    exact journalOf_withFinished halike hended
  · obtain ⟨hdone, hcommit⟩ := runShared_isOk hok
    rcases hlast hdone with rfl | rfl
    · exact .inl ((hkept hdone hcommit).resolve_left nofun)
    · exact .inr ⟨rfl, hended.unique hstart⟩

end Held

end SqlGateway.Engine
