import SqlGateway.Connection.Scripted
import SqlGateway.Proofs.Except
import SqlGateway.Proofs.Engine.Sessions
import SqlGateway.Proofs.Shop

/-!
# Transactions of requests

What a request sends to a source, from the first statement to the last. A request in one transaction
holds one session on its source; a mutation field with a transaction of its own has a session to
itself. Either way the statements are bracketed, no session is left inside a transaction, and
success is reported only after a commit that succeeded.
-/
namespace SqlGateway.Engine

open Connection (Bracketed Driver Entry Journaled Session Stage)
open Connection.Session (At Ends Passes Pooled)
open Request (Document Variables)

variable {σ : Type} {d : Driver σ} {e : Engine (Journaled σ)} {source : DataSource (Journaled σ)}
  {document : Document} {supplied : Variables}

/-- A mutation field that is planned and wants a transaction of its own. -/
structure WantsOwn (t : Task) : Prop where
  mutation : t.isMutation = true
  planned : t.field.name ≠ "sql"
  txn : t.field.resolved t.vars "txn" = some (.bool true)

/-- The session that a field by itself ran in, as it was when the field had run. -/
def sessionAtEnd (document : Document) (supplied : Variables) (t : Task) (e : Engine σ) :
    Option (Session σ) :=
  match e.prepareTask document supplied t with
  | .error _ => none
  | .ok (source, prepared) =>
    match (Session.start e.queryTimeout source.pool).1 with
    | .error _ => none
    | .ok session => some (runPrepared (e.compilerFor source) false prepared session).2

theorem prepare_of_wantsOwn {t : Task} (h : WantsOwn t) (compiler : Query.Compiler) :
    prepare compiler document supplied t = (planOf compiler document supplied t).map
      (.write · true) := by
  have hown : ownTransaction t = .ok true := by rw [ownTransaction, h.txn]
  rw [prepare, if_neg h.planned, h.mutation, hown]
  cases planOf compiler document supplied t <;> rfl

/-- A request whose fields run in one transaction, all of them on one source. -/
structure SharedOn (e : Engine σ) (s : Submission) (source : String) (document : Document)
    (tasks : List Task) : Prop where
  read : Document.read s.document = .ok document
  scheduled : schedule e.defaultSource document s.vars = .ok tasks
  spans : spansTransaction s document = true
  together : ∀ t ∈ tasks, t.source = source

theorem execute_eq {e : Engine σ} {s : Submission} {tasks : List Task}
    (hread : Document.read s.document = .ok document)
    (hscheduled : schedule e.defaultSource document s.vars = .ok tasks) :
    e.execute s = if spansTransaction s document then runShared document s.vars tasks e
      else runEach document s.vars tasks e := by
  unfold execute
  split
  next error herror => cases herror.symm.trans hread
  next d hd =>
    obtain rfl : d = document := Except.ok.inj (hd.symm.trans hread)
    split
    next error herror => cases herror.symm.trans hscheduled
    next ts hts =>
      obtain rfl : ts = tasks := Except.ok.inj (hts.symm.trans hscheduled)
      rfl

theorem execute_shared {e : Engine σ} {s : Submission} {source : String} {tasks : List Task}
    (h : SharedOn e s source document tasks) : e.execute s = runShared document s.vars tasks e := by
  rw [execute_eq h.read h.scheduled, if_pos h.spans]

/-- A transaction as it was sent, from the first statement to the last: nothing, a failed opening,
or an opening and a closing with data statements between them; after a failure only a rollback; and
the sessions that sent it are left outside it. -/
structure Transacted (d : Driver σ) (timeout : Duration) (sessions : List (Session (Journaled σ)))
    (ending : Stage) (sent : List Entry) : Prop where
  bracketed : Bracketed d.dialect timeout ending sent
  afterFailure : sent.Pairwise fun w v =>
    ¬ w.Succeeded timeout → v.statement = .batch d.dialect.rollbackStatement
  outside : ∀ s ∈ sessions, s.inTransaction = false

theorem transacted_of_steps {timeout : Duration} {sessions : List (Session (Journaled σ))}
    {b : Stage} {sent : List Entry} (h : Stage.Steps d.dialect timeout .unopened sent b)
    (hb : b.isOpen = false)
    (hsessions : ∀ s ∈ sessions, s.inTransaction = false) : Transacted d timeout sessions b sent :=
  ⟨Connection.bracketed_of_steps h hb, h.pairwise, hsessions⟩

theorem Held.transacted {sessions : Sessions (Journaled σ)} {b : Stage} {sent : List Entry}
    (h : Held d e source sessions b sent) (hb : b.isOpen = false) :
    Transacted d e.queryTimeout sessions.values b sent := by
  refine transacted_of_steps h.steps hb ?_
  rcases h with ⟨rfl, -, -⟩ | ⟨session, rfl, hpasses⟩
  · exact List.forall_mem_nil _
  · exact List.forall_mem_singleton.mpr (hpasses.at_.inTransaction.trans hb)

/-- How a request in one transaction comes out on its only source. -/
structure RequestOutcome (d : Driver σ) (e : Engine (Journaled σ)) (source : String)
    (s : Submission) (document : Document) (tasks : List Task) (ending : Stage)
    (sent : List Entry) : Prop where
  journal : journalOf (e.execute s).2 source = journalOf e source ++ sent
  transacted : Transacted d e.queryTimeout (sessionsAtEnd document s.vars tasks e).values
    ending sent
  returned : (e.execute s).2 = (afterFields document s.vars tasks e).1.engine.withFinished
    (sessionsAtEnd document s.vars tasks e)
  /-- No field failed, and the commit succeeded if anything was sent. -/
  ok : (e.execute s).1.isOk = true →
    (afterFields document s.vars tasks e).2 = none ∧ (ending = .kept ∨ tasks = [] ∧ sent = [])
  /-- A field that cannot be prepared ends the request without a commit, with the data statements of
  the fields before it. -/
  refused : ∀ before t after error, tasks = before ++ t :: after →
    e.prepareTask document s.vars t = .error error →
    (e.execute s).1.isOk = false ∧ (∀ w ∈ sent, w.statement ≠ .batch d.dialect.commitStatement) ∧
      ∃ alone, journalOf (runShared document s.vars before e).2 source =
        journalOf e source ++ alone ∧ sent.filter Entry.isData = alone.filter Entry.isData

/-- How a field by itself comes out that has a transaction of its own. -/
structure FieldOutcome (d : Driver σ) (e : Engine (Journaled σ)) (source : DataSource (Journaled σ))
    (document : Document) (supplied : Variables) (t : Task) (ending : Stage) (sent : List Entry) :
    Prop where
  journal : journalOf (runTask document supplied t e).2 source.name =
    journalOf e source.name ++ sent
  transacted : Transacted d e.queryTimeout (sessionAtEnd document supplied t e).toList ending sent
  returned : ∀ s ∈ sessionAtEnd document supplied t e, (runTask document supplied t e).2 =
    { e with catalog := e.catalog.add { source with
      pool := s.finish (Session.start e.queryTimeout source.pool).2 } }
  /-- The commit succeeded, and no failure of a child was passed over. -/
  ok : ∀ output, (runTask document supplied t e).1 = .ok output →
    ending = .kept ∧ ∃ rows, output = .written rows []
  refused : ∀ error, e.prepareTask document supplied t = .error error → sent = []

theorem filter_data_of_none {sent more : List Entry} (h : ∀ w ∈ more, w.isData = false) :
    (sent ++ more).filter Entry.isData = sent.filter Entry.isData := by
  have hnone : more.filter Entry.isData = [] :=
    List.filter_eq_nil_iff.mpr fun w hw => by rw [h w hw]; exact Bool.false_ne_true
  rw [List.filter_append, hnone, List.append_nil]

theorem exists_requestOutcome (he : Journals d e source) {s : Submission} {tasks : List Task}
    (hshared : SharedOn e s source.name document tasks) :
    ∃ ending sent, RequestOutcome d e source.name s document tasks ending sent := by
  obtain ⟨fields, closing, ending, hsent⟩ := exists_sentTogether he hshared.together document s.vars
  have hexecute := execute_shared hshared
  refine ⟨ending, fields ++ closing, ?_, hsent.sessions.transacted hsent.closed, ?_,
    fun hok => ?_, ?_⟩
  · rw [hexecute, he.journalOf]
    exact hsent.journal
  · rw [hexecute]
    exact runShared_engine document s.vars tasks e
  · rw [hexecute] at hok
    exact ⟨(runShared_isOk hok).1, hsent.ok hok⟩
  · rintro before t after error rfl hprepare
    have hbefore : ∀ u ∈ before, u.source = source.name :=
      fun u hu => hshared.together u (List.mem_append_left _ hu)
    have ht : t.source = source.name :=
      hshared.together t (List.mem_append_right _ List.mem_cons_self)
    have hstart : Held d e source [] .unopened [] := .inl ⟨rfl, rfl, rfl⟩
    obtain ⟨hsessions, hfailed⟩ := runTogether_refused after (s := ⟨e, [], []⟩) he he.alike hstart
      (.inr rfl) hbefore ht hprepare
    obtain ⟨alone, further, b, halone⟩ := exists_sentTogether he hbefore document s.vars
    obtain ⟨_, hfields⟩ := hsent.fields
    obtain ⟨_, hfields'⟩ := halone.fields
    rw [afterFields, hsessions] at hfields
    obtain rfl := hfields.unique hfields'
    refine ⟨?_, hsent.sessions.steps.no_commit (hsent.failed hfailed), fields ++ further, ?_, ?_⟩
    · refine Bool.eq_false_iff.mpr fun hok => ?_
      rw [hexecute] at hok
      rw [(runShared_isOk hok).1] at hfailed
      cases hfailed
    · rw [he.journalOf]
      exact halone.journal
    · rw [filter_data_of_none hsent.closing, filter_data_of_none halone.closing]

/-- Until its session has started a field sends nothing. -/
theorem fieldOutcome_unsent {t : Task} (he : Journals d e source) {error : Error}
    {e' : Engine (Journaled σ)} (hrun : runTask document supplied t e = (.error error, e'))
    (hsession : sessionAtEnd document supplied t e = none)
    (hjournal : journalOf e' source.name = source.pool.server.journal) :
    FieldOutcome d e source document supplied t .unopened [] := by
  refine ⟨?_, ?_, ?_, ?_, fun _ _ => rfl⟩
  · rw [hrun, he.journalOf, List.append_nil]
    exact hjournal
  · rw [hsession]
    exact transacted_of_steps .nil rfl (List.forall_mem_nil _)
  · rw [hsession]
    exact nofun
  · rw [hrun]
    exact nofun

theorem runTask_eq {e : Engine σ} {source : DataSource σ} {t : Task} {prepared : Prepared}
    (h : e.prepareTask document supplied t = .ok (source, prepared)) :
    (runTask document supplied t e, sessionAtEnd document supplied t e) =
      match Session.start e.queryTimeout source.pool with
      | (.error error, pool) =>
        ((.error error, { e with catalog := e.catalog.add { source with pool } }), none)
      | (.ok session, pool) =>
        let run := runPrepared (e.compilerFor source) false prepared session
        ((run.1, { e with catalog := e.catalog.add { source with pool := run.2.finish pool } }),
          some run.2) := by
  rw [runTask, sessionAtEnd, h]
  dsimp only
  rw [inSession_run]
  rcases Session.start e.queryTimeout source.pool with ⟨session, pool⟩
  cases session <;> rfl

/-- In its session a planned field opens its transaction and ends it. -/
theorem exists_fieldOutcome_of_start {t : Task} (he : Journals d e source) {plan : Mutation.Plan}
    (hprepare : e.prepareTask document supplied t = .ok (source, .write plan true))
    {session : Session (Journaled σ)}
    (hstart : (Session.start e.queryTimeout source.pool).1 = .ok session)
    (hpool : (Session.start e.queryTimeout source.pool).2.driver = d.journaled)
    (hpasses : Passes d e.queryTimeout source.pool.server.journal session .unopened [] .unopened) :
    ∃ ending sent, FieldOutcome d e source document supplied t ending sent := by
  obtain ⟨sent, b, hsent, hends⟩ :=
    leads_runPrepared_own (e.compilerFor source) plan session hpasses.at_
  have hlast := hpasses.trans hsent
  rw [List.nil_append] at hlast
  have hclosed : b.isOpen = false := by
    refine hends.imp (fun output hkept => ?_) id
    rw [hkept.1]
    rfl
  have heq := runTask_eq hprepare
  rcases hpair : Session.start e.queryTimeout source.pool with ⟨started, pool⟩
  rw [hpair] at hstart heq hpool
  subst hstart
  obtain ⟨hrun, hsome⟩ := Prod.mk.inj heq
  refine ⟨b, sent, ?_, ?_, ?_, fun output houtput => ?_, ?_⟩
  · rw [hrun, he.journalOf]
    have hfinished := (Session.finish_pooled _ hpool).journal.trans hlast.journal
    exact (journalOf_add e { source with pool := _ }).trans hfinished
  · rw [hsome]
    refine transacted_of_steps hlast.steps hclosed ?_
    exact List.forall_mem_singleton.mpr (hlast.at_.inTransaction.trans hclosed)
  · rw [hrun, hsome, hpair]
    rintro _ ⟨⟩
    rfl
  · rw [hrun] at houtput
    exact hends.of_ok houtput
  · rw [hprepare]
    exact nofun

theorem exists_fieldOutcome {t : Task} (document : Document) (supplied : Variables)
    (he : Journals d e source) (ht : t.source = source.name) (hown : WantsOwn t) :
    ∃ ending sent, FieldOutcome d e source document supplied t ending sent := by
  have hhere : e.catalog.sources.get? t.source = some source := by rw [ht, he.known]
  have hprepare := prepareTask_eq hhere document supplied
  rw [prepare_of_wantsOwn hown] at hprepare
  cases hplan : planOf (e.compilerFor source) document supplied t with
  | error error =>
      rw [hplan] at hprepare
      have hrun : runTask document supplied t e = (.error error, e) := by
        rw [runTask, hprepare]
        rfl
      have hsession : sessionAtEnd document supplied t e = none := by
        rw [sessionAtEnd, hprepare]
        rfl
      exact ⟨.unopened, [], fieldOutcome_unsent he hrun hsession he.journalOf⟩
  | ok plan =>
      rw [hplan] at hprepare
      have hpool : Pooled d source.pool.server.journal source.pool := ⟨he.driver, rfl⟩
      obtain ⟨hstarted, hsession⟩ := Session.start_pooled hpool e.queryTimeout
      cases hstart : (Session.start e.queryTimeout source.pool).1 with
      | ok session =>
          exact exists_fieldOutcome_of_start he hprepare hstart hstarted.driver
            (hsession session hstart)
      | error error =>
          have heq := runTask_eq hprepare
          rcases hpair : Session.start e.queryTimeout source.pool with ⟨started, pool⟩
          rw [hpair] at hstart hstarted heq
          subst hstart
          obtain ⟨hrun, hnone⟩ := Prod.mk.inj heq
          refine ⟨.unopened, [], fieldOutcome_unsent he hrun hnone ?_⟩
          exact (journalOf_add e { source with pool }).trans hstarted.journal

/-- Transactions are bracketed on every exit path, whatever the database does: those of a request on
one source and those of a mutation field by itself. Success is reported only where no field failed
and the commit succeeded, and a plan inside a transaction passes over no failure of a child. -/
theorem transactions_are_bracketed (d : Driver σ) :
    (∀ {e : Engine (Journaled σ)} {source : DataSource (Journaled σ)} {s : Submission}
        {document : Document} {tasks : List Task},
      Journals d e source → SharedOn e s source.name document tasks →
      ∃ ending sent, RequestOutcome d e source.name s document tasks ending sent) ∧
    (∀ {e : Engine (Journaled σ)} {source : DataSource (Journaled σ)} {t : Task}
        (document : Document) (supplied : Variables),
      Journals d e source → t.source = source.name → WantsOwn t →
      ∃ ending sent, FieldOutcome d e source document supplied t ending sent) ∧
    ∀ (options : Execution.TransactionOptions) (plan : Mutation.Plan) (s : Session (Journaled σ)),
      s.driver = d.journaled → options.begins = true ∨ s.inTransaction = true →
      ∀ outcome, (Execution.runPlan options plan s).1 = .ok outcome → outcome.failures = [] := by
  refine ⟨fun he hshared => exists_requestOutcome he hshared, exists_fieldOutcome, ?_⟩
  exact fun options plan s hs h outcome => Execution.runPlan_failures options hs h

open Connection (Scripted)

def shopSource : DataSource (Journaled Scripted) where
  name := "shop"
  tables := []
  activateAll := true
  pool := .new (Scripted.driver .postgres).journaled ⟨1, 1, .ofSeconds 60, .ofSeconds 5⟩
    ⟨⟨[], [], [], []⟩, []⟩
  schema := Shop.registry
  connected := true

/-- An engine with the shop behind a database that answers every statement with success. -/
def shopEngine : Engine (Journaled Scripted) where
  catalog := (Catalog.empty "retail").add shopSource
  rules := .passThrough
  defaultSource := some "shop"
  defaultLimit := 1000
  queryTimeout := .ofSeconds 30

theorem shopEngine_journals : Journals (Scripted.driver .postgres) shopEngine shopSource :=
  ⟨rfl, rfl⟩

/-- A mutation with one field, which wants a transaction of its own. -/
def shopTask (name : String) (arguments : List Request.Argument) : Task :=
  let field : Request.Field := ⟨none, name, arguments ++ [⟨"txn", .bool true⟩], [], []⟩
  ⟨⟨.mutation, none, [], [], [field]⟩, field, [], "shop"⟩

def annInserted : Submission :=
  ⟨"mutation \x7b insert_users(docs: [\x7bname: \"ann\"\x7d]) \x7b error \x7d \x7d", [], true⟩

def annDeleted : Task := shopTask "delete_users" [⟨"where", .object [("name", .text "ann")]⟩]

theorem annInserted_shared :
    ∃ document tasks, SharedOn shopEngine annInserted "shop" document tasks ∧ tasks ≠ [] := by
  -- The tasks of the document as far as they matter: where they go, if there are any.
  let places (d : Document) : Option (List String) :=
    (schedule shopEngine.defaultSource d []).toOption.map (·.map Task.source)
  have hok : (Document.read annInserted.document).isOk = true := by decide +kernel
  obtain ⟨document, hread⟩ := exists_eq_ok hok
  have hplaces : places document = some ["shop"] :=
    part_eq (g := places) hread (by decide +kernel)
  obtain ⟨tasks, hscheduled, htasks⟩ := Option.map_eq_some_iff.mp hplaces
  have htogether : ∀ t ∈ tasks, t.source = "shop" := by
    intro t ht
    have hsource : t.source ∈ tasks.map Task.source := List.mem_map_of_mem ht
    rw [htasks] at hsource
    exact List.mem_singleton.mp hsource
  refine ⟨document, tasks, ⟨hread, eq_ok_of_toOption hscheduled, rfl, htogether⟩, ?_⟩
  rintro rfl
  cases htasks

/-- Inserting Ann in a request of one transaction, deleting her in a transaction of her own, and any
plan with a transaction of its own on the shop: nothing fails, so both transactions are kept. -/
theorem transactions_are_bracketed_ann :
    (∃ document tasks sent, SharedOn shopEngine annInserted "shop" document tasks ∧
      RequestOutcome (Scripted.driver .postgres) shopEngine "shop" annInserted document tasks .kept
        sent) ∧
    WantsOwn annDeleted ∧
    (∃ sent, FieldOutcome (Scripted.driver .postgres) shopEngine shopSource ⟨[]⟩ [] annDeleted .kept
      sent) ∧
    ∀ plan outcome, (Execution.runPlan ⟨false, false, true, false⟩ plan
      (⟨shopSource.pool.driver, ⟨0⟩, shopSource.pool.server, ⟨⟨0⟩, false⟩, ⟨0⟩, false⟩ :
        Session (Journaled Scripted))).1 = .ok outcome →
      outcome.failures = [] := by
  obtain ⟨hrequest, hfield, hplan⟩ := transactions_are_bracketed (Scripted.driver .postgres)
  have hown : WantsOwn annDeleted := ⟨rfl, by decide, rfl⟩
  refine ⟨?_, hown, ?_, fun plan outcome => hplan _ plan _ rfl (.inl rfl) outcome⟩
  · obtain ⟨document, tasks, hshared, hsome⟩ := annInserted_shared
    obtain ⟨ending, sent, houtcome⟩ := hrequest shopEngine_journals hshared
    have hisOk : (shopEngine.execute annInserted).1.isOk = true := by decide +kernel
    obtain rfl := (houtcome.ok hisOk).2.resolve_right fun hnothing => hsome hnothing.1
    exact ⟨document, tasks, sent, hshared, houtcome⟩
  · obtain ⟨ending, sent, houtcome⟩ := hfield ⟨[]⟩ [] shopEngine_journals rfl hown
    have hisOk : (runTask ⟨[]⟩ [] annDeleted shopEngine).1.isOk = true := by decide +kernel
    obtain ⟨output, houtput⟩ := exists_eq_ok hisOk
    obtain ⟨rfl, -⟩ := houtcome.ok output houtput
    exact ⟨sent, houtcome⟩

/-- A raw statement that wants a transaction of its own. -/
def allDeleted : Task := shopTask "sql" [⟨"query", .text "delete from users"⟩]

/-- A raw statement is passed through by itself: although its field is a mutation that wants a
transaction, nothing opens one. -/
theorem raw_mutation_is_not_bracketed :
    allDeleted.isMutation = true ∧
    allDeleted.field.resolved allDeleted.vars "txn" = some (.bool true) ∧
    (journalOf (runTask ⟨[]⟩ [] allDeleted shopEngine).2 "shop").map Entry.isData = [true] ∧
    ∀ ending, ¬ Bracketed .postgres shopEngine.queryTimeout ending
      (journalOf (runTask ⟨[]⟩ [] allDeleted shopEngine).2 "shop") := by
  have hdata :
      (journalOf (runTask ⟨[]⟩ [] allDeleted shopEngine).2 "shop").map Entry.isData = [true] := by
    decide +kernel
  refine ⟨rfl, rfl, hdata, fun ending h => ?_⟩
  obtain ⟨w, hsent, hw⟩ := List.map_eq_singleton_iff.mp hdata
  rw [hsent] at h
  cases (Entry.isData_eq_false h.opening).symm.trans hw

end SqlGateway.Engine
