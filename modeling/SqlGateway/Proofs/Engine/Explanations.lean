import SqlGateway.Proofs.Engine.Preparation
import SqlGateway.Proofs.Engine.Requests
import SqlGateway.Proofs.Execution.ForeignKeys

/-!
# What is explained and what is sent

An explanation lists the statements of a field before anything is sent. A run of the field puts them
on the journal of its source in that order, if they succeed and return the rows that its writes are
linked to; what opens and closes transactions stands around them. In one transaction the fields go
on only as long as the rows that they read are accepted.
-/
namespace SqlGateway.Engine

open Connection (Driver Entry Journaled Session dataTexts dataTexts_append)
open Connection.Session (Passes Pooled)
open Execution (PutsAll)
open Request (Document Variables)

variable {σ : Type} {d : Driver σ} {drivers : String → Driver σ} {e e' : Engine (Journaled σ)}
  {document : Document} {supplied : Variables} {t : Task} {tasks : List Task}

/-- The statements of every source are journaled. -/
structure JournalsAll (drivers : String → Driver σ) (e : Engine (Journaled σ)) : Prop where
  named : e.Named
  driver : ∀ name source, e.source? name = some source →
    source.pool.driver = (drivers name).journaled

theorem journalsAll_only {only : DataSource (Journaled σ)} {place : String}
    (he : e.catalog = (Catalog.empty place).add only)
    (hdriver : only.pool.driver = (drivers only.name).journaled) : JournalsAll drivers e where
  named name source hsource := by
    obtain ⟨rfl, rfl⟩ := of_source?_only he hsource
    rfl
  driver name source hsource := by
    obtain ⟨rfl, rfl⟩ := of_source?_only he hsource
    exact hdriver

theorem JournalsAll.restocked (h : JournalsAll drivers e) (hrestocked : Restocked e e') :
    JournalsAll drivers e' where
  named := hrestocked.named h.named
  driver name source hsource := by
    obtain ⟨before, pool, hbefore, rfl, hpool⟩ := hrestocked.exists_source hsource
    exact hpool.trans (h.driver name before hbefore)

namespace FieldRun

/-- The plan of a field, if it has one, is a tree. -/
def PlansTree (r : FieldRun σ) : Prop := ∀ plan own, r.prepared = .write plan own → plan.IsTree

/-- What a run sent, told as what it would send. -/
def told (r : FieldRun (Journaled σ)) : Explanation :=
  ⟨r.task.outputName, r.task.source, dataTexts r.sent⟩

/-- A field has a session and all that it sends succeeds, with the rows that its writes are linked
to. A field in the transaction of its request also has its rows accepted. -/
structure Succeeds (r : FieldRun (Journaled σ)) : Prop where
  started : r.start.isOk = true
  statements : ∀ s, r.start = .ok s → ∀ w ∈ r.sent, w.Succeeded s.timeout
  linked : r.ReturnsLinked
  accepted : r.spans = true → r.AcceptsRows

end FieldRun

section Visited
variable {timeout : Duration} {source source' : DataSource (Journaled σ)}
  {runs : List (FieldRun (Journaled σ))} {session : Option (Session (Journaled σ))}

theorem Chained.puts {p : Connection.Pool (Journaled σ)} {s : Session (Journaled σ)}
    (h : Chained timeout p runs s) (hp : p.driver = d.journaled)
    (htrees : ∀ r ∈ runs, r.PlansTree) : s.driver = d.journaled ∧ s.timeout = timeout ∧
      s.journal = p.server.journal ++ runs.flatMap FieldRun.sent := by
  induction h with
  | start hstart =>
      obtain ⟨-, hstarted⟩ := Session.start_pooled (⟨hp, rfl⟩ : Pooled d p.server.journal p) timeout
      have hpasses := hstarted _ hstart
      exact ⟨hpasses.at_.driver, hpasses.at_.timeout, hpasses.journal⟩
  | @step runs s r _ hstart ih =>
      obtain ⟨hruns, hr⟩ := List.forall_mem_append.mp htrees
      obtain ⟨hdriver, htimeout, hjournal⟩ := ih hruns
      have hputs := (r.sends_of_start hstart hdriver (hr r List.mem_cons_self)).puts
      refine ⟨hputs.driver, hputs.timeout.trans htimeout, ?_⟩
      rw [hputs.journal, hjournal, List.flatMap_append, List.append_assoc]
      simp

theorem Closing.puts {s s' : Session (Journaled σ)} (h : Closing s s')
    (hs : s.driver = d.journaled) :
    ∃ closing, PutsAll d s s' closing ∧ ∀ w ∈ closing, w.isData = false := by
  induction h with
  | refl => exact ⟨[], ⟨hs, rfl, (List.append_nil _).symm⟩, List.forall_mem_nil _⟩
  | commit _ ih =>
      obtain ⟨closing, hputs, hclosing⟩ := ih
      obtain ⟨more, hmore, hdata, -⟩ := Execution.commit_sends hputs.driver 1
      exact ⟨closing ++ more, hputs.trans hmore, List.forall_mem_append.mpr ⟨hclosing, hdata⟩⟩
  | abandon _ ih =>
      obtain ⟨closing, hputs, hclosing⟩ := ih
      obtain ⟨more, hmore, hdata⟩ := Execution.abandon_sends hputs.driver
      exact ⟨closing ++ more, hputs.trans hmore, List.forall_mem_append.mpr ⟨hclosing, hdata⟩⟩

theorem data_of_puts {s s' : Session (Journaled σ)} {sent : List Entry} (h : PutsAll d s s' sent)
    (hdata : ∀ w ∈ sent, w.isData = false) :
    s'.journal.filter Entry.isData = s.journal.filter Entry.isData := by
  rw [h.journal, filter_data_of_none hdata]

/-- The data statements that come to the journal of a source are those of the fields that are run on
it, whatever becomes of them. -/
theorem Visited.journal (h : Visited timeout source runs session source')
    (hsource : source.pool.driver = d.journaled) (htrees : ∀ r ∈ runs, r.PlansTree) :
    source'.pool.driver = d.journaled ∧ source'.pool.server.journal.filter Entry.isData =
      (source.pool.server.journal ++ runs.flatMap FieldRun.sent).filter Entry.isData := by
  cases h with
  | untouched => exact ⟨hsource, by simp⟩
  | @held _ _ last hchained hclosing =>
      obtain ⟨hdriver, htimeout, hjournal⟩ := hchained.puts hsource htrees
      obtain ⟨closing, hputs, hdata⟩ := hclosing.puts hdriver
      have hpool := (Session.start_pooled (⟨hsource, rfl⟩ : Pooled d _ source.pool) timeout).1
      have hfinished := Session.finish_pooled last hpool.driver
      refine ⟨hfinished.driver, ?_⟩
      rw [hfinished.journal, data_of_puts hputs hdata, hjournal]
  | refused hstart hr =>
      have hpool := (Session.start_pooled (⟨hsource, rfl⟩ : Pooled d _ source.pool) timeout).1
      refine ⟨hpool.driver, ?_⟩
      rw [hpool.journal]
      simp [FieldRun.sent, hr]

/-- The session of every field that is run belongs to the driver of its source. -/
theorem Visited.driver (h : Visited timeout source runs session source')
    (hsource : source.pool.driver = d.journaled) (htrees : ∀ r ∈ runs, r.PlansTree) :
    ∀ r ∈ runs, ∀ s, r.start = .ok s → s.driver = d.journaled := by
  have chained : ∀ {runs : List (FieldRun (Journaled σ))} {s : Session (Journaled σ)},
      Chained timeout source.pool runs s → (∀ r ∈ runs, r.PlansTree) →
      ∀ r ∈ runs, ∀ s, r.start = .ok s → s.driver = d.journaled := by
    intro runs s hchained
    induction hchained with
    | start _ => exact fun _ => List.forall_mem_nil _
    | @step runs s r hbefore hstart ih =>
        intro htrees
        obtain ⟨hruns, hr⟩ := List.forall_mem_append.mp htrees
        refine List.forall_mem_append.mpr ⟨ih hruns, List.forall_mem_singleton.mpr fun s' hs' => ?_⟩
        obtain rfl : s = s' := Except.ok.inj (hstart.symm.trans hs')
        exact (hbefore.puts hsource hruns).1
  cases h with
  | untouched => exact List.forall_mem_nil _
  | held hchained _ => exact chained hchained htrees
  | refused _ hr =>
      refine List.forall_mem_singleton.mpr fun s hs => ?_
      cases hr.symm.trans hs

end Visited

/-- What is known of a request that has run its fields: which data statements came to the journals,
and on which drivers the fields were run. -/
structure Accounts (drivers : String → Driver σ) (e e' : Engine (Journaled σ))
    (runs : List (FieldRun (Journaled σ))) : Prop where
  restocked : Restocked e e'
  data : ∀ name, (journalOf e' name).filter Entry.isData =
    (journalOf e name ++ (runsOn name runs).flatMap FieldRun.sent).filter Entry.isData
  driver : ∀ r ∈ runs, ∀ s, r.start = .ok s → s.driver = (drivers r.task.source).journaled
  trees : ∀ r ∈ runs, r.PlansTree

theorem journalOf_of_known {name : String} {source : DataSource (Journaled σ)}
    (h : e.source? name = some source) : journalOf e name = source.pool.server.journal := by
  rw [source?] at h
  rw [journalOf, h]
  rfl

theorem journalOf_of_unknown {name : String} (h : e.source? name = none) :
    journalOf e name = [] := by
  rw [source?] at h
  rw [journalOf, h]
  rfl

section Accounts
variable {runs more : List (FieldRun (Journaled σ))} {e'' : Engine (Journaled σ)}

theorem accounts_refl (drivers : String → Driver σ) (e : Engine (Journaled σ)) :
    Accounts drivers e e [] where
  restocked := .refl e
  data name := by simp [runsOn]
  driver := List.forall_mem_nil _
  trees := List.forall_mem_nil _

theorem Accounts.trans (h : Accounts drivers e e' runs) (k : Accounts drivers e' e'' more) :
    Accounts drivers e e'' (runs ++ more) where
  restocked := h.restocked.trans k.restocked
  data name := by
    rw [k.data, List.filter_append, h.data, ← List.filter_append, runsOn_append,
      List.flatMap_append, List.append_assoc]
  driver := List.forall_mem_append.mpr ⟨h.driver, k.driver⟩
  trees := List.forall_mem_append.mpr ⟨h.trees, k.trees⟩

/-- The account of a request is put together from what becomes of its sources. -/
theorem accounts_of_visits (he : JournalsAll drivers e) (htrees : ∀ r ∈ runs, r.PlansTree)
    (hsettings : e' = { e with catalog := e'.catalog })
    (hknown : ∀ name source, e.source? name = some source → ∃ source' session,
      e'.source? name = some source' ∧ Visited e.queryTimeout source (runsOn name runs)
        session source')
    (hunknown : ∀ name, e.source? name = none → e'.source? name = none ∧ runsOn name runs = []) :
    Accounts drivers e e' runs := by
  have htreesOn (name : String) : ∀ r ∈ runsOn name runs, r.PlansTree :=
    fun r hr => htrees r (List.mem_of_mem_filter hr)
  refine ⟨⟨hsettings, fun name hname => (hunknown name hname).1, fun name source hsource => ?_⟩,
    fun name => ?_, fun r hr => ?_, htrees⟩
  · obtain ⟨source', session, hsource', hvisited⟩ := hknown name source hsource
    have hdriver := he.driver name source hsource
    obtain ⟨pool, rfl⟩ := hvisited.pool
    exact ⟨pool, (hvisited.journal hdriver (htreesOn name)).1.trans hdriver.symm, hsource'⟩
  · cases hsource : e.source? name with
    | none =>
        obtain ⟨hgone, hruns⟩ := hunknown name hsource
        rw [journalOf_of_unknown hgone, journalOf_of_unknown hsource, hruns]
        rfl
    | some source =>
        obtain ⟨source', session, hsource', hvisited⟩ := hknown name source hsource
        rw [journalOf_of_known hsource', journalOf_of_known hsource]
        exact (hvisited.journal (he.driver name source hsource) (htreesOn name)).2
  · have hon : r ∈ runsOn r.task.source runs := List.mem_filter.mpr ⟨hr, by simp⟩
    cases hsource : e.source? r.task.source with
    | none =>
        rw [(hunknown _ hsource).2] at hon
        cases hon
    | some source =>
        obtain ⟨source', session, -, hvisited⟩ := hknown _ source hsource
        exact hvisited.driver (he.driver _ source hsource) (htreesOn _) r hon

end Accounts

/-- The journal of a source while a request in one transaction is under way. A session that is held
on the source keeps it. -/
def Shared.journalOf (s : Shared (Journaled σ)) (name : String) : List Entry :=
  match s.sessions.get? name with
  | some session => session.journal
  | none => Engine.journalOf s.engine name

/-- The journal of a source once the first fields of a request have been run, as many as are
counted. -/
def journalAfter (e : Engine (Journaled σ)) (s : Submission) (count : Nat) (name : String) :
    List Entry :=
  match Document.read s.document with
  | .error _ => journalOf e name
  | .ok d =>
    match schedule e.defaultSource d s.vars with
    | .error _ => journalOf e name
    | .ok tasks =>
      if spansTransaction s d then
        (runTogether d s.vars (tasks.take count) ⟨e, [], []⟩).1.journalOf name
      else journalOf (runEach d s.vars (tasks.take count) e).2 name

theorem journalAfter_eq {s : Submission} (hread : Document.read s.document = .ok document)
    (hscheduled : schedule e.defaultSource document s.vars = .ok tasks) (count : Nat)
    (name : String) : journalAfter e s count name = if spansTransaction s document then
        (runTogether document s.vars (tasks.take count) ⟨e, [], []⟩).1.journalOf name
      else journalOf (runEach document s.vars (tasks.take count) e).2 name := by
  unfold journalAfter
  split
  next error herror => cases herror.symm.trans hread
  next d hd =>
    obtain rfl : d = document := Except.ok.inj (hd.symm.trans hread)
    split
    next error herror => cases herror.symm.trans hscheduled
    next ts hts =>
      obtain rfl : ts = tasks := Except.ok.inj (hts.symm.trans hscheduled)
      rfl

/-- What comes to the journal of a source while fields are run in one transaction is what they send
there. -/
theorem Touched.journal {timeout : Duration} {source source' : DataSource (Journaled σ)}
    {runs : List (FieldRun (Journaled σ))} {session : Option (Session (Journaled σ))}
    (h : Touched timeout source runs session source') (hsource : source.pool.driver = d.journaled)
    (htrees : ∀ r ∈ runs, r.PlansTree) :
    (session.map (·.journal)).getD source'.pool.server.journal =
      source.pool.server.journal ++ runs.flatMap FieldRun.sent := by
  cases h with
  | untouched => simp
  | held hchained => exact (hchained.puts hsource htrees).2.2
  | refused _ hr =>
      have hpool := (Session.start_pooled (⟨hsource, rfl⟩ : Pooled d _ source.pool) timeout).1
      rw [Option.map_none, Option.getD_none, hpool.journal]
      simp [FieldRun.sent, hr]

theorem Underway.journal {s : Shared (Journaled σ)} {runs : List (FieldRun (Journaled σ))}
    (he : JournalsAll drivers e) (h : Underway e s runs) (htrees : ∀ r ∈ runs, r.PlansTree)
    (name : String) :
    s.journalOf name = journalOf e name ++ (runsOn name runs).flatMap FieldRun.sent := by
  cases hsource : e.source? name with
  | none =>
      obtain ⟨hgone, hnone, hruns⟩ := h.unknown name hsource
      rw [Shared.journalOf, hnone, journalOf_of_unknown hsource, hruns]
      exact journalOf_of_unknown hgone
  | some source =>
      obtain ⟨source', hsource', htouched⟩ := h.known name source hsource
      have hjournal := htouched.journal (he.driver name source hsource)
        fun r hr => htrees r (List.mem_of_mem_filter hr)
      rw [journalOf_of_known hsource, ← hjournal, Shared.journalOf]
      cases s.sessions.get? name with
      | some session => rfl
      | none => exact journalOf_of_known hsource'

/-- Every plan among the fields of a request is a tree. -/
def PlansTrees (e : Engine σ) (document : Document) (supplied : Variables)
    (tasks : List Task) : Prop :=
  ∀ t ∈ tasks, ∀ source plan own, e.prepareTask document supplied t =
    .ok (source, .write plan own) → plan.IsTree

theorem PlansTrees.plansTree {e : Engine σ} {document : Document} {supplied : Variables}
    {tasks : List Task} (h : PlansTrees e document supplied tasks) {r : FieldRun σ}
    (hr : r.task ∈ tasks) {source : DataSource σ}
    (hprepare : e.prepareTask document supplied r.task = .ok (source, r.prepared)) : r.PlansTree :=
  fun plan own hplan => h r.task hr source plan own (hplan ▸ hprepare)

theorem PlansTrees.restocked {e e' : Engine σ} {document : Document} {supplied : Variables}
    {tasks : List Task} (h : PlansTrees e document supplied tasks) (hrestocked : Restocked e e') :
    PlansTrees e' document supplied tasks := by
  intro t ht source plan own hprepare
  obtain ⟨before, hbefore⟩ := hrestocked.prepared hprepare
  exact h t ht before plan own hbefore

theorem plansTrees_of_schedule {e : Engine σ} {document : Document} {supplied : Variables}
    {tasks : List Task}
    (hforces : ∀ name source, e.source? name = some source →
      ForcesDistinctKeys (e.compilerFor source))
    (hvars : (Json.object supplied).hasDistinctKeys = true)
    (hscheduled : schedule e.defaultSource document supplied = .ok tasks) :
    PlansTrees e document supplied tasks := by
  intro t ht source plan own hprepare
  obtain ⟨hsource, hprepared⟩ := prepareTask_eq_ok.mp hprepare
  have htask : (Json.object t.vars).hasDistinctKeys = true := by
    rw [vars_of_schedule hscheduled ht]
    exact Request.distinct_variablesWith hvars t.operation
  exact isTree_of_prepare (hforces _ source hsource) htask hprepared

theorem runTask_accounts (he : JournalsAll drivers e)
    (hplans : PlansTrees e document supplied [t]) :
    Accounts drivers e (runTask document supplied t e).2
      (runAlone document supplied t e).toList := by
  refine accounts_of_visits he (fun r hr => ?_) (runTask_settings document supplied t e)
    (fun name source hsource => ?_) fun name hname => runTask_unknown he.named hname
  · obtain ⟨rfl, -, source, hprepare, -⟩ := of_runAlone (Option.mem_toList.mp hr)
    exact hplans.plansTree List.mem_cons_self hprepare
  · obtain ⟨source', hsource', hvisited⟩ := runTask_visits he.named document supplied t hsource
    exact ⟨source', _, hsource', hvisited⟩

/-- The engine after the first field goes on to the others, whatever the response is by then. -/
theorem runEach_cons (document : Document) (supplied : Variables) (t : Task) (rest : List Task)
    (e : Engine σ) : (runEach document supplied (t :: rest) e).2 =
      (runEach document supplied rest (runTask document supplied t e).2).2 := by
  have same : ∀ (tasks : List Task) (r r' : Response) (e : Engine σ),
      (tasks.foldl (noted document supplied) (r, e)).2 =
        (tasks.foldl (noted document supplied) (r', e)).2 := by
    intro tasks
    induction tasks with
    | nil => exact fun _ _ _ => rfl
    | cons t rest ih => exact fun r r' e => ih _ _ _
  exact same rest _ _ _

theorem runEach_accounts (he : JournalsAll drivers e)
    (hplans : PlansTrees e document supplied tasks) :
    Accounts drivers e (runEach document supplied tasks e).2
      (runsEach document supplied tasks e) := by
  induction tasks generalizing e with
  | nil => exact accounts_refl drivers e
  | cons t rest ih =>
      obtain ⟨ht, hrest⟩ := List.forall_mem_cons.mp hplans
      have hfirst := runTask_accounts he (List.forall_mem_singleton.mpr ht)
      have hrest : PlansTrees e document supplied rest := hrest
      rw [runEach_cons, runsEach]
      exact hfirst.trans (ih (he.restocked hfirst.restocked) (hrest.restocked hfirst.restocked))

theorem runShared_accounts (he : JournalsAll drivers e)
    (hplans : PlansTrees e document supplied tasks) :
    Accounts drivers e (runShared document supplied tasks e).2
      (runsTogether document supplied tasks ⟨e, [], []⟩) := by
  have hstart := underway_start e []
  refine accounts_of_visits he (fun r hr => ?_) ?_ (fun name source hsource => ?_)
    fun name hname => runShared_unknown he.named document supplied tasks hname
  · obtain ⟨hr, -, source, hprepare⟩ :=
      hstart.prepared he.named (List.forall_mem_nil _) document supplied tasks r hr
    exact hplans.plansTree hr hprepare
  · exact runShared_settings he.named document supplied tasks
  · obtain ⟨source', hsource', hvisited⟩ :=
      runShared_visits he.named document supplied tasks hsource
    exact ⟨source', _, hsource', hvisited⟩

theorem runsEach_take (document : Document) (supplied : Variables) (tasks : List Task) (count : Nat)
    (e : Engine σ) :
    runsEach document supplied (tasks.take count) e <+: runsEach document supplied tasks e := by
  induction tasks generalizing count e with
  | nil => simp
  | cons t rest ih =>
      cases count with
      | zero => exact List.nil_prefix
      | succ count => exact (List.prefix_append_right_inj _).mpr (ih count _)

theorem runsTogether_take (document : Document) (supplied : Variables) (tasks : List Task)
    (count : Nat) (s : Shared σ) :
    runsTogether document supplied (tasks.take count) s <+:
      runsTogether document supplied tasks s := by
  induction tasks generalizing count s with
  | nil => simp
  | cons t rest ih =>
      cases count with
      | zero => exact List.nil_prefix
      | succ count =>
          rw [List.take_succ_cons, runsTogether, runsTogether]
          refine (List.prefix_append_right_inj _).mpr ?_
          rcases runHeld document supplied t s with ⟨error | output, s'⟩
          · exact List.prefix_rfl
          · exact ih count _

/-- What a run was prepared to. -/
def FieldRun.explanation (r : FieldRun σ) : Explanation :=
  ⟨r.task.outputName, r.task.source, r.prepared.statements⟩

/-- The explanation of a field that can be prepared. -/
def Explained (e : Engine σ) (document : Document) (supplied : Variables) (t : Task)
    (x : Explanation) : Prop :=
  ∃ source prepared, e.prepareTask document supplied t = .ok (source, prepared) ∧
    x = ⟨t.outputName, t.source, prepared.statements⟩

section Explained
variable {e : Engine σ} {s : Submission} {explanations : List Explanation}

/-- An explanation tells of every field of the schedule what it is prepared to. -/
theorem explain_eq_ok (h : e.explain s = .ok explanations) : ∃ document tasks,
    Document.read s.document = .ok document ∧ schedule e.defaultSource document s.vars = .ok tasks ∧
      List.Forall₂ (Explained e document s.vars) tasks explanations := by
  obtain ⟨document, hread, h⟩ := bind_eq_ok.mp h
  obtain ⟨tasks, hscheduled, h⟩ := bind_eq_ok.mp h
  refine ⟨document, tasks, hread, hscheduled, (forall₂_of_mapM h).imp fun t x ht => ?_⟩
  obtain ⟨⟨source, prepared⟩, hprepare, hx⟩ := bind_eq_ok.mp ht
  exact ⟨source, prepared, hprepare, (pure_eq_ok.mp hx).symm⟩

theorem Explained.restocked {e' : Engine σ} {document : Document} {supplied : Variables} {t : Task}
    {x : Explanation} (h : Explained e document supplied t x) (hrestocked : Restocked e e') :
    Explained e' document supplied t x := by
  obtain ⟨source, prepared, hprepare, rfl⟩ := h
  obtain ⟨pool, -, -, hprepare⟩ := hrestocked.prepareTask hprepare
  exact ⟨_, prepared, hprepare, rfl⟩

end Explained

theorem runsEach_explained {explanations : List Explanation} (he : JournalsAll drivers e)
    (hplans : PlansTrees e document supplied tasks)
    (hexplained : List.Forall₂ (Explained e document supplied) tasks explanations) :
    (runsEach document supplied tasks e).map FieldRun.explanation = explanations := by
  induction tasks generalizing e explanations with
  | nil =>
      cases hexplained
      rfl
  | cons t rest ih =>
      obtain ⟨ht, hrest⟩ := List.forall_mem_cons.mp hplans
      have hrest : PlansTrees e document supplied rest := hrest
      have hrestocked := (runTask_accounts he (List.forall_mem_singleton.mpr ht)).restocked
      cases hexplained with
      | cons hfirst hothers =>
          obtain ⟨source, prepared, hprepare, rfl⟩ := hfirst
          obtain ⟨r, _, hrun, rfl, -⟩ := runAlone_of_prepared hprepare
          obtain ⟨-, -, _, hprepare', -⟩ := of_runAlone hrun
          obtain ⟨-, rfl⟩ := Prod.mk.inj (Except.ok.inj (hprepare.symm.trans hprepare'))
          rw [runsEach, hrun, Option.toList_some, List.map_append,
            ih (he.restocked hrestocked) (hrest.restocked hrestocked)
              (hothers.imp fun _ _ h => h.restocked hrestocked)]
          rfl

/-- As long as its fields succeed, a request in one transaction goes on to the next one. -/
theorem Underway.explained {e : Engine σ} {s : Shared σ} {runs : List (FieldRun σ)}
    {explanations : List Explanation} (he : e.Named) (h : Underway e s runs)
    (hstarted : ∀ r ∈ runs, r.start.isOk = true)
    (hexplained : List.Forall₂ (Explained e document supplied) tasks explanations)
    (hok : ∀ r ∈ runsTogether document supplied tasks s, ∃ session, r.start = .ok session ∧
      (r.steps session).1.isOk = true) :
    (runsTogether document supplied tasks s).map FieldRun.explanation = explanations := by
  induction tasks generalizing s runs explanations with
  | nil =>
      cases hexplained
      rfl
  | cons t rest ih =>
      cases hexplained with
      | cons hfirst hothers =>
          obtain ⟨source, prepared, hprepare, rfl⟩ := hfirst.restocked h.restocked
          obtain ⟨r, hwithin, rfl, -, rfl, -, hheld⟩ := runHeld_of_prepared hprepare
          have hstep := h.step he hstarted document supplied r.task
          rw [runsTogether, hwithin, Option.toList_some] at hok ⊢
          obtain ⟨⟨session, hstart, hdone⟩, hlater⟩ := List.forall_mem_cons.mp hok
          obtain ⟨output, houtput⟩ := exists_eq_ok hdone
          rw [hstart] at hheld
          dsimp only at hheld
          rw [houtput] at hheld
          rw [hwithin, Option.toList_some, hheld] at hstep
          rw [hheld] at hlater ⊢
          rw [List.map_append, ih (hstep.withData _) ?_ hothers hlater]
          · rfl
          · exact List.forall_mem_append.mpr
              ⟨hstarted, List.forall_mem_singleton.mpr (by rw [hstart]; rfl)⟩

namespace FieldRun

instance (r : FieldRun (Journaled σ)) : Decidable r.Succeeds :=
  decidable_of_iff (r.start.isOk = true ∧
      (∀ s ∈ r.start.toOption, ∀ w ∈ r.sent, w.Succeeded s.timeout) ∧ r.ReturnsLinked ∧
      (r.spans = true → r.AcceptsRows))
    ⟨fun ⟨hstarted, hsent, hlinked, haccepted⟩ =>
        ⟨hstarted, fun s hs => hsent s (by rw [hs]; rfl), hlinked, haccepted⟩,
      fun h => ⟨h.started, fun s hs => h.statements s (eq_ok_of_toOption hs), h.linked, h.accepted⟩⟩

variable {r : FieldRun (Journaled σ)} {s : Session (Journaled σ)}

theorem Sends.told (h : r.Sends d s) (hr : r.Succeeds) (hstart : r.start = .ok s) :
    r.told = r.explanation := by
  rw [FieldRun.told, h.texts (hr.statements s hstart) hr.linked]
  rfl

end FieldRun

theorem dataTexts_flatMap (runs : List (FieldRun (Journaled σ))) :
    dataTexts (runs.flatMap FieldRun.sent) = (runs.map FieldRun.told).flatMap (·.statements) := by
  induction runs with
  | nil => rfl
  | cons r rest ih =>
      rw [List.flatMap_cons, dataTexts_append, ih]
      rfl

theorem runsOn_told (name : String) (runs : List (FieldRun (Journaled σ))) :
    (runsOn name runs).map FieldRun.told = (runs.map FieldRun.told).filter (·.source == name) := by
  rw [List.filter_map]
  rfl

/-- Fields that succeed send what they were prepared to. -/
theorem told_of_succeeds {runs : List (FieldRun (Journaled σ))}
    (hdriver : ∀ r ∈ runs, ∀ s, r.start = .ok s → s.driver = (drivers r.task.source).journaled)
    (htrees : ∀ r ∈ runs, r.PlansTree) (hsucceeds : ∀ r ∈ runs, r.Succeeds) :
    runs.map FieldRun.told = runs.map FieldRun.explanation := by
  refine List.map_congr_left fun r hr => ?_
  obtain ⟨s, hs⟩ := exists_eq_ok (hsucceeds r hr).started
  exact (r.sends_of_start hs (hdriver r hr s hs) (htrees r hr)).told (hsucceeds r hr) hs

/-- In every mode a request that is explained comes to an account of the fields that it runs. If
they succeed, they are the ones that were explained. -/
theorem Accounts.explains {runs : List (FieldRun (Journaled σ))} {explanations : List Explanation}
    (h : Accounts drivers e e' runs) (hsucceeds : ∀ r ∈ runs, r.Succeeds)
    (hexplained : runs.map FieldRun.explanation = explanations) :
    runs.map FieldRun.told = explanations ∧
      ∀ name, dataTexts (journalOf e' name) = dataTexts (journalOf e name) ++
        (explanations.filter (·.source == name)).flatMap (·.statements) := by
  have htold := (told_of_succeeds h.driver h.trees hsucceeds).trans hexplained
  refine ⟨htold, fun name => ?_⟩
  rw [← htold, ← runsOn_told, ← dataTexts_flatMap, ← dataTexts_append, dataTexts, h.data, dataTexts]

/-- In one transaction the fields that succeed are the ones that were explained. While the request
is under way, the sessions that it holds have their statements. -/
theorem runTogether_explains {explanations : List Explanation} (he : JournalsAll drivers e)
    (hplans : PlansTrees e document supplied tasks)
    (hexplained : List.Forall₂ (Explained e document supplied) tasks explanations)
    (hsucceeds : ∀ r ∈ runsTogether document supplied tasks ⟨e, [], []⟩, r.Succeeds) :
    (runsTogether document supplied tasks ⟨e, [], []⟩).map FieldRun.explanation = explanations ∧
      ∀ name, dataTexts ((runTogether document supplied tasks ⟨e, [], []⟩).1.journalOf name) =
        dataTexts (journalOf e name) ++
          (explanations.filter (·.source == name)).flatMap (·.statements) := by
  have haccounts := runShared_accounts he hplans
  have hstart := underway_start e []
  have hmap := hstart.explained he.named (List.forall_mem_nil _) hexplained fun r hr => by
    obtain ⟨session, hsession⟩ := exists_eq_ok (hsucceeds r hr).started
    have hsends := r.sends_of_start hsession (haccounts.driver r hr session hsession)
      (haccounts.trees r hr)
    obtain ⟨-, hspans, -⟩ :=
      hstart.prepared he.named (List.forall_mem_nil _) document supplied tasks r hr
    exact ⟨session, hsession, hsends.isOk ((hsucceeds r hr).statements session hsession)
      (hsucceeds r hr).linked ((hsucceeds r hr).accepted hspans)⟩
  refine ⟨hmap, fun name => ?_⟩
  have htold := (told_of_succeeds haccounts.driver haccounts.trees hsucceeds).trans hmap
  have hunderway := hstart.runTogether he.named (List.forall_mem_nil _) document supplied tasks
  rw [List.nil_append] at hunderway
  rw [hunderway.journal he haccounts.trees, dataTexts_append, dataTexts_flatMap, runsOn_told, htold]

/-- Explaining a request tells what running it sends. Where every field gets its session, all that
is sent succeeds, and each write returns the rows that others are linked to, the data statements of
the fields are those of the explanation, field by field and in order, and they are all that comes to
the journals of the sources. They come there in this order: once the first fields have been run, the
journals have what is explained of these fields, and nothing of the others. In one transaction the
transforming role has to accept the rows of every field, since the request ends at the first that it
does not. -/
theorem sent_as_explained (he : JournalsAll drivers e)
    (hforces : ∀ name source, e.source? name = some source →
      ForcesDistinctKeys (e.compilerFor source))
    {s : Submission} (hvars : (Json.object s.vars).hasDistinctKeys = true)
    {explanations : List Explanation} (hexplain : e.explain s = .ok explanations)
    (hsucceeds : ∀ r ∈ fieldRuns e s, r.Succeeds) :
    dataTexts ((fieldRuns e s).flatMap FieldRun.sent) = explanations.flatMap (·.statements) ∧
    (fieldRuns e s).map FieldRun.told = explanations ∧
    (∀ name, dataTexts (journalOf (e.execute s).2 name) = dataTexts (journalOf e name) ++
      (explanations.filter (·.source == name)).flatMap (·.statements)) ∧
    ∀ count name, dataTexts (journalAfter e s count name) = dataTexts (journalOf e name) ++
      ((explanations.take count).filter (·.source == name)).flatMap (·.statements) := by
  obtain ⟨document, tasks, hread, hscheduled, hexplained⟩ := explain_eq_ok hexplain
  have hplans := plansTrees_of_schedule hforces hvars hscheduled
  have hfirst (count : Nat) : PlansTrees e document s.vars (tasks.take count) :=
    fun t ht => hplans t (List.mem_of_mem_take ht)
  have hexplainedFirst (count : Nat) := List.forall₂_take count hexplained
  suffices h : (fieldRuns e s).map FieldRun.told = explanations ∧
      (∀ name, dataTexts (journalOf (e.execute s).2 name) = dataTexts (journalOf e name) ++
        (explanations.filter (·.source == name)).flatMap (·.statements)) ∧
      ∀ count name, dataTexts (journalAfter e s count name) = dataTexts (journalOf e name) ++
        ((explanations.take count).filter (·.source == name)).flatMap (·.statements) by
    refine ⟨?_, h⟩
    rw [dataTexts_flatMap, h.1]
  simp only [journalAfter_eq hread hscheduled]
  rw [fieldRuns_eq hread hscheduled] at hsucceeds ⊢
  rw [execute_eq hread hscheduled]
  split at hsucceeds
  next hspans =>
    simp only [if_pos hspans]
    have hdone := runTogether_explains he hplans hexplained hsucceeds
    obtain ⟨htold, hjournals⟩ := (runShared_accounts he hplans).explains hsucceeds hdone.1
    refine ⟨htold, hjournals, fun count => ?_⟩
    exact (runTogether_explains he (hfirst count) (hexplainedFirst count) fun r hr =>
      hsucceeds r ((runsTogether_take document s.vars tasks count _).subset hr)).2
  next halone =>
    simp only [if_neg halone]
    obtain ⟨htold, hjournals⟩ :=
      (runEach_accounts he hplans).explains hsucceeds (runsEach_explained he hplans hexplained)
    refine ⟨htold, hjournals, fun count => ?_⟩
    have hsucceedsFirst : ∀ r ∈ runsEach document s.vars (tasks.take count) e, r.Succeeds :=
      fun r hr => hsucceeds r ((runsEach_take document s.vars tasks count e).subset hr)
    exact ((runEach_accounts he (hfirst count)).explains hsucceedsFirst
      (runsEach_explained he (hfirst count) (hexplainedFirst count))).2

open Connection (Scripted)
open Execution (keyRow)

/-- The shop behind a database with given answers to its first statements, under given rules. -/
def shopAnswering (rules : Rules) (answers : List ResultSet) : Engine (Journaled Scripted) :=
  { shopEngine with
    rules
    catalog := (Catalog.empty "retail").add { shopSource with
      pool := { shopSource.pool with server := ⟨⟨answers.map .rows, [], [], []⟩, []⟩ } } }

theorem journalsAll_shopAnswering (rules : Rules) (answers : List ResultSet) :
    JournalsAll (fun _ => Scripted.driver .postgres) (shopAnswering rules answers) :=
  journalsAll_only rfl rfl

/-- A look at the users, and a new one with an order; in one transaction. -/
def annServed : Submission :=
  ⟨"query \x7b users \x7b name \x7d \x7d
    mutation \x7b insert_users(docs: \x7bname: \"ann\", orders: \x7btotal: 5\x7d\x7d) \x7b error \x7d \x7d",
    [], true⟩

def usersRead : String := "SELECT users.name AS \"L0~~0**name\" FROM users LIMIT 1000"

def annWritten : List String :=
  ["insert into users (name) values ($1) RETURNING *",
    "insert into orders (total, user_id) values ($1, $2) RETURNING *"]

/-- What forces nothing forces no key twice. -/
theorem forcesDistinctKeys_of_passThrough {compiler : Query.Compiler}
    (h : compiler.rules.overwrite = Rules.passThrough.overwrite) : ForcesDistinctKeys compiler := by
  intro vars _ table content forced _ hforced
  rw [plannerOf, h] at hforced
  obtain rfl : ([] : Object) = forced := Except.ok.inj hforced
  exact List.forall_mem_nil _

theorem sent_as_explained_annServed :
    let e := shopAnswering .passThrough [.empty, keyRow 1, keyRow 11]
    ∃ explanations, e.explain annServed = .ok explanations ∧
      explanations.map (·.statements) = [[usersRead], annWritten] ∧
      (∀ r ∈ fieldRuns e annServed, r.Succeeds) ∧
      dataTexts ((fieldRuns e annServed).flatMap FieldRun.sent) =
        explanations.flatMap (·.statements) ∧
      (fieldRuns e annServed).map FieldRun.told = explanations ∧
      dataTexts (journalOf (e.execute annServed).2 "shop") = dataTexts (journalOf e "shop") ++
        (explanations.filter (·.source == "shop")).flatMap (·.statements) ∧
      dataTexts (journalAfter e annServed 1 "shop") = dataTexts (journalOf e "shop") ++
        ((explanations.take 1).filter (·.source == "shop")).flatMap (·.statements) := by
  intro e
  have hexplained : (e.explain annServed).toOption.map (fun l => l.map (·.statements)) =
      some [[usersRead], annWritten] := by decide +kernel
  obtain ⟨explanations, hsome, hstatements⟩ := Option.map_eq_some_iff.mp hexplained
  have hexplain := eq_ok_of_toOption hsome
  have hforces :
      ∀ name source, e.source? name = some source → ForcesDistinctKeys (e.compilerFor source) :=
    fun _ _ _ => forcesDistinctKeys_of_passThrough rfl
  have hsucceeds : ∀ r ∈ fieldRuns e annServed, r.Succeeds := by decide +kernel
  obtain ⟨hsent, htold, hjournal, hafter⟩ :=
    sent_as_explained (journalsAll_shopAnswering _ _) hforces rfl hexplain hsucceeds
  exact ⟨explanations, hexplain, hstatements, hsucceeds, hsent, htold, hjournal "shop",
    hafter 1 "shop"⟩

/-- Rules under which no rows that are read may be shown. -/
def concealing : Rules :=
  { Rules.passThrough with transformOutput := fun _ _ _ => .error (.invalid "concealed") }

/-- All that is sent succeeds, but the rows of the first field are refused. In one transaction that
ends the request, and the writes that were explained are not sent. -/
theorem refused_rows_end_the_request :
    let e := shopAnswering concealing [.empty, keyRow 1, keyRow 11]
    ∃ explanations, e.explain annServed = .ok explanations ∧
      explanations.flatMap (·.statements) = usersRead :: annWritten ∧
      (∀ r ∈ fieldRuns e annServed, r.start.isOk = true ∧ r.ReturnsLinked ∧
        ∀ w ∈ r.sent, w.Succeeded e.queryTimeout) ∧
      dataTexts ((fieldRuns e annServed).flatMap FieldRun.sent) = [usersRead] ∧
      dataTexts (journalOf (e.execute annServed).2 "shop") = [usersRead] := by
  intro e
  have hexplained : (e.explain annServed).toOption.map (fun l => l.flatMap (·.statements)) =
      some (usersRead :: annWritten) := by decide +kernel
  obtain ⟨explanations, hsome, hstatements⟩ := Option.map_eq_some_iff.mp hexplained
  refine ⟨explanations, eq_ok_of_toOption hsome, hstatements, ?_⟩
  decide +kernel

end SqlGateway.Engine
