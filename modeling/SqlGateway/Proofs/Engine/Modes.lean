import SqlGateway.Proofs.Engine.Explanations
import SqlGateway.Proofs.Execution.Responders

/-!
# The two modes of a request

Run field by field, every field has a session of its own; in one transaction the fields of a source
share one. On databases that answer by what they were asked and accept everything this makes no
difference: both loops go through the fields side by side, with the same history on every source and
the same data in the response.
-/
namespace SqlGateway.Engine

open Connection (Question Responder Session SessionM)
open Connection.Session (Gives On Rests gives_pure)
open Request (Document Variables)

variable {σ : Type} {document : Document} {supplied : Variables}

section Field
variable {R : Responder σ} {timeout acquireTimeout : Duration} {h h' : List Question}
  {s : Session σ} (hR : R.Responds timeout acquireTimeout)
include hR

theorem gives_runInTransaction {compiler : Query.Compiler} {prepared : Prepared}
    {output : FieldOutput}
    (hrun : Gives R timeout (runPrepared compiler true prepared) h output h') :
    Gives R timeout (runInTransaction compiler prepared) h output h' := by
  intro s hs
  rw [FieldRun.runInTransaction_eq]
  cases hopen : s.inTransaction with
  | true => exact hrun s hs
  | false =>
      obtain ⟨s', hbegin, hs'⟩ := hs.begin hR hopen
      rw [Bool.not_false, if_pos rfl, Session.bind_run, hbegin]
      exact hrun s' hs'

theorem FieldRun.on_opened (r : FieldRun σ) (hs : On R timeout h s) :
    On R timeout h (r.opened s) := by
  unfold FieldRun.opened
  split
  next hopens =>
    have hclosed : s.inTransaction = false := by simpa using (Bool.and_eq_true_iff.mp hopens).2
    obtain ⟨s', hbegin, hs'⟩ := hs.begin hR hclosed
    rw [hbegin]
    exact hs'
  · exact hs

/-- What a field comes to on one session it comes to on every session with the same history, by
itself and in the transaction of its request. -/
theorem FieldRun.gives (r : FieldRun σ) (htree : r.PlansTree) (hstart : r.start = .ok s)
    (hs : On R timeout h s) (hlinked : r.ReturnsLinked) (haccepts : r.AcceptsRows) :
    ∃ output h', output.failures = [] ∧ ∀ spans,
      Gives R timeout (runPrepared r.compiler spans r.prepared) h output h' := by
  have hopened := r.on_opened hR hs
  cases hprepared : r.prepared with
  | query q =>
      obtain ⟨s', hquery, -⟩ := Session.gives_query hR q.sql [] 1 h _ hopened
      obtain ⟨rows, hrows⟩ := Execution.gives_runQuery hR (h := h) (q := q) fun hflat =>
        haccepts s q _ hstart hprepared (by rw [hquery]) hflat
      exact ⟨.rows rows, _, rfl, fun spans => hrows.bind (gives_pure _)⟩
  | raw sql parameters isMutation =>
      obtain ⟨rows, hrows⟩ := Execution.gives_runRaw hR (h := h) sql parameters
      refine ⟨if isMutation then .written rows [] else .rows rows, _, ?_,
        fun spans => hrows.bind (gives_pure _)⟩
      cases isMutation <;> rfl
  | write plan own =>
      have hreturns := hlinked s plan own hstart hprepared
      have hdialect : s.dialect = R.driver.dialect := by rw [Session.dialect, hs.driver]
      rw [hdialect, hs.timeout] at hreturns
      obtain ⟨answers, h', hplan⟩ :=
        Execution.gives_runPlan hR (htree plan own hprepared) hopened hreturns
      refine ⟨.written (Execution.outcome plan answers []).rows [], h', rfl, fun spans t ht => ?_⟩
      have hwritten : Gives R timeout (Execution.runPlan
          ⟨spans && !t.inTransaction, false, own, spans⟩ plan >>= fun outcome =>
          pure (FieldOutput.written outcome.rows outcome.failures)) h
          (.written (Execution.outcome plan answers []).rows []) h' := (hplan _).bind (gives_pure _)
      rw [FieldRun.runPrepared_write]
      exact hwritten t ht

end Field

/-- A field that succeeds without failures leaves the same mark on the data in both modes. -/
theorem noteOutcome_of_ok (t : Task) (data : Object) {output : FieldOutput}
    (h : output.failures = []) :
    noteOutcome t ⟨data, []⟩ (.ok output) = ⟨withOutput t data (.ok output), []⟩ := by
  cases output with
  | rows rows => rfl
  | written rows failures =>
      obtain rfl : failures = [] := h
      rfl

/-- Every source of the engine has a connection to give, to a database that answers by what it was
asked. -/
structure Answered (R : String → Responder σ) (e : Engine σ) : Prop where
  named : e.Named
  driver : ∀ name source, e.source? name = some source → source.pool.driver = (R name).driver
  available : ∀ name source, e.source? name = some source → 0 < source.pool.available
  responds : ∀ name source, e.source? name = some source →
    (R name).Responds e.queryTimeout source.pool.limits.acquireTimeout

/-- The history of a source, seen from its pool while no session is held there, else from the
session. -/
def Awaits (R : Responder σ) (timeout acquireTimeout : Duration) (h : List Question)
    (p : Connection.Pool σ) : Option (Session σ) → Prop
  | none => Rests R acquireTimeout h p
  | some session => On R timeout h session

/-- An engine that runs the fields of a request by themselves, beside one that runs them in one
transaction: every source has come to the same history. -/
structure Abreast (R : String → Responder σ) (e e₁ : Engine σ) (s : Shared σ) : Prop where
  alone : Restocked e e₁
  together : Restocked e s.engine
  histories : ∀ name source source₁ source₂, e.source? name = some source →
    e₁.source? name = some source₁ → s.engine.source? name = some source₂ →
    ∃ h, Rests (R name) source.pool.limits.acquireTimeout h source₁.pool ∧
      Awaits (R name) e.queryTimeout source.pool.limits.acquireTimeout h source₂.pool
        (s.sessions.get? name)
  held : ∀ entry ∈ s.sessions, ∃ source h, e.source? entry.1 = some source ∧
    On (R entry.1) e.queryTimeout h entry.2

section Abreast
variable {R : String → Responder σ} {e e₁ : Engine σ} {s : Shared σ} {t : Task} {tasks : List Task}

theorem abreast_start (he : Answered R e) (data : Object) : Abreast R e e ⟨e, [], data⟩ where
  alone := .refl e
  together := .refl e
  histories name source source₁ source₂ hsource hsource₁ hsource₂ := by
    obtain rfl := Option.some.inj (hsource.symm.trans hsource₁)
    obtain rfl := Option.some.inj (hsource.symm.trans hsource₂)
    have hrests : Rests (R name) source.pool.limits.acquireTimeout _ source.pool :=
      ⟨he.driver name source hsource, he.available name source hsource, rfl, rfl⟩
    exact ⟨_, hrests, hrests⟩
  held := List.forall_mem_nil _

theorem Abreast.withData (h : Abreast R e e₁ s) (data : Object) : Abreast R e e₁ { s with data } :=
  ⟨h.alone, h.together, h.histories, h.held⟩

/-- A field by itself, on a pool that has a session to give. -/
theorem runTask_of_gives {R : Responder σ} {acquireTimeout : Duration} {h h' : List Question}
    {source : DataSource σ} {prepared : Prepared} {output : FieldOutput}
    (hR : R.Responds e.queryTimeout acquireTimeout)
    (hprepare : e.prepareTask document supplied t = .ok (source, prepared))
    (hrests : Rests R acquireTimeout h source.pool)
    (hgives : Gives R e.queryTimeout (runPrepared (e.compilerFor source) false prepared)
      h output h') :
    ∃ pool, runTask document supplied t e = (.ok output, e.withPool source pool) ∧
      Rests R acquireTimeout h' pool := by
  obtain ⟨session, hstart, hon, hdriver, hlimit⟩ := hrests.start hR
  obtain ⟨session', hrun, hon'⟩ := hgives session hon
  have htask := runTask_eq hprepare
  rw [← Prod.eta (Session.start e.queryTimeout source.pool), hstart] at htask
  dsimp only at htask
  rw [hrun] at htask
  exact ⟨_, congrArg Prod.fst htask, hon'.finish hdriver hlimit⟩

/-- A field in the transaction of its request has a session, with the history of its source. -/
theorem on_sessionOn {R : Responder σ} {acquireTimeout : Duration} {h : List Question}
    {name : String} {source : DataSource σ} (sessions : Sessions σ)
    (hR : R.Responds e.queryTimeout acquireTimeout)
    (hsource : e.source? name = some source) (hnamed : source.name = name)
    (hawaits : Awaits R e.queryTimeout acquireTimeout h source.pool (sessions.get? name)) :
    ∃ session e', e.sessionOn sessions name source = (.ok session, e') ∧
      On R e.queryTimeout h session ∧ Restocked e e' ∧
      ∀ other, other ≠ name → e'.source? other = e.source? other := by
  subst hnamed
  unfold sessionOn
  cases hsession : sessions.get? source.name with
  | some session =>
      rw [hsession] at hawaits
      exact ⟨session, e, rfl, hawaits, .refl e, fun _ _ => rfl⟩
  | none =>
      rw [hsession] at hawaits
      obtain ⟨session, hstart, hon, -, -⟩ := hawaits.start hR
      have hdriver := start_driver e.queryTimeout source.pool
      rcases hresult : Session.start e.queryTimeout source.pool with ⟨result, pool⟩
      rw [hresult] at hstart hdriver
      obtain rfl : result = .ok session := hstart
      exact ⟨session, e.withPool source pool, rfl, hon, (Restocked.refl e).withPool hsource hdriver,
        fun name hname => source?_withPool_of_ne e source pool hname⟩

/-- A source that a field was run on has come to another history, on its pool and on the session
that is held there. -/
theorem Abreast.update (he : Answered R e) (h : Abreast R e e₁ s) {e₂ : Engine σ} {name : String}
    {source source₁ : DataSource σ} {pool : Connection.Pool σ} {session : Session σ}
    {after : List Question}
    (hsource : e.source? name = some source) (hsource₁ : e₁.source? name = some source₁)
    (hrests : Rests (R name) source.pool.limits.acquireTimeout after pool)
    (hrestocked : Restocked s.engine e₂)
    (hothers : ∀ other, other ≠ name → e₂.source? other = s.engine.source? other)
    (hon : On (R name) e.queryTimeout after session) :
    Abreast R e (e₁.withPool source₁ pool)
      { s with engine := e₂, sessions := s.sessions.insert name session } := by
  have hnamed : source₁.name = name := h.alone.named he.named name source₁ hsource₁
  have hdriver : pool.driver = source₁.pool.driver := by
    obtain ⟨before, was, hbefore, rfl, hwas⟩ := h.alone.exists_source hsource₁
    obtain rfl := Option.some.inj (hsource.symm.trans hbefore)
    rw [hrests.driver, ← he.driver name source hsource]
    exact hwas.symm
  refine ⟨h.alone.withPool (hnamed ▸ hsource₁) hdriver, h.together.trans hrestocked, ?_, ?_⟩
  · intro other known known₁ known₂ hknown hknown₁ hknown₂
    by_cases hother : other = name
    · subst hother
      obtain rfl := Option.some.inj (hsource.symm.trans hknown)
      obtain rfl :=
        Option.some.inj ((hnamed ▸ source?_withPool_self e₁ source₁ pool).symm.trans hknown₁)
      refine ⟨after, hrests, ?_⟩
      dsimp only
      rw [Dictionary.get?_insert_self]
      exact hon
    · rw [source?_withPool_of_ne _ _ _ (hnamed ▸ hother)] at hknown₁
      rw [hothers other hother] at hknown₂
      dsimp only
      rw [Dictionary.get?_insert_of_ne _ _ hother]
      exact h.histories other known known₁ known₂ hknown hknown₁ hknown₂
  · intro entry hentry
    rcases Dictionary.mem_insert hentry with rfl | hentry
    · exact ⟨source, after, hsource, hon⟩
    · exact h.held entry hentry

/-- A field that both engines can prepare and that succeeds in the transaction of its request
succeeds by itself, with the same output, and leaves its source with the same history. -/
theorem Abreast.step (he : Answered R e) (h : Abreast R e e₁ s) {source : DataSource σ}
    {prepared : Prepared} (hprepare : e.prepareTask document supplied t = .ok (source, prepared))
    (htree : ∀ plan own, prepared = .write plan own → plan.IsTree)
    (hrun : ∀ r ∈ (runWithin document supplied t s).toList, r.ReturnsLinked ∧ r.AcceptsRows) :
    ∃ output, output.failures = [] ∧ (runTask document supplied t e₁).1 = .ok output ∧
      (runHeld document supplied t s).1 = .ok output ∧
      (runHeld document supplied t s).2.data = s.data ∧
      Abreast R e (runTask document supplied t e₁).2 (runHeld document supplied t s).2 := by
  have hsource := (prepareTask_eq_ok.mp hprepare).1
  have hnamed : source.name = t.source := he.named t.source source hsource
  -- The two engines differ in their pools only, so the field is prepared alike.
  obtain ⟨pool₁, hdriver₁, hsource₁, hprepare₁⟩ := h.alone.prepareTask hprepare
  obtain ⟨pool₂, hdriver₂, hsource₂, hprepare₂⟩ := h.together.prepareTask hprepare
  have htimeout₁ : e₁.queryTimeout = e.queryTimeout := by rw [h.alone.settings]
  have htimeout₂ : s.engine.queryTimeout = e.queryTimeout := by rw [h.together.settings]
  have hR := he.responds t.source source hsource
  obtain ⟨history, hrests, hawaits⟩ := h.histories t.source source _ _ hsource hsource₁ hsource₂
  obtain ⟨r, hwithin, htask, hcompiler, rfl, hstart, hheld⟩ := runHeld_of_prepared hprepare₂
  obtain ⟨-, hspans, -⟩ := of_runWithin hwithin
  obtain ⟨hlinked, haccepts⟩ := hrun r (by rw [hwithin]; exact List.mem_cons_self)
  obtain ⟨session, engine, hsession, hon, hrestocked, hothers⟩ :=
    on_sessionOn s.sessions (htimeout₂ ▸ hR) hsource₂ hnamed (by rw [htimeout₂]; exact hawaits)
  rw [hsession] at hstart hheld
  rw [htimeout₂] at hon
  -- What the run in the transaction comes to holds of every session with this history.
  obtain ⟨output, after, hfailures, hgives⟩ := r.gives hR htree hstart hon hlinked haccepts
  obtain ⟨session', hsteps, hon'⟩ := gives_runInTransaction hR (hgives true) session hon
  have hcompilers : e₁.compilerFor { source with pool := pool₁ } = r.compiler := by
    rw [hcompiler, h.together.compilerFor hdriver₂, h.alone.compilerFor hdriver₁]
  obtain ⟨pool, hdone, hrests'⟩ := runTask_of_gives (htimeout₁ ▸ hR) hprepare₁ hrests
    (by rw [hcompilers, htimeout₁]; exact hgives false)
  rw [hstart] at hheld
  dsimp only at hheld
  rw [FieldRun.steps, hspans, if_pos rfl, hsteps] at hheld
  refine ⟨output, hfailures, by rw [hdone], by rw [hheld], by rw [hheld], ?_⟩
  rw [hdone, hheld]
  exact h.update he hsource hsource₁ hrests' hrestocked hothers hon'

theorem Abreast.run (he : Answered R e) (h : Abreast R e e₁ s)
    (hprepared : ∀ t ∈ tasks, ∃ found, e.prepareTask document supplied t = .ok found)
    (hplans : PlansTrees e document supplied tasks)
    (hruns : ∀ r ∈ runsTogether document supplied tasks s, r.ReturnsLinked ∧ r.AcceptsRows) :
    ∃ s', runTogether document supplied tasks s = (s', none) ∧
      (tasks.foldl (noted document supplied) (⟨s.data, []⟩, e₁)).1 = ⟨s'.data, []⟩ ∧
      ∃ e₁', Abreast R e e₁' s' := by
  induction tasks generalizing e₁ s with
  | nil => exact ⟨s, rfl, rfl, e₁, h⟩
  | cons t rest ih =>
      obtain ⟨⟨⟨source, prepared⟩, hprepare⟩, hrest⟩ := List.forall_mem_cons.mp hprepared
      obtain ⟨ht, hplans⟩ := List.forall_mem_cons.mp hplans
      rw [runsTogether] at hruns
      obtain ⟨hnow, hlater⟩ := List.forall_mem_append.mp hruns
      obtain ⟨output, hfailures, halone, hheld, hdata, hnext⟩ :=
        h.step he hprepare (fun plan own hplan => ht source plan own (hplan ▸ hprepare)) hnow
      rw [List.foldl_cons, noted, halone, noteOutcome_of_ok t s.data hfailures]
      rcases hstep : runHeld document supplied t s with ⟨result, s'⟩
      rw [hstep] at hheld hdata hnext hlater
      obtain rfl : result = .ok output := hheld
      rw [runTogether, hstep]
      dsimp only at hdata hlater hnext ⊢
      rw [← hdata]
      exact ih (hnext.withData _) hrest hplans hlater

/-- Where every session is on a database that accepts everything, all of them commit. -/
theorem commitAll_of_on {sessions : Sessions σ} (he : Answered R e)
    (hheld : ∀ entry ∈ sessions, ∃ source h, e.source? entry.1 = some source ∧
      On (R entry.1) e.queryTimeout h entry.2) : (commitAll sessions).2 = none := by
  induction sessions with
  | nil => rfl
  | cons first rest ih =>
      obtain ⟨⟨source, h, hsource, hon⟩, hrest⟩ := List.forall_mem_cons.mp hheld
      obtain ⟨session, hcommit, -⟩ :=
        Session.gives_commit (he.responds first.1 source hsource) 1 h first.2 hon
      have hrun : (Session.commit 1).run.run first.2 = (.ok (), session) := hcommit
      rw [commitAll, hrun]
      exact ih hrest

/-- Fields that succeed in one transaction succeed by themselves, and the response is the same. -/
theorem runEach_eq_runShared (he : Answered R e)
    (hprepared : ∀ t ∈ tasks, ∃ found, e.prepareTask document supplied t = .ok found)
    (hplans : PlansTrees e document supplied tasks)
    (hruns : ∀ r ∈ runsTogether document supplied tasks ⟨e, [], []⟩, r.ReturnsLinked ∧
      r.AcceptsRows) :
    (runEach document supplied tasks e).1 = (runShared document supplied tasks e).1 ∧
      (runShared document supplied tasks e).1.isOk = true := by
  obtain ⟨s, htogether, heach, _, habreast⟩ :=
    (abreast_start he []).run he hprepared hplans hruns
  have hcommitted := commitAll_of_on he habreast.held
  have hshared : (runShared document supplied tasks e).1 = ⟨s.data, []⟩ := by
    rw [runShared, htogether]
    dsimp only
    rcases hcommit : commitAll s.sessions with ⟨sessions, failure⟩
    obtain rfl : failure = none := by
      rw [hcommit] at hcommitted
      exact hcommitted
    rfl
  rw [hshared, runEach_eq]
  exact ⟨heach, rfl⟩

end Abreast

/-- On databases that answer by what they were asked and accept everything, the two modes of a
request come to the same response, and it is in order. Every field has to be one that can be
prepared; run in one transaction, its writes return the rows that others are linked to, and the rows
that it reads are accepted. -/
theorem modes_agree {R : String → Responder σ} {e : Engine σ} (he : Answered R e)
    (hforces : ∀ name source, e.source? name = some source →
      ForcesDistinctKeys (e.compilerFor source))
    {s : Submission} (hvars : (Json.object s.vars).hasDistinctKeys = true)
    (hexplain : (e.explain s).isOk = true)
    (hruns : ∀ r ∈ fieldRuns e { s with singleTransaction := true }, r.ReturnsLinked ∧
      r.AcceptsRows) :
    (e.execute { s with singleTransaction := false }).1 =
        (e.execute { s with singleTransaction := true }).1 ∧
      (e.execute { s with singleTransaction := true }).1.isOk = true := by
  obtain ⟨explanations, hexplain⟩ := exists_eq_ok hexplain
  obtain ⟨document, tasks, hread, hscheduled, hexplained⟩ := explain_eq_ok hexplain
  have hplans := plansTrees_of_schedule hforces hvars hscheduled
  have hprepared : ∀ t ∈ tasks, ∃ found, e.prepareTask document s.vars t = .ok found := by
    intro t ht
    obtain ⟨i, hi, rfl⟩ := List.mem_iff_getElem.mp ht
    obtain ⟨hlength, hall⟩ := List.forall₂_iff_get.mp hexplained
    obtain ⟨source, prepared, hprepare, -⟩ := hall i hi (hlength ▸ hi)
    exact ⟨_, hprepare⟩
  have hspans : spansTransaction { s with singleTransaction := true } document = true := rfl
  rw [fieldRuns_eq (s := { s with singleTransaction := true }) hread hscheduled,
    if_pos hspans] at hruns
  rw [execute_eq (s := { s with singleTransaction := false }) hread hscheduled,
    execute_eq (s := { s with singleTransaction := true }) hread hscheduled, if_pos hspans]
  obtain ⟨hsame, hok⟩ := runEach_eq_runShared he hprepared hplans hruns
  refine ⟨?_, hok⟩
  split
  · rfl
  · exact hsame

/-- Nothing for the first data statement, and a key for every other. -/
def counting (asked : List Question) (_ : Question) : ResultSet :=
  if asked.isEmpty then .empty else Execution.keyRow asked.length

/-- The shop behind a database that answers by what it was asked, under given rules. -/
def shopRecalling (rules : Rules) : Engine (List Question) where
  catalog := (Catalog.empty "retail").add {
    name := "shop"
    tables := []
    activateAll := true
    pool := .new (Responder.recalling .postgres counting).driver
      ⟨1, 1, .ofSeconds 60, .ofSeconds 5⟩ []
    schema := Shop.registry
    connected := true }
  rules
  defaultSource := some "shop"
  defaultLimit := 1000
  queryTimeout := .ofSeconds 30

theorem answered_shopRecalling (rules : Rules) :
    Answered (fun _ => .recalling .postgres counting) (shopRecalling rules) := by
  constructor
  · intro name source hsource
    obtain ⟨rfl, rfl⟩ := of_source?_only rfl hsource
    rfl
  · intro name source hsource
    obtain ⟨rfl, rfl⟩ := of_source?_only rfl hsource
    rfl
  · intro name source hsource
    obtain ⟨rfl, rfl⟩ := of_source?_only rfl hsource
    exact Nat.one_pos
  · exact fun _ _ _ => Responder.recalling_responds ..

theorem modes_agree_annServed :
    let e := shopRecalling .passThrough
    (e.explain annServed).isOk = true ∧
    (∀ r ∈ fieldRuns e annServed, r.ReturnsLinked ∧ r.AcceptsRows) ∧
      (e.execute { annServed with singleTransaction := false }).1 = (e.execute annServed).1 ∧
      (e.execute annServed).1.isOk = true ∧ (e.execute annServed).1.data.keys =
        ["users", "insert_users"] := by
  intro e
  obtain ⟨hexplain, hruns, hkeys⟩ : (e.explain annServed).isOk = true ∧
      (∀ r ∈ fieldRuns e annServed, r.ReturnsLinked ∧ r.AcceptsRows) ∧
      (e.execute annServed).1.data.keys = ["users", "insert_users"] := by decide +kernel
  obtain ⟨hsame, hok⟩ := modes_agree (s := annServed) (answered_shopRecalling _)
    (fun _ _ _ => forcesDistinctKeys_of_passThrough rfl) rfl hexplain hruns
  exact ⟨hexplain, hruns, hsame, hok, hkeys⟩

/-- Every statement succeeds, but the rows of the first field are refused: neither response is in
order, and only by itself does the second field answer. -/
theorem refused_rows_part_the_modes :
    let e := shopRecalling concealing
    Answered (fun _ => .recalling .postgres counting) e ∧ (e.explain annServed).isOk = true ∧
      (∀ r ∈ fieldRuns e annServed, r.ReturnsLinked) ∧
      (e.execute { annServed with singleTransaction := false }).1.isOk = false ∧
      (e.execute annServed).1.isOk = false ∧
      (e.execute { annServed with singleTransaction := false }).1.data.keys = ["insert_users"] ∧
      (e.execute annServed).1.data = [] := by
  refine ⟨answered_shopRecalling _, ?_⟩
  decide +kernel

end SqlGateway.Engine
