import SqlGateway.Proofs.Engine.Catalogs
import SqlGateway.Proofs.Engine.FieldRuns

/-!
# Requests as runs of their fields

The fields that a request runs, in their order, each with the session that it is run on. A field by
itself gets a session of its own. In one transaction the fields of a source are run on one session,
one after another, and the session is closed behind the last field of the request. Either way a
source is left alone, or its pool starts one session, or refuses one.
-/
namespace SqlGateway.Engine

open Connection (Pool Session)
open Request (Document Variables)

variable {σ : Type} {e : Engine σ} {document : Document} {supplied : Variables} {t : Task}
  {tasks : List Task} {timeout : Duration}

/-- A field as it is run by itself, if it can be prepared. -/
def runAlone (document : Document) (supplied : Variables) (t : Task) (e : Engine σ) :
    Option (FieldRun σ) :=
  match e.prepareTask document supplied t with
  | .error _ => none
  | .ok (source, prepared) =>
    some ⟨t, e.compilerFor source, prepared, false, (Session.start e.queryTimeout source.pool).1⟩

/-- A field as it is run on the session that is held on its source, if it can be prepared. -/
def runWithin (document : Document) (supplied : Variables) (t : Task) (s : Shared σ) :
    Option (FieldRun σ) :=
  match s.engine.prepareTask document supplied t with
  | .error _ => none
  | .ok (source, prepared) =>
    let on := s.engine.sessionOn s.sessions t.source source
    some ⟨t, on.2.compilerFor source, prepared, true, on.1⟩

def runsEach (document : Document) (supplied : Variables) : List Task → Engine σ → List (FieldRun σ)
  | [], _ => []
  | t :: rest, e =>
    (runAlone document supplied t e).toList ++
      runsEach document supplied rest (runTask document supplied t e).2

def runsTogether (document : Document) (supplied : Variables) :
    List Task → Shared σ → List (FieldRun σ)
  | [], _ => []
  | t :: rest, s =>
    (runWithin document supplied t s).toList ++
      match runHeld document supplied t s with
      | (.ok output, s') =>
        runsTogether document supplied rest { s' with data := withOutput t s'.data (.ok output) }
      | (.error _, _) => []

/-- The fields of a request as they are run. -/
def fieldRuns (e : Engine σ) (s : Submission) : List (FieldRun σ) :=
  match Document.read s.document with
  | .error _ => []
  | .ok d =>
    match schedule e.defaultSource d s.vars with
    | .error _ => []
    | .ok tasks =>
      if spansTransaction s d then runsTogether d s.vars tasks ⟨e, [], []⟩
      else runsEach d s.vars tasks e

theorem fieldRuns_eq {s : Submission} (hread : Document.read s.document = .ok document)
    (hscheduled : schedule e.defaultSource document s.vars = .ok tasks) :
    fieldRuns e s =
      if spansTransaction s document then runsTogether document s.vars tasks ⟨e, [], []⟩
      else runsEach document s.vars tasks e := by
  unfold fieldRuns
  split
  next error herror => cases herror.symm.trans hread
  next d hd =>
    obtain rfl : d = document := Except.ok.inj (hd.symm.trans hread)
    split
    next error herror => cases herror.symm.trans hscheduled
    next ts hts =>
      obtain rfl : ts = tasks := Except.ok.inj (hts.symm.trans hscheduled)
      rfl

/-- The runs of fields on a source. -/
def runsOn (name : String) (runs : List (FieldRun σ)) : List (FieldRun σ) :=
  runs.filter (·.task.source == name)

section RunsOn
variable {name : String} {r : FieldRun σ}

theorem runsOn_append (name : String) (runs more : List (FieldRun σ)) :
    runsOn name (runs ++ more) = runsOn name runs ++ runsOn name more := List.filter_append ..

theorem runsOn_self (r : FieldRun σ) : runsOn r.task.source [r] = [r] := by simp [runsOn]

theorem runsOn_of_ne (h : r.task.source ≠ name) : runsOn name [r] = [] := by simp [runsOn, h]

end RunsOn

/-- The response and the engine after one more field by itself. -/
def noted (document : Document) (supplied : Variables) (before : Response × Engine σ) (t : Task) :
    Response × Engine σ :=
  (noteOutcome t before.1 (runTask document supplied t before.2).1,
    (runTask document supplied t before.2).2)

theorem runEach_eq (document : Document) (supplied : Variables) (tasks : List Task) (e : Engine σ) :
    runEach document supplied tasks e = tasks.foldl (noted document supplied) (⟨[], []⟩, e) := rfl

theorem start_driver (timeout : Duration) (p : Pool σ) :
    (Session.start timeout p).2.driver = p.driver := by
  have hdriver := (Connection.Desk.acquire_idle p).1
  unfold Session.start
  rcases hacquire : p.acquire with ⟨lease, pool⟩
  rw [hacquire] at hdriver
  cases lease <;> exact hdriver

/-- Steps in a session of their own change nothing of a source but its pool, which keeps its
driver. -/
theorem inSession_source {α : Type} (timeout : Duration) (steps : Connection.SessionM σ α)
    (source : DataSource σ) : ∃ pool, pool.driver = source.pool.driver ∧
      (DataSource.inSession timeout steps source).2 = { source with pool } := by
  have hrun := inSession_run timeout steps source
  change DataSource.inSession timeout steps source = _ at hrun
  have hdriver := start_driver timeout source.pool
  rcases hstart : Session.start timeout source.pool with ⟨_ | session, pool⟩
  · rw [hstart] at hrun hdriver
    exact ⟨pool, hdriver, congrArg Prod.snd hrun⟩
  · rw [hstart] at hrun hdriver
    refine ⟨(steps session).2.finish pool, ?_, congrArg Prod.snd hrun⟩
    rw [(Connection.Desk.finish_idle _ _).1, hdriver]

/-- Fields that are run on a session of a pool, one after another, and the session behind them. -/
inductive Chained (timeout : Duration) (p : Pool σ) : List (FieldRun σ) → Session σ → Prop
  | start {s : Session σ} : (Session.start timeout p).1 = .ok s → Chained timeout p [] s
  | step {runs : List (FieldRun σ)} {s : Session σ} {r : FieldRun σ} :
      Chained timeout p runs s → r.start = .ok s → Chained timeout p (runs ++ [r]) (r.steps s).2

/-- A session that is closed: its transaction is committed or given up, or left to the pool. -/
inductive Closing : Session σ → Session σ → Prop
  | refl (s : Session σ) : Closing s s
  | commit {s s' : Session σ} : Closing s s' → Closing s (Session.commit 1 s').2
  | abandon {s s' : Session σ} : Closing s s' → Closing s (Session.abandon s').2

/-- What becomes of a source by fields that are run on it, and of the session that they are run
on. -/
inductive Visited (timeout : Duration) (source : DataSource σ) :
    List (FieldRun σ) → Option (Session σ) → DataSource σ → Prop
  | untouched : Visited timeout source [] none source
  | held {runs : List (FieldRun σ)} {s s' : Session σ} :
      Chained timeout source.pool runs s → Closing s s' →
      Visited timeout source runs (some s')
        { source with pool := s'.finish (Session.start timeout source.pool).2 }
  | refused {r : FieldRun σ} {error : Error} :
      (Session.start timeout source.pool).1 = .error error → r.start = .error error →
      Visited timeout source [r] none { source with pool := (Session.start timeout source.pool).2 }

theorem Visited.pool {source source' : DataSource σ} {runs : List (FieldRun σ)}
    {session : Option (Session σ)} (h : Visited timeout source runs session source') :
    ∃ pool, source' = { source with pool } := by
  cases h with
  | untouched => exact ⟨source.pool, rfl⟩
  | held _ _ => exact ⟨_, rfl⟩
  | refused _ _ => exact ⟨_, rfl⟩

theorem runAlone_of_refused {error : Error} (h : e.prepareTask document supplied t = .error error) :
    runAlone document supplied t e = none ∧ sessionAtEnd document supplied t e = none ∧
      runTask document supplied t e = (.error error, e) := by
  refine ⟨?_, ?_, ?_⟩
  · rw [runAlone, h]
  · rw [sessionAtEnd, h]
  · rw [runTask, h]

/-- A field that is prepared is run on a session of its source, unless the pool refuses one. -/
theorem runAlone_of_prepared {source : DataSource σ} {prepared : Prepared}
    (h : e.prepareTask document supplied t = .ok (source, prepared)) :
    ∃ r pool, runAlone document supplied t e = some r ∧ r.task = t ∧
      (runTask document supplied t e).2 = e.withPool source pool ∧
      Visited e.queryTimeout source [r] (sessionAtEnd document supplied t e)
        { source with pool } := by
  have htask := runTask_eq h
  let r : FieldRun σ :=
    ⟨t, e.compilerFor source, prepared, false, (Session.start e.queryTimeout source.pool).1⟩
  have hrun : runAlone document supplied t e = some r := by
    rw [runAlone, h]
  cases hstart : (Session.start e.queryTimeout source.pool).1 with
  | error error =>
      rw [← Prod.eta (Session.start e.queryTimeout source.pool), hstart] at htask
      obtain ⟨htask, hsession⟩ := Prod.mk.inj htask
      refine ⟨r, _, hrun, rfl, congrArg Prod.snd htask, ?_⟩
      rw [hsession]
      exact .refused hstart hstart
  | ok session =>
      rw [← Prod.eta (Session.start e.queryTimeout source.pool), hstart] at htask
      obtain ⟨htask, hsession⟩ := Prod.mk.inj htask
      refine ⟨r, _, hrun, rfl, congrArg Prod.snd htask, ?_⟩
      rw [hsession]
      have hchained : Chained e.queryTimeout source.pool ([] ++ [r]) (r.steps session).2 :=
        .step (.start hstart) hstart
      exact .held hchained (.refl _)

theorem restocked_runTask (he : e.Named) (document : Document) (supplied : Variables) (t : Task) :
    Restocked e (runTask document supplied t e).2 := by
  cases hprepare : e.prepareTask document supplied t with
  | error error =>
      rw [(runAlone_of_refused hprepare).2.2]
      exact .refl e
  | ok found =>
      obtain ⟨source, prepared⟩ := found
      obtain ⟨hsource, -⟩ := prepareTask_eq_ok.mp hprepare
      rw [← he t.source source hsource] at hsource
      obtain ⟨pool, hdriver, hpool⟩ :=
        inSession_source e.queryTimeout (runPrepared (e.compilerFor source) false prepared) source
      have hrun : (runTask document supplied t e).2 = e.withPool source pool := by
        rw [runTask, hprepare, withPool, ← hpool]
        rfl
      rw [hrun]
      exact (Restocked.refl e).withPool hsource hdriver

/-- A field by itself touches its own source only. -/
theorem runTask_visits (he : e.Named) (document : Document) (supplied : Variables) (t : Task)
    {name : String} {source : DataSource σ} (hsource : e.source? name = some source) :
    ∃ source', (runTask document supplied t e).2.source? name = some source' ∧
      Visited e.queryTimeout source (runsOn name (runAlone document supplied t e).toList)
        (if name = t.source then sessionAtEnd document supplied t e else none) source' := by
  cases hprepare : e.prepareTask document supplied t with
  | error error =>
      obtain ⟨hrun, hsession, htask⟩ := runAlone_of_refused hprepare
      rw [hrun, hsession, htask, ite_self]
      exact ⟨source, hsource, .untouched⟩
  | ok found =>
      obtain ⟨known, prepared⟩ := found
      have hknown := (prepareTask_eq_ok.mp hprepare).1
      have hnamed : known.name = t.source := he t.source known hknown
      obtain ⟨r, pool, hrun, rfl, htask, hvisited⟩ := runAlone_of_prepared hprepare
      rw [hrun, htask, Option.toList_some]
      by_cases hname : name = r.task.source
      · obtain rfl : known = source := Option.some.inj (hknown.symm.trans (hname ▸ hsource))
        subst hname
        rw [if_pos rfl, runsOn_self]
        exact ⟨_, hnamed ▸ source?_withPool_self e known pool, hvisited⟩
      · have hne : name ≠ known.name := fun h => hname (h.trans hnamed)
        rw [if_neg hname, runsOn_of_ne (Ne.symm hname)]
        exact ⟨source, (source?_withPool_of_ne e known pool hne).trans hsource, .untouched⟩

theorem runTask_settings (document : Document) (supplied : Variables) (t : Task) (e : Engine σ) :
    (runTask document supplied t e).2 =
      { e with catalog := (runTask document supplied t e).2.catalog } := by
  cases hprepare : e.prepareTask document supplied t with
  | error error => rw [(runAlone_of_refused hprepare).2.2]
  | ok found =>
      obtain ⟨_, _, _, _, htask, -⟩ := runAlone_of_prepared hprepare
      rw [htask]
      rfl

theorem of_runAlone {r : FieldRun σ} (h : runAlone document supplied t e = some r) :
    r.task = t ∧ r.spans = false ∧
      ∃ source, e.prepareTask document supplied t = .ok (source, r.prepared) ∧
        r.compiler = e.compilerFor source ∧
        r.start = (Session.start e.queryTimeout source.pool).1 := by
  unfold runAlone at h
  split at h
  · cases h
  next source prepared hprepare =>
    cases h
    exact ⟨rfl, rfl, source, hprepare, rfl, rfl⟩

theorem runTask_unknown (he : e.Named) {name : String} (hsource : e.source? name = none) :
    (runTask document supplied t e).2.source? name = none ∧
      runsOn name (runAlone document supplied t e).toList = [] := by
  cases hprepare : e.prepareTask document supplied t with
  | error error =>
      obtain ⟨hrun, -, htask⟩ := runAlone_of_refused hprepare
      rw [hrun, htask]
      exact ⟨hsource, rfl⟩
  | ok found =>
      obtain ⟨known, prepared⟩ := found
      have hknown := (prepareTask_eq_ok.mp hprepare).1
      have hnamed : known.name = t.source := he t.source known hknown
      obtain ⟨r, pool, hrun, rfl, htask, -⟩ := runAlone_of_prepared hprepare
      have hname : name ≠ r.task.source := by
        rintro rfl
        cases hsource.symm.trans hknown
      rw [hrun, htask, Option.toList_some, runsOn_of_ne (Ne.symm hname)]
      exact ⟨(source?_withPool_of_ne e known pool (hnamed ▸ hname)).trans hsource, rfl⟩

/-- What has become of a source while fields are run in one transaction. -/
inductive Touched (timeout : Duration) (source : DataSource σ) :
    List (FieldRun σ) → Option (Session σ) → DataSource σ → Prop
  | untouched : Touched timeout source [] none source
  | held {runs : List (FieldRun σ)} {s : Session σ} : Chained timeout source.pool runs s →
      Touched timeout source runs (some s)
        { source with pool := (Session.start timeout source.pool).2 }
  | refused {r : FieldRun σ} {error : Error} :
      (Session.start timeout source.pool).1 = .error error → r.start = .error error →
      Touched timeout source [r] none { source with pool := (Session.start timeout source.pool).2 }

theorem Touched.pool {source source' : DataSource σ} {runs : List (FieldRun σ)}
    {session : Option (Session σ)} (h : Touched timeout source runs session source') :
    ∃ pool, pool.driver = source.pool.driver ∧ source' = { source with pool } := by
  cases h with
  | untouched => exact ⟨source.pool, rfl, rfl⟩
  | held _ => exact ⟨_, start_driver .., rfl⟩
  | refused _ _ => exact ⟨_, start_driver .., rfl⟩

theorem Touched.of_some {source source' : DataSource σ} {runs : List (FieldRun σ)} {s : Session σ}
    (h : Touched timeout source runs (some s) source') : Chained timeout source.pool runs s ∧
      source' = { source with pool := (Session.start timeout source.pool).2 } := by
  cases h with
  | held hchained => exact ⟨hchained, rfl⟩

theorem Touched.of_none {source source' : DataSource σ} {runs : List (FieldRun σ)}
    (h : Touched timeout source runs none source') (hstarted : ∀ r ∈ runs, r.start.isOk = true) :
    runs = [] ∧ source' = source := by
  cases h with
  | untouched => exact ⟨rfl, rfl⟩
  | @refused r error _ hr =>
      have hok := hstarted r List.mem_cons_self
      rw [hr] at hok
      cases hok

theorem Touched.visited {source source' : DataSource σ} {runs : List (FieldRun σ)}
    (h : Touched timeout source runs none source') : Visited timeout source runs none source' := by
  cases h with
  | untouched => exact .untouched
  | refused hfirst hr => exact .refused hfirst hr

/-- A request in one transaction after given runs of its fields. -/
structure Underway (e : Engine σ) (s : Shared σ) (runs : List (FieldRun σ)) : Prop where
  settings : s.engine = { e with catalog := s.engine.catalog }
  ascending : s.sessions.Ascending
  unknown : ∀ name, e.source? name = none →
    s.engine.source? name = none ∧ s.sessions.get? name = none ∧ runsOn name runs = []
  known : ∀ name source, e.source? name = some source →
    ∃ source', s.engine.source? name = some source' ∧
      Touched e.queryTimeout source (runsOn name runs) (s.sessions.get? name) source'

section Underway
variable {s : Shared σ} {runs : List (FieldRun σ)}

theorem underway_start (e : Engine σ) (data : Object) : Underway e ⟨e, [], data⟩ [] where
  settings := rfl
  ascending := .nil
  unknown _ h := ⟨h, rfl, rfl⟩
  known _ source h := ⟨source, h, .untouched⟩

theorem Underway.restocked (h : Underway e s runs) : Restocked e s.engine where
  settings := h.settings
  unknown name hname := (h.unknown name hname).1
  known name source hsource := by
    obtain ⟨source', hsource', htouched⟩ := h.known name source hsource
    obtain ⟨pool, hdriver, rfl⟩ := htouched.pool
    exact ⟨pool, hdriver, hsource'⟩

theorem sessionOn_compilerFor (e : Engine σ) (sessions : Sessions σ) (name : String)
    (source : DataSource σ) :
    (e.sessionOn sessions name source).2.compilerFor source = e.compilerFor source := by
  unfold sessionOn
  split <;> rfl

theorem runHeld_of_prepared {source : DataSource σ} {prepared : Prepared}
    (h : s.engine.prepareTask document supplied t = .ok (source, prepared)) :
    ∃ r, runWithin document supplied t s = some r ∧ r.task = t ∧
      r.compiler = s.engine.compilerFor source ∧ r.prepared = prepared ∧
      r.start = (s.engine.sessionOn s.sessions t.source source).1 ∧
      runHeld document supplied t s = match r.start with
        | .error error => (.error error, { s with
            engine := (s.engine.sessionOn s.sessions t.source source).2 })
        | .ok session => ((r.steps session).1, { s with
            engine := (s.engine.sessionOn s.sessions t.source source).2
            sessions := s.sessions.insert t.source (r.steps session).2 }) := by
  refine ⟨_, by rw [runWithin, h], rfl, sessionOn_compilerFor .., rfl, rfl, ?_⟩
  rw [runHeld, h]
  dsimp only
  rcases s.engine.sessionOn s.sessions t.source source with ⟨started, engine⟩
  cases started <;> rfl

/-- A field changes nothing but its own source and the session that is held there. -/
theorem Underway.update (h : Underway e s runs) {s' : Shared σ} {r : FieldRun σ}
    {source source' : DataSource σ}
    (hsettings : s'.engine = { e with catalog := s'.engine.catalog })
    (hascending : s'.sessions.Ascending) (hothers : ∀ name, name ≠ r.task.source →
      s'.engine.source? name = s.engine.source? name ∧ s'.sessions.get? name = s.sessions.get? name)
    (hsource : e.source? r.task.source = some source)
    (hsource' : s'.engine.source? r.task.source = some source')
    (htouched : Touched e.queryTimeout source (runsOn r.task.source runs ++ [r])
      (s'.sessions.get? r.task.source) source') : Underway e s' (runs ++ [r]) where
  settings := hsettings
  ascending := hascending
  unknown name hname := by
    have hne : name ≠ r.task.source := by
      rintro rfl
      cases hname.symm.trans hsource
    obtain ⟨hengine, hsessions⟩ := hothers name hne
    obtain ⟨hunknown, hnone, hruns⟩ := h.unknown name hname
    refine ⟨hengine.trans hunknown, hsessions.trans hnone, ?_⟩
    rw [runsOn_append, hruns, runsOn_of_ne (Ne.symm hne), List.append_nil]
  known name known hknown := by
    by_cases hname : name = r.task.source
    · subst hname
      obtain rfl : known = source := Option.some.inj (hknown.symm.trans hsource)
      refine ⟨source', hsource', ?_⟩
      rw [runsOn_append, runsOn_self]
      exact htouched
    · obtain ⟨hengine, hsessions⟩ := hothers name hname
      rw [hengine, hsessions, runsOn_append, runsOn_of_ne (Ne.symm hname), List.append_nil]
      exact h.known name known hknown

theorem Underway.step (he : e.Named) (h : Underway e s runs)
    (hstarted : ∀ r ∈ runs, r.start.isOk = true) (document : Document) (supplied : Variables)
    (t : Task) :
    Underway e (runHeld document supplied t s).2
      (runs ++ (runWithin document supplied t s).toList) := by
  cases hprepare : s.engine.prepareTask document supplied t with
  | error error =>
      rw [runHeld_refused hprepare, runWithin, hprepare]
      simpa using h
  | ok found =>
      obtain ⟨now, prepared⟩ := found
      have hnow := (prepareTask_eq_ok.mp hprepare).1
      have hnamed : now.name = t.source := h.restocked.named he t.source now hnow
      obtain ⟨source, -, hsource, -, -⟩ := h.restocked.exists_source hnow
      obtain ⟨source', hsource', htouched⟩ := h.known t.source source hsource
      obtain rfl : now = source' := Option.some.inj (hnow.symm.trans hsource')
      obtain ⟨r, hrun, rfl, -, -, hstart, hheld⟩ := runHeld_of_prepared hprepare
      rw [hrun, hheld, Option.toList_some, hstart]
      unfold sessionOn at hstart ⊢
      cases hsession : s.sessions.get? r.task.source with
      | some session =>
          rw [hsession] at htouched hstart
          obtain ⟨hchained, rfl⟩ := htouched.of_some
          refine h.update h.settings (h.ascending.insert ..)
            (fun name hname => ⟨rfl, Dictionary.get?_insert_of_ne _ _ hname⟩) hsource hnow ?_
          rw [Dictionary.get?_insert_self]
          exact .held (hchained.step hstart)
      | none =>
          rw [hsession] at htouched hstart
          obtain ⟨hnone, rfl⟩ := htouched.of_none fun r hr => hstarted r (List.mem_of_mem_filter hr)
          have htimeout : s.engine.queryTimeout = e.queryTimeout := by rw [h.settings]
          dsimp only at hstart ⊢
          let engine := s.engine.withPool now (Session.start s.engine.queryTimeout now.pool).2
          have hsettings : engine = { e with catalog := engine.catalog } := by
            dsimp only [engine, Engine.withPool]
            rw [h.settings]
          have hothers :
              ∀ name, name ≠ r.task.source → engine.source? name = s.engine.source? name :=
            fun name hname => source?_withPool_of_ne _ _ _ (hnamed ▸ hname)
          have hself : engine.source? r.task.source =
              some { now with pool := (Session.start s.engine.queryTimeout now.pool).2 } :=
            hnamed ▸ source?_withPool_self s.engine now _
          cases hfirst : (Session.start s.engine.queryTimeout now.pool).1 with
          | error error =>
              rw [hfirst] at hstart
              refine h.update hsettings h.ascending (fun name hname => ⟨hothers name hname, rfl⟩)
                hsource hself ?_
              rw [hnone, hsession, htimeout]
              exact .refused (htimeout ▸ hfirst) hstart
          | ok session =>
              rw [hfirst] at hstart
              refine h.update hsettings (h.ascending.insert ..)
                (fun name hname => ⟨hothers name hname, Dictionary.get?_insert_of_ne _ _ hname⟩)
                  hsource hself ?_
              rw [hnone, Dictionary.get?_insert_self, htimeout]
              exact .held ((Chained.start (htimeout ▸ hfirst)).step hstart)

theorem Underway.withData (h : Underway e s runs) (data : Object) :
    Underway e { s with data } runs :=
  ⟨h.settings, h.ascending, h.unknown, h.known⟩

/-- A field that succeeds was run, on a session that had started. -/
theorem runWithin_of_ok {output : FieldOutput} {s' : Shared σ}
    (h : runHeld document supplied t s = (.ok output, s')) :
    ∃ r session, runWithin document supplied t s = some r ∧ r.task = t ∧ r.start = .ok session ∧
      (r.steps session).1 = .ok output := by
  cases hprepare : s.engine.prepareTask document supplied t with
  | error error =>
      rw [runHeld_refused hprepare] at h
      cases h
  | ok found =>
      obtain ⟨r, hrun, htask, -, -, -, hheld⟩ := runHeld_of_prepared hprepare
      rw [hheld] at h
      cases hstart : r.start with
      | error error =>
          rw [hstart] at h
          cases h
      | ok session =>
          rw [hstart] at h
          exact ⟨r, session, hrun, htask, hstart, congrArg Prod.fst h⟩

theorem of_runWithin {r : FieldRun σ} (h : runWithin document supplied t s = some r) :
    r.task = t ∧ r.spans = true ∧
      ∃ source, s.engine.prepareTask document supplied t = .ok (source, r.prepared) := by
  unfold runWithin at h
  split at h
  · cases h
  next source prepared hprepare =>
    cases h
    exact ⟨rfl, rfl, source, hprepare⟩

theorem Underway.runTogether (he : e.Named) (h : Underway e s runs)
    (hstarted : ∀ r ∈ runs, r.start.isOk = true) (document : Document) (supplied : Variables)
    (tasks : List Task) : Underway e (runTogether document supplied tasks s).1
      (runs ++ runsTogether document supplied tasks s) := by
  induction tasks generalizing s runs with
  | nil => simpa [Engine.runTogether, runsTogether] using h
  | cons t rest ih =>
      have hstep := h.step he hstarted document supplied t
      rw [Engine.runTogether, runsTogether]
      rcases hrun : runHeld document supplied t s with ⟨result, s'⟩
      rw [hrun] at hstep
      cases result with
      | error error => simpa using hstep.withData _
      | ok output =>
          obtain ⟨r, session, hwithin, -, hstart, -⟩ := runWithin_of_ok hrun
          rw [hwithin, Option.toList_some] at hstep ⊢
          rw [← List.append_assoc]
          refine ih (hstep.withData _) (List.forall_mem_append.mpr ⟨hstarted, ?_⟩)
          exact List.forall_mem_singleton.mpr (by rw [hstart]; rfl)

/-- The fields of a request in one transaction are run as they were prepared when it began. -/
theorem Underway.prepared (he : e.Named) (h : Underway e s runs)
    (hstarted : ∀ r ∈ runs, r.start.isOk = true) (document : Document) (supplied : Variables)
    (tasks : List Task) :
    ∀ r ∈ runsTogether document supplied tasks s, r.task ∈ tasks ∧ r.spans = true ∧
      ∃ source, e.prepareTask document supplied r.task = .ok (source, r.prepared) := by
  induction tasks generalizing s runs with
  | nil => exact List.forall_mem_nil _
  | cons t rest ih =>
      rw [runsTogether]
      refine List.forall_mem_append.mpr ⟨fun r hr => ?_, ?_⟩
      · obtain ⟨rfl, hspans, source, hprepare⟩ := of_runWithin (Option.mem_toList.mp hr)
        exact ⟨List.mem_cons_self, hspans, h.restocked.prepared hprepare⟩
      · have hstep := h.step he hstarted document supplied t
        rcases hrun : runHeld document supplied t s with ⟨result, s'⟩
        rw [hrun] at hstep
        cases result with
        | error error => exact List.forall_mem_nil _
        | ok output =>
            obtain ⟨r, session, hwithin, -, hstart, -⟩ := runWithin_of_ok hrun
            rw [hwithin, Option.toList_some] at hstep
            have hlater := ih (hstep.withData (withOutput t s'.data (.ok output)))
              (List.forall_mem_append.mpr
                ⟨hstarted, List.forall_mem_singleton.mpr (by rw [hstart]; rfl)⟩)
            exact fun r hr => (hlater r hr).imp_left (List.mem_cons_of_mem t)

theorem keys_rollbackAll (sessions : Sessions σ) : (rollbackAll sessions).keys = sessions.keys := by
  simp [rollbackAll, Dictionary.mapValues, Dictionary.keys]

theorem keys_commitAll (sessions : Sessions σ) : (commitAll sessions).1.keys = sessions.keys := by
  induction sessions with
  | nil => rfl
  | cons held rest ih =>
      rw [commitAll]
      rcases (Session.commit 1).run.run held.2 with ⟨result, session⟩
      cases result with
      | ok _ => simpa [Dictionary.keys] using ih
      | error _ => rfl

theorem keys_ended (s : Shared σ) (failure : Option (Task × Error)) :
    (ended s failure).keys = s.sessions.keys := by
  unfold ended
  cases failure with
  | some _ => exact keys_rollbackAll _
  | none =>
      dsimp only
      split
      · rw [keys_rollbackAll, keys_commitAll]
      · exact keys_commitAll _

theorem Closing.trans {a b c : Session σ} (h : Closing a b) (k : Closing b c) : Closing a c := by
  induction k with
  | refl => exact h
  | commit _ ih => exact ih.commit
  | abandon _ ih => exact ih.abandon

theorem rollbackAll_closes {sessions : Sessions σ} {name : String} {b : Session σ}
    (h : (rollbackAll sessions).get? name = some b) :
    ∃ a, sessions.get? name = some a ∧ Closing a b := by
  rw [rollbackAll, Dictionary.get?_mapValues] at h
  obtain ⟨a, ha, rfl⟩ := Option.map_eq_some_iff.mp h
  exact ⟨a, ha, .abandon (.refl a)⟩

theorem commitAll_closes {sessions : Sessions σ} {name : String} {b : Session σ}
    (h : (commitAll sessions).1.get? name = some b) :
    ∃ a, sessions.get? name = some a ∧ Closing a b := by
  induction sessions with
  | nil => cases h
  | cons held rest ih =>
      obtain ⟨first, a⟩ := held
      have hcommit : Closing a (Session.commit 1 a).2 := .commit (.refl a)
      have hrun : (Session.commit 1).run.run a = Session.commit 1 a := rfl
      rw [commitAll, hrun] at h
      rcases hresult : Session.commit 1 a with ⟨result, a'⟩
      rw [hresult] at h hcommit
      by_cases hname : first = name
      · have ha' : a' = b := by cases result <;> simpa [Dictionary.get?, hname] using h
        exact ⟨a, by simp [Dictionary.get?, hname], ha' ▸ hcommit⟩
      · cases result with
        | ok _ =>
            obtain ⟨a, ha, hclosing⟩ := ih (by simpa [Dictionary.get?, hname] using h)
            exact ⟨a, by simpa [Dictionary.get?, hname] using ha, hclosing⟩
        | error _ => exact ⟨b, by simpa [Dictionary.get?, hname] using h, .refl b⟩

theorem ended_closes {failure : Option (Task × Error)} {name : String} {b : Session σ}
    (h : (ended s failure).get? name = some b) :
    ∃ a, s.sessions.get? name = some a ∧ Closing a b := by
  unfold ended at h
  cases failure with
  | some _ => exact rollbackAll_closes h
  | none =>
      dsimp only at h
      split at h
      · obtain ⟨committed, hcommitted, hrolledBack⟩ := rollbackAll_closes h
        obtain ⟨a, ha, hclosing⟩ := commitAll_closes hcommitted
        exact ⟨a, ha, hclosing.trans hrolledBack⟩
      · exact commitAll_closes h

theorem ended_eq_none {failure : Option (Task × Error)} {name : String} :
    (ended s failure).get? name = none ↔ s.sessions.get? name = none := by
  rw [Dictionary.get?_eq_none_iff, Dictionary.get?_eq_none_iff, keys_ended]

/-- What becomes of a source by a request in one transaction. -/
theorem runShared_visits (he : e.Named) (document : Document) (supplied : Variables)
    (tasks : List Task) {name : String} {source : DataSource σ}
    (hsource : e.source? name = some source) :
    ∃ source', (runShared document supplied tasks e).2.source? name = some source' ∧
      Visited e.queryTimeout source (runsOn name (runsTogether document supplied tasks ⟨e, [], []⟩))
        ((sessionsAtEnd document supplied tasks e).get? name) source' := by
  have h := (underway_start e []).runTogether he (List.forall_mem_nil _) document supplied tasks
  obtain ⟨source', hsource', htouched⟩ := h.known name source hsource
  have hnodup : (sessionsAtEnd document supplied tasks e).keys.Nodup := by
    rw [sessionsAtEnd, keys_ended]
    exact h.ascending.nodup
  rw [runShared_engine, source?_withFinished (h.restocked.named he) hnodup, hsource']
  refine ⟨_, rfl, ?_⟩
  cases hend : (sessionsAtEnd document supplied tasks e).get? name with
  | none =>
      rw [ended_eq_none.mp hend] at htouched
      exact htouched.visited
  | some b =>
      obtain ⟨a, ha, hclosing⟩ := ended_closes hend
      rw [ha] at htouched
      obtain ⟨hchained, rfl⟩ := htouched.of_some
      exact .held hchained hclosing

theorem runShared_settings (he : e.Named) (document : Document) (supplied : Variables)
    (tasks : List Task) : (runShared document supplied tasks e).2 =
      { e with catalog := (runShared document supplied tasks e).2.catalog } := by
  have h := (underway_start e []).runTogether he (List.forall_mem_nil _) document supplied tasks
  rw [runShared_engine, afterFields, withFinished, h.settings]

theorem runShared_unknown (he : e.Named) (document : Document) (supplied : Variables)
    (tasks : List Task) {name : String} (hsource : e.source? name = none) :
    (runShared document supplied tasks e).2.source? name = none ∧
      runsOn name (runsTogether document supplied tasks ⟨e, [], []⟩) = [] := by
  have h := (underway_start e []).runTogether he (List.forall_mem_nil _) document supplied tasks
  obtain ⟨hunknown, -, hruns⟩ := h.unknown name hsource
  have hnodup : (sessionsAtEnd document supplied tasks e).keys.Nodup := by
    rw [sessionsAtEnd, keys_ended]
    exact h.ascending.nodup
  rw [runShared_engine, source?_withFinished (h.restocked.named he) hnodup, hunknown]
  exact ⟨rfl, hruns⟩

end Underway

end SqlGateway.Engine
