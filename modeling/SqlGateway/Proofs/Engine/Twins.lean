import SqlGateway.Proofs.Engine.Outcomes
import SqlGateway.Proofs.Engine.Visits

/-!
# Engines with more connections to give

Two engines are twins if they differ only in how many connections their pools have to give, and
wherever a request holds no session both have at least one. A field, or a refresh of one source,
takes twins to twins with the same result. So twins respond alike to whole requests: one connection
of each pool is as good as many.
-/
namespace SqlGateway

namespace Catalog

variable {σ : Type}

/-- The catalog after one more source has been read, unless one has failed before it. -/
def refreshNext (timeout : Duration) (before : Except Error Unit × Catalog σ) (name : String) :
    Except Error Unit × Catalog σ :=
  match before.1, before.2.sources.get? name with
  | .ok _, some s =>
      ((DataSource.refresh timeout s).1, before.2.add (DataSource.refresh timeout s).2)
  | result, _ => (result, before.2)

theorem refreshAll_eq (timeout : Duration) (c : Catalog σ) :
    c.refreshAll timeout = c.sources.keys.foldl (refreshNext timeout) (.ok (), c) := by
  rw [refreshAll]
  congr 1

theorem refreshNext_of_error (timeout : Duration) (names : List String) (error : Error)
    (c : Catalog σ) : names.foldl (refreshNext timeout) (.error error, c) = (.error error, c) := by
  induction names with
  | nil => rfl
  | cons name rest ih => exact ih

end Catalog

namespace Engine

open Connection (Pool Session)
open Request (Document Variables)

variable {σ : Type} {e e' : Engine σ} {held : Sessions σ} {document : Document}
  {supplied : Variables} {t : Task} {tasks : List Task}

/-- Engines that differ only in how many connections their pools have to give, and in the records of
the pools, while sessions are held. The pool of any other source has a connection to give. -/
structure Twins (held : Sessions σ) (e e' : Engine σ) : Prop where
  named : e.Named
  settings : e' = { e with catalog := e'.catalog }
  unknown : ∀ name, e.source? name = none → e'.source? name = none
  known : ∀ name source, e.source? name = some source →
    ∃ pool, source.pool.Like pool ∧ e'.source? name = some { source with pool } ∧
      (held.get? name = none → source.pool.available ≠ 0 ∧ pool.available ≠ 0)

theorem like_driver {p p' : Pool σ} (h : p.Like p') : p'.driver = p.driver := by
  obtain ⟨_, _, rfl⟩ := h
  rfl

theorem Twins.restocked (h : Twins held e e') : Restocked e e' where
  settings := h.settings
  unknown := h.unknown
  known name source hsource := by
    obtain ⟨pool, hlike, hknown, -⟩ := h.known name source hsource
    exact ⟨pool, like_driver hlike, hknown⟩

/-- Twins of which a field, or a refresh, has changed one source. -/
theorem Twins.withSource (h : Twins held e e') {later : Sessions σ} (source : DataSource σ)
    {pool : Pool σ} (hlike : source.pool.Like pool)
    (hheld : ∀ name, name ≠ source.name → later.get? name = none → held.get? name = none)
    (hfree : later.get? source.name = none → source.pool.available ≠ 0 ∧ pool.available ≠ 0) :
    Twins later (e.withSource source) (e'.withSource { source with pool }) where
  named := h.named.withSource source
  settings := by
    rw [Engine.withSource, Engine.withSource, h.settings]
  unknown name hname := by
    have hne : name ≠ source.name := by
      rintro rfl
      cases (source?_withSource_self e source).symm.trans hname
    rw [source?_withSource_of_ne _ _ hne] at hname
    rw [source?_withSource_of_ne e' { source with pool } hne]
    exact h.unknown name hname
  known name known hknown := by
    by_cases hname : name = source.name
    · subst hname
      obtain rfl := Option.some.inj ((source?_withSource_self e source).symm.trans hknown)
      exact ⟨pool, hlike, source?_withSource_self e' { source with pool }, hfree⟩
    · rw [source?_withSource_of_ne _ _ hname] at hknown
      rw [source?_withSource_of_ne e' { source with pool } hname]
      obtain ⟨other, hother, hknown, hsome⟩ := h.known name known hknown
      exact ⟨other, hother, hknown, fun hnone => hsome (hheld name hname hnone)⟩

/-- Steps on a source that hold at most one of its connections take twins to twins. -/
theorem Twins.visited {α : Type} (h : Twins [] e e') {m : SourceM σ α} (hm : DataSource.Modest m)
    {source : DataSource σ} (hsource : e.source? source.name = some source) :
    ∃ pool, e'.source? source.name = some { source with pool } ∧
      (m { source with pool }).1 = (m source).1 ∧
      Twins [] (e.withSource (m source).2) (e'.withSource (m { source with pool }).2) := by
  obtain ⟨pool, hlike, hknown, hsome⟩ := h.known source.name source hsource
  obtain ⟨havailable, havailable'⟩ := hsome rfl
  obtain ⟨hresult, later, hlater, hlike'⟩ :=
    hm.alike source { source with pool } ⟨pool, rfl, hlike⟩ havailable havailable'
  have hleft := hm.available source
  have hright := hm.available { source with pool }
  rw [hlater] at hright
  refine ⟨pool, hknown, hresult, ?_⟩
  rw [hlater]
  refine h.withSource _ hlike' (fun _ _ _ => rfl) fun _ => ?_
  exact ⟨hleft.trans_ne havailable, hright.trans_ne havailable'⟩

/-- What a field comes to is prepared by twins alike. -/
theorem Twins.prepareTask (h : Twins held e e') (document : Document) (supplied : Variables)
    (t : Task) : (∃ error, e.prepareTask document supplied t = .error error ∧
      e'.prepareTask document supplied t = .error error) ∨
    ∃ source pool prepared, e.source? t.source = some source ∧
      e.prepareTask document supplied t = .ok (source, prepared) ∧ source.pool.Like pool ∧
      e'.source? t.source = some { source with pool } ∧
      e'.prepareTask document supplied t = .ok ({ source with pool }, prepared) ∧
      e'.compilerFor { source with pool } = e.compilerFor source ∧
      (held.get? t.source = none → source.pool.available ≠ 0 ∧ pool.available ≠ 0) := by
  cases hprepare : e.prepareTask document supplied t with
  | error error => exact .inl ⟨error, rfl, h.restocked.refused hprepare⟩
  | ok found =>
      obtain ⟨source, prepared⟩ := found
      have hsource := (prepareTask_eq_ok.mp hprepare).1
      obtain ⟨pool, hlike, hknown, hsome⟩ := h.known t.source source hsource
      obtain ⟨other, -, hother, hprepare'⟩ := h.restocked.prepareTask hprepare
      rw [← Option.some.inj (hknown.symm.trans hother)] at hprepare'
      have hcompiler : e'.compilerFor { source with pool } = e.compilerFor source :=
        h.restocked.compilerFor (like_driver hlike)
      exact .inr ⟨source, pool, prepared, hsource, rfl, hlike, hknown, hprepare', hcompiler, hsome⟩

theorem runTask_of_prepared {source : DataSource σ} {prepared : Prepared}
    (h : e.prepareTask document supplied t = .ok (source, prepared)) :
    runTask document supplied t e =
      (let run := DataSource.inSession e.queryTimeout
        (runPrepared (e.compilerFor source) false prepared) source
       (run.1, e.withSource run.2)) := by
  rw [runTask, h]
  rfl

theorem Twins.runTask (h : Twins [] e e') (document : Document) (supplied : Variables)
    (t : Task) : (runTask document supplied t e').1 = (runTask document supplied t e).1 ∧
      Twins [] (runTask document supplied t e).2 (runTask document supplied t e').2 := by
  rcases h.prepareTask document supplied t with ⟨error, hprepare, hprepare'⟩ |
    ⟨source, pool, prepared, hsource, hprepare, -, hknown, hprepare', hcompiler, -⟩
  · rw [Engine.runTask, Engine.runTask, hprepare, hprepare']
    exact ⟨rfl, h⟩
  · have hnamed := h.named t.source source hsource
    rw [← hnamed] at hsource hknown
    have htimeout : e'.queryTimeout = e.queryTimeout := by rw [h.settings]
    have hmodest := DataSource.modest_inSession e.queryTimeout
      (runPrepared (e.compilerFor source) false prepared : Connection.SessionM σ FieldOutput)
    obtain ⟨other, hother, hresult, htwins⟩ := h.visited hmodest hsource
    rw [← Option.some.inj (hknown.symm.trans hother)] at hresult htwins
    rw [runTask_of_prepared hprepare, runTask_of_prepared hprepare', hcompiler, htimeout]
    exact ⟨hresult, htwins⟩

theorem Twins.outcomesEach (h : Twins [] e e') (document : Document) (supplied : Variables)
    (tasks : List Task) :
    outcomesEach document supplied tasks e' = outcomesEach document supplied tasks e := by
  induction tasks generalizing e e' with
  | nil => rfl
  | cons t rest ih =>
      obtain ⟨hresult, hlater⟩ := h.runTask document supplied t
      rw [Engine.outcomesEach, Engine.outcomesEach, hresult, ih hlater]

theorem Twins.runEach (h : Twins [] e e') (document : Document) (supplied : Variables)
    (tasks : List Task) :
    (runEach document supplied tasks e').1 = (runEach document supplied tasks e).1 := by
  rw [runEach_response, runEach_response, h.outcomesEach]

/-- The session of a field is the same in twins, whether it is held or new. -/
theorem Twins.sessionOn (h : Twins held e e') {source : DataSource σ} {pool : Pool σ}
    {name : String} (hname : source.name = name) (hlike : source.pool.Like pool)
    (hsome : held.get? name = none → source.pool.available ≠ 0 ∧ pool.available ≠ 0) :
    (e'.sessionOn held name { source with pool }).1 = (e.sessionOn held name source).1 ∧
      match (e.sessionOn held name source).1 with
      | .error _ =>
        Twins held (e.sessionOn held name source).2 (e'.sessionOn held name { source with pool }).2
      | .ok _ => ∀ session, Twins (held.insert name session) (e.sessionOn held name source).2
          (e'.sessionOn held name { source with pool }).2 := by
  subst hname
  have among (session : Session σ) (name : String) (hname : name ≠ source.name)
      (hnone : (held.insert source.name session).get? name = none) : held.get? name = none := by
    rwa [Dictionary.get?_insert_of_ne _ _ hname] at hnone
  have taken (session : Session σ) : (held.insert source.name session).get? source.name ≠ none := by
    rw [Dictionary.get?_insert_self]
    exact nofun
  unfold Engine.sessionOn
  cases hsession : held.get? source.name with
  | some session =>
      refine ⟨rfl, fun session => ⟨h.named, h.settings, h.unknown, fun name known hknown => ?_⟩⟩
      obtain ⟨other, hother, hknown', hfree⟩ := h.known name known hknown
      refine ⟨other, hother, hknown', fun hnone => ?_⟩
      by_cases hname : name = source.name
      · subst hname
        exact absurd hnone (taken session)
      · exact hfree (among session name hname hnone)
  | none =>
      have htimeout : e'.queryTimeout = e.queryTimeout := by rw [h.settings]
      obtain ⟨havailable, havailable'⟩ := hsome hsession
      let lent := Session.start e.queryTimeout source.pool
      let lent' := Session.start e'.queryTimeout pool
      obtain ⟨hstart, hlent⟩ : lent'.1 = lent.1 ∧ lent.2.Like lent'.2 := by
        unfold lent lent'
        rw [htimeout]
        exact Pool.start_like e.queryTimeout hlike havailable havailable'
      refine ⟨hstart, ?_⟩
      change match lent.1 with
        | .error _ => Twins held (e.withSource { source with pool := lent.2 })
            (e'.withSource { source with pool := lent'.2 })
        | .ok _ => ∀ session, Twins (held.insert source.name session)
            (e.withSource { source with pool := lent.2 })
            (e'.withSource { source with pool := lent'.2 })
      cases hgiven : lent.1 with
      | ok _ =>
          intro session
          exact h.withSource { source with pool := lent.2 } hlent (among session)
            fun hnone => absurd hnone (taken session)
      | error error =>
          obtain ⟨_, hdeals⟩ := Pool.deals_refused hgiven
          obtain ⟨_, hdeals'⟩ := Pool.deals_refused (hstart.trans hgiven)
          refine h.withSource { source with pool := lent.2 } hlent (fun _ _ hnone => hnone)
            fun _ => ?_
          exact ⟨hdeals.available.trans_ne havailable, hdeals'.available.trans_ne havailable'⟩

/-- Requests in one transaction on twins, at the same place. -/
structure Shared.Twins (s s' : Shared σ) : Prop where
  engines : Engine.Twins s.sessions s.engine s'.engine
  sessions : s'.sessions = s.sessions
  data : s'.data = s.data

theorem Shared.Twins.runHeld {s s' : Shared σ} (h : s.Twins s') (document : Document)
    (supplied : Variables) (t : Task) :
    (runHeld document supplied t s').1 = (runHeld document supplied t s).1 ∧
      (runHeld document supplied t s).2.Twins (runHeld document supplied t s').2 := by
  rcases h.engines.prepareTask document supplied t with ⟨error, hprepare, hprepare'⟩ |
    ⟨source, pool, prepared, hsource, hprepare, hlike, hknown, hprepare', hcompiler, hsome⟩
  · rw [runHeld_refused hprepare, runHeld_refused hprepare']
    exact ⟨rfl, h⟩
  · have hnamed := h.engines.named t.source source hsource
    obtain ⟨hsame, hlater⟩ := h.engines.sessionOn hnamed hlike hsome
    have hfirst := sessionOn_compilerFor s.engine s.sessions t.source source
    have hsecond := sessionOn_compilerFor s'.engine s.sessions t.source { source with pool }
    rw [Engine.runHeld, Engine.runHeld, hprepare, hprepare', h.sessions]
    dsimp only
    rcases hon : s.engine.sessionOn s.sessions t.source source with ⟨started, engine⟩
    rcases hon' :
      s'.engine.sessionOn s.sessions t.source { source with pool } with ⟨started', engine'⟩
    rw [hon] at hsame hlater hfirst
    rw [hon'] at hsame hlater hsecond
    obtain rfl : started' = started := hsame
    cases started' with
    | error error => exact ⟨rfl, hlater, rfl, h.data⟩
    | ok session =>
        have hcompiler : engine'.compilerFor { source with pool } = engine.compilerFor source :=
          hsecond.trans (hcompiler.trans hfirst.symm)
        dsimp only
        rw [hcompiler]
        exact ⟨rfl, hlater _, rfl, h.data⟩

theorem Shared.Twins.runTogether {s s' : Shared σ} (h : s.Twins s') (document : Document)
    (supplied : Variables) (tasks : List Task) :
    (runTogether document supplied tasks s').2 = (runTogether document supplied tasks s).2 ∧
      (runTogether document supplied tasks s).1.Twins
        (runTogether document supplied tasks s').1 := by
  induction tasks generalizing s s' with
  | nil => exact ⟨rfl, h⟩
  | cons t rest ih =>
      obtain ⟨hresult, hlater⟩ := h.runHeld document supplied t
      rw [Engine.runTogether, Engine.runTogether]
      rcases hrun : Engine.runHeld document supplied t s with ⟨result, next⟩
      rcases hrun' : Engine.runHeld document supplied t s' with ⟨result', next'⟩
      rw [hrun, hrun'] at hresult hlater
      obtain rfl : result' = result := hresult
      have hnoted : Shared.Twins { next with data := withOutput t next.data result' }
          { next' with data := withOutput t next'.data result' } :=
        ⟨hlater.engines, hlater.sessions, congrArg (withOutput t · result') hlater.data⟩
      cases result' with
      | ok _ => exact ih hnoted
      | error _ => exact ⟨rfl, hnoted⟩

theorem Twins.runShared (h : Twins [] e e') (document : Document) (supplied : Variables)
    (tasks : List Task) :
    (runShared document supplied tasks e').1 = (runShared document supplied tasks e).1 := by
  have hstart : Shared.Twins ⟨e, [], []⟩ ⟨e', [], []⟩ := ⟨h, rfl, rfl⟩
  obtain ⟨hfailure, hlater⟩ := hstart.runTogether document supplied tasks
  unfold Engine.runShared
  rcases hrun : Engine.runTogether document supplied tasks ⟨e, [], []⟩ with ⟨s, failure⟩
  rcases hrun' : Engine.runTogether document supplied tasks ⟨e', [], []⟩ with ⟨s', failure'⟩
  rw [hrun, hrun'] at hfailure hlater
  obtain rfl : failure' = failure := hfailure
  cases failure' with
  | some failed =>
      dsimp only
      rw [hlater.data]
  | none =>
      dsimp only
      rw [hlater.data, hlater.sessions]
      rcases commitAll s.sessions with ⟨_, _ | _⟩ <;> rfl

/-- Twins respond alike. -/
theorem Twins.execute (h : Twins [] e e') (s : Submission) :
    (e'.execute s).1 = (e.execute s).1 := by
  have hdefault : e'.defaultSource = e.defaultSource := by rw [h.settings]
  unfold Engine.execute
  rw [hdefault]
  cases Document.read s.document with
  | error error => rfl
  | ok d =>
      dsimp only
      cases schedule e.defaultSource d s.vars with
      | error error => rfl
      | ok tasks =>
          dsimp only
          split
          · exact h.runShared d s.vars tasks
          · exact h.runEach d s.vars tasks

/-- The sources of twins can be read alike. -/
theorem Twins.refresh (h : Twins [] e e')
    (hkeys : e'.catalog.sources.keys = e.catalog.sources.keys) : e'.refresh.1 = e.refresh.1 := by
  have along (names : List String) {e e' : Engine σ} (h : Twins [] e e') :
      (names.foldl (Catalog.refreshNext e.queryTimeout) (.ok (), e'.catalog)).1 =
        (names.foldl (Catalog.refreshNext e.queryTimeout) (.ok (), e.catalog)).1 := by
    induction names generalizing e e' with
    | nil => rfl
    | cons name rest ih =>
        rw [List.foldl_cons, List.foldl_cons, Catalog.refreshNext, Catalog.refreshNext]
        cases hsource : e.source? name with
        | none =>
            have hnone := h.unknown name hsource
            rw [source?] at hsource hnone
            rw [hsource, hnone]
            exact ih h
        | some source =>
            obtain rfl := h.named name source hsource
            obtain ⟨pool, hknown, hresult, hlater⟩ :=
              h.visited (DataSource.modest_refresh e.queryTimeout) hsource
            rw [source?] at hsource hknown
            rw [hsource, hknown]
            dsimp only
            rcases hrun : DataSource.refresh e.queryTimeout source with ⟨result, next⟩
            rcases hrun' :
              DataSource.refresh e.queryTimeout { source with pool } with ⟨result', next'⟩
            rw [hrun, hrun'] at hresult hlater
            obtain rfl : result' = result := hresult
            cases result' with
            | ok _ => exact ih hlater
            | error error => rw [Catalog.refreshNext_of_error, Catalog.refreshNext_of_error]
  have htimeout : e'.queryTimeout = e.queryTimeout := by rw [h.settings]
  have hrefresh (e : Engine σ) : e.refresh.1 = (e.catalog.refreshAll e.queryTimeout).1 := rfl
  rw [hrefresh, hrefresh, Catalog.refreshAll_eq, Catalog.refreshAll_eq, hkeys, htimeout]
  exact along _ h

/-- The source when its pool has as many connections to give. -/
def offered (n : Nat) (s : DataSource σ) : DataSource σ :=
  { s with pool := { s.pool with available := n } }

/-- The engine when every pool has as many connections to give. -/
def offering (n : Nat) (e : Engine σ) : Engine σ :=
  { e with catalog := { e.catalog with sources := e.catalog.sources.mapValues (offered n) } }

theorem sources_offering (n : Nat) (e : Engine σ) :
    (e.offering n).catalog.sources = e.catalog.sources.mapValues (offered n) := rfl

/-- Every pool has a connection to give. -/
def Offers (e : Engine σ) : Prop :=
  ∀ name source, e.source? name = some source → source.pool.available ≠ 0

theorem twins_offering (he : e.Named) (hoffers : e.Offers) (n : Nat) :
    Twins [] e (e.offering (n + 1)) := by
  have hsource (name : String) :
      (e.offering (n + 1)).source? name = (e.source? name).map (offered (n + 1)) := by
    rw [source?, sources_offering, Dictionary.get?_mapValues]
    rfl
  refine ⟨he, rfl, fun name hname => ?_, fun name source hname => ?_⟩
  · rw [hsource, hname, Option.map_none]
  · refine ⟨(offered (n + 1) source).pool, ⟨n + 1, _, rfl⟩, ?_, fun _ => ?_⟩
    · rw [hsource, hname, Option.map_some]
      rfl
    · exact ⟨hoffers name source hname, n.succ_ne_zero⟩

theorem keys_offering (n : Nat) (e : Engine σ) :
    (e.offering n).catalog.sources.keys = e.catalog.sources.keys := by
  rw [sources_offering, Dictionary.keys_mapValues]

end Engine

end SqlGateway
