import SqlGateway.Proofs.Engine.DataStatements
import SqlGateway.Proofs.Engine.Explanations
import SqlGateway.Proofs.Execution.Transactions

/-!
# Kept connections between requests

Request after request, a connection that a pool keeps goes from one session to the next. A session
gives it back with a transaction open on the server only if a statement opened one that the session
knows nothing of. Compiled statements open none, and in one transaction of the request a session
closes whatever is open; so it takes a raw statement by itself.
-/
namespace SqlGateway.Engine

open Connection (Closes Driver Journaled KeptClosed Ledger Pool Session keptAfter
  lentUses openAfter)
open Connection.Session (Tracking Tracks begin_tracks tracking_pure)
open Request (Document Variables)

variable {σ : Type} {d : Driver σ} {drivers : String → Driver σ} {effect : String → Option Bool}

/-- A server that closes a transaction on the statements that are meant to do so, and opens none on
statements that read or write rows. -/
structure Serves (effect : String → Option Bool) : Prop extends Closes effect where
  data : ∀ sql, ReadsOrWrites sql → effect sql ≠ some true

namespace FieldRun

variable {r : FieldRun (Journaled σ)} {s : Session (Journaled σ)}

/-- Nothing that the field sends opens a transaction, but for a raw statement in a transaction of
its request. -/
structure Quiet (effect : String → Option Bool) (r : FieldRun σ) : Prop where
  query : ∀ q, r.prepared = .query q → effect q.sql ≠ some true
  raw : ∀ sql parameters isMutation, r.prepared = .raw sql parameters isMutation →
    r.spans = true ∨ effect sql ≠ some true
  write : ∀ plan own, r.prepared = .write plan own → ∀ n ∈ plan.nodes, effect n.sql ≠ some true

theorem runPrepared_tracks (hserver : Closes effect) (hquiet : r.Quiet effect)
    (hs : s.driver = d.journaled) (spans : Bool)
    (hspans : r.spans = true → s.inTransaction = true) :
    ∃ sent, Tracks effect d s (runPrepared r.compiler spans r.prepared s).2 sent := by
  cases hprepared : r.prepared with
  | query q =>
      have hquery := Execution.tracking_runQuery (d := d) r.compiler.schema r.compiler.rules
        (hquiet.query q hprepared)
      exact (hquery.bind fun rows => tracking_pure (FieldOutput.rows rows)) s hs
  | raw sql parameters isMutation =>
      have hsql := (hquiet.raw sql parameters isMutation hprepared).symm.imp_right hspans
      rw [runPrepared_raw]
      exact Execution.runRaw_tracks parameters hs hsql
  | write plan own =>
      rw [runPrepared_write]
      have hplan := Execution.tracking_runPlan (d := d) hserver (hquiet.write plan own hprepared)
        ⟨spans && !s.inTransaction, false, own, spans⟩
      exact (hplan.bind fun outcome =>
        tracking_pure (FieldOutput.written outcome.rows outcome.failures)) s hs

theorem steps_tracks (hserver : Closes effect) (hquiet : r.Quiet effect)
    (hs : s.driver = d.journaled) : ∃ sent, Tracks effect d s (r.steps s).2 sent := by
  cases hspans : r.spans with
  | false =>
      rw [steps, hspans, if_neg Bool.false_ne_true]
      refine runPrepared_tracks hserver hquiet hs false fun htogether => ?_
      cases hspans.symm.trans htogether
  | true =>
      rw [steps, hspans, if_pos rfl, runInTransaction_eq]
      cases hopen : s.inTransaction with
      | true => exact runPrepared_tracks hserver hquiet hs true fun _ => hopen
      | false =>
          obtain ⟨opening, hopening⟩ : ∃ sent, Tracks effect d s (Session.begin_ s).2 sent :=
            begin_tracks hs
          have hbegun : ∀ s', Session.begin_ s = (.ok (), s') → s'.inTransaction = true := by
            intro s' h
            rw [Session.begin_run s hopen] at h
            rcases hrun : Session.batch s.dialect.beginStatement 0 s with ⟨result, after⟩
            rw [hrun] at h
            cases result with
            | ok _ =>
                cases h
                rfl
            | error _ => cases h
          rw [Bool.not_false, if_pos rfl, Session.bind_run]
          rcases hbegin : Session.begin_ s with ⟨result, s'⟩
          rw [hbegin] at hopening
          cases result with
          | error e => exact ⟨opening, hopening⟩
          | ok _ =>
              obtain ⟨sent, hsent⟩ :=
                runPrepared_tracks hserver hquiet hopening.driver true fun _ => hbegun s' hbegin
              exact ⟨opening ++ sent, hopening.trans hsent⟩

end FieldRun

section Visited
variable {timeout : Duration} {p : Pool (Journaled σ)} {source source' : DataSource (Journaled σ)}
  {runs : List (FieldRun (Journaled σ))} {s s' : Session (Journaled σ)}

theorem Chained.tracks (h : Chained timeout p runs s) (hserver : Closes effect)
    (hp : p.driver = d.journaled) (hquiet : ∀ r ∈ runs, r.Quiet effect) :
    ∃ s₀ sent, (Session.start timeout p).1 = .ok s₀ ∧ Tracks effect d s₀ s sent := by
  induction h with
  | @start s hstart =>
      obtain ⟨-, hstarted⟩ := Session.start_pooled (⟨hp, rfl⟩ : Session.Pooled d _ p) timeout
      exact ⟨s, [], hstart, .refl (hstarted s hstart).at_.driver⟩
  | step _ _ ih =>
      obtain ⟨hruns, hr⟩ := List.forall_mem_append.mp hquiet
      obtain ⟨s₀, sent, hstart, htracks⟩ := ih hruns
      obtain ⟨more, hmore⟩ := FieldRun.steps_tracks hserver (hr _ List.mem_cons_self) htracks.driver
      exact ⟨s₀, sent ++ more, hstart, htracks.trans hmore⟩

theorem Closing.tracks (h : Closing s s') (hserver : Closes effect) (hs : s.driver = d.journaled) :
    ∃ sent, Tracks effect d s s' sent := by
  induction h with
  | refl => exact ⟨[], .refl hs⟩
  | commit _ ih =>
      obtain ⟨sent, htracks⟩ := ih
      obtain ⟨more, hmore⟩ := Session.commit_tracks hserver htracks.driver 1
      exact ⟨sent ++ more, htracks.trans hmore⟩
  | abandon _ ih =>
      obtain ⟨sent, htracks⟩ := ih
      obtain ⟨more, hmore⟩ := Session.tracking_abandon hserver _ htracks.driver
      exact ⟨sent ++ more, htracks.trans hmore⟩

/-- Whatever becomes of a source, no transaction is open on a connection that its pool keeps, if
none was before. -/
theorem Visited.keeps {session : Option (Session (Journaled σ))} {kept : List Ledger}
    (h : Visited timeout source runs session source') (hserver : Closes effect)
    (hquiet : ∀ r ∈ runs, r.Quiet effect) (hkept : KeptClosed effect d source.pool kept) :
    KeptClosed effect d source'.pool (keptAfter source.pool kept session source'.pool) := by
  cases h with
  | untouched => rwa [hkept.untouched]
  | held hchained hclosing =>
      obtain ⟨s₀, sent, hstart, htracks⟩ := hchained.tracks hserver hkept.driver hquiet
      obtain ⟨more, hmore⟩ := hclosing.tracks hserver htracks.driver
      exact hkept.finish hstart (htracks.trans hmore)
  | refused hstart _ => exact hkept.refused hstart

end Visited

/-- An engine, and what was done on the connections that the pools of its sources keep. -/
structure Watched (σ : Type) where
  engine : Engine (Journaled σ)
  kept : String → List Ledger

namespace Watched

/-- The engine has become another one, with given sessions on its sources. -/
def become (w : Watched σ) (e : Engine (Journaled σ))
    (session? : String → Option (Session (Journaled σ))) : Watched σ where
  engine := e
  kept name := match w.engine.source? name, e.source? name with
    | some source, some source' => keptAfter source.pool (w.kept name) (session? name) source'.pool
    | _, _ => w.kept name

def runTask (document : Document) (supplied : Variables) (w : Watched σ) (t : Task) : Watched σ :=
  w.become (Engine.runTask document supplied t w.engine).2 fun name =>
    if name = t.source then sessionAtEnd document supplied t w.engine else none

def runShared (document : Document) (supplied : Variables) (tasks : List Task) (w : Watched σ) :
    Watched σ :=
  w.become (Engine.runShared document supplied tasks w.engine).2 fun name =>
    (sessionsAtEnd document supplied tasks w.engine).get? name

def execute (w : Watched σ) (s : Submission) : Watched σ :=
  match Document.read s.document with
  | .error _ => w
  | .ok d =>
    match schedule w.engine.defaultSource d s.vars with
    | .error _ => w
    | .ok tasks =>
      if spansTransaction s d then w.runShared d s.vars tasks else tasks.foldl (runTask d s.vars) w

/-- The texts of what was done on the connections that are kept for a source. -/
def texts (w : Watched σ) (name : String) : List (List String) :=
  (w.kept name).map fun l => l.uses.map (·.entry.statement.text)

/-- Requests, one after another. -/
def serve (w : Watched σ) (requests : List Submission) : Watched σ := requests.foldl execute w

theorem foldl_runTask_engine (document : Document) (supplied : Variables) (tasks : List Task)
    (w : Watched σ) : (tasks.foldl (runTask document supplied) w).engine =
      (runEach document supplied tasks w.engine).2 := by
  induction tasks generalizing w with
  | nil => rfl
  | cons t rest ih => exact (ih _).trans (runEach_cons document supplied t rest w.engine).symm

theorem execute_engine (w : Watched σ) (s : Submission) :
    (w.execute s).engine = (w.engine.execute s).2 := by
  unfold execute Engine.execute
  cases Document.read s.document with
  | error _ => rfl
  | ok d =>
      dsimp only
      cases schedule w.engine.defaultSource d s.vars with
      | error _ => rfl
      | ok tasks =>
          dsimp only
          split
          · rfl
          · exact foldl_runTask_engine ..

/-- An engine in the course of requests, and no transaction open on any connection that is kept. -/
structure Sound (effect : String → Option Bool) (drivers : String → Driver σ)
    (e : Engine (Journaled σ)) (w : Watched σ) : Prop where
  restocked : Restocked e w.engine
  keeps : ∀ name source, w.engine.source? name = some source →
    KeptClosed effect (drivers name) source.pool (w.kept name)

variable {e e' : Engine (Journaled σ)} {w : Watched σ} {document : Document} {supplied : Variables}
  {tasks : List Task} {t : Task}

theorem Sound.become (h : Sound effect drivers e w) (hserver : Closes effect)
    (runs : List (FieldRun (Journaled σ))) (hquiet : ∀ r ∈ runs, r.Quiet effect)
    {session? : String → Option (Session (Journaled σ))}
    (hsettings : e' = { w.engine with catalog := e'.catalog })
    (hunknown : ∀ name, w.engine.source? name = none → e'.source? name = none)
    (hknown : ∀ name source, w.engine.source? name = some source → ∃ source',
      e'.source? name = some source' ∧
        Visited w.engine.queryTimeout source (runsOn name runs) (session? name) source') :
    Sound effect drivers e (w.become e' session?) := by
  have hkeeps : ∀ name source source', w.engine.source? name = some source →
    e'.source? name = some source' →
      KeptClosed effect (drivers name) source'.pool
        (keptAfter source.pool (w.kept name) (session? name) source'.pool) := by
    intro name source source' hsource hsource'
    obtain ⟨found, hfound, hvisited⟩ := hknown name source hsource
    obtain rfl := Option.some.inj (hsource'.symm.trans hfound)
    exact hvisited.keeps hserver (fun r hr => hquiet r (List.mem_of_mem_filter hr))
      (h.keeps name source hsource)
  constructor
  · refine h.restocked.trans ⟨hsettings, hunknown, fun name source hsource => ?_⟩
    obtain ⟨source', hsource', hvisited⟩ := hknown name source hsource
    have hdriver := (hkeeps name source source' hsource hsource').driver
    obtain ⟨pool, rfl⟩ := hvisited.pool
    exact ⟨pool, hdriver.trans (h.keeps name source hsource).driver.symm, hsource'⟩
  · intro name source' hsource'
    cases hsource : w.engine.source? name with
    | none => cases (hunknown name hsource).symm.trans hsource'
    | some source =>
        have hkept := hkeeps name source source' hsource hsource'
        have hsource' : e'.source? name = some source' := hsource'
        simp only [Watched.become, hsource, hsource']
        exact hkept

end Watched

/-- A raw statement of the field opens no transaction. -/
def OpensNone (effect : String → Option Bool) (e : Engine σ) (document : Document)
    (supplied : Variables) (t : Task) : Prop :=
  ∀ source sql parameters isMutation,
    e.prepareTask document supplied t = .ok (source, .raw sql parameters isMutation) →
    effect sql ≠ some true

theorem FieldRun.quiet_of_prepared {e e' : Engine σ} {document : Document} {supplied : Variables}
    (hserver : Serves effect) (hrestocked : Restocked e e') {r : FieldRun σ} {source : DataSource σ}
    (hprepare : e'.prepareTask document supplied r.task = .ok (source, r.prepared))
    (hraw : r.spans = true ∨ OpensNone effect e document supplied r.task) : r.Quiet effect := by
  obtain ⟨before, hbefore⟩ := hrestocked.prepared hprepare
  obtain ⟨hquery, hwrite⟩ := readsOrWrites_of_prepare (prepareTask_eq_ok.mp hbefore).2
  refine ⟨fun q hq => hserver.data _ (hquery q hq), fun sql parameters isMutation hprepared => ?_,
    fun plan own hplan n hn => hserver.data _ (hwrite plan own hplan n hn)⟩
  exact hraw.imp_right fun h => h before sql parameters isMutation (hprepared ▸ hbefore)

namespace Watched

variable {e : Engine (Journaled σ)} {w : Watched σ} {document : Document} {supplied : Variables}
  {tasks : List Task} {t : Task}

theorem Sound.runTask (h : Sound effect drivers e w) (he : e.Named) (hserver : Serves effect)
    (hraw : OpensNone effect e document supplied t) :
    Sound effect drivers e (w.runTask document supplied t) := by
  have hnamed := h.restocked.named he
  refine h.become hserver.toCloses (runAlone document supplied t w.engine).toList (fun r hr => ?_)
    (runTask_settings document supplied t w.engine)
    (fun name hname => (runTask_unknown hnamed hname).1)
    fun name source hsource => runTask_visits hnamed document supplied t hsource
  obtain ⟨rfl, -, source, hprepare, -⟩ := of_runAlone (Option.mem_toList.mp hr)
  exact FieldRun.quiet_of_prepared hserver h.restocked hprepare (.inr hraw)

theorem Sound.runShared (h : Sound effect drivers e w) (he : e.Named) (hserver : Serves effect)
    (document : Document) (supplied : Variables) (tasks : List Task) :
    Sound effect drivers e (w.runShared document supplied tasks) := by
  have hnamed := h.restocked.named he
  have hstart := underway_start w.engine []
  refine h.become hserver.toCloses (runsTogether document supplied tasks ⟨w.engine, [], []⟩)
    (fun r hr => ?_) (runShared_settings hnamed document supplied tasks)
    (fun name hname => (runShared_unknown hnamed document supplied tasks hname).1)
    fun name source hsource => runShared_visits hnamed document supplied tasks hsource
  obtain ⟨-, hspans, source, hprepare⟩ :=
    hstart.prepared hnamed (List.forall_mem_nil _) document supplied tasks r hr
  exact FieldRun.quiet_of_prepared hserver h.restocked hprepare (.inl hspans)

end Watched

/-- The raw statements of a request that are not sent in one transaction of it. -/
def rawAlone (e : Engine σ) (s : Submission) : List String :=
  match Document.read s.document with
  | .error _ => []
  | .ok d =>
    match schedule e.defaultSource d s.vars with
    | .error _ => []
    | .ok tasks =>
      if spansTransaction s d then [] else tasks.filterMap fun t =>
        match e.prepareTask d s.vars t with
        | .ok (_, .raw sql _ _) => some sql
        | _ => none

namespace Watched

variable {e : Engine (Journaled σ)} {w : Watched σ}

theorem Sound.execute (h : Sound effect drivers e w) (he : e.Named) (hserver : Serves effect)
    {s : Submission} (hraw : ∀ sql ∈ rawAlone e s, effect sql ≠ some true) :
    Sound effect drivers e (w.execute s) := by
  have hdefault : w.engine.defaultSource = e.defaultSource := by rw [h.restocked.settings]
  unfold Watched.execute
  rw [hdefault]
  unfold rawAlone at hraw
  cases hread : Document.read s.document with
  | error _ => exact h
  | ok d =>
      rw [hread] at hraw
      dsimp only at hraw ⊢
      cases hscheduled : schedule e.defaultSource d s.vars with
      | error _ => exact h
      | ok tasks =>
          rw [hscheduled] at hraw
          dsimp only at hraw ⊢
          split at hraw
          next hspans =>
            rw [if_pos hspans]
            exact h.runShared he hserver d s.vars tasks
          next halone =>
            rw [if_neg halone]
            have hopens : ∀ t ∈ tasks, OpensNone effect e d s.vars t := by
              intro t ht source sql parameters isMutation hprepare
              exact hraw sql (List.mem_filterMap.mpr ⟨t, ht, by rw [hprepare]⟩)
            exact List.foldlRecOn tasks _ h fun w hw t ht => hw.runTask he hserver (hopens t ht)

theorem Sound.serve (h : Sound effect drivers e w) (he : e.Named) (hserver : Serves effect)
    {requests : List Submission}
    (hraw : ∀ s ∈ requests, ∀ sql ∈ rawAlone e s, effect sql ≠ some true) :
    Sound effect drivers e (w.serve requests) :=
  List.foldlRecOn requests _ h fun _ hw s hs => hw.execute he hserver (hraw s hs)

theorem serve_engine (w : Watched σ) (requests : List Submission) :
    (w.serve requests).engine = requests.foldl (fun e s => (e.execute s).2) w.engine := by
  induction requests generalizing w with
  | nil => rfl
  | cons s rest ih =>
      rw [List.foldl_cons, ← execute_engine]
      exact ih (w.execute s)

end Watched

/-- A raw statement by itself that opens a transaction leaves it open: if the connection goes back
to the pool, it does so with that transaction. -/
theorem Watched.Sound.left_open {e : Engine (Journaled σ)} {w : Watched σ} {document : Document}
    {supplied : Variables} {t : Task} (h : Sound effect drivers e w) (he : e.Named)
    {source : DataSource (Journaled σ)} {sql : String} {parameters : List Json} {isMutation : Bool}
    (hprepare : w.engine.prepareTask document supplied t =
      .ok (source, .raw sql parameters isMutation))
    (hopens : effect sql = some true) {s : Session (Journaled σ)}
    (hend : sessionAtEnd document supplied t w.engine = some s)
    (hreturned : (Session.start w.engine.queryTimeout source.pool).2.idle.length <
      (s.finish (Session.start w.engine.queryTimeout source.pool).2).idle.length) :
    ∃ l ∈ (w.runTask document supplied t).kept t.source, openAfter effect l.uses = true := by
  have hsource := (prepareTask_eq_ok.mp hprepare).1
  have hnamed : source.name = t.source := h.restocked.named he t.source source hsource
  have hkept := h.keeps t.source source hsource
  have htask := runTask_eq hprepare
  cases hstart : (Session.start w.engine.queryTimeout source.pool).1 with
  | error error =>
      rw [← Prod.eta (Session.start w.engine.queryTimeout source.pool), hstart, hend] at htask
      cases (Prod.mk.inj htask).2
  | ok s₀ =>
      rw [← Prod.eta (Session.start w.engine.queryTimeout source.pool), hstart, hend] at htask
      dsimp only at htask
      rw [FieldRun.runPrepared_raw] at htask
      obtain ⟨hdone, hlast⟩ := Prod.mk.inj htask
      have hs : (Execution.runRaw sql parameters s₀).2 = s := (Option.some.inj hlast).symm
      obtain ⟨-, hstarted⟩ := Session.start_pooled
        (⟨hkept.driver, rfl⟩ : Session.Pooled (drivers t.source) _ source.pool)
          w.engine.queryTimeout
      have hs₀ := (hstarted s₀ hstart).at_.driver
      obtain ⟨entry, hputs, hstatement, -⟩ := Execution.runRaw_sends sql parameters hs₀
      obtain ⟨_, htracks⟩ : ∃ sent, Tracks (fun _ => none) (drivers t.source) s₀
          (Execution.runRaw sql parameters s₀).2 sent :=
        Execution.runRaw_tracks parameters hs₀ (.inl (Option.some_ne_none true).symm)
      rw [hs] at hdone hputs htracks
      have hsource' : (Engine.runTask document supplied t w.engine).2.source? t.source =
          some { source with
            pool := s.finish (Session.start w.engine.queryTimeout source.pool).2 } := by
        rw [hdone]
        exact hnamed ▸ source?_withPool_self w.engine source _
      have hafter : (w.runTask document supplied t).kept t.source =
          keptAfter source.pool (w.kept t.source) (some s)
            (s.finish (Session.start w.engine.queryTimeout source.pool).2) := by
        simp only [Watched.runTask, Watched.become, hsource, hsource', if_true, hend]
      have hjournal : s.journal.drop source.pool.server.journal.length = [entry] := by
        rw [hputs.journal, (hstarted s₀ hstart).journal, List.append_nil]
        exact List.drop_left
      rw [hkept.idle_of_start hstart, List.length_map] at hreturned
      rw [hafter, keptAfter, hjournal, if_pos hreturned]
      refine ⟨_, List.mem_append_right _ List.mem_cons_self, ?_⟩
      have hopen := Connection.openAfter_concat effect (lentUses source.pool (w.kept t.source))
        ⟨entry, s.timeout⟩
      rw [hstatement, Connection.Statement.text, hopens] at hopen
      exact hopen

/-- No request leaves a transaction open on a connection that is kept. From an engine whose pools
keep nothing, whatever requests are run, in either mode and with whatever outcome: if no raw
statement that is sent outside of a transaction of its request opens one, then on every connection
that a pool keeps none is open on the server, and none on the connection that the next session is
given. What such a statement opens is left open (`left_open`). -/
theorem no_transaction_is_left_open (hserver : Serves effect) {e : Engine (Journaled σ)}
    (he : JournalsAll drivers e)
    (hfresh : ∀ name source, e.source? name = some source → source.pool.idle = [])
    {requests : List Submission}
    (hraw : ∀ s ∈ requests, ∀ sql ∈ rawAlone e s, effect sql ≠ some true) :
    let w := Watched.serve ⟨e, fun _ => []⟩ requests
    w.engine = requests.foldl (fun e s => (e.execute s).2) e ∧
      ∀ name source, w.engine.source? name = some source →
        source.pool.idle = (w.kept name).map (·.opened) ∧
        (∀ l ∈ w.kept name, openAfter effect l.uses = false) ∧
        openAfter effect (lentUses source.pool (w.kept name)) = false := by
  intro w
  have hstart : Watched.Sound effect drivers e ⟨e, fun _ => []⟩ :=
    ⟨.refl e, fun name source hsource =>
      ⟨he.driver name source hsource, hfresh name source hsource, List.forall_mem_nil _⟩⟩
  refine ⟨Watched.serve_engine _ requests, fun name source hsource => ?_⟩
  have hkept := (hstart.serve he.named hserver hraw).keeps name source hsource
  exact ⟨hkept.mirrored, hkept.closed, hkept.lentUses⟩

/-- A server that goes by the first letters of a statement. -/
def byFirstLetters (sql : String) : Option Bool :=
  let letters := Text.upper sql.toList
  if ["BEGIN", "START TRANSACTION"].any (Text.startsWith ·.toList letters) then some true
  else if ["COMMIT", "ROLLBACK"].any (Text.startsWith ·.toList letters) then some false
  else none

theorem serves_byFirstLetters : Serves byFirstLetters where
  commit dialect := by cases dialect <;> decide
  rollback dialect := by cases dialect <;> decide
  data sql h := by
    obtain ⟨keywords, hkeywords, rest, rfl⟩ := h
    have hletters : Text.upper (keywords ++ rest).toList = Text.upper keywords.toList ++
        Text.upper rest.toList := by
      simp [Text.upper]
    have hnone : byFirstLetters (keywords ++ rest) = none := by
      unfold byFirstLetters
      rw [hletters]
      simp only [List.mem_cons, List.not_mem_nil, or_false] at hkeywords
      rcases hkeywords with rfl | rfl | rfl | rfl <;> rfl
    rw [hnone]
    exact (Option.some_ne_none true).symm

def rawBegin (together : Bool) : Submission :=
  ⟨"query \x7b sql(query: \"BEGIN\") \x7d", [], together⟩

/-- A raw statement, and Ann in a transaction of her own. -/
def annCounted : Submission :=
  ⟨"query \x7b sql(query: \"select count(*) from users\") \x7d
    mutation \x7b insert_users(docs: \x7bname: \"ann\"\x7d, txn: true) \x7b error \x7d \x7d", [], false⟩

def annCountedTexts : List String :=
  ["BEGIN", "BEGIN", "COMMIT", "select count(*) from users", "BEGIN",
    "insert into users (name) values ($1) RETURNING *", "COMMIT"]

/-- A transaction that is opened inside of one of the request ends with it. -/
theorem no_transaction_is_left_open_shop :
    let requests := [rawBegin true, annCounted]
    let w := Watched.serve ⟨shopEngine, fun _ => []⟩ requests
    Serves byFirstLetters ∧
    (∀ s ∈ requests, ∀ sql ∈ rawAlone shopEngine s, byFirstLetters sql ≠ some true) ∧
      (∀ l ∈ w.kept "shop", openAfter byFirstLetters l.uses = false) ∧
      w.texts "shop" = [annCountedTexts] := by
  intro requests w
  dsimp only [w]
  obtain ⟨hraw, hserved, htexts⟩ :
      (∀ s ∈ requests, ∀ sql ∈ rawAlone shopEngine s, byFirstLetters sql ≠ some true) ∧
      ((Watched.serve ⟨shopEngine, fun _ => []⟩ requests).engine.source? "shop").isSome = true ∧
      (Watched.serve ⟨shopEngine, fun _ => []⟩ requests).texts "shop" = [annCountedTexts] := by
    decide +kernel
  obtain ⟨source, hsource⟩ := Option.isSome_iff_exists.mp hserved
  have hjournals : JournalsAll (fun _ => Connection.Scripted.driver .postgres) shopEngine :=
    journalsAll_only rfl rfl
  have hfresh : ∀ name source, shopEngine.source? name = some source → source.pool.idle = [] := by
    intro name source hsource
    obtain ⟨rfl, rfl⟩ := of_source?_only rfl hsource
    rfl
  obtain ⟨-, hkept⟩ :=
    no_transaction_is_left_open serves_byFirstLetters hjournals hfresh hraw
  exact ⟨serves_byFirstLetters, hraw, (hkept "shop" source hsource).2.1, htexts⟩

/-- A raw statement by itself leaves its transaction open on a connection that goes back to the
pool, and the write of the next request is done inside of it. -/
theorem raw_begin_is_left_open :
    let w := Watched.serve ⟨shopEngine, fun _ => []⟩
      [rawBegin false, { annInserted with singleTransaction := false }]
    Serves byFirstLetters ∧
    (∀ dialect : Dialect, byFirstLetters dialect.beginStatement = some true) ∧
      (w.engine.source? "shop").map (·.pool.idle.length) = some 1 ∧
      w.texts "shop" = [["BEGIN", "insert into users (name) values ($1) RETURNING *"]] ∧
      (w.kept "shop").map (fun l => openAfter byFirstLetters l.uses) = [true] := by
  refine ⟨serves_byFirstLetters, fun dialect => by cases dialect <;> decide, ?_⟩
  decide +kernel

end SqlGateway.Engine
