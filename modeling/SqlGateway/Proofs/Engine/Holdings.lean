import SqlGateway.Proofs.Engine.Twins

/-!
# What requests hold of pools

Every pool has its dealings on record. A field by itself has a session of its own and gives it back
before the next field begins. In one transaction a source gets its session with its first field, and
all sessions go back at the end. A refresh looks for a sign of life of a source in one session and
reads its tables in another. So whatever the databases do, no request and no refresh holds more than
one connection of a pool or asks for one while it holds one. As long as every pool has a connection
to give, it is then all the same whether it has one or many: the response does not tell.
-/
namespace SqlGateway

namespace Engine

open Connection (Dealing Pool Session)
open Request (Document Variables)

variable {σ : Type} {e e' : Engine σ} {document : Document} {supplied : Variables} {t : Task}
  {tasks : List Task} {timeout : Duration}

/-- No source is held more than once on the way from an engine to another, nor asked for a
connection while it is held, and everything that was held has come back. -/
def Deals (e e' : Engine σ) : Prop := ∀ name source, e.source? name = some source →
  ∃ source' ds, e'.source? name = some source' ∧ source.pool.Deals ds source'.pool

theorem Deals.refl (e : Engine σ) : e.Deals e := fun _ source h => ⟨source, [], h, .refl _⟩

theorem Deals.trans {e'' : Engine σ} (h : e.Deals e') (k : e'.Deals e'') : e.Deals e'' := by
  intro name source hsource
  obtain ⟨source', ds, hsource', hdeals⟩ := h name source hsource
  obtain ⟨source'', more, hsource'', hmore⟩ := k name source' hsource'
  exact ⟨source'', ds ++ more, hsource'', hdeals.trans hmore⟩

/-- Steps on a source that hold at most one of its connections. -/
theorem deals_withSource {α : Type} {m : SourceM σ α} (hm : DataSource.Modest m)
    {source : DataSource σ} (hsource : e.source? source.name = some source) :
    e.Deals (e.withSource (m source).2) := by
  have hname := hm.name source
  intro name known hknown
  obtain ⟨ds, hdeals⟩ := hm.deals source
  by_cases hsame : name = source.name
  · subst hsame
    obtain rfl := Option.some.inj (hsource.symm.trans hknown)
    refine ⟨(m source).2, ds, ?_, hdeals⟩
    rw [← hname]
    exact source?_withSource_self e _
  · refine ⟨known, [], ?_, .refl _⟩
    rwa [source?_withSource_of_ne e _ (hname ▸ hsame)]

/-- What is run on a source is run in one session, or in none because it is refused. -/
theorem Visited.deals {source source' : DataSource σ} {runs : List (FieldRun σ)}
    {session : Option (Session σ)} (h : Visited timeout source runs session source') :
    ∃ ds, source.pool.Deals ds source'.pool := by
  have started {runs : List (FieldRun σ)} {s : Session σ} (h : Chained timeout source.pool runs s) :
      ∃ first, (Session.start timeout source.pool).1 = .ok first := by
    induction h with
    | start hstart => exact ⟨_, hstart⟩
    | step _ _ ih => exact ih
  cases h with
  | untouched => exact ⟨[], .refl _⟩
  | @held _ _ last hchained _ =>
      obtain ⟨first, hstart⟩ := started hchained
      exact ⟨_, Pool.deals_visit hstart last⟩
  | refused hstart _ =>
      obtain ⟨d, hdeals⟩ := Pool.deals_refused hstart
      exact ⟨[d], hdeals⟩

theorem deals_runTask (he : e.Named) (document : Document) (supplied : Variables) (t : Task) :
    e.Deals (runTask document supplied t e).2 := by
  intro name source hsource
  obtain ⟨source', hsource', hvisited⟩ := runTask_visits he document supplied t hsource
  obtain ⟨ds, hdeals⟩ := hvisited.deals
  exact ⟨source', ds, hsource', hdeals⟩

theorem deals_runEach (he : e.Named) (document : Document) (supplied : Variables)
    (tasks : List Task) : e.Deals (runEach document supplied tasks e).2 := by
  induction tasks generalizing e with
  | nil => exact .refl e
  | cons t rest ih =>
      rw [runEach_cons]
      exact (deals_runTask he document supplied t).trans
        (ih ((restocked_runTask he document supplied t).named he))

theorem deals_runShared (he : e.Named) (document : Document) (supplied : Variables)
    (tasks : List Task) : e.Deals (runShared document supplied tasks e).2 := by
  intro name source hsource
  obtain ⟨source', hsource', hvisited⟩ := runShared_visits he document supplied tasks hsource
  obtain ⟨ds, hdeals⟩ := hvisited.deals
  exact ⟨source', ds, hsource', hdeals⟩

theorem deals_execute (he : e.Named) (s : Submission) : e.Deals (e.execute s).2 := by
  unfold execute
  cases Document.read s.document with
  | error error => exact .refl e
  | ok d =>
      dsimp only
      cases schedule e.defaultSource d s.vars with
      | error error => exact .refl e
      | ok tasks =>
          dsimp only
          split
          · exact deals_runShared he d s.vars tasks
          · exact deals_runEach he d s.vars tasks

theorem deals_refresh (he : e.Named) : e.Deals e.refresh.2 := by
  have along (names : List String) {e : Engine σ} (he : e.Named) : e.Deals { e with
      catalog := (names.foldl (Catalog.refreshNext e.queryTimeout) (.ok (), e.catalog)).2 } := by
    induction names generalizing e with
    | nil => exact .refl e
    | cons name rest ih =>
        rw [List.foldl_cons, Catalog.refreshNext]
        cases hsource : e.catalog.sources.get? name with
        | none => exact ih he
        | some source =>
            obtain rfl := he name source hsource
            have hfirst := deals_withSource (DataSource.modest_refresh e.queryTimeout) hsource
            dsimp only
            rcases hrun : DataSource.refresh e.queryTimeout source with ⟨error | _, read⟩
            · rw [hrun] at hfirst
              rw [Catalog.refreshNext_of_error]
              exact hfirst
            · rw [hrun] at hfirst
              exact hfirst.trans (ih (he.withSource read))
  have hrefresh : e.refresh.2 = { e with catalog := (e.catalog.refreshAll e.queryTimeout).2 } := rfl
  rw [hrefresh, Catalog.refreshAll_eq]
  exact along _ he

/-- A request never waits for its own connection, nor does a refresh. Whatever the databases do, at
every moment it has at most one connection of each source, and it asks for one only while it has
none. So if nobody else uses the pools, the only connection that a pool may have to give is always
there; and it makes no difference to the response, or to what a refresh comes to, how many there
are. -/
theorem one_connection_of_each_pool (he : e.Named) :
    (∀ s, e.Deals (e.execute s).2) ∧ e.Deals e.refresh.2 ∧
      (e.Offers → ∀ n, (∀ s, ((e.offering (n + 1)).execute s).1 = (e.execute s).1) ∧
        (e.offering (n + 1)).refresh.1 = e.refresh.1) := by
  refine ⟨deals_execute he, deals_refresh he, fun hoffers n => ⟨fun s => ?_, ?_⟩⟩
  · exact (twins_offering he hoffers n).execute s
  · exact (twins_offering he hoffers n).refresh (keys_offering _ e)

/-- The pool of the shop has one connection to give. Two fields have it one after the other, or both
of them in turn; and a refresh has it twice. -/
theorem one_connection_of_each_pool_annServed :
    let e := shopAnswering .passThrough [.empty, Execution.keyRow 1, Execution.keyRow 11]
    e.Named ∧ e.Offers ∧ e.dealings "shop" = [] ∧
      (e.execute annServed).2.dealings "shop" = [.given, .returned] ∧
      (e.execute { annServed with singleTransaction := false }).2.dealings "shop" =
        [.given, .returned, .given, .returned] ∧
      e.refresh.2.dealings "shop" = [.given, .returned, .given, .returned] ∧
      (∀ s, e.Deals (e.execute s).2) ∧ e.Deals e.refresh.2 ∧
      ∀ n, (∀ s, ((e.offering (n + 1)).execute s).1 = (e.execute s).1) ∧
        (e.offering (n + 1)).refresh.1 = e.refresh.1 := by
  intro e
  have he : e.Named := (journalsAll_shopAnswering _ _).named
  have hoffers : e.Offers := by
    intro name source hsource
    obtain ⟨rfl, -⟩ := of_source?_only rfl hsource
    exact Nat.one_ne_zero
  obtain ⟨hexecute, hrefresh, hsame⟩ := one_connection_of_each_pool he
  exact ⟨he, hoffers, by decide +kernel, by decide +kernel, by decide +kernel, by decide +kernel,
    hexecute, hrefresh, hsame hoffers⟩

end Engine

end SqlGateway
