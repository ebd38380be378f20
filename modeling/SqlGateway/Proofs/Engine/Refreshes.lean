import SqlGateway.Proofs.Engine.Requests
import SqlGateway.Proofs.Schema.ActivationOrder

/-!
# Refreshes

A refresh reads the tables of a data source into a registry aside. If anything fails on the way, the
registry that requests are served with is the one from before. And on a server that goes on
answering the same, the first refresh says all: the tables are captured where they stand, every
table that is to be active is active already, and the joins that its foreign keys stand for are
there.
-/
namespace SqlGateway

namespace Schema.Registry

variable {r r' : Registry} {tables : List String} {defaultSchema : String} {captured : List Column}

/-- Tables that were activated one after another were all found, and nothing but them became
active. -/
theorem Orderly.foldlM_activate (h : r.Orderly) (hok : tables.foldlM Registry.activate r = .ok r') :
    r'.Orderly ∧ r'.defaultSchema = r.defaultSchema ∧ (∀ name, r'.found? name = r.found? name) ∧
      (∀ name, r'.hasTable name = true ↔ name ∈ tables ∨ r.hasTable name = true) ∧
      ∀ table ∈ tables, r.found? table ≠ none := by
  induction tables generalizing r with
  | nil =>
      obtain rfl := pure_eq_ok.mp hok
      exact ⟨h, rfl, fun _ => rfl, by simp, List.forall_mem_nil _⟩
  | cons table rest ih =>
      obtain ⟨next, hnext, hrest⟩ := bind_eq_ok.mp hok
      obtain ⟨columns, hcolumns, -⟩ := h.activate_ok hnext
      obtain ⟨hr', hschema, hfound, hactive, hall⟩ := ih (h.activate hnext) hrest
      have hsame := h.found?_activate hnext
      refine ⟨hr', hschema.trans (h.activate_frame hnext).1,
        fun name => (hfound name).trans (hsame name), fun name => ?_,
        List.forall_mem_cons.mpr ⟨by simp [hcolumns], fun t ht => hsame t ▸ hall t ht⟩⟩
      rw [hactive, h.hasTable_activate hnext, Bool.or_eq_true, beq_iff_eq, List.mem_cons]
      tauto

/-- Captured columns, with nothing active and no joins. -/
theorem brought_capture (defaultSchema : String) (captured : List Column) :
    ((empty defaultSchema).capture captured).Brought []
    ((empty defaultSchema).capture captured) := by
  have hempty := orderly_empty defaultSchema
  have hnone (name : String) : ((empty defaultSchema).capture captured).hasTable name = false :=
    hempty.hasTable_capture captured name
  obtain ⟨active, inactive, hframe⟩ := hempty.capture_frame captured
  have hactive : ((empty defaultSchema).capture captured).active = [] := by
    refine List.eq_nil_iff_forall_not_mem.mpr fun entry hentry => ?_
    have hhas := hasTable_iff.mpr (List.mem_map_of_mem hentry)
    rw [hnone] at hhas
    cases hhas
  exact ⟨hempty.capture captured, inferred_of_empty hactive (by rw [hframe]; rfl), rfl, rfl, rfl,
    fun name => by simp [hnone], fun _ => rfl⟩

/-- Capturing the same columns once more changes nothing. -/
theorem Brought.recapture (h : ((empty defaultSchema).capture captured).Brought tables r) :
    r.capture captured = r := by
  have hempty := orderly_empty defaultSchema
  obtain ⟨active, inactive, hbase⟩ := hempty.capture_frame captured
  obtain ⟨active', inactive', hframe⟩ := h.orderly.capture_frame captured
  have hschema : r.defaultSchema = defaultSchema := h.schema.trans (by rw [hbase]; rfl)
  refine h.orderly.ext (h.orderly.capture captured) (by rw [hframe]) (by rw [hframe])
    (by rw [hframe])
    (h.orderly.hasTable_capture captured) (fun name => ?_) (fun key => by rw [hframe])
  have hsame : r.capturedOf captured name = (empty defaultSchema).capturedOf captured name := by
    simp only [capturedOf, tableKey, hschema]
    rfl
  rw [h.orderly.found?_capture, h.found, hempty.found?_capture, hsame]
  split_ifs <;> rfl

end Schema.Registry

namespace Connection

variable {σ α : Type}

/-- A call comes back in time with a value, and the server is in one of its states still. -/
structure Replies (states : σ → Prop) (limit : Duration) (run : Reply α × σ) (v : α) : Prop where
  result : run.1.result = .ok v
  timely : run.1.delay.nanoseconds ≤ limit.nanoseconds
  stays : states run.2

/-- A server that goes on answering what a refresh asks: whichever of its states it is in, it can be
connected to, it shows that it is alive, and it gives the same result for the default schema and the
same for the metadata. What it makes of other statements is open. -/
structure Steady (d : Driver σ) (states : σ → Prop) (patience acquireTimeout : Duration)
    (schema metadata : ResultSet) : Prop where
  connect : ∀ a, states a → Replies states acquireTimeout (d.connect a) ()
  probe : ∀ a, states a → ∃ r, Replies states patience (d.query d.dialect.probeQuery [] a) r
  defaultSchema : ∀ a, states a →
    Replies states patience (d.query d.dialect.defaultSchemaQuery [] a) schema
  metadata : ∀ a, states a → Replies states patience (d.query d.dialect.metadataQuery [] a) metadata

/-- A pool of connections to a server in one of its states, with one to give. -/
structure Pool.Serves (d : Driver σ) (states : σ → Prop) (acquireTimeout : Duration) (p : Pool σ) :
    Prop where
  driver : p.driver = d
  acquireTimeout : p.limits.acquireTimeout = acquireTimeout
  available : 0 < p.available
  server : states p.server

namespace Session

variable {d : Driver σ} {states : σ → Prop} {patience acquireTimeout timeout : Duration}
  {schema metadata : ResultSet} {s : Session σ}

/-- A session on a server in one of its states, that waits long enough for it. -/
structure Heeds (d : Driver σ) (states : σ → Prop) (patience : Duration) (s : Session σ) :
    Prop where
  driver : s.driver = d
  timeout : patience.nanoseconds ≤ s.timeout.nanoseconds
  server : states s.server

/-- A step succeeds on every such session, and leaves one. -/
def Succeeds (d : Driver σ) (states : σ → Prop) (patience : Duration) (m : SessionM σ α)
    (accepts : α → Prop) : Prop :=
  ∀ s, Heeds d states patience s →
    ∃ v s', m s = (.ok v, s') ∧ accepts v ∧ Heeds d states patience s'

theorem Heeds.query (hs : Heeds d states patience s) (sql : String) (document : Nat)
    {r : ResultSet} (hreply : Replies states patience (d.query sql [] s.server) r) :
    ∃ s', Session.query sql [] document s = (.ok r, s') ∧ Heeds d states patience s' := by
  have hresult := hreply.result
  have htimely : ¬ s.timeout.nanoseconds < (d.query sql [] s.server).1.delay.nanoseconds :=
    Nat.not_lt.mpr (hreply.timely.trans hs.timeout)
  have hstays := hreply.stays
  unfold Session.query Session.call
  simp only [ExceptT.mk, StateT.run, hs.driver]
  rcases hcall : d.query sql [] s.server with ⟨⟨delay, result⟩, server⟩
  rw [hcall] at hresult htimely hstays
  dsimp only at hresult htimely hstays ⊢
  rw [if_neg htimely, hresult]
  exact ⟨_, rfl, rfl, hs.timeout, hstays⟩

/-- A pool that serves gives a session that heeds the server. -/
theorem exists_start {p : Pool σ} (h : Steady d states patience acquireTimeout schema metadata)
    (hp : p.Serves d states acquireTimeout)
    (htimeout : patience.nanoseconds ≤ timeout.nanoseconds) :
    ∃ s pool, start timeout p = (.ok s, pool) ∧ Heeds d states patience s ∧ pool.driver = d ∧
      pool.limits.acquireTimeout = acquireTimeout := by
  have hacquire : ∃ lease pool, p.acquire = (.ok lease, pool) ∧ pool.driver = d ∧
      pool.limits.acquireTimeout = acquireTimeout ∧ states pool.server := by
    unfold Pool.acquire
    rw [if_neg (Nat.pos_iff_ne_zero.mp hp.available)]
    split
    · exact ⟨_, _, rfl, hp.driver, hp.acquireTimeout, hp.server⟩
    · obtain ⟨hresult, htimely, hstays⟩ := h.connect p.server hp.server
      have htimely := Nat.not_lt.mpr htimely
      unfold Pool.open_
      simp only [StateT.run, hp.driver, hp.acquireTimeout]
      rcases hcall : d.connect p.server with ⟨⟨delay, result⟩, server⟩
      rw [hcall] at hresult htimely hstays
      dsimp only at hresult htimely hstays ⊢
      rw [if_neg htimely, hresult]
      exact ⟨_, _, rfl, rfl, hp.acquireTimeout, hstays⟩
  obtain ⟨lease, pool, hrun, hdriver, hlimit, hserver⟩ := hacquire
  unfold Session.start
  rw [hrun]
  exact ⟨_, _, rfl, ⟨hdriver, htimeout, hserver⟩, hdriver, hlimit⟩

theorem Heeds.finish (hs : Heeds d states patience s) {p : Pool σ} (hdriver : p.driver = d)
    (hlimit : p.limits.acquireTimeout = acquireTimeout) :
    (s.finish p).Serves d states acquireTimeout := by
  have hreleased (lease : Lease) :
      (({ p with clock := s.clock, server := s.server } : Pool σ).release lease).Serves d states
        acquireTimeout := by
    unfold Pool.release
    dsimp only
    split
    · exact ⟨hdriver, hlimit, Nat.succ_pos _, hs.server⟩
    · exact ⟨hdriver, hlimit, Nat.succ_pos _, hs.server⟩
  exact hreleased _

end Session

end Connection

namespace DataSource

open Connection (Driver Reply Pool Session SessionM Steady)
open Schema (Column Registry)

variable {σ α : Type} {source first : DataSource σ} {defaultSchema : String} {columns : List Column}
  {r : Registry}

/-- A source that has read its tables into an empty registry reads the same registry when it reads
them again. -/
theorem refreshed_again (hfresh : source.schema = .empty "")
    (hok : source.refreshed defaultSchema columns = .ok r) (hapart : r.KeysApart r.active.keys)
    (hsettings : first.tables = source.tables ∧ first.activateAll = source.activateAll)
    (hschema : first.schema = r) : first.refreshed defaultSchema columns = .ok r := by
  let base := (Registry.empty defaultSchema).capture columns
  let tables := source.tablesToActivate base
  have hbase : base.Brought [] base := Registry.brought_capture defaultSchema columns
  have hrun : tables.foldlM Registry.activate base = .ok r := by
    rw [refreshed, hfresh] at hok
    exact hok
  obtain ⟨-, hdefault, hfound, hactive, hall⟩ := hbase.orderly.foldlM_activate hrun
  have hkeys : base.KeysApart tables := by
    intro t ht t' ht' x hx x' hx'
    have hmem {name : String} (hname : name ∈ tables) : name ∈ r.active.keys :=
      Registry.hasTable_iff.mp ((hactive name).mpr (.inl hname))
    rw [← Registry.references_congr hdefault (hfound _)] at hx hx'
    exact hapart t (hmem ht) t' (hmem ht') x hx x' hx'
  obtain ⟨r₁, hr₁, hbrought⟩ := hbase.run hkeys (List.nil_subset _) (List.Subset.refl tables) hall
  obtain rfl : r₁ = r := Except.ok.inj (hr₁.symm.trans hrun)
  have hcaptured : { first.schema with defaultSchema }.capture columns = r₁ := by
    have hsame : { first.schema with defaultSchema } = r₁ := by
      rw [hschema]
      obtain ⟨_, _, hframe⟩ := (Registry.orderly_empty defaultSchema).capture_frame columns
      have hname : r₁.defaultSchema = defaultSchema :=
        hdefault.trans (by simp only [base]; rw [hframe]; rfl)
      rw [← hname]
    rw [hsame]
    exact hbrought.recapture
  -- Every table that is to be active now was to be active at first.
  have hsub : first.tablesToActivate r₁ ⊆ tables := by
    intro name hname
    simp only [tables, tablesToActivate, hsettings.1, hsettings.2] at hname ⊢
    split_ifs at hname ⊢ with hevery
    · have hknown : r₁.found? name ≠ none := fun hnone => by
        obtain ⟨hnot, hnot'⟩ := Registry.found?_eq_none_iff.mp hnone
        exact (List.mem_append.mp hname).elim hnot' hnot
      rw [hfound, Ne, Registry.found?_eq_none_iff, not_and_or, not_not, not_not] at hknown
      exact List.mem_append.mpr hknown.symm
    · exact hname
  obtain ⟨r₂, hr₂, hagain⟩ := hbrought.run hkeys (by simp) hsub fun t ht => hall t (hsub ht)
  have hr : r₂ = r₁ := hbrought.unique hagain fun t => by
    simp only [List.mem_append, List.mem_reverse, List.not_mem_nil, or_false]
    exact ⟨fun h => h.elim (fun h => hsub h) id, .inr⟩
  rw [refreshed, hcaptured, hr₂, hr]

/-- The question after a sign of life. -/
def probe : SessionM σ ResultSet := do
  Session.query (← get).dialect.probeQuery [] 0

theorem ping_run (timeout : Duration) (source : DataSource σ) : ping timeout source =
    match inSession timeout probe source with
    | (.ok _, source) => (.ok (), { source with connected := true })
    | (.error e, source) =>
        (.error (.connectionUnavailable e.message), { source with connected := false }) := by
  have hping :
    ping timeout = tryCatch (discard (inSession timeout probe) >>= fun _ => setConnected true)
      fun e : Error =>
        setConnected false >>= fun _ =>
          (throw (.connectionUnavailable e.message) : SourceM σ Unit) := rfl
  rw [hping, run_tryCatch, run_bind, run_discard]
  rcases inSession timeout probe source with ⟨_ | _, s⟩ <;> rfl

/-- A refresh looks for a sign of life, reads the tables, and only then takes the registry that they
come to. -/
theorem refresh_run (timeout : Duration) (source : DataSource σ) : refresh timeout source =
    match ping timeout source with
    | (.error e, s) => (.error e, s)
    | (.ok _, s) =>
      match inSession timeout introspect s with
      | (.error e, s) => (.error e, s)
      | (.ok (defaultSchema, metadata), s) =>
        match Source.columns s.dialect metadata >>= s.refreshed defaultSchema with
        | .error e => (.error e, s)
        | .ok schema => (.ok (), { s with schema }) := by
  unfold refresh
  rw [run_bind]
  rcases ping timeout source with ⟨e | _, s⟩
  · rfl
  · dsimp only
    rw [run_bind]
    rcases inSession timeout introspect s with ⟨e | ⟨defaultSchema, metadata⟩, s'⟩
    · rfl
    · have hget : (get : SourceM σ (DataSource σ)) s' = (.ok s', s') := rfl
      have hlift :
          ∀ {β : Type} (r : Except Error β), (liftExcept r : SourceM σ β) s' = (r, s') := by
        intro β r
        cases r <;> rfl
      dsimp only
      rw [run_bind, hget]
      dsimp only
      rw [run_bind, hlift]
      cases Source.columns s'.dialect metadata with
      | error e => rfl
      | ok columns =>
          have hthen : (Except.ok columns >>= s'.refreshed defaultSchema) =
              s'.refreshed defaultSchema columns := rfl
          dsimp only
          rw [run_bind, hlift, hthen]
          cases s'.refreshed defaultSchema columns <;> rfl

/-- The registry that a source reads from the results for its default schema and its metadata. -/
def read (source : DataSource σ) (dialect : Dialect) (schema metadata : ResultSet) :
    Except Error Registry :=
  Source.columns dialect metadata >>=
    source.refreshed (((schema.rows.head?.bind List.head?).bind Source.cellText?).getD "")

/-- A refresh that fails leaves the registry that requests are served with. -/
theorem schema_of_failed_refresh {timeout : Duration} {e : Error} {after : DataSource σ}
    (h : refresh timeout source = (.error e, after)) : after.schema = source.schema := by
  obtain ⟨pool, -, hprobed⟩ := Engine.inSession_source timeout probe source
  have hping : (ping timeout source).2.schema = source.schema := by
    have hprobed := congrArg DataSource.schema hprobed
    rw [ping_run]
    rcases hrun : inSession timeout probe source with ⟨_ | _, s⟩ <;> rwa [hrun] at hprobed
  rw [refresh_run] at h
  rcases hrun : ping timeout source with ⟨_ | _, s⟩
  · rw [hrun] at h hping
    cases h
    exact hping
  · rw [hrun] at h hping
    obtain ⟨pool', -, hread⟩ := Engine.inSession_source timeout introspect s
    have hread := congrArg DataSource.schema hread
    dsimp only at h
    rcases hrun' : inSession timeout introspect s with ⟨_ | ⟨defaultSchema, metadata⟩, s'⟩
    · rw [hrun'] at h hread
      cases h
      exact hread.trans hping
    · rw [hrun'] at h hread
      dsimp only at h
      split at h
      · cases h
        exact hread.trans hping
      · cases h

section Steady
variable {d : Driver σ} {states : σ → Prop} {patience acquireTimeout timeout : Duration}
  {schema metadata : ResultSet} (h : Steady d states patience acquireTimeout schema metadata)
  (htimeout : patience.nanoseconds ≤ timeout.nanoseconds)
include h

theorem succeeds_probe : Session.Succeeds d states patience (probe : SessionM σ ResultSet)
    fun _ => True := by
  intro s hs
  obtain ⟨r, hreply⟩ := h.probe s.server hs.server
  obtain ⟨s', hrun, hs'⟩ := hs.query d.dialect.probeQuery 0 hreply
  refine ⟨r, s', ?_, trivial, hs'⟩
  have hget : (get : SessionM σ (Session σ)) s = (.ok s, s) := rfl
  rw [probe, Session.bind_run, hget]
  dsimp only [Session.dialect]
  rw [hs.driver, hrun]

theorem succeeds_introspect : Session.Succeeds d states patience
    (introspect : SessionM σ (String × ResultSet))
    (· = (((schema.rows.head?.bind List.head?).bind Source.cellText?).getD "", metadata)) := by
  intro s hs
  obtain ⟨s', hasked, hs'⟩ := hs.query d.dialect.defaultSchemaQuery 0 (h.defaultSchema _ hs.server)
  obtain ⟨s'', hread, hs''⟩ := hs'.query d.dialect.metadataQuery 0 (h.metadata _ hs'.server)
  refine ⟨_, s'', ?_, rfl, hs''⟩
  have hget : (get : SessionM σ (Session σ)) s = (.ok s, s) := rfl
  rw [introspect, Session.bind_run, hget]
  dsimp only [Session.dialect]
  rw [hs.driver, Session.bind_run, hasked]
  dsimp only
  rw [Session.bind_run, hread]
  rfl

include htimeout

/-- A step that succeeds on the server succeeds in a session of its own. -/
theorem exists_inSession {steps : SessionM σ α} {accepts : α → Prop}
    (hsteps : Session.Succeeds d states patience steps accepts)
    (hsource : source.pool.Serves d states acquireTimeout) :
    ∃ v pool, inSession timeout steps source = (.ok v, { source with pool }) ∧ accepts v ∧
      pool.Serves d states acquireTimeout := by
  obtain ⟨s, pool, hstart, hs, hdriver, hlimit⟩ := Session.exists_start h hsource htimeout
  obtain ⟨v, s', hrun, hv, hs'⟩ := hsteps s hs
  have hin := Engine.inSession_run timeout steps source
  change inSession timeout steps source = _ at hin
  rw [hstart] at hin
  dsimp only at hin
  rw [hrun] at hin
  exact ⟨v, _, hin, hv, hs'.finish hdriver hlimit⟩

/-- On such a server a refresh comes to what the source makes of the two results. -/
theorem refresh_of_steady (hsource : source.pool.Serves d states acquireTimeout) : ∃ pool,
    pool.Serves d states acquireTimeout ∧ refresh timeout source =
      match source.read d.dialect schema metadata with
      | .error e => (.error e, { source with pool, connected := true })
      | .ok schema => (.ok (), { source with pool, connected := true, schema }) := by
  obtain ⟨r, asked, hasked, -, hserves⟩ := exists_inSession h htimeout (succeeds_probe h) hsource
  have hping :
      ping timeout source = (.ok (), { source with pool := asked, connected := true }) := by
    rw [ping_run, hasked]
  let alive : DataSource σ := { source with pool := asked, connected := true }
  have halive : alive.pool.Serves d states acquireTimeout := hserves
  obtain ⟨_, pool, hread, rfl, hserves'⟩ :=
    exists_inSession h htimeout (succeeds_introspect h) halive
  refine ⟨pool, hserves', ?_⟩
  rw [refresh_run, hping]
  dsimp only
  rw [hread]
  dsimp only [dialect]
  rw [hserves'.driver]
  rfl

omit htimeout

/-- A source that reads the registry that it has keeps it through refreshes, all of which
succeed. -/
theorem refreshes_of_settled {timeouts : List Duration}
    (htimeouts : ∀ t ∈ timeouts, patience.nanoseconds ≤ t.nanoseconds)
    (hsource : source.pool.Serves d states acquireTimeout)
    (hsettled : source.read d.dialect schema metadata = .ok source.schema) :
    ∃ last, (timeouts.forM refresh : SourceM σ Unit) source = (.ok (), last) ∧
    last.schema = source.schema := by
  induction timeouts generalizing source with
  | nil => exact ⟨source, rfl, rfl⟩
  | cons timeout rest ih =>
      obtain ⟨htimeout, hrest⟩ := List.forall_mem_cons.mp htimeouts
      obtain ⟨pool, hserves, hrefresh⟩ := refresh_of_steady h htimeout hsource
      rw [hsettled] at hrefresh
      let source' : DataSource σ := { source with pool, connected := true }
      have hserves' : source'.pool.Serves d states acquireTimeout := hserves
      obtain ⟨last, hlast, hschema⟩ := ih hrest hserves' hsettled
      refine ⟨last, ?_, hschema⟩
      change (refresh timeout >>= fun _ => rest.forM refresh) source = _
      rw [run_bind, hrefresh]
      exact hlast

end Steady

/-- On a server that goes on answering the same, a new data source that has been refreshed once can
be refreshed any number of times, each time with success and without a change of its registry, if no
foreign keys of different active tables come under one key. And a refresh that fails, of whatever
source and at whichever step, leaves the registry from before. -/
theorem refresh_is_all_or_nothing_and_idempotent :
    (∀ (timeout : Duration) (source after : DataSource σ) (e : Error),
      refresh timeout source = (.error e, after) → after.schema = source.schema) ∧
    ∀ (find : DriverFinder σ) (name : String) (config : Config.SourceConfig)
      (source first : DataSource σ)
      (states : σ → Prop) (patience timeout : Duration) (schema metadata : ResultSet),
      DataSource.new find name config = .ok source →
      Steady source.pool.driver states patience source.pool.limits.acquireTimeout schema metadata →
      states source.pool.server → patience.nanoseconds ≤ timeout.nanoseconds →
      refresh timeout source = (.ok (), first) → first.schema.KeysApart first.schema.active.keys →
      ∀ timeouts : List Duration, (∀ t ∈ timeouts, patience.nanoseconds ≤ t.nanoseconds) →
        ∃ last, (timeouts.forM refresh : SourceM σ Unit) first = (.ok (), last) ∧
        last.schema = first.schema := by
  refine ⟨fun _ _ _ _ h => schema_of_failed_refresh h, ?_⟩
  intro find name config source first states patience timeout schema metadata hnew hsteady hserver
    htimeout hok hapart timeouts htimeouts
  obtain ⟨dialect, -, hnew⟩ := bind_eq_ok.mp hnew
  obtain ⟨⟨driver, server⟩, -, hnew⟩ := bind_eq_ok.mp hnew
  have hfresh : source.schema = .empty "" := by rw [← pure_eq_ok.mp hnew]
  have havailable : 0 < source.pool.available := by
    rw [← pure_eq_ok.mp hnew]
    exact Nat.le_max_right _ _
  obtain ⟨pool, hserves, hrefresh⟩ :=
    refresh_of_steady hsteady htimeout ⟨rfl, rfl, havailable, hserver⟩
  rw [hok] at hrefresh
  split at hrefresh
  · cases hrefresh
  next r hread =>
    obtain ⟨columns, hcolumns, hread⟩ := bind_eq_ok.mp hread
    obtain rfl := (Prod.mk.inj hrefresh).2
    refine refreshes_of_settled hsteady htimeouts hserves ?_
    rw [read, hcolumns]
    exact refreshed_again hfresh hread hapart ⟨rfl, rfl⟩ rfl

-- A server with users and their orders, and a source of all its tables.
/-- A row of metadata about a column of integers, with the table it refers to if there is one. -/
def shopRow (table column : String) (primary : Bool) (refers : Cell) : List Cell :=
  [.text "public", .text table, .text column, .text "integer", .bool primary, .bool primary,
    .bool false, .null,
    .int 1, .null, .bool false, .null, .null, .null, .null, refers, .text "id", .null]

def shopMetadata : ResultSet :=
  { ResultSet.empty with
    columns := Dialect.metadataColumns.map fun name => ⟨name, "text", .text⟩
    rows := [shopRow "orders" "id" true .null, shopRow "orders" "user_id" false (.text "users"),
      shopRow "users" "id" true .null] }

def shopDefaultSchema : ResultSet := { ResultSet.empty with rows := [[.text "public"]] }

/-- It answers what a refresh asks, and refuses everything else. -/
def shopAnswer (sql : String) : Except Connection.DriverError ResultSet :=
  if sql = Dialect.postgres.probeQuery then .ok .empty
  else if sql = Dialect.postgres.defaultSchemaQuery then .ok shopDefaultSchema
  else if sql = Dialect.postgres.metadataQuery then .ok shopMetadata
  else .error (.task "refused")

def shopServer : Driver Unit where
  dialect := .postgres
  description := "shop"
  connect := fun a => (.now (.ok ()), a)
  query := fun sql _ a => (.now (shopAnswer sql), a)
  execute := fun _ _ a => (.now (.error (.task "refused")), a)
  batch := fun _ a => (.now (.error (.task "refused")), a)

def shopFinder : DriverFinder Unit := fun _ _ => .ok (shopServer, ())

/-- The settings of a source of the tables named, or of all of them. -/
def shopConfig (tables : List String) (activateAll : Bool) : Config.SourceConfig :=
  { Config.SourceConfig.default with tables, activateAll }

def shopSourceOf (tables : List String) (activateAll : Bool) : DataSource Unit where
  name := "shop"
  tables := tables
  activateAll := activateAll
  pool := .new shopServer Config.PoolConfig.default.limits ()
  schema := .empty ""
  connected := false

set_option maxRecDepth 8000 in
theorem metadataQuery_ne : Dialect.postgres.metadataQuery ≠ Dialect.postgres.probeQuery ∧
    Dialect.postgres.metadataQuery ≠ Dialect.postgres.defaultSchemaQuery := by
  decide +kernel

theorem replies_shopServer {sql : String} {r : ResultSet} (h : shopAnswer sql = .ok r) (a : Unit) :
    Connection.Replies (fun _ => True) ⟨0⟩ (shopServer.query sql [] a) r :=
  ⟨h, Nat.zero_le _, trivial⟩

theorem shopAnswer_metadataQuery :
    shopAnswer Dialect.postgres.metadataQuery = .ok shopMetadata := by
  rw [shopAnswer, if_neg metadataQuery_ne.1, if_neg metadataQuery_ne.2]
  exact if_pos rfl

theorem steady_shopServer :
    Steady shopServer (fun _ => True) ⟨0⟩ ⟨30000000000⟩ shopDefaultSchema shopMetadata where
  connect _ _ := ⟨rfl, Nat.zero_le _, trivial⟩
  probe a _ := ⟨.empty, replies_shopServer (by rw [shopAnswer]; exact if_pos rfl) a⟩
  defaultSchema a _ :=
    replies_shopServer (by rw [shopAnswer, if_neg (by decide +kernel)]; exact if_pos rfl) a
  metadata a _ := replies_shopServer shopAnswer_metadataQuery a

theorem refresh_is_all_or_nothing_and_idempotent_shop :
    (∃ first last, DataSource.new shopFinder "shop" (shopConfig [] true) =
      .ok (shopSourceOf [] true) ∧
      refresh ⟨0⟩ (shopSourceOf [] true) = (.ok (), first) ∧ first.schema.active.keys =
        ["orders", "users"] ∧
      ([⟨5⟩, ⟨0⟩].forM refresh : SourceM Unit Unit) first = (.ok (), last) ∧
      last.schema = first.schema) ∧
    ∃ after e, refresh ⟨0⟩ (shopSourceOf ["users", "carts"] false) = (.error e, after) ∧
      after.schema = .empty "" := by
  obtain ⟨hkept, hagain⟩ := refresh_is_all_or_nothing_and_idempotent (σ := Unit)
  have hserves (tables : List String) (activateAll : Bool) :
      (shopSourceOf tables activateAll).pool.Serves shopServer (fun _ => True) ⟨30000000000⟩ :=
    ⟨rfl, rfl, Nat.le_max_right _ _, trivial⟩
  constructor
  · obtain ⟨pool, -, hrefresh⟩ :=
      refresh_of_steady steady_shopServer (Nat.zero_le 0) (hserves [] true)
    obtain ⟨r, hread, hkeys, hapart⟩ : ∃ r,
        (shopSourceOf [] true).read shopServer.dialect shopDefaultSchema shopMetadata = .ok r ∧
          r.active.keys = ["orders", "users"] ∧ r.KeysApart r.active.keys :=
      ⟨_, rfl, by decide +kernel, by unfold Registry.KeysApart; decide +kernel⟩
    rw [hread] at hrefresh
    obtain ⟨last, hlast, hsame⟩ :=
      hagain shopFinder "shop" (shopConfig [] true) _ _ (fun _ => True) ⟨0⟩ ⟨0⟩
      shopDefaultSchema shopMetadata rfl steady_shopServer trivial (Nat.zero_le 0) hrefresh
        hapart [⟨5⟩, ⟨0⟩]
      fun t _ => Nat.zero_le t.nanoseconds
    exact ⟨_, last, rfl, hrefresh, hkeys, hlast, hsame⟩
  · obtain ⟨pool, -, hrefresh⟩ := refresh_of_steady steady_shopServer (Nat.zero_le 0)
      (hserves ["users", "carts"] false)
    have hread : (shopSourceOf ["users", "carts"] false).read shopServer.dialect shopDefaultSchema
      shopMetadata =
        .error (Registry.missingTable "carts") := rfl
    rw [hread] at hrefresh
    exact ⟨_, _, hrefresh, hkept ⟨0⟩ _ _ _ hrefresh⟩

end DataSource

end SqlGateway
