import SqlGateway.Proofs.Connection.Brackets

/-!
# Steps between stages

Every step on a session leads from a stage of its transaction to another, and the statements that it
sends are what leads there. What a step may lead to is told apart by its result; the rules put this
together along sequences and handlers, so that a run is judged by its single statements.
-/
namespace SqlGateway.Connection

namespace Session

variable {σ α β : Type} {d : Driver σ} {timeout : Duration} {a b : Stage}
  {s : Session (Journaled σ)}

/-- A session on a journaled driver at a stage of its transaction. -/
structure At (d : Driver σ) (timeout : Duration) (s : Session (Journaled σ)) (a : Stage) :
    Prop where
  driver : s.driver = d.journaled
  timeout : s.timeout = timeout
  inTransaction : s.inTransaction = a.isOpen

theorem At.dialect (h : At d timeout s a) : s.dialect = d.dialect := by
  rw [Session.dialect, h.driver]
  rfl

/-- A session by itself is outside of a transaction or inside of one. -/
theorem exists_at (hs : s.driver = d.journaled) : ∃ a, At d s.timeout s a := by
  cases hopen : s.inTransaction with
  | false => exact ⟨.unopened, hs, rfl, hopen⟩
  | true => exact ⟨.running, hs, rfl, hopen⟩

/-- A session has come from a stage, with a given journal, to another stage by sending
statements. -/
structure Passes (d : Driver σ) (timeout : Duration) (before : List Entry)
    (s : Session (Journaled σ)) (a : Stage) (sent : List Entry) (b : Stage) : Prop where
  journal : s.journal = before ++ sent
  steps : Stage.Steps d.dialect timeout a sent b
  at_ : At d timeout s b

theorem Passes.refl (h : At d timeout s a) : Passes d timeout s.journal s a [] a :=
  ⟨(List.append_nil _).symm, .nil, h⟩

theorem Passes.trans {before : List Entry} {s' : Session (Journaled σ)} {c : Stage}
    {sent more : List Entry} (h : Passes d timeout before s a sent b)
    (k : Passes d timeout s.journal s' b more c) : Passes d timeout before s' a (sent ++ more) c :=
  ⟨by rw [k.journal, h.journal, List.append_assoc], h.steps.trans k.steps, k.at_⟩

/-- What is said of a result and of the stage that it comes at. -/
def Ends (ok : α → Stage → Prop) (failed : Stage → Prop) : Except Error α → Stage → Prop
  | .ok x, b => ok x b
  | .error _, b => failed b

theorem Ends.of_ok {ok : α → Stage → Prop} {failed : Stage → Prop} {r : Except Error α} {x : α}
    (h : Ends ok failed r b) (hr : r = .ok x) : ok x b := by
  rw [hr] at h
  exact h

theorem Ends.imp {ok : α → Stage → Prop} {failed : Stage → Prop} {r : Except Error α} {p : Prop}
    (h : Ends ok failed r b) (hok : ∀ x, ok x b → p) (hfailed : failed b → p) : p := by
  cases r with
  | ok x => exact hok x h
  | error e => exact hfailed h

/-- From a stage a step on a session leads to stages that are allowed for its result. -/
def Leads (d : Driver σ) (timeout : Duration) (a : Stage) (m : SessionM (Journaled σ) α)
    (ok : α → Stage → Prop) (failed : Stage → Prop) : Prop :=
  ∀ s, At d timeout s a →
    ∃ sent b, Passes d timeout s.journal (m s).2 a sent b ∧ Ends ok failed (m s).1 b

section Rules
variable {m : SessionM (Journaled σ) α} {ok : α → Stage → Prop} {failed : Stage → Prop}

theorem Leads.weaken {ok' : α → Stage → Prop} {failed' : Stage → Prop}
    (h : Leads d timeout a m ok failed) (hok : ∀ x b, ok x b → ok' x b)
    (hfailed : ∀ b, failed b → failed' b) : Leads d timeout a m ok' failed' := by
  intro s hs
  obtain ⟨sent, b, hpasses, hends⟩ := h s hs
  refine ⟨sent, b, hpasses, ?_⟩
  cases hresult : (m s).1 with
  | ok x => exact hok x b (hends.of_ok hresult)
  | error e =>
      rw [hresult] at hends
      exact hfailed b hends

theorem leads_pure {x : α} (h : ok x a) : Leads d timeout a (pure x) ok failed :=
  fun _ hs => ⟨[], a, .refl hs, h⟩

theorem leads_throw {e : Error} (h : failed a) :
    Leads d timeout a (throw e : SessionM (Journaled σ) α) ok failed :=
  fun _ hs => ⟨[], a, .refl hs, h⟩

theorem Leads.bind {f : α → SessionM (Journaled σ) β} {mid : α → Stage → Prop}
    {ok : β → Stage → Prop} (hm : Leads d timeout a m mid failed)
    (hf : ∀ x b, mid x b → Leads d timeout b (f x) ok failed) :
    Leads d timeout a (m >>= f) ok failed := by
  intro s hs
  obtain ⟨sent, b, hpasses, hends⟩ := hm s hs
  rw [bind_run]
  rcases hrun : m s with ⟨result, s'⟩
  rw [hrun] at hpasses hends
  cases result with
  | ok x =>
      obtain ⟨more, c, hmore, hlast⟩ := hf x b hends s' hpasses.at_
      exact ⟨sent ++ more, c, hpasses.trans hmore, hlast⟩
  | error e => exact ⟨sent, b, hpasses, hends⟩

theorem Leads.tryCatch {handle : Error → SessionM (Journaled σ) α} {caught : Stage → Prop}
    (hm : Leads d timeout a m ok caught)
    (hhandle : ∀ e b, caught b → Leads d timeout b (handle e) ok failed) :
    Leads d timeout a (tryCatch m handle) ok failed := by
  intro s hs
  obtain ⟨sent, b, hpasses, hends⟩ := hm s hs
  rw [tryCatch_run]
  rcases hrun : m s with ⟨result, s'⟩
  rw [hrun] at hpasses hends
  cases result with
  | ok x => exact ⟨sent, b, hpasses, hends⟩
  | error e =>
      obtain ⟨more, c, hmore, hlast⟩ := hhandle e b hends s' hpasses.at_
      exact ⟨sent ++ more, c, hpasses.trans hmore, hlast⟩

theorem leads_get {f : Session (Journaled σ) → SessionM (Journaled σ) α}
    (hf : ∀ s, At d timeout s a → Leads d timeout a (f s) ok failed) :
    Leads d timeout a (get >>= f) ok failed := by
  intro s hs
  have hget : (get : SessionM (Journaled σ) _) s = (.ok s, s) := rfl
  rw [bind_run, hget]
  exact hf s hs s hs

end Rules

/-- A statement that was put leads where the stage allows it. -/
theorem Puts.passes {statement : Statement} {run : Except Error α × Session (Journaled σ)}
    {e : Entry} (h : Puts d statement s run e) (hs : At d timeout s a)
    (hstep : Stage.Step d.dialect timeout a e b)
    (hopen : b.isOpen = a.isOpen) : Passes d timeout s.journal run.2 a [e] b :=
  ⟨h.journal, hstep.steps, h.driver, h.timeout.trans hs.timeout,
    h.inTransaction.trans (hs.inTransaction.trans hopen.symm)⟩

theorem leads_data {m : SessionM (Journaled σ) α} {sql : String} {parameters : List Json}
    (h : ∀ s : Session (Journaled σ), s.driver = d.journaled →
      ∃ e, Puts d (.data sql parameters) s (m s) e) :
    Leads d timeout .running m (fun _ b => b = .running) (· = .failing) := by
  intro s hs
  obtain ⟨e, hputs⟩ := h s hs.driver
  have hdata := Entry.isData_of_eq hputs.statement
  have houtcome := hputs.outcome
  rw [hs.timeout] at houtcome
  rcases houtcome with ⟨x, hresult, hsucceeded⟩ | ⟨err, hresult, hfailed⟩
  · refine ⟨[e], .running, hputs.passes hs (.sent hdata hsucceeded) rfl, ?_⟩
    rw [hresult]
    exact rfl
  · refine ⟨[e], .failing, hputs.passes hs (.failed hdata hfailed) rfl, ?_⟩
    rw [hresult]
    exact rfl

theorem leads_query (sql : String) (parameters : List Json) (document : Nat) :
    Leads d timeout .running (query sql parameters document) (fun _ b => b = .running)
      (· = .failing) :=
  leads_data fun _ hs => query_puts hs sql parameters document

theorem leads_execute (sql : String) (parameters : List Json) (document : Nat) :
    Leads d timeout .running (execute sql parameters document) (fun _ b => b = .running)
      (· = .failing) :=
  leads_data fun _ hs => execute_puts hs sql parameters document

theorem leads_begin :
    Leads d timeout .unopened begin_ (fun _ b => b = .running) (· = .refused) := by
  intro s hs
  obtain ⟨e, hputs⟩ := batch_puts hs.driver s.dialect.beginStatement 0
  have hstatement := hputs.statement
  have houtcome := hputs.outcome
  rw [hs.dialect] at hstatement
  rw [hs.timeout] at houtcome
  rw [begin_run s hs.inTransaction]
  rcases hrun : batch s.dialect.beginStatement 0 s with ⟨result, s'⟩
  rw [hrun] at hputs houtcome
  rcases houtcome with ⟨x, rfl, hsucceeded⟩ | ⟨err, rfl, hfailed⟩
  · have hsteps := (Stage.Step.opened hstatement hsucceeded).steps
    exact ⟨[e], .running,
      ⟨hputs.journal, hsteps, hputs.driver, hputs.timeout.trans hs.timeout, rfl⟩, rfl⟩
  · exact ⟨[e], .refused, hputs.passes hs (.refused hstatement hfailed) rfl, rfl⟩

/-- A rollback ends an open transaction whether the database answers or not. -/
theorem rollback_passes (hs : At d timeout s a) :
    ∃ sent, Passes d timeout s.journal (rollback s).2 a sent a.rolledBack ∧
      ∀ w ∈ sent, w.isData = false := by
  rw [rollback_run, hs.inTransaction]
  cases hopen : a.isOpen with
  | false =>
      rw [Stage.rolledBack_of_closed hopen]
      exact ⟨[], .refl hs, List.forall_mem_nil _⟩
  | true =>
      have hdriver : { s with inTransaction := false : Session _ }.driver = d.journaled := hs.driver
      obtain ⟨r, hputs⟩ := batch_puts hdriver s.dialect.rollbackStatement 0
      have hstatement := hputs.statement
      rw [hs.dialect] at hstatement
      have hclosed := hputs.inTransaction.trans (Stage.rolledBack_isOpen a).symm
      have hsteps : Stage.Steps d.dialect timeout a [r] a.rolledBack :=
        (Stage.Step.undone hopen hstatement).steps
      refine ⟨[r], ⟨hputs.journal, hsteps, hputs.driver, hputs.timeout.trans hs.timeout,
        hclosed⟩, ?_⟩
      exact List.forall_mem_singleton.mpr (Entry.isData_eq_false hstatement)

theorem leads_abandon :
    Leads d timeout a abandon (fun _ b => b = a.rolledBack) (fun _ => False) := by
  intro s hs
  obtain ⟨sent, hpasses, -⟩ := rollback_passes hs
  rw [abandon_run]
  exact ⟨sent, a.rolledBack, hpasses, rfl⟩

/-- A commit keeps the transaction, or it fails and what is left is rolled back. -/
theorem commit_passes (document : Nat) (hs : At d timeout s .running) :
    ∃ sent b, Passes d timeout s.journal (commit document s).2 .running sent b ∧
      Ends (fun _ b => b = .kept) (· = .lost) (commit document s).1 b ∧
      ∀ w ∈ sent, w.isData = false := by
  obtain ⟨e, hputs⟩ := batch_puts hs.driver s.dialect.commitStatement document
  have hstatement := hputs.statement
  have houtcome := hputs.outcome
  have hdata := Entry.isData_eq_false hputs.statement
  rw [hs.dialect] at hstatement
  rw [hs.timeout] at houtcome
  rw [commit_run document s hs.inTransaction]
  rcases hrun : batch s.dialect.commitStatement document s with ⟨result, s'⟩
  rw [hrun] at hputs houtcome
  rcases houtcome with ⟨x, rfl, hsucceeded⟩ | ⟨err, rfl, hfailed⟩
  · have hsteps := (Stage.Step.kept hstatement hsucceeded).steps
    have htimeout := hputs.timeout.trans hs.timeout
    refine ⟨[e], .kept, ⟨hputs.journal, hsteps, hputs.driver, htimeout, rfl⟩, rfl, ?_⟩
    exact List.forall_mem_singleton.mpr hdata
  · have hcommit : Passes d timeout s.journal s' .running [e] .doomed :=
      hputs.passes hs (.doomed hstatement hfailed) rfl
    obtain ⟨sent, hrollback, hnone⟩ := rollback_passes hcommit.at_
    exact ⟨[e] ++ sent, .lost, hcommit.trans hrollback, rfl,
      List.forall_mem_cons.mpr ⟨hdata, hnone⟩⟩

theorem leads_commit (document : Nat) :
    Leads d timeout .running (commit document) (fun _ b => b = .kept) (· = .lost) := by
  intro s hs
  obtain ⟨sent, b, hpasses, hends, -⟩ := commit_passes document hs
  exact ⟨sent, b, hpasses, hends⟩

/-- A pool of journaled connections with a given journal. -/
structure Pooled (d : Driver σ) (journal : List Entry) (p : Pool (Journaled σ)) : Prop where
  driver : p.driver = d.journaled
  journal : p.server.journal = journal

theorem open_pooled {journal : List Entry} {p : Pool (Journaled σ)} (h : Pooled d journal p) :
    Pooled d journal p.open_.2 := by
  have hconnect : (p.driver.connect.run p.server).2.journal = journal := by
    rw [h.driver]
    exact (d.journaled_connect p.server).trans h.journal
  unfold Pool.open_
  rcases hrun : p.driver.connect.run p.server with ⟨⟨delay, result⟩, server⟩
  rw [hrun] at hconnect
  have hpool : ∀ p' : Pool (Journaled σ), p'.driver = p.driver → p'.server = server →
      Pooled d journal p' :=
    fun p' hdriver hserver => ⟨hdriver.trans h.driver, by rw [hserver, ← hconnect]⟩
  dsimp only
  split
  · exact hpool _ rfl rfl
  · cases result with
    | ok _ => exact hpool _ rfl rfl
    | error _ => exact hpool _ rfl rfl

/-- A connection is given out without a statement. -/
theorem acquire_pooled {journal : List Entry} {p : Pool (Journaled σ)} (h : Pooled d journal p) :
    Pooled d journal p.acquire.2 := by
  unfold Pool.acquire
  split
  · exact ⟨h.driver, h.journal⟩
  · split
    · exact ⟨h.driver, h.journal⟩
    · exact open_pooled h

theorem release_pooled {journal : List Entry} {p : Pool (Journaled σ)} (h : Pooled d journal p)
    (l : Lease) : Pooled d journal (p.release l) := by
  unfold Pool.release
  dsimp only
  split
  · exact ⟨h.driver, h.journal⟩
  · exact ⟨h.driver, h.journal⟩

theorem start_pooled {journal : List Entry} {p : Pool (Journaled σ)} (h : Pooled d journal p)
    (timeout : Duration) : Pooled d journal (start timeout p).2 ∧
      ∀ s, (start timeout p).1 = .ok s → Passes d timeout journal s .unopened [] .unopened := by
  have hpool := acquire_pooled h
  unfold start
  rcases hacquire : p.acquire with ⟨lease, pool⟩
  rw [hacquire] at hpool
  cases lease with
  | error e => exact ⟨hpool, nofun⟩
  | ok lease =>
      refine ⟨hpool, fun s hs => ?_⟩
      cases hs
      exact ⟨hpool.journal.trans (List.append_nil _).symm, .nil, hpool.driver, rfl, rfl⟩

theorem finish_pooled {p : Pool (Journaled σ)} (s : Session (Journaled σ))
    (hp : p.driver = d.journaled) : Pooled d s.journal (s.finish p) :=
  release_pooled (p := { p with clock := s.clock, server := s.server }) ⟨hp, rfl⟩ _

end Session

end SqlGateway.Connection
