import SqlGateway.Proofs.Connection.Recorded

/-!
# Journals

A driver that keeps a journal of every statement it is given, those that open and close a
transaction among them, with how each was answered. Whether a statement succeeded is then a matter
of the journal and of the time that the session had for it.
-/
namespace SqlGateway.Connection

inductive Statement where
  /-- A statement of a field, by itself or with parameters. -/
  | data (sql : String) (parameters : List Json)
  /-- A statement of the session itself. -/
  | batch (sql : String)

def Statement.text : Statement → String
  | .data sql _ => sql
  | .batch sql => sql

/-- A statement that a driver was given, and how it was answered. -/
structure Entry where
  statement : Statement
  delay : Duration
  accepted : Bool

/-- The answer was a success and came in time. -/
def Entry.Succeeded (timeout : Duration) (e : Entry) : Prop :=
  ¬ timeout.nanoseconds < e.delay.nanoseconds ∧ e.accepted = true

instance (timeout : Duration) (e : Entry) : Decidable (e.Succeeded timeout) :=
  inferInstanceAs (Decidable (_ ∧ _))

def Entry.isData (e : Entry) : Bool :=
  match e.statement with
  | .data _ _ => true
  | .batch _ => false

theorem Entry.isData_of_eq {e : Entry} {sql : String} {parameters : List Json}
    (h : e.statement = .data sql parameters) : e.isData = true := by
  rw [isData, h]

theorem Entry.isData_eq_false {e : Entry} {sql : String} (h : e.statement = .batch sql) :
    e.isData = false := by
  rw [isData, h]

/-- The texts of the data statements among entries. -/
def dataTexts (sent : List Entry) : List String := (sent.filter Entry.isData).map (·.statement.text)

theorem dataTexts_append (sent more : List Entry) :
    dataTexts (sent ++ more) = dataTexts sent ++ dataTexts more := by
  rw [dataTexts, List.filter_append, List.map_append]
  rfl

theorem dataTexts_of_none {sent : List Entry} (h : ∀ w ∈ sent, w.isData = false) :
    dataTexts sent = [] := by
  have hnone : sent.filter Entry.isData = [] :=
    List.filter_eq_nil_iff.mpr fun w hw => by rw [h w hw]; exact Bool.false_ne_true
  rw [dataTexts, hnone]
  rfl

theorem dataTexts_data {e : Entry} {sql : String} {parameters : List Json}
    (h : e.statement = .data sql parameters) : dataTexts [e] = [sql] := by
  have hdata : [e].filter Entry.isData = [e] := by simp [Entry.isData_of_eq h]
  rw [dataTexts, hdata, List.map_singleton, h]
  rfl

/-- A database with its journal, the first entry first. -/
structure Journaled (σ : Type) where
  server : σ
  journal : List Entry

variable {σ α : Type}

def journaling (statement : Statement) (call : StateM σ (Reply α)) :
    StateM (Journaled σ) (Reply α) :=
  fun s =>
    let (reply, server) := call s.server
    (reply, ⟨server, s.journal ++ [⟨statement, reply.delay, reply.result.isOk⟩]⟩)

def Driver.journaled (d : Driver σ) : Driver (Journaled σ) where
  dialect := d.dialect
  description := d.description
  connect := fun s =>
    let (reply, server) := d.connect s.server
    (reply, { s with server })
  query sql parameters := journaling (.data sql parameters) (d.query sql parameters)
  execute sql parameters := journaling (.data sql parameters) (d.execute sql parameters)
  batch sql := journaling (.batch sql) (d.batch sql)

theorem Driver.journaled_connect (d : Driver σ) (s : Journaled σ) :
    (d.journaled.connect s).2.journal = s.journal := rfl

namespace Session

/-- A call succeeds if its reply is a success and comes in time; beside the database it changes
neither the limit of time nor the transaction. -/
theorem call_settles (document : Nat) (f : Driver σ → StateM σ (Reply α)) (s : Session σ) :
    (call document f s).2.timeout = s.timeout ∧
      (call document f s).2.inTransaction = s.inTransaction ∧
      ((call document f s).1.isOk = true ↔
        ¬ s.timeout.nanoseconds < (f s.driver s.server).1.delay.nanoseconds ∧
          (f s.driver s.server).1.result.isOk = true) := by
  unfold call
  simp only [ExceptT.mk, StateT.run]
  obtain ⟨⟨delay, result⟩, server⟩ := f s.driver s.server
  dsimp only
  split
  next late => simp [late, Except.isOk, Except.toBool, afterWaiting, asBroken]
  next timely =>
    cases result with
    | ok v => simp [timely, Except.isOk, Except.toBool, afterWaiting]
    | error e => simp [Except.isOk, Except.toBool, afterWaiting, asBroken]

def journal (s : Session (Journaled σ)) : List Entry := s.server.journal

/-- A step on a session gives its driver one statement and reports whether it succeeded. -/
structure Puts (d : Driver σ) (statement : Statement) (s : Session (Journaled σ))
    (run : Except Error α × Session (Journaled σ)) (e : Entry) : Prop where
  statement : e.statement = statement
  journal : run.2.journal = s.journal ++ [e]
  driver : run.2.driver = d.journaled
  timeout : run.2.timeout = s.timeout
  inTransaction : run.2.inTransaction = s.inTransaction
  isOk : run.1.isOk = true ↔ e.Succeeded s.timeout

variable {d : Driver σ} {s : Session (Journaled σ)}

theorem Puts.outcome {statement : Statement} {run : Except Error α × Session (Journaled σ)}
    {e : Entry} (h : Puts d statement s run e) :
    (∃ x, run.1 = .ok x ∧ e.Succeeded s.timeout) ∨
      ∃ err, run.1 = .error err ∧ ¬ e.Succeeded s.timeout := by
  have hok := h.isOk
  cases hresult : run.1 with
  | ok x =>
      rw [hresult] at hok
      exact .inl ⟨x, rfl, hok.mp rfl⟩
  | error err =>
      rw [hresult] at hok
      exact .inr ⟨err, rfl, fun hsucceeded => by cases hok.mpr hsucceeded⟩

theorem call_puts (hs : s.driver = d.journaled) (document : Nat)
    (f : Driver (Journaled σ) → StateM (Journaled σ) (Reply α)) (statement : Statement)
    (call' : StateM σ (Reply α)) (hf : f d.journaled = journaling statement call') :
    ∃ e, Puts d statement s (call document f s) e := by
  obtain ⟨hdriver, hserver, -⟩ := call_run document f s
  obtain ⟨htimeout, htransaction, hok⟩ := call_settles document f s
  rw [hs, hf] at hserver hok
  let reply := (call' s.server.server).1
  refine ⟨⟨statement, reply.delay, reply.result.isOk⟩, rfl, ?_, hdriver.trans hs, htimeout,
    htransaction, hok⟩
  rw [journal, hserver]
  rfl

theorem query_puts (hs : s.driver = d.journaled) (sql : String) (parameters : List Json)
    (document : Nat) : ∃ e, Puts d (.data sql parameters) s (query sql parameters document s) e :=
  call_puts hs document _ _ (d.query sql parameters) rfl

theorem execute_puts (hs : s.driver = d.journaled) (sql : String) (parameters : List Json)
    (document : Nat) : ∃ e, Puts d (.data sql parameters) s (execute sql parameters document s) e :=
  call_puts hs document _ _ (d.execute sql parameters) rfl

theorem batch_puts (hs : s.driver = d.journaled) (sql : String) (document : Nat) :
    ∃ e, Puts d (.batch sql) s (batch sql document s) e :=
  call_puts hs document _ _ (d.batch sql) rfl

theorem begin_run (s : Session σ) (hs : s.inTransaction = false) :
    begin_ s = match batch s.dialect.beginStatement 0 s with
      | (.ok _, s') => (.ok (), { s' with inTransaction := true })
      | (.error e, s') => (.error e, s') := by
  have hget : (get : SessionM σ (Session σ)) s = (.ok s, s) := rfl
  simp only [begin_, bind_run, hget, hs, Bool.false_eq_true, if_false]
  rcases batch s.dialect.beginStatement 0 s with ⟨result, s'⟩
  cases result <;> rfl

theorem rollback_run (s : Session σ) : rollback s =
    if s.inTransaction then batch s.dialect.rollbackStatement 0 { s with inTransaction := false }
    else (.ok (), s) := by
  have hget : (get : SessionM σ (Session σ)) s = (.ok s, s) := rfl
  simp only [rollback, bind_run, hget]
  split <;> rfl

/-- Giving up on a transaction that is not open does nothing, and it never fails. -/
theorem abandon_run (s : Session σ) : abandon s = (.ok (), (rollback s).2) := by
  rw [abandon, tryCatch_run]
  rcases rollback s with ⟨result, s'⟩
  cases result <;> rfl

theorem commit_run (document : Nat) (s : Session σ) (hs : s.inTransaction = true) :
    commit document s = match batch s.dialect.commitStatement document s with
      | (.ok _, s') => (.ok (), { s' with inTransaction := false })
      | (.error e, s') => (.error e, (rollback s').2) := by
  have hget : (get : SessionM σ (Session σ)) s = (.ok s, s) := rfl
  simp only [commit, bind_run, hget, hs, if_true, tryCatch_run]
  rcases batch s.dialect.commitStatement document s with ⟨result, s'⟩
  cases result with
  | ok _ => rfl
  | error e => simp only [abandon_run]; rfl

theorem begin_of_open (s : Session σ) (hs : s.inTransaction = true) :
    begin_ s = (.error (.invalid "transaction already open on this connection"), s) := by
  have hget : (get : SessionM σ (Session σ)) s = (.ok s, s) := rfl
  simp only [begin_, bind_run, hget, hs, if_true]
  rfl

theorem commit_of_closed (document : Nat) (s : Session σ) (hs : s.inTransaction = false) :
    commit document s = (.ok (), s) := by
  have hget : (get : SessionM σ (Session σ)) s = (.ok s, s) := rfl
  simp only [commit, bind_run, hget, hs]
  rfl

theorem abandon_of_closed (s : Session σ) (hs : s.inTransaction = false) :
    abandon s = (.ok (), s) := by
  rw [abandon_run, rollback_run, hs]
  rfl

end Session

end SqlGateway.Connection
