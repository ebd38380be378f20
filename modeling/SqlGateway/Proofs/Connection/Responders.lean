import SqlGateway.Proofs.Connection.Ledgers

/-!
# Databases that answer by what they were asked

A database that accepts everything in time, and whose answer to a data statement depends on nothing
but the data statements that it was given before. What a step on a session comes to is then told by
this history, whatever transaction the session is in, and however it came by its connection.
-/
namespace SqlGateway.Connection

/-- A data statement as a driver is given it. -/
inductive Question where
  | query (sql : String) (parameters : List Json)
  | execute (sql : String) (parameters : List Json)

structure Responder (σ : Type) where
  driver : Driver σ
  /-- The data statements that the database has been given, the first one first. -/
  history : σ → List Question
  /-- The answer to a statement after others. -/
  answer : List Question → Question → ResultSet

variable {σ α β : Type}

/-- A call returns a value in time and leaves the database with a history. -/
structure Returns (history : σ → List Question) (limit : Duration) (run : Reply α × σ) (v : α)
    (h : List Question) : Prop where
  result : run.1.result = .ok v
  timely : ¬ limit.nanoseconds < run.1.delay.nanoseconds
  history : history run.2 = h

/-- What is asked of the database and of the way to it: statements are answered within one limit of
time, connections are made within another, and only data statements are remembered. -/
structure Responder.Responds (R : Responder σ) (timeout acquireTimeout : Duration) : Prop where
  query : ∀ sql parameters a, Returns R.history timeout (R.driver.query sql parameters a)
    (R.answer (R.history a) (.query sql parameters)) (R.history a ++ [.query sql parameters])
  execute : ∀ sql parameters a, Returns R.history timeout (R.driver.execute sql parameters a)
    (R.answer (R.history a) (.execute sql parameters)) (R.history a ++ [.execute sql parameters])
  batch : ∀ sql a, Returns R.history timeout (R.driver.batch sql a) () (R.history a)
  connect : ∀ a, Returns R.history acquireTimeout (R.driver.connect a) () (R.history a)

/-- A database that is nothing but the data statements that it has been given, and answers at
once. -/
def Responder.recalling (dialect : Dialect) (answer : List Question → Question → ResultSet) :
    Responder (List Question) where
  driver := {
    dialect
    description := "recalling"
    connect := pure (.now (.ok ()))
    query := fun sql parameters asked =>
      (.now (.ok (answer asked (.query sql parameters))), asked ++ [.query sql parameters])
    execute := fun sql parameters asked =>
      (.now (.ok (answer asked (.execute sql parameters))), asked ++ [.execute sql parameters])
    batch := fun _ => pure (.now (.ok ())) }
  history := id
  answer

theorem Responder.recalling_responds (dialect : Dialect)
    (answer : List Question → Question → ResultSet) (timeout acquireTimeout : Duration) :
    (recalling dialect answer).Responds timeout acquireTimeout where
  query _ _ _ := ⟨rfl, Nat.not_lt_zero _, rfl⟩
  execute _ _ _ := ⟨rfl, Nat.not_lt_zero _, rfl⟩
  batch _ _ := ⟨rfl, Nat.not_lt_zero _, rfl⟩
  connect _ := ⟨rfl, Nat.not_lt_zero _, rfl⟩

namespace Session

variable {R : Responder σ} {timeout acquireTimeout : Duration} {h h' h'' : List Question}
  {s : Session σ}

/-- A session on the database, with the history that it has by now. -/
structure On (R : Responder σ) (timeout : Duration) (h : List Question) (s : Session σ) : Prop where
  driver : s.driver = R.driver
  timeout : s.timeout = timeout
  history : R.history s.server = h

/-- From a history a step comes to a value and to another history, on every session. -/
def Gives (R : Responder σ) (timeout : Duration) (m : SessionM σ α) (h : List Question)
    (v : α) (h' : List Question) : Prop :=
  ∀ s, On R timeout h s → ∃ s', m s = (.ok v, s') ∧ On R timeout h' s'

theorem gives_pure (v : α) : Gives R timeout (pure v) h v h :=
  fun s hs => ⟨s, rfl, hs⟩

theorem Gives.bind {m : SessionM σ α} {f : α → SessionM σ β} {v : α} {w : β}
    (hm : Gives R timeout m h v h') (hf : Gives R timeout (f v) h' w h'') :
    Gives R timeout (m >>= f) h w h'' := by
  intro s hs
  obtain ⟨s', hrun, hs'⟩ := hm s hs
  obtain ⟨s'', hrest, hs''⟩ := hf s' hs'
  exact ⟨s'', by rw [bind_run, hrun]; exact hrest, hs''⟩

theorem Gives.tryCatch {m : SessionM σ α} {handle : Error → SessionM σ α} {v : α}
    (hm : Gives R timeout m h v h') : Gives R timeout (tryCatch m handle) h v h' := by
  intro s hs
  obtain ⟨s', hrun, hs'⟩ := hm s hs
  exact ⟨s', by rw [tryCatch_run, hrun], hs'⟩

theorem On.call (hs : On R timeout h s) (document : Nat)
    {f : Driver σ → StateM σ (Reply α)} {v : α}
    (hf : Returns R.history timeout (f R.driver s.server) v h') :
    ∃ s', Session.call document f s = (.ok v, s') ∧ On R timeout h' s' := by
  have hresult := hf.result
  have htimely := hf.timely
  have hhistory := hf.history
  unfold Session.call
  simp only [ExceptT.mk, StateT.run, hs.driver, hs.timeout]
  rcases hcall : f R.driver s.server with ⟨⟨delay, result⟩, server⟩
  rw [hcall] at hresult htimely hhistory
  dsimp only at hresult htimely hhistory ⊢
  rw [if_neg htimely, hresult]
  exact ⟨_, rfl, rfl, rfl, hhistory⟩

section Statements
variable (hR : R.Responds timeout acquireTimeout)
include hR

theorem gives_query (sql : String) (parameters : List Json) (document : Nat) (h : List Question) :
    Gives R timeout (query sql parameters document) h
      (R.answer h (.query sql parameters)) (h ++ [.query sql parameters]) := by
  intro s hs
  obtain rfl := hs.history
  exact hs.call document (hR.query sql parameters _)

theorem gives_execute (sql : String) (parameters : List Json) (document : Nat) (h : List Question) :
    Gives R timeout (execute sql parameters document) h
      (R.answer h (.execute sql parameters)) (h ++ [.execute sql parameters]) := by
  intro s hs
  obtain rfl := hs.history
  exact hs.call document (hR.execute sql parameters _)

theorem gives_batch (sql : String) (document : Nat) (h : List Question) :
    Gives R timeout (batch sql document) h () h := by
  intro s hs
  obtain rfl := hs.history
  exact hs.call document (hR.batch sql _)

theorem On.begin (hs : On R timeout h s) (hclosed : s.inTransaction = false) :
    ∃ s', begin_ s = (.ok (), s') ∧ On R timeout h s' := by
  obtain ⟨s', hrun, hs'⟩ := gives_batch hR s.dialect.beginStatement 0 h s hs
  rw [begin_run s hclosed, hrun]
  exact ⟨_, rfl, hs'.driver, hs'.timeout, hs'.history⟩

theorem gives_commit (document : Nat) (h : List Question) :
    Gives R timeout (commit document) h () h := by
  intro s hs
  cases hopen : s.inTransaction with
  | false =>
      rw [commit_of_closed document s hopen]
      exact ⟨s, rfl, hs⟩
  | true =>
      obtain ⟨s', hrun, hs'⟩ := gives_batch hR s.dialect.commitStatement document h s hs
      rw [commit_run document s hopen, hrun]
      exact ⟨_, rfl, hs'.driver, hs'.timeout, hs'.history⟩

end Statements

/-- A pool of connections to the database that has one to give. -/
structure Rests (R : Responder σ) (acquireTimeout : Duration) (h : List Question) (p : Pool σ) :
    Prop where
  driver : p.driver = R.driver
  available : 0 < p.available
  acquireTimeout : p.limits.acquireTimeout = acquireTimeout
  history : R.history p.server = h

theorem Rests.start {p : Pool σ} (hR : R.Responds timeout acquireTimeout)
    (hp : Rests R acquireTimeout h p) : ∃ s, (start timeout p).1 = .ok s ∧ On R timeout h s ∧
      (start timeout p).2.driver = R.driver ∧
      (start timeout p).2.limits.acquireTimeout = acquireTimeout := by
  have hacquire : ∃ lease pool, p.acquire = (.ok lease, pool) ∧ pool.driver = R.driver ∧
      pool.limits.acquireTimeout = acquireTimeout ∧ R.history pool.server = h := by
    unfold Pool.acquire
    rw [if_neg (Nat.pos_iff_ne_zero.mp hp.available)]
    split
    · exact ⟨_, _, rfl, hp.driver, hp.acquireTimeout, hp.history⟩
    · have hconnect := hR.connect p.server
      have hresult := hconnect.result
      have htimely := hconnect.timely
      have hhistory := hconnect.history.trans hp.history
      unfold Pool.open_
      simp only [StateT.run, hp.driver, hp.acquireTimeout]
      rcases hcall : R.driver.connect p.server with ⟨⟨delay, result⟩, server⟩
      rw [hcall] at hresult htimely hhistory
      dsimp only at hresult htimely hhistory ⊢
      rw [if_neg htimely, hresult]
      exact ⟨_, _, rfl, rfl, hp.acquireTimeout, hhistory⟩
  obtain ⟨lease, pool, hrun, hdriver, hlimit, hhistory⟩ := hacquire
  unfold Session.start
  rw [hrun]
  exact ⟨_, rfl, ⟨hdriver, rfl, hhistory⟩, hdriver, hlimit⟩

theorem On.finish (hs : On R timeout h s) {p : Pool σ} (hdriver : p.driver = R.driver)
    (hlimit : p.limits.acquireTimeout = acquireTimeout) :
    Rests R acquireTimeout h (s.finish p) := by
  have released : ∀ lease, Rests R acquireTimeout h
      (Pool.release lease { p with clock := s.clock, server := s.server }) := by
    intro lease
    unfold Pool.release
    dsimp only
    split
    · exact ⟨hdriver, Nat.succ_pos _, hlimit, hs.history⟩
    · exact ⟨hdriver, Nat.succ_pos _, hlimit, hs.history⟩
  exact released _

end Session

end SqlGateway.Connection
