import SqlGateway.Connection.Session
import SqlGateway.Proofs.Except

/-!
# Recorded sessions

A driver that keeps a record of the statements it was given and of the replies. Every driver can be
recorded; the record then says what a session sent, whatever the database makes of it. Steps that
only touch the transaction send no statement.
-/
namespace SqlGateway.Connection

/-- A statement that a driver was given, and its reply. -/
inductive Exchange where
  | query (sql : String) (parameters : List Json) (reply : Reply ResultSet)
  | execute (sql : String) (parameters : List Json) (reply : Reply ResultSet)

/-- A database with the record of its statements, the first one first. -/
structure Recorded (σ : Type) where
  server : σ
  record : List Exchange

variable {σ α β : Type}

/-- A call that goes to the database and leaves the record as it is. -/
def unrecorded (call : StateM σ α) : StateM (Recorded σ) α := fun s =>
  let (a, server) := call s.server
  (a, { s with server })

/-- A call whose reply is put on record. -/
def recording (note : α → Exchange) (call : StateM σ α) : StateM (Recorded σ) α := fun s =>
  let (a, server) := call s.server
  (a, ⟨server, s.record ++ [note a]⟩)

def Driver.recorded (d : Driver σ) : Driver (Recorded σ) where
  dialect := d.dialect
  description := d.description
  connect := unrecorded d.connect
  query sql parameters := recording (.query sql parameters) (d.query sql parameters)
  execute sql parameters := recording (.execute sql parameters) (d.execute sql parameters)
  batch sql := unrecorded (d.batch sql)

namespace Session

/-- The statements that a session was used for. -/
def record (s : Session (Recorded σ)) : List Exchange := s.server.record

/-- A step keeps the driver and puts given exchanges on record. -/
structure Sends (d : Driver σ) (s s' : Session (Recorded σ)) (sent : List Exchange) : Prop where
  driver : s'.driver = d.recorded
  record : s'.record = s.record ++ sent

variable {d : Driver σ} {s : Session (Recorded σ)}

/-- A step that sends no statement, on any session. -/
def Quiet (d : Driver σ) (m : SessionM (Recorded σ) α) : Prop :=
  ∀ s, s.driver = d.recorded → Sends d s (m s).2 []

theorem bind_run (m : SessionM σ α) (f : α → SessionM σ β) (s : Session σ) :
    (m >>= f) s = match m s with
      | (.ok a, s') => f a s'
      | (.error e, s') => (.error e, s') := by
  rw [run_bind]
  rcases m s with ⟨_ | _, _⟩ <;> rfl

theorem tryCatch_run (m : SessionM σ α) (handle : Error → SessionM σ α) (s : Session σ) :
    (tryCatch m handle) s = match m s with
      | (.ok a, s') => (.ok a, s')
      | (.error e, s') => handle e s' := by
  rw [run_tryCatch]
  rcases m s with ⟨_ | _, _⟩ <;> rfl

theorem Sends.refl (h : s.driver = d.recorded) : Sends d s s [] := ⟨h, by simp⟩

theorem Sends.trans {s' s'' : Session (Recorded σ)} {sent more : List Exchange}
    (h : Sends d s s' sent) (k : Sends d s' s'' more) : Sends d s s'' (sent ++ more) :=
  ⟨k.driver, by rw [k.record, h.record, List.append_assoc]⟩

/-- A call gives its reply or fails, and leaves the session with what the driver made of the
database. -/
theorem call_run (document : Nat) (f : Driver σ → StateM σ (Reply α)) (s : Session σ) :
    (call document f s).2.driver = s.driver ∧
      (call document f s).2.server = (f s.driver s.server).2 ∧
      ∀ a, (call document f s).1 = .ok a → (f s.driver s.server).1.result = .ok a := by
  unfold call
  simp only [ExceptT.mk, StateT.run]
  obtain ⟨⟨delay, result⟩, server⟩ := f s.driver s.server
  dsimp only
  split
  · exact ⟨rfl, rfl, fun _ h => by cases h⟩
  · cases result with
    | ok v => exact ⟨rfl, rfl, fun _ h => by cases h; rfl⟩
    | error e => exact ⟨rfl, rfl, fun _ h => by cases h⟩

/-- A step that sends what a property allows, on any session. -/
def Sending (d : Driver σ) (m : SessionM (Recorded σ) α) (allowed : List Exchange → Prop) : Prop :=
  ∀ s, s.driver = d.recorded → ∃ sent, Sends d s (m s).2 sent ∧ allowed sent

section Sending
variable {m : SessionM (Recorded σ) α} {first rest allowed : List Exchange → Prop}

theorem quiet_iff_sending : Quiet d m ↔ Sending d m (· = []) := by
  constructor
  · exact fun h s hs => ⟨[], h s hs, rfl⟩
  · intro h s hs
    obtain ⟨_, hsends, rfl⟩ := h s hs
    exact hsends

/-- Two steps send what the first sends and then what the second sends; the second is left out where
the first fails. -/
theorem Sending.bind (hm : Sending d m first) {f : α → SessionM (Recorded σ) β}
    (hf : ∀ a, Sending d (f a) rest) (halone : ∀ sent, first sent → allowed sent)
    (hboth : ∀ sent more, first sent → rest more → allowed (sent ++ more)) :
    Sending d (m >>= f) allowed := by
  intro s hs
  obtain ⟨sent, hsends, hsent⟩ := hm s hs
  rw [bind_run]
  rcases hrun : m s with ⟨result, s'⟩
  rw [hrun] at hsends
  cases result with
  | ok a =>
      obtain ⟨more, hrest, hmore⟩ := hf a s' hsends.driver
      exact ⟨sent ++ more, hsends.trans hrest, hboth sent more hsent hmore⟩
  | error e => exact ⟨sent, hsends, halone sent hsent⟩

theorem Sending.recover (hm : Sending d m first) {handle : Error → SessionM (Recorded σ) α}
    (hhandle : ∀ e, Sending d (handle e) rest) (halone : ∀ sent, first sent → allowed sent)
    (hboth : ∀ sent more, first sent → rest more → allowed (sent ++ more)) :
    Sending d (tryCatch m handle) allowed := by
  intro s hs
  obtain ⟨sent, hsends, hsent⟩ := hm s hs
  rw [tryCatch_run]
  rcases hrun : m s with ⟨result, s'⟩
  rw [hrun] at hsends
  cases result with
  | ok a => exact ⟨sent, hsends, halone sent hsent⟩
  | error e =>
      obtain ⟨more, hrest, hmore⟩ := hhandle e s' hsends.driver
      exact ⟨sent ++ more, hsends.trans hrest, hboth sent more hsent hmore⟩

theorem Sending.after_quiet (hm : Quiet d m) {f : α → SessionM (Recorded σ) β}
    (hf : ∀ a, Sending d (f a) allowed) (hnone : allowed []) : Sending d (m >>= f) allowed := by
  refine (quiet_iff_sending.mp hm).bind hf ?_ ?_
  · rintro _ rfl
    exact hnone
  · rintro _ more rfl hmore
    exact hmore

theorem Sending.then_quiet (hm : Sending d m allowed) {f : α → SessionM (Recorded σ) β}
    (hf : ∀ a, Quiet d (f a)) : Sending d (m >>= f) allowed := by
  refine hm.bind (fun a => quiet_iff_sending.mp (hf a)) (fun _ h => h) ?_
  rintro sent _ hsent rfl
  rwa [List.append_nil]

theorem Sending.tryCatch_quiet (hm : Sending d m allowed) {handle : Error → SessionM (Recorded σ) α}
    (hhandle : ∀ e, Quiet d (handle e)) : Sending d (tryCatch m handle) allowed := by
  refine hm.recover (fun e => quiet_iff_sending.mp (hhandle e)) (fun _ h => h) ?_
  rintro sent _ hsent rfl
  rwa [List.append_nil]

theorem Quiet.bind (hm : Quiet d m) {f : α → SessionM (Recorded σ) β} (hf : ∀ a, Quiet d (f a)) :
    Quiet d (m >>= f) :=
  quiet_iff_sending.mpr ((quiet_iff_sending.mp hm).then_quiet hf)

theorem Quiet.tryCatch (hm : Quiet d m) {handle : Error → SessionM (Recorded σ) α}
    (hhandle : ∀ e, Quiet d (handle e)) : Quiet d (tryCatch m handle) :=
  quiet_iff_sending.mpr ((quiet_iff_sending.mp hm).tryCatch_quiet hhandle)

end Sending

section Quiet

theorem quiet_pure (a : α) : Quiet d (pure a) := fun _ hs => .refl hs

theorem quiet_throw (e : Error) : Quiet d (throw e : SessionM (Recorded σ) α) :=
  fun _ hs => .refl hs

theorem quiet_get : Quiet d (get : SessionM (Recorded σ) (Session (Recorded σ))) :=
  fun _ hs => .refl hs

theorem quiet_setInTransaction (b : Bool) : Quiet d (setInTransaction b) :=
  fun _ hs => ⟨hs, (List.append_nil _).symm⟩

theorem quiet_batch (sql : String) (document : Nat) : Quiet d (batch sql document) := by
  intro s hs
  obtain ⟨hdriver, hserver, _⟩ := call_run document (·.batch sql) s
  refine ⟨hdriver.trans hs, ?_⟩
  rw [batch, record, hserver, hs, List.append_nil]
  rfl

theorem quiet_begin : Quiet d (begin_ : SessionM (Recorded σ) Unit) := by
  refine quiet_get.bind fun s => ?_
  split
  · exact (quiet_throw _).bind fun _ => (quiet_batch _ _).bind fun _ => quiet_setInTransaction true
  · exact (quiet_batch _ _).bind fun _ => quiet_setInTransaction true

theorem quiet_rollback : Quiet d (rollback : SessionM (Recorded σ) Unit) := by
  refine quiet_get.bind fun s => ?_
  split
  · exact (quiet_setInTransaction false).bind fun _ => quiet_batch _ _
  · exact quiet_pure ()

theorem quiet_abandon : Quiet d (abandon : SessionM (Recorded σ) Unit) :=
  quiet_rollback.tryCatch fun _ => quiet_pure ()

theorem quiet_commit (document : Nat) : Quiet d (commit document : SessionM (Recorded σ) Unit) := by
  refine quiet_get.bind fun s => ?_
  split
  · exact ((quiet_batch _ _).bind fun _ => quiet_setInTransaction false).tryCatch fun e =>
      quiet_abandon.bind fun _ => quiet_throw e
  · exact quiet_pure ()

end Quiet

/-- A query puts itself and its reply on record; what it gives is the result of the reply. -/
theorem query_run (hs : s.driver = d.recorded) (sql : String) (parameters : List Json)
    (document : Nat) : ∃ reply,
      Sends d s (query sql parameters document s).2 [.query sql parameters reply] ∧
      ∀ r, (query sql parameters document s).1 = .ok r → reply.result = .ok r := by
  obtain ⟨hdriver, hserver, hresult⟩ := call_run document (·.query sql parameters) s
  rw [hs] at hserver hresult
  refine ⟨(d.query sql parameters s.server.server).1, ⟨hdriver.trans hs, ?_⟩, hresult⟩
  rw [query, record, hserver]
  rfl

theorem execute_run (hs : s.driver = d.recorded) (sql : String) (parameters : List Json)
    (document : Nat) : ∃ reply,
      Sends d s (execute sql parameters document s).2 [.execute sql parameters reply] ∧
      ∀ r, (execute sql parameters document s).1 = .ok r → reply.result = .ok r := by
  obtain ⟨hdriver, hserver, hresult⟩ := call_run document (·.execute sql parameters) s
  rw [hs] at hserver hresult
  refine ⟨(d.execute sql parameters s.server.server).1, ⟨hdriver.trans hs, ?_⟩, hresult⟩
  rw [execute, record, hserver]
  rfl

end Session

end SqlGateway.Connection
