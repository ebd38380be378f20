import SqlGateway.Connection.Scripted
import SqlGateway.Proofs.Connection.Stages
import Mathlib.Data.List.TakeWhile

/-!
# The ledgers of connections

Sessions over one pool, any number of them at a time, and for every connection the ledger of what
was done on it, by one session after another. A connection that the pool keeps has a spotless
ledger: no statement failed or took too long, and what was begun was ended. What carries this along
a session is that its lease is broken from the first failure on, whatever succeeds later.
-/
namespace SqlGateway.Connection

/-- A statement that was put on a connection, with the time that it had. -/
structure Use where
  entry : Entry
  limit : Duration

namespace Use

def Succeeded (u : Use) : Prop := u.entry.Succeeded u.limit

def isData (u : Use) : Bool := u.entry.isData

def begins (dialect : Dialect) (u : Use) : Prop := u.entry.statement = .batch dialect.beginStatement

def ends (dialect : Dialect) (u : Use) : Prop :=
  u.entry.statement = .batch dialect.commitStatement ∨
    u.entry.statement = .batch dialect.rollbackStatement

end Use

/-- Uses of a connection in which every transaction is ended. -/
inductive Ended (dialect : Dialect) : List Use → Prop where
  | nil : Ended dialect []
  | data {u : Use} {rest : List Use} :
      u.isData = true → Ended dialect rest → Ended dialect (u :: rest)
  | transaction {opening closing : Use} {inside rest : List Use} : opening.begins dialect →
      (∀ u ∈ inside, u.isData = true) → closing.ends dialect → Ended dialect rest →
      Ended dialect (opening :: inside ++ closing :: rest)

/-- The ledger of a connection on which a transaction may be open. -/
def Standing (dialect : Dialect) : Bool → List Use → Prop
  | false, uses => Ended dialect uses
  | true, uses =>
      ∃ earlier opening inside, uses = earlier ++ opening :: inside ∧ Ended dialect earlier ∧
      opening.begins dialect ∧ ∀ u ∈ inside, u.isData = true

section Ended
variable {dialect : Dialect} {uses more : List Use}

theorem Ended.append (h : Ended dialect uses) (k : Ended dialect more) :
    Ended dialect (uses ++ more) := by
  induction h with
  | nil => exact k
  | data hdata _ ih => exact .data hdata ih
  | transaction hbegins hinside hends _ ih =>
      rw [List.append_assoc]
      exact .transaction hbegins hinside hends ih

theorem Standing.data {inTransaction : Bool} {u : Use} (h : Standing dialect inTransaction uses)
    (hdata : u.isData = true) : Standing dialect inTransaction (uses ++ [u]) := by
  cases inTransaction with
  | false => exact Ended.append h (.data hdata .nil)
  | true =>
      obtain ⟨earlier, opening, inside, rfl, hearlier, hbegins, hinside⟩ := h
      refine ⟨earlier, opening, inside ++ [u], by simp, hearlier, hbegins, ?_⟩
      exact List.forall_mem_append.mpr ⟨hinside, List.forall_mem_singleton.mpr hdata⟩

theorem Standing.opened {u : Use} (h : Standing dialect false uses) (hbegins : u.begins dialect) :
    Standing dialect true (uses ++ [u]) :=
  ⟨uses, u, [], rfl, h, hbegins, List.forall_mem_nil _⟩

theorem Standing.closed {u : Use} (h : Standing dialect true uses) (hends : u.ends dialect) :
    Standing dialect false (uses ++ [u]) := by
  obtain ⟨earlier, opening, inside, rfl, hearlier, hbegins, hinside⟩ := h
  rw [List.append_assoc]
  exact hearlier.append (.transaction hbegins hinside hends .nil)

theorem Use.not_begins_of_isData {u : Use} (h : u.isData = true) : ¬ u.begins dialect := by
  intro hbegins
  have hfalse := Entry.isData_eq_false hbegins
  rw [Use.isData, hfalse] at h
  cases h

theorem Use.not_begins_of_ends {u : Use} (h : u.ends dialect) : ¬ u.begins dialect := by
  intro hbegins
  rw [Use.begins] at hbegins
  rw [Use.ends, hbegins, Statement.batch.injEq, Statement.batch.injEq] at h
  cases dialect <;> revert h <;> decide

/-- Behind the opening of a transaction come its statements and then its end. -/
theorem Ended.closes (h : Ended dialect uses) {before after : List Use} {u : Use}
    (huses : uses = before ++ u :: after) (hbegins : u.begins dialect) :
    ∃ inside closing rest, after = inside ++ closing :: rest ∧ (∀ w ∈ inside, w.isData = true) ∧
      closing.ends dialect := by
  induction h generalizing before with
  | nil => cases before <;> cases huses
  | data hdata _ ih =>
      cases before with
      | nil =>
          cases huses
          exact absurd hbegins (Use.not_begins_of_isData hdata)
      | cons _ before =>
          cases huses
          exact ih rfl
  | @transaction opening closing inside rest _ hinside hends _ ih =>
      cases before with
      | nil =>
          cases huses
          exact ⟨inside, closing, rest, rfl, hinside, hends⟩
      | cons _ before =>
          have hrest : inside ++ [closing] ++ rest = before ++ u :: after := by
            rw [List.append_assoc]
            exact (List.cons.inj huses).2
          have hnone : u ∉ inside ++ [closing] := by
            intro hu
            rcases List.mem_append.mp hu with hu | hu
            · exact Use.not_begins_of_isData (hinside u hu) hbegins
            · rw [List.mem_singleton.mp hu] at hbegins
              exact Use.not_begins_of_ends hends hbegins
          rcases List.append_eq_append_iff.mp hrest with ⟨more, _, hmore⟩ | ⟨more, hinner, hmore⟩
          · exact ih hmore
          · cases more with
            | nil => exact ih (show rest = [] ++ u :: after from hmore.symm)
            | cons w _ =>
                cases hmore
                exact absurd (hinner ▸ List.mem_append_right _ List.mem_cons_self) hnone

end Ended

variable {σ α : Type}

/-- A lease that is not broken has a spotless ledger. -/
def Trusted (dialect : Dialect) (lease : Lease) (inTransaction : Bool) (uses : List Use) : Prop :=
  lease.broken = true ∨ (∀ u ∈ uses, u.Succeeded) ∧ Standing dialect inTransaction uses

namespace Session

variable {d : Driver σ} {s s' s'' : Session (Journaled σ)}

/-- A step breaks the lease exactly if it fails. -/
structure Breaks (s : Session σ) (run : Except Error α × Session σ) : Prop where
  lease : run.2.lease = if run.1.isOk then s.lease else s.lease.asBroken

theorem call_breaks (document : Nat) (f : Driver σ → StateM σ (Reply α)) (s : Session σ) :
    Breaks s (call document f s) := by
  unfold call
  simp only [ExceptT.mk, StateT.run]
  obtain ⟨⟨delay, result⟩, server⟩ := f s.driver s.server
  dsimp only
  split
  · exact ⟨rfl⟩
  · cases result with
    | ok v => exact ⟨rfl⟩
    | error e => exact ⟨rfl⟩

def ledger (sent : List Entry) (timeout : Duration) : List Use := sent.map (⟨·, timeout⟩)

/-- A step of a session that sends given statements, whose connection stays as trusted as it was. -/
structure Carries (d : Driver σ) (s s' : Session (Journaled σ)) (sent : List Entry) : Prop where
  driver : s'.driver = d.journaled
  journal : s'.journal = s.journal ++ sent
  timeout : s'.timeout = s.timeout
  opened : s'.lease.opened = s.lease.opened
  trusted : ∀ uses, Trusted d.dialect s.lease s.inTransaction uses →
    Trusted d.dialect s'.lease s'.inTransaction (uses ++ ledger sent s.timeout)

theorem Carries.refl (hs : s.driver = d.journaled) : Carries d s s [] :=
  ⟨hs, by simp, rfl, rfl, fun uses h => by simpa [ledger] using h⟩

theorem Carries.trans {sent more : List Entry} (h : Carries d s s' sent)
    (k : Carries d s' s'' more) : Carries d s s'' (sent ++ more) where
  driver := k.driver
  journal := by rw [k.journal, h.journal, List.append_assoc]
  timeout := k.timeout.trans h.timeout
  opened := k.opened.trans h.opened
  trusted uses hs := by
    have htrusted := k.trusted _ (h.trusted uses hs)
    rw [h.timeout] at htrusted
    rw [ledger, List.map_append, ← List.append_assoc]
    exact htrusted

theorem with_inTransaction {s : Session σ} {b : Bool} (h : s.inTransaction = b) :
    { s with inTransaction := b } = s := by
  subst h
  rfl

section Puts
variable {run : Except Error α × Session (Journaled σ)} {statement : Statement} {e : Entry}

/-- One statement that was put. What the session took its transaction for before and what it takes
it for after has to be right only if the statement succeeded. -/
theorem carries_of_puts (hputs : Puts d statement s run e) (hbreaks : Breaks s run)
    (before after : Bool) (hstanding : ∀ uses, run.1.isOk = true → Standing d.dialect before uses →
      Standing d.dialect after (uses ++ [⟨e, s.timeout⟩])) :
    Carries d { s with inTransaction := before } { run.2 with inTransaction := after } [e] := by
  refine ⟨hputs.driver, hputs.journal, hputs.timeout, ?_, fun uses h => ?_⟩
  · dsimp only
    rw [hbreaks.lease]
    split <;> rfl
  · dsimp only at h ⊢
    rw [hbreaks.lease]
    cases hok : run.1.isOk with
    | false => exact .inl rfl
    | true =>
        refine h.imp_right fun ⟨hsucceeded, hbefore⟩ => ⟨?_, hstanding uses hok hbefore⟩
        have hlast : Use.Succeeded ⟨e, s.timeout⟩ := hputs.isOk.mp hok
        exact List.forall_mem_append.mpr ⟨hsucceeded, List.forall_mem_singleton.mpr hlast⟩

/-- A statement after which the session has its transaction as before. -/
theorem carries_same (hputs : Puts d statement s run e) (hbreaks : Breaks s run)
    (hstanding : ∀ uses, run.1.isOk = true → Standing d.dialect s.inTransaction uses →
      Standing d.dialect s.inTransaction (uses ++ [⟨e, s.timeout⟩])) : Carries d s run.2 [e] := by
  have h := carries_of_puts hputs hbreaks s.inTransaction s.inTransaction hstanding
  rw [with_inTransaction hputs.inTransaction] at h
  exact h

/-- A statement that failed leaves no trust. -/
theorem carries_failed (hputs : Puts d statement s run e) (hbreaks : Breaks s run)
    (hfailed : run.1.isOk = false) : Carries d s run.2 [e] :=
  carries_same hputs hbreaks fun _ hok _ => by
    rw [hfailed] at hok
    cases hok

theorem carries_data {sql : String} {parameters : List Json}
    (hputs : Puts d (.data sql parameters) s run e) (hbreaks : Breaks s run) :
    Carries d s run.2 [e] :=
  carries_same hputs hbreaks fun _ _ h => h.data (Entry.isData_of_eq hputs.statement)

end Puts

theorem begin_carries (hs : s.driver = d.journaled) : ∃ sent, Carries d s (begin_ s).2 sent := by
  cases hopen : s.inTransaction with
  | true =>
      rw [begin_of_open s hopen]
      exact ⟨[], .refl hs⟩
  | false =>
      obtain ⟨e, hputs⟩ := batch_puts hs s.dialect.beginStatement 0
      have hbreaks : Breaks s (batch s.dialect.beginStatement 0 s) := call_breaks ..
      have hbegins : Use.begins d.dialect ⟨e, s.timeout⟩ := by
        rw [Use.begins, hputs.statement, dialect, hs]
        rfl
      rw [begin_run s hopen]
      rcases hrun : batch s.dialect.beginStatement 0 s with ⟨result, s'⟩
      rw [hrun] at hputs hbreaks
      cases result with
      | ok _ =>
          have hopened := carries_of_puts hputs hbreaks false true fun _ _ h => h.opened hbegins
          rw [with_inTransaction hopen] at hopened
          exact ⟨[e], hopened⟩
      | error err => exact ⟨[e], carries_failed hputs hbreaks rfl⟩

theorem rollback_carries (hs : s.driver = d.journaled) :
    ∃ sent, Carries d s (rollback s).2 sent := by
  rw [rollback_run]
  cases hopen : s.inTransaction with
  | false => exact ⟨[], .refl hs⟩
  | true =>
      have hdriver : { s with inTransaction := false : Session _ }.driver = d.journaled := hs
      obtain ⟨e, hputs⟩ := batch_puts hdriver s.dialect.rollbackStatement 0
      have hends : Use.ends d.dialect ⟨e, s.timeout⟩ := by
        refine .inr ?_
        rw [hputs.statement, dialect, hs]
        rfl
      have hclosed := carries_of_puts hputs (call_breaks ..) true false fun _ _ h => h.closed hends
      rw [with_inTransaction hputs.inTransaction] at hclosed
      refine ⟨[e], ?_⟩
      rw [if_pos rfl]
      have hsame : { s with inTransaction := true } = s := with_inTransaction hopen
      rw [← hsame]
      exact hclosed

theorem commit_carries (hs : s.driver = d.journaled) (document : Nat) :
    ∃ sent, Carries d s (commit document s).2 sent := by
  cases hopen : s.inTransaction with
  | false =>
      rw [commit_of_closed document s hopen]
      exact ⟨[], .refl hs⟩
  | true =>
      obtain ⟨e, hputs⟩ := batch_puts hs s.dialect.commitStatement document
      have hbreaks : Breaks s (batch s.dialect.commitStatement document s) := call_breaks ..
      have hends : Use.ends d.dialect ⟨e, s.timeout⟩ := by
        refine .inl ?_
        rw [hputs.statement, dialect, hs]
        rfl
      rw [commit_run document s hopen]
      rcases hrun : batch s.dialect.commitStatement document s with ⟨result, s'⟩
      rw [hrun] at hputs hbreaks
      cases result with
      | ok _ =>
          have hclosed := carries_of_puts hputs hbreaks true false fun _ _ h => h.closed hends
          rw [with_inTransaction hopen] at hclosed
          exact ⟨[e], hclosed⟩
      | error err =>
          have hfailed := carries_failed hputs hbreaks rfl
          obtain ⟨sent, hrollback⟩ := rollback_carries hfailed.driver
          exact ⟨[e] ++ sent, hfailed.trans hrollback⟩

end Session

/-- What is asked of a session. -/
inductive Call where
  | query (sql : String) (parameters : List Json) (document : Nat)
  | execute (sql : String) (parameters : List Json) (document : Nat)
  | begin_
  | commit (document : Nat)
  | rollback

/-- The session after a call, whatever its result. -/
def Call.after : Call → Session σ → Session σ
  | query sql parameters document, s => (Session.query sql parameters document s).2
  | execute sql parameters document, s => (Session.execute sql parameters document s).2
  | begin_, s => (Session.begin_ s).2
  | commit document, s => (Session.commit document s).2
  | rollback, s => (Session.rollback s).2

theorem Call.carries {d : Driver σ} {s : Session (Journaled σ)} (c : Call)
    (hs : s.driver = d.journaled) : ∃ sent, Session.Carries d s (c.after s) sent := by
  cases c with
  | query sql parameters document =>
      obtain ⟨e, hputs⟩ := Session.query_puts hs sql parameters document
      exact ⟨[e], Session.carries_data hputs (Session.call_breaks ..)⟩
  | execute sql parameters document =>
      obtain ⟨e, hputs⟩ := Session.execute_puts hs sql parameters document
      exact ⟨[e], Session.carries_data hputs (Session.call_breaks ..)⟩
  | begin_ => exact Session.begin_carries hs
  | commit document => exact Session.commit_carries hs document
  | rollback => exact Session.rollback_carries hs

/-- A kept connection: when it was opened, and what was done on it. -/
structure Ledger where
  opened : Duration
  uses : List Use

/-- A session apart from the pool that all sessions share, with the ledger of its connection. -/
structure Seat where
  lease : Lease
  timeout : Duration
  inTransaction : Bool
  uses : List Use

def Seat.on (seat : Seat) (p : Pool σ) : Session σ :=
  ⟨p.driver, p.clock, p.server, seat.lease, seat.timeout, seat.inTransaction⟩

/-- Kept connections and open sessions, each with its ledger, over one pool. -/
structure Desk (σ : Type) where
  pool : Pool (Journaled σ)
  kept : List Ledger
  seats : List Seat

inductive Event where
  | start (timeout : Duration)
  | call (seat : Nat) (c : Call)
  | finish (seat : Nat)
  | wait (d : Duration)

namespace Desk

def new (d : Driver σ) (limits : PoolLimits) (server : σ) : Desk σ :=
  ⟨.new d.journaled limits ⟨server, []⟩, [], []⟩

/-- The kept connections from the first one on that may still be used. -/
def reusable (w : Desk σ) : List Ledger := w.kept.dropWhile (!w.pool.isFresh ·.opened)

/-- A session starts on the first connection that may still be used, and with its ledger, or on a
new one. What could not be used is closed. -/
def starting (timeout : Duration) (w : Desk σ) : Desk σ :=
  match Session.start timeout w.pool with
  | (.ok s, p) =>
    let uses := (w.reusable.head?.map (·.uses)).getD []
    ⟨p, w.reusable.tail, w.seats ++ [⟨s.lease, s.timeout, s.inTransaction, uses⟩]⟩
  | (.error _, p) => { w with pool := p, kept := if w.pool.available = 0 then w.kept else [] }

/-- The entries that a call adds to the journal go to the ledger of the session's connection. -/
def calling (i : Nat) (seat : Seat) (c : Call) (w : Desk σ) : Desk σ :=
  let s := c.after (seat.on w.pool)
  let sent := s.journal.drop w.pool.server.journal.length
  { w with
    pool := { w.pool with clock := s.clock, server := s.server }
    seats := w.seats.set i
      ⟨s.lease, s.timeout, s.inTransaction, seat.uses ++ Session.ledger sent seat.timeout⟩ }

/-- A session ends; if the pool has one connection more than before, it is that of the session. -/
def finishing (i : Nat) (seat : Seat) (w : Desk σ) : Desk σ :=
  let p := (seat.on w.pool).finish w.pool
  { pool := p
    kept :=
      if w.pool.idle.length < p.idle.length then w.kept ++ [⟨seat.lease.opened, seat.uses⟩]
      else w.kept
    seats := w.seats.eraseIdx i }

def on (w : Desk σ) : Event → Desk σ
  | .start timeout => w.starting timeout
  | .call i c => match w.seats[i]? with
    | some seat => w.calling i seat c
    | none => w
  | .finish i => match w.seats[i]? with
    | some seat => w.finishing i seat
    | none => w
  | .wait d => { w with pool := w.pool.afterWaiting d }

/-- The desk after events, one after another. -/
def after (w : Desk σ) (events : List Event) : Desk σ := events.foldl on w

/-- What holds between any two events. -/
structure Sound (d : Driver σ) (w : Desk σ) : Prop where
  driver : w.pool.driver = d.journaled
  mirrored : w.pool.idle = w.kept.map (·.opened)
  kept : ∀ l ∈ w.kept, (∀ u ∈ l.uses, u.Succeeded) ∧ Ended d.dialect l.uses
  seats : ∀ seat ∈ w.seats, Trusted d.dialect seat.lease seat.inTransaction seat.uses

variable {d : Driver σ} {w : Desk σ}

theorem sound_new (d : Driver σ) (limits : PoolLimits) (server : σ) :
    Sound d (new d limits server) :=
  ⟨rfl, rfl, List.forall_mem_nil _, List.forall_mem_nil _⟩

theorem Sound.calling (h : Sound d w) {i : Nat} {seat : Seat} (hseat : w.seats[i]? = some seat)
    (c : Call) : Sound d (w.calling i seat c) := by
  have hdriver : (seat.on w.pool).driver = d.journaled := h.driver
  obtain ⟨sent, hcarries⟩ := c.carries hdriver
  have hsent : (c.after (seat.on w.pool)).journal.drop w.pool.server.journal.length = sent := by
    rw [hcarries.journal]
    exact List.drop_left
  refine ⟨h.driver, h.mirrored, h.kept, fun other hother => ?_⟩
  rcases List.mem_or_eq_of_mem_set hother with hold | rfl
  · exact h.seats other hold
  · dsimp only
    rw [hsent]
    exact hcarries.trusted seat.uses (h.seats seat (List.mem_of_getElem? hseat))

theorem release_idle (l : Lease) (p : Pool σ) : (p.release l).driver = p.driver ∧
    ((p.release l).idle = p.idle ∨ l.broken = false ∧
      (p.release l).idle = p.idle ++ [l.opened]) := by
  unfold Pool.release
  dsimp only
  split
  · exact ⟨rfl, .inl rfl⟩
  next hkept =>
    simp only [Bool.or_eq_true, not_or] at hkept
    exact ⟨rfl, .inr ⟨Bool.eq_false_iff.mpr hkept.1.1, rfl⟩⟩

/-- A connection is kept only if the session knows of no failure and of no open transaction. -/
theorem finish_idle (s : Session σ) (p : Pool σ) : (s.finish p).driver = p.driver ∧
    ((s.finish p).idle = p.idle ∨ s.lease.broken = false ∧ s.inTransaction = false ∧
      (s.finish p).idle = p.idle ++ [s.lease.opened]) := by
  unfold Session.finish
  cases hopen : s.inTransaction with
  | true =>
      obtain ⟨hdriver, hidle | ⟨hbroken, -⟩⟩ :=
        release_idle s.lease.asBroken { p with clock := s.clock, server := s.server }
      · exact ⟨hdriver, .inl hidle⟩
      · cases hbroken
  | false =>
      obtain ⟨hdriver, hidle⟩ :=
        release_idle s.lease { p with clock := s.clock, server := s.server }
      exact ⟨hdriver, hidle.imp_right fun ⟨hbroken, hidle⟩ => ⟨hbroken, rfl, hidle⟩⟩

theorem Sound.finishing (h : Sound d w) {i : Nat} {seat : Seat} (hseat : w.seats[i]? = some seat) :
    Sound d (w.finishing i seat) := by
  have hrest :
      ∀ other ∈ w.seats.eraseIdx i, Trusted d.dialect other.lease other.inTransaction other.uses :=
    fun other hother => h.seats other (List.mem_of_mem_eraseIdx hother)
  have htrusted := h.seats seat (List.mem_of_getElem? hseat)
  obtain ⟨hdriver, hidle⟩ := finish_idle (seat.on w.pool) w.pool
  unfold Desk.finishing
  refine ⟨hdriver.trans h.driver, ?_, ?_, hrest⟩
  · rcases hidle with hidle | ⟨-, -, hidle⟩
    · simp [hidle, h.mirrored]
    · simp only [hidle, h.mirrored, List.length_append, List.length_map, List.length_singleton,
        Nat.lt_succ_self, if_true, List.map_append]
      rfl
  · rcases hidle with hidle | ⟨hbroken, hopen, hidle⟩
    · simpa [hidle] using h.kept
    · simp only [hidle, List.length_append, List.length_singleton, Nat.lt_succ_self, if_true]
      have hbroken : seat.lease.broken = false := hbroken
      have hopen : seat.inTransaction = false := hopen
      rw [Trusted, hbroken, hopen] at htrusted
      have hspotless := htrusted.resolve_left Bool.false_ne_true
      exact List.forall_mem_append.mpr ⟨h.kept, List.forall_mem_singleton.mpr hspotless⟩

/-- What a pool keeps after it was asked for a connection. -/
theorem acquire_idle (p : Pool σ) : p.acquire.2.driver = p.driver ∧
    match p.acquire.1 with
    | .ok _ => p.acquire.2.idle = (p.idle.dropWhile (!p.isFresh ·)).tail
    | .error _ => p.acquire.2.idle = if p.available = 0 then p.idle else [] := by
  unfold Pool.acquire
  split
  · exact ⟨rfl, rfl⟩
  · cases hfresh : p.idle.dropWhile (!p.isFresh ·) with
    | cons opened rest => exact ⟨rfl, rfl⟩
    | nil =>
        unfold Pool.open_
        rcases p.driver.connect.run p.server with ⟨⟨delay, result⟩, server⟩
        dsimp only
        split
        · exact ⟨rfl, rfl⟩
        · cases result with
          | ok _ => exact ⟨rfl, rfl⟩
          | error _ => exact ⟨rfl, rfl⟩

theorem Sound.starting (h : Sound d w) (timeout : Duration) : Sound d (w.starting timeout) := by
  have hreusable : w.pool.idle.dropWhile (!w.pool.isFresh ·) = w.reusable.map (·.opened) := by
    rw [h.mirrored, reusable, List.dropWhile_map]
    rfl
  have hfresh : ∀ l ∈ w.reusable, (∀ u ∈ l.uses, u.Succeeded) ∧ Ended d.dialect l.uses :=
    fun l hl => h.kept l ((List.dropWhile_sublist _).subset hl)
  obtain ⟨hdriver, hidle⟩ := acquire_idle w.pool
  rw [hreusable, ← List.map_tail] at hidle
  unfold Desk.starting Session.start
  rcases hacquire : w.pool.acquire with ⟨result, p⟩
  rw [hacquire] at hdriver hidle
  cases result with
  | error e =>
      refine ⟨hdriver.trans h.driver, ?_, ?_, h.seats⟩
      · dsimp only at hidle ⊢
        rw [hidle, h.mirrored]
        split <;> rfl
      · dsimp only
        split
        · exact h.kept
        · exact List.forall_mem_nil _
  | ok lease =>
      refine ⟨hdriver.trans h.driver, hidle, fun l hl => hfresh l (List.mem_of_mem_tail hl), ?_⟩
      refine List.forall_mem_append.mpr ⟨h.seats, List.forall_mem_singleton.mpr (.inr ?_)⟩
      cases hhead : w.reusable with
      | nil => exact ⟨List.forall_mem_nil _, .nil⟩
      | cons l rest => exact hfresh l (by rw [hhead]; exact List.mem_cons_self)

theorem Sound.on (h : Sound d w) (e : Event) : Sound d (w.on e) := by
  cases e with
  | start timeout => exact h.starting timeout
  | call i c =>
      rw [Desk.on]
      split
      · exact h.calling ‹_› c
      · exact h
  | finish i =>
      rw [Desk.on]
      split
      · exact h.finishing ‹_›
      · exact h
  | wait d => exact { h with }

theorem Sound.after (h : Sound d w) (events : List Event) : Sound d (w.after events) := by
  induction events generalizing w with
  | nil => exact h
  | cons e rest ih => exact ih (h.on e)

/-- No tainted connection is kept. Whatever sessions there are over a pool, one at a time or
several, and whatever is asked of them and comes of it, every statement on a connection that the
pool keeps succeeded within its time, and every transaction begun on it was ended by a commit or a
rollback. -/
theorem kept_spotless (d : Driver σ) (limits : PoolLimits) (server : σ) (events : List Event) :
    ((new d limits server).after events).pool.idle =
        ((new d limits server).after events).kept.map (·.opened) ∧
      ∀ l ∈ ((new d limits server).after events).kept,
        (∀ u ∈ l.uses, u.Succeeded) ∧
        ∀ before u after, l.uses = before ++ u :: after → u.begins d.dialect →
          ∃ inside closing rest, after = inside ++ closing :: rest ∧
          (∀ w ∈ inside, w.isData = true) ∧
            closing.ends d.dialect := by
  have h := (sound_new d limits server).after events
  refine ⟨h.mirrored, fun l hl => ⟨(h.kept l hl).1, fun before u after huses hbegins => ?_⟩⟩
  exact (h.kept l hl).2.closes huses hbegins

/-- Two sessions at a time, and a third one after them, on a database that refuses the second
statement. It is of the second session, which rolls back and then has a statement that succeeds. -/
def shared : Desk Scripted :=
  (new (Scripted.driver .sqlite) ⟨2, 2, .ofSeconds 60, .ofSeconds 1⟩
      ⟨[.rows .empty, .failure (.task "boom")], [], [], []⟩).after
    [.start (.ofSeconds 1), .start (.ofSeconds 1), .call 0 .begin_, .call 1 .begin_,
      .call 0 (.execute "delete from t" [] 1), .call 1 (.execute "delete from u" [] 1),
        .call 1 .rollback,
      .call 1 (.query "select 1" [] 1), .finish 1, .call 0 (.commit 1), .finish 0,
      .start (.ofSeconds 1), .call 0 (.query "select 2" [] 1), .finish 0]

/-- Only the connection of the first session is kept, and the third session had it too. -/
theorem kept_spotless_shared : ∃ opening rest, shared.kept = [⟨⟨0⟩, opening :: rest⟩] ∧
    (opening :: rest).map (·.isData) = [false, true, false, true] ∧ opening.begins .sqlite ∧
    (∀ u ∈ opening :: rest, u.Succeeded) ∧
    ∃ inside closing later, rest = inside ++ closing :: later ∧ (∀ w ∈ inside, w.isData = true) ∧
      closing.ends .sqlite := by
  obtain ⟨opening, rest, hkept, hdata, hbegins⟩ : ∃ opening rest,
      shared.kept = [⟨⟨0⟩, opening :: rest⟩] ∧
      (opening :: rest).map (·.isData) = [false, true, false, true] ∧ opening.begins .sqlite :=
    ⟨_, _, rfl, rfl, rfl⟩
  have hmem : ⟨⟨0⟩, opening :: rest⟩ ∈ shared.kept := by
    rw [hkept]
    exact List.mem_singleton_self _
  obtain ⟨hsucceeded, hended⟩ := (kept_spotless _ _ _ _).2 _ hmem
  exact ⟨opening, rest, hkept, hdata, hbegins, hsucceeded, hended [] opening rest rfl hbegins⟩

end Desk

end SqlGateway.Connection
