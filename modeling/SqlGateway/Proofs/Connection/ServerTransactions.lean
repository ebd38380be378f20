import SqlGateway.Proofs.Connection.Ledgers

/-!
# Transactions as the server has them

A server opens and closes the transaction of a connection on the texts that it is sent, whoever
sends them; a session knows only of the transaction that it opened itself. Where a statement that
opens one is sent only inside of a transaction of the session, the session knows of every
transaction that is open on its connection, as long as no statement has failed on it.
-/
namespace SqlGateway.Connection

/-- Whether a transaction is open on the server after statements on a connection, by what each text
does to it: it opens one (`true`), closes it (`false`), or leaves it as it is. -/
def openAfter (effect : String → Option Bool) (uses : List Use) : Bool :=
  uses.foldl (fun isOpen u => (effect u.entry.statement.text).getD isOpen) false

theorem openAfter_concat (effect : String → Option Bool) (uses : List Use) (u : Use) :
    openAfter effect (uses ++ [u]) = (effect u.entry.statement.text).getD
      (openAfter effect uses) := by
  rw [openAfter, List.foldl_append]
  rfl

/-- A server that closes a transaction on the statements that are meant to do so. -/
structure Closes (effect : String → Option Bool) : Prop where
  commit : ∀ dialect : Dialect, effect dialect.commitStatement = some false
  rollback : ∀ dialect : Dialect, effect dialect.rollbackStatement = some false

/-- A lease that is not broken has a transaction open on the server only if the session knows of
one. -/
def Minds (effect : String → Option Bool) (lease : Lease) (inTransaction : Bool)
    (uses : List Use) : Prop :=
  lease.broken = true ∨ (openAfter effect uses = true → inTransaction = true)

namespace Session

variable {σ α β : Type} {d : Driver σ} {s s' s'' : Session (Journaled σ)}
  {effect : String → Option Bool}

/-- A step of a session that sends given statements and goes on minding the transaction of its
connection. -/
structure Tracks (effect : String → Option Bool) (d : Driver σ) (s s' : Session (Journaled σ))
    (sent : List Entry) : Prop extends Carries d s s' sent where
  minds : ∀ uses, Minds effect s.lease s.inTransaction uses →
    Minds effect s'.lease s'.inTransaction (uses ++ ledger sent s.timeout)

theorem Tracks.refl (hs : s.driver = d.journaled) : Tracks effect d s s [] :=
  ⟨.refl hs, fun uses h => by simpa [ledger] using h⟩

theorem Tracks.trans {sent more : List Entry} (h : Tracks effect d s s' sent)
    (k : Tracks effect d s' s'' more) : Tracks effect d s s'' (sent ++ more) where
  toCarries := h.toCarries.trans k.toCarries
  minds uses hs := by
    have hminds := k.minds _ (h.minds uses hs)
    rw [h.timeout] at hminds
    rw [ledger, List.map_append, ← List.append_assoc]
    exact hminds

/-- A step that tracks, on any session. -/
def Tracking (effect : String → Option Bool) (d : Driver σ) (m : SessionM (Journaled σ) α) : Prop :=
  ∀ s, s.driver = d.journaled → ∃ sent, Tracks effect d s (m s).2 sent

section Statements
variable {run : Except Error α × Session (Journaled σ)} {statement : Statement} {e : Entry}

/-- One statement that was put. If it succeeded, either the session takes a transaction for open
now, or none is open on the server. -/
theorem minds_of_puts (hputs : Puts d statement s run e) (hbreaks : Breaks s run)
    {before after : Bool} (h : ∀ isOpen, run.1.isOk = true → (isOpen = true → before = true) →
      (effect statement.text).getD isOpen = true → after = true) {uses : List Use}
    (huses : Minds effect s.lease before uses) :
    Minds effect run.2.lease after (uses ++ ledger [e] s.timeout) := by
  unfold Minds at huses ⊢
  rw [hbreaks.lease]
  cases hok : run.1.isOk with
  | false => exact .inl rfl
  | true =>
      refine huses.imp_right fun hopen => ?_
      rw [ledger, List.map_singleton, openAfter_concat, hputs.statement]
      exact h _ hok hopen

/-- A data statement that opens no transaction, or is sent inside of one. -/
theorem tracks_data {sql : String} {parameters : List Json}
    (hputs : Puts d (.data sql parameters) s run e) (hbreaks : Breaks s run)
    (hsql : effect sql ≠ some true ∨ s.inTransaction = true) : Tracks effect d s run.2 [e] := by
  refine ⟨carries_data hputs hbreaks, fun uses huses => ?_⟩
  refine minds_of_puts hputs hbreaks (fun isOpen _ hopen hafter => ?_) huses
  rw [hputs.inTransaction]
  refine hsql.elim (fun hnone => ?_) id
  cases heffect : effect sql with
  | none =>
      rw [Statement.text, heffect] at hafter
      exact hopen hafter
  | some opens =>
      rw [Statement.text, heffect] at hafter
      obtain rfl : opens = true := hafter
      exact absurd heffect hnone

end Statements

theorem query_tracks (hs : s.driver = d.journaled) {sql : String} (parameters : List Json)
    (document : Nat) (hsql : effect sql ≠ some true ∨ s.inTransaction = true) :
    ∃ sent, Tracks effect d s (query sql parameters document s).2 sent := by
  obtain ⟨e, hputs⟩ := query_puts hs sql parameters document
  exact ⟨[e], tracks_data hputs (call_breaks ..) hsql⟩

theorem execute_tracks (hs : s.driver = d.journaled) {sql : String} (parameters : List Json)
    (document : Nat) (hsql : effect sql ≠ some true ∨ s.inTransaction = true) :
    ∃ sent, Tracks effect d s (execute sql parameters document s).2 sent := by
  obtain ⟨e, hputs⟩ := execute_puts hs sql parameters document
  exact ⟨[e], tracks_data hputs (call_breaks ..) hsql⟩

theorem begin_tracks (hs : s.driver = d.journaled) :
    ∃ sent, Tracks effect d s (begin_ s).2 sent := by
  obtain ⟨sent, hcarries⟩ := begin_carries hs
  -- Whatever was open before, the session takes a transaction for open now, unless it has failed.
  have hknown : (begin_ s).2.lease.broken = true ∨ (begin_ s).2.inTransaction = true := by
    cases hopen : s.inTransaction with
    | true =>
        rw [begin_of_open s hopen]
        exact .inr hopen
    | false =>
        have hbreaks : Breaks s (batch s.dialect.beginStatement 0 s) := call_breaks ..
        rw [begin_run s hopen]
        rcases hrun : batch s.dialect.beginStatement 0 s with ⟨result, s'⟩
        rw [hrun] at hbreaks
        cases result with
        | ok _ => exact .inr rfl
        | error err =>
            refine .inl ?_
            dsimp only
            rw [hbreaks.lease]
            rfl
  exact ⟨sent, hcarries, fun _ _ => hknown.imp_right fun h _ => h⟩

theorem rollback_tracks (heffect : Closes effect) (hs : s.driver = d.journaled) :
    ∃ sent, Tracks effect d s (rollback s).2 sent := by
  cases hopen : s.inTransaction with
  | false =>
      rw [rollback_run, hopen]
      exact ⟨[], .refl hs⟩
  | true =>
      obtain ⟨sent, hcarries⟩ := rollback_carries hs
      have hdriver : { s with inTransaction := false : Session _ }.driver = d.journaled := hs
      obtain ⟨e, hputs⟩ := batch_puts hdriver s.dialect.rollbackStatement 0
      have hsent : sent = [e] := by
        have hjournal := hcarries.journal
        rw [rollback_run, hopen, if_pos rfl] at hjournal
        exact List.append_cancel_left (hjournal.symm.trans hputs.journal)
      subst hsent
      refine ⟨[e], hcarries, fun uses huses => ?_⟩
      rw [rollback_run, hopen, if_pos rfl, hputs.inTransaction]
      refine minds_of_puts hputs (call_breaks ..) (fun isOpen _ _ hafter => ?_) huses
      rw [Statement.text, heffect.rollback] at hafter
      exact hafter

theorem commit_tracks (heffect : Closes effect) (hs : s.driver = d.journaled) (document : Nat) :
    ∃ sent, Tracks effect d s (commit document s).2 sent := by
  cases hopen : s.inTransaction with
  | false =>
      rw [commit_of_closed document s hopen]
      exact ⟨[], .refl hs⟩
  | true =>
      obtain ⟨e, hputs⟩ := batch_puts hs s.dialect.commitStatement document
      have hbreaks : Breaks s (batch s.dialect.commitStatement document s) := call_breaks ..
      have hclosed : ∀ uses, Minds effect s.lease s.inTransaction uses →
          Minds effect (batch s.dialect.commitStatement document s).2.lease false
            (uses ++ ledger [e] s.timeout) := by
        intro uses huses
        refine minds_of_puts hputs hbreaks (fun isOpen _ _ hafter => ?_) huses
        rw [Statement.text, heffect.commit] at hafter
        exact hafter
      obtain ⟨sent, hcarries⟩ := commit_carries hs document
      rw [commit_run document s hopen] at hcarries ⊢
      rcases hrun : batch s.dialect.commitStatement document s with ⟨result, s'⟩
      rw [hrun] at hputs hbreaks hclosed hcarries
      cases result with
      | ok _ =>
          obtain rfl : sent = [e] :=
            List.append_cancel_left (hcarries.journal.symm.trans hputs.journal)
          exact ⟨[e], hcarries, hclosed⟩
      | error err =>
          have hfailed : Tracks effect d s s' [e] := by
            refine ⟨carries_failed hputs hbreaks rfl, fun _ _ => .inl ?_⟩
            rw [hbreaks.lease]
            rfl
          obtain ⟨more, hrollback⟩ := rollback_tracks heffect hfailed.driver
          exact ⟨[e] ++ more, hfailed.trans hrollback⟩

section Rules
variable {m : SessionM (Journaled σ) α}

theorem tracking_pure (x : α) : Tracking effect d (pure x) := fun _ hs => ⟨[], .refl hs⟩

theorem tracking_throw (e : Error) : Tracking effect d (throw e : SessionM (Journaled σ) α) :=
  fun _ hs => ⟨[], .refl hs⟩

theorem Tracking.bind (hm : Tracking effect d m) {f : α → SessionM (Journaled σ) β}
    (hf : ∀ x, Tracking effect d (f x)) : Tracking effect d (m >>= f) := by
  intro s hs
  obtain ⟨sent, hsent⟩ := hm s hs
  rw [bind_run]
  rcases hrun : m s with ⟨result, s'⟩
  rw [hrun] at hsent
  cases result with
  | ok x =>
      obtain ⟨more, hmore⟩ := hf x s' hsent.driver
      exact ⟨sent ++ more, hsent.trans hmore⟩
  | error e => exact ⟨sent, hsent⟩

theorem Tracking.tryCatch (hm : Tracking effect d m) {handle : Error → SessionM (Journaled σ) α}
    (hhandle : ∀ e, Tracking effect d (handle e)) : Tracking effect d (tryCatch m handle) := by
  intro s hs
  obtain ⟨sent, hsent⟩ := hm s hs
  rw [tryCatch_run]
  rcases hrun : m s with ⟨result, s'⟩
  rw [hrun] at hsent
  cases result with
  | ok x => exact ⟨sent, hsent⟩
  | error e =>
      obtain ⟨more, hmore⟩ := hhandle e s' hsent.driver
      exact ⟨sent ++ more, hsent.trans hmore⟩

theorem tracking_get {f : Session (Journaled σ) → SessionM (Journaled σ) α}
    (hf : ∀ s, Tracking effect d (f s)) : Tracking effect d (get >>= f) := fun s hs => hf s s hs

theorem tracking_abandon (heffect : Closes effect) :
    Tracking effect d (abandon : SessionM (Journaled σ) Unit) := by
  intro s hs
  rw [abandon_run]
  exact rollback_tracks heffect hs

end Rules

end Session

/-- What was done on the connection that a pool has ready: the first one that may still be used, or
a new one. -/
def lentUses (p : Pool σ) (kept : List Ledger) : List Use :=
  ((kept.dropWhile (!p.isFresh ·.opened)).head?.map (·.uses)).getD []

/-- The connections that a pool keeps, each with what was done on it, after a session on the pool,
or after none was given. If the pool keeps one connection more at the end of the session, it is that
of the session. -/
def keptAfter (p : Pool (Journaled σ)) (kept : List Ledger)
    (session : Option (Session (Journaled σ))) (after : Pool (Journaled σ)) : List Ledger :=
  match session with
  | none => if after.idle.isEmpty then [] else kept
  | some s =>
    let others := (kept.dropWhile (!p.isFresh ·.opened)).tail
    let uses := lentUses p kept ++ Session.ledger (s.journal.drop p.server.journal.length) s.timeout
    others ++ if others.length < after.idle.length then [⟨s.lease.opened, uses⟩] else []

/-- On no connection that a pool keeps a transaction is open on the server. -/
structure KeptClosed (effect : String → Option Bool) (d : Driver σ) (p : Pool (Journaled σ))
    (kept : List Ledger) : Prop where
  driver : p.driver = d.journaled
  mirrored : p.idle = kept.map (·.opened)
  closed : ∀ l ∈ kept, openAfter effect l.uses = false

section KeptClosed
variable {σ : Type} {d : Driver σ} {effect : String → Option Bool} {p : Pool (Journaled σ)}
  {kept : List Ledger} {timeout : Duration}

theorem KeptClosed.untouched (h : KeptClosed effect d p kept) : keptAfter p kept none p = kept := by
  rw [keptAfter, h.mirrored, List.isEmpty_map]
  cases kept <;> rfl

theorem start_idle {s : Session (Journaled σ)} (h : (Session.start timeout p).1 = .ok s) :
    (Session.start timeout p).2.driver = p.driver ∧
      (Session.start timeout p).2.idle = (p.idle.dropWhile (!p.isFresh ·)).tail := by
  have hidle := Desk.acquire_idle p
  unfold Session.start at h ⊢
  rcases hacquire : p.acquire with ⟨result, pool⟩
  rw [hacquire] at h hidle
  cases result with
  | error e => cases h
  | ok lease => exact hidle

/-- Behind a session the pool has the kept connections that come after the first one that may be
used. -/
theorem KeptClosed.idle_of_start (h : KeptClosed effect d p kept) {s : Session (Journaled σ)}
    (hstart : (Session.start timeout p).1 = .ok s) : (Session.start timeout p).2.idle =
      (kept.dropWhile (!p.isFresh ·.opened)).tail.map (·.opened) := by
  rw [(start_idle hstart).2, h.mirrored, List.dropWhile_map, ← List.map_tail]
  rfl

theorem KeptClosed.refused (h : KeptClosed effect d p kept) {e : Error}
    (hstart : (Session.start timeout p).1 = .error e) :
    KeptClosed effect d (Session.start timeout p).2
      (keptAfter p kept none (Session.start timeout p).2) := by
  obtain ⟨hdriver, hidle⟩ := Desk.acquire_idle p
  unfold Session.start at hstart ⊢
  rcases hacquire : p.acquire with ⟨result, pool⟩
  rw [hacquire] at hstart hdriver hidle
  cases result with
  | ok lease => cases hstart
  | error e =>
      dsimp only at hidle ⊢
      have hpool : pool.driver = d.journaled := hdriver.trans h.driver
      by_cases havailable : p.available = 0
      · rw [if_pos havailable, h.mirrored] at hidle
        have hkept : keptAfter p kept none pool = kept := by
          rw [keptAfter, hidle]
          cases kept <;> rfl
        rw [hkept]
        exact ⟨hpool, hidle, h.closed⟩
      · rw [if_neg havailable] at hidle
        have hkept : keptAfter p kept none pool = [] := by
          rw [keptAfter, hidle]
          rfl
        rw [hkept]
        exact ⟨hpool, hidle, List.forall_mem_nil _⟩

theorem KeptClosed.lentUses (h : KeptClosed effect d p kept) :
    openAfter effect (lentUses p kept) = false := by
  unfold Connection.lentUses
  cases hhead : kept.dropWhile (!p.isFresh ·.opened) with
  | nil => rfl
  | cons l rest => exact h.closed l ((List.dropWhile_sublist _).subset (hhead ▸ List.mem_cons_self))

/-- Where a session has known of every transaction on its connection, none is open on those that the
pool keeps after it: a session that knows of one gives its connection back broken. -/
theorem KeptClosed.finish (h : KeptClosed effect d p kept) {s₀ s : Session (Journaled σ)}
    {sent : List Entry} (hstart : (Session.start timeout p).1 = .ok s₀)
    (htracks : Session.Tracks effect d s₀ s sent) :
    KeptClosed effect d (s.finish (Session.start timeout p).2)
      (keptAfter p kept (some s) (s.finish (Session.start timeout p).2)) := by
  have hjournal : s.journal.drop p.server.journal.length = sent := by
    obtain ⟨-, hstarted⟩ := Session.start_pooled (⟨h.driver, rfl⟩ : Session.Pooled d _ p) timeout
    rw [htracks.journal, (hstarted s₀ hstart).journal, List.append_nil]
    exact List.drop_left
  let others := (kept.dropWhile (!p.isFresh ·.opened)).tail
  let uses := Connection.lentUses p kept ++ Session.ledger sent s₀.timeout
  have hothers : ∀ l ∈ others, openAfter effect l.uses = false :=
    fun l hl => h.closed l ((List.dropWhile_sublist _).subset (List.mem_of_mem_tail hl))
  have hidle := h.idle_of_start hstart
  have hdriver := (start_idle hstart).1.trans h.driver
  generalize (Session.start timeout p).2 = lent at hidle hdriver ⊢
  have hminds : Minds effect s.lease s.inTransaction uses := by
    refine htracks.minds _ (.inr fun hopen => ?_)
    cases h.lentUses.symm.trans hopen
  have hkept : keptAfter p kept (some s) (s.finish lent) = others ++
      if others.length < (s.finish lent).idle.length then [⟨s.lease.opened, uses⟩] else [] := by
    rw [keptAfter, hjournal, htracks.timeout]
  rw [hkept]
  obtain ⟨hsame, hunchanged | ⟨hbroken, hclosed, hgrown⟩⟩ := Desk.finish_idle s lent
  · have hlength : ¬ others.length < (others.map (·.opened)).length := by simp
    rw [hunchanged, hidle, if_neg hlength, List.append_nil]
    exact ⟨hsame.trans hdriver, hunchanged.trans hidle, hothers⟩
  · -- The connection is kept, so the session knew of no transaction at its end.
    rw [Minds, hbroken, hclosed] at hminds
    have hlength : others.length < (others.map (·.opened) ++ [s.lease.opened]).length := by simp
    rw [hgrown, hidle, if_pos hlength]
    refine ⟨hsame.trans hdriver, ?_,
      List.forall_mem_append.mpr ⟨hothers, List.forall_mem_singleton.mpr ?_⟩⟩
    · rw [hgrown, hidle, List.map_append]
      rfl
    · refine Bool.eq_false_iff.mpr fun hopen => ?_
      cases hminds.resolve_left Bool.false_ne_true hopen

end KeptClosed

end SqlGateway.Connection
