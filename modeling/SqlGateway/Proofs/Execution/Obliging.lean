import SqlGateway.Proofs.Execution.Account

/-!
# Servers that oblige

A server that accepts all it is asked, and answers each write with a row for each row that it
inserts. A plan that is run on such a server, in whatever transaction, comes to its end: all of its
writes are sent, and each is answered.
-/
namespace SqlGateway.Execution

open Connection (Driver Recorded Reply Session SessionM)
open Mutation (ParentLink Plan WriteNode)

/-- A reply that is a success and comes in time. -/
structure Accepts {α : Type} (timeout : Duration) (reply : Reply α) (v : α) : Prop where
  inTime : ¬ timeout.nanoseconds < reply.delay.nanoseconds
  result : reply.result = .ok v

theorem Accepts.settled {α : Type} {timeout : Duration} {reply : Reply α} {v : α}
    (h : Accepts timeout reply v) (document : Nat) : settled timeout document reply = .ok v := by
  rw [Execution.settled, if_neg h.inTime, h.result]

/-- The rows that answer a write: one for each row that it inserts, and no column has the name of a
key under which the rows of a child go. -/
structure Fits (p : Plan) (n : WriteNode) (r : ResultSet) : Prop where
  rows : r.rows.length = n.rows.length
  columns : ∀ column ∈ r.columns, ∀ child ∈ n.children, ∀ m link, p.nodes[child]? = some m →
    m.parent = some link → column.name ≠ link.key

/-- What may be sent of a write: the write as it was planned, or with a row of its parent put in. -/
def Fills (n m : WriteNode) : Prop := m = n ∨ ∃ row, m = n.inject row

/-- A server that obliges in all the states that it is ever in, once it is in one of them. -/
structure Obliges {σ : Type} (d : Driver σ) (timeout : Duration) (p : Plan) (ready : σ → Prop) :
    Prop where
  batch : ∀ a, ready a → ∀ sql, Accepts timeout (d.batch sql a).1 () ∧ ready (d.batch sql a).2
  query : ∀ a, ready a → ∀ n ∈ p.nodes, ∀ m, Fills n m →
    ∃ r, Accepts timeout (d.query m.sql m.parameters a).1 r ∧ Fits p n r ∧
      ready (d.query m.sql m.parameters a).2

theorem Obliges.recorded {σ : Type} {d : Driver σ} {timeout : Duration} {p : Plan}
    {ready : σ → Prop} (h : Obliges d timeout p ready) : Obliges d.recorded timeout p fun a =>
      ready a.server :=
  ⟨fun a => h.batch a.server, fun a => h.query a.server⟩

/-- A write of a plan that was sent. -/
def IsOf (p : Plan) (w : Sent) : Prop := ∃ n, p.nodes[w.id]? = some n ∧ Fills n w.node

/-- A write of a plan that was sent, accepted and answered. -/
def Answered (p : Plan) (timeout : Duration) (w : Sent) : Prop :=
  ∃ n r, p.nodes[w.id]? = some n ∧ w.outcome timeout = .ok r ∧ Fits p n r

section Courses
variable {p : Plan} {dialect : Dialect} {timeout : Duration} {inTransaction : Bool} {ids : List Nat}
  {sent : List Sent} {answers : Answers} {failures : List Error} {e : Error}

theorem rowsOf_returned (h : dialect.returning ≠ .unsupported) (n : WriteNode) (r : ResultSet) :
    rowsOf dialect n r = r.rows.map r.rowObject := by
  unfold rowsOf
  split
  · exact absurd ‹_› h
  · rfl

theorem fills_of_linked? {n m : WriteNode} (h : linked? p answers n = .ok (some m)) :
    Fills n m := by
  unfold linked? at h
  cases hparent : n.parent with
  | none =>
      rw [hparent] at h
      cases h
      exact .inl rfl
  | some link =>
      rw [hparent] at h
      dsimp only at h
      split at h
      · cases h
      · split at h
        · cases h
          exact .inr ⟨_, rfl⟩
        · split at h
          · cases h
            exact .inl rfl
          · cases h

theorem Course.isOf (h : Course p dialect timeout ids sent answers failures) :
    ∀ w ∈ sent, IsOf p w := by
  induction h with
  | start => exact List.forall_mem_nil _
  | skipped _ _ _ ih => exact ih
  | unlinked _ _ _ ih => exact ih
  | answered _ hn hlinked _ ih =>
      exact List.forall_mem_append.mpr
        ⟨ih, List.forall_mem_singleton.mpr ⟨_, hn, fills_of_linked? hlinked⟩⟩
  | failed _ hn hlinked _ ih =>
      exact List.forall_mem_append.mpr
        ⟨ih, List.forall_mem_singleton.mpr ⟨_, hn, fills_of_linked? hlinked⟩⟩

theorem Halts.isOf (h : Halts p dialect timeout inTransaction ids sent e) :
    ∀ w ∈ sent, IsOf p w := by
  cases h with
  | unlinked hcourse _ _ _ => exact hcourse.isOf
  | failed hcourse hn hlinked _ _ =>
      exact List.forall_mem_append.mpr
        ⟨hcourse.isOf, List.forall_mem_singleton.mpr ⟨_, hn, fills_of_linked? hlinked⟩⟩

theorem returnsLinked_of_answered (htree : p.IsTree) (hreturns : dialect.returning ≠ .unsupported)
    (h : ∀ w ∈ sent, Answered p timeout w) : ReturnsLinked p dialect timeout sent := by
  intro w hw r hr n hn link hlink hid
  obtain ⟨m, r', hm, hr', hfits⟩ := h w hw
  obtain rfl := Except.ok.inj (hr.symm.trans hr')
  obtain ⟨id, hat⟩ := List.mem_iff_getElem?.mp hn
  have hid' : id ≠ 0 := by
    rintro rfl
    rw [(htree.parent_eq_none_iff hat).mpr rfl] at hlink
    cases hlink
  obtain ⟨link', above, hlink', -, habove, -, hrow⟩ := htree.parent id n hat hid'
  obtain rfl := Option.some.inj (hlink.symm.trans hlink')
  rw [hid] at habove
  obtain rfl := Option.some.inj (hm.symm.trans habove)
  rwa [rowsOf_returned hreturns, List.length_map, hfits.rows]

/-- Where all is answered nothing stops a run. -/
theorem not_halts_of_answered (htree : p.IsTree) (hreturns : dialect.returning ≠ .unsupported)
    (h : ∀ w ∈ sent, Answered p timeout w) :
    ¬ Halts p dialect timeout inTransaction (List.range p.nodes.length) sent e := by
  intro hhalts
  generalize hall : List.range p.nodes.length = all at hhalts
  cases hhalts with
  | @failed _ _ _ _ _ id n m reply _ _ _ _ hsettled _ =>
      obtain ⟨_, r, -, hr, -⟩ :=
        h ⟨id, m, reply⟩ (List.mem_append_right _ (List.mem_singleton_self _))
      cases hsettled.symm.trans hr
  | @unlinked ids rest _ answers _ id n _ hcourse hn hlinked _ =>
      have hlength : ids.length < p.nodes.length := by
        have := congrArg List.length hall
        simp only [List.length_range, List.length_append, List.length_cons] at this
        omega
      have hids : ids = List.range ids.length := by
        have htake := congrArg (List.take ids.length) hall
        rw [List.take_range, Nat.min_eq_left (Nat.le_of_lt hlength), List.take_left] at htake
        exact htake.symm
      have hid : id = ids.length := by
        have hat := congrArg (·[ids.length]?) hall
        simpa [hlength] using hat.symm
      have hlinks := returnsLinked_of_answered htree hreturns h
      have htold := told_of_course htree hcourse hlinks hids (Nat.le_of_lt hlength)
      rw [hid] at hn
      rcases htold.linked? hlinks hn with ⟨_, hnone, -⟩ | ⟨_, hsome, -⟩
      · cases hlinked.symm.trans hnone
      · cases hlinked.symm.trans hsome

theorem failures_of_answered (h : ∀ w ∈ sent, Answered p timeout w) :
    sent.filterMap (·.failure? timeout) = [] := by
  rw [List.filterMap_eq_nil_iff]
  intro w hw
  obtain ⟨_, _, -, hr, -⟩ := h w hw
  rw [Sent.failure?, hr]

end Courses

section Runs
variable {σ : Type} {d : Driver σ} {p : Plan} {timeout : Duration} {inTransaction : Bool}
  {ready : σ → Prop}

theorem answer_eq_query (h : d.dialect.returning ≠ .unsupported) (n : WriteNode) :
    answer d n = d.query n.sql n.parameters := by
  unfold answer
  split
  · exact absurd ‹_› h
  · rfl

theorem Serves.answered (hobliges : Obliges d timeout p ready)
    (hreturns : d.dialect.returning ≠ .unsupported) {a b : σ} {sent : List Sent}
    (h : Serves d a sent b) (hready : ready a) (hsent : ∀ w ∈ sent, IsOf p w) :
    (∀ w ∈ sent, Answered p timeout w) ∧ ready b := by
  induction h with
  | nil => exact ⟨List.forall_mem_nil _, hready⟩
  | @cons a b c w rest hanswer _ ih =>
      obtain ⟨⟨n, hn, hfills⟩, hrest⟩ := List.forall_mem_cons.mp hsent
      obtain ⟨r, haccepts, hfits, hnext⟩ :=
        hobliges.query a hready n (List.mem_of_getElem? hn) w.node hfills
      rw [answer_eq_query hreturns] at hanswer
      rw [hanswer] at haccepts hnext
      obtain ⟨hothers, hlast⟩ := ih hnext hrest
      exact ⟨List.forall_mem_cons.mpr ⟨⟨n, r, hn, haccepts.settled _, hfits⟩, hothers⟩, hlast⟩

/-- All writes of a plan are sent and answered. -/
theorem runNodes_obliged (hobliges : Obliges d timeout p ready)
    (hreturns : d.dialect.returning ≠ .unsupported) (htree : p.IsTree) {a : σ} {s : Session σ}
    (hs : Stands d timeout inTransaction a s) (hready : ready a) :
    ∃ sent answers b s', Serves d a sent b ∧ Stands d timeout inTransaction b s' ∧ ready b ∧
      runNodes p s = (.ok (outcome p answers []), s') ∧
      Told p d.dialect timeout p.nodes.length sent answers [] ∧
      ∀ w ∈ sent, Answered p timeout w := by
  have horder := htree.order.1
  obtain ⟨sent, b, s', result, hserves, hs', hrun, hcomes⟩ :=
    runNodes_stands hs fun id hid => List.mem_range.mp (horder ▸ hid)
  rw [horder] at hcomes
  cases result with
  | error e =>
      obtain ⟨hanswered, -⟩ := hserves.answered hobliges hreturns hready hcomes.isOf
      exact absurd hcomes (not_halts_of_answered htree hreturns hanswered)
  | ok reached =>
      obtain ⟨answers, failures, hcourse, -, rfl⟩ := hcomes
      obtain ⟨hanswered, hlast⟩ := hserves.answered hobliges hreturns hready hcourse.isOf
      have htold :=
        told_of_course htree hcourse (returnsLinked_of_answered htree hreturns hanswered) rfl
        (Nat.le_refl _)
      obtain rfl : failures = [] := htold.failures.trans (failures_of_answered hanswered)
      exact ⟨sent, answers, b, s', hserves, hs', hlast, hrun, htold, hanswered⟩

variable {a : Recorded σ} {s : Session (Recorded σ)}

/-- The statements around a transaction are accepted and not put on record. -/
theorem batch_obliged (hobliges : Obliges d timeout p ready)
    (hs : Stands d.recorded timeout inTransaction a s) (hready : ready a.server) (sql : String)
    (document : Nat) :
    ∃ b s', Session.batch sql document s = (.ok (), s') ∧
    Stands d.recorded timeout inTransaction b s' ∧
      ready b.server ∧ b.record = a.record := by
  obtain ⟨reply, b, s', hreply, hrun, hs'⟩ := call_stands hs document (·.batch sql)
  obtain ⟨haccepts, hnext⟩ := hobliges.batch a.server hready sql
  obtain ⟨rfl, rfl⟩ := Prod.mk.inj hreply
  rw [haccepts.settled] at hrun
  exact ⟨_, s', hrun, hs', hnext, rfl⟩

theorem begin_obliged (hobliges : Obliges d timeout p ready)
    (hs : Stands d.recorded timeout false a s) (hready : ready a.server) :
    ∃ b s', Session.begin_ s = (.ok (), s') ∧
      Stands d.recorded timeout true b s' ∧ ready b.server ∧ b.record = a.record := by
  obtain ⟨b, s', hbatch, hs', hnext, hrecord⟩ :=
    batch_obliged hobliges hs hready s.dialect.beginStatement 0
  refine ⟨b, { s' with inTransaction := true }, ?_, ⟨hs'.driver, hs'.timeout, rfl, hs'.server⟩,
    hnext, hrecord⟩
  rw [Session.begin_run s hs.inTransaction, hbatch]

theorem commit_obliged (hobliges : Obliges d timeout p ready)
    (hs : Stands d.recorded timeout inTransaction a s) (hready : ready a.server) (document : Nat) :
    ∃ s', Session.commit document s = (.ok (), s') ∧
      s'.record = a.record := by
  cases inTransaction with
  | false =>
      exact ⟨s, Session.commit_of_closed document s hs.inTransaction,
        congrArg Recorded.record hs.server⟩
  | true =>
      obtain ⟨b, s', hbatch, hs', -, hrecord⟩ :=
        batch_obliged hobliges hs hready s.dialect.commitStatement document
      refine ⟨{ s' with inTransaction := false }, ?_,
        (congrArg Recorded.record hs'.server).trans hrecord⟩
      rw [Session.commit_run document s hs.inTransaction, hbatch]

theorem runOpened_obliged (hobliges : Obliges d timeout p ready)
    (hreturns : d.dialect.returning ≠ .unsupported) (htree : p.IsTree)
    (hs : Stands d.recorded timeout inTransaction a s) (hready : ready a.server)
    (options : TransactionOptions) :
    ∃ sent answers s', runOpened options p s = (.ok (outcome p answers []), s') ∧
      s'.record = a.record ++ sent.map (Sent.exchange d.dialect) ∧
      Told p d.dialect timeout p.nodes.length sent answers [] ∧
      ∀ w ∈ sent, Answered p timeout w := by
  obtain ⟨sent, answers, b, s', hserves, hs', hlast, hrun, htold, hanswered⟩ :=
    runNodes_obliged hobliges.recorded hreturns htree hs hready
  obtain ⟨s'', hcommit, hkept⟩ := commit_obliged hobliges hs' hlast 1
  rw [runOpened, Session.bind_run, Session.tryCatch_run, hrun]
  dsimp only
  cases options.commits with
  | false =>
      have hrecord := (congrArg Recorded.record hs'.server).trans hserves.record
      exact ⟨sent, answers, s', rfl, hrecord, htold, hanswered⟩
  | true =>
      refine ⟨sent, answers, s'', ?_, hkept.trans hserves.record, htold, hanswered⟩
      rw [if_pos rfl, Session.bind_run, hcommit]
      rfl

/-- A plan succeeds, whatever transaction it runs in or opens. -/
theorem runPlan_obliged (hobliges : Obliges d timeout p ready)
    (hreturns : d.dialect.returning ≠ .unsupported) (htree : p.IsTree)
    (hs : Stands d.recorded timeout inTransaction a s) (hready : ready a.server)
    (options : TransactionOptions) :
    ∃ sent answers s', runPlan options p s = (.ok (outcome p answers []), s') ∧
      s'.record = a.record ++ sent.map (Sent.exchange d.dialect) ∧
      Told p d.dialect timeout p.nodes.length sent answers [] ∧
      ∀ w ∈ sent, Answered p timeout w := by
  rw [runPlan_eq]
  split
  · rename_i hbegins
    have hclosed : inTransaction = false := by
      rw [hs.inTransaction] at hbegins
      simpa using (Bool.and_eq_true_iff.mp hbegins).2
    subst hclosed
    obtain ⟨b, s', hbegin, hs', hnext, hrecord⟩ := begin_obliged hobliges hs hready
    rw [Session.bind_run, hbegin, ← hrecord]
    exact runOpened_obliged hobliges hreturns htree hs' hnext options
  · exact runOpened_obliged hobliges hreturns htree hs hready options

end Runs

end SqlGateway.Execution
