import SqlGateway.Proofs.Execution.Account
import SqlGateway.Proofs.Execution.ForeignKeys

/-!
# Partial failure

Outside of a transaction a failed write takes with it what hangs below it, and nothing else; a
failed root ends the plan.
-/
namespace SqlGateway.Execution

open Connection (Driver Recorded Scripted Session SessionM)
open Mutation (ParentLink Plan Planner RootRow WriteNode)
open Request (Variables)

/-- A write stands above another: it is its parent, or stands above its parent. -/
inductive Above (nodes : List WriteNode) : (above id : Nat) → Prop where
  | parent {id : Nat} {n : WriteNode} {link : ParentLink} :
      nodes[id]? = some n → n.parent = some link → Above nodes link.node id
  | further {above id : Nat} {n : WriteNode} {link : ParentLink} : nodes[id]? = some n →
      n.parent = some link → Above nodes above link.node → Above nodes above id

/-- What a plan comes to outside of a transaction, by the writes that were sent. -/
structure Accounts (p : Plan) (dialect : Dialect) (timeout : Duration) (sent : List Sent)
    (result : Except Error WriteOutcome) : Prop where
  /-- Every write is sent once at most, in the order of the plan. -/
  ordered : (sent.map (·.id)).Pairwise (· < ·)
  /-- A write is sent exactly if all above it succeeded. -/
  reached : ∀ id < p.nodes.length, (∃ w ∈ sent, w.id = id) ↔
    ∀ above, Above p.nodes above id → ∃ w ∈ sent, w.id = above ∧ ∃ r, w.outcome timeout = .ok r
  /-- What is sent is the write of the plan, with the row of its parent put in. -/
  linked : ∀ w ∈ sent, ∃ n, p.nodes[w.id]? = some n ∧ IsLinked dialect timeout sent n w.node
  /-- A failed root is the failure of the plan, and nothing else is sent. Otherwise the plan
  succeeds with the rows that the root shows and the failures of the writes that failed. -/
  result : ∃ w rest, sent = w :: rest ∧ w.id = 0 ∧
    match w.outcome timeout with
    | .error e => rest = [] ∧ result = .error e
    | .ok _ => ∃ objects, Shows p dialect timeout sent 0 objects ∧
        result = .ok ⟨objects.map fun o => .object (p.projection.apply o),
          sent.filterMap (·.failure? timeout)⟩
  /-- A failure in the database has the number of the outermost document that the write belongs
  to. -/
  document : ∀ w ∈ sent, w.id ≠ 0 → ∀ number what, w.outcome timeout =
    .error (.database number what) → ∃ row, RootRow p.nodes w.id row ∧ number = row + 1

section Outside
variable {σ : Type} {p : Plan} {s s' : Session σ}

/-- Where no transaction is open or asked for, the options change nothing. -/
theorem runPlan_outside {options : TransactionOptions} (hbegins : options.begins = false)
    {result : Except Error WriteOutcome} (hrun : runNodes p s = (result, s'))
    (hopen : s'.inTransaction = false) : runPlan options p s = (result, s') := by
  have hcommit := Session.commit_of_closed 1 s' hopen
  have habandon := Session.abandon_of_closed s' hopen
  rw [runPlan_eq, hbegins, Bool.false_and, if_neg Bool.false_ne_true, runOpened, Session.bind_run,
    Session.tryCatch_run, hrun]
  cases result with
  | ok reached =>
      dsimp only
      split
      · rw [Session.bind_run, hcommit]
        rfl
      · rfl
  | error e =>
      dsimp only
      rw [Session.bind_run, habandon]
      rfl

end Outside

section Courses
variable {p : Plan} {dialect : Dialect} {timeout : Duration} {sent : List Sent} {answers : Answers}
  {failures : List Error}

theorem Course.of_nil (h : Course p dialect timeout [] sent answers failures) :
    sent = [] ∧ answers = List.replicate p.nodes.length none ∧ failures = [] := by
  generalize hids : ([] : List Nat) = ids at h
  cases h with
  | start => exact ⟨rfl, rfl, rfl⟩
  | skipped _ _ _ => simp at hids
  | answered _ _ _ _ => simp at hids
  | failed _ _ _ _ => simp at hids
  | unlinked _ _ _ => simp at hids

/-- Behind a failed root everything is left out. -/
theorem course_of_failed_root (htree : p.IsTree) {w : Sent} {e : Error} (hid : w.id = 0)
    (hroot : p.nodes[0]? = some w.node) (hout : w.outcome timeout = .error e) (k : Nat)
    (hk : k < p.nodes.length) : Course p dialect timeout (List.range (k + 1)) [w]
      (List.replicate p.nodes.length none) [e] := by
  induction k with
  | zero =>
      obtain ⟨id, node, reply⟩ := w
      obtain rfl : id = 0 := hid
      have hlinked : linked? p (List.replicate p.nodes.length none) node = .ok (some node) := by
        rw [linked?, (htree.parent_eq_none_iff hroot).mpr rfl]
      exact .failed .start hroot hlinked hout
  | succ k ih =>
      have hn : p.nodes[k + 1]? = some p.nodes[k + 1] := List.getElem?_eq_getElem hk
      have hlinked : linked? p (List.replicate p.nodes.length none) p.nodes[k + 1] = .ok none := by
        obtain ⟨link, _, hlink, -⟩ := htree.parent (k + 1) _ hn (Nat.succ_ne_zero k)
        have hnone : answerOf (List.replicate p.nodes.length none) link.node = none := by
          rw [answerOf, List.getD_eq_getElem?_getD, List.getElem?_replicate]
          split <;> rfl
        rw [linked?, hlink]
        dsimp only
        rw [hnone]
      rw [List.range_succ]
      exact .skipped (ih (Nat.lt_of_succ_lt hk)) hn hlinked

/-- Outside of a transaction only a failed root stops a run. -/
theorem Halts.failed_root (htree : p.IsTree) {e : Error}
    (h : Halts p dialect timeout false (List.range p.nodes.length) sent e) :
    ∃ w, sent = [w] ∧ w.id = 0 ∧ p.nodes[0]? = some w.node ∧ w.outcome timeout = .error e := by
  generalize hids : List.range p.nodes.length = all at h
  cases h with
  | @failed ids rest sent answers failures id n m reply e hcourse hn hlinked hsettled hends =>
      have hnone : n.parent = none := hends.resolve_right Bool.false_ne_true
      obtain rfl := (htree.parent_eq_none_iff hn).mp hnone
      have hfirst : ids = [] := by
        have hat : (List.range p.nodes.length)[ids.length]? = some 0 := by simp [hids]
        obtain ⟨_, hzero⟩ := List.getElem?_eq_some_iff.mp hat
        rw [List.getElem_range] at hzero
        exact List.length_eq_zero_iff.mp hzero
      subst hfirst
      obtain ⟨rfl, rfl, rfl⟩ := hcourse.of_nil
      rw [linked?, hnone] at hlinked
      cases hlinked
      exact ⟨_, rfl, rfl, hn, hsettled⟩
  | unlinked _ _ hlinked hends =>
      rw [linked?, hends.resolve_right Bool.false_ne_true] at hlinked
      cases hlinked

end Courses

section Accounts
variable {p : Plan} {dialect : Dialect} {timeout : Duration} {sent : List Sent} {answers : Answers}
  {failures : List Error}

theorem Told.succeeded_iff (h : Told p dialect timeout p.nodes.length sent answers failures)
    {id : Nat} :
    rowsAt dialect timeout sent id ≠ none ↔ ∃ w ∈ sent, w.id = id ∧
    ∃ r, w.outcome timeout = .ok r := by
  constructor
  · intro hrows
    obtain ⟨rows, hrows⟩ := Option.ne_none_iff_exists'.mp hrows
    obtain ⟨w, hw, hid, r, hr, -⟩ := exists_of_rowsAt hrows
    exact ⟨w, hw, hid, r, hr⟩
  · rintro ⟨w, hw, rfl, r, hr⟩
    rw [h.rowsAt_of_mem hw, hr]
    exact Option.some_ne_none _

theorem Told.sent_iff (htree : p.IsTree)
    (h : Told p dialect timeout p.nodes.length sent answers failures) {id : Nat}
    (hid : id < p.nodes.length) : (∃ w ∈ sent, w.id = id) ↔
      ∀ above, Above p.nodes above id → ∃ w ∈ sent, w.id = above ∧
      ∃ r, w.outcome timeout = .ok r := by
  induction id using Nat.strongRecOn with
  | ind id ih =>
    have hn : p.nodes[id]? = some p.nodes[id] := List.getElem?_eq_getElem hid
    rw [h.reached id _ hid hn]
    constructor
    · intro hparent above habove
      have hsucceeded : ∀ link, p.nodes[id].parent = some link →
          ∃ w ∈ sent, w.id = link.node ∧ ∃ r, w.outcome timeout = .ok r :=
        fun link hlink => h.succeeded_iff.mp (hparent link hlink)
      cases habove with
      | parent hn' hlink =>
          obtain rfl := Option.some.inj (hn.symm.trans hn')
          exact hsucceeded _ hlink
      | further hn' hlink habove =>
          obtain rfl := Option.some.inj (hn.symm.trans hn')
          obtain ⟨w, hw, hwid, -⟩ := hsucceeded _ hlink
          have hlt := htree.parent_lt hn hlink
          exact (ih _ hlt (Nat.lt_trans hlt hid)).mp ⟨w, hw, hwid⟩ above habove
    · intro hall link hlink
      exact h.succeeded_iff.mpr (hall link.node (.parent hn hlink))

theorem settled_database {reply : Connection.Reply ResultSet} {document number : Nat}
    {what : String} (h : settled timeout document reply = .error (.database number what)) :
    number = document := by
  unfold settled at h
  split at h
  · cases h
  · cases hresult : reply.result with
    | ok r =>
        rw [hresult] at h
        cases h
    | error e =>
        rw [hresult] at h
        cases e <;> cases h <;> rfl

theorem IsLinked.document {n m : WriteNode} (h : IsLinked dialect timeout sent n m) :
    m.document = n.document := by
  unfold IsLinked at h
  cases hparent : n.parent with
  | none =>
      rw [hparent] at h
      rw [h]
  | some link =>
      rw [hparent] at h
      obtain ⟨_, row, -, -, rfl⟩ := h
      rw [Mutation.inject_eq]

/-- All but the result of the plan is told by a course through all of its writes. -/
theorem Told.accounts (htree : p.IsTree)
    (h : Told p dialect timeout p.nodes.length sent answers failures)
    {result : Except Error WriteOutcome} (hresult : ∃ w rest, sent = w :: rest ∧ w.id = 0 ∧
      match w.outcome timeout with
      | .error e => rest = [] ∧ result = .error e
      | .ok _ => ∃ objects, Shows p dialect timeout sent 0 objects ∧
          result = .ok ⟨objects.map fun o => .object (p.projection.apply o),
            sent.filterMap (·.failure? timeout)⟩) : Accounts p dialect timeout sent result where
  ordered := h.ordered
  reached _ hid := h.sent_iff htree hid
  linked := h.linked
  result := hresult
  document w hw hid number what hout := by
    obtain ⟨n, hn, hlinked⟩ := h.linked w hw
    obtain ⟨⟨row, hrow⟩, hdocument⟩ := htree.document w.id n hn hid
    refine ⟨row, hrow, ?_⟩
    rw [settled_database hout, hlinked.document, hdocument row hrow]

theorem accounts_of_halts (htree : p.IsTree) {e : Error}
    (h : Halts p dialect timeout false (List.range p.nodes.length) sent e)
    (hreturns : ReturnsLinked p dialect timeout sent) :
    Accounts p dialect timeout sent (.error e) := by
  obtain ⟨w, rfl, hid, hroot, hout⟩ := h.failed_root htree
  obtain ⟨-, root, hfirst, -⟩ := htree.root
  have hlength : 0 < p.nodes.length := (List.getElem?_eq_some_iff.mp hfirst).1
  have hcourse : Course p dialect timeout (List.range (p.nodes.length - 1 + 1)) [w] _ [e] :=
    course_of_failed_root htree hid hroot hout (p.nodes.length - 1) (by omega)
  rw [Nat.sub_add_cancel hlength] at hcourse
  refine (told_of_course htree hcourse hreturns rfl (Nat.le_refl _)).accounts htree ?_
  refine ⟨w, [], rfl, hid, ?_⟩
  rw [hout]
  exact ⟨rfl, rfl⟩

theorem Told.exists_root (htree : p.IsTree)
    (h : Told p dialect timeout p.nodes.length sent answers failures) :
    ∃ w rest, sent = w :: rest ∧ w.id = 0 := by
  obtain ⟨-, root, hroot, hnone⟩ := htree.root
  have hlength : 0 < p.nodes.length := (List.getElem?_eq_some_iff.mp hroot).1
  obtain ⟨v, hv, hid⟩ := (h.reached 0 root hlength hroot).mpr fun link hlink => by
    rw [hnone] at hlink
    cases hlink
  cases sent with
  | nil => cases hv
  | cons w rest =>
      refine ⟨w, rest, rfl, ?_⟩
      rcases List.mem_cons.mp hv with rfl | hrest
      · exact hid
      · have hlt := (List.pairwise_cons.mp h.ordered).1 v.id (List.mem_map_of_mem hrest)
        omega

/-- The rows of a plan are those that its root shows. -/
theorem Told.outcome_eq (htree : p.IsTree)
    (h : Told p dialect timeout p.nodes.length sent answers failures) {w : Sent} {r : ResultSet}
    (hw : w ∈ sent) (hid : w.id = 0) (hr : w.outcome timeout = .ok r) :
    ∃ objects, Shows p dialect timeout sent 0 objects ∧ outcome p answers failures =
      ⟨objects.map fun o => .object (p.projection.apply o),
        sent.filterMap (·.failure? timeout)⟩ := by
  have hanswer := (h.answers w.id).trans (h.rowsAt_of_mem hw)
  rw [hr, hid] at hanswer
  obtain ⟨n, hn, -⟩ := h.linked w hw
  obtain ⟨depth, hdepth⟩ : ∃ depth, p.nodes.length = depth + 1 :=
    Nat.exists_eq_succ_of_ne_zero (Nat.ne_of_gt (Nat.zero_lt_of_lt (h.within w hw)))
  have hshows := shows_nested htree h hw (Nat.le_add_right _ _)
  rw [hid] at hn hshows
  obtain ⟨objects, hobjects⟩ : ∃ objects, nested p answers p.nodes.length 0 = some objects := by
    rw [hdepth]
    exact ⟨_, nested_succ hn hanswer⟩
  rw [shown, hobjects, Option.getD_some] at hshows
  refine ⟨objects, hshows, ?_⟩
  rw [outcome, htree.root.1, List.flatMap_singleton, hobjects, Option.getD_some, h.failures]

theorem accounts_of_course (htree : p.IsTree)
    (h : Course p dialect timeout (List.range p.nodes.length) sent answers failures)
    (hpassed : PassedOver p timeout false sent) (hreturns : ReturnsLinked p dialect timeout sent) :
    Accounts p dialect timeout sent (.ok (outcome p answers failures)) := by
  have htold := told_of_course htree h hreturns rfl (Nat.le_refl _)
  refine htold.accounts htree ?_
  obtain ⟨w, rest, hsent, hid⟩ := htold.exists_root htree
  have hw : w ∈ sent := by
    rw [hsent]
    exact List.mem_cons_self
  obtain ⟨n, hn, -⟩ := htold.linked w hw
  obtain ⟨r, hr⟩ := hpassed w hw n hn (.inl ((htree.parent_eq_none_iff hn).mpr hid))
  obtain ⟨objects, hshows, houtcome⟩ := htold.outcome_eq htree hw hid hr
  refine ⟨w, rest, hsent, hid, ?_⟩
  rw [hr]
  exact ⟨objects, hshows, congrArg Except.ok houtcome⟩

end Accounts

/-- Partial failure is exact. A plan of the planner that is run where no transaction is open or
asked for sends some writes and nothing else, and if those that succeed return the rows that other
writes are linked to, these writes and how they came out tell everything. -/
theorem partial_failure_exact {σ : Type} {p : Planner} {vars : Variables} {plan : Plan}
    (hrules : p.ForcesDistinctKeys vars) (hplan : p.Makes vars plan) {options : TransactionOptions}
    (hbegins : options.begins = false) {s : Session σ} (hopen : s.inTransaction = false) :
    ∃ sent, Serves s.driver s.server sent (runPlan options plan s).2.server ∧
      (ReturnsLinked plan s.dialect s.timeout sent →
        Accounts plan s.dialect s.timeout sent (runPlan options plan s).1) := by
  have htree : plan.IsTree := by
    cases hplan with
    | insert hdocs h => exact Mutation.isTree_of_planInsert hrules hdocs h
    | update hdocs h => exact Mutation.isTree_of_planUpdate hrules hdocs h
    | delete h => exact Mutation.isTree_of_planDelete h
    | insertSelect h => exact Mutation.isTree_of_planInsertSelect h
  have hs : Stands s.driver s.timeout false s.server s := ⟨rfl, rfl, hopen, rfl⟩
  have horder := htree.order.1
  obtain ⟨sent, b, s', result, hserves, hs', hrun, hcomes⟩ :=
    runNodes_stands hs fun id hid => List.mem_range.mp (horder ▸ hid)
  rw [runPlan_outside hbegins hrun hs'.inTransaction]
  refine ⟨sent, hs'.server.symm ▸ hserves, fun hreturns => ?_⟩
  rw [horder] at hcomes
  cases result with
  | error e => exact accounts_of_halts htree hcomes hreturns
  | ok reached =>
      obtain ⟨answers, failures, hcourse, hpassed, rfl⟩ := hcomes
      exact accounts_of_course htree hcourse hpassed hreturns

section Shop

/-- A user with two orders, the first of which has an item. -/
def annsOrders : Json :=
  .object [("name", .text "ann"), ("orders", .list [
    .object [("total", .int 5), ("items", .object [("id", .int 8)])], .object [("total", .int 6)]])]

/-- A session on a database that refuses the second statement. -/
def refusingSession : Session (Recorded Scripted) :=
  { scriptedSession .postgres [] with
    server := ⟨⟨[.rows (keyRow 1), .failure (.task "boom"), .rows (keyRow 11)], [], [], []⟩, []⟩ }

def rowCount : Connection.Exchange → Option Nat
  | .query _ _ reply => reply.result.toOption.map (·.rows.length)
  | .execute _ _ reply => reply.result.toOption.map (·.rows.length)

/-- What comes of a plan on a session, in text. -/
def answerTexts {σ : Type} (s : Session σ) (plan : Plan) : Option (List String × List Error) :=
  (runPlan withoutTransaction plan s).1.toOption.map fun outcome =>
    (outcome.rows.map (·.compact), outcome.failures)

theorem partial_failure_annsOrders :
    ∃ plan sent, (shopPlanner .postgres).planInsert [] "users" annsOrders .empty = .ok plan ∧
      (runPlan withoutTransaction plan refusingSession).2.record =
        sent.map (Sent.exchange .postgres) ∧
      sent.map (fun w => rowCount (w.exchange .postgres)) = [some 1, none, some 1] ∧
      Accounts plan .postgres (.ofSeconds 1)
        sent (runPlan withoutTransaction plan refusingSession).1 ∧
      answerTexts refusingSession plan =
        some (["\x7b\"id\":1,\"orders\":[\x7b\x7d,\x7b\"id\":11\x7d]\x7d"],
          [.database 1 "Driver task failed: boom"]) := by
  have hrules : (shopPlanner .postgres).ForcesDistinctKeys [] := by
    intro table content forced _ hforced
    obtain rfl : ([] : Object) = forced := Except.ok.inj hforced
    exact List.forall_mem_nil _
  obtain ⟨plan, hplan⟩ := exists_eq_ok
    (x := (shopPlanner .postgres).planInsert [] "users" annsOrders .empty) (by decide +kernel)
  have hbegins : withoutTransaction.begins = false := rfl
  have hopen : refusingSession.inTransaction = false := rfl
  obtain ⟨sent, hserves, haccounts⟩ :=
    partial_failure_exact hrules (.insert (by decide +kernel) hplan) hbegins hopen
  have hrecord : (runPlan withoutTransaction plan refusingSession).2.record =
      sent.map (Sent.exchange .postgres) := hserves.record
  have hcounts : sent.map (fun w => rowCount (w.exchange .postgres)) = [some 1, none, some 1] := by
    have hmapped := congrArg (List.map rowCount) hrecord
    rw [List.map_map] at hmapped
    rw [← Function.comp_def, ← hmapped]
    exact part_eq (g := fun plan =>
      (runPlan withoutTransaction plan refusingSession).2.record.map rowCount)
      hplan (by decide +kernel)
  have hlinks : plan.nodes.all (fun n => n.parent.all (·.row == 0)) = true :=
    part_eq (g := fun plan : Plan => plan.nodes.all (fun n => n.parent.all (·.row == 0))) hplan
      (by decide +kernel)
  refine ⟨plan, sent, hplan, hrecord, hcounts, haccounts ?_, ?_⟩
  · -- every reply that is a success has one row, and no write is linked to a second one
    intro w hw r hr n hn link hlink _
    have hrow : link.row = 0 := by
      have hall := List.all_eq_true.mp hlinks n hn
      simpa [hlink] using hall
    have hreply : rowCount (w.exchange .postgres) = some r.rows.length := by
      change w.reply.result.toOption.map (·.rows.length) = _
      rw [result_of_outcome hr]
      rfl
    have hmem : some r.rows.length ∈ [some 1, none, some 1] := by
      rw [← hcounts, ← hreply]
      exact List.mem_map_of_mem hw
    have hlength : r.rows.length = 1 := by simpa using hmem
    have hrows : (rowsOf refusingSession.dialect w.node r).length = 1 :=
      (List.length_map _).trans hlength
    rw [hrow, hrows]
    exact Nat.one_pos
  · exact part_eq (g := answerTexts refusingSession) hplan (by decide +kernel)

end Shop

end SqlGateway.Execution
