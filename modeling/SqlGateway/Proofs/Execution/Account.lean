import SqlGateway.Proofs.Execution.Course
import SqlGateway.Proofs.Execution.Nesting
import SqlGateway.Proofs.Mutation.Tree

/-!
# The account of a run

All that a run comes to is told by the writes that were sent and how each of them came out: which
writes were sent at all, the failures that were passed over, and the rows that are shown. A write
that failed shows an empty object in the place of its rows, and what hangs below it was never sent.
-/
namespace SqlGateway.Execution

open Mutation (ParentLink Plan WriteNode)

/-- The rows that the write at a place was answered with; none, if it was not sent or failed. -/
def rowsAt (dialect : Dialect) (timeout : Duration) (sent : List Sent) (id : Nat) :
    Option (List Object) :=
  (sent.find? (·.id == id)).bind fun w => (w.outcome timeout).toOption.map (rowsOf dialect w.node)

def Sent.failure? (timeout : Duration) (w : Sent) : Option Error :=
  match w.outcome timeout with
  | .error e => some e
  | .ok _ => none

/-- Every write that succeeded returned a row for each child that is linked to it. -/
def ReturnsLinked (p : Plan) (dialect : Dialect) (timeout : Duration) (sent : List Sent) : Prop :=
  ∀ w ∈ sent, ∀ r, w.outcome timeout = .ok r → ∀ n ∈ p.nodes, ∀ link, n.parent = some link →
    link.node = w.id → link.row < (rowsOf dialect w.node r).length

/-- A write as it is to be sent: below a parent, with the row put in that it is linked to. -/
def IsLinked (dialect : Dialect) (timeout : Duration) (sent : List Sent) (n m : WriteNode) : Prop :=
  match n.parent with
  | none => m = n
  | some link => ∃ rows row, rowsAt dialect timeout sent link.node = some rows ∧
      rows[link.row]? = some row ∧ m = n.inject row

section Sent
variable {dialect : Dialect} {timeout : Duration} {sent more : List Sent} {w : Sent} {id : Nat}

theorem rowsAt_append_of_ne (h : w.id ≠ id) :
    rowsAt dialect timeout (sent ++ [w]) id = rowsAt dialect timeout sent id := by
  rw [rowsAt, List.find?_append]
  simp [rowsAt, h]

theorem rowsAt_append_self (h : ∀ v ∈ sent, v.id ≠ w.id) :
    rowsAt dialect timeout (sent ++ [w]) w.id =
    (w.outcome timeout).toOption.map (rowsOf dialect w.node) := by
  have hnone : sent.find? (·.id == w.id) = none := by simpa [List.find?_eq_none] using h
  rw [rowsAt, List.find?_append, hnone]
  simp

theorem exists_of_rowsAt {rows : List Object} (h : rowsAt dialect timeout sent id = some rows) :
    ∃ w ∈ sent, w.id = id ∧ ∃ r, w.outcome timeout = .ok r ∧ rows = rowsOf dialect w.node r := by
  obtain ⟨w, hfound, h⟩ := Option.bind_eq_some_iff.mp h
  refine ⟨w, List.mem_of_find?_eq_some hfound, by simpa using List.find?_some hfound, ?_⟩
  cases hout : w.outcome timeout with
  | error e =>
      rw [hout] at h
      cases h
  | ok r =>
      rw [hout] at h
      exact ⟨r, rfl, (Option.some.inj h).symm⟩

theorem IsLinked.append {n m : WriteNode} (h : IsLinked dialect timeout sent n m)
    (hother : ∀ link, n.parent = some link → w.id ≠ link.node) :
    IsLinked dialect timeout (sent ++ [w]) n m := by
  unfold IsLinked at h ⊢
  cases hparent : n.parent with
  | none =>
      rw [hparent] at h
      exact h
  | some link =>
      rw [hparent] at h
      dsimp only at h ⊢
      rwa [rowsAt_append_of_ne (hother link hparent)]

end Sent

section Told
variable {p : Plan} {dialect : Dialect} {timeout : Duration} {ids : List Nat} {sent : List Sent}
  {answers : Answers} {failures : List Error} {k : Nat} {n m : WriteNode}

/-- The first writes of a plan have been gone through: what was sent of them tells all the rest. -/
structure Told (p : Plan) (dialect : Dialect) (timeout : Duration) (k : Nat) (sent : List Sent)
    (answers : Answers) (failures : List Error) : Prop where
  length : answers.length = p.nodes.length
  ordered : (sent.map (·.id)).Pairwise (· < ·)
  within : ∀ w ∈ sent, w.id < k
  answers : ∀ id, answerOf answers id = rowsAt dialect timeout sent id
  reached : ∀ id n, id < k → p.nodes[id]? = some n →
    ((∃ w ∈ sent, w.id = id) ↔ ∀ link, n.parent = some link →
      rowsAt dialect timeout sent link.node ≠ none)
  linked : ∀ w ∈ sent, ∃ n, p.nodes[w.id]? = some n ∧ IsLinked dialect timeout sent n w.node
  failures : failures = sent.filterMap (·.failure? timeout)

theorem told_start (p : Plan) (dialect : Dialect) (timeout : Duration) :
    Told p dialect timeout 0 [] (List.replicate p.nodes.length none) [] where
  length := List.length_replicate
  ordered := .nil
  within := List.forall_mem_nil _
  answers id := by
    rw [answerOf, List.getD_eq_getElem?_getD, List.getElem?_replicate]
    split <;> rfl
  reached _ _ hid := absurd hid (Nat.not_lt_zero _)
  linked := List.forall_mem_nil _
  failures := rfl

theorem Told.skip (h : Told p dialect timeout k sent answers failures) (hn : p.nodes[k]? = some n)
    {link : ParentLink} (hlink : n.parent = some link)
    (hnone : rowsAt dialect timeout sent link.node = none) :
    Told p dialect timeout (k + 1) sent answers failures where
  length := h.length
  ordered := h.ordered
  within w hw := Nat.lt_succ_of_lt (h.within w hw)
  answers := h.answers
  reached id m hid hm := by
    rcases Nat.lt_succ_iff_lt_or_eq.mp hid with hold | rfl
    · exact h.reached id m hold hm
    · obtain rfl := Option.some.inj (hn.symm.trans hm)
      constructor
      · rintro ⟨w, hw, hid⟩
        exact absurd (h.within w hw) (by omega)
      · exact fun hall => absurd hnone (hall link hlink)
  linked := h.linked
  failures := h.failures

/-- One more write is sent, whose parent stands before it. -/
theorem Told.send (h : Told p dialect timeout k sent answers failures) (htree : p.IsTree)
    (hn : p.nodes[k]? = some n) (hlinked : IsLinked dialect timeout sent n m)
    {reply : Connection.Reply ResultSet}
    {answers' : Answers} {failures' : List Error} (hlength : answers'.length = answers.length)
    (hanswers : ∀ id, answerOf answers' id = rowsAt dialect timeout (sent ++ [⟨k, m, reply⟩]) id)
    (hfailures : failures' = failures ++ (Sent.failure? timeout ⟨k, m, reply⟩).toList) :
    Told p dialect timeout (k + 1) (sent ++ [⟨k, m, reply⟩]) answers' failures' where
  length := hlength.trans h.length
  ordered := by
    rw [List.map_append, List.pairwise_append]
    refine ⟨h.ordered, List.pairwise_singleton _ _, ?_⟩
    intro a ha b hb
    obtain ⟨w, hw, rfl⟩ := List.mem_map.mp ha
    rw [List.mem_singleton.mp hb]
    exact h.within w hw
  within := by
    refine List.forall_mem_append.mpr ⟨fun w hw => Nat.lt_succ_of_lt (h.within w hw), ?_⟩
    exact List.forall_mem_singleton.mpr (Nat.lt_succ_self k)
  answers := hanswers
  reached id n' hid hn' := by
    have hsame :
      ∀ link, n'.parent = some link → rowsAt dialect timeout (sent ++ [⟨k, m, reply⟩]) link.node =
        rowsAt dialect timeout sent link.node := by
      intro link hlink
      have hlt := htree.parent_lt hn' hlink
      exact rowsAt_append_of_ne (by dsimp only; omega)
    rcases Nat.lt_succ_iff_lt_or_eq.mp hid with hold | rfl
    · have hmem : (∃ w ∈ sent ++ [(⟨k, m, reply⟩ : Sent)], w.id = id) ↔ ∃ w ∈ sent, w.id = id := by
        simp only [List.mem_append, List.mem_singleton]
        constructor
        · rintro ⟨w, hw | rfl, hwid⟩
          · exact ⟨w, hw, hwid⟩
          · exact absurd hwid (Nat.ne_of_gt hold)
        · exact fun ⟨w, hw, hwid⟩ => ⟨w, .inl hw, hwid⟩
      rw [hmem, h.reached id n' hold hn']
      exact forall₂_congr fun link hlink => by rw [hsame link hlink]
    · obtain rfl := Option.some.inj (hn.symm.trans hn')
      refine iff_of_true ⟨_, List.mem_append_right _ (List.mem_singleton_self _), rfl⟩ ?_
      intro link hlink
      rw [hsame link hlink]
      unfold IsLinked at hlinked
      rw [hlink] at hlinked
      obtain ⟨rows, _, hrows, -⟩ := hlinked
      rw [hrows]
      exact Option.some_ne_none rows
  linked := by
    refine List.forall_mem_append.mpr ⟨fun w hw => ?_, List.forall_mem_singleton.mpr ?_⟩
    · obtain ⟨n', hn', hlinked'⟩ := h.linked w hw
      refine ⟨n', hn', hlinked'.append fun link hlink => ?_⟩
      have hlt := htree.parent_lt hn' hlink
      have hwithin := h.within w hw
      dsimp only
      omega
    · refine ⟨n, hn, hlinked.append fun link hlink => ?_⟩
      exact Nat.ne_of_gt (htree.parent_lt hn hlink)
  failures := by
    rw [List.filterMap_append, hfailures, h.failures]
    cases hfailure : Sent.failure? timeout ⟨k, m, reply⟩ <;> simp [hfailure]

/-- How a write comes out when its parent has been gone through. -/
theorem Told.linked? (h : Told p dialect timeout k sent answers failures)
    (hreturns : ReturnsLinked p dialect timeout sent) (hn : p.nodes[k]? = some n) :
    (∃ link, linked? p answers n = .ok none ∧ n.parent = some link ∧
        rowsAt dialect timeout sent link.node = none) ∨
      ∃ m, linked? p answers n = .ok (some m) ∧ IsLinked dialect timeout sent n m := by
  unfold Execution.linked? IsLinked
  cases hparent : n.parent with
  | none => exact .inr ⟨n, rfl, rfl⟩
  | some link =>
      dsimp only
      rw [h.answers]
      cases hrows : rowsAt dialect timeout sent link.node with
      | none => exact .inl ⟨link, rfl, rfl, hrows⟩
      | some rows =>
          obtain ⟨w, hw, hid, r, hr, rfl⟩ := exists_of_rowsAt hrows
          have hrow := hreturns w hw r hr n (List.mem_of_getElem? hn) link hparent hid.symm
          have hat := List.getElem?_eq_getElem hrow
          refine .inr ⟨n.inject _, ?_, _, _, rfl, hat, rfl⟩
          dsimp only
          rw [hat]

theorem Told.isLinked (h : Told p dialect timeout k sent answers failures)
    (hreturns : ReturnsLinked p dialect timeout sent) (hn : p.nodes[k]? = some n)
    (hm : Execution.linked? p answers n = .ok (some m)) : IsLinked dialect timeout sent n m := by
  rcases h.linked? hreturns hn with ⟨_, hnone, -⟩ | ⟨m', hm', hlinked⟩
  · rw [hm] at hnone
    cases hnone
  · rw [hm] at hm'
    cases hm'
    exact hlinked

theorem ReturnsLinked.of_append {more : List Sent}
    (h : ReturnsLinked p dialect timeout (sent ++ more)) : ReturnsLinked p dialect timeout sent :=
  fun w hw => h w (List.mem_append_left more hw)

theorem answerOf_set {j : Nat} (hj : j < answers.length) (rows : List Object) (id : Nat) :
    answerOf (answers.set j (some rows)) id =
      if id = j then some rows else answerOf answers id := by
  rw [answerOf, answerOf, List.getD_eq_getElem?_getD, List.getD_eq_getElem?_getD, List.getElem?_set]
  by_cases hid : j = id
  · rw [if_pos hid, if_pos (hid ▸ hj), if_pos hid.symm]
    rfl
  · rw [if_neg hid, if_neg (Ne.symm hid)]

/-- The answer of a write that was sent now is what its own outcome says. -/
theorem Told.rowsAt_last (h : Told p dialect timeout k sent answers failures)
    {reply : Connection.Reply ResultSet}
    (id : Nat) : rowsAt dialect timeout (sent ++ [⟨k, m, reply⟩]) id =
      if id = k then (settled timeout m.document reply).toOption.map (rowsOf dialect m)
      else rowsAt dialect timeout sent id := by
  by_cases hid : id = k
  · rw [if_pos hid, hid]
    exact rowsAt_append_self (w := ⟨k, m, reply⟩) fun v hv => Nat.ne_of_lt (h.within v hv)
  · rw [if_neg hid]
    exact rowsAt_append_of_ne (Ne.symm hid)

theorem Told.rowsAt_eq_none (h : Told p dialect timeout k sent answers failures) :
    rowsAt dialect timeout sent k = none := by
  have hnone : sent.find? (·.id == k) = none := by
    rw [List.find?_eq_none]
    intro w hw
    simpa using Nat.ne_of_lt (h.within w hw)
  rw [rowsAt, hnone]
  rfl

theorem told_of_course (htree : p.IsTree) (h : Course p dialect timeout ids sent answers failures)
    (hreturns : ReturnsLinked p dialect timeout sent) (hids : ids = List.range k)
    (hk : k ≤ p.nodes.length) : Told p dialect timeout k sent answers failures := by
  -- The places gone through are the first ones, so the last of them is the next in every step.
  have hlast : ∀ {ids : List Nat} {id k : Nat}, ids ++ [id] = List.range k →
      ∃ j, k = j + 1 ∧ id = j ∧ ids = List.range j := by
    intro ids id k h
    cases k with
    | zero => simp at h
    | succ j =>
        rw [List.range_succ] at h
        obtain ⟨hids, hid⟩ := List.append_inj' h rfl
        exact ⟨j, rfl, (List.cons.inj hid).1, hids⟩
  induction h generalizing k with
  | start =>
      cases k with
      | zero => exact told_start p dialect timeout
      | succ k => simp [List.range_succ] at hids
  | skipped _ hn hlinked ih =>
      obtain ⟨j, rfl, rfl, hids⟩ := hlast hids
      have htold := ih hreturns hids (Nat.le_of_succ_le hk)
      rcases htold.linked? hreturns hn with ⟨link, -, hlink, hnone⟩ | ⟨m, hm, -⟩
      · exact htold.skip hn hlink hnone
      · rw [hlinked] at hm
        cases hm
  | unlinked _ hn hlinked ih =>
      obtain ⟨j, rfl, rfl, hids⟩ := hlast hids
      have htold := ih hreturns hids (Nat.le_of_succ_le hk)
      rcases htold.linked? hreturns hn with ⟨link, hm, -⟩ | ⟨m, hm, -⟩
      · rw [hlinked] at hm
        cases hm
      · rw [hlinked] at hm
        cases hm
  | @answered ids sent answers failures id n m reply r _ hn hlinked hsettled ih =>
      obtain ⟨j, rfl, rfl, hids⟩ := hlast hids
      have htold := ih hreturns.of_append hids (Nat.le_of_succ_le hk)
      have hm := htold.isLinked hreturns.of_append hn hlinked
      have hj : id < answers.length := by
        rw [htold.length]
        exact hk
      refine htold.send htree hn hm (List.length_set ..) (fun other => ?_) ?_
      · rw [answerOf_set hj, htold.rowsAt_last, hsettled, htold.answers]
        rfl
      · rw [Sent.failure?, Sent.outcome, hsettled]
        exact (List.append_nil failures).symm
  | @failed ids sent answers failures id n m reply e _ hn hlinked hsettled ih =>
      obtain ⟨j, rfl, rfl, hids⟩ := hlast hids
      have htold := ih hreturns.of_append hids (Nat.le_of_succ_le hk)
      have hm := htold.isLinked hreturns.of_append hn hlinked
      refine htold.send htree hn hm rfl (fun other => ?_) ?_
      · rw [htold.rowsAt_last, hsettled, htold.answers]
        by_cases hother : other = id
        · rw [if_pos hother, hother, htold.rowsAt_eq_none]
          rfl
        · rw [if_neg hother]
      · rw [Sent.failure?, Sent.outcome, hsettled]
        rfl

theorem Told.rowsAt_of_mem (h : Told p dialect timeout k sent answers failures) {w : Sent}
    (hw : w ∈ sent) :
    rowsAt dialect timeout sent w.id =
      (w.outcome timeout).toOption.map (rowsOf dialect w.node) := by
  have hnodup : (sent.map (·.id)).Nodup := h.ordered.imp Nat.ne_of_lt
  have hfound : sent.find? (·.id == w.id) = some w := by
    cases hfind : sent.find? (·.id == w.id) with
    | none => exact absurd (List.find?_eq_none.mp hfind w hw) (by simp)
    | some v =>
        have hid : v.id = w.id := by simpa using List.find?_some hfind
        rw [List.inj_on_of_nodup_map hnodup (List.mem_of_find?_eq_some hfind) hw hid]
  rw [rowsAt, hfound]
  rfl

end Told

/-- The rows that a write shows, with those of the writes below it. -/
inductive Shows (p : Plan) (dialect : Dialect) (timeout : Duration) (sent : List Sent) :
    Nat → List Object → Prop where
  | failed {w : Sent} {e : Error} : w ∈ sent → w.outcome timeout = .error e →
      Shows p dialect timeout sent w.id [[]]
  | answered {w : Sent} {r : ResultSet} {n : WriteNode} {payload : Nat → List Object}
      {objects : List Object} : w ∈ sent → w.outcome timeout = .ok r → p.nodes[w.id]? = some n →
      (∀ child ∈ n.children, Shows p dialect timeout sent child (payload child)) →
      Assembles p.nodes n.children payload (rowsOf dialect w.node r) objects →
      Shows p dialect timeout sent w.id objects

theorem shows_nested {p : Plan} {dialect : Dialect} {timeout : Duration} {sent : List Sent}
    {answers : Answers} {failures : List Error} (htree : p.IsTree)
    (h : Told p dialect timeout p.nodes.length sent answers failures) {depth : Nat} {w : Sent}
    (hw : w ∈ sent) (hdepth : p.nodes.length ≤ depth + w.id) :
    Shows p dialect timeout sent w.id (shown p answers depth w.id) := by
  induction depth generalizing w with
  | zero =>
      have hwithin := h.within w hw
      omega
  | succ depth ih =>
      have hanswer := (h.answers w.id).trans (h.rowsAt_of_mem hw)
      cases hout : w.outcome timeout with
      | error e =>
          rw [hout] at hanswer
          have hnone : nested p answers (depth + 1) w.id = none := by
            rw [nested, hanswer]
            rfl
          rw [shown, hnone]
          exact .failed hw hout
      | ok r =>
          rw [hout] at hanswer
          obtain ⟨n, hn, -⟩ := h.linked w hw
          rw [shown, nested_succ hn hanswer, Option.getD_some]
          refine .answered hw hout hn (fun child hchild => ?_) (assembles_foldl _ _ _)
          obtain ⟨m, link, hm, hlink, hid⟩ := htree.child w.id n hn child hchild
          have hlt := htree.parent_lt hm hlink
          have hin := (List.getElem?_eq_some_iff.mp hm).1
          have hsent : ∃ v ∈ sent, v.id = child := by
            rw [h.reached child m hin hm]
            intro link' hlink'
            obtain rfl := Option.some.inj (hlink.symm.trans hlink')
            rw [hid, ← h.answers, hanswer]
            exact Option.some_ne_none _
          obtain ⟨v, hv, rfl⟩ := hsent
          exact ih hv (by omega)

end SqlGateway.Execution
