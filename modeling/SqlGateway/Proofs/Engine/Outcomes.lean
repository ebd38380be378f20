import SqlGateway.Proofs.Engine.Explanations

/-!
# What the data holds of fields that run by themselves

Fields that run by themselves note their results in one object, under their output names. The rows
of a query go behind those that stand there; the payload of a mutation takes the whole place, and
rows take the place of a payload. So under a name that is used once, or for queries only, everything
that was read stands in the order of the document. Under a name that a mutation shares with other
fields only the end of the run is to be seen, and the data are the same whatever the replaced fields
returned.
-/
namespace SqlGateway

namespace Object

/-- Objects of the same keys hold the same fields if they hold the same values. -/
theorem eq_of_get? {o p : Object} (hkeys : o.keys = p.keys) (hnodup : o.keys.Nodup)
    (h : ∀ key, o.get? key = p.get? key) : o = p := by
  induction o generalizing p with
  | nil =>
      cases p with
      | nil => rfl
      | cons _ _ => cases hkeys
  | cons field rest ih =>
      cases p with
      | nil => cases hkeys
      | cons other others =>
          obtain ⟨k, v⟩ := field
          obtain ⟨k', v'⟩ := other
          obtain ⟨rfl, hrest⟩ := List.cons.inj hkeys
          obtain ⟨hfresh, hnodup⟩ := List.nodup_cons.mp hnodup
          have hfirst := h k
          simp only [get?, if_true, Option.some.injEq] at hfirst
          subst hfirst
          refine congrArg _ (ih hrest hnodup fun key => ?_)
          by_cases hkey : k = key
          · subst hkey
            have absent : ∀ q : Object, k ∉ q.keys → q.get? k = none := fun q hq => by
              rw [← contains_iff_mem_keys, contains] at hq
              simpa using hq
            have hothers : k ∉ keys others := by rwa [keys, ← hrest]
            rw [absent rest hfresh, absent others hothers]
          · have := h key
            simpa only [get?, hkey, if_false] using this

end Object

namespace Engine

open Connection (Session SessionM)
open Request (Document Variables)

variable {σ : Type} {document : Document} {supplied : Variables} {t : Task} {tasks : List Task}

/-- The result is that of a mutation. -/
def FieldOutput.isWritten : FieldOutput → Bool
  | .rows _ => false
  | .written _ _ => true

/-- What is prepared comes to the result of a mutation. -/
def Prepared.writes : Prepared → Bool
  | .query _ => false
  | .raw _ _ isMutation => isMutation
  | .write _ _ => true

theorem writes_of_prepare {compiler : Query.Compiler} {prepared : Prepared}
    (h : prepare compiler document supplied t = .ok prepared) : prepared.writes = t.isMutation := by
  rw [prepare] at h
  split at h
  · rw [prepareRaw] at h
    split at h
    · obtain ⟨⟨sql, parameters⟩, -, h⟩ := bind_eq_ok.mp h
      obtain rfl := pure_eq_ok.mp h
      rfl
    · cases h
  · cases hmutation : t.isMutation with
    | false =>
        rw [hmutation] at h
        obtain ⟨q, -, h⟩ := bind_eq_ok.mp h
        obtain rfl := pure_eq_ok.mp h
        rfl
    | true =>
        rw [hmutation] at h
        obtain ⟨own, -, h⟩ := bind_eq_ok.mp h
        obtain ⟨plan, -, h⟩ := bind_eq_ok.mp h
        obtain rfl := pure_eq_ok.mp h
        rfl

theorem bind_run_eq_ok {α β : Type} {m : SessionM σ α} {f : α → SessionM σ β}
    {s : Session σ} {b : β} (h : ((m >>= f) s).1 = .ok b) :
    ∃ a s', m s = (.ok a, s') ∧ (f a s').1 = .ok b := by
  rw [Session.bind_run] at h
  rcases hrun : m s with ⟨result, s'⟩
  rw [hrun] at h
  cases result with
  | ok a => exact ⟨a, s', rfl, h⟩
  | error _ => cases h

theorem isWritten_of_runPrepared {compiler : Query.Compiler} {spans : Bool} {prepared : Prepared}
    {s : Session σ} {output : FieldOutput}
    (h : (runPrepared compiler spans prepared s).1 = .ok output) :
    output.isWritten = prepared.writes := by
  cases prepared with
  | query q =>
      obtain ⟨rows, _, -, h⟩ := bind_run_eq_ok h
      cases h
      rfl
  | raw sql parameters isMutation =>
      obtain ⟨rows, _, -, h⟩ := bind_run_eq_ok h
      cases isMutation
      · cases h
        rfl
      · cases h
        rfl
  | write plan own =>
      rw [FieldRun.runPrepared_write] at h
      obtain ⟨outcome, _, -, h⟩ := bind_run_eq_ok h
      cases h
      rfl

/-- Mutations, and no other fields, come to the results of mutations. -/
theorem isWritten_of_steps {r : FieldRun σ} {s : Session σ} {output : FieldOutput}
    (h : (r.steps s).1 = .ok output) : output.isWritten = r.prepared.writes := by
  rw [FieldRun.steps] at h
  split at h
  · rw [FieldRun.runInTransaction_eq] at h
    split at h
    · obtain ⟨_, _, -, h⟩ := bind_run_eq_ok h
      exact isWritten_of_runPrepared h
    · exact isWritten_of_runPrepared h
  · exact isWritten_of_runPrepared h

/-- The rows in a list of them, and none in anything else. -/
def listed : Option Json → List Json
  | some (.list items) => items
  | _ => []

theorem listed_of_not_list {value : Option Json} (h : ∀ items, value ≠ some (.list items)) :
    listed value = [] := by
  unfold listed
  split
  next items => exact absurd rfl (h items)
  · rfl

theorem mergeRows_eq (name : String) (rows : List Json) (data : Object) :
    mergeRows name rows data = data.insert name (.list (listed (data.get? name) ++ rows)) := by
  unfold mergeRows
  split
  next items hitems => rw [hitems, listed]
  next hother => rw [listed_of_not_list fun items hitems => hother items hitems, List.nil_append]

/-- A field and what came of running it. -/
structure Outcome where
  task : Task
  result : Except Error FieldOutput

namespace Outcome

/-- If it succeeded, the result is that of a mutation if and only if the field is one. -/
def Fits (o : Outcome) : Prop :=
  ∀ output, o.result = .ok output → output.isWritten = o.task.isMutation

/-- The rows that a query read. -/
def rows (o : Outcome) : List Json :=
  match o.result with
  | .ok (.rows rows) => rows
  | _ => []

/-- What stands under the output name of the field when its outcome is noted, by what stood
there. -/
def put (o : Outcome) (standing : Option Json) : Option Json :=
  match o.result with
  | .ok (.rows rows) => some (.list (listed standing ++ rows))
  | .ok (.written rows failures) =>
    some (mutationPayload o.task.field rows (joinedMessages failures))
  | .error error =>
    if o.task.isMutation then some (mutationPayload o.task.field [] (some error.message))
    else standing

/-- The outcome takes the place of an earlier field's result. A mutation does so even if it fails, a
query only where a payload stands. -/
def Replaces (o : Outcome) (earlier : Task) : Prop :=
  o.task.outputName = earlier.outputName ∧
    (o.task.isMutation = true ∨ earlier.isMutation = true ∧ o.result.isOk = true)

instance (o : Outcome) (earlier : Task) : Decidable (o.Replaces earlier) :=
  inferInstanceAs (Decidable (_ ∧ _))

end Outcome

/-- What the fields of a request come to that run by themselves. -/
def outcomesEach (document : Document) (supplied : Variables) : List Task → Engine σ → List Outcome
  | [], _ => []
  | t :: rest, e =>
    ⟨t, (runTask document supplied t e).1⟩ ::
      outcomesEach document supplied rest (runTask document supplied t e).2

/-- A response after further outcomes. -/
def noteAll (outcomes : List Outcome) (r : Response) : Response :=
  outcomes.foldl (fun r o => noteOutcome o.task r o.result) r

theorem runEach_response (document : Document) (supplied : Variables) (tasks : List Task)
    (e : Engine σ) :
    (runEach document supplied tasks e).1 = noteAll (outcomesEach document supplied tasks e)
      ⟨[], []⟩ := by
  have run : ∀ (tasks : List Task) (r : Response) (e : Engine σ),
      (tasks.foldl (noted document supplied) (r, e)).1 =
        noteAll (outcomesEach document supplied tasks e) r := by
    intro tasks
    induction tasks with
    | nil => exact fun _ _ => rfl
    | cons t rest ih => exact fun r e => ih _ _
  rw [runEach_eq, run]

theorem map_task_outcomesEach (document : Document) (supplied : Variables) (tasks : List Task)
    (e : Engine σ) : (outcomesEach document supplied tasks e).map Outcome.task = tasks := by
  induction tasks generalizing e with
  | nil => rfl
  | cons t rest ih => rw [outcomesEach, List.map_cons, ih]

theorem fits_runTask (document : Document) (supplied : Variables) (t : Task) (e : Engine σ) :
    Outcome.Fits ⟨t, (runTask document supplied t e).1⟩ := by
  intro output h
  change (runTask document supplied t e).1 = .ok output at h
  cases hprepare : e.prepareTask document supplied t with
  | error error =>
      rw [(runAlone_of_refused hprepare).2.2] at h
      cases h
  | ok found =>
      obtain ⟨source, prepared⟩ := found
      rw [runTask, hprepare] at h
      dsimp only at h
      rw [inSession_run] at h
      rcases hstart : Session.start e.queryTimeout source.pool with ⟨started, pool⟩
      rw [hstart] at h
      cases started with
      | error error => cases h
      | ok session =>
          exact (isWritten_of_runPrepared h).trans
            (writes_of_prepare (prepareTask_eq_ok.mp hprepare).2)

theorem fits_outcomesEach (document : Document) (supplied : Variables) (tasks : List Task)
    (e : Engine σ) : ∀ o ∈ outcomesEach document supplied tasks e, o.Fits := by
  induction tasks generalizing e with
  | nil => exact List.forall_mem_nil _
  | cons t rest ih => exact List.forall_mem_cons.mpr ⟨fits_runTask document supplied t e, ih _⟩

/-- An outcome changes what stands under the name of its field, and nothing else. -/
theorem get?_noteOutcome (o : Outcome) (r : Response) (name : String) :
    (noteOutcome o.task r o.result).data.get? name =
      if o.task.outputName = name then o.put (r.data.get? name) else r.data.get? name := by
  unfold noteOutcome Outcome.put
  by_cases hname : o.task.outputName = name
  · subst hname
    rw [if_pos rfl]
    match o.result with
    | .ok (.rows rows) =>
        dsimp only
        rw [mergeRows_eq, Object.get?_insert_self]
    | .ok (.written rows failures) => exact Object.get?_insert_self ..
    | .error error =>
        dsimp only
        split
        · exact Object.get?_insert_self ..
        · rfl
  · rw [if_neg hname]
    match o.result with
    | .ok (.rows rows) =>
        dsimp only
        rw [mergeRows_eq, Object.get?_insert_of_ne _ _ (Ne.symm hname)]
    | .ok (.written rows failures) => exact Object.get?_insert_of_ne _ _ (Ne.symm hname)
    | .error error =>
        dsimp only
        split
        · exact Object.get?_insert_of_ne _ _ (Ne.symm hname)
        · rfl

/-- What stands under a name after further outcomes. -/
def standingAfter (name : String) (outcomes : List Outcome) (standing : Option Json) :
    Option Json :=
  outcomes.foldl (fun standing o => if o.task.outputName = name then o.put standing else standing)
    standing

theorem get?_noteAll (name : String) (outcomes : List Outcome) (r : Response) :
    (noteAll outcomes r).data.get? name = standingAfter name outcomes (r.data.get? name) := by
  induction outcomes generalizing r with
  | nil => rfl
  | cons o rest ih =>
      rw [noteAll, List.foldl_cons, ← noteAll, ih, get?_noteOutcome]
      rfl

/-- The rows that fields read under a name. -/
def rowsUnder (name : String) (outcomes : List Outcome) : List Json :=
  outcomes.flatMap fun o => if o.task.outputName = name then o.rows else []

/-- The rows under a name that no mutation has replaced. -/
def standingRows (name : String) (outcomes : List Outcome) : List Json :=
  outcomes.foldl (fun rows o => if o.task.outputName ≠ name then rows else
    if o.task.isMutation then [] else rows ++ o.rows) []

theorem listed_put {o : Outcome} (h : o.Fits) (standing : Option Json) :
    listed (o.put standing) = if o.task.isMutation then [] else listed standing ++ o.rows := by
  obtain ⟨t, result⟩ := o
  match result with
  | .ok (.rows rows) =>
      have hquery : t.isMutation = false := (h _ rfl).symm
      simp [Outcome.put, Outcome.rows, listed, hquery]
  | .ok (.written rows failures) =>
      have hmutation : t.isMutation = true := (h _ rfl).symm
      simp [Outcome.put, listed, hmutation, mutationPayload]
  | .error error =>
      by_cases hmutation : t.isMutation = true
      · simp [Outcome.put, listed, hmutation, mutationPayload]
      · simp [Outcome.put, Outcome.rows, hmutation]

theorem listed_standingAfter (name : String) {outcomes : List Outcome}
    (h : ∀ o ∈ outcomes, o.Fits) :
    listed (standingAfter name outcomes none) = standingRows name outcomes := by
  induction outcomes using List.reverseRecOn with
  | nil => rfl
  | append_singleton before o ih =>
      obtain ⟨hbefore, ho⟩ := List.forall_mem_append.mp h
      have ih := ih hbefore
      unfold standingAfter standingRows at ih ⊢
      rw [List.foldl_append, List.foldl_append]
      simp only [List.foldl_cons, List.foldl_nil]
      by_cases hname : o.task.outputName = name
      · rw [if_pos hname, if_neg (not_not.mpr hname), listed_put (ho o List.mem_cons_self), ih]
      · rw [if_neg hname, if_pos hname, ih]

theorem put_list {o : Outcome} (h : o.Fits) (hquery : o.task.isMutation = false)
    (items : List Json) : o.put (some (.list items)) = some (.list (items ++ o.rows)) := by
  obtain ⟨t, result⟩ := o
  match result with
  | .ok (.rows rows) => rfl
  | .ok (.written rows failures) =>
      have hmutation : t.isMutation = true := (h _ rfl).symm
      cases hmutation.symm.trans hquery
  | .error error =>
      change t.isMutation = false at hquery
      simp [Outcome.put, Outcome.rows, hquery]

/-- Rows that stand under a name stay there, with those of later queries behind them, until a
mutation comes to the name. -/
theorem standingAfter_list {name : String} {outcomes : List Outcome} (h : ∀ o ∈ outcomes, o.Fits)
    (hnone : ∀ o ∈ outcomes, o.task.outputName = name → o.task.isMutation = false)
    (items : List Json) :
    standingAfter name outcomes (some (.list items)) =
      some (.list (items ++ rowsUnder name outcomes)) := by
  induction outcomes generalizing items with
  | nil => simp [standingAfter, rowsUnder]
  | cons o rest ih =>
      obtain ⟨ho, hrest⟩ := List.forall_mem_cons.mp h
      obtain ⟨hquery, hothers⟩ := List.forall_mem_cons.mp hnone
      rw [standingAfter, List.foldl_cons, ← standingAfter, rowsUnder,
        List.flatMap_cons, ← rowsUnder]
      by_cases hname : o.task.outputName = name
      · rw [if_pos hname, if_pos hname, put_list ho (hquery hname), ih hrest hothers,
          List.append_assoc]
      · rw [if_neg hname, if_neg hname, ih hrest hothers, List.nil_append]

theorem put_of_not_replaces {o : Outcome} (ht : t.isMutation = true)
    (hname : o.task.outputName = t.outputName) (h : ¬ o.Replaces t) (standing : Option Json) :
    o.put standing = standing := by
  obtain ⟨u, result⟩ := o
  change u.outputName = t.outputName at hname
  simp only [Outcome.Replaces, hname, ht, true_and, not_or, Bool.not_eq_true] at h
  cases result with
  | ok output => cases h.2
  | error error => simp [Outcome.put, h.1]

/-- A payload that nothing replaces stands to the end. -/
theorem standingAfter_of_not_replaces {outcomes : List Outcome} (ht : t.isMutation = true)
    (hnone : ∀ o ∈ outcomes, ¬ o.Replaces t) (standing : Option Json) :
    standingAfter t.outputName outcomes standing = standing := by
  induction outcomes with
  | nil => rfl
  | cons o rest ih =>
      obtain ⟨ho, hrest⟩ := List.forall_mem_cons.mp hnone
      rw [standingAfter, List.foldl_cons, ← standingAfter]
      by_cases hname : o.task.outputName = t.outputName
      · rw [if_pos hname, put_of_not_replaces ht hname ho, ih hrest]
      · rw [if_neg hname, ih hrest]

/-- What stands under the name of a field when its result is noted; of a mutation, this is a
payload. -/
def LeftBy (t : Task) (standing : Option Json) : Prop := t.isMutation = true → listed standing = []

/-- What replaces the result of a field leaves nothing of it. -/
theorem put_of_replaces {o : Outcome} {standing other : Option Json} (h : o.Replaces t)
    (ho : o.Fits) (hstanding : LeftBy t standing) (hother : LeftBy t other) :
    o.put standing = o.put other := by
  obtain ⟨u, result⟩ := o
  obtain ⟨-, hkind⟩ := h
  match result with
  | .ok (.rows rows) =>
      have hquery : u.isMutation = false := (ho _ rfl).symm
      have ht : t.isMutation = true := (hkind.resolve_left fun h => by cases h.symm.trans hquery).1
      simp only [Outcome.put, hstanding ht, hother ht]
  | .ok (.written rows failures) => rfl
  | .error error =>
      have hmutation : u.isMutation = true := hkind.resolve_right fun h => nomatch h.2
      simp [Outcome.put, hmutation]

/-- Behind what replaces the result of a field nothing of it is left. -/
theorem standingAfter_of_replaces {outcomes : List Outcome} (h : ∀ o ∈ outcomes, o.Fits)
    {later : Outcome} (hmem : later ∈ outcomes) (hlater : later.Replaces t)
    {standing other : Option Json} (hstanding : LeftBy t standing) (hother : LeftBy t other) :
    standingAfter t.outputName outcomes standing = standingAfter t.outputName outcomes other := by
  induction outcomes generalizing standing other with
  | nil => cases hmem
  | cons o rest ih =>
      obtain ⟨ho, hrest⟩ := List.forall_mem_cons.mp h
      simp only [standingAfter, List.foldl_cons]
      by_cases hreplaces : o.Replaces t
      · rw [if_pos hreplaces.1, if_pos hreplaces.1, put_of_replaces hreplaces ho hstanding hother]
      · have hmem : later ∈ rest := by
          refine (List.mem_cons.mp hmem).resolve_left ?_
          rintro rfl
          exact hreplaces hlater
        by_cases hname : o.task.outputName = t.outputName
        · -- Under the name, what does not replace a payload leaves it as it is.
          have kept : ∀ value, LeftBy t value → LeftBy t (o.put value) := by
            intro value hvalue ht
            rw [put_of_not_replaces ht hname hreplaces]
            exact hvalue ht
          rw [if_pos hname, if_pos hname]
          exact ih hrest hmem (kept standing hstanding) (kept other hother)
        · rw [if_neg hname, if_neg hname]
          exact ih hrest hmem hstanding hother

/-- Results of one kind put the same keys into data of the same keys. -/
theorem keys_noteOutcome {result result' : Except Error FieldOutput} {r r' : Response}
    (hkeys : r.data.keys = r'.data.keys)
    (hkind : result.map (·.isWritten) = result'.map (·.isWritten)) :
    (noteOutcome t r result).data.keys = (noteOutcome t r' result').data.keys := by
  match result, result' with
  | .ok (.rows rows), .ok (.rows rows') =>
      simp only [noteOutcome, mergeRows_eq]
      exact Object.keys_insert_congr hkeys ..
  | .ok (.written _ _), .ok (.written _ _) => exact Object.keys_insert_congr hkeys ..
  | .error _, .error _ =>
      unfold noteOutcome
      dsimp only
      split
      · exact Object.keys_insert_congr hkeys ..
      · exact hkeys

theorem nodup_keys_noteAll (outcomes : List Outcome) {r : Response} (h : r.data.keys.Nodup) :
    (noteAll outcomes r).data.keys.Nodup := by
  induction outcomes generalizing r with
  | nil => exact h
  | cons o rest ih =>
      refine ih (r := noteOutcome o.task r o.result) ?_
      unfold noteOutcome
      match o.result with
      | .ok (.rows rows) =>
          dsimp only
          rw [mergeRows_eq]
          exact Object.nodup_keys_insert h _
      | .ok (.written rows failures) => exact Object.nodup_keys_insert h _
      | .error error =>
          dsimp only
          split
          · exact Object.nodup_keys_insert h _
          · exact h

theorem keys_noteAll (outcomes : List Outcome) {r r' : Response} (h : r.data.keys = r'.data.keys) :
    (noteAll outcomes r).data.keys = (noteAll outcomes r').data.keys := by
  induction outcomes generalizing r r' with
  | nil => exact h
  | cons o rest ih => exact ih (keys_noteOutcome h rfl)

theorem noteAll_append (before after : List Outcome) (r : Response) :
    noteAll (before ++ after) r = noteAll after (noteAll before r) := List.foldl_append

/-- The data are the same whatever a field returned whose result is replaced. -/
theorem data_of_replaced {before after : List Outcome} (h : ∀ o ∈ after, o.Fits)
    {output other : FieldOutput} (houtput : output.isWritten = t.isMutation)
    (hother : other.isWritten = t.isMutation) {later : Outcome}
    (hmem : later ∈ after) (hlater : later.Replaces t) :
    (noteAll (before ++ ⟨t, .ok other⟩ :: after) ⟨[], []⟩).data =
      (noteAll (before ++ ⟨t, .ok output⟩ :: after) ⟨[], []⟩).data := by
  have left : ∀ {output : FieldOutput} (standing : Option Json), output.isWritten = t.isMutation →
      LeftBy t (Outcome.put ⟨t, .ok output⟩ standing) := by
    intro output standing houtput ht
    have hfits : Outcome.Fits ⟨t, .ok output⟩ := fun _ h => Except.ok.inj h ▸ houtput
    rw [listed_put hfits, if_pos ht]
  refine Object.eq_of_get? ?_ (nodup_keys_noteAll _ List.nodup_nil) fun name => ?_
  · rw [noteAll_append, noteAll_append]
    refine keys_noteAll after (keys_noteOutcome rfl ?_)
    exact congrArg Except.ok (hother.trans houtput.symm)
  · simp only [get?_noteAll, standingAfter, List.foldl_append, List.foldl_cons]
    by_cases hname : t.outputName = name
    · subst hname
      simp only [if_true]
      exact standingAfter_of_replaces h hmem hlater (left _ hother) (left _ houtput)
    · simp only [hname, if_false]

/-- A mutation field shows its rows: it selects them, or nothing of its payload. -/
def showsRows (f : Request.Field) : Bool :=
  f.selection.any (·.name == "returning") || !f.selection.any (·.name == "error")

/-- A mutation field shows its error: it selects it, or nothing of its payload. -/
def showsError (f : Request.Field) : Bool :=
  f.selection.any (·.name == "error") || !f.selection.any (·.name == "returning")

theorem mutationPayload_eq (f : Request.Field) (rows : List Json) (error : Option String) :
    mutationPayload f rows error = .object
      ((if showsError f then [("error", Json.ofOption .text error)] else []) ++
        if showsRows f then [("returning", .list rows)] else []) := by
  have shown : ∀ a b : Bool, (!a && !b || b) = (b || !a) ∧ (!a && !b || a) = (a || !b) := by decide
  obtain ⟨herror, hrows⟩ :=
    shown (f.selection.any (·.name == "returning")) (f.selection.any (·.name == "error"))
  simp only [mutationPayload, herror, hrows, showsError, showsRows]
  rfl

/-- The result of a field is to be seen in the data: in a list the rows that a query read, in a
payload those that a mutation returned, if the field shows them. -/
def Displays (data : Object) (t : Task) : FieldOutput → Prop
  | .rows rows => ∃ before after, data.get? t.outputName = some (.list (before ++ rows ++ after))
  | .written rows _ => showsRows t.field = true → ∃ payload,
      data.get? t.outputName = some (.object payload) ∧ Object.get? "returning" payload =
        some (.list rows)

theorem returning_mutationPayload {f : Request.Field} (h : showsRows f = true) (rows : List Json)
    (error : Option String) : ∃ payload, mutationPayload f rows error = .object payload ∧
      Object.get? "returning" payload = some (.list rows) := by
  refine ⟨_, mutationPayload_eq f rows error, ?_⟩
  rw [Object.get?_append, if_pos h]
  split <;> rfl

/-- What stands under the output name of a field that nothing has replaced, between given
outcomes. -/
def standingOf (before after : List Outcome) (t : Task) : FieldOutput → Json
  | .rows rows => .list (standingRows t.outputName before ++ rows ++ rowsUnder t.outputName after)
  | .written rows failures => mutationPayload t.field rows (joinedMessages failures)

theorem data_of_not_replaced {before after : List Outcome} {output : FieldOutput}
    (h : ∀ o ∈ before ++ ⟨t, .ok output⟩ :: after, o.Fits)
    (hnone : ∀ later ∈ after, ¬ later.Replaces t) :
    (noteAll (before ++ ⟨t, .ok output⟩ :: after) ⟨[], []⟩).data.get? t.outputName =
      some (standingOf before after t output) := by
  obtain ⟨hbefore, hrest⟩ := List.forall_mem_append.mp h
  obtain ⟨ht, hafter⟩ := List.forall_mem_cons.mp hrest
  have hput : (noteAll (before ++ ⟨t, .ok output⟩ :: after) ⟨[], []⟩).data.get? t.outputName =
      standingAfter t.outputName after
        (Outcome.put ⟨t, .ok output⟩ (standingAfter t.outputName before none)) := by
    rw [get?_noteAll, standingAfter, List.foldl_append, List.foldl_cons, if_pos rfl]
    rfl
  rw [hput]
  have hkind : output.isWritten = t.isMutation := ht output rfl
  cases output with
  | rows rows =>
      have hqueries :
          ∀ o ∈ after, o.task.outputName = t.outputName → o.task.isMutation = false := by
        intro o ho hname
        exact (Bool.not_eq_true _).mp fun hmutation => hnone o ho ⟨hname, .inl hmutation⟩
      rw [Outcome.put, listed_standingAfter _ hbefore, standingAfter_list hafter hqueries]
      rfl
  | written rows failures => exact standingAfter_of_not_replaces hkind.symm hnone _

theorem displays_of_standing {data : Object} {before after : List Outcome} {output : FieldOutput}
    (h : data.get? t.outputName = some (standingOf before after t output)) :
    Displays data t output := by
  cases output with
  | rows rows => exact ⟨_, _, h⟩
  | written rows failures =>
      intro hshows
      obtain ⟨payload, hpayload, hreturning⟩ :=
        returning_mutationPayload hshows rows (joinedMessages failures)
      exact ⟨payload, h.trans (congrArg some hpayload), hreturning⟩

/-- The response of a request whose fields run by themselves is made of their outcomes, one after
another. The result of a field that succeeded stands under its output name, and is shown, unless a
later field replaces it: a mutation under the same name, or, where the field is a mutation itself, a
query that succeeds. Rows of queries stand in the order of the document. Of a result that is
replaced nothing is left: the data would be the same whatever the field had returned. -/
theorem results_stand_until_replaced (e : Engine σ) {s : Submission}
    (hread : Document.read s.document = .ok document)
    (hscheduled : schedule e.defaultSource document s.vars = .ok tasks)
    (halone : spansTransaction s document = false) :
    let outcomes := outcomesEach document s.vars tasks e
    outcomes.map (·.task) = tasks ∧ (e.execute s).1 = noteAll outcomes ⟨[], []⟩ ∧
    ∀ before t output after, outcomes = before ++ ⟨t, .ok output⟩ :: after →
      output.isWritten = t.isMutation ∧
      ((∀ later ∈ after, ¬ later.Replaces t) →
        (e.execute s).1.data.get? t.outputName = some (standingOf before after t output) ∧
          Displays (e.execute s).1.data t output) ∧
      ∀ later ∈ after, later.Replaces t → ∀ other : FieldOutput, other.isWritten =
        output.isWritten →
        (noteAll (before ++ ⟨t, .ok other⟩ :: after) ⟨[], []⟩).data = (e.execute s).1.data := by
  intro outcomes
  have hresponse : (e.execute s).1 = noteAll outcomes ⟨[], []⟩ := by
    rw [execute_eq hread hscheduled, halone, if_neg Bool.false_ne_true]
    exact runEach_response document s.vars tasks e
  have hfits : ∀ o ∈ outcomes, o.Fits := fits_outcomesEach document s.vars tasks e
  refine ⟨map_task_outcomesEach document s.vars tasks e, hresponse, ?_⟩
  rw [hresponse]
  intro before t output after houtcomes
  rw [houtcomes] at hfits ⊢
  obtain ⟨ht, hafter⟩ := List.forall_mem_cons.mp (List.forall_mem_append.mp hfits).2
  have hkind : output.isWritten = t.isMutation := ht output rfl
  refine ⟨hkind, fun hnone => ?_, fun later hmem hlater other hother => ?_⟩
  · have hstanding := data_of_not_replaced hfits hnone
    exact ⟨hstanding, displays_of_standing hstanding⟩
  · exact data_of_replaced hafter hkind (hother.trans hkind) hmem hlater

open Execution (keyRow)

/-- Two inserts into the users, under given aliases; each returns its key. -/
def twoInserted (first second : String) : Submission :=
  ⟨s!"mutation \x7b
    {first} insert_users(docs: \x7bname: \"ann\"\x7d) \x7b returning \x7b id \x7d \x7d
    {second} insert_users(docs: \x7bname: \"bob\"\x7d) \x7b returning \x7b id \x7d \x7d \x7d", [], false⟩

/-- The shop, which gives the keys 1 and 2 to what is inserted. -/
def shopOfTwo : Engine (Connection.Journaled Connection.Scripted) :=
  shopAnswering .passThrough [keyRow 1, keyRow 2]

/-- The output name of a field, and the rows that it shows of itself. -/
def shownBy (o : Outcome) : String × Option String :=
  (o.task.outputName, match o.result with
    | .ok (.written rows _) =>
        if showsRows o.task.field then some (Json.list rows).compact else none
    | _ => none)

/-- The document of a request and its schedule. -/
def scheduledFor (e : Engine σ) (s : Submission) : Option (Document × List Task) := do
  let d ← (Document.read s.document).toOption
  let tasks ← (schedule e.defaultSource d s.vars).toOption
  return (d, tasks)

theorem of_scheduledFor {e : Engine σ} {s : Submission} {α : Type}
    {g : Document → List Task → α} {a : α}
    (h : (scheduledFor e s).map (fun found => g found.1 found.2) = some a) : ∃ d tasks,
      Document.read s.document = .ok d ∧ schedule e.defaultSource d s.vars = .ok tasks ∧
      g d tasks = a := by
  obtain ⟨⟨d, tasks⟩, hfound, hg⟩ := Option.map_eq_some_iff.mp h
  obtain ⟨d', hread, hfound⟩ := Option.bind_eq_some_iff.mp hfound
  obtain ⟨tasks', hscheduled, hfound⟩ := Option.bind_eq_some_iff.mp hfound
  cases hfound
  exact ⟨d, tasks, eq_ok_of_toOption hread, eq_ok_of_toOption hscheduled, hg⟩

/-- Whether one transaction spans a request, and what its fields show of themselves if they run by
themselves. -/
def shownEach (e : Engine σ) (s : Submission) (d : Document) (tasks : List Task) :
    Bool × List (String × Option String) :=
  (spansTransaction s d, (outcomesEach d s.vars tasks e).map shownBy)

theorem results_stand_until_replaced_twoInserted :
    let s := twoInserted "first:" "second:"
    ∃ d tasks, Document.read s.document = .ok d ∧
    schedule shopOfTwo.defaultSource d s.vars = .ok tasks ∧
      spansTransaction s d = false ∧
      (outcomesEach d s.vars tasks shopOfTwo).map shownBy =
        [("first", some "[\x7b\"id\":1\x7d]"), ("second", some "[\x7b\"id\":2\x7d]")] ∧
      ∀ before t output after, outcomesEach d s.vars tasks shopOfTwo =
        before ++ ⟨t, .ok output⟩ :: after → Displays (shopOfTwo.execute s).1.data t output := by
  intro s
  have heach : (scheduledFor shopOfTwo s).map (fun found => shownEach shopOfTwo s found.1 found.2) =
      some (false,
        [("first", some "[\x7b\"id\":1\x7d]"), ("second", some "[\x7b\"id\":2\x7d]")]) := by
    decide +kernel
  obtain ⟨d, tasks, hread, hscheduled, hshown⟩ := of_scheduledFor heach
  obtain ⟨halone, hshown⟩ := Prod.mk.inj hshown
  refine ⟨d, tasks, hread, hscheduled, halone, hshown, fun before t output after houtcomes => ?_⟩
  obtain ⟨-, -, hstand⟩ := results_stand_until_replaced shopOfTwo hread hscheduled halone
  refine ((hstand before t output after houtcomes).2.1 fun later hmem hlater => ?_).2
  -- The two output names differ.
  have hnames : ((outcomesEach d s.vars tasks shopOfTwo).map (·.task.outputName)).Nodup := by
    have hfirst := congrArg (List.map Prod.fst) hshown
    rw [List.map_map] at hfirst
    change (outcomesEach d s.vars tasks shopOfTwo).map (·.task.outputName) = _ at hfirst
    rw [hfirst]
    decide
  rw [houtcomes, List.map_append, List.map_cons] at hnames
  exact (List.nodup_cons.mp (List.nodup_append.mp hnames).2.1).1
    (List.mem_map.mpr ⟨later, hmem, hlater.1⟩)

/-- Two inserts into one table without aliases share their output name, and only the rows of the
second are to be seen: the first row was inserted and returned, but the response, although it is in
order, does not show it. -/
theorem second_insert_hides_first :
    let s := twoInserted "" ""
    (shopOfTwo.execute s).1.isOk = true ∧
    ∃ d tasks t output, Document.read s.document = .ok d ∧
      schedule shopOfTwo.defaultSource d s.vars = .ok tasks ∧ spansTransaction s d = false ∧
      ⟨t, .ok output⟩ ∈ outcomesEach d s.vars tasks shopOfTwo ∧
      ¬ Displays (shopOfTwo.execute s).1.data t output := by
  intro s
  have heach :
    (scheduledFor shopOfTwo s).map (fun found => shownEach shopOfTwo s found.1 found.2) = some
      (false, [("insert_users", some "[\x7b\"id\":1\x7d]"),
        ("insert_users", some "[\x7b\"id\":2\x7d]")]) := by
    decide +kernel
  obtain ⟨d, tasks, hread, hscheduled, hshown⟩ := of_scheduledFor heach
  obtain ⟨halone, hshown⟩ := Prod.mk.inj hshown
  have hdata : (((shopOfTwo.execute s).1.data.get? "insert_users").bind Json.asObject?).bind
      (fun payload => (Object.get? "returning" payload).map Json.compact) =
        some "[\x7b\"id\":2\x7d]" := by
    decide +kernel
  refine ⟨by decide +kernel, d, tasks, ?_⟩
  obtain ⟨⟨t, result⟩, rest, houtcomes⟩ :
      ∃ o rest, outcomesEach d s.vars tasks shopOfTwo = o :: rest := by
    cases houtcomes : outcomesEach d s.vars tasks shopOfTwo with
    | nil =>
        rw [houtcomes] at hshown
        cases hshown
    | cons o rest => exact ⟨o, rest, rfl⟩
  rw [houtcomes] at hshown ⊢
  obtain ⟨hname, hrows⟩ := Prod.mk.inj (List.cons.inj hshown).1
  match result with
  | .ok (.written rows failures) =>
      refine ⟨t, .written rows failures, hread, hscheduled, halone, List.mem_cons_self,
        fun hdisplays => ?_⟩
      dsimp only at hname hrows
      split at hrows
      next hshows =>
        obtain ⟨payload, hpayload, hreturning⟩ := hdisplays hshows
        rw [hname] at hpayload
        rw [hpayload, Option.bind_some, Json.asObject?, Option.bind_some, hreturning,
          Option.map_some] at hdata
        exact absurd (hrows.symm.trans hdata) (by decide)
      · cases hrows
  | .ok (.rows _) => cases hrows
  | .error _ => cases hrows

end Engine

end SqlGateway
