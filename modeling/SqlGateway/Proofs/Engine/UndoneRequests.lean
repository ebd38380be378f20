import SqlGateway.Proofs.Engine.Outcomes

/-!
# Requests that are undone

A request in one transaction notes the results of its fields as they come, and takes the rows that
its mutations returned out again if a later field or a commit fails. What is left in the data of
such a request are the rows of queries and payloads without rows; it would be the same whatever the
mutations had returned.
-/
namespace SqlGateway

namespace Object

theorem insert_insert (o : Object) (key : String) (value other : Json) :
    (o.insert key value).insert key other = o.insert key other := by
  induction o with
  | nil => simp [insert]
  | cons field rest ih =>
      by_cases hkey : field.1 = key
      · simp [insert, hkey]
      · simpa [insert, hkey] using ih

end Object

namespace Engine

open Request (Document Variables)

variable {σ : Type} {document : Document} {supplied : Variables} {t : Task} {tasks : List Task}
  {outcomes : List Outcome}

/-- The error of a field that failed. -/
def Outcome.failure? (o : Outcome) : Option (Task × Error) :=
  match o.result with
  | .ok _ => none
  | .error error => some (o.task, error)

/-- What the fields of a request come to that run in one transaction, up to the first that fails. -/
def outcomesTogether (document : Document) (supplied : Variables) :
    List Task → Shared σ → List Outcome
  | [], _ => []
  | t :: rest, s =>
    ⟨t, (runHeld document supplied t s).1⟩ ::
      match runHeld document supplied t s with
      | (.ok output, s') =>
        outcomesTogether document supplied rest
          { s' with data := withOutput t s'.data (.ok output) }
      | (.error _, _) => []

/-- Data after further outcomes. -/
def showAll (outcomes : List Outcome) (data : Object) : Object :=
  outcomes.foldl (fun data o => withOutput o.task data o.result) data

/-- A request in one transaction comes to the data of its outcomes, and to the failure of one of
them. -/
theorem runTogether_outcomes (document : Document) (supplied : Variables) (tasks : List Task)
    (s : Shared σ) : (runTogether document supplied tasks s).1.data =
        showAll (outcomesTogether document supplied tasks s) s.data ∧
      (runTogether document supplied tasks s).2 =
        (outcomesTogether document supplied tasks s).findSome? Outcome.failure? ∧
      (outcomesTogether document supplied tasks s).map Outcome.task <+: tasks := by
  induction tasks generalizing s with
  | nil => exact ⟨rfl, rfl, List.prefix_refl _⟩
  | cons t rest ih =>
      have hdata := runHeld_data document supplied t s
      rw [runTogether, outcomesTogether]
      rcases hrun : runHeld document supplied t s with ⟨result, s'⟩
      rw [hrun] at hdata
      cases result with
      | error error =>
          refine ⟨?_, rfl, (List.prefix_cons_inj t).mpr List.nil_prefix⟩
          exact congrArg (withOutput t · (.error error)) hdata
      | ok output =>
          obtain ⟨hshown, hfailure, hprefix⟩ :=
            ih { s' with data := withOutput t s'.data (.ok output) }
          refine ⟨?_, hfailure, (List.prefix_cons_inj t).mpr hprefix⟩
          rw [← hdata]
          exact hshown

theorem fits_runHeld (document : Document) (supplied : Variables) (t : Task) (s : Shared σ) :
    Outcome.Fits ⟨t, (runHeld document supplied t s).1⟩ := by
  intro output h
  change (runHeld document supplied t s).1 = .ok output at h
  obtain ⟨r, session, hrun, -, -, hsteps⟩ := runWithin_of_ok (Prod.ext h rfl :
    runHeld document supplied t s = (.ok output, (runHeld document supplied t s).2))
  obtain ⟨rfl, -, source, hprepare⟩ := of_runWithin hrun
  exact (isWritten_of_steps hsteps).trans (writes_of_prepare (prepareTask_eq_ok.mp hprepare).2)

theorem fits_outcomesTogether (document : Document) (supplied : Variables) (tasks : List Task)
    (s : Shared σ) : ∀ o ∈ outcomesTogether document supplied tasks s, o.Fits := by
  induction tasks generalizing s with
  | nil => exact List.forall_mem_nil _
  | cons t rest ih =>
      rw [outcomesTogether]
      refine List.forall_mem_cons.mpr ⟨fits_runHeld document supplied t s, ?_⟩
      split
      · exact ih _
      · exact List.forall_mem_nil _

/-- A payload without its rows. -/
def emptied : Json → Json
  | .object payload =>
    .object (if Object.contains "returning" payload then
        Object.insert "returning" (.object []) payload
      else payload)
  | value => value

/-- Data without the rows of payloads. -/
def emptiedAll (data : Object) : Object := data.map fun field => (field.1, emptied field.2)

theorem get?_emptiedAll (name : String) (data : Object) :
    (emptiedAll data).get? name = (data.get? name).map emptied := by
  induction data with
  | nil => rfl
  | cons field rest ih =>
      by_cases hname : field.1 = name
      · simp [emptiedAll, Object.get?, hname]
      · simpa [emptiedAll, Object.get?, hname] using ih

theorem keys_emptiedAll (data : Object) : (emptiedAll data).keys = data.keys := by
  simp [emptiedAll, Object.keys]

theorem emptiedAll_insert (name : String) (value : Json) (data : Object) :
    emptiedAll (data.insert name value) = (emptiedAll data).insert name (emptied value) := by
  induction data with
  | nil => rfl
  | cons field rest ih =>
      by_cases hname : field.1 = name
      · simp [emptiedAll, Object.insert, hname]
      · simpa [emptiedAll, Object.insert, hname] using ih

theorem emptied_of_not_object {value : Json} (h : ∀ payload, value ≠ .object payload) :
    emptied value = value := by
  unfold emptied
  split
  next payload => exact absurd rfl (h payload)
  · rfl

/-- What one field takes out: the rows of the payload under its name, if it is a mutation. -/
theorem get?_withoutReturned (data : Object) (t : Task) (name : String) :
    (withoutReturned data t).get? name =
      if t.isMutation = true ∧ t.outputName = name then (data.get? name).map emptied
      else data.get? name := by
  unfold withoutReturned
  split
  next payload hmutation hpayload =>
    by_cases hname : t.outputName = name
    · subst hname
      simp only [hmutation, true_and, if_true, hpayload, Option.map_some, emptied]
      split
      · exact Object.get?_insert_self ..
      · exact hpayload
    · simp only [hname, and_false, if_false]
      split
      · exact Object.get?_insert_of_ne _ _ (Ne.symm hname)
      · rfl
  next hother =>
    split_ifs with h
    · obtain ⟨hmutation, rfl⟩ := h
      cases hvalue : data.get? t.outputName with
      | none => rfl
      | some value =>
          rw [Option.map_some, emptied_of_not_object]
          rintro payload rfl
          exact hother payload hmutation hvalue
    · rfl

theorem keys_withoutReturned (data : Object) (t : Task) :
    (withoutReturned data t).keys = data.keys := by
  unfold withoutReturned
  split
  next payload _ hpayload =>
    have hcontains : Object.contains t.outputName data = true := by
      rw [Object.contains, hpayload]
      rfl
    split
    · exact Object.keys_insert_of_contains hcontains _
    · rfl
  · rfl

theorem emptied_emptied (value : Json) : emptied (emptied value) = emptied value := by
  cases value with
  | object payload =>
      cases hreturning : Object.contains "returning" payload with
      | true =>
          simp [emptied, hreturning, Object.contains_insert_self, Object.insert_insert]
      | false => simp [emptied, hreturning]
  | _ => rfl

/-- In data that hold payloads under the names of mutations only, the mutations take the rows out of
all. -/
theorem foldl_withoutReturned {data : Object} (hnodup : data.keys.Nodup)
    (h : ∀ name payload, data.get? name = some (.object payload) →
      ∃ t ∈ tasks, t.isMutation = true ∧ t.outputName = name) :
    tasks.foldl withoutReturned data = emptiedAll data := by
  have hkeys : ∀ (tasks : List Task) (data : Object), (tasks.foldl withoutReturned data).keys =
      data.keys := by
    intro tasks
    induction tasks with
    | nil => exact fun _ => rfl
    | cons t rest ih => exact fun data => (ih _).trans (keys_withoutReturned data t)
  have hget : ∀ (tasks : List Task) (data : Object) (name : String),
      (tasks.foldl withoutReturned data).get? name =
        if ∃ t ∈ tasks, t.isMutation = true ∧ t.outputName = name then (data.get? name).map emptied
        else data.get? name := by
    intro tasks
    induction tasks with
    | nil => simp
    | cons t rest ih =>
        intro data name
        have htwice :
            ((data.get? name).map emptied).map emptied = (data.get? name).map emptied := by
          rw [Option.map_map]
          exact congrArg (fun f => (data.get? name).map f) (funext emptied_emptied)
        rw [List.foldl_cons, ih, get?_withoutReturned]
        by_cases ht : t.isMutation = true ∧ t.outputName = name
        · simp only [ht, and_self, if_true, htwice, ite_self, List.mem_cons,
            exists_eq_or_imp, true_or]
        · simp only [ht, if_false, List.mem_cons, exists_eq_or_imp, false_or]
  refine Object.eq_of_get? ?_ (hkeys tasks data ▸ hnodup) fun name => ?_
  · rw [hkeys, keys_emptiedAll]
  · rw [hget, get?_emptiedAll]
    split_ifs with hsome
    · rfl
    · cases hvalue : data.get? name with
      | none => rfl
      | some value =>
          rw [Option.map_some, emptied_of_not_object]
          rintro payload rfl
          exact hsome (h name payload hvalue)

/-- A payload from which the rows were taken. -/
def payloadLeft (f : Request.Field) (error : Option String) : Object :=
  (if showsError f then [("error", Json.ofOption .text error)] else []) ++
    if showsRows f then [("returning", .object [])] else []

theorem emptied_mutationPayload (f : Request.Field) (rows : List Json) (error : Option String) :
    emptied (mutationPayload f rows error) = .object (payloadLeft f error) := by
  rw [mutationPayload_eq, payloadLeft]
  cases showsError f <;> cases showsRows f <;> rfl

/-- The outcome of a field but for the rows that it returned, if it is a mutation. -/
def Outcome.withoutRows (o : Outcome) : Outcome where
  task := o.task
  result := o.result.map fun
    | .rows rows => .rows rows
    | .written _ failures => .written [] failures

theorem listed_map_emptied (value : Option Json) : listed (value.map emptied) = listed value := by
  cases value with
  | none => rfl
  | some value => cases value <;> rfl

theorem emptiedAll_mergeRows (name : String) (rows : List Json) (data : Object) :
    emptiedAll (mergeRows name rows data) = mergeRows name rows (emptiedAll data) := by
  rw [mergeRows_eq, mergeRows_eq, emptiedAll_insert, get?_emptiedAll, listed_map_emptied]
  rfl

/-- Once the rows of mutations are taken out, an outcome adds the same as without them. -/
theorem emptiedAll_withOutput (o : Outcome) (data : Object) :
    emptiedAll (withOutput o.task data o.result) =
    emptiedAll (withOutput o.task (emptiedAll data) o.withoutRows.result) := by
  have hidem : ∀ data, emptiedAll (emptiedAll data) = emptiedAll data := by
    intro data
    simp [emptiedAll, emptied_emptied]
  obtain ⟨t, result⟩ := o
  match result with
  | .ok (.rows rows) =>
      change emptiedAll (mergeRows _ _ _) = emptiedAll (mergeRows _ _ _)
      rw [emptiedAll_mergeRows, emptiedAll_mergeRows, hidem]
  | .ok (.written rows failures) =>
      change emptiedAll (Object.insert _ _ _) = emptiedAll (Object.insert _ _ _)
      rw [emptiedAll_insert, emptiedAll_insert, hidem, emptied_mutationPayload,
        emptied_mutationPayload]
  | .error error =>
      change emptiedAll (ite _ _ _) = emptiedAll (ite _ _ _)
      split
      · rw [emptiedAll_insert, emptiedAll_insert, hidem]
      · rw [hidem]

theorem emptiedAll_showAll {others : List Outcome} {data data' : Object}
    (h : outcomes.map Outcome.withoutRows = others.map Outcome.withoutRows)
    (hdata : emptiedAll data = emptiedAll data') :
    emptiedAll (showAll outcomes data) = emptiedAll (showAll others data') := by
  induction outcomes generalizing others data data' with
  | nil =>
      obtain rfl : others = [] := List.map_eq_nil_iff.mp h.symm
      exact hdata
  | cons o rest ih =>
      cases others with
      | nil => cases h
      | cons o' rest' =>
          obtain ⟨hfirst, hrest⟩ := List.cons.inj h
          have htask : o.task = o'.task := congrArg (fun u => u.task) hfirst
          change emptiedAll (showAll rest _) = emptiedAll (showAll rest' _)
          refine ih hrest ?_
          rw [emptiedAll_withOutput, emptiedAll_withOutput o', hfirst, htask, hdata]

/-- The row was read by a query under the name. -/
def ReadUnder (outcomes : List Outcome) (name : String) (row : Json) : Prop :=
  ∃ o ∈ outcomes, o.task.isMutation = false ∧ o.task.outputName = name ∧ row ∈ o.rows

/-- The error in a payload is that with which the mutation failed. -/
def Reports (o : Outcome) (error : Option String) : Prop :=
  ∀ text, error = some text → ∃ failure, o.result = .error failure ∧ text = failure.message

/-- A value in the data of a request in one transaction: rows that queries read, or a payload of a
mutation. -/
inductive Shown (outcomes : List Outcome) (name : String) : Json → Prop
  | read {rows : List Json} :
      (∀ row ∈ rows, ReadUnder outcomes name row) → Shown outcomes name (.list rows)
  | written {o : Outcome} (rows : List Json) {error : Option String} : o ∈ outcomes →
      o.task.isMutation = true → o.task.outputName = name → Reports o error →
      Shown outcomes name (mutationPayload o.task.field rows error)

/-- A value in the data of a request that was undone: rows that queries read, or a payload without
rows. -/
inductive Remains (outcomes : List Outcome) (name : String) : Json → Prop
  | read {rows : List Json} :
      (∀ row ∈ rows, ReadUnder outcomes name row) → Remains outcomes name (.list rows)
  | written {o : Outcome} {error : Option String} : o ∈ outcomes → o.task.isMutation = true →
      o.task.outputName = name → Reports o error →
      Remains outcomes name (.object (payloadLeft o.task.field error))

theorem ReadUnder.mono {others : List Outcome} {name : String} {row : Json}
    (h : ReadUnder outcomes name row) (hsub : outcomes ⊆ others) : ReadUnder others name row := by
  obtain ⟨o, ho, hread⟩ := h
  exact ⟨o, hsub ho, hread⟩

theorem Shown.mono {others : List Outcome} {name : String} {value : Json}
    (h : Shown outcomes name value) (hsub : outcomes ⊆ others) : Shown others name value := by
  cases h with
  | read hrows => exact .read fun row hrow => (hrows row hrow).mono hsub
  | written rows ho hmutation hname hreports =>
      exact .written rows (hsub ho) hmutation hname hreports

theorem Shown.of_list {name : String} {items : List Json} (h : Shown outcomes name (.list items)) :
    ∀ row ∈ items, ReadUnder outcomes name row := by
  generalize hvalue : Json.list items = value at h
  cases h with
  | read hrows =>
      cases hvalue
      exact hrows
  | written rows _ _ _ _ =>
      rw [mutationPayload_eq] at hvalue
      cases hvalue

theorem Shown.remains {name : String} {value : Json} (h : Shown outcomes name value) :
    Remains outcomes name (emptied value) := by
  cases h with
  | read hrows => exact .read hrows
  | written rows ho hmutation hname hreports =>
      rw [emptied_mutationPayload]
      exact .written ho hmutation hname hreports

/-- An outcome adds to the data what it shows itself. -/
theorem shown_withOutput {o : Outcome} (ho : o.Fits) (hmem : o ∈ outcomes) {data : Object}
    (h : ∀ field ∈ data, Shown outcomes field.1 field.2) :
    ∀ field ∈ withOutput o.task data o.result, Shown outcomes field.1 field.2 := by
  intro field hfield
  obtain ⟨t, result⟩ := o
  match result with
  | .ok (.rows rows) =>
      have hquery : t.isMutation = false := (ho _ rfl).symm
      change field ∈ mergeRows t.outputName rows data at hfield
      rw [mergeRows_eq] at hfield
      rcases Object.mem_insert hfield with rfl | hfield
      · refine .read (List.forall_mem_append.mpr ⟨fun row hrow => ?_, fun row hrow => ?_⟩)
        · unfold listed at hrow
          split at hrow
          next items hitems => exact (h _ (Object.mem_of_get? hitems)).of_list row hrow
          · cases hrow
        · exact ⟨_, hmem, hquery, rfl, hrow⟩
      · exact h field hfield
  | .ok (.written rows failures) =>
      have hmutation : t.isMutation = true := (ho _ rfl).symm
      rcases Object.mem_insert hfield with rfl | hfield
      · exact .written rows hmem hmutation rfl fun _ hnone => nomatch hnone
      · exact h field hfield
  | .error error =>
      change field ∈ ite _ _ _ at hfield
      split at hfield
      next hmutation =>
        rcases Object.mem_insert hfield with rfl | hfield
        · refine .written [] hmem hmutation rfl fun text htext => ⟨error, rfl, ?_⟩
          exact (Option.some.inj htext).symm
        · exact h field hfield
      · exact h field hfield

theorem shown_showAll (h : ∀ o ∈ outcomes, o.Fits) :
    ∀ field ∈ showAll outcomes [], Shown outcomes field.1 field.2 := by
  induction outcomes using List.reverseRecOn with
  | nil => exact List.forall_mem_nil _
  | append_singleton before o ih =>
      obtain ⟨hbefore, ho⟩ := List.forall_mem_append.mp h
      have hshown : ∀ field ∈ showAll before [], Shown (before ++ [o]) field.1 field.2 :=
        fun field hfield => (ih hbefore field hfield).mono (List.subset_append_left _ _)
      rw [showAll, List.foldl_append, List.foldl_cons, List.foldl_nil]
      exact shown_withOutput (ho o List.mem_cons_self)
        (List.mem_append_right _ List.mem_cons_self) hshown

theorem nodup_keys_showAll (outcomes : List Outcome) {data : Object} (h : data.keys.Nodup) :
    (showAll outcomes data).keys.Nodup := by
  induction outcomes generalizing data with
  | nil => exact h
  | cons o rest ih =>
      refine ih ?_
      obtain ⟨t, result⟩ := o
      match result with
      | .ok (.rows rows) =>
          change (mergeRows _ _ _).keys.Nodup
          rw [mergeRows_eq]
          exact Object.nodup_keys_insert h _
      | .ok (.written rows failures) => exact Object.nodup_keys_insert h _
      | .error error =>
          change (ite _ _ _ : Object).keys.Nodup
          split
          · exact Object.nodup_keys_insert h _
          · exact h

/-- The data of a request that was undone are those of its outcomes, without the rows of
payloads. -/
theorem undone_data (h : ∀ o ∈ outcomes, o.Fits) (hran : outcomes.map Outcome.task <+: tasks) :
    tasks.foldl withoutReturned (showAll outcomes []) = emptiedAll (showAll outcomes []) := by
  refine foldl_withoutReturned (nodup_keys_showAll outcomes List.nodup_nil)
    fun name payload hpayload => ?_
  have hshown := shown_showAll h _ (Object.mem_of_get? hpayload)
  generalize hvalue : Json.object payload = value at hshown
  cases hshown with
  | read _ => cases hvalue
  | @written o rows error ho hmutation hname _ =>
      exact ⟨o.task, hran.subset (List.mem_map_of_mem ho), hmutation, hname⟩

theorem fits_of_withoutRows {o other : Outcome} (h : o.withoutRows = other.withoutRows)
    (ho : o.Fits) : other.Fits := by
  intro output houtput
  have htask : o.task = other.task := congrArg (fun u => u.task) h
  have hresult : o.withoutRows.result = other.withoutRows.result := congrArg (fun u => u.result) h
  simp only [Outcome.withoutRows, houtput] at hresult
  cases hsame : o.result with
  | error error =>
      rw [hsame] at hresult
      cases hresult
  | ok mine =>
      rw [hsame] at hresult
      rw [← htask, ← ho mine hsame]
      cases mine with
      | rows _ => cases output with
        | rows _ => rfl
        | written _ _ => cases hresult
      | written _ _ => cases output with
        | rows _ => cases hresult
        | written _ _ => rfl

/-- A request whose fields came to given outcomes is undone: the response tells of the failure of a
field, or of a commit, and shows nothing that was written. -/
structure UndoneBy (tasks : List Task) (outcomes : List Outcome) (uncommitted : Option Error)
    (r : Response) : Prop where
  failed : r.isOk = false
  error : ∃ error path, r.errors = [⟨error, true, path⟩] ∧
    ((∃ o ∈ outcomes, o.result = .error error ∧ path = some o.task.outputName) ∨
      uncommitted = some error ∧ path = none)
  /-- The rows are gone from every payload of a mutation that holds any. -/
  emptied : ∀ t ∈ tasks, t.isMutation = true → ∀ payload value,
    (t.outputName, .object payload) ∈ r.data → ("returning", value) ∈ payload → value = .object []
  /-- There is nothing in the data but what queries read, and payloads without rows. -/
  remains : ∀ field ∈ r.data, Remains outcomes field.1 field.2
  /-- If the mutations had returned other rows, the data would be the same. -/
  blind : ∀ others : List Outcome, others.map Outcome.withoutRows =
    outcomes.map Outcome.withoutRows → tasks.foldl withoutReturned (showAll others []) = r.data

theorem undoneBy_of_fits (h : ∀ o ∈ outcomes, o.Fits) (hran : outcomes.map Outcome.task <+: tasks)
    {uncommitted : Option Error} {error : Error} {path : Option String}
    (herror : (∃ o ∈ outcomes, o.result = .error error ∧ path = some o.task.outputName) ∨
      uncommitted = some error ∧ path = none) :
    UndoneBy tasks outcomes uncommitted (undone tasks (showAll outcomes []) error path) := by
  have hremains : ∀ field ∈ (undone tasks (showAll outcomes []) error path).data,
      Remains outcomes field.1 field.2 := by
    intro field hfield
    rw [undone, undone_data h hran] at hfield
    obtain ⟨shown, hshown, rfl⟩ := List.mem_map.mp hfield
    exact (shown_showAll h shown hshown).remains
  refine ⟨rfl, ⟨error, path, rfl, herror⟩, ?_, hremains, fun others hothers => ?_⟩
  · intro t _ _ payload value hpayload hvalue
    have hleft := hremains _ hpayload
    generalize hsame : Json.object payload = left at hleft
    cases hleft with
    | read _ => cases hsame
    | @written o error _ _ _ _ =>
        cases hsame
        rcases List.mem_append.mp hvalue with hvalue | hvalue
        · split at hvalue
          · have hkey : "returning" = "error" := congrArg Prod.fst (List.mem_singleton.mp hvalue)
            exact absurd hkey (by decide)
          · cases hvalue
        · split at hvalue
          · cases List.mem_singleton.mp hvalue
            rfl
          · cases hvalue
  · have hfits : ∀ o ∈ others, o.Fits := by
      intro other hother
      have hmem := List.mem_map_of_mem hother (f := Outcome.withoutRows)
      rw [hothers] at hmem
      obtain ⟨o, ho, hsame⟩ := List.mem_map.mp hmem
      exact fits_of_withoutRows hsame (h o ho)
    have htasks : others.map Outcome.task = outcomes.map Outcome.task := by
      simpa [Outcome.withoutRows, Function.comp_def] using congrArg (List.map Outcome.task) hothers
    rw [undone, undone_data h hran, undone_data hfits (htasks ▸ hran)]
    exact emptiedAll_showAll hothers rfl

/-- However a request in one transaction fails, it is undone: its response is an error with one
entry, and no row that a mutation returned is left in it. -/
theorem failed_request_shows_nothing_written (e : Engine σ) {s : Submission}
    (hread : Document.read s.document = .ok document)
    (hscheduled : schedule e.defaultSource document s.vars = .ok tasks)
    (hspans : spansTransaction s document = true)
    (hfails : (∃ o ∈ outcomesTogether document s.vars tasks ⟨e, [], []⟩, o.result.isOk = false) ∨
      (commitAll (afterFields document s.vars tasks e).1.sessions).2.isSome = true) :
    UndoneBy tasks (outcomesTogether document s.vars tasks ⟨e, [], []⟩)
      (commitAll (afterFields document s.vars tasks e).1.sessions).2 (e.execute s).1 := by
  obtain ⟨hdata, hfailure, hran⟩ := runTogether_outcomes document s.vars tasks ⟨e, [], []⟩
  have hfits := fits_outcomesTogether document s.vars tasks ⟨e, [], []⟩
  rw [execute_eq hread hscheduled, if_pos hspans, runShared, afterFields]
  rw [afterFields] at hfails
  rcases hrun : runTogether document s.vars tasks ⟨e, [], []⟩ with ⟨shared, _ | ⟨t, error⟩⟩
  · -- All fields succeeded, so it was a commit that failed.
    rw [hrun] at hdata hfailure hfails
    have hcommit : (commitAll shared.sessions).2.isSome = true := by
      refine hfails.resolve_left ?_
      rintro ⟨o, ho, hfailed⟩
      have hnone := List.findSome?_eq_none_iff.mp hfailure.symm o ho
      rw [Outcome.failure?] at hnone
      split at hnone
      next hok =>
        rw [hok] at hfailed
        cases hfailed
      · cases hnone
    obtain ⟨error, herror⟩ := Option.isSome_iff_exists.mp hcommit
    dsimp only at herror ⊢
    rcases hcommitted : commitAll shared.sessions with ⟨sessions, refused⟩
    rw [hcommitted] at herror
    obtain rfl : refused = some error := herror
    change shared.data = _ at hdata
    dsimp only
    rw [hdata]
    exact undoneBy_of_fits hfits hran (.inr ⟨rfl, rfl⟩)
  · rw [hrun] at hdata hfailure
    obtain ⟨o, ho, hfailed⟩ := List.exists_of_findSome?_eq_some hfailure.symm
    have herror : o.task = t ∧ o.result = .error error := by
      rw [Outcome.failure?] at hfailed
      split at hfailed
      · cases hfailed
      next hresult =>
        cases hfailed
        exact ⟨rfl, hresult⟩
    change shared.data = _ at hdata
    dsimp only
    rw [hdata]
    exact undoneBy_of_fits hfits hran (.inl ⟨o, ho, herror.2, by rw [herror.1]⟩)

open Connection (Scripted)
open Execution (keyRow)

/-- The shop, which takes one user and then loses its database. -/
def shopOfOne : Engine (Connection.Journaled Scripted) :=
  { shopEngine with
    catalog := (Catalog.empty "retail").add { shopSource with
      pool := { shopSource.pool with
        server := ⟨⟨[.rows (keyRow 1), .failure (.connection "gone")], [], [], []⟩, []⟩ } } }

/-- Two new users in one transaction. -/
def twoInsertedTogether : Submission :=
  { twoInserted "first:" "second:" with singleTransaction := true }

/-- The second insert fails, and the key that the first one returned is gone from the response. -/
theorem failed_request_shows_nothing_written_twoInserted :
    let s := twoInsertedTogether
    (Json.object (shopOfOne.execute s).1.data).compact =
      "\x7b\"first\":\x7b\"returning\":\x7b\x7d\x7d,\"second\":\x7b\"returning\":\x7b\x7d\x7d\x7d" ∧
    ∃ d tasks, Document.read s.document = .ok d ∧
    schedule shopOfOne.defaultSource d s.vars = .ok tasks ∧
      spansTransaction s d = true ∧
      (outcomesTogether d s.vars tasks ⟨shopOfOne, [], []⟩).map shownBy =
        [("first", some "[\x7b\"id\":1\x7d]"), ("second", none)] ∧
      UndoneBy tasks (outcomesTogether d s.vars tasks ⟨shopOfOne, [], []⟩)
        (commitAll (afterFields d s.vars tasks shopOfOne).1.sessions).2
          (shopOfOne.execute s).1 := by
  intro s
  let outcomes (d : Document) (tasks : List Task) :=
    outcomesTogether d s.vars tasks ⟨shopOfOne, [], []⟩
  have htogether : (scheduledFor shopOfOne s).map (fun found =>
      ((outcomes found.1 found.2).map shownBy, (outcomes found.1 found.2).any (!·.result.isOk))) =
      some ([("first", some "[\x7b\"id\":1\x7d]"), ("second", none)], true) := by decide +kernel
  obtain ⟨d, tasks, hread, hscheduled, hfound⟩ := of_scheduledFor
    (g := fun d tasks => ((outcomes d tasks).map shownBy, (outcomes d tasks).any (!·.result.isOk)))
      htogether
  obtain ⟨hshown, hfailed⟩ := Prod.mk.inj hfound
  have hfails : ∃ o ∈ outcomes d tasks, o.result.isOk = false := by simpa using hfailed
  exact ⟨by decide +kernel, d, tasks, hread, hscheduled, rfl, hshown,
    failed_request_shows_nothing_written shopOfOne hread hscheduled rfl (.inl hfails)⟩

end Engine

end SqlGateway
