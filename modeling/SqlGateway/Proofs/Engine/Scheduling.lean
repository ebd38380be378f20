import SqlGateway.Proofs.Engine.Transactions
import SqlGateway.Proofs.Json.Object
import Mathlib.Data.List.Induction

/-!
# What a document comes to

A schedule holds the fields of a document in its order, each of them once, except for the fields of
the operations that bear the name of a feeding query. Those are meant to be queries that a mutation
inserts the rows of; the names are collected from the fields of all operations and held against all
operations, so a mutation may bear one too, and then it is not run although the response is in
order.
-/
namespace SqlGateway.Engine

open Connection (Entry)
open Request (Document Field Operation Variables)

section Schedule
variable {defaultSource : Option String} {d : Document} {supplied : Variables} {tasks : List Task}

/-- Fields with their operations, in the order of the document. -/
def fieldsOf (operations : List Operation) : List (Operation × Field) :=
  operations.flatMap fun op => op.selection.map (op, ·)

/-- The operation bears the name of a query that some field inserts the rows of. -/
def bearsFeedingName (d : Document) (supplied : Variables) (op : Operation) : Bool :=
  op.name.any (feedingQueries d supplied).contains

/-- The operation is a query that a field of a mutation inserts the rows of. -/
def feedsMutation (d : Document) (supplied : Variables) (op : Operation) : Bool :=
  op.kind == .query &&
    op.name.any (feedingQueries ⟨d.operations.filter (·.kind == .mutation)⟩ supplied).contains

theorem bearsFeedingName_of_feedsMutation {op : Operation}
    (h : feedsMutation d supplied op = true) : bearsFeedingName d supplied op = true := by
  have hnamed := (Bool.and_eq_true_iff.mp h).2
  unfold bearsFeedingName
  cases hname : op.name with
  | none =>
      rw [hname] at hnamed
      cases hnamed
  | some name =>
      rw [hname] at hnamed
      simp only [Option.any_some, List.contains_iff_mem, feedingQueries,
        List.mem_flatMap] at hnamed ⊢
      obtain ⟨other, hother, hfeeds⟩ := hnamed
      exact ⟨other, List.mem_of_mem_filter hother, hfeeds⟩

theorem fieldsOf_cons (op : Operation) (rest : List Operation) :
    fieldsOf (op :: rest) = op.selection.map (op, ·) ++ fieldsOf rest := rfl

/-- Leaving out more operations leaves the fields as they are only if those have none. -/
theorem fieldsOf_filter_eq_iff {left meant : Operation → Bool}
    (hle : ∀ op, meant op = true → left op = true) (operations : List Operation) :
    fieldsOf (operations.filter fun op => !left op) =
      fieldsOf (operations.filter fun op => !meant op) ↔
      ∀ op ∈ operations, left op = true → op.selection ≠ [] → meant op = true := by
  have shorter : ∀ rest : List Operation, (fieldsOf (rest.filter fun op => !left op)).length ≤
      (fieldsOf (rest.filter fun op => !meant op)).length := by
    intro rest
    induction rest with
    | nil => exact Nat.le_refl _
    | cons op rest ih =>
        cases hmeant : meant op with
        | true => simpa [hle op hmeant, hmeant] using ih
        | false =>
            cases hleft : left op with
            | true => simpa [hleft, hmeant, fieldsOf_cons] using Nat.le_add_left_of_le ih
            | false => simpa [hleft, hmeant, fieldsOf_cons] using ih
  induction operations with
  | nil => simp
  | cons op rest ih =>
      rw [List.forall_mem_cons]
      cases hmeant : meant op with
      | true => simpa [hle op hmeant, hmeant] using ih
      | false =>
          cases hleft : left op with
          | false => simpa [hleft, hmeant, fieldsOf_cons] using ih
          | true =>
              simp only [hleft, hmeant, fieldsOf_cons, Bool.not_true, Bool.not_false,
                List.filter_cons,
                if_true, Bool.false_eq_true, if_false, imp_false, not_not, true_imp_iff]
              refine Iff.trans ?_ (and_congr_right' ih)
              constructor
              · intro heq
                have hlength := congrArg List.length heq
                rw [List.length_append, List.length_map] at hlength
                have hnone : op.selection = [] := by
                  have := shorter rest
                  exact List.length_eq_zero_iff.mp (by omega)
                rw [hnone] at heq
                exact ⟨hnone, heq⟩
              · rintro ⟨hnone, heq⟩
                rw [hnone]
                exact heq

/-- A field with the variables of its operation and the source that it goes to. -/
def taskOf (defaultSource : Option String) (supplied : Variables) (f : Operation × Field) :
    Except Error Task :=
  let vars := f.1.variablesWith supplied
  return ⟨f.1, f.2, vars, ← sourceOf defaultSource vars f.1 f.2⟩

theorem of_taskOf {f : Operation × Field} {t : Task} (h : taskOf defaultSource supplied f = .ok t) :
    f = (t.operation, t.field) ∧ t.vars = t.operation.variablesWith supplied ∧
      sourceOf defaultSource t.vars t.operation t.field = .ok t.source := by
  obtain ⟨source, hsource, h⟩ := bind_eq_ok.mp h
  obtain rfl := pure_eq_ok.mp h
  exact ⟨rfl, rfl, hsource⟩

/-- A schedule runs over the fields of all operations that do not bear the name of a feeding
query. -/
theorem schedule_eq (defaultSource : Option String) (d : Document) (supplied : Variables) :
    schedule defaultSource d supplied =
      (fieldsOf (d.operations.filter fun op => !bearsFeedingName d supplied op)).mapM
        (taskOf defaultSource supplied) := by
  have flattened : ∀ operations : List Operation,
      (do return (← operations.mapM (tasksOf defaultSource supplied)).flatten) =
        (fieldsOf operations).mapM (taskOf defaultSource supplied) := by
    intro operations
    induction operations with
    | nil => rfl
    | cons op rest ih =>
        have hop : tasksOf defaultSource supplied op =
            (op.selection.map (op, ·)).mapM (taskOf defaultSource supplied) := by
          rw [List.mapM_map]
          rfl
        rw [fieldsOf_cons, List.mapM_append, ← ih, ← hop]
        simp
  exact flattened _

end Schedule

section Answered
variable {σ : Type} {document : Document} {supplied : Variables} {tasks : List Task}

theorem contains_mergeRows_self (name : String) (rows : List Json) (data : Object) :
    Object.contains name (mergeRows name rows data) = true := by
  unfold mergeRows
  split
  · exact Object.contains_insert_self ..
  · exact Object.contains_insert_self ..

theorem contains_mergeRows_of_contains {name : String} {data : Object}
    (h : Object.contains name data = true) (other : String) (rows : List Json) :
    Object.contains name (mergeRows other rows data) = true := by
  unfold mergeRows
  split
  · exact Object.contains_insert_of_contains h ..
  · exact Object.contains_insert_of_contains h ..

/-- What a field adds to a response takes no error and no answer away, and where the response is
still in order the field is answered. -/
theorem noteOutcome_answers (t : Task) (r : Response) (outcome : Except Error FieldOutput)
    (h : (noteOutcome t r outcome).isOk = true) : r.isOk = true ∧
      Object.contains t.outputName (noteOutcome t r outcome).data = true ∧
      ∀ name, Object.contains name r.data = true →
        Object.contains name (noteOutcome t r outcome).data = true := by
  unfold noteOutcome at h ⊢
  match outcome with
  | .ok (.rows rows) =>
      exact ⟨h, contains_mergeRows_self .., fun _ hname => contains_mergeRows_of_contains hname ..⟩
  | .ok (.written rows failures) =>
      have hnone := List.append_eq_nil_iff.mp (List.isEmpty_iff.mp h)
      exact ⟨List.isEmpty_iff.mpr hnone.1, Object.contains_insert_self .., fun _ hname =>
        Object.contains_insert_of_contains hname ..⟩
  | .error error =>
      simp [Response.isOk] at h

theorem runEach_answers (document : Document) (supplied : Variables) (tasks : List Task)
    (e : Engine σ) (h : (runEach document supplied tasks e).1.isOk = true) :
    ∀ t ∈ tasks, Object.contains t.outputName (runEach document supplied tasks e).1.data =
      true := by
  unfold runEach at h ⊢
  -- Read from the end: what holds of the response after all but the last field carries over.
  induction tasks using List.reverseRecOn with
  | nil => exact List.forall_mem_nil _
  | append_singleton before t ih =>
      rw [List.foldl_append, List.foldl_cons, List.foldl_nil] at h ⊢
      obtain ⟨hbefore, hanswered, hkept⟩ := noteOutcome_answers t _ _ h
      refine List.forall_mem_append.mpr ⟨fun u hu => hkept _ (ih hbefore u hu), ?_⟩
      exact List.forall_mem_singleton.mpr hanswered

theorem runHeld_data (document : Document) (supplied : Variables) (t : Task) (s : Shared σ) :
    (runHeld document supplied t s).2.data = s.data := by
  unfold runHeld
  split
  · rfl
  · split <;> rfl

theorem withOutput_answers (t : Task) (data : Object) (output : FieldOutput) :
    Object.contains t.outputName (withOutput t data (.ok output)) = true ∧
      ∀ name, Object.contains name data = true →
        Object.contains name (withOutput t data (.ok output)) = true := by
  cases output with
  | rows rows =>
      exact ⟨contains_mergeRows_self .., fun _ hname => contains_mergeRows_of_contains hname ..⟩
  | written rows failures =>
      exact ⟨Object.contains_insert_self .., fun _ hname =>
        Object.contains_insert_of_contains hname ..⟩

theorem runTogether_answers (document : Document) (supplied : Variables) (tasks : List Task)
    (s : Shared σ) (h : (runTogether document supplied tasks s).2 = none) :
    (∀ name, Object.contains name s.data = true →
        Object.contains name (runTogether document supplied tasks s).1.data = true) ∧
      ∀ t ∈ tasks, Object.contains t.outputName (runTogether document supplied tasks s).1.data =
        true := by
  induction tasks generalizing s with
  | nil => exact ⟨fun _ hname => hname, List.forall_mem_nil _⟩
  | cons t rest ih =>
      have hdata := runHeld_data document supplied t s
      rw [runTogether] at h ⊢
      rcases hrun : runHeld document supplied t s with ⟨result, s'⟩
      rw [hrun] at h hdata
      cases result with
      | error error => cases h
      | ok output =>
          obtain ⟨hkept, hanswered⟩ := ih _ h
          obtain ⟨hself, hbefore⟩ := withOutput_answers t s'.data output
          refine ⟨fun name hname => hkept name (hbefore name (hdata ▸ hname)), ?_⟩
          exact List.forall_mem_cons.mpr ⟨hkept _ hself, hanswered⟩

theorem runShared_answers (document : Document) (supplied : Variables) (tasks : List Task)
    (e : Engine σ) (h : (runShared document supplied tasks e).1.isOk = true) :
    ∀ t ∈ tasks, Object.contains t.outputName (runShared document supplied tasks e).1.data =
      true := by
  obtain ⟨hdone, hcommitted⟩ := runShared_isOk h
  rw [runShared]
  rcases hrun : runTogether document supplied tasks ⟨e, [], []⟩ with ⟨s, failure⟩
  rw [afterFields, hrun] at hdone hcommitted
  obtain rfl : failure = none := hdone
  have hanswers := (runTogether_answers document supplied tasks ⟨e, [], []⟩ (by rw [hrun])).2
  rw [hrun] at hanswers
  dsimp only at hcommitted ⊢
  rcases hcommit : commitAll s.sessions with ⟨sessions, error⟩
  rw [hcommit] at hcommitted
  obtain rfl : error = none := hcommitted
  exact hanswers

/-- A response that is in order answers every field that was scheduled. -/
theorem execute_answers (e : Engine σ) (s : Submission) {d : Document}
    (hread : Document.read s.document = .ok d)
    (hscheduled : schedule e.defaultSource d s.vars = .ok tasks) (h : (e.execute s).1.isOk = true) :
    ∀ t ∈ tasks, Object.contains t.outputName (e.execute s).1.data = true := by
  rw [execute_eq hread hscheduled] at h ⊢
  split at h
  next hspans =>
    rw [if_pos hspans]
    exact runShared_answers d s.vars tasks e h
  next halone =>
    rw [if_neg halone]
    exact runEach_answers d s.vars tasks e h

/-- A schedule exists as soon as every field in it goes to a source, and it holds, in the order of
the document, every field of every operation that does not bear the name of a feeding query, each
once. These are all but the fields of the queries that a mutation inserts the rows of if and only if
no other operation bears such a name; and a response that is in order answers all of them. -/
theorem schedule_exact (defaultSource : Option String) (d : Document) (supplied : Variables) :
    ((schedule defaultSource d supplied).isOk = true ↔
      ∀ f ∈ fieldsOf (d.operations.filter fun op => !bearsFeedingName d supplied op),
        (sourceOf defaultSource (f.1.variablesWith supplied) f.1 f.2).isOk = true) ∧
    ∀ tasks, schedule defaultSource d supplied = .ok tasks →
      tasks.map (fun t => (t.operation, t.field)) =
        fieldsOf (d.operations.filter fun op => !bearsFeedingName d supplied op) ∧
      (∀ t ∈ tasks, t.vars = t.operation.variablesWith supplied ∧
        sourceOf defaultSource t.vars t.operation t.field = .ok t.source) ∧
      (tasks.map (fun t => (t.operation, t.field)) =
          fieldsOf (d.operations.filter fun op => !feedsMutation d supplied op) ↔
        ∀ op ∈ d.operations, bearsFeedingName d supplied op = true → op.selection ≠ [] →
          feedsMutation d supplied op = true) ∧
      ∀ (e : Engine σ) (s : Submission), e.defaultSource = defaultSource → s.vars = supplied →
        Document.read s.document = .ok d → (e.execute s).1.isOk = true →
        ∀ t ∈ tasks, Object.contains t.outputName (e.execute s).1.data = true := by
  refine ⟨?_, fun tasks h => ?_⟩
  · rw [schedule_eq, isOk_mapM]
    refine forall₂_congr fun f _ => ?_
    rw [taskOf]
    cases sourceOf defaultSource (f.1.variablesWith supplied) f.1 f.2 <;> rfl
  · have hmade := h
    rw [schedule_eq] at hmade
    have hfields : tasks.map (fun t => (t.operation, t.field)) =
        fieldsOf (d.operations.filter fun op => !bearsFeedingName d supplied op) := by
      have hsame := (forall₂_of_mapM hmade).imp fun _ _ ht => (of_taskOf ht).1
      rw [← List.forall₂_map_right_iff, List.forall₂_eq_eq_eq] at hsame
      exact hsame.symm
    refine ⟨hfields, fun t ht => ?_, ?_, ?_⟩
    · obtain ⟨f, -, hf⟩ := exists_of_mem_mapM hmade ht
      exact (of_taskOf hf).2
    · rw [hfields]
      exact fieldsOf_filter_eq_iff (fun _ => bearsFeedingName_of_feedsMutation) d.operations
    · rintro e s rfl rfl hread
      exact execute_answers e s hread h

end Answered

/-- A query of users and a mutation of a given name that inserts its rows. -/
def usersCopied (name : String) : Submission :=
  ⟨s!"query adults \x7b users \x7b name \x7d \x7d mutation {name} \x7b
    copied: insertselect_users(select: \"adults\") \x7b error \x7d \x7d", [], false⟩

/-- The output names of a schedule. -/
def scheduledNames (d : Document) : Option (List String) :=
  (schedule (some "shop") d []).toOption.map (·.map Task.outputName)

theorem schedule_exact_usersCopied :
    ∃ d tasks, Document.read (usersCopied "copy").document = .ok d ∧
    schedule (some "shop") d [] = .ok tasks ∧ tasks.map Task.outputName = ["copied"] ∧
    tasks.map (fun t => (t.operation, t.field)) =
      fieldsOf (d.operations.filter fun op => !feedsMutation d [] op) ∧
    (shopEngine.execute (usersCopied "copy")).1.isOk = true ∧
    ∀ t ∈ tasks, Object.contains t.outputName (shopEngine.execute (usersCopied "copy")).1.data =
      true := by
  -- No operation bears the name of a feeding query unless it feeds a mutation.
  let proper (d : Document) (op : Operation) : Bool :=
    !bearsFeedingName d [] op || feedsMutation d [] op
  have hfound : (Document.read (usersCopied "copy").document).toOption.map
      (fun d => (scheduledNames d, d.operations.all (proper d))) =
        some (some ["copied"], true) := by
    decide +kernel
  obtain ⟨d, hsome, hparts⟩ := Option.map_eq_some_iff.mp hfound
  have hread := eq_ok_of_toOption hsome
  obtain ⟨hscheduled, hproper⟩ := Prod.mk.inj hparts
  obtain ⟨tasks, htasks, hnames⟩ := Option.map_eq_some_iff.mp hscheduled
  have hok : (shopEngine.execute (usersCopied "copy")).1.isOk = true := by decide +kernel
  have hschedule := eq_ok_of_toOption htasks
  obtain ⟨-, -, hall, hanswers⟩ := (schedule_exact (some "shop") d []).2 tasks hschedule
  refine ⟨d, tasks, hread, hschedule, hnames, hall.mpr fun op hop hname _ => ?_, hok,
    hanswers shopEngine (usersCopied "copy") rfl rfl hread hok⟩
  simpa [proper, hname] using List.all_eq_true.mp hproper op hop

/-- A mutation that bears the name of the query it inserts from is dropped: nothing is scheduled,
nothing is sent, and the response is in order and empty. -/
theorem namesake_of_feeding_query_is_dropped :
    ∃ d, Document.read (usersCopied "adults").document = .ok d ∧
    (fieldsOf (d.operations.filter fun op => !feedsMutation d [] op)).map
      (fun f => f.2.outputName) = ["copied"] ∧
    schedule (some "shop") d [] = .ok [] ∧
    (shopEngine.execute (usersCopied "adults")).1.isOk = true ∧
    (shopEngine.execute (usersCopied "adults")).1.data.keys = [] ∧
    (journalOf (shopEngine.execute (usersCopied "adults")).2 "shop").map Entry.isData = [] := by
  let dueNames (d : Document) : List String :=
    (fieldsOf (d.operations.filter fun op => !feedsMutation d [] op)).map fun f => f.2.outputName
  have hfound : (Document.read (usersCopied "adults").document).toOption.map
      (fun d => (scheduledNames d, dueNames d)) = some (some [], ["copied"]) := by decide +kernel
  obtain ⟨d, hsome, hparts⟩ := Option.map_eq_some_iff.mp hfound
  have hread := eq_ok_of_toOption hsome
  obtain ⟨hscheduled, hdue⟩ := Prod.mk.inj hparts
  obtain ⟨tasks, htasks, hnone⟩ := Option.map_eq_some_iff.mp hscheduled
  obtain rfl := List.map_eq_nil_iff.mp hnone
  exact ⟨d, hread, hdue, eq_ok_of_toOption htasks, by decide +kernel⟩

end SqlGateway.Engine
