import SqlGateway.Proofs.Engine.Outcomes

/-!
# Requests without one of their fields

A field that cannot be prepared gets no connection and sends nothing; it comes to an error under its
output name and to nothing else. So outside of a common transaction the request might as well be run
without it: the other fields are scheduled and prepared as before, since they look at an operation
other than their own only if an insert takes rows from it, they find their sources as they would
have, and they note the same results.
-/
namespace SqlGateway

open Connection (Entry Journaled Session)
open Request (Document Field Operation Variables)

namespace Object

/-- The object without a field. -/
def without (name : String) (o : Object) : Object := o.filter (·.1 ≠ name)

theorem without_cons_self (name : String) (value : Json) (o : Object) :
    without name ((name, value) :: o) = o.without name := by simp [without]

theorem without_cons_of_ne {name key : String} (h : key ≠ name) (value : Json) (o : Object) :
    without name ((key, value) :: o) = (key, value) :: o.without name := by simp [without, h]

theorem without_insert_self (name : String) (value : Json) (o : Object) :
    (o.insert name value).without name = o.without name := by
  induction o with
  | nil => exact without_cons_self name value []
  | cons field rest ih =>
      obtain ⟨k, v⟩ := field
      by_cases hk : k = name
      · subst hk
        simp [insert, without]
      · simp only [insert, hk, if_false, without_cons_of_ne hk, ih]

theorem without_insert_of_ne {name key : String} (h : key ≠ name) (value : Json) (o : Object) :
    (o.insert key value).without name = (o.without name).insert key value := by
  induction o with
  | nil => simp [insert, without, h]
  | cons field rest ih =>
      obtain ⟨k, v⟩ := field
      by_cases hk : k = key
      · subst hk
        simp [insert, without_cons_of_ne h]
      · by_cases hname : k = name
        · subst hname
          simp [insert, hk, without_cons_self, ih]
        · simp [insert, hk, without_cons_of_ne hname, ih]

theorem get?_without_of_ne {name key : String} (h : key ≠ name) (o : Object) :
    (o.without name).get? key = o.get? key := by
  induction o with
  | nil => rfl
  | cons field rest ih =>
      obtain ⟨k, v⟩ := field
      by_cases hname : k = name
      · subst hname
        rw [without_cons_self, ih]
        simp [get?, Ne.symm h]
      · rw [without_cons_of_ne hname, get?, get?, ih]

end Object

namespace Engine

/-- The response to all fields but those of an output name. -/
def Response.without (name : String) (r : Response) : Response :=
  ⟨r.data.without name, r.errors.filter (·.path ≠ some name)⟩

theorem without_mergeRows_self (name : String) (rows : List Json) (data : Object) :
    (mergeRows name rows data).without name = data.without name := by
  rw [mergeRows_eq, Object.without_insert_self]

theorem without_mergeRows_of_ne {name key : String} (h : key ≠ name) (rows : List Json)
    (data : Object) :
    (mergeRows key rows data).without name = mergeRows key rows (data.without name) := by
  rw [mergeRows_eq, mergeRows_eq, Object.without_insert_of_ne h, Object.get?_without_of_ne h]

section Noting
variable {name : String} {t : Task} {r : Response} {outcome : Except Error FieldOutput}

/-- The errors of a field. -/
def errorsAt (name : String) (errors : List Error) : List ResponseError :=
  errors.map (⟨·, false, some name⟩)

theorem filter_errorsAt_self (name : String) (errors : List Error) :
    (errorsAt name errors).filter (·.path ≠ some name) = [] := by
  simp [errorsAt]

theorem filter_errorsAt_of_ne {key : String} (h : key ≠ name) (errors : List Error) :
    (errorsAt key errors).filter (·.path ≠ some name) = errorsAt key errors := by
  simp [errorsAt, h]

/-- What noting an outcome adds to the errors. -/
def errorsOf : Except Error FieldOutput → List Error
  | .ok (.rows _) => []
  | .ok (.written _ failures) => failures
  | .error error => [error]

theorem errors_noteOutcome (t : Task) (r : Response) (outcome : Except Error FieldOutput) :
    (noteOutcome t r outcome).errors = r.errors ++ errorsAt t.outputName (errorsOf outcome) := by
  match outcome with
  | .ok (.rows _) => exact (List.append_nil _).symm
  | .ok (.written _ _) => rfl
  | .error _ => rfl

/-- Without its name nothing is left of what a field came to. -/
theorem without_noteOutcome_self (t : Task) (r : Response) (outcome : Except Error FieldOutput) :
    (noteOutcome t r outcome).without t.outputName = r.without t.outputName := by
  have hdata :
      (noteOutcome t r outcome).data.without t.outputName = r.data.without t.outputName := by
    match outcome with
    | .ok (.rows rows) => exact without_mergeRows_self ..
    | .ok (.written rows failures) => exact Object.without_insert_self ..
    | .error error =>
        dsimp only [noteOutcome]
        split
        · exact Object.without_insert_self ..
        · rfl
  rw [Response.without, hdata, errors_noteOutcome, List.filter_append, filter_errorsAt_self,
    List.append_nil, Response.without]

theorem without_noteOutcome_of_ne (h : t.outputName ≠ name) (r : Response)
    (outcome : Except Error FieldOutput) :
    (noteOutcome t r outcome).without name = noteOutcome t (r.without name) outcome := by
  have herrors : (noteOutcome t r outcome).errors.filter (·.path ≠ some name) =
      (noteOutcome t (r.without name) outcome).errors := by
    rw [errors_noteOutcome, errors_noteOutcome, List.filter_append, filter_errorsAt_of_ne h,
      Response.without]
  have hdata : (noteOutcome t r outcome).data.without name =
      (noteOutcome t (r.without name) outcome).data := by
    match outcome with
    | .ok (.rows rows) => exact without_mergeRows_of_ne h ..
    | .ok (.written rows failures) => exact Object.without_insert_of_ne h ..
    | .error error =>
        dsimp only [noteOutcome]
        split
        · exact Object.without_insert_of_ne h ..
        · rfl
  rw [Response.without, hdata, herrors]

end Noting

/-- Fields of other names note the same, whatever is left out before. -/
theorem without_noteAll {name : String} {outcomes : List Outcome}
    (h : ∀ o ∈ outcomes, o.task.outputName ≠ name) (r : Response) :
    (noteAll outcomes r).without name = noteAll outcomes (r.without name) := by
  induction outcomes generalizing r with
  | nil => rfl
  | cons o rest ih =>
      obtain ⟨ho, hrest⟩ := List.forall_mem_cons.mp h
      rw [noteAll, List.foldl_cons, ← noteAll, ih hrest, without_noteOutcome_of_ne ho]
      rfl

/-- The response to fields of other names is the response to all fields without that of a name. -/
theorem noteAll_without {before after : List Outcome} {o : Outcome}
    (h : ∀ other ∈ before ++ after, other.task.outputName ≠ o.task.outputName) :
    noteAll (before ++ after) ⟨[], []⟩ = (noteAll (before ++ o :: after) ⟨[], []⟩).without
      o.task.outputName := by
  obtain ⟨hbefore, hafter⟩ := List.forall_mem_append.mp h
  have hfirst : (noteAll before ⟨[], []⟩).without o.task.outputName = noteAll before ⟨[], []⟩ :=
    without_noteAll hbefore ⟨[], []⟩
  calc noteAll (before ++ after) ⟨[], []⟩
      = noteAll after ((noteAll before ⟨[], []⟩).without o.task.outputName) := by
        rw [noteAll_append, hfirst]
    _ = noteAll after ((noteOutcome o.task (noteAll before ⟨[], []⟩) o.result).without
        o.task.outputName) := by
        rw [without_noteOutcome_self]
    _ = (noteAll after (noteOutcome o.task (noteAll before ⟨[], []⟩) o.result)).without
        o.task.outputName :=
        (without_noteAll hafter _).symm
    _ = (noteAll (before ++ o :: after) ⟨[], []⟩).without o.task.outputName := by
        rw [noteAll_append]
        rfl

section Course
variable {σ : Type} {e e' : Engine σ} {document : Document} {supplied : Variables} {t : Task}
  {tasks : List Task}

theorem restocked_runEach (he : e.Named) (document : Document) (supplied : Variables)
    (tasks : List Task) : Restocked e (runEach document supplied tasks e).2 := by
  induction tasks generalizing e with
  | nil => exact .refl e
  | cons t rest ih =>
      have hfirst := restocked_runTask he document supplied t
      rw [runEach_cons]
      exact hfirst.trans (ih (hfirst.named he))

end Course

section Refused
variable {σ α β : Type} {e : Engine σ} {document : Document} {supplied : Variables} {k : Task}
  {before after : List Task} {error : Error}

theorem runEach_append (document : Document) (supplied : Variables) (before after : List Task)
    (e : Engine σ) : (runEach document supplied (before ++ after) e).2 =
      (runEach document supplied after (runEach document supplied before e).2).2 := by
  induction before generalizing e with
  | nil => rfl
  | cons t rest ih => rw [List.cons_append, runEach_cons, ih, runEach_cons]

/-- What is gathered from fields that run by themselves, from each at the moment when its turn
comes. -/
def alongEach (document : Document) (supplied : Variables) (f : Task → Engine σ → List α) :
    List Task → Engine σ → List α
  | [], _ => []
  | t :: rest, e => f t e ++ alongEach document supplied f rest (runTask document supplied t e).2

theorem alongEach_append (f : Task → Engine σ → List α) (before after : List Task) (e : Engine σ) :
    alongEach document supplied f (before ++ after) e = alongEach document supplied f before e ++
      alongEach document supplied f after (runEach document supplied before e).2 := by
  induction before generalizing e with
  | nil => rfl
  | cons t rest ih =>
      rw [List.cons_append, alongEach, alongEach, ih, runEach_cons, List.append_assoc]

theorem map_alongEach (g : α → β) (f : Task → Engine σ → List α) (tasks : List Task)
    (e : Engine σ) : (alongEach document supplied f tasks e).map g =
      alongEach document supplied (fun t e => (f t e).map g) tasks e := by
  induction tasks generalizing e with
  | nil => rfl
  | cons t rest ih => rw [alongEach, List.map_append, ih, alongEach]

theorem outcomesEach_eq (document : Document) (supplied : Variables) (tasks : List Task)
    (e : Engine σ) : outcomesEach document supplied tasks e =
      alongEach document supplied (fun t e => [⟨t, (runTask document supplied t e).1⟩])
        tasks e := by
  induction tasks generalizing e with
  | nil => rfl
  | cons t rest ih => exact congrArg _ (ih _)

theorem runsEach_eq (document : Document) (supplied : Variables) (tasks : List Task)
    (e : Engine σ) : runsEach document supplied tasks e =
      alongEach document supplied (fun t e => (runAlone document supplied t e).toList) tasks e := by
  induction tasks generalizing e with
  | nil => rfl
  | cons t rest ih => exact congrArg _ (ih _)

/-- A field asks no pool for a connection and sends nothing, and nothing becomes of the engine. -/
structure ComesToNothing (e : Engine σ) (document : Document) (supplied : Variables) (k : Task)
    (error : Error) : Prop where
  run : runTask document supplied k e = (.error error, e)
  dealings : ∀ name, (runTask document supplied k e).2.dealings name = e.dealings name
  unsent : runAlone document supplied k e = none

theorem comesToNothing (h : e.prepareTask document supplied k = .error error) :
    ComesToNothing e document supplied k error where
  run := (runAlone_of_refused h).2.2
  dealings name := by rw [(runAlone_of_refused h).2.2]
  unsent := (runAlone_of_refused h).1

variable (hk : ComesToNothing (runEach document supplied before e).2 document supplied k error)
include hk

theorem ComesToNothing.engine : (runEach document supplied (before ++ k :: after) e).2 =
    (runEach document supplied (before ++ after) e).2 := by
  rw [runEach_append, runEach_append, runEach_cons, hk.run]

theorem ComesToNothing.along (f : Task → Engine σ → List α) :
    alongEach document supplied f (before ++ k :: after) e =
      alongEach document supplied f before e ++ (f k (runEach document supplied before e).2 ++
        alongEach document supplied f after (runEach document supplied before e).2) := by
  rw [alongEach_append, alongEach, hk.run]

/-- Where nothing is gathered from the field, the others give what they would give without it. -/
theorem ComesToNothing.along_of_nil {f : Task → Engine σ → List α}
    (hnil : f k (runEach document supplied before e).2 = []) :
    alongEach document supplied f (before ++ k :: after) e =
      alongEach document supplied f (before ++ after) e := by
  rw [hk.along, hnil, List.nil_append, alongEach_append]

theorem ComesToNothing.response (hnames : ∀ t ∈ before ++ after, t.outputName ≠ k.outputName) :
    (runEach document supplied (before ++ after) e).1 =
      (runEach document supplied (before ++ k :: after) e).1.without k.outputName := by
  have htasks := map_task_outcomesEach document supplied (before ++ after) e
  rw [outcomesEach_eq, alongEach_append] at htasks
  rw [runEach_response, runEach_response, outcomesEach_eq, outcomesEach_eq, hk.along, hk.run,
    alongEach_append]
  refine noteAll_without (o := ⟨k, .error error⟩) fun other hother => hnames other.task ?_
  rw [← htasks]
  exact List.mem_map_of_mem hother

end Refused

/-- A task of the same field, whose operation may select other fields besides. -/
structure Task.Alike (t t' : Task) : Prop where
  operation : t'.operation = { t.operation with selection := t'.operation.selection }
  field : t'.field = t.field
  vars : t'.vars = t.vars
  source : t'.source = t.source

section Alike
variable {σ : Type} {d d' : Document} {supplied : Variables} {t t' : Task}
  {tasks tasks' : List Task}

theorem Task.Alike.isMutation (h : t.Alike t') : t'.isMutation = t.isMutation := by
  rw [Task.isMutation, h.operation, Task.isMutation]

theorem Task.Alike.outputName (h : t.Alike t') : t'.outputName = t.outputName :=
  congrArg Field.outputName h.field

theorem Task.Alike.noteOutcome (h : t.Alike t') (r : Response)
    (outcome : Except Error FieldOutput) : noteOutcome t' r outcome = noteOutcome t r outcome := by
  unfold Engine.noteOutcome
  rw [h.outputName, h.field, h.isMutation]

theorem feedingField_alike (h : t.Alike t')
    (hfeeds : ∀ name, t.field.resolved t.vars "select" = some (.text name) →
      d'.operation? name = d.operation? name) : feedingField d' t' = feedingField d t := by
  unfold feedingField
  rw [h.field, h.vars]
  split
  next name hname => rw [hfeeds name hname]
  · rfl

theorem planOf_alike (compiler : Query.Compiler) (h : t.Alike t')
    (hfeeds : ∀ name, feedingQuery? t.vars t.field = some name →
      d'.operation? name = d.operation? name) :
    planOf compiler d' supplied t' = planOf compiler d supplied t := by
  unfold planOf
  rw [h.field, h.vars]
  split
  next hkind =>
    rw [feedingField_alike h fun name hname => hfeeds name ?_]
    rw [feedingQuery?, hkind, hname]
    rfl
  · rfl

/-- What a field comes to depends on its document only for the query that an insert takes rows
from. -/
theorem prepare_alike (compiler : Query.Compiler) (h : t.Alike t')
    (hfeeds : ∀ name, feedingQuery? t.vars t.field = some name →
      d'.operation? name = d.operation? name) :
    prepare compiler d' supplied t' = prepare compiler d supplied t := by
  have hraw : prepareRaw compiler.dialect t' = prepareRaw compiler.dialect t := by
    unfold prepareRaw
    rw [h.field, h.vars, h.isMutation]
  have hown : ownTransaction t' = ownTransaction t := by
    unfold ownTransaction
    rw [h.field, h.vars]
  unfold prepare
  rw [hraw, hown, planOf_alike compiler h hfeeds, h.field, h.vars, h.isMutation]

/-- Every engine prepares the fields of one list as those of the other. -/
def AlikeEach (σ : Type) (d d' : Document) (supplied : Variables)
    (tasks tasks' : List Task) : Prop :=
  List.Forall₂ (fun t t' => t.Alike t' ∧
    ∀ e : Engine σ, e.prepareTask d' supplied t' = e.prepareTask d supplied t) tasks tasks'

theorem prepareTask_alike (e : Engine σ) (h : t.Alike t')
    (hfeeds : ∀ name, feedingQuery? t.vars t.field = some name →
      d'.operation? name = d.operation? name) :
    e.prepareTask d' supplied t' = e.prepareTask d supplied t := by
  unfold Engine.prepareTask
  rw [h.source]
  congr 1
  funext source
  rw [prepare_alike _ h hfeeds]

theorem runTask_alike {e : Engine σ}
    (h : e.prepareTask d' supplied t' = e.prepareTask d supplied t) :
    runTask d' supplied t' e = runTask d supplied t e := by
  rw [runTask, h, runTask]

theorem AlikeEach.runEach (h : AlikeEach σ d d' supplied tasks tasks') (e : Engine σ) :
    runEach d' supplied tasks' e = runEach d supplied tasks e := by
  have run : ∀ r : Response, tasks'.foldl (noted d' supplied) (r, e) =
      tasks.foldl (noted d supplied) (r, e) := by
    induction h generalizing e with
    | nil => exact fun _ => rfl
    | @cons t t' _ _ hfirst _ ih =>
        intro r
        obtain ⟨halike, hprepare⟩ := hfirst
        have hnoted : noted d' supplied (r, e) t' = noted d supplied (r, e) t := by
          rw [noted, noted, runTask_alike (hprepare e), halike.noteOutcome]
        rw [List.foldl_cons, List.foldl_cons, hnoted]
        exact ih _ _
  rw [runEach_eq, runEach_eq, run]

/-- What is gathered from the fields of both lists is the same if it depends on what they are
prepared to. -/
theorem AlikeEach.along {α : Type} (h : AlikeEach σ d d' supplied tasks tasks')
    {f f' : Task → Engine σ → List α}
    (hf : ∀ t t' e, t.Alike t' → e.prepareTask d' supplied t' = e.prepareTask d supplied t →
      f' t' e = f t e)
    (e : Engine σ) : alongEach d' supplied f' tasks' e = alongEach d supplied f tasks e := by
  induction h generalizing e with
  | nil => rfl
  | cons hfirst _ ih =>
      obtain ⟨halike, hprepare⟩ := hfirst
      rw [alongEach, alongEach, hf _ _ e halike (hprepare e), runTask_alike (hprepare e), ih]

/-- The source that a field goes to, and what it sends there. -/
def sentTo (r : FieldRun (Journaled σ)) : String × List Entry := (r.task.source, r.sent)

theorem sentTo_runAlone {e : Engine (Journaled σ)} (h : t.Alike t')
    (hprepare : e.prepareTask d' supplied t' = e.prepareTask d supplied t) :
    (runAlone d' supplied t' e).toList.map sentTo = (runAlone d supplied t e).toList.map
      sentTo := by
  rw [runAlone, hprepare, runAlone]
  cases e.prepareTask d supplied t with
  | error _ => rfl
  | ok found =>
      simp only [Option.toList_some, List.map_singleton, sentTo, h.source]
      rfl

theorem AlikeEach.sent (h : AlikeEach (Journaled σ) d d' supplied tasks tasks')
    (e : Engine (Journaled σ)) :
    (runsEach d' supplied tasks' e).map sentTo = (runsEach d supplied tasks e).map sentTo := by
  rw [runsEach_eq, runsEach_eq, map_alongEach, map_alongEach]
  refine h.along (fun t t' e halike hprepare => ?_) e
  exact sentTo_runAlone halike hprepare

end Alike

/-- A field in its place: before and behind it the other fields of its operation, and the other
operations. -/
structure Place where
  before : List Operation
  /-- The operation of the field; what it selects stands in the three parts that follow. -/
  operation : Operation
  left : List Field
  field : Field
  right : List Field
  after : List Operation

namespace Place

/-- The operation with the field. -/
def whole (p : Place) : Operation := { p.operation with selection := p.left ++ p.field :: p.right }

/-- The operation without the field. -/
def rest (p : Place) : Operation := { p.operation with selection := p.left ++ p.right }

def document (p : Place) : Document := ⟨p.before ++ p.whole :: p.after⟩

/-- The document without the field, and without its operation if that has no other. -/
def without (p : Place) : Document :=
  ⟨p.before ++ if p.rest.selection.isEmpty then p.after else p.rest :: p.after⟩

end Place

section Place
variable {defaultSource : Option String} {supplied : Variables} {p : Place}

theorem mem_without {op : Operation} (h : op ∈ p.without.operations) :
    op = p.rest ∨ op ∈ p.before ∨ op ∈ p.after := by
  rcases List.mem_append.mp h with h | h
  · exact .inr (.inl h)
  · split at h
    · exact .inr (.inr h)
    · exact (List.mem_cons.mp h).imp_right .inr

/-- What is gathered from the operations in their order, where an operation without fields gives
nothing. -/
theorem flatMap_without {α : Type} {f : Operation → List α}
    (hempty : p.rest.selection = [] → f p.rest = []) :
    p.without.operations.flatMap f = p.before.flatMap f ++ (f p.rest ++ p.after.flatMap f) := by
  unfold Place.without
  dsimp only
  rw [List.flatMap_append]
  split
  next hnone => rw [hempty (List.isEmpty_iff.mp hnone), List.nil_append]
  · rw [List.flatMap_cons]

theorem feedingQueries_without (hfield : ∀ vars, feedingQuery? vars p.field = none) :
    feedingQueries p.without supplied = feedingQueries p.document supplied := by
  let gathered (op : Operation) : List String :=
    op.selection.filterMap (feedingQuery? (op.variablesWith supplied))
  have hrest : gathered p.whole = gathered p.rest := by
    change (p.left ++ p.field :: p.right).filterMap _ = (p.left ++ p.right).filterMap _
    rw [List.filterMap_append, List.filterMap_append, List.filterMap_cons, hfield]
    rfl
  have hwithout := flatMap_without (f := gathered) fun hnone => by
    change p.rest.selection.filterMap _ = []
    rw [hnone, List.filterMap_nil]
  have hdocument : p.document.operations.flatMap gathered =
      p.before.flatMap gathered ++ (gathered p.whole ++ p.after.flatMap gathered) := by
    rw [Place.document, List.flatMap_append, List.flatMap_cons]
  rw [feedingQueries, feedingQueries]
  exact hwithout.trans (hrest ▸ hdocument.symm)

theorem spansTransaction_without {s : Submission} (h : spansTransaction s p.document = false) :
    spansTransaction s p.without = false := by
  obtain ⟨hsingle, hnone⟩ := Bool.or_eq_false_iff.mp h
  refine Bool.or_eq_false_iff.mpr ⟨hsingle, List.any_eq_false.mpr fun op hop => ?_⟩
  have hnone := List.any_eq_false.mp hnone
  rcases mem_without hop with rfl | hbefore | hafter
  · exact hnone p.whole (List.mem_append_right _ List.mem_cons_self)
  · exact hnone op (List.mem_append_left _ hbefore)
  · exact hnone op (List.mem_append_right _ (List.mem_cons_of_mem _ hafter))

/-- Operations of other names are found as before. -/
theorem operation?_without {name : String} (h : p.operation.name ≠ some name) :
    p.without.operation? name = p.document.operation? name := by
  have hwhole : (p.whole.name == some name) = false := beq_false_of_ne h
  have hrest : (p.rest.name == some name) = false := hwhole
  unfold Document.operation? Place.without Place.document
  dsimp only
  rw [List.find?_append, List.find?_append, List.find?_cons, hwhole]
  split
  · rfl
  · rw [List.find?_cons, hrest]

theorem fieldsOf_append (operations more : List Operation) :
    fieldsOf (operations ++ more) = fieldsOf operations ++ fieldsOf more := List.flatMap_append

theorem fieldsOf_document {runs : Operation → Bool} (hruns : runs p.whole = true) :
    fieldsOf (p.document.operations.filter runs) =
      (fieldsOf (p.before.filter runs) ++ p.left.map (p.whole, ·)) ++
        (p.whole, p.field) :: (p.right.map (p.whole, ·) ++ fieldsOf (p.after.filter runs)) := by
  have hselection : p.whole.selection = p.left ++ p.field :: p.right := rfl
  rw [Place.document, List.filter_append, fieldsOf_append, List.filter_cons_of_pos hruns,
    fieldsOf_cons, hselection, List.map_append, List.map_cons]
  simp only [List.append_assoc, List.cons_append]

theorem fieldsOf_without {runs : Operation → Bool} (hruns : runs p.rest = true) :
    fieldsOf (p.without.operations.filter runs) =
      (fieldsOf (p.before.filter runs) ++ p.left.map (p.rest, ·)) ++
        (p.right.map (p.rest, ·) ++ fieldsOf (p.after.filter runs)) := by
  have hselection : p.rest.selection = p.left ++ p.right := rfl
  have hfields :
    fieldsOf ((if p.rest.selection.isEmpty then p.after else p.rest :: p.after).filter runs) =
      p.rest.selection.map (p.rest, ·) ++ fieldsOf (p.after.filter runs) := by
    split
    next hnone => rw [List.isEmpty_iff.mp hnone, List.map_nil, List.nil_append]
    · rw [List.filter_cons_of_pos hruns, fieldsOf_cons]
  rw [Place.without, List.filter_append, fieldsOf_append, hfields, hselection, List.map_append]
  simp only [List.append_assoc]

/-- Fields of operations that differ in nothing but what they select. -/
def AlikeField (f f' : Operation × Field) : Prop :=
  f'.2 = f.2 ∧ f'.1 = { f.1 with selection := f'.1.selection }

theorem alikeField_refl (fields : List (Operation × Field)) :
    List.Forall₂ AlikeField fields fields :=
  List.forall₂_same.mpr fun _ _ => ⟨rfl, rfl⟩

theorem alikeField_rest (fields : List Field) :
    List.Forall₂ AlikeField (fields.map (p.whole, ·)) (fields.map (p.rest, ·)) :=
  List.forall₂_map_left_iff.mpr
    (List.forall₂_map_right_iff.mpr (List.forall₂_same.mpr fun _ _ => ⟨rfl, rfl⟩))

theorem alikeField_around (p : Place) (front back : List (Operation × Field)) :
    List.Forall₂ AlikeField
    ((front ++ p.left.map (p.whole, ·)) ++ (p.right.map (p.whole, ·) ++ back))
    ((front ++ p.left.map (p.rest, ·)) ++ (p.right.map (p.rest, ·) ++ back)) :=
  List.rel_append (List.rel_append (alikeField_refl front) (alikeField_rest p.left))
    (List.rel_append (alikeField_rest p.right) (alikeField_refl back))

theorem taskOf_alike {f f' : Operation × Field} (h : AlikeField f f') {t : Task}
    (ht : taskOf defaultSource supplied f = .ok t) :
    ∃ t', taskOf defaultSource supplied f' = .ok t' ∧ t.Alike t' := by
  obtain ⟨op, field⟩ := f
  obtain ⟨op', field'⟩ := f'
  obtain ⟨hfield, hop⟩ := h
  obtain rfl : field' = field := hfield
  change op' = _ at hop
  obtain ⟨source, hsource, ht⟩ := bind_eq_ok.mp ht
  obtain rfl := pure_eq_ok.mp ht
  have hvars : op'.variablesWith supplied = op.variablesWith supplied := by
    rw [hop]
    rfl
  have hsame : sourceOf defaultSource (op'.variablesWith supplied) op' field' =
      sourceOf defaultSource (op.variablesWith supplied) op field' := by
    rw [hvars, hop]
    rfl
  exact ⟨⟨op', field', op'.variablesWith supplied, source⟩,
    bind_eq_ok.mpr ⟨source, hsame.trans hsource, rfl⟩, hop, rfl, hvars, rfl⟩

theorem mapM_taskOf_alike {fields fields' : List (Operation × Field)}
    (h : List.Forall₂ AlikeField fields fields') {tasks : List Task}
    (htasks : fields.mapM (taskOf defaultSource supplied) = .ok tasks) :
    ∃ tasks', fields'.mapM (taskOf defaultSource supplied) = .ok tasks' ∧
      List.Forall₂ Task.Alike tasks tasks' := by
  induction h generalizing tasks with
  | nil =>
      rw [List.mapM_nil] at htasks
      obtain rfl := pure_eq_ok.mp htasks
      exact ⟨[], List.mapM_nil, .nil⟩
  | cons hfirst _ ih =>
      rw [List.mapM_cons] at htasks
      obtain ⟨t, ht, htasks⟩ := bind_eq_ok.mp htasks
      obtain ⟨others, hothers, htasks⟩ := bind_eq_ok.mp htasks
      obtain rfl := pure_eq_ok.mp htasks
      obtain ⟨t', ht', halike⟩ := taskOf_alike hfirst ht
      obtain ⟨others', hothers', hrest⟩ := ih hothers
      exact ⟨t' :: others', by rw [List.mapM_cons, ht', hothers']; rfl, .cons halike hrest⟩

/-- The schedule with a field, and the schedule without it. -/
theorem schedule_without (hfield : ∀ vars, feedingQuery? vars p.field = none)
    (hruns : bearsFeedingName p.document supplied p.whole = false) {tasks : List Task}
    (hscheduled : schedule defaultSource p.document supplied = .ok tasks) :
    ∃ before k after, tasks = before ++ k :: after ∧
      taskOf defaultSource supplied (p.whole, p.field) = .ok k ∧
      ∃ tasks', schedule defaultSource p.without supplied = .ok tasks' ∧
        List.Forall₂ Task.Alike (before ++ after) tasks' := by
  have hnames : (fun op => !bearsFeedingName p.without supplied op) =
      fun op => !bearsFeedingName p.document supplied op := by
    funext op
    rw [bearsFeedingName, feedingQueries_without hfield, bearsFeedingName]
  have hwhole : (!bearsFeedingName p.document supplied p.whole) = true := by rw [hruns]; rfl
  have hrest : (!bearsFeedingName p.document supplied p.rest) = true := hwhole
  rw [schedule_eq, fieldsOf_document hwhole, List.mapM_append, List.mapM_cons] at hscheduled
  obtain ⟨before, hbefore, hscheduled⟩ := bind_eq_ok.mp hscheduled
  obtain ⟨_, hbehind, hscheduled⟩ := bind_eq_ok.mp hscheduled
  obtain ⟨k, hk, hbehind⟩ := bind_eq_ok.mp hbehind
  obtain ⟨after, hafter, hlast⟩ := bind_eq_ok.mp hbehind
  obtain rfl := pure_eq_ok.mp hlast
  obtain rfl := pure_eq_ok.mp hscheduled
  refine ⟨before, k, after, rfl, hk, ?_⟩
  rw [schedule_eq, hnames, fieldsOf_without hrest]
  refine mapM_taskOf_alike (alikeField_around p _ _) ?_
  rw [List.mapM_append, hbefore, hafter]
  rfl

/-- Every field that is scheduled stands in some place. -/
theorem exists_place {d : Document} {tasks : List Task} {k : Task}
    (hscheduled : schedule defaultSource d supplied = .ok tasks) (hk : k ∈ tasks) :
    ∃ p : Place, p.document = d ∧ bearsFeedingName d supplied p.whole = false ∧
      taskOf defaultSource supplied (p.whole, p.field) = .ok k := by
  rw [schedule_eq] at hscheduled
  obtain ⟨f, hf, htask⟩ := exists_of_mem_mapM hscheduled hk
  obtain ⟨op, hop, hf⟩ := List.mem_flatMap.mp hf
  obtain ⟨field, hfield, rfl⟩ := List.mem_map.mp hf
  obtain ⟨hop, hruns⟩ := List.mem_filter.mp hop
  obtain ⟨before, after, hoperations⟩ := List.append_of_mem hop
  obtain ⟨left, right, hselection⟩ := List.append_of_mem hfield
  let p : Place := ⟨before, op, left, field, right, after⟩
  have hwhole : p.whole = op := by
    rw [Place.whole, ← hselection]
  refine ⟨p, ?_, ?_, hwhole ▸ htask⟩
  · rw [Place.document, hwhole, ← hoperations]
  · rw [hwhole]
    exact (Bool.not_eq_true' _).mp hruns

/-- The queries that scheduled fields take rows from are among those that feed some insert. -/
theorem mem_feedingQueries {d : Document} {tasks : List Task} {t : Task} {name : String}
    (hscheduled : schedule defaultSource d supplied = .ok tasks) (ht : t ∈ tasks)
    (hname : feedingQuery? t.vars t.field = some name) : name ∈ feedingQueries d supplied := by
  rw [schedule_eq] at hscheduled
  obtain ⟨f, hf, htask⟩ := exists_of_mem_mapM hscheduled ht
  obtain ⟨rfl, hvars, -⟩ := of_taskOf htask
  obtain ⟨op, hop, hfield⟩ := List.mem_flatMap.mp hf
  obtain ⟨field, hfield, heq⟩ := List.mem_map.mp hfield
  obtain ⟨rfl, rfl⟩ := Prod.mk.inj heq
  rw [hvars] at hname
  exact List.mem_flatMap.mpr ⟨_, List.mem_of_mem_filter hop,
    List.mem_filterMap.mpr ⟨_, hfield, hname⟩⟩

theorem alikeEach_without {σ : Type} {before after tasks' : List Task} {k : Task}
    (hruns : bearsFeedingName p.document supplied p.whole = false)
    (hscheduled : schedule defaultSource p.document supplied = .ok (before ++ k :: after))
    (h : List.Forall₂ Task.Alike (before ++ after) tasks') :
    AlikeEach σ p.document p.without supplied (before ++ after) tasks' := by
  -- The operation of the field is run, so it is none that another field takes rows from.
  have hfeeds : ∀ t ∈ before ++ after, ∀ name, feedingQuery? t.vars t.field = some name →
      p.without.operation? name = p.document.operation? name := by
    intro t ht name hname
    have hmem : t ∈ before ++ k :: after := by
      rw [List.mem_append, List.mem_cons]
      exact (List.mem_append.mp ht).imp_right .inr
    have hfeeding := mem_feedingQueries hscheduled hmem hname
    refine operation?_without fun hwhole => ?_
    have hbears : bearsFeedingName p.document supplied p.whole = true := by
      have hname : p.whole.name = some name := hwhole
      rw [bearsFeedingName, hname, Option.any_some, List.contains_iff_mem]
      exact hfeeding
    cases hruns.symm.trans hbears
  generalize before ++ after = rest at h hfeeds
  induction h with
  | nil => exact .nil
  | cons hfirst _ ih =>
      obtain ⟨ht, hothers⟩ := List.forall_mem_cons.mp hfeeds
      exact .cons ⟨hfirst, fun e => prepareTask_alike e hfirst ht⟩ (ih hothers)

end Place

variable {σ : Type}

/-- A request comes to what another one comes to, but for what that answers under a name: it asks
the same of the pools, sends the same statements to the same sources in the same order, leaves the
same engine, and answers the same under all other names. -/
structure ComesToAllBut (name : String) (e : Engine (Journaled σ)) (s s' : Submission) : Prop where
  execute : e.execute s' = ((e.execute s).1.without name, (e.execute s).2)
  sent : (fieldRuns e s').map sentTo = (fieldRuns e s).map sentTo
  dealings : ∀ name, (e.execute s').2.dealings name = (e.execute s).2.dealings name

/-- A field is no part of its request but for the error under its name. -/
structure IsLocal (e : Engine (Journaled σ)) (s : Submission) (p : Place) (k : Task)
    (error : Error) : Prop where
  /-- When its turn comes the field gets no connection and sends nothing. -/
  turn : ∃ before after, schedule e.defaultSource p.document s.vars = .ok (before ++ k :: after) ∧
    ComesToNothing (runEach p.document s.vars before e).2 p.document s.vars k error
  /-- The operations without the field come to the same without its name. -/
  without : ∃ tasks, schedule e.defaultSource p.without s.vars = .ok tasks ∧
    spansTransaction s p.without = false ∧
    runEach p.without s.vars tasks e = ((e.execute s).1.without k.outputName, (e.execute s).2) ∧
    (runsEach p.without s.vars tasks e).map sentTo = (fieldRuns e s).map sentTo ∧
    ∀ name, (runEach p.without s.vars tasks e).2.dealings name = (e.execute s).2.dealings name
  /-- So does every request for these operations. -/
  request : ∀ s', Document.read s'.document = .ok p.without → s'.vars = s.vars →
    s'.singleTransaction = s.singleTransaction → ComesToAllBut k.outputName e s s'

/-- Outside of a common transaction a failure to prepare a field is local to it, if the field takes
no rows from a query and no other scheduled field has its output name. -/
theorem failed_preparation_is_local {e : Engine (Journaled σ)} (he : e.Named)
    {s : Submission} {p : Place} (hread : Document.read s.document = .ok p.document)
    (halone : spansTransaction s p.document = false)
    {tasks : List Task} (hscheduled : schedule e.defaultSource p.document s.vars = .ok tasks)
    (hnames : (tasks.map Task.outputName).Nodup)
    (hruns : bearsFeedingName p.document s.vars p.whole = false)
    (hkind : ∀ table, Mutation.Kind.ofFieldName? p.field.name ≠ some (.insertSelect, table))
    {k : Task} (hk : taskOf e.defaultSource s.vars (p.whole, p.field) = .ok k) {error : Error}
    (hfails : e.prepareTask p.document s.vars k = .error error) : IsLocal e s p k error := by
  have hfield : ∀ vars, feedingQuery? vars p.field = none := by
    intro vars
    unfold feedingQuery?
    split
    next table hinserts => exact absurd hinserts (hkind table)
    · rfl
  obtain ⟨before, k', after, rfl, hk', rest, hrest, halike⟩ :=
    schedule_without hfield hruns hscheduled
  obtain rfl : k' = k := Except.ok.inj (hk'.symm.trans hk)
  -- The fields before it change nothing but pools, so at its turn the field cannot be prepared
  -- either.
  have hnothing := comesToNothing ((restocked_runEach he p.document s.vars before).refused hfails)
  have hothers : ∀ t ∈ before ++ after, t.outputName ≠ k'.outputName := by
    have hperm : (k' :: (before ++ after)).Perm (before ++ k' :: after) := List.perm_middle.symm
    have hnodup := (hperm.map Task.outputName).nodup_iff.mpr hnames
    intro t ht hsame
    exact (List.nodup_cons.mp hnodup).1 (hsame ▸ List.mem_map_of_mem ht)
  have heach := alikeEach_without (σ := Journaled σ) hruns hscheduled halike
  have hrun : runEach p.without s.vars rest e =
      ((e.execute s).1.without k'.outputName, (e.execute s).2) := by
    rw [execute_eq hread hscheduled, halone, if_neg Bool.false_ne_true, heach.runEach,
      hnothing.engine, ← hnothing.response hothers]
  have hsent : (runsEach p.without s.vars rest e).map sentTo = (fieldRuns e s).map sentTo := by
    rw [fieldRuns_eq hread hscheduled, halone, if_neg Bool.false_ne_true, heach.sent, runsEach_eq,
      runsEach_eq, hnothing.along_of_nil (by rw [hnothing.unsent]; rfl)]
  have hdealings (name : String) :
      (runEach p.without s.vars rest e).2.dealings name = (e.execute s).2.dealings name := by
        rw [hrun]
  have hspans := spansTransaction_without halone
  refine ⟨⟨before, after, hscheduled, hnothing⟩, ⟨rest, hrest, hspans, hrun, hsent, hdealings⟩, ?_⟩
  intro s' hread' hvars hsingle
  have hspans' : spansTransaction s' p.without = false := by
    rw [spansTransaction, hsingle]
    exact hspans
  have hrest' : schedule e.defaultSource p.without s'.vars = .ok rest := hvars ▸ hrest
  have hexecute : e.execute s' = runEach p.without s.vars rest e := by
    rw [execute_eq hread' hrest', hspans', if_neg Bool.false_ne_true, hvars]
  refine ⟨hexecute.trans hrun, ?_, fun name => ?_⟩
  · rw [fieldRuns_eq hread' hrest', hspans', if_neg Bool.false_ne_true, hvars, hsent]
  · rw [hexecute, hdealings]

/-- Ann goes to the users and to a table that the shop does not have; then the users are read. -/
def annIntoNowhere : Submission :=
  ⟨"mutation \x7b insert_users(docs: \x7bname: \"ann\"\x7d) \x7b error \x7d
    insert_nowhere(docs: \x7bname: \"ann\"\x7d) \x7b error \x7d \x7d query \x7b users \x7b name \x7d \x7d", [], false⟩

/-- Of a field its output name, what kind of mutation it is, and whether it can be prepared. -/
def preparedBy (e : Engine σ) (s : Submission) (d : Document) (t : Task) :
    String × Option Mutation.Kind × Bool :=
  (t.outputName, (Mutation.Kind.ofFieldName? t.field.name).map Prod.fst,
    (e.prepareTask d s.vars t).isOk)

/-- Whether one transaction spans a request, and what its fields are prepared to. -/
def preparedEach (e : Engine σ) (s : Submission) (d : Document) (tasks : List Task) :
    Bool × List (String × Option Mutation.Kind × Bool) :=
  (spansTransaction s d, tasks.map (preparedBy e s d))

/-- That there is no such table is all that Ann's way into it comes to. Her place among the users is
sent and kept, and the users are read, as they would be if she had not been meant to go anywhere
else. -/
theorem failed_preparation_is_local_annIntoNowhere :
    let e := shopAnswering .passThrough [Execution.keyRow 1, .empty]
    (∃ p k error, Document.read annIntoNowhere.document = .ok p.document ∧
      k.outputName = "insert_nowhere" ∧ IsLocal e annIntoNowhere p k error) ∧
    (e.execute annIntoNowhere).1.data.keys = ["insert_users", "insert_nowhere", "users"] ∧
    (e.execute annIntoNowhere).1.errors.map (·.path) = [some "insert_nowhere"] ∧
    (fieldRuns e annIntoNowhere).map (fun r => (r.task.outputName, r.sent.length)) =
      [("insert_users", 1), ("users", 1)] := by
  intro e
  let s := annIntoNowhere
  have he : e.Named := (journalsAll_shopAnswering _ _).named
  have hfacts : (scheduledFor e s).map (fun found => preparedEach e s found.1 found.2) =
      some (false, [("insert_users", some .insert, true), ("insert_nowhere", some .insert, false),
        ("users", none, true)]) := by
    decide +kernel
  obtain ⟨d, tasks, hread, hscheduled, hfacts⟩ := of_scheduledFor hfacts
  obtain ⟨halone, hfacts⟩ := Prod.mk.inj hfacts
  have hnames : (tasks.map Task.outputName).Nodup := by
    have hfirst := congrArg (List.map Prod.fst) hfacts
    rw [List.map_map] at hfirst
    change tasks.map Task.outputName = _ at hfirst
    rw [hfirst]
    decide
  obtain ⟨k, hmem, hk⟩ :
      ∃ k ∈ tasks, preparedBy e s d k = ("insert_nowhere", some .insert, false) :=
    List.mem_map.mp (by rw [hfacts]; exact List.mem_cons_of_mem _ List.mem_cons_self)
  obtain ⟨hname, hk⟩ := Prod.mk.inj hk
  obtain ⟨hkind, hfails⟩ := Prod.mk.inj hk
  obtain ⟨error, herror⟩ : ∃ error, e.prepareTask d s.vars k = .error error := by
    cases hprepare : e.prepareTask d s.vars k with
    | error error => exact ⟨error, rfl⟩
    | ok found =>
        rw [hprepare] at hfails
        cases hfails
  obtain ⟨p, rfl, hruns, htask⟩ := exists_place hscheduled hmem
  refine ⟨⟨p, k, error, hread, hname, ?_⟩, by decide +kernel⟩
  refine failed_preparation_is_local he hread halone hscheduled hnames hruns
    (fun table hinserts => ?_) htask herror
  obtain ⟨hfield, -⟩ := of_taskOf htask
  rw [← (Prod.mk.inj hfield).2, hinserts] at hkind
  cases hkind

end Engine

end SqlGateway
