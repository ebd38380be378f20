import SqlGateway.Proofs.Engine.Scheduling
import SqlGateway.Proofs.Mutation.Tree

/-!
# What fields are prepared to

A field is prepared to a raw statement, a compiled query or a plan. Where no object among the
variables and among the values that a role forces has a key twice, neither has any value of the
document, and the writes of every plan are a tree.
-/
namespace SqlGateway

namespace Request

variable {vars : Variables}

mutual

/-- A resolved value has no key twice: an object is made by storing its fields, and what a variable
stands for has none by assumption. -/
theorem distinct_resolve (hvars : (Json.object vars).hasDistinctKeys = true) :
    ∀ {v : Value} {resolved : Json}, v.resolve vars = some resolved →
    resolved.hasDistinctKeys = true
  | .null, _, rfl => rfl
  | .bool _, _, rfl => rfl
  | .int _, _, rfl => rfl
  | .float x, _, rfl => by
      rw [Json.ofFloat]
      split <;> rfl
  | .text _, _, rfl => rfl
  | .list _, _, rfl => Json.hasDistinctKeys_list.mpr fun _ => distinct_resolveItems hvars
  | .object _, _, rfl => Json.hasDistinctKeys_ofFields fun _ => distinct_resolveFields hvars
  | .variable _, _, h => (Json.hasDistinctKeys_object.mp hvars).2 _ (Object.mem_of_get? h)

theorem distinct_resolveItems (hvars : (Json.object vars).hasDistinctKeys = true) :
    ∀ {items : List Value} {item : Json}, item ∈ resolveItems vars items →
    item.hasDistinctKeys = true
  | [], _, h => nomatch h
  | first :: rest, item, h => by
      rcases List.mem_cons.mp h with rfl | h
      · cases hfirst : first.resolve vars with
        | none => rfl
        | some resolved => exact distinct_resolve hvars hfirst
      · exact distinct_resolveItems hvars h

theorem distinct_resolveFields (hvars : (Json.object vars).hasDistinctKeys = true) :
    ∀ {fields : List (String × Value)} {field : String × Json}, field ∈ resolveFields vars fields →
      field.2.hasDistinctKeys = true
  | [], _, h => nomatch h
  | (key, value) :: rest, field, h => by
      rw [resolveFields] at h
      split at h
      next resolved hresolved =>
        rcases List.mem_cons.mp h with rfl | h
        · exact distinct_resolve hvars hresolved
        · exact distinct_resolveFields hvars h
      · exact distinct_resolveFields hvars h

end

theorem distinct_resolved (hvars : (Json.object vars).hasDistinctKeys = true) {f : Field}
    {name : String} {resolved : Json} (h : f.resolved vars name = some resolved) :
    resolved.hasDistinctKeys = true := by
  obtain ⟨hvalue, -⟩ := Option.filter_eq_some_iff.mp h
  obtain ⟨v, -, hv⟩ := Option.bind_eq_some_iff.mp hvalue
  exact distinct_resolve hvars hv

/-- The defaults of an operation add no key twice to the variables of a request. -/
theorem distinct_variablesWith (hvars : (Json.object vars).hasDistinctKeys = true)
    (op : Operation) : (Json.object (op.variablesWith vars)).hasDistinctKeys = true := by
  obtain ⟨-, hvalues⟩ := Json.hasDistinctKeys_object.mp hvars
  have hdefaults : ∀ field, field ∈ op.definitions.filterMap (fun d =>
      (d.default.bind (·.resolve vars)).map (d.name, ·)) → field.2.hasDistinctKeys = true := by
    intro field hfield
    obtain ⟨definition, -, hdefault⟩ := List.mem_filterMap.mp hfield
    obtain ⟨resolved, hresolved, rfl⟩ := Option.map_eq_some_iff.mp hdefault
    obtain ⟨v, -, hv⟩ := Option.bind_eq_some_iff.mp hresolved
    exact distinct_resolve hvars hv
  obtain ⟨hnodup, hstored⟩ :=
    Json.hasDistinctKeys_object.mp (Json.hasDistinctKeys_ofFields hdefaults)
  refine Json.hasDistinctKeys_object.mpr ⟨Object.nodup_keys_insertAll vars hnodup,
    fun field hfield => ?_⟩
  exact (Object.mem_insertAll hfield).elim (hvalues field) (hstored field)

end Request

namespace Engine

open Mutation (Planner)
open Request (Document Variables)

variable {σ : Type} {compiler : Query.Compiler} {document : Document}
  {supplied : Variables} {t : Task} {prepared : Prepared}

/-- The planner of the fields that a compiler compiles for. -/
def plannerOf (compiler : Query.Compiler) : Planner :=
  ⟨compiler.schema, compiler.dialect, compiler.rules⟩

/-- The values that are forced into documents of a source have no key twice if the variables have
none. -/
def ForcesDistinctKeys (compiler : Query.Compiler) : Prop :=
  ∀ vars, (Json.object vars).hasDistinctKeys = true → (plannerOf compiler).ForcesDistinctKeys vars

theorem makes_of_planOf (hvars : (Json.object t.vars).hasDistinctKeys = true) {plan : Mutation.Plan}
    (h : planOf compiler document supplied t = .ok plan) :
    (plannerOf compiler).Makes t.vars plan := by
  rw [planOf] at h
  split at h
  · obtain ⟨feeding, -, h⟩ := bind_eq_ok.mp h
    obtain ⟨query, -, h⟩ := bind_eq_ok.mp h
    exact .insertSelect h
  · obtain ⟨⟨kind, table⟩, -, h⟩ := bind_eq_ok.mp h
    have hdocs {docs : Json} (hdocs : Mutation.requiredDocuments t.field t.vars = .ok docs) :
        docs.hasDistinctKeys = true :=
      Request.distinct_resolved hvars (Mutation.resolved_of_requiredDocuments hdocs)
    cases kind with
    | insert =>
        obtain ⟨docs, hrequired, h⟩ := bind_eq_ok.mp h
        exact .insert (hdocs hrequired) h
    | update =>
        obtain ⟨docs, hrequired, h⟩ := bind_eq_ok.mp h
        exact .update (hdocs hrequired) h
    | delete => exact .delete h
    | insertSelect => cases h

/-- A field is prepared to a raw statement, to a compiled query, or to a plan. -/
theorem prepare_cases (h : prepare compiler document supplied t = .ok prepared) :
    (∃ sql parameters, prepared = .raw sql parameters t.isMutation ∧ t.field.name = "sql") ∨
    (∃ q, prepared = .query q ∧ compiler.compile t.vars t.field = .ok q) ∨
    ∃ plan own, prepared = .write plan own ∧ planOf compiler document supplied t = .ok plan := by
  rw [prepare] at h
  split at h
  next hraw =>
    rw [prepareRaw] at h
    split at h
    · obtain ⟨⟨sql, parameters⟩, -, h⟩ := bind_eq_ok.mp h
      obtain rfl := pure_eq_ok.mp h
      exact .inl ⟨sql, parameters, rfl, hraw⟩
    · cases h
  · split at h
    · obtain ⟨q, hq, h⟩ := bind_eq_ok.mp h
      obtain rfl := pure_eq_ok.mp h
      exact .inr (.inl ⟨q, rfl, hq⟩)
    · obtain ⟨own, -, h⟩ := bind_eq_ok.mp h
      obtain ⟨plan, hplan, h⟩ := bind_eq_ok.mp h
      obtain rfl := pure_eq_ok.mp h
      exact .inr (.inr ⟨plan, own, rfl, hplan⟩)

/-- The writes that a field is prepared to are a tree. -/
theorem isTree_of_prepare (hforces : ForcesDistinctKeys compiler)
    (hvars : (Json.object t.vars).hasDistinctKeys = true) {plan : Mutation.Plan} {own : Bool}
    (h : prepare compiler document supplied t = .ok (.write plan own)) : plan.IsTree := by
  rcases prepare_cases h with ⟨_, _, hraw, -⟩ | ⟨_, hquery, -⟩ | ⟨_, _, hwrite, hplan⟩
  · cases hraw
  · cases hquery
  · cases hwrite
    have hrules := hforces t.vars hvars
    cases makes_of_planOf hvars hplan with
    | insert hdocs h => exact Mutation.isTree_of_planInsert hrules hdocs h
    | update hdocs h => exact Mutation.isTree_of_planUpdate hrules hdocs h
    | delete h => exact Mutation.isTree_of_planDelete h
    | insertSelect h => exact Mutation.isTree_of_planInsertSelect h

/-- The variables of a task are those of the request on top of the defaults of its operation. -/
theorem vars_of_schedule {defaultSource : Option String} {tasks : List Task}
    (h : schedule defaultSource document supplied = .ok tasks) (ht : t ∈ tasks) :
    t.vars = t.operation.variablesWith supplied := by
  rw [schedule_eq] at h
  obtain ⟨f, -, hf⟩ := exists_of_mem_mapM h ht
  exact (of_taskOf hf).2.1

end Engine

end SqlGateway
