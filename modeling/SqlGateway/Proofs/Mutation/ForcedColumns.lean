import SqlGateway.Proofs.DeclaredFilters
import SqlGateway.Proofs.Dictionary
import SqlGateway.Proofs.Mutation.Tree

/-!
# Forced columns

A declared rule of a table may force the values of columns of it. Every row that a plan writes to
the table then holds them, in the batch of the outermost documents and in nested documents at any
depth, whatever a document says under these names, and no row of a parent is put over them.
-/
namespace SqlGateway

open Request (Variables)

namespace Rules

variable {vars : Variables}

theorem keys_of_substituteFields {fields out : Object}
    (h : substituteFields vars fields = .ok out) : out.keys = fields.keys := by
  induction fields generalizing out with
  | nil => rw [← Except.ok.inj h]
  | cons first rest ih =>
      obtain ⟨value, -, h⟩ := bind_eq_ok.mp h
      obtain ⟨others, hothers, h⟩ := bind_eq_ok.mp h
      obtain rfl := pure_eq_ok.mp h
      exact congrArg (first.1 :: ·) (ih hothers)

mutual

/-- Putting variables in adds no key twice. -/
theorem distinct_substitute (hvars : (Json.object vars).hasDistinctKeys = true) :
    ∀ {v out : Json}, substitute vars v = .ok out → v.hasDistinctKeys = true →
    out.hasDistinctKeys = true
  | .null, _, rfl, _ | .bool _, _, rfl, _ | .int _, _, rfl, _ | .float _, _, rfl, _ => rfl
  | .text s, out, h, _ => by
      cases hname : variableOf? s with
      | none =>
          simp only [substitute, hname] at h
          rw [← Except.ok.inj h]
          rfl
      | some name =>
          exact (Json.hasDistinctKeys_object.mp hvars).2 _
            (Object.mem_of_get? (get?_of_substitute h hname))
  | .list _, _, h, hv => by
      obtain ⟨items, hitems, h⟩ := bind_eq_ok.mp h
      obtain rfl := pure_eq_ok.mp h
      exact Json.hasDistinctKeys_list.mpr
        (distinct_substituteItems hvars hitems (Json.hasDistinctKeys_list.mp hv))
  | .object _, _, h, hv => by
      obtain ⟨fields, hfields, h⟩ := bind_eq_ok.mp h
      obtain rfl := pure_eq_ok.mp h
      obtain ⟨hkeys, hvalues⟩ := Json.hasDistinctKeys_object.mp hv
      exact Json.hasDistinctKeys_object.mpr
        ⟨keys_of_substituteFields hfields ▸ hkeys, distinct_substituteFields hvars hfields hvalues⟩

theorem distinct_substituteItems (hvars : (Json.object vars).hasDistinctKeys = true) :
    ∀ {items out : List Json}, substituteItems vars items = .ok out →
      (∀ item ∈ items, item.hasDistinctKeys = true) → ∀ item ∈ out, item.hasDistinctKeys = true
  | [], _, rfl, _ => List.forall_mem_nil _
  | _ :: _, _, h, hitems => by
      obtain ⟨value, hvalue, h⟩ := bind_eq_ok.mp h
      obtain ⟨others, hothers, h⟩ := bind_eq_ok.mp h
      obtain rfl := pure_eq_ok.mp h
      obtain ⟨hfirst, hrest⟩ := List.forall_mem_cons.mp hitems
      exact List.forall_mem_cons.mpr
        ⟨distinct_substitute hvars hvalue hfirst, distinct_substituteItems hvars hothers hrest⟩

theorem distinct_substituteFields (hvars : (Json.object vars).hasDistinctKeys = true) :
    ∀ {fields out : Object}, substituteFields vars fields = .ok out →
      (∀ field ∈ fields, field.2.hasDistinctKeys = true) →
      ∀ field ∈ out, field.2.hasDistinctKeys = true
  | [], _, rfl, _ => List.forall_mem_nil _
  | (_, _) :: _, _, h, hfields => by
      obtain ⟨value, hvalue, h⟩ := bind_eq_ok.mp h
      obtain ⟨others, hothers, h⟩ := bind_eq_ok.mp h
      obtain rfl := pure_eq_ok.mp h
      obtain ⟨hfirst, hrest⟩ := List.forall_mem_cons.mp hfields
      exact List.forall_mem_cons.mpr
        ⟨distinct_substitute hvars hvalue hfirst, distinct_substituteFields hvars hothers hrest⟩

end

end Rules

namespace Mutation

variable {p : Planner} {vars : Variables} {table : String} {fields : Object}

/-- The declared rule of a table forces the values of given fields, all of them columns of the
table. -/
structure Planner.Forces (p : Planner) (table : String) (fields : Object) : Prop where
  role : p.rules.overwrite = Rules.declarative.overwrite
  rule : Rules.part? (p.schema.transformRules.get? table) "overwrite" = some (.object fields)
  columns : ∀ field ∈ fields, (p.schema.column? table field.1).isSome = true

/-- No object in a rule or in the variables has a key twice. -/
structure Planner.ReadsDistinctKeys (p : Planner) (vars : Variables) : Prop where
  vars : (Json.object vars).hasDistinctKeys = true
  rules : ∀ table rule, p.schema.transformRules.get? table = some rule → rule.hasDistinctKeys = true

theorem Planner.ReadsDistinctKeys.part (h : p.ReadsDistinctKeys vars) {key : String} {v : Json}
    (hpart : Rules.part? (p.schema.transformRules.get? table) key = some v) :
    v.hasDistinctKeys = true := by
  obtain ⟨o, ho, hget⟩ := Option.bind_eq_some_iff.mp hpart
  obtain ⟨rule, hrule, ho⟩ := Option.bind_eq_some_iff.mp ho
  have hdistinct := h.rules table rule hrule
  cases rule with
  | object fields =>
      obtain rfl := Option.some.inj ho
      exact (Json.hasDistinctKeys_object.mp hdistinct).2 _ (Object.mem_of_get? hget)
  | null | bool _ | int _ | float _ | text _ | list _ => cases ho

theorem Planner.ReadsDistinctKeys.forces (h : p.ReadsDistinctKeys vars)
    (hrole : p.rules.overwrite = Rules.declarative.overwrite) : p.ForcesDistinctKeys vars := by
  intro table content forced _ hforced
  rw [hrole] at hforced
  change Rules.declarativeOverwrite _ vars = _ at hforced
  unfold Rules.declarativeOverwrite at hforced
  split at hforced
  next fields hpart =>
    exact Rules.distinct_substituteFields h.vars hforced
      (Json.hasDistinctKeys_object.mp (h.part hpart)).2
  · cases hforced
  · obtain rfl := Except.ok.inj hforced
    exact List.forall_mem_nil _

section Split
variable {content : Object} {split : SplitDocument} {column : String}

/-- A column of the table is placed as one, and the places of other fields say nothing of it. -/
theorem get?_columns_of_place {split' : SplitDocument} {key : String} {v : Json}
    (hcolumn : (p.schema.column? table column).isSome = true)
    (h : p.place table split key v = .ok split') :
    Object.get? column split'.columns = (Object.get? column split.columns).or
      (Object.get? column [(key, v)]) := by
  by_cases hkey : key = column
  · rw [Planner.place, hkey, if_pos hcolumn] at h
    rw [← pure_eq_ok.mp h, hkey, Object.get?_append]
  · obtain ⟨rfl, -⟩ | ⟨child, join, documents, -, -, rfl⟩ := Planner.place_ok h
    · rw [Object.get?_append]
    · simp [Object.get?, hkey]

/-- A split document has for a column of the table what the document has with the forced values
in. -/
theorem get?_columns_of_split (hcolumn : (p.schema.column? table column).isSome = true)
    (h : p.split vars table content = .ok split) :
    ∃ forced, p.rules.overwrite table (p.schema.transformRules.get? table) content vars =
      .ok forced ∧
      Object.get? column split.columns = (Object.insertAll forced content).get? column := by
  obtain ⟨_, _, h⟩ := bind_eq_ok.mp h
  obtain ⟨forced, hforced, h⟩ := bind_eq_ok.mp h
  have run : ∀ (fields : Object) (before after : SplitDocument),
      fields.foldlM (fun split field => p.place table split field.1 field.2) before = .ok after →
      Object.get? column after.columns = (Object.get? column before.columns).or
        (fields.get? column) := by
    intro fields
    induction fields with
    | nil =>
        intro before after h
        rw [pure_eq_ok.mp h, Object.get?, Option.or_none]
    | cons field rest ih =>
        intro before after h
        obtain ⟨next, hnext, h⟩ := bind_eq_ok.mp h
        rw [ih next after h, get?_columns_of_place hcolumn hnext,
          Option.or_assoc, ← Object.get?_append, List.singleton_append]
  exact ⟨forced, Query.asRole_eq_ok hforced, run _ _ _ h⟩

/-- Every document of the table has the forced values. -/
theorem get?_of_forces (hforces : p.Forces table fields) (hkeys : fields.keys.Nodup)
    {field : String × Json} (hfield : field ∈ fields) (h : p.split vars table content = .ok split) :
    ∃ value, Rules.substitute vars field.2 = .ok value ∧ Object.get? field.1 split.columns =
      some value := by
  obtain ⟨forced, hforced, hget⟩ := get?_columns_of_split (hforces.columns field hfield) h
  rw [hforces.role] at hforced
  change Rules.declarativeOverwrite _ vars = _ at hforced
  rw [Rules.declarativeOverwrite, hforces.rule] at hforced
  obtain ⟨value, hvalue, hmem⟩ := Rules.mem_of_substituteFields hforced hfield
  have hnodup : (Object.keys forced.reverse).Nodup := by
    rw [Object.keys, List.map_reverse, List.nodup_reverse, ← Object.keys,
      Rules.keys_of_substituteFields hforced]
    exact hkeys
  refine ⟨value, hvalue, ?_⟩
  rw [hget, Object.get?_insertAll, Object.get?_of_mem hnodup (List.mem_reverse.mpr hmem),
    Option.some_or]

end Split

/-- All rows of a write hold a value for a column, in a place that takes nothing from a row of its
parent. -/
def WriteNode.Holds (n : WriteNode) (column : String) (value : Json) : Prop :=
  ∃ i : Nat, n.columns[i]? = some column ∧ (∀ values ∈ n.rows, values[i]? = some value) ∧
    ∀ injection ∈ n.injected, injection.position ≠ i

/-- A write names a column once, and all of its rows hold a value for it. -/
def WriteNode.Carries (n : WriteNode) (column : String) (value : Json) : Prop :=
  ∃ i : Nat, (∀ j, n.columns[j]? = some column ↔ j = i) ∧ ∀ values ∈ n.rows, values[i]? = some value

section Holds
variable {n : WriteNode} {column : String} {value : Json}

theorem WriteNode.Holds.carries (h : n.Holds column value) (hcolumns : n.columns.Nodup) :
    n.Carries column value := by
  obtain ⟨i, hi, hrows, -⟩ := h
  refine ⟨i, fun j => ⟨fun hj => ?_, fun hj => hj ▸ hi⟩, hrows⟩
  have hlt := (List.getElem?_eq_some_iff.mp hi).1
  exact ((List.getElem?_inj hlt hcolumns).mp (hi.trans hj.symm)).symm

theorem getElem?_injectedValues (parentRow : Object) {injected : List Injection} {i : Nat}
    (h : ∀ injection ∈ injected, injection.position ≠ i) (values : List Json) :
    (injectedValues parentRow injected values)[i]? = values[i]? := by
  induction injected generalizing values with
  | nil => rfl
  | cons injection rest ih =>
      obtain ⟨hfirst, hrest⟩ := List.forall_mem_cons.mp h
      exact (ih hrest _).trans (List.getElem?_set_ne hfirst)

theorem WriteNode.Holds.inject (h : n.Holds column value) (parentRow : Object) :
    (n.inject parentRow).Holds column value := by
  obtain ⟨i, hi, hrows, hinjected⟩ := h
  rw [inject_eq]
  refine ⟨i, hi, fun values hvalues => ?_, hinjected⟩
  obtain ⟨before, hbefore, rfl⟩ := List.mem_map.mp hvalues
  rw [getElem?_injectedValues parentRow hinjected, hrows before hbefore]

/-- A value of a document stands at the same place as the name of its column. -/
theorem exists_place {split : SplitDocument} (h : Object.get? column split.columns = some value) :
    ∃ i < split.columns.length, (split.columns.map (·.1))[i]? = some column ∧
      (split.columns.map (·.2))[i]? = some value := by
  obtain ⟨i, hi⟩ := List.mem_iff_getElem?.mp (Object.mem_of_get? h)
  exact ⟨i, (List.getElem?_eq_some_iff.mp hi).1, by simp [hi], by simp [hi]⟩

/-- The write of a nested document holds the values of the document. -/
theorem holds_childWrite {child : SplitDocument} (h : Object.get? column child.columns = some value)
    (number : Nat) (projection : Projection) (link : ParentLink) (group : ChildGroup) :
    (childWrite p number projection link group child).Holds column value := by
  obtain ⟨i, hlt, hcolumn, hvalue⟩ := exists_place h
  refine ⟨i, ?_, List.forall_mem_singleton.mpr ?_, fun injection hinjection => ?_⟩
  · exact (List.getElem?_append_left (by simpa using hlt)).trans hcolumn
  · exact (List.getElem?_append_left (by simpa using hlt)).trans hvalue
  · obtain ⟨j, hj, rfl⟩ := List.mem_iff_getElem.mp hinjection
    simp only [childWrite, List.getElem_mapIdx]
    omega

theorem getElem?_valuesFor {columns : List String} {i : Nat} (hi : columns[i]? = some column)
    {split : SplitDocument} (h : Object.get? column split.columns = some value) :
    (valuesFor columns split)[i]? = some value := by
  have hfind : ∀ o : Object, (o.find? (·.1 == column)).map (·.2) = Object.get? column o := by
    intro o
    induction o with
    | nil => rfl
    | cons field rest ih =>
        by_cases hkey : field.1 = column
        · simp [Object.get?, hkey]
        · simpa [Object.get?, hkey] using ih
  rw [valuesFor, List.getElem?_map, hi, Option.map_some, hfind, h]
  rfl

end Holds

section Plans
variable {root : String} {docs : Json} {projection : Projection} {plan : Plan}

/-- A write of the table holds the values that the rule forces. -/
def WriteNode.HoldsForced (vars : Variables) (table : String) (fields : Object)
    (n : WriteNode) : Prop :=
  (n.kind = .insert ∨ n.kind = .update) ∧ (n.table = table → ∀ field ∈ fields, ∃ value,
    Rules.substitute vars field.2 = .ok value ∧ n.Holds field.1 value)

theorem lasting_holdsForced : Planner.Lasting (WriteNode.HoldsForced vars table fields) :=
  fun _ _ _ _ h => h

theorem ofNested_holdsForced (hforces : p.Forces table fields) (hkeys : fields.keys.Nodup) :
    p.OfNested vars (WriteNode.HoldsForced vars table fields) := by
  intro number projection link group content child _ hchild
  refine ⟨.inl rfl, fun htable field hfield => ?_⟩
  obtain rfl : group.table = table := htable
  obtain ⟨value, hvalue, hget⟩ := get?_of_forces hforces hkeys hfield hchild
  exact ⟨value, hvalue, holds_childWrite hget number projection link group⟩

theorem holdsForced_of_planInsert (hforces : p.Forces table fields) (hkeys : fields.keys.Nodup)
    (h : p.planInsert vars root docs projection = .ok plan) :
    ∀ n ∈ plan.nodes, n.HoldsForced vars table fields := by
  obtain ⟨contents, _, h⟩ := bind_eq_ok.mp h
  obtain ⟨_, _, h⟩ := bind_eq_ok.mp h
  obtain ⟨splits, hsplits, h⟩ := bind_eq_ok.mp h
  extract_lets columns node rest at h
  split at h
  · cases h
  · rename_i hcolumns
    obtain ⟨nodes, hnodes, h⟩ := bind_eq_ok.mp h
    obtain rfl := pure_eq_ok.mp h
    refine Planner.forall_mem_finish_attachRows lasting_holdsForced
      (ofNested_holdsForced hforces hkeys) ?_ hnodes
    refine ⟨.inl rfl, fun htable field hfield => ?_⟩
    obtain rfl : root = table := htable
    have hforced : ∀ split ∈ splits, ∃ value, Rules.substitute vars field.2 = .ok value ∧
        Object.get? field.1 split.columns = some value := by
      intro split hsplit
      obtain ⟨content, _, hcontent⟩ := exists_of_mem_mapM hsplits hsplit
      exact get?_of_forces hforces hkeys hfield hcontent
    -- The layout is that of the first document, which has the forced columns like every other.
    cases splits with
    | nil => exact absurd rfl hcolumns
    | cons first others =>
        obtain ⟨value, hvalue, hget⟩ := hforced first List.mem_cons_self
        obtain ⟨i, _, hi, _⟩ := exists_place hget
        refine ⟨value, hvalue, i, hi, fun values hvalues => ?_, List.forall_mem_nil _⟩
        obtain ⟨split, hsplit, rfl⟩ := List.mem_map.mp hvalues
        obtain ⟨value', hvalue', hget'⟩ := hforced split hsplit
        obtain rfl := Except.ok.inj (hvalue.symm.trans hvalue')
        exact getElem?_valuesFor hi hget'

theorem holdsForced_of_planUpdate {filter : Option Json} (hforces : p.Forces table fields)
    (hkeys : fields.keys.Nodup) (h : p.planUpdate vars root docs filter projection = .ok plan) :
    ∀ n ∈ plan.nodes, n.HoldsForced vars table fields := by
  obtain ⟨content, _, h⟩ := bind_eq_ok.mp h
  obtain ⟨clause, _, h⟩ := bind_eq_ok.mp h
  obtain ⟨split, hsplit, h⟩ := bind_eq_ok.mp h
  extract_lets node rest at h
  split at h
  · cases h
  · obtain ⟨nodes, hnodes, h⟩ := bind_eq_ok.mp h
    obtain rfl := pure_eq_ok.mp h
    refine Planner.forall_mem_finish_attachRows lasting_holdsForced
      (ofNested_holdsForced hforces hkeys) ?_ hnodes
    refine ⟨.inr rfl, fun htable field hfield => ?_⟩
    obtain rfl : root = table := htable
    obtain ⟨value, hvalue, hget⟩ := get?_of_forces hforces hkeys hfield hsplit
    obtain ⟨i, _, hi, hplace⟩ := exists_place hget
    exact ⟨value, hvalue, i, hi, List.forall_mem_singleton.mpr hplace, List.forall_mem_nil _⟩

/-- Where the declared rule of a table forces columns of it, every row of every write of the table
in the plan of an insert or an update has for each of these columns, which stands there once, the
value of the rule with the variables put in; and it has it still when a row of the parent has been
put in. -/
theorem forced_columns_stand (hforces : p.Forces table fields)
    (hdistinct : p.ReadsDistinctKeys vars) (hdocs : docs.hasDistinctKeys = true)
    (h : p.planInsert vars root docs projection = .ok plan ∨
      ∃ filter, p.planUpdate vars root docs filter projection = .ok plan) :
    ∀ n ∈ plan.nodes, n.table = table → ∀ field ∈ fields, ∃ value,
      Rules.substitute vars field.2 = .ok value ∧ n.Carries field.1 value ∧
      ∀ parentRow, (n.inject parentRow).Carries field.1 value := by
  have hkeys : fields.keys.Nodup := (Json.hasDistinctKeys_object.mp (hdistinct.part hforces.rule)).1
  have hrules := hdistinct.forces hforces.role
  have hplan : plan.IsTree ∧ ∀ n ∈ plan.nodes, n.HoldsForced vars table fields := by
    obtain h | ⟨filter, h⟩ := h
    · exact ⟨isTree_of_planInsert hrules hdocs h, holdsForced_of_planInsert hforces hkeys h⟩
    · exact ⟨isTree_of_planUpdate hrules hdocs h, holdsForced_of_planUpdate hforces hkeys h⟩
  obtain ⟨htree, hholds⟩ := hplan
  intro n hn htable field hfield
  obtain ⟨hkind, hforced⟩ := hholds n hn
  obtain ⟨value, hvalue, hheld⟩ := hforced htable field hfield
  have hcolumns := (htree.regular n hn hkind).columns
  refine ⟨value, hvalue, hheld.carries hcolumns, fun parentRow =>
    (hheld.inject parentRow).carries ?_⟩
  rw [inject_eq]
  exact hcolumns

end Plans

/-- In the shop, every order is for the one who asks, and its total is left open. -/
def ownOrders : Planner where
  schema := { Shop.registry with transformRules := [("orders", .object [("overwrite", .object
    [("user_id", .text "$user"), ("total", .null)])])] }
  dialect := .postgres
  rules := .declarative

/-- Ann has an order in the name of somebody else and one without a name, and Bob has one. -/
def borrowedOrders : Json :=
  .list [
    .object [("name", .text "ann"), ("orders", .list [
      .object [("total", .int 5), ("user_id", .int 77)], .object [("total", .int 6)]])],
    .object [("name", .text "bob"), ("orders", .object [("id", .int 3)])]]

theorem forced_columns_stand_ownOrders :
    ∃ plan, ownOrders.planInsert [("user", .int 7)] "users" borrowedOrders .empty = .ok plan ∧
      plan.nodes.map (·.columns) = [["name"], ["total", "user_id"], ["total", "user_id"],
        ["id", "user_id", "total"]] ∧
      ∀ n ∈ plan.nodes, n.table = "orders" → n.Carries "user_id" (.int 7) ∧
      n.Carries "total" .null := by
  obtain ⟨plan, hplan⟩ := exists_eq_ok
    (x := ownOrders.planInsert [("user", .int 7)] "users" borrowedOrders .empty) (by decide +kernel)
  have hforces : ownOrders.Forces "orders" [("user_id", .text "$user"), ("total", .null)] :=
    ⟨rfl, rfl, by decide +kernel⟩
  have hdistinct : ownOrders.ReadsDistinctKeys [("user", .int 7)] := by
    refine ⟨rfl, fun table rule hrule => ?_⟩
    have hmem := Dictionary.mem_of_get? hrule
    obtain ⟨-, rfl⟩ := Prod.mk.inj (List.mem_singleton.mp hmem)
    decide +kernel
  have hstand := forced_columns_stand hforces hdistinct (by decide +kernel) (.inl hplan)
  refine ⟨plan, hplan, part_eq (g := fun plan : Plan => plan.nodes.map (·.columns))
    hplan (by decide +kernel), fun n hn htable => ?_⟩
  obtain ⟨user, huser, hcarries, -⟩ := hstand n hn htable ("user_id", .text "$user") (by simp)
  obtain ⟨total, htotal, hcarries', -⟩ := hstand n hn htable ("total", .null) (by simp)
  obtain rfl : Json.int 7 = user := Except.ok.inj huser
  obtain rfl : Json.null = total := Except.ok.inj htotal
  exact ⟨hcarries, hcarries'⟩

end Mutation

end SqlGateway
