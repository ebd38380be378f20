import Mathlib.Data.List.Nodup
import SqlGateway.Mutation.Projection

/-!
# What projections leave

A projection leaves the keys that it names, and in the rows nested under a key what is asked for
under that key. A key that is named several times asks for all that any of them asks for; a
projection that names nothing asks for everything.
-/
namespace SqlGateway.Mutation.Projection

/-- All that is asked for in the rows under a key. -/
def under (p : Projection) (key : String) : Projection :=
  let named := (p.children.filter (·.1 == key)).map (·.2)
  if named.any isEmpty then empty else ⟨named.flatMap (·.fields), named.flatMap (·.children)⟩

/-- A key is asked for with what is nested under it. -/
def nests (p : Projection) (key : String) : Bool := p.children.any (·.1 == key)

/-- Changes the objects of a list. -/
def onItems (change : Object → Object) : Json → Json
  | .list items => .list (items.map fun
    | .object o => .object (change o)
    | other => other)
  | v => v

/-- An object with the keys that are asked for and no others, at every depth. -/
inductive Leaves : Projection → Object → Object → Prop
  | all {p : Projection} {o : Object} : p.isEmpty = true → Leaves p o o
  | requested {p : Projection} {o : Object} (change : String → Object → Object) :
      p.isEmpty = false →
      (∀ key, p.nests key = true → ∀ inner, Leaves (p.under key) inner (change key inner)) →
      Leaves p o ((o.filter fun field => p.keeps field.1).map fun field =>
        (field.1, if p.nests field.1 then onItems (change field.1) field.2 else field.2))

mutual

/-- At no depth is a nested key named twice. -/
def nestsOnce : Projection → Bool
  | ⟨_, children⟩ => decide (children.map (·.1)).Nodup && eachNestsOnce children

def eachNestsOnce : List (String × Projection) → Bool
  | [] => true
  | (_, p) :: rest => p.nestsOnce && eachNestsOnce rest

end

section Children
variable {key : String} {q : Projection} {children : List (String × Projection)}

theorem filter_of_nodup (h : (children.map (·.1)).Nodup) (hmem : (key, q) ∈ children) :
    children.filter (·.1 == key) = [(key, q)] := by
  induction children with
  | nil => cases hmem
  | cons first rest ih =>
      obtain ⟨hfirst, hrest⟩ := List.nodup_cons.mp h
      rcases List.mem_cons.mp hmem with rfl | hmem
      · have hothers : rest.filter (·.1 == key) = [] := by
          rw [List.filter_eq_nil_iff]
          intro other hother hkey
          exact hfirst (List.mem_map.mpr ⟨other, hother, by simpa using hkey⟩)
        rw [List.filter_cons_of_pos (by simp), hothers]
      · have hne : first.1 ≠ key := by
          rintro rfl
          exact hfirst (List.mem_map.mpr ⟨_, hmem, rfl⟩)
        rw [List.filter_cons_of_neg (by simpa using hne)]
        exact ih hrest hmem

/-- Of a key that is named once, what is asked for under it is what is said there. -/
theorem under_of_mem {fields : List String} (h : (children.map (·.1)).Nodup)
    (hmem : (key, q) ∈ children) : under ⟨fields, children⟩ key = q := by
  obtain ⟨inner, nested⟩ := q
  unfold under
  simp only [filter_of_nodup h hmem, List.map_cons, List.map_nil, List.any_cons, List.any_nil,
    Bool.or_false, List.flatMap_singleton]
  split
  · rename_i hempty
    obtain ⟨hinner, hnested⟩ : inner = [] ∧ nested = [] := by simpa [isEmpty] using hempty
    rw [hinner, hnested]
    rfl
  · rfl

theorem changeItems_eq (change : Object → Object) (row : Object) : changeItems key change row =
    row.map fun field => (field.1, if field.1 = key then onItems change field.2 else field.2) := by
  refine List.map_congr_left fun field _ => ?_
  obtain ⟨k, v⟩ := field
  cases v with
  | list items =>
      dsimp only
      split <;> rfl
  | null | bool _ | int _ | float _ | text _ | object _ => simp [onItems]

/-- The rows under each key are changed by the projection for this key. -/
theorem applyChildren_eq {fields : List String} (h : (children.map (·.1)).Nodup) (row : Object) :
    applyChildren children row = row.map fun field =>
      (field.1, if nests ⟨fields, children⟩ field.1 then
        onItems (under ⟨fields, children⟩ field.1).apply field.2 else field.2) := by
  induction children generalizing row with
  | nil => simp [applyChildren, nests]
  | cons first rest ih =>
      obtain ⟨key, q⟩ := first
      obtain ⟨hfirst, hrest⟩ := List.nodup_cons.mp h
      have hown : under ⟨fields, (key, q) :: rest⟩ key = q := under_of_mem h List.mem_cons_self
      rw [applyChildren, ih hrest, changeItems_eq, List.map_map]
      refine List.map_congr_left fun field _ => ?_
      obtain ⟨k, v⟩ := field
      dsimp only [Function.comp]
      by_cases hkey : k = key
      · subst hkey
        have hnone : nests ⟨fields, rest⟩ k = false := by
          rw [nests, List.any_eq_false]
          intro other hother hsame
          exact hfirst (List.mem_map.mpr ⟨other, hother, by simpa using hsame⟩)
        have hnests : nests ⟨fields, (k, q) :: rest⟩ k = true := by simp [nests]
        simp [hnone, hnests, hown]
      · have hothers : under ⟨fields, (key, q) :: rest⟩ k = under ⟨fields, rest⟩ k := by
          unfold under
          rw [List.filter_cons_of_neg (by simpa using Ne.symm hkey)]
        have hnests : nests ⟨fields, (key, q) :: rest⟩ k = nests ⟨fields, rest⟩ k := by
          simp [nests, Ne.symm hkey]
        rw [if_neg hkey, hothers, hnests]

end Children

mutual

theorem leaves_apply : (p : Projection) → p.nestsOnce = true → (o : Object) → Leaves p o (p.apply o)
  | ⟨fields, children⟩, h, o => by
    rw [nestsOnce, Bool.and_eq_true, decide_eq_true_iff] at h
    obtain ⟨hkeys, heach⟩ := h
    rw [apply]
    cases hempty : isEmpty ⟨fields, children⟩ with
    | true =>
        have hall : (fields.isEmpty && children.isEmpty) = true := hempty
        rw [if_pos hall]
        exact .all hempty
    | false =>
        have hsome : ¬ (fields.isEmpty && children.isEmpty) = true := by
          simpa [isEmpty] using hempty
        rw [if_neg hsome, applyChildren_eq hkeys]
        refine .requested (fun key => (under ⟨fields, children⟩ key).apply) hempty
          fun key hnests inner => ?_
        obtain ⟨⟨_, q⟩, hmem, hkey⟩ := List.any_eq_true.mp hnests
        obtain rfl := eq_of_beq hkey
        rw [under_of_mem hkeys hmem]
        exact leaves_applyEach children heach _ hmem inner

theorem leaves_applyEach : (children : List (String × Projection)) → eachNestsOnce children = true →
    ∀ child ∈ children, ∀ o, Leaves child.2 o (child.2.apply o)
  | [], _ => by simp
  | (_, p) :: rest, h => by
    rw [eachNestsOnce, Bool.and_eq_true] at h
    exact List.forall_mem_cons.mpr ⟨leaves_apply p h.1, leaves_applyEach rest h.2⟩

end

end SqlGateway.Mutation.Projection
