import SqlGateway.Proofs.Assembly.Shape
import SqlGateway.Proofs.Json.Cutting
import SqlGateway.Proofs.Query.Nesting

/-!
# Rows and the objects they belong to

An object of an answer stands at a place of the selection, and to it belong those rows of the object
above it that have the same values at that place. A row whose values at a place are all null has no
object there, and none at the places below either. So a value of a row is shown if no place between
its own and the root is null throughout, and a nested list is empty if its place is null throughout
in every row of the object that holds it: what stands further below does not count, in either case.
-/
namespace SqlGateway.Assembly

open Query (Compiler CompiledQuery SlotEntry Slots fieldAt? hasDistinctNames leafPlaces leavesAt
  slotAt)
open Query.Compiler (Numbering)
open Request (Field Variables)

theorem map_fst_zip_sublist {α β : Type} (xs : List α) (ys : List β) :
    ((xs.zip ys).map Prod.fst).Sublist xs := by
  induction xs generalizing ys with
  | nil => exact .slnil
  | cons x xs ih =>
      cases ys with
      | nil => exact List.nil_sublist _
      | cons y ys => exact (ih ys).cons_cons x

/-- The leaves of a field, each with its column and its cell in a row. -/
def leafCells (f : Field) (r : ResultSet) (row : List Cell) :
    List ((List Nat × Field) × ResultColumn × Cell) :=
  (leafPlaces f).zip (r.columns.zip row)

/-- A row has a value for a leaf of the selection at a place. -/
def HasValue (f : Field) (r : ResultSet) (row : List Cell) (place : List Nat) (leaf : Field)
    (v : Json) : Prop :=
  ∃ column cell, ((place, leaf), column, cell) ∈ leafCells f r row ∧ cell.coerce column.type = v

/-- A row has values at a place, and all of them are null. -/
def IsMissing (f : Field) (r : ResultSet) (row : List Cell) (place : List Nat) : Prop :=
  (∃ leaf v, HasValue f r row place leaf v) ∧
    ∀ leaf v, HasValue f r row place leaf v → v.isNull = true

/-- The values at a place under the names of their leaves. -/
def namedValues (f : Field) (r : ResultSet) (row : List Cell) (place : List Nat) : Object :=
  (leafCells f r row).filterMap fun (leaf, column, cell) =>
    if leaf.1 = place then some (leaf.2.outputName, cell.coerce column.type) else none

/-- The values at a place as one object, in which the last value of a name counts. -/
def valuesAt (f : Field) (r : ResultSet) (row : List Cell) (place : List Nat) : Object :=
  Object.ofFields (namedValues f r row place)

section Values
variable {f g leaf : Field} {r : ResultSet} {row : List Cell} {place : List Nat} {v : Json}

theorem mem_namedValues {field : String × Json} : field ∈ namedValues f r row place ↔
    ∃ leaf v, HasValue f r row place leaf v ∧ field = (leaf.outputName, v) := by
  constructor
  · intro h
    obtain ⟨⟨⟨other, leaf⟩, column, cell⟩, hmem, hsome⟩ := List.mem_filterMap.mp h
    obtain ⟨rfl, hfield⟩ := Option.ite_none_right_eq_some.mp hsome
    exact ⟨leaf, _, ⟨column, cell, hmem, rfl⟩, (Option.some.inj hfield).symm⟩
  · rintro ⟨leaf, v, ⟨column, cell, hmem, rfl⟩, rfl⟩
    exact List.mem_filterMap.mpr ⟨_, hmem, if_pos rfl⟩

theorem HasValue.mem_leafPlaces (h : HasValue f r row place leaf v) :
    (place, leaf) ∈ leafPlaces f := by
  obtain ⟨column, cell, hmem, _⟩ := h
  exact (List.of_mem_zip hmem).1

/-- A value belongs to a leaf of the selection at its place. -/
theorem HasValue.owner (h : HasValue f r row place leaf v) :
    ∃ owner, fieldAt? f place = some owner ∧ leaf ∈ owner.selection ∧ leaf.isLeaf = true := by
  obtain ⟨hleaf, owner, howner, hmem⟩ := Query.owner_of_mem_leafPlaces f _ h.mem_leafPlaces
  exact ⟨owner, howner, hmem, hleaf⟩

/-- The names of the values at a place are those of the first leaves of the selection there. -/
theorem keys_namedValues_sublist (hg : fieldAt? f place = some g) :
    (namedValues f r row place).keys.Sublist (g.selection.map (·.outputName)) := by
  have hleaves : (namedValues f r row place).keys =
      (leavesAt place ((leafCells f r row).map (·.1))).map (·.outputName) := by
    rw [Object.keys, namedValues, List.map_filterMap, leavesAt, List.filterMap_map,
      List.map_filterMap]
    refine List.filterMap_congr fun entry _ => ?_
    simp only [Function.comp_apply]
    split_ifs <;> rfl
  rw [hleaves]
  refine (List.Sublist.trans ((map_fst_zip_sublist (leafPlaces f) _).filterMap _) ?_).map _
  change (leavesAt place (leafPlaces f)).Sublist g.selection
  rw [Query.leavesAt_leafPlaces f hg]
  exact List.filter_sublist

theorem valuesAt_of_distinct (hnames : hasDistinctNames f = true) :
    valuesAt f r row place = namedValues f r row place := by
  refine Object.ofFields_of_nodup ?_
  cases hg : fieldAt? f place with
  | some g =>
      exact (keys_namedValues_sublist hg).nodup
        ((Query.hasDistinctNames_iff_forall f).mp hnames place g hg)
  | none =>
      have hempty : namedValues f r row place = [] := by
        refine List.eq_nil_iff_forall_not_mem.mpr fun field hfield => ?_
        obtain ⟨_, _, hvalue, _⟩ := mem_namedValues.mp hfield
        obtain ⟨owner, howner, _⟩ := hvalue.owner
        rw [hg] at howner
        cases howner
      rw [hempty]
      exact List.nodup_nil

theorem get?_valuesAt (hnames : hasDistinctNames f = true) (h : HasValue f r row place leaf v) :
    (valuesAt f r row place).get? leaf.outputName = some v := by
  have hkeys : (valuesAt f r row place).keys.Nodup := Object.nodup_keys_ofFields _
  refine Object.get?_of_mem hkeys ?_
  rw [valuesAt_of_distinct hnames]
  exact mem_namedValues.mpr ⟨leaf, v, h, rfl⟩

/-- A selection without leaves has no values. -/
theorem valuesAt_of_nested (hg : fieldAt? f place = some g)
    (hnested : ∀ leaf ∈ g.selection, leaf.isLeaf = false) : valuesAt f r row place = [] := by
  have hempty : namedValues f r row place = [] := by
    refine List.eq_nil_iff_forall_not_mem.mpr fun field hfield => ?_
    obtain ⟨leaf, _, hvalue, _⟩ := mem_namedValues.mp hfield
    obtain ⟨owner, howner, hmem, hleaf⟩ := hvalue.owner
    obtain rfl := Option.some.inj (hg.symm.trans howner)
    rw [hnested leaf hmem] at hleaf
    cases hleaf
  rw [valuesAt, hempty]
  rfl

/-- A row that is null throughout at a place has no joined row there. -/
theorem IsMissing.isAbsent (h : IsMissing f r row place) :
    isAbsent (valuesAt f r row place) = true := by
  obtain ⟨⟨leaf, v, hvalue⟩, hnull⟩ := h
  have hkey : leaf.outputName ∈ (namedValues f r row place).keys :=
    List.mem_map.mpr ⟨_, mem_namedValues.mpr ⟨leaf, v, hvalue, rfl⟩, rfl⟩
  have hcontains : (valuesAt f r row place).contains leaf.outputName = true := by
    rw [valuesAt, Object.contains_ofFields]
    exact Object.contains_iff_mem_keys.mpr hkey
  rw [Assembly.isAbsent, Bool.and_eq_true, Bool.not_eq_true']
  constructor
  · rw [List.isEmpty_eq_false_iff]
    rintro hempty
    rw [hempty] at hcontains
    cases hcontains
  · refine List.all_eq_true.mpr fun field hfield => ?_
    have hmem := (Object.mem_insertAll hfield).resolve_right List.not_mem_nil
    obtain ⟨other, w, hother, rfl⟩ := mem_namedValues.mp hmem
    exact hnull other w hother

theorem isAbsent_valuesAt (hnames : hasDistinctNames f = true) :
    isAbsent (valuesAt f r row place) = true ↔ IsMissing f r row place := by
  refine ⟨fun h => ?_, IsMissing.isAbsent⟩
  rw [isAbsent, valuesAt_of_distinct hnames, Bool.and_eq_true, Bool.not_eq_true',
    List.isEmpty_eq_false_iff_exists_mem, List.all_eq_true] at h
  obtain ⟨⟨field, hfield⟩, hnull⟩ := h
  obtain ⟨leaf, v, hvalue, _⟩ := mem_namedValues.mp hfield
  exact ⟨⟨leaf, v, hvalue⟩, fun other w hother =>
    hnull _ (mem_namedValues.mpr ⟨other, w, hother, rfl⟩)⟩

end Values

/-- The rows by the text of an object that each of them has, in the order in which the texts first
come. -/
def groupRows (value : List Cell → Object) (rows : List (List Cell)) : List (List (List Cell)) :=
  (firsts (rows.map value)).map fun o => rows.filter fun row => sameText o (value row)

/-- The rows with a joined row at a place. -/
def joinedAt (f : Field) (r : ResultSet) (rows : List (List Cell)) (place : List Nat) :
    List (List Cell) :=
  rows.filter fun row => !isAbsent (valuesAt f r row place)

/-- The rows of the objects at a place, of those that belong to the object above it. -/
def groupsBelow (f : Field) (r : ResultSet) (rows : List (List Cell)) (place : List Nat) :
    List (List (List Cell)) :=
  groupRows (valuesAt f r · place) (joinedAt f r rows place)

/-- The rows of the root objects: each row has its own where nothing is nested. -/
def rootGroups (f : Field) (r : ResultSet) : List (List (List Cell)) :=
  if ∀ g ∈ f.selection, g.isLeaf = true then r.rows.map ([·])
  else groupRows (valuesAt f r · []) r.rows

/-- Rows with one text, which an object of one of them has. -/
structure IsGroupOf (value : List Cell → Object) (o : Object) (rows : List (List Cell)) : Prop where
  shown : ∃ row ∈ rows, o = value row
  same : ∀ row ∈ rows, sameText o (value row) = true

section Groups
variable {value : List Cell → Object} {rows group : List (List Cell)} {row : List Cell}

theorem isGroupOf_of_mem_firsts {o : Object} (ho : o ∈ firsts (rows.map value)) :
    IsGroupOf value o (rows.filter fun row => sameText o (value row)) := by
  obtain ⟨row, hrow, rfl⟩ := List.mem_map.mp (mem_of_mem_firsts ho)
  exact ⟨⟨row, List.mem_filter.mpr ⟨hrow, sameText_self _⟩, rfl⟩, fun other hother =>
    (List.mem_filter.mp hother).2⟩

theorem isGroupOf_singleton (value : List Cell → Object) (row : List Cell) :
    IsGroupOf value (value row) [row] :=
  ⟨⟨row, List.mem_singleton_self row, rfl⟩, fun other hother => by
    rw [List.mem_singleton.mp hother, sameText_self]⟩

variable (value) in
/-- Every row has a group. -/
theorem exists_group_of_mem (h : row ∈ rows) : ∃ group ∈ groupRows value rows, row ∈ group := by
  have hany : (firsts (rows.map value)).any (sameText · (value row)) = true := by
    rw [any_firsts]
    exact List.any_eq_true.mpr ⟨_, List.mem_map_of_mem h, sameText_self _⟩
  obtain ⟨o, ho, hsame⟩ := List.any_eq_true.mp hany
  exact ⟨_, List.mem_map_of_mem ho, List.mem_filter.mpr ⟨h, hsame⟩⟩

theorem mem_of_mem_group (hgroup : group ∈ groupRows value rows) (h : row ∈ group) :
    row ∈ rows := by
  obtain ⟨o, _, rfl⟩ := List.mem_map.mp hgroup
  exact (List.mem_filter.mp h).1

theorem groupRows_eq_nil_iff : groupRows value rows = [] ↔ rows = [] := by
  constructor
  · intro h
    refine List.eq_nil_iff_forall_not_mem.mpr fun row hrow => ?_
    obtain ⟨group, hgroup, _⟩ := exists_group_of_mem value hrow
    rw [h] at hgroup
    exact List.not_mem_nil hgroup
  · rintro rfl
    rfl

/-- Rows that all have the same object are one group. -/
theorem groupRows_of_const {o : Object} (h : ∀ row ∈ rows, value row = o) (hne : rows ≠ []) :
    (groupRows value rows).length = 1 := by
  rw [groupRows, List.length_map, List.map_congr_left h]
  cases rows with
  | nil => exact absurd rfl hne
  | cons row rest =>
      have hrest : (firsts (rest.map fun _ => o)).filter (fun p => !sameText o p) = [] := by
        refine List.filter_eq_nil_iff.mpr fun p hp => ?_
        obtain ⟨_, _, rfl⟩ := List.mem_map.mp (mem_of_mem_firsts hp)
        simp
      rw [List.map_cons, firsts, hrest]
      rfl

theorem joinedAt_eq_nil_iff {f : Field} {r : ResultSet} {place : List Nat} :
    joinedAt f r rows place = [] ↔ ∀ row ∈ rows, isAbsent (valuesAt f r row place) = true := by
  simp [joinedAt]

end Groups

/-- The field at a position of a selection is the last one of its output name, so that no other one
overwrites it in an object. -/
def Kept (fields : List Field) (i : Nat) (f : Field) : Prop :=
  fields[i]? = some f ∧ ∀ j g, i < j → fields[j]? = some g → g.outputName ≠ f.outputName

/-- An object stands at a place of an answer, and rows belong to it: the objects of a list have in
order the groups of the rows of the object that holds it. -/
inductive Stands (f : Field) (r : ResultSet) (answer : List Json) :
    List Nat → List (List Cell) → Object → Prop
  | root {rows o} :
      (rows, Json.object o) ∈ (rootGroups f r).zip answer → Stands f r answer [] rows o
  | nested {place rows o g i inner items rows' o'} : Stands f r answer place rows o →
      fieldAt? f place = some g → Kept g.selection i inner → inner.isLeaf = false →
      o.get? inner.outputName = some (.list items) →
      (rows', Json.object o') ∈ (groupsBelow f r rows (place ++ [i])).zip items →
      Stands f r answer (place ++ [i]) rows' o'

/-- The slots of a field are numbered, and what a row contributes to them are its values at their
places. -/
structure IsPlaced (f : Field) (s : Slots) (r : ResultSet) (number : List Nat → Nat) : Prop where
  numbering : Numbering f s number
  contributes : ∀ row place g, fieldAt? f place = some g →
    slice r row place.length (number place) = valuesAt f r row place

/-- Values that stand under one label are taken alike, whether the label is that of a column or of a
leaf. -/
theorem filterMap_zip_zip {α β γ δ ε : Type} {label : α → γ} {label' : β → γ} {leaves : List α}
    {columns : List β} (h : columns.map label' = leaves.map label) (cells : List δ)
    (take : γ → β → δ → Option ε) :
    (columns.zip cells).filterMap (fun (column, cell) => take (label' column) column cell) =
      (leaves.zip (columns.zip cells)).filterMap fun (leaf, column, cell) =>
        take (label leaf) column cell := by
  induction leaves generalizing columns cells with
  | nil =>
      rw [List.map_nil, List.map_eq_nil_iff] at h
      rw [h]
      rfl
  | cons leaf leaves ih =>
      cases columns with
      | nil => cases h
      | cons column columns =>
          obtain ⟨hfirst, hrest⟩ := List.cons.inj h
          cases cells with
          | nil => rfl
          | cons cell cells =>
              simp only [List.zip_cons_cons, List.filterMap_cons, hfirst, ih hrest cells]

theorem nameIn_of_numbering {f g : Field} {s : Slots} {number : List Nat → Nat} {place : List Nat}
    (h : Numbering f s number) (hg : fieldAt? f place = some g) {leaf : List Nat × Field}
    (hleaf : leaf ∈ leafPlaces f) :
    nameIn place.length (number place) (Compiler.labelAt number leaf) =
      if leaf.1 = place then some leaf.2.outputName else none := by
  obtain ⟨_, owner, howner, _⟩ := Query.owner_of_mem_leafPlaces f leaf hleaf
  by_cases hplace : leaf.1 = place
  · rw [if_pos hplace, ← hplace]
    exact nameIn_self _
  · rw [if_neg hplace]
    exact if_neg fun hslot => hplace (h.injective _ owner _ g howner hg hslot.1 hslot.2)

theorem exists_isPlaced {c : Compiler} {vars : Variables} {limited : Bool} {f : Field}
    {q : CompiledQuery} (h : c.compileWith limited vars f = .ok q) {r : ResultSet}
    (hlabelled : Labelled q.columns r) : ∃ number, IsPlaced f q.slots r number := by
  obtain ⟨number, hnumbering, hcolumns⟩ := Compiler.exists_numbering_of_compileWith h
  have hplaces := hlabelled.places.trans (Compiler.labels_eq hcolumns)
  refine ⟨number, hnumbering, fun row place g hg => ?_⟩
  rw [slice_eq, valuesAt, namedValues, leafCells]
  congr 1
  refine (filterMap_zip_zip hplaces row fun at_ column cell =>
    (nameIn place.length (number place) at_).map (·, cell.coerce column.type)).trans ?_
  refine List.filterMap_congr fun entry hentry => ?_
  have hname := nameIn_of_numbering hnumbering hg (List.of_mem_zip hentry).1
  simp only [hname]
  split_ifs <;> rfl

/-- Of the fields that a list gives, the last one of a key stands under it. -/
theorem get?_ofFields_filterMap {α : Type} {xs : List α} {field : α → Option (String × Json)}
    {i : Nat} {x : α} {key : String} {value : Json} (hx : xs[i]? = some x)
    (hvalue : field x = some (key, value))
    (hlast : ∀ j y, i < j → xs[j]? = some y → ∀ other, field y = some other → other.1 ≠ key) :
    (Object.ofFields (xs.filterMap field)).get? key = some value := by
  obtain ⟨hi, rfl⟩ := List.getElem?_eq_some_iff.mp hx
  have hsplit : xs.filterMap field =
      (xs.take i).filterMap field ++ (key, value) :: (xs.drop (i + 1)).filterMap field := by
    calc xs.filterMap field = (xs.take i ++ xs[i] :: xs.drop (i + 1)).filterMap field := by
          rw [← List.drop_eq_getElem_cons hi, List.take_append_drop]
      _ = _ := by rw [List.filterMap_append, List.filterMap_cons, hvalue]
  have hlater : Object.get? key ((xs.drop (i + 1)).filterMap field).reverse = none := by
    refine Option.eq_none_iff_forall_not_mem.mpr fun v hv => ?_
    have hmem := List.mem_reverse.mp (Object.mem_of_get? hv)
    obtain ⟨y, hy, hfield⟩ := List.mem_filterMap.mp hmem
    obtain ⟨k, hk, rfl⟩ := List.mem_iff_getElem.mp hy
    rw [List.getElem_drop] at hfield
    have hlt : i + 1 + k < xs.length := by simpa [Nat.lt_sub_iff_add_lt'] using hk
    exact hlast (i + 1 + k) _ (by omega) (List.getElem?_eq_getElem hlt) _ hfield rfl
  rw [Object.get?_ofFields, hsplit, List.reverse_append, List.reverse_cons, Object.get?_append,
    Object.get?_append, hlater, Option.none_or, Object.get?, if_pos rfl, Option.some_or]

section Fields
variable {f g inner : Field} {s : Slots} {r : ResultSet} {number : List Nat → Nat}
  {place : List Nat} {i : Nat} {values : Object} {below : Nat → List Json}

theorem number_nil (h : Numbering f s number) : number [] = 0 := by
  have hroot : 0 < (s.level 0).length :=
    Nat.zero_lt_of_lt (Slots.lt_of_get? (h.slots [] f rfl))
  obtain ⟨place, _, _, hlength, hnumber⟩ := h.onto 0 0 hroot
  rwa [List.length_eq_zero_iff.mp hlength] at hnumber

/-- The entry of a slot for a member of its selection. -/
def entryOf (number : List Nat → Nat) (place : List Nat) (i : Nat) (inner : Field) : SlotEntry :=
  if inner.isLeaf then .field inner.outputName else .child (number (place ++ [i]))

theorem entryField_nested (h : Numbering f s number) (hg : fieldAt? f place = some g)
    (hinner : g.selection[i]? = some inner) (hleaf : inner.isLeaf = false) :
    entryField s place.length values below (entryOf number place i inner) =
      some (inner.outputName, .list (below (number (place ++ [i])))) := by
  have hslot := h.slots _ _ (Compiler.fieldAt?_member hg hinner hleaf)
  rw [List.length_append, List.length_singleton] at hslot
  rw [entryOf, hleaf, if_neg Bool.false_ne_true, entryField, hslot, Option.map_some, slotAt]

theorem key_entryField (h : Numbering f s number) (hg : fieldAt? f place = some g)
    (hinner : g.selection[i]? = some inner) {field : String × Json}
    (hfield : entryField s place.length values below (entryOf number place i inner) = some field) :
    field.1 = inner.outputName := by
  cases hleaf : inner.isLeaf with
  | true =>
      rw [entryOf, hleaf, if_pos rfl, entryField, Option.map_eq_some_iff] at hfield
      obtain ⟨_, _, rfl⟩ := hfield
      rfl
  | false =>
      rw [entryField_nested h hg hinner hleaf] at hfield
      rw [← Option.some.inj hfield]

/-- Under the name of a member that nothing overwrites stands what its entry stands for. -/
theorem get?_ordered (h : Numbering f s number) (hg : fieldAt? f place = some g)
    (hkept : Kept g.selection i inner) {value : Json}
    (hvalue : entryField s place.length values below (entryOf number place i inner) =
      some (inner.outputName, value)) :
    (ordered s place.length (slotAt number place g) values below).get? inner.outputName =
      some value := by
  obtain ⟨hinner, hlast⟩ := hkept
  have hentries (j : Nat) : (slotAt number place g).entries[j]? =
      (g.selection[j]?).map (entryOf number place j) := List.getElem?_mapIdx
  have hnamed : (Object.ofFields ((slotAt number place g).entries.filterMap
      (entryField s place.length values below))).get? inner.outputName = some value := by
    refine get?_ofFields_filterMap ((hentries i).trans (by rw [hinner]; rfl)) hvalue ?_
    intro j entry hj hentry other hother
    rw [hentries, Option.map_eq_some_iff] at hentry
    obtain ⟨member, hmember, rfl⟩ := hentry
    rw [key_entryField h hg hmember hother]
    exact hlast j member hj hmember
  rw [ordered, Object.get?_append, hnamed, Option.some_or]

theorem kept_of_distinct (hnames : (g.selection.map (·.outputName)).Nodup)
    (hinner : g.selection[i]? = some inner) : Kept g.selection i inner := by
  refine ⟨hinner, fun j other hj hother heq => ?_⟩
  have hi := congrArg (Option.map (·.outputName)) hinner
  have hj' := congrArg (Option.map (·.outputName)) hother
  rw [← List.getElem?_map] at hi hj'
  rw [Option.map_some, heq] at hj'
  have hlt : i < (g.selection.map (·.outputName)).length := (List.getElem?_eq_some_iff.mp hi).1
  exact Nat.ne_of_lt hj ((List.getElem?_inj hlt hnames).mp (hi.trans hj'.symm))

end Fields

/-- A value is the object of a group of rows at a place. -/
def IsObjectOf (f : Field) (s : Slots) (r : ResultSet) (number : List Nat → Nat) (place : List Nat)
    (rows : List (List Cell)) (o : Json) : Prop :=
  ∃ values, IsGroupOf (valuesAt f r · place) values rows ∧
    o = grouped s r place.length (number place) rows values

section Placed
variable {f g inner : Field} {s : Slots} {r : ResultSet} {number : List Nat → Nat}
  {place : List Nat} {i : Nat} {rows : List (List Cell)} {o : Object}

theorem IsPlaced.isObjectOf_objectsBelow (h : IsPlaced f s r number)
    (hinner : fieldAt? f (place ++ [i]) = some inner) (rows : List (List Cell)) :
    List.Forall₂ (IsObjectOf f s r number (place ++ [i])) (groupsBelow f r rows (place ++ [i]))
      (objectsBelow s r place.length rows (number (place ++ [i]))) := by
  have hslice (row : List Cell) :
      slice r row (place.length + 1) (number (place ++ [i])) = valuesAt f r row (place ++ [i]) := by
    rw [← h.contributes row _ inner hinner, List.length_append, List.length_singleton]
  have hjoined : joinedRows r rows (place.length + 1) (number (place ++ [i])) =
      joinedAt f r rows (place ++ [i]) := List.filter_congr fun row _ => by rw [hslice]
  rw [objectsBelow, hjoined]
  simp only [slices, rowsOf, hslice]
  rw [groupsBelow, groupRows, List.forall₂_map_left_iff, List.forall₂_map_right_iff,
    List.forall₂_same]
  exact fun values hvalues => ⟨values, isGroupOf_of_mem_firsts hvalues, by
    rw [List.length_append, List.length_singleton]⟩

/-- Under the name of a nested field stand the objects of the groups at its place. -/
theorem IsPlaced.get?_nested (h : IsPlaced f s r number) (hg : fieldAt? f place = some g)
    (hkept : Kept g.selection i inner) (hleaf : inner.isLeaf = false)
    (ho : IsObjectOf f s r number place rows (.object o)) : ∃ items,
    o.get? inner.outputName = some (.list items) ∧
      List.Forall₂ (IsObjectOf f s r number (place ++ [i]))
        (groupsBelow f r rows (place ++ [i])) items := by
  obtain ⟨values, _, hgrouped⟩ := ho
  rw [grouped_some (h.numbering.slots place g hg)] at hgrouped
  obtain rfl := Json.object.inj hgrouped
  refine ⟨objectsBelow s r place.length rows (number (place ++ [i])), ?_,
    h.isObjectOf_objectsBelow (Compiler.fieldAt?_member hg hkept.1 hleaf) rows⟩
  exact get?_ordered h.numbering hg hkept (entryField_nested h.numbering hg hkept.1 hleaf)

/-- Under the name of a leaf stands the value of every row of the object, as far as its text
goes. -/
theorem IsPlaced.get?_leaf (h : IsPlaced f s r number) (hnames : hasDistinctNames f = true)
    (ho : IsObjectOf f s r number place rows (.object o)) {row : List Cell} (hrow : row ∈ rows)
    {leaf : Field} {v : Json} (hvalue : HasValue f r row place leaf v) :
    ∃ w, o.get? leaf.outputName = some w ∧ w.compact = v.compact := by
  obtain ⟨g, hg, hmem, hleaf⟩ := hvalue.owner
  obtain ⟨j, hj, hget⟩ := List.mem_iff_getElem.mp hmem
  have hkept : Kept g.selection j leaf :=
    kept_of_distinct ((Query.hasDistinctNames_iff_forall f).mp hnames place g hg)
      (List.getElem?_eq_some_iff.mpr ⟨hj, hget⟩)
  obtain ⟨values, hgroup, hgrouped⟩ := ho
  have htext := (Json.sameTexts_of_compact (eq_of_beq (hgroup.same row hrow))).get? leaf.outputName
  rw [get?_valuesAt hnames hvalue, Option.map_some] at htext
  obtain ⟨w, hw, hcompact⟩ := Option.map_eq_some_iff.mp htext
  rw [grouped_some (h.numbering.slots place g hg)] at hgrouped
  obtain rfl := Json.object.inj hgrouped
  refine ⟨w, get?_ordered h.numbering hg hkept ?_, hcompact⟩
  rw [entryOf, hleaf, if_pos rfl, entryField, hw, Option.map_some]

theorem IsPlaced.isObjectOf_roots (h : IsPlaced f s r number) (hd : DistinctChildren s)
    (hlevel : s.maxLevel = 0 ↔ ∀ g ∈ f.selection, g.isLeaf = true) :
    List.Forall₂ (IsObjectOf f s r number []) (rootGroups f r) (objects s r) := by
  have hslice (row : List Cell) : slice r row 0 0 = valuesAt f r row [] := by
    rw [← h.contributes row [] f rfl, number_nil h.numbering, List.length_nil]
  rw [objects_eq_groupedRoots hd, groupedRoots, rootGroups]
  simp only [slices, rowsOf, hslice, hlevel]
  split_ifs
  · rw [List.forall₂_map_left_iff, List.forall₂_map_right_iff, List.forall₂_same]
    exact fun row _ => ⟨_, isGroupOf_singleton (valuesAt f r · []) row, by
      rw [number_nil h.numbering, List.length_nil]⟩
  · rw [groupRows, List.forall₂_map_left_iff, List.forall₂_map_right_iff, List.forall₂_same]
    exact fun values hvalues => ⟨values, isGroupOf_of_mem_firsts hvalues, by
      rw [number_nil h.numbering, List.length_nil]⟩

end Placed

theorem exists_mem_zip {α β : Type} {xs : List α} {ys : List β} (h : xs.length = ys.length) {x : α}
    (hx : x ∈ xs) : ∃ y, (x, y) ∈ xs.zip ys := by
  obtain ⟨i, hi, rfl⟩ := List.mem_iff_getElem.mp hx
  refine ⟨ys.get ⟨i, h ▸ hi⟩, List.mem_iff_getElem.mpr ⟨i, ?_, List.getElem_zip⟩⟩
  rw [List.length_zip, ← h, Nat.min_self]
  exact hi

theorem exists_rootGroup_of_mem {f : Field} {r : ResultSet} {row : List Cell} (h : row ∈ r.rows) :
    ∃ group ∈ rootGroups f r, row ∈ group := by
  rw [rootGroups]
  split_ifs
  · exact ⟨[row], List.mem_map_of_mem h, List.mem_singleton_self row⟩
  · exact exists_group_of_mem _ h

theorem IsObjectOf.exists_fields {f : Field} {s : Slots} {r : ResultSet} {number : List Nat → Nat}
    {place : List Nat} {rows : List (List Cell)} {object : Json}
    (h : IsObjectOf f s r number place rows object) : ∃ o, object = .object o := by
  obtain ⟨values, _, rfl⟩ := h
  cases hhere : s.get? place.length (number place) with
  | none => exact ⟨_, grouped_none hhere rows values⟩
  | some here => exact ⟨_, grouped_some hhere rows values⟩

/-- Every group has its object among those that a list has for groups. -/
theorem exists_object_of_mem {f : Field} {s : Slots} {r : ResultSet} {number : List Nat → Nat}
    {place : List Nat} {groups : List (List (List Cell))} {items : List Json}
    (h : List.Forall₂ (IsObjectOf f s r number place) groups items) {group : List (List Cell)}
    (hgroup : group ∈ groups) : ∃ o, (group, Json.object o) ∈ groups.zip items := by
  obtain ⟨item, hitem⟩ := exists_mem_zip h.length_eq hgroup
  obtain ⟨o, rfl⟩ := ((List.forall₂_iff_zip.mp h).2 hitem).exists_fields
  exact ⟨o, hitem⟩

section Standing
variable {f g : Field} {s : Slots} {r : ResultSet} {number : List Nat → Nat} {answer : List Json}
  {place : List Nat} {rows : List (List Cell)} {o : Object} {row : List Cell}

theorem Stands.isObjectOf (h : IsPlaced f s r number)
    (hroots : List.Forall₂ (IsObjectOf f s r number []) (rootGroups f r) answer)
    (hstands : Stands f r answer place rows o) :
    IsObjectOf f s r number place rows (.object o) := by
  induction hstands with
  | root hmem => exact (List.forall₂_iff_zip.mp hroots).2 hmem
  | nested _ hg hkept hleaf hget hmem ih =>
      obtain ⟨items, hitems, hobjects⟩ := h.get?_nested hg hkept hleaf ih
      obtain rfl := Json.list.inj (Option.some.inj (hitems.symm.trans hget))
      exact (List.forall₂_iff_zip.mp hobjects).2 hmem

/-- A row that belongs to an object has joined rows at its place and at those above it. -/
theorem Stands.isAbsent_eq_false (hstands : Stands f r answer place rows o) (hrow : row ∈ rows)
    {above : List Nat} (hne : above ≠ []) (habove : above <+: place) :
    isAbsent (valuesAt f r row above) = false := by
  induction hstands with
  | root => exact absurd (List.prefix_nil.mp habove) hne
  | nested _ _ _ _ _ hmem ih =>
      have hjoined := mem_of_mem_group (List.of_mem_zip hmem).1 hrow
      obtain ⟨hparent, hpresent⟩ := List.mem_filter.mp hjoined
      rcases List.prefix_concat_iff.mp habove with rfl | habove
      · simpa using hpresent
      · exact ih hparent habove

/-- A row that has joined rows at a place and at those above it belongs to an object there. -/
theorem exists_stands (h : IsPlaced f s r number)
    (hroots : List.Forall₂ (IsObjectOf f s r number []) (rootGroups f r) answer)
    (hnames : hasDistinctNames f = true) (hrow : row ∈ r.rows) (hg : fieldAt? f place = some g)
    (hpresent : ∀ above, above ≠ [] → above <+: place → isAbsent (valuesAt f r row above) = false) :
    ∃ rows o, Stands f r answer place rows o ∧ row ∈ rows := by
  induction place using List.reverseRecOn generalizing g with
  | nil =>
      obtain ⟨group, hgroup, hmem⟩ := exists_rootGroup_of_mem hrow
      obtain ⟨o, ho⟩ := exists_object_of_mem hroots hgroup
      exact ⟨group, o, .root ho, hmem⟩
  | append_singleton place i ih =>
      rw [Compiler.fieldAt?_concat] at hg
      obtain ⟨owner, howner, hinner⟩ := Option.bind_eq_some_iff.mp hg
      obtain ⟨hmember, hleaf⟩ := Option.filter_eq_some_iff.mp hinner
      obtain ⟨rows, o, hstands, hbelongs⟩ := ih howner fun above hne habove =>
        hpresent above hne (habove.trans (List.prefix_append place [i]))
      have hdistinct := (Query.hasDistinctNames_iff_forall f).mp hnames place owner howner
      have hkept := kept_of_distinct hdistinct hmember
      have hnested : g.isLeaf = false := by simpa using hleaf
      obtain ⟨items, hget, hobjects⟩ :=
        h.get?_nested howner hkept hnested (hstands.isObjectOf h hroots)
      have hjoined : row ∈ joinedAt f r rows (place ++ [i]) := by
        refine List.mem_filter.mpr ⟨hbelongs, ?_⟩
        rw [hpresent _ (by simp) (List.prefix_refl _)]
        rfl
      obtain ⟨group, hgroup, hmem⟩ := exists_group_of_mem (valuesAt f r · (place ++ [i])) hjoined
      obtain ⟨o', ho'⟩ := exists_object_of_mem hobjects hgroup
      exact ⟨group, o', .nested hstands howner hkept hnested hget ho', hmem⟩

end Standing

section Compiled
variable {c : Compiler} {vars : Variables} {limited : Bool} {f : Field} {q : CompiledQuery}
  {r : ResultSet}

theorem isObjectOf_objects (h : c.compileWith limited vars f = .ok q) {number : List Nat → Nat}
    (hplaced : IsPlaced f q.slots r number) :
    List.Forall₂ (IsObjectOf f q.slots r number []) (rootGroups f r) (objects q.slots r) := by
  refine hplaced.isObjectOf_roots (fun level slot here hhere =>
    (Compiler.numbered_of_compileWith h level slot here hhere).1) ⟨fun hflat => ?_, fun hleaves =>
      Compiler.maxLevel_of_leaves h hleaves⟩
  by_contra hnested
  obtain ⟨g, hg, hleaf⟩ := not_forall₂.mp hnested
  exact absurd (Compiler.maxLevel_pos_of_compileWith h ⟨g, hg, by simpa using hleaf⟩) (by omega)

/-- An object shows the values of a row at its place. -/
def Shows (f : Field) (r : ResultSet) (row : List Cell) (place : List Nat) (o : Object) : Prop :=
  ∀ leaf v, HasValue f r row place leaf v →
    ∃ w, o.get? leaf.outputName = some w ∧ w.compact = v.compact

/-- Values get lost below a place that is null throughout, and only there. Every object shows the
values of all rows that belong to it, and a row with a value at a place that is not null belongs to
an object there, if and only if the row is null throughout at none of the nested places above. -/
theorem shown_iff_not_missing_above (h : c.compileWith limited vars f = .ok q)
    (hnames : hasDistinctNames f = true) (hlabelled : Labelled q.columns r) :
    (∀ place rows o, Stands f r (objects q.slots r) place rows o →
      ∀ row ∈ rows, Shows f r row place o) ∧
    ∀ row ∈ r.rows, ∀ place leaf v, HasValue f r row place leaf v → v.isNull = false →
      ((∃ rows o, Stands f r (objects q.slots r) place rows o ∧ row ∈ rows ∧
        Shows f r row place o) ↔
        ∀ above, above ≠ [] → above <+: place → above ≠ place → ¬IsMissing f r row above) := by
  obtain ⟨number, hplaced⟩ := exists_isPlaced h hlabelled
  have hroots := isObjectOf_objects h hplaced
  have hshows : ∀ place rows o, Stands f r (objects q.slots r) place rows o → ∀ row ∈ rows,
      Shows f r row place o := fun place rows o hstands row hrow leaf v hvalue =>
    hplaced.get?_leaf hnames (hstands.isObjectOf hplaced hroots) hrow hvalue
  refine ⟨hshows, fun row hrow place leaf v hvalue hv => ⟨?_, fun hnone => ?_⟩⟩
  · rintro ⟨rows, o, hstands, hbelongs, _⟩ above hne habove _ hmissing
    have hpresent := hstands.isAbsent_eq_false hbelongs hne habove
    rw [hmissing.isAbsent] at hpresent
    cases hpresent
  · obtain ⟨g, hg, _⟩ := hvalue.owner
    have hpresent : ∀ above, above ≠ [] → above <+: place →
        isAbsent (valuesAt f r row above) = false := fun above hne habove => by
      rw [← Bool.not_eq_true, isAbsent_valuesAt hnames]
      by_cases hsame : above = place
      · subst hsame
        rintro ⟨_, hnull⟩
        rw [hnull leaf v hvalue] at hv
        cases hv
      · exact hnone above hne habove hsame
    obtain ⟨rows, o, hstands, hbelongs⟩ := exists_stands hplaced hroots hnames hrow hg hpresent
    exact ⟨rows, o, hstands, hbelongs, hshows place rows o hstands row hbelongs⟩

theorem exists_labelled_usersWithOrders : ∃ q,
    Shop.compiler.compileWith true [] usersWithOrders = .ok q ∧
    Labelled q.columns usersWithOrdersRows := by
  obtain ⟨q, hq⟩ := exists_eq_ok (x := Shop.compiler.compileWith true [] usersWithOrders)
    (by decide +kernel)
  have hlabels : q.columns.map (·.label) =
      [⟨0, 0, "name"⟩, ⟨1, 0, "total"⟩, ⟨1, 1, "id"⟩, ⟨2, 0, "id"⟩] :=
    part_eq (g := fun q : CompiledQuery => q.columns.map (·.label)) hq (by decide +kernel)
  exact ⟨q, hq, labelled_of_labels hlabels (by decide +kernel) (by decide)⟩

theorem shown_usersWithOrders : ∃ q, Shop.compiler.compileWith true [] usersWithOrders = .ok q ∧
    ∃ rows o, Stands usersWithOrders usersWithOrdersRows (objects q.slots usersWithOrdersRows)
      [2, 1] rows o ∧ [.text "ann", .int 5, .int 1, .int 8] ∈ rows ∧
      Shows usersWithOrders usersWithOrdersRows [.text "ann", .int 5, .int 1, .int 8] [2, 1] o := by
  obtain ⟨q, hq, hlabelled⟩ := exists_labelled_usersWithOrders
  have item :
    HasValue usersWithOrders usersWithOrdersRows [.text "ann", .int 5, .int 1, .int 8] [2, 1]
      (Shop.leaf "id") (.int 8) := ⟨_, _, List.mem_of_getElem? (i := 3) rfl, rfl⟩
  have order :
    HasValue usersWithOrders usersWithOrdersRows [.text "ann", .int 5, .int 1, .int 8] [2]
      (Shop.leaf "id") (.int 1) := ⟨_, _, List.mem_of_getElem? (i := 2) rfl, rfl⟩
  refine ⟨q, hq,
    ((shown_iff_not_missing_above hq (by decide +kernel) hlabelled).2 _ List.mem_cons_self
    [2, 1] _ _ item rfl).mpr ?_⟩
  rintro above hne habove hproper ⟨_, hnull⟩
  have hwhole : above <+: [2] ++ [1] := habove
  have habove : above <+: [] ++ [2] := (List.prefix_concat_iff.mp hwhole).resolve_left hproper
  obtain rfl | hnil := List.prefix_concat_iff.mp habove
  · cases hnull _ _ order
  · exact hne (List.prefix_nil.mp hnil)

/-- Users with their orders and the items of the orders. -/
def usersWithItems : Field :=
  Shop.nested "users" [Shop.leaf "name",
    Shop.nested "orders" [Shop.leaf "total", Shop.nested "items" [Shop.leaf "id"]]]

/-- An item of an order without a total. -/
def itemWithoutTotal : ResultSet where
  columns :=
    [⟨"L0~~0**name", "", .text⟩, ⟨"L1~~0**total", "", .integer⟩, ⟨"L2~~0**id", "", .integer⟩]
  rows := [[.text "ann", .null, .int 7]]
  affected := 1
  lastId := none

/-- An order whose total is null takes its item away. -/
theorem item_lost_with_null_total : ∃ q, Shop.compiler.compileWith true [] usersWithItems = .ok q ∧
    hasDistinctNames usersWithItems = true ∧ Labelled q.columns itemWithoutTotal ∧
    (∃ row ∈ itemWithoutTotal.rows,
      HasValue usersWithItems itemWithoutTotal row [1, 1] (Shop.leaf "id") (.int 7)) ∧
    (objects q.slots itemWithoutTotal).map Json.compact =
      ["\x7b\"name\":\"ann\",\"orders\":[]\x7d"] := by
  obtain ⟨q, hq⟩ := exists_eq_ok (x := Shop.compiler.compileWith true [] usersWithItems)
    (by decide +kernel)
  have hlabels : q.columns.map (·.label) = [⟨0, 0, "name"⟩, ⟨1, 0, "total"⟩, ⟨2, 0, "id"⟩] :=
    part_eq (g := fun q : CompiledQuery => q.columns.map (·.label)) hq (by decide +kernel)
  refine ⟨q, hq, by decide +kernel, labelled_of_labels hlabels (by decide +kernel) (by decide),
    ⟨_, List.mem_cons_self, _, _, List.mem_of_getElem? (i := 2) rfl, rfl⟩, ?_⟩
  exact part_eq (g := fun q : CompiledQuery =>
    (objects q.slots itemWithoutTotal).map Json.compact) hq (by decide +kernel)

/-- Under the name of a nested field that no later member of the selection overwrites stands a list,
which is empty exactly if the values of that field's own selection are null throughout in every row
of the object: what is selected further below does not count. A nested field without a column of its
own has one object in every object. -/
theorem nested_eq_nil_iff (h : c.compileWith limited vars f = .ok q)
    (hlabelled : Labelled q.columns r) : (objects q.slots r).length = (rootGroups f r).length ∧
    ∀ place rows o, Stands f r (objects q.slots r) place rows o →
      ∀ g i inner, fieldAt? f place = some g → Kept g.selection i inner → inner.isLeaf = false →
        ∃ items, o.get? inner.outputName = some (.list items) ∧
          items.length = (groupsBelow f r rows (place ++ [i])).length ∧
          (items = [] ↔ ∀ row ∈ rows, isAbsent (valuesAt f r row (place ++ [i])) = true) ∧
          ((∀ row ∈ rows, IsMissing f r row (place ++ [i])) → items = []) ∧
          ((∀ leaf ∈ inner.selection, leaf.isLeaf = false) → items.length = 1) := by
  obtain ⟨number, hplaced⟩ := exists_isPlaced h hlabelled
  have hroots := isObjectOf_objects h hplaced
  refine ⟨hroots.length_eq.symm, fun place rows o hstands g i inner hg hkept hleaf => ?_⟩
  have hobject := hstands.isObjectOf hplaced hroots
  obtain ⟨items, hget, hitems⟩ := hplaced.get?_nested hg hkept hleaf hobject
  have hempty : items = [] ↔ ∀ row ∈ rows, isAbsent (valuesAt f r row (place ++ [i])) = true := by
    rw [← List.length_eq_zero_iff, ← hitems.length_eq, List.length_eq_zero_iff, groupsBelow,
      groupRows_eq_nil_iff, joinedAt_eq_nil_iff]
  refine ⟨items, hget, hitems.length_eq.symm, hempty, fun hmissing => ?_, fun hnested => ?_⟩
  · exact hempty.mpr fun row hrow => (hmissing row hrow).isAbsent
  · have hvalues (row : List Cell) : valuesAt f r row (place ++ [i]) = [] :=
      valuesAt_of_nested (Compiler.fieldAt?_member hg hkept.1 hleaf) hnested
    have hjoined : joinedAt f r rows (place ++ [i]) = rows :=
      List.filter_eq_self.mpr fun row _ => by rw [hvalues]; rfl
    obtain ⟨_, ⟨⟨row, hrow, _⟩, _⟩, _⟩ := hobject
    rw [← hitems.length_eq, groupsBelow, hjoined]
    exact groupRows_of_const (fun row _ => hvalues row) (List.ne_nil_of_mem hrow)

theorem nested_eq_nil_usersWithOrders :
    ∃ q, Shop.compiler.compileWith true [] usersWithOrders = .ok q ∧
    ∃ o, Stands usersWithOrders usersWithOrdersRows (objects q.slots usersWithOrdersRows) []
        [[.text "bob", .null, .null, .null]] o ∧
      o.get? "orders" = some (.list []) := by
  obtain ⟨q, hq, hlabelled⟩ := exists_labelled_usersWithOrders
  obtain ⟨number, hplaced⟩ := exists_isPlaced hq hlabelled
  have hgroup :
      [[.text "bob", .null, .null, .null]] ∈ rootGroups usersWithOrders usersWithOrdersRows :=
    List.mem_of_getElem? (i := 1) (by rfl)
  obtain ⟨o, ho⟩ := exists_object_of_mem (isObjectOf_objects hq hplaced) hgroup
  obtain ⟨items, hget, _, hempty, _⟩ :=
    (nested_eq_nil_iff hq hlabelled).2 _ _ _ (.root ho) usersWithOrders 1
    (Shop.nested "orders" [Shop.leaf "total"]) rfl (kept_of_distinct (by decide) rfl) rfl
  obtain rfl : items = [] := hempty.mpr (by decide +kernel)
  exact ⟨q, hq, o, .root ho, hget⟩

/-- Users with the items of their orders, of which nothing else is selected. -/
def usersWithBareOrders : Field :=
  Shop.nested "users"
    [Shop.leaf "name", Shop.nested "orders" [Shop.nested "items" [Shop.leaf "id"]]]

/-- A user without orders. -/
def userWithoutOrders : ResultSet where
  columns := [⟨"L0~~0**name", "", .text⟩, ⟨"L2~~0**id", "", .integer⟩]
  rows := [[.text "ann", .null]]
  affected := 1
  lastId := none

/-- A user without orders is given one, if no column of the orders is selected. -/
theorem order_made_up_without_columns : ∃ q,
    Shop.compiler.compileWith true [] usersWithBareOrders = .ok q ∧
    Labelled q.columns userWithoutOrders ∧
    (∀ row ∈ userWithoutOrders.rows, ∀ place, [1] <+: place → ∀ leaf v,
      HasValue usersWithBareOrders userWithoutOrders row place leaf v → v.isNull = true) ∧
    (objects q.slots userWithoutOrders).map Json.compact =
      ["\x7b\"name\":\"ann\",\"orders\":[\x7b\"items\":[]\x7d]\x7d"] := by
  obtain ⟨q, hq⟩ := exists_eq_ok (x := Shop.compiler.compileWith true [] usersWithBareOrders)
    (by decide +kernel)
  have hlabels : q.columns.map (·.label) = [⟨0, 0, "name"⟩, ⟨2, 0, "id"⟩] :=
    part_eq (g := fun q : CompiledQuery => q.columns.map (·.label)) hq (by decide +kernel)
  refine ⟨q, hq, labelled_of_labels hlabels (by decide +kernel) (by decide), ?_, ?_⟩
  · rintro row hrow place ⟨rest, rfl⟩ leaf v ⟨column, cell, hmem, rfl⟩
    obtain rfl := List.mem_singleton.mp hrow
    have hcells : leafCells usersWithBareOrders userWithoutOrders [.text "ann", .null] =
      [(([], Shop.leaf "name"), ⟨"L0~~0**name", "", .text⟩, .text "ann"),
        (([1, 0], Shop.leaf "id"), ⟨"L2~~0**id", "", .integer⟩, .null)] := rfl
    rw [hcells, List.mem_cons, List.mem_singleton] at hmem
    obtain hroot | hitem := hmem
    · cases hroot
    · cases hitem
      rfl
  · exact part_eq (g := fun q : CompiledQuery =>
      (objects q.slots userWithoutOrders).map Json.compact) hq (by decide +kernel)

end Compiled

end SqlGateway.Assembly
