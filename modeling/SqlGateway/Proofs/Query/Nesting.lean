import Mathlib.Data.Set.Function
import SqlGateway.Proofs.Query.Placement
import SqlGateway.Proofs.Shop

/-!
# Slots and places

A selection is a tree. A place in it is written as the positions of the fields on the way down to a
nested field, and the empty place is the root. A walk numbers the places of each level in the order
in which it comes to them, across all parents, and the slot with the number of a place stands for
the field there: the slots of a compiled field are one to one with its places.
-/
namespace SqlGateway.Query

open Request (Field Variables)

def nestedField? (fields : List Field) (i : Nat) : Option Field := fields[i]?.filter (!·.isLeaf)

/-- The field at a place: the root, or a nested field below it. -/
def fieldAt? (f : Field) : List Nat → Option Field
  | [] => some f
  | i :: place => (nestedField? f.selection i).bind (fieldAt? · place)

/-- The nested field at a place below a selection, which has no root of its own. -/
def below? (fields : List Field) : List Nat → Option Field
  | [] => none
  | i :: place => (nestedField? fields i).bind (fieldAt? · place)

section Places
variable {f g : Field} {rest : List Field} {place : List Nat}

theorem fieldAt?_of_ne_nil (h : place ≠ []) : fieldAt? f place = below? f.selection place := by
  cases place with
  | nil => exact absurd rfl h
  | cons => rfl

@[simp] theorem below?_nil_fields : below? [] place = none := by
  cases place <;> rfl

@[simp] theorem below?_succ (i : Nat) :
    below? (f :: rest) ((i + 1) :: place) = below? rest (i :: place) :=
  rfl

theorem below?_zero_leaf (h : f.isLeaf = true) : below? (f :: rest) (0 :: place) = none := by
  simp [below?, nestedField?, h]

theorem below?_zero (h : f.isLeaf = false) :
    below? (f :: rest) (0 :: place) = fieldAt? f place := by
  simp [below?, nestedField?, Option.filter, h]

/-- A place below a selection lies in its first field or in one of the others. -/
theorem below?_cons_cases (h : below? (f :: rest) place = some g) :
    (∃ inner, place = 0 :: inner ∧ f.isLeaf = false ∧ fieldAt? f inner = some g) ∨
      ∃ i inner, place = (i + 1) :: inner ∧ below? rest (i :: inner) = some g := by
  match place with
  | [] => cases h
  | (i + 1) :: inner => exact .inr ⟨i, inner, rfl, h⟩
  | 0 :: inner =>
      cases hleaf : f.isLeaf with
      | true => rw [below?_zero_leaf hleaf] at h; cases h
      | false => exact .inl ⟨inner, rfl, rfl, below?_zero hleaf ▸ h⟩

end Places

mutual

/-- The leaves below a field, depth first, each with the place of the selection that it stands
in. -/
def leafPlaces : Field → List (List Nat × Field)
  | ⟨_, _, _, _, selection⟩ => selectionPlaces selection

def selectionPlaces : List Field → List (List Nat × Field)
  | [] => []
  | f :: rest =>
    (if f.isLeaf then [([], f)] else (leafPlaces f).map (Prod.map (0 :: ·) id)) ++
      (selectionPlaces rest).map (Prod.map (List.modifyHead (· + 1)) id)

end

theorem leafPlaces_eq (f : Field) : leafPlaces f = selectionPlaces f.selection := by
  cases f
  rfl

mutual

/-- A leaf stands in the selection at its place. -/
theorem owner_of_mem_leafPlaces : (f : Field) → ∀ leaf ∈ leafPlaces f,
    leaf.2.isLeaf = true ∧ ∃ owner, fieldAt? f leaf.1 = some owner ∧ leaf.2 ∈ owner.selection
  | ⟨label, name, arguments, directives, selection⟩, leaf, hleaf => by
      obtain ⟨h, ⟨hplace, hmem⟩ | ⟨owner, howner, hmem⟩⟩ :=
        owner_of_mem_selectionPlaces selection leaf hleaf
      · exact ⟨h, _, congrArg _ hplace, hmem⟩
      · refine ⟨h, owner, ?_, hmem⟩
        rwa [fieldAt?_of_ne_nil fun hnil => by rw [hnil] at howner; cases howner]

theorem owner_of_mem_selectionPlaces : (fields : List Field) → ∀ leaf ∈ selectionPlaces fields,
    leaf.2.isLeaf = true ∧ ((leaf.1 = [] ∧ leaf.2 ∈ fields) ∨
      ∃ owner, below? fields leaf.1 = some owner ∧ leaf.2 ∈ owner.selection)
  | [], _, hleaf => by cases hleaf
  | f :: rest, leaf, hleaf => by
      rw [selectionPlaces] at hleaf
      rcases List.mem_append.mp hleaf with hfirst | hothers
      · split_ifs at hfirst with hf
        · obtain rfl := List.mem_singleton.mp hfirst
          exact ⟨hf, .inl ⟨rfl, List.mem_cons_self⟩⟩
        · obtain ⟨inner, hinner, rfl⟩ := List.mem_map.mp hfirst
          obtain ⟨h, owner, howner, hmem⟩ := owner_of_mem_leafPlaces f inner hinner
          exact ⟨h, .inr ⟨owner, by rwa [Prod.map_fst, below?_zero (by simpa using hf)], hmem⟩⟩
      · obtain ⟨⟨place, inner⟩, hinner, rfl⟩ := List.mem_map.mp hothers
        obtain ⟨h, ⟨hplace, hmem⟩ | ⟨owner, howner, hmem⟩⟩ :=
          owner_of_mem_selectionPlaces rest (place, inner) hinner
        · obtain rfl : place = [] := hplace
          exact ⟨h, .inl ⟨rfl, List.mem_cons_of_mem f hmem⟩⟩
        · cases place with
          | nil => cases howner
          | cons i rest => exact ⟨h, .inr ⟨owner, howner, hmem⟩⟩

end

/-- Of leaves with their places, those at a given one. -/
def leavesAt (place : List Nat) (leaves : List (List Nat × Field)) : List Field :=
  leaves.filterMap fun leaf => if leaf.1 = place then some leaf.2 else none

section LeavesAt
variable {place other : List Nat} {move : List Nat → List Nat} {leaves : List (List Nat × Field)}

theorem leavesAt_append (others : List (List Nat × Field)) :
    leavesAt place (leaves ++ others) = leavesAt place leaves ++ leavesAt place others :=
  List.filterMap_append

/-- Leaves that are moved stand where the place is moved to. -/
theorem leavesAt_map (h : ∀ leaf ∈ leaves, move leaf.1 = other ↔ leaf.1 = place) :
    leavesAt other (leaves.map (Prod.map move id)) = leavesAt place leaves := by
  rw [leavesAt, List.filterMap_map]
  refine List.filterMap_congr fun leaf hleaf => ?_
  simp only [Function.comp_apply, Prod.map_fst, h leaf hleaf, Prod.map_snd, id_eq]

theorem leavesAt_map_eq_nil (h : ∀ leaf ∈ leaves, move leaf.1 ≠ other) :
    leavesAt other (leaves.map (Prod.map move id)) = [] := by
  rw [leavesAt, List.filterMap_map, List.filterMap_eq_nil_iff]
  exact fun leaf hleaf => if_neg (h leaf hleaf)

theorem leavesAt_nil_selectionPlaces (fields : List Field) :
    leavesAt [] (selectionPlaces fields) = fields.filter (·.isLeaf) := by
  induction fields with
  | nil => rfl
  | cons f rest ih =>
      have hrest :
        leavesAt [] ((selectionPlaces rest).map (Prod.map (List.modifyHead (· + 1)) id)) =
          leavesAt [] (selectionPlaces rest) := leavesAt_map fun leaf _ => by cases leaf.1 <;> simp
      rw [selectionPlaces, leavesAt_append, hrest, ih, List.filter_cons]
      split_ifs with hleaf
      · rfl
      · rw [leavesAt_map_eq_nil fun leaf _ => List.cons_ne_nil 0 leaf.1, List.nil_append]

end LeavesAt

mutual

/-- At the place of a field stand the leaves of its selection. -/
theorem leavesAt_leafPlaces {g : Field} {place : List Nat} :
    (f : Field) → fieldAt? f place = some g →
    leavesAt place (leafPlaces f) = g.selection.filter (·.isLeaf)
  | ⟨label, name, arguments, directives, selection⟩, h => by
      rw [leafPlaces_eq]
      cases place with
      | nil =>
          obtain rfl := Option.some.inj h
          exact leavesAt_nil_selectionPlaces selection
      | cons i inner => exact leavesAt_selectionPlaces selection h

theorem leavesAt_selectionPlaces {g : Field} {place : List Nat} : (fields : List Field) →
    below? fields place = some g → leavesAt place (selectionPlaces fields) =
      g.selection.filter (·.isLeaf)
  | [], h => by simp at h
  | f :: rest, h => by
      rw [selectionPlaces, leavesAt_append]
      obtain ⟨inner, rfl, hleaf, hg⟩ | ⟨i, inner, rfl, hg⟩ := below?_cons_cases h
      · have hothers : leavesAt (0 :: inner)
            ((selectionPlaces rest).map (Prod.map (List.modifyHead (· + 1)) id)) = [] :=
          leavesAt_map_eq_nil fun leaf _ => by cases leaf.1 <;> simp
        rw [hothers, List.append_nil, if_neg (by simp [hleaf]),
          leavesAt_map fun leaf _ => List.cons_inj_right 0]
        exact leavesAt_leafPlaces f hg
      · have hfirst : leavesAt ((i + 1) :: inner)
            (if f.isLeaf then [([], f)] else (leafPlaces f).map (Prod.map (0 :: ·) id)) = [] := by
          split_ifs
          · rfl
          · exact leavesAt_map_eq_nil fun leaf _ => by simp
        have hothers : leavesAt ((i + 1) :: inner)
            ((selectionPlaces rest).map (Prod.map (List.modifyHead (· + 1)) id)) =
              leavesAt (i :: inner) (selectionPlaces rest) :=
          leavesAt_map fun leaf _ => by cases leaf.1 <;> simp
        rw [hfirst, hothers, List.nil_append]
        exact leavesAt_selectionPlaces rest hg

end

mutual

/-- The members of every selection of a field have distinct names, to any depth. -/
theorem hasDistinctNames_iff_forall : (f : Field) → (hasDistinctNames f = true ↔
    ∀ place g, fieldAt? f place = some g → (g.selection.map (·.outputName)).Nodup)
  | ⟨label, name, arguments, directives, selection⟩ => by
      rw [hasDistinctNames_iff, haveDistinctNames_iff_forall]
      constructor
      · rintro ⟨hroot, hbelow⟩ place g hg
        cases place with
        | nil =>
            obtain rfl := Option.some.inj hg
            exact hroot
        | cons i inner => exact hbelow (i :: inner) g hg
      · refine fun h => ⟨h [] _ rfl, fun place g hg => h place g ?_⟩
        rwa [fieldAt?_of_ne_nil fun hnil => by rw [hnil] at hg; cases hg]

theorem haveDistinctNames_iff_forall : (fields : List Field) → (haveDistinctNames fields = true ↔
    ∀ place g, below? fields place = some g → (g.selection.map (·.outputName)).Nodup)
  | [] => by simp [haveDistinctNames]
  | f :: rest => by
      rw [haveDistinctNames, Bool.and_eq_true, hasDistinctNames_iff_forall f,
        haveDistinctNames_iff_forall rest]
      constructor
      · rintro ⟨hfirst, hothers⟩ place g hg
        obtain ⟨inner, rfl, _, hg⟩ | ⟨i, inner, rfl, hg⟩ := below?_cons_cases hg
        · exact hfirst inner g hg
        · exact hothers (i :: inner) g hg
      · refine fun h => ⟨fun place g hg => ?_, fun place g hg => ?_⟩
        · cases hleaf : f.isLeaf with
          | false => exact h (0 :: place) g (below?_zero hleaf ▸ hg)
          | true =>
              -- A leaf has no selection, so the only place in it is its own.
              have hnone : f.selection = [] := List.isEmpty_iff.mp hleaf
              cases place with
              | nil =>
                  obtain rfl := Option.some.inj hg
                  simp [hnone]
              | cons i inner => simp [fieldAt?, hnone, nestedField?] at hg
        · cases place with
          | nil => cases hg
          | cons i inner => exact h ((i + 1) :: inner) g hg

end

/-- The members of a selection, as the slot at its place lists them. -/
def entriesAt (number : List Nat → Nat) (place : List Nat) (fields : List Field) : List SlotEntry :=
  fields.mapIdx fun i f => if f.isLeaf then .field f.outputName else .child (number (place ++ [i]))

/-- The slot of the field at a place, where places are numbered in a given way. -/
def slotAt (number : List Nat → Nat) (place : List Nat) (f : Field) : Slot where
  table := Name.internal f.name
  outputName := f.outputName
  nested := !place.isEmpty
  parent := if place = [] then none else some (number place.dropLast)
  entries := entriesAt number place f.selection

/-- The numbers of the places below a selection, from those below its first field and those of the
others. -/
def numberCons (first others : List Nat → Nat) : List Nat → Nat
  | [] => others []
  | 0 :: place => first place
  | (i + 1) :: place => others (i :: place)

section Numbers
variable (first others : List Nat → Nat) (f : Field) (rest : List Field)

theorem entriesAt_leaf (h : f.isLeaf = true) : entriesAt (numberCons first others) [] (f :: rest) =
    .field f.outputName :: entriesAt others [] rest := by
  simp [entriesAt, List.mapIdx_cons, h, numberCons]

theorem entriesAt_nested (h : f.isLeaf = false) :
    entriesAt (numberCons first others) [] (f :: rest) =
    .child (first []) :: entriesAt others [] rest := by
  simp [entriesAt, List.mapIdx_cons, h, numberCons]

theorem slotAt_first : slotAt (numberCons first others) [0] f =
    ⟨Name.internal f.name, f.outputName, true, some (others []),
      entriesAt first [] f.selection⟩ := by
  simp [slotAt, entriesAt, numberCons]

theorem slotAt_inner {place : List Nat} (h : place ≠ []) :
    slotAt (numberCons first others) (0 :: place) f = slotAt first place f := by
  simp [slotAt, entriesAt, numberCons, h, List.dropLast_cons_of_ne_nil h]

theorem slotAt_succ (i : Nat) (place : List Nat) :
    slotAt (numberCons first others) ((i + 1) :: place) f = slotAt others (i :: place) f := by
  cases place <;> simp [slotAt, entriesAt, numberCons]

end Numbers

namespace Compiler

variable {c : Compiler} {vars : Variables}

/-- The table of the selection at a place below a selection of a table. -/
def tableAt? (table : String) (fields : List Field) (place : List Nat) : Option String :=
  if place = [] then some table else (below? fields place).map (Name.internal ·.name)

/-- A column is what a leaf was compiled to for the slot of its selection. -/
def ColumnAt (c : Compiler) (vars : Variables) (table : String) (level : Nat) (fields : List Field)
    (number : List Nat → Nat) (leaf : List Nat × Field) (column : SelectColumn) : Prop :=
  ∃ t, tableAt? table fields leaf.1 = some t ∧
    c.leafColumn vars leaf.2 t (level + leaf.1.length) (number leaf.1) = .ok column

/-- What a walk over a selection in the slot `number []` of a level made of its places: every place
has a new slot, no two places of a level have the same, and there are no other new ones. -/
structure Mirrors (c : Compiler) (vars : Variables) (table : String) (level : Nat) (w : Walk)
    (fields : List Field) (w' : Walk) (number : List Nat → Nat) : Prop where
  slots : ∀ place g, below? fields place = some g →
    w'.slots.get? (level + place.length) (number place) = some (slotAt number place g)
  fresh : ∀ place g, below? fields place = some g →
    (w.slots.level (level + place.length)).length ≤ number place
  onto : ∀ l n, (w.slots.level l).length ≤ n → n < (w'.slots.level l).length →
    ∃ place g, below? fields place = some g ∧ level + place.length = l ∧ number place = n
  injective : ∀ place g other g', below? fields place = some g → below? fields other = some g' →
    place.length = other.length → number place = number other → place = other
  entries : ∀ here, w.slots.get? level (number []) = some here →
    w'.slots.get? level (number []) =
      some { here with entries := here.entries ++ entriesAt number [] fields }
  columns : ∃ columns, w'.columns = w.columns ++ columns ∧
    List.Forall₂ (ColumnAt c vars table level fields number) (selectionPlaces fields) columns

theorem length_level_withSlot (w : Walk) (level slot l : Nat) (f : Field) :
    ((w.withSlot level slot f).slots.level l).length =
      (w.slots.level l).length + if l = level + 1 then 1 else 0 := by
  rw [Walk.withSlot, Slots.length_level_addEntry, Slots.length_level_add]

theorem Walks.length_level_le {table : String} {level slot : Nat} {w w' : Walk}
    {fields : List Field} (h : Walks c vars table level slot w fields w') (l : Nat) :
    (w.slots.level l).length ≤ (w'.slots.level l).length := by
  induction h with
  | nil => exact Nat.le_refl _
  | leaf _ _ _ _ ih => simpa [Walk.withLeaf] using ih
  | nested _ _ _ hjoin _ _ _ ihbelow ih =>
      refine Nat.le_trans ?_ (Nat.le_trans ihbelow ih)
      rw [Walk.withClauses, slots_addJoin hjoin, length_level_withSlot]
      exact Nat.le_add_right _ _

section Step
variable {table : String} {level : Nat} {w w' : Walk} {f : Field} {rest : List Field}
  {first others : List Nat → Nat}

theorem mirrors_nil (c : Compiler) (vars : Variables) (table : String) (level slot : Nat)
    (w : Walk) : Mirrors c vars table level w [] w fun _ => slot where
  slots := by simp
  fresh := by simp
  onto := fun l n hle hlt => absurd hlt (Nat.not_lt.mpr hle)
  injective := by simp
  entries := by simp [entriesAt]
  columns := ⟨[], by simp, .nil⟩

theorem ColumnAt.succ {leaf : List Nat × Field} {column : SelectColumn}
    (h : ColumnAt c vars table level rest others leaf column) :
    ColumnAt c vars table level (f :: rest) (numberCons first others)
      (Prod.map (List.modifyHead (· + 1)) id leaf) column := by
  obtain ⟨place, leaf⟩ := leaf
  cases place with
  | nil => exact h
  | cons i inner => exact h

theorem columnsAt_succ {columns : List SelectColumn}
    (h : List.Forall₂ (ColumnAt c vars table level rest others) (selectionPlaces rest) columns) :
    List.Forall₂ (ColumnAt c vars table level (f :: rest) (numberCons first others))
      ((selectionPlaces rest).map (Prod.map (List.modifyHead (· + 1)) id)) columns :=
  List.forall₂_map_left_iff.mpr (h.imp fun _ _ => ColumnAt.succ)

/-- A place below the other fields of a selection, as a place below the whole selection. -/
theorem exists_succ {place : List Nat} {g : Field} (h : below? rest place = some g) :
    ∃ i inner, place = i :: inner ∧ below? (f :: rest) ((i + 1) :: inner) = some g := by
  cases place with
  | nil => cases h
  | cons i inner => exact ⟨i, inner, rfl, h⟩

theorem Mirrors.leaf {column : SelectColumn} (hleaf : f.isLeaf = true)
    (hcolumn : c.leafColumn vars f table level (others []) = .ok column)
    (h : Mirrors c vars table level (w.withLeaf level (others []) f column) rest w' others) :
    Mirrors c vars table level w (f :: rest) w' (numberCons (fun _ => 0) others) := by
  have hlengths : ∀ l, ((w.withLeaf level (others []) f column).slots.level l).length =
      (w.slots.level l).length := by simp [Walk.withLeaf]
  have hcases : ∀ {place g}, below? (f :: rest) place = some g →
      ∃ i inner, place = (i + 1) :: inner ∧ below? rest (i :: inner) = some g := by
    intro place g hg
    obtain ⟨_, _, hnested, _⟩ | hsucc := below?_cons_cases hg
    · rw [hleaf] at hnested; cases hnested
    · exact hsucc
  constructor
  · intro place g hg
    obtain ⟨i, inner, rfl, hg⟩ := hcases hg
    rw [slotAt_succ]
    exact h.slots (i :: inner) g hg
  · intro place g hg
    obtain ⟨i, inner, rfl, hg⟩ := hcases hg
    exact hlengths _ ▸ h.fresh (i :: inner) g hg
  · intro l n hle hlt
    obtain ⟨place, g, hg, hlevel, hnumber⟩ := h.onto l n ((hlengths l).symm ▸ hle) hlt
    obtain ⟨i, inner, rfl, hg⟩ := exists_succ (f := f) hg
    exact ⟨(i + 1) :: inner, g, hg, hlevel, hnumber⟩
  · intro place g other g' hg hg' hlength hnumber
    obtain ⟨i, inner, rfl, hg⟩ := hcases hg
    obtain ⟨i', inner', rfl, hg'⟩ := hcases hg'
    have heq := h.injective (i :: inner) g (i' :: inner') g' hg hg' hlength hnumber
    simpa using heq
  · intro here hget
    rw [entriesAt_leaf _ _ _ _ hleaf, List.append_cons]
    exact h.entries _ (get?_withLeaf hget f column)
  · obtain ⟨columns, hcolumns, hleaves⟩ := h.columns
    refine ⟨column :: columns, by simpa [Walk.withLeaf] using hcolumns, ?_⟩
    rw [selectionPlaces, if_pos hleaf]
    exact .cons ⟨table, rfl, hcolumn⟩ (columnsAt_succ hleaves)

-- A nested field gets the next slot of the level below, and its selection is walked in that slot.
section Inner
variable {start below : Walk}

theorem nested_slots (hstart : start.slots = (w.withSlot level (others []) f).slots)
    (hfirst : first [] = w.nextSlot level)
    (h : Mirrors c vars (Name.internal f.name) (level + 1) start f.selection below first)
    {place : List Nat} {g : Field} (hg : fieldAt? f place = some g) :
    below.slots.get? (level + 1 + place.length) (first place) =
      some (slotAt (numberCons first others) (0 :: place) g) := by
  cases place with
  | nil =>
      obtain rfl := Option.some.inj hg
      have hnew : start.slots.get? (level + 1) (first []) =
          some ⟨Name.internal f.name, f.outputName, true, some (others []), []⟩ :=
        hfirst ▸ hstart ▸ get?_withSlot_nextSlot w level (others []) f
      rw [slotAt_first]
      exact h.entries _ hnew
  | cons i inner =>
      rw [slotAt_inner _ _ _ (List.cons_ne_nil i inner)]
      exact h.slots (i :: inner) g hg

theorem nested_fresh (hstart : start.slots = (w.withSlot level (others []) f).slots)
    (hfirst : first [] = w.nextSlot level)
    (h : Mirrors c vars (Name.internal f.name) (level + 1) start f.selection below first)
    {place : List Nat} {g : Field} (hg : fieldAt? f place = some g) :
    (w.slots.level (level + 1 + place.length)).length ≤ first place := by
  cases place with
  | nil => exact hfirst ▸ Nat.le_refl _
  | cons i inner =>
      have hle := h.fresh (i :: inner) g hg
      rw [hstart, length_level_withSlot] at hle
      omega

theorem nested_onto (hstart : start.slots = (w.withSlot level (others []) f).slots)
    (hfirst : first [] = w.nextSlot level)
    (h : Mirrors c vars (Name.internal f.name) (level + 1) start f.selection below first)
    {l n : Nat} (hle : (w.slots.level l).length ≤ n) (hlt : n < (below.slots.level l).length) :
    ∃ place g, fieldAt? f place = some g ∧ level + 1 + place.length = l ∧ first place = n := by
  have hlength := length_level_withSlot w level (others []) l f
  rw [← hstart] at hlength
  rcases Nat.lt_or_ge n (start.slots.level l).length with hnew | hold
  · by_cases hl : l = level + 1
    · subst hl
      rw [if_pos rfl] at hlength
      refine ⟨[], f, rfl, rfl, ?_⟩
      rw [hfirst, Walk.nextSlot]
      omega
    · rw [if_neg hl] at hlength
      omega
  · obtain ⟨place, g, hg, hlevel, hnumber⟩ := h.onto l n hold hlt
    cases place with
    | nil => cases hg
    | cons i inner => exact ⟨i :: inner, g, hg, hlevel, hnumber⟩

theorem nested_injective (h : Mirrors c vars table level start f.selection below first)
    {place other : List Nat} {g g' : Field} (hg : fieldAt? f place = some g)
    (hg' : fieldAt? f other = some g') (hlength : place.length = other.length)
    (hnumber : first place = first other) : place = other := by
  match place, other with
  | [], [] => rfl
  | i :: inner, j :: inner' =>
      exact h.injective (i :: inner) g (j :: inner') g' hg hg' hlength hnumber

/-- The numbers of a later walk are above those of the nested field. -/
theorem nested_ne (hstart : start.slots = (w.withSlot level (others []) f).slots)
    (hfirst : first [] = w.nextSlot level)
    (hinner : Mirrors c vars (Name.internal f.name) (level + 1) start f.selection below first)
    (h : Mirrors c vars table level below rest w' others) {i : Nat} {inner inner' : List Nat}
    {g g' : Field} (hg : fieldAt? f inner = some g) (hg' : below? rest (i :: inner') = some g')
    (hlength : inner.length = inner'.length) : first inner ≠ others (i :: inner') := by
  intro hnumber
  have hlt := Slots.lt_of_get? (nested_slots hstart hfirst hinner hg)
  have hle := h.fresh (i :: inner') g' hg'
  have hlevel : level + (i :: inner').length = level + 1 + inner.length := by
    rw [List.length_cons]
    omega
  rw [hlevel, ← hnumber] at hle
  omega

theorem nested_entries (hstart : start.slots = (w.withSlot level (others []) f).slots)
    (hfirst : first [] = w.nextSlot level)
    (hwalk : Walks c vars (Name.internal f.name) (level + 1) (w.nextSlot level)
      start f.selection below)
    {here : Slot} (hget : w.slots.get? level (others []) = some here) :
    below.slots.get? level (others []) =
      some { here with entries := here.entries ++ [.child (first [])] } := by
  refine hwalk.extends level _ _ (fun heq => absurd heq (by omega)) ?_
  rw [hstart, hfirst]
  exact get?_withSlot hget f

theorem ColumnAt.zero (hleaf : f.isLeaf = false) {leaf : List Nat × Field} {column : SelectColumn}
    (h : ColumnAt c vars (Name.internal f.name) (level + 1) f.selection first leaf column) :
    ColumnAt c vars table level (f :: rest) (numberCons first others)
      (Prod.map (0 :: ·) id leaf) column := by
  obtain ⟨place, leaf⟩ := leaf
  obtain ⟨t, ht, hcolumn⟩ := h
  refine ⟨t, ?_, ?_⟩
  · rw [tableAt?, Prod.map_fst, if_neg (List.cons_ne_nil 0 place),
      below?_zero hleaf, ← ht, tableAt?]
    split_ifs with hplace
    · rw [hplace]; rfl
    · rw [fieldAt?_of_ne_nil hplace]
  · have hlevel : level + (0 :: place).length = level + 1 + place.length := by
      rw [List.length_cons]; omega
    rw [← hcolumn]
    exact congrArg (c.leafColumn vars leaf t · (first place)) hlevel

/-- A walk over a nested field and then the others of its selection. What the first part placed
stays, and the numbers of the second part are above all of those. -/
theorem Mirrors.nested {slot : Nat} (hslot : others [] = slot) (hleaf : f.isLeaf = false)
    (hstart : start.slots = (w.withSlot level slot f).slots) (hcolumns : start.columns = w.columns)
    (hfirst : first [] = w.nextSlot level)
    (hwalk : Walks c vars (Name.internal f.name) (level + 1) (w.nextSlot level)
      start f.selection below)
    (hinner : Mirrors c vars (Name.internal f.name) (level + 1) start f.selection below first)
    (hrest : Walks c vars table level slot below rest w')
    (h : Mirrors c vars table level below rest w' others) :
    Mirrors c vars table level w (f :: rest) w' (numberCons first others) := by
  subst hslot
  have hlevel : ∀ inner : List Nat, level + (0 :: inner).length = level + 1 + inner.length := by
    intro inner
    rw [List.length_cons]
    omega
  have hgrows : ∀ l, (w.slots.level l).length ≤ (below.slots.level l).length := by
    intro l
    refine Nat.le_trans ?_ (hwalk.length_level_le l)
    rw [hstart, length_level_withSlot]
    exact Nat.le_add_right _ _
  constructor
  · intro place g hg
    obtain ⟨inner, rfl, _, hg⟩ | ⟨i, inner, rfl, hg⟩ := below?_cons_cases hg
    · rw [hlevel]
      exact hrest.extends _ _ _ (fun heq => absurd heq (by omega))
        (nested_slots hstart hfirst hinner hg)
    · rw [slotAt_succ]
      exact h.slots (i :: inner) g hg
  · intro place g hg
    obtain ⟨inner, rfl, _, hg⟩ | ⟨i, inner, rfl, hg⟩ := below?_cons_cases hg
    · rw [hlevel]
      exact nested_fresh hstart hfirst hinner hg
    · exact Nat.le_trans (hgrows _) (h.fresh (i :: inner) g hg)
  · intro l n hle hlt
    rcases Nat.lt_or_ge n (below.slots.level l).length with hin | hout
    · obtain ⟨inner, g, hg, hl, hnumber⟩ := nested_onto hstart hfirst hinner hle hin
      exact ⟨0 :: inner, g, below?_zero hleaf ▸ hg, hlevel inner ▸ hl, hnumber⟩
    · obtain ⟨place, g, hg, hl, hnumber⟩ := h.onto l n hout hlt
      obtain ⟨i, inner, rfl, hg⟩ := exists_succ (f := f) hg
      exact ⟨(i + 1) :: inner, g, hg, hl, hnumber⟩
  · intro place g other g' hg hg' hlength hnumber
    obtain ⟨inner, rfl, _, hg⟩ | ⟨i, inner, rfl, hg⟩ := below?_cons_cases hg <;>
      obtain ⟨inner', rfl, _, hg'⟩ | ⟨i', inner', rfl, hg'⟩ := below?_cons_cases hg'
    · rw [nested_injective hinner hg hg' (Nat.succ.inj hlength) hnumber]
    · exact absurd hnumber (nested_ne hstart hfirst hinner h hg hg' (Nat.succ.inj hlength))
    · exact absurd hnumber.symm
        (nested_ne hstart hfirst hinner h hg' hg (Nat.succ.inj hlength.symm))
    · have heq := h.injective (i :: inner) g (i' :: inner') g' hg hg' hlength hnumber
      simpa using heq
  · intro here hget
    rw [entriesAt_nested _ _ _ _ hleaf, List.append_cons]
    exact h.entries _ (nested_entries hstart hfirst hwalk hget)
  · obtain ⟨inside, hinside, hplaced⟩ := hinner.columns
    obtain ⟨after, hafter, hothers⟩ := h.columns
    refine ⟨inside ++ after, by rw [hafter, hinside, hcolumns, List.append_assoc], ?_⟩
    rw [selectionPlaces, if_neg (by simp [hleaf]), leafPlaces_eq]
    refine List.rel_append ?_ (columnsAt_succ hothers)
    exact List.forall₂_map_left_iff.mpr (hplaced.imp fun _ _ => ColumnAt.zero hleaf)

end Inner

end Step

/-- Every walk over a selection mirrors it. -/
theorem Walks.mirrors {table : String} {level slot : Nat} {w w' : Walk} {fields : List Field}
    (h : Walks c vars table level slot w fields w') :
    ∃ number : List Nat → Nat, number [] = slot ∧
    Mirrors c vars table level w fields w' number := by
  induction h with
  | nil => exact ⟨_, rfl, mirrors_nil ..⟩
  | leaf hleaf _ hcolumn _ ih =>
      obtain ⟨others, rfl, hothers⟩ := ih
      exact ⟨numberCons (fun _ => 0) others, rfl, hothers.leaf hleaf hcolumn⟩
  | @nested _ level slot w f _ joined filters orderBy _ _ hleaf _ _ hjoin _ hbelow hrest
      ihbelow ih =>
      obtain ⟨first, hfirst, hinner⟩ := ihbelow
      obtain ⟨others, hslot, hothers⟩ := ih
      have hslots :
      (joined.withClauses filters orderBy).slots = (w.withSlot level slot f).slots := by
        rw [Walk.withClauses, slots_addJoin hjoin]
      have hcolumns : (joined.withClauses filters orderBy).columns = w.columns := by
        rw [Walk.withClauses, columns_addJoin hjoin, Walk.withSlot]
      exact ⟨numberCons first others, hslot,
        .nested hslot hleaf hslots hcolumns hfirst hbelow hinner hrest hothers⟩

section Linked
variable {f g : Field} {fields : List Field} {place : List Nat}
  {number : List Nat → Nat} {i n : Nat}

theorem fieldAt?_concat :
    fieldAt? f (place ++ [i]) = (fieldAt? f place).bind (nestedField? ·.selection i) := by
  induction place generalizing f with
  | nil => simp [fieldAt?]
  | cons j inner ih =>
      rw [List.cons_append, fieldAt?, fieldAt?, Option.bind_assoc]
      exact congrArg _ (funext fun _ => ih)

theorem fieldAt?_member {inner : Field} (hg : fieldAt? f place = some g)
    (hinner : g.selection[i]? = some inner) (hleaf : inner.isLeaf = false) :
    fieldAt? f (place ++ [i]) = some inner := by
  rw [fieldAt?_concat, hg, Option.bind_some, nestedField?, hinner, Option.filter_some, hleaf]
  rfl

theorem entriesAt_child :
    (entriesAt number place fields)[i]? = some (.child n) ↔
      (nestedField? fields i).isSome ∧ number (place ++ [i]) = n := by
  rw [entriesAt, List.getElem?_mapIdx, nestedField?]
  cases hg : fields[i]? with
  | none => simp
  | some g => cases hleaf : g.isLeaf <;> simp [Option.filter, hleaf]

end Linked

/-- Numbers of the places of a field under which every place has a slot of its own, and every slot a
place. -/
structure Numbering (f : Field) (s : Slots) (number : List Nat → Nat) : Prop where
  slots : ∀ place g, fieldAt? f place = some g →
    s.get? place.length (number place) = some (slotAt number place g)
  onto : ∀ l n, n < (s.level l).length →
    ∃ place g, fieldAt? f place = some g ∧ place.length = l ∧ number place = n
  injective : ∀ place g other g', fieldAt? f place = some g → fieldAt? f other = some g' →
    place.length = other.length → number place = number other → place = other

section Numbering
variable {f : Field} {s : Slots} {number : List Nat → Nat} (h : Numbering f s number)

include h

theorem Numbering.bijOn : Set.BijOn (fun place => (place.length, number place))
    {place | (fieldAt? f place).isSome} {address | (s.get? address.1 address.2).isSome} := by
  refine ⟨fun place hplace => ?_, fun place hplace other hother heq => ?_,
    fun ⟨l, n⟩ haddress => ?_⟩
  · obtain ⟨g, hg⟩ := Option.isSome_iff_exists.mp hplace
    exact Option.isSome_iff_exists.mpr ⟨_, h.slots place g hg⟩
  · obtain ⟨g, hg⟩ := Option.isSome_iff_exists.mp hplace
    obtain ⟨g', hg'⟩ := Option.isSome_iff_exists.mp hother
    obtain ⟨hlength, hnumber⟩ := Prod.mk.inj heq
    exact h.injective place g other g' hg hg' hlength hnumber
  · obtain ⟨here, hhere⟩ := Option.isSome_iff_exists.mp haddress
    obtain ⟨place, g, hg, rfl, rfl⟩ := h.onto l n (Slots.lt_of_get? hhere)
    exact ⟨place, Option.isSome_iff_exists.mpr ⟨g, hg⟩, rfl⟩

theorem Numbering.exists_place {l n : Nat} {here : Slot} (hget : s.get? l n = some here) :
    ∃ place g, fieldAt? f place = some g ∧ place.length = l ∧ number place = n ∧
      here = slotAt number place g := by
  obtain ⟨place, g, hg, rfl, rfl⟩ := h.onto l n (Slots.lt_of_get? hget)
  exact ⟨place, g, hg, rfl, rfl, Option.some.inj (hget.symm.trans (h.slots place g hg))⟩

/-- Above the root level, every slot is named by its parent alone, and there once. -/
theorem Numbering.linked {level n : Nat} {here : Slot} (hhere : s.get? (level + 1) n = some here) :
    here.nested = true ∧ ∃ parent i : Nat, here.parent = some parent ∧
      ∀ m j, (∃ other, s.get? level m = some other ∧
        other.entries[j]? = some (SlotEntry.child n)) ↔ m = parent ∧ j = i := by
  obtain ⟨place, g, hg, hlength, hnumber, rfl⟩ := h.exists_place hhere
  have hne : place ≠ [] := List.ne_nil_of_length_eq_add_one hlength
  obtain ⟨above, i, rfl⟩ : ∃ above i, place = above ++ [i] :=
    ⟨_, _, (List.dropLast_concat_getLast hne).symm⟩
  have habove : above.length = level := by simpa using hlength
  obtain ⟨owner, howner, hnested⟩ := Option.bind_eq_some_iff.mp (fieldAt?_concat ▸ hg)
  refine ⟨by simp [slotAt], number above, i, by simp [slotAt], fun m j => ⟨?_, ?_⟩⟩
  · rintro ⟨other, hother, hentry⟩
    obtain ⟨place', g', hg', hlength', rfl, rfl⟩ := h.exists_place hother
    obtain ⟨hsome, hj⟩ := entriesAt_child.mp hentry
    obtain ⟨inner, hinner⟩ := Option.isSome_iff_exists.mp hsome
    have hfield : fieldAt? f (place' ++ [j]) = some inner := by
      rw [fieldAt?_concat, hg']
      exact hinner
    have heq :=
      h.injective _ inner _ g hfield hg (by simp [hlength', habove]) (hj.trans hnumber.symm)
    obtain ⟨rfl, hlast⟩ := List.append_inj' heq rfl
    exact ⟨rfl, List.singleton_inj.mp hlast⟩
  · rintro ⟨rfl, rfl⟩
    refine ⟨slotAt number above owner, habove ▸ h.slots above owner howner, ?_⟩
    exact entriesAt_child.mpr ⟨Option.isSome_iff_exists.mpr ⟨g, hnested⟩, hnumber⟩

end Numbering

/-- The walk over the selection of a field numbers its places, the root being there from the
start. -/
theorem Mirrors.numbering {f : Field} {w : Walk} {number : List Nat → Nat}
    {filters orderBy : List String} (hslot : number [] = 0)
    (h : Mirrors c vars (Name.internal f.name) 0
      ((startWalk f (Name.internal f.name)).withClauses filters orderBy) f.selection w number) :
    Numbering f w.slots number := by
  have hlength :
    ∀ l, (((startWalk f (Name.internal f.name)).withClauses filters orderBy).slots.level
      l).length = if l = 0 then 1 else 0 := by
    intro l
    have hempty : (Slots.empty.level l).length = 0 := by simp [Slots.level, Slots.empty]
    rw [Walk.withClauses, startWalk, Slots.length_level_add, hempty, Nat.zero_add]
  constructor
  · intro place g hg
    cases place with
    | nil =>
        obtain rfl := Option.some.inj hg
        have hroot :=
          h.entries ⟨Name.internal f.name, f.outputName, false, none, []⟩ (by rw [hslot]; rfl)
        simpa [slotAt, hslot] using hroot
    | cons i inner => simpa using h.slots (i :: inner) g hg
  · intro l n hn
    by_cases hl : (if l = 0 then 1 else 0) ≤ n
    · obtain ⟨place, g, hg, hlevel, hnumber⟩ := h.onto l n ((hlength l).symm ▸ hl) hn
      cases place with
      | nil => cases hg
      | cons i inner => exact ⟨i :: inner, g, hg, by simpa using hlevel, hnumber⟩
    · split_ifs at hl with hzero
      · exact ⟨[], f, rfl, hzero.symm, by omega⟩
      · omega
  · intro place g other g' hg hg' hlen hnumber
    exact nested_injective h hg hg' hlen hnumber

/-- A column stands for a column of a table: it is that one, or an aggregate of it. -/
def Names (c : Compiler) (table name : String) (column : SelectColumn) : Prop :=
  (c.schema.column? table name).isSome ∧
    (column.expression = table ++ "." ++ name ∨
      ∃ aggregate ∈ aggregates, column.expression = aggregate ++ "(" ++
        (table ++ "." ++ name) ++ ")" ∨
        column.expression = aggregate ++ "(" ++
          ("distinct" ++ " " ++ (table ++ "." ++ name)) ++ ")")

/-- A column is labelled with the slot of the selection that its leaf stands in. Without a
calculation it stands for a column of the table of that slot. -/
structure IsColumnAt (c : Compiler) (vars : Variables) (f : Field) (number : List Nat → Nat)
    (leaf : List Nat × Field) (column : SelectColumn) : Prop where
  label : column.label = ⟨leaf.1.length, number leaf.1, leaf.2.outputName⟩
  owner : ∃ owner, fieldAt? f leaf.1 = some owner ∧ leaf.2 ∈ owner.selection ∧
    leaf.2.isLeaf = true ∧
    (leaf.2.resolved vars "calc" = none → Names c (Name.internal owner.name) leaf.2.name column)

/-- The label of the column for a leaf. -/
def labelAt (number : List Nat → Nat) (leaf : List Nat × Field) : Alias :=
  ⟨leaf.1.length, number leaf.1, leaf.2.outputName⟩

theorem labels_eq {f : Field} {number : List Nat → Nat} {leaves : List (List Nat × Field)}
    {columns : List SelectColumn} (h : List.Forall₂ (IsColumnAt c vars f number) leaves columns) :
    columns.map (·.label) = leaves.map (labelAt number) := by
  induction h with
  | nil => rfl
  | cons hfirst _ ih => rw [List.map_cons, List.map_cons, hfirst.label, ih, labelAt]

/-- Labels tell leaves apart by their places and their names. -/
theorem labelAt_inj {f : Field} {s : Slots} {number : List Nat → Nat} (h : Numbering f s number)
    {leaf other : List Nat × Field} (hleaf : leaf ∈ leafPlaces f) (hother : other ∈ leafPlaces f) :
    labelAt number leaf = labelAt number other ↔
      leaf.1 = other.1 ∧ leaf.2.outputName = other.2.outputName := by
  obtain ⟨_, owner, howner, _⟩ := owner_of_mem_leafPlaces f leaf hleaf
  obtain ⟨_, owner', howner', _⟩ := owner_of_mem_leafPlaces f other hother
  constructor
  · intro heq
    obtain ⟨hlength, hnumber, hname⟩ := Alias.mk.inj heq
    exact ⟨h.injective _ owner _ owner' howner howner' hlength hnumber, hname⟩
  · rintro ⟨hplace, hname⟩
    rw [labelAt, labelAt, hplace, hname]

/-- The slots of a compiled field are one to one with its places. -/
structure IsMirror (c : Compiler) (vars : Variables) (f : Field) (q : CompiledQuery)
    (number : List Nat → Nat) : Prop where
  bijOn : Set.BijOn (fun place => (place.length, number place)) {place | (fieldAt? f place).isSome}
    {address | (q.slots.get? address.1 address.2).isSome}
  slots : ∀ place g, fieldAt? f place = some g →
    q.slots.get? place.length (number place) = some (slotAt number place g)
  linked : ∀ level n here, q.slots.get? (level + 1) n = some here →
    here.nested = true ∧ ∃ parent i : Nat, here.parent = some parent ∧
      ∀ m j, (∃ other, q.slots.get? level m = some other ∧
        other.entries[j]? = some (SlotEntry.child n)) ↔ m = parent ∧ j = i
  columns : List.Forall₂ (IsColumnAt c vars f number) (leafPlaces f) q.columns

theorem tableAt?_of_fieldAt? {f owner : Field} {place : List Nat}
    (h : fieldAt? f place = some owner) :
    tableAt? (Name.internal f.name) f.selection place = some (Name.internal owner.name) := by
  rw [tableAt?]
  split_ifs with hplace
  · rw [hplace] at h
    rw [Option.some.inj h]
  · rw [← fieldAt?_of_ne_nil hplace, h, Option.map_some]

theorem ColumnAt.isColumnAt {f : Field} {number : List Nat → Nat} {leaf : List Nat × Field}
    {column : SelectColumn} (hleaf : leaf ∈ leafPlaces f)
    (h : ColumnAt c vars (Name.internal f.name) 0 f.selection number leaf column) :
    IsColumnAt c vars f number leaf column := by
  obtain ⟨hisLeaf, owner, howner, hmem⟩ := owner_of_mem_leafPlaces f leaf hleaf
  obtain ⟨t, ht, hcolumn⟩ := h
  obtain rfl : t = Name.internal owner.name :=
    Option.some.inj (ht.symm.trans (tableAt?_of_fieldAt? howner))
  obtain ⟨base, hbase, hlabel, hexpression⟩ := leafColumn_ok hcolumn
  refine ⟨by simpa using hlabel, owner, howner, hmem, hisLeaf, fun hcalc => ?_⟩
  obtain ⟨rfl, _, hfound⟩ := baseExpression_ok hcalc hbase
  exact ⟨hfound, hexpression⟩

/-- The places of a compiled field are numbered, and each of its columns stands at the place of its
leaf. -/
theorem exists_numbering_of_compileWith {limited : Bool} {f : Field} {q : CompiledQuery}
    (h : c.compileWith limited vars f = .ok q) : ∃ number, Numbering f q.slots number ∧
      List.Forall₂ (IsColumnAt c vars f number) (leafPlaces f) q.columns := by
  obtain ⟨filters, orderBy, w, hq⟩ := exists_compiled h
  have hwalks := hq.walks
  rw [hq.mainTable] at hwalks
  obtain ⟨number, hslot, hmirrors⟩ := hwalks.mirrors
  obtain ⟨columns, hcolumns, hleaves⟩ := hmirrors.columns
  refine ⟨number, hq.slots ▸ hmirrors.numbering hslot, ?_⟩
  have hall : w.columns = columns := hcolumns
  rw [hq.columns, hall, leafPlaces_eq]
  have hplaced := (List.forall₂_and_left _ _).mpr ⟨fun leaf hleaf => hleaf, hleaves⟩
  exact hplaced.imp fun leaf column ⟨hleaf, hcolumn⟩ => hcolumn.isColumnAt (leafPlaces_eq f ▸ hleaf)

/-- The slots of a compiled field mirror its selection: there is one for the root and one for each
nested field, on the level of its depth, that lists the members of its selection in order; each but
the root is named once, by its parent; and every column carries the slot of the selection in which
it was asked for. -/
theorem slots_mirror_selection {limited : Bool} {f : Field} {q : CompiledQuery}
    (h : c.compileWith limited vars f = .ok q) : ∃ number, IsMirror c vars f q number := by
  obtain ⟨number, hnumbering, hcolumns⟩ := exists_numbering_of_compileWith h
  exact ⟨number, hnumbering.bijOn, hnumbering.slots, fun _ _ _ => hnumbering.linked, hcolumns⟩

/-- Users with their orders asked for twice, and items below both: the items are on one level, under
two parents. -/
def userItems : Field :=
  Shop.nested "users" [Shop.leaf "name",
    Shop.nested "orders" [Shop.nested "items" [Shop.leaf "id"], Shop.leaf "total"],
    Shop.nested "orders" [Shop.nested "items" [Shop.leaf "order_id"]]]

theorem slots_mirror_userItems : ∃ q, Shop.compiler.compileWith true [] userItems = .ok q ∧
    ∃ number, IsMirror Shop.compiler [] userItems q number := by
  obtain ⟨q, hq⟩ :=
    exists_eq_ok (x := Shop.compiler.compileWith true [] userItems) (by decide +kernel)
  exact ⟨q, hq, slots_mirror_selection hq⟩

example : ((Shop.compiler.compile [] userItems).toOption.map fun q => q.columns.map (·.label)) =
    some [⟨0, 0, "name"⟩, ⟨2, 0, "id"⟩, ⟨1, 0, "total"⟩, ⟨2, 1, "order_id"⟩] := by decide +kernel

end Compiler

end SqlGateway.Query
