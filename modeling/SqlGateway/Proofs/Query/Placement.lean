import SqlGateway.Proofs.Query.SlotNumbers

/-!
# Where a selection is placed

The columns of a compiled field are its leaves, depth first, and its slots mirror its selections:
the entries of a slot are the fields of one selection in order, and an entry for a nested field
names the slot of the selection below it. A walk changes no slot that was there but its own, so what
it has placed stays in place.
-/
namespace SqlGateway.Query

open Request (Field Variables)

mutual

/-- The leaves of a field, depth first. -/
def leavesOf : Field → List Field
  | ⟨label, name, arguments, directives, selection⟩ =>
    if selection.isEmpty then [⟨label, name, arguments, directives, selection⟩]
    else selectionLeaves selection

def selectionLeaves : List Field → List Field
  | [] => []
  | f :: rest => leavesOf f ++ selectionLeaves rest

end

theorem leavesOf_leaf {f : Field} (h : f.isLeaf = true) : leavesOf f = [f] := by
  cases f
  exact if_pos h

theorem leavesOf_nested {f : Field} (h : f.isLeaf = false) :
    leavesOf f = selectionLeaves f.selection := by
  cases f
  exact if_neg ((Bool.not_eq_true _).mpr h)

mutual

/-- The fields of each selection below a field have output names of their own. -/
def hasDistinctNames : Field → Bool
  | ⟨_, _, _, _, selection⟩ =>
    decide (selection.map (·.outputName)).Nodup && haveDistinctNames selection

def haveDistinctNames : List Field → Bool
  | [] => true
  | f :: rest => hasDistinctNames f && haveDistinctNames rest

end

theorem hasDistinctNames_iff {f : Field} : hasDistinctNames f = true ↔
    (f.selection.map (·.outputName)).Nodup ∧ haveDistinctNames f.selection = true := by
  cases f
  simp [hasDistinctNames]

namespace Slots

/-- Slots with all those of other ones, but for one that may differ. -/
def Extends (level slot : Nat) (s s' : Slots) : Prop :=
  ∀ l n here, (l = level → n ≠ slot) → s.get? l n = some here → s'.get? l n = some here

variable {s s' s'' : Slots} {level slot : Nat}

theorem Extends.refl (level slot : Nat) (s : Slots) : Extends level slot s s := fun _ _ _ _ h => h

theorem Extends.trans (h : Extends level slot s s') (h' : Extends level slot s' s'') :
    Extends level slot s s'' :=
  fun l n here hne hget => h' l n here hne (h l n here hne hget)

theorem lt_of_get? {here : Slot} (h : s.get? level slot = some here) :
    slot < (s.level level).length := by
  rw [get?] at h
  exact (List.getElem?_eq_some_iff.mp h).1

theorem extends_addEntry (level slot : Nat) (s : Slots) (entry : SlotEntry) :
    Extends level slot s (s.addEntry level slot entry) := by
  intro l n here hne hget
  rw [get?_addEntry, if_neg (fun h => hne h.1 h.2)]
  exact hget

/-- A new slot has a number that no slot had. -/
theorem get?_add_of_some {here new : Slot} {l n : Nat} (h : s.get? l n = some here) :
    (s.add level new).get? l n = some here := by
  rw [get?_add level _ l n new rfl, if_neg ?_]
  · exact h
  · rintro ⟨rfl, rfl⟩
    exact Nat.lt_irrefl _ (lt_of_get? h)

end Slots

namespace Compiler

open Slots

variable {c : Compiler} {vars : Variables} {table : String} {level slot : Nat} {w w' : Walk}
  {fields : List Field} {f : Field}

theorem get?_withSlot_nextSlot (w : Walk) (level slot : Nat) (f : Field) :
    (w.withSlot level slot f).slots.get? (level + 1) (w.nextSlot level) =
      some ⟨Name.internal f.name, f.outputName, true, some slot, []⟩ := by
  rw [Walk.withSlot, get?_addEntry, if_neg (by omega), get?_add (level + 1) _ _ _ _ rfl,
    if_pos ⟨rfl, rfl⟩]

theorem get?_withSlot {here : Slot} (h : w.slots.get? level slot = some here) (f : Field) :
    (w.withSlot level slot f).slots.get? level slot =
      some { here with entries := here.entries ++ [.child (w.nextSlot level)] } := by
  rw [Walk.withSlot, get?_addEntry, if_pos ⟨rfl, rfl⟩, get?_add_of_some h, Option.map_some]

theorem get?_withLeaf {here : Slot} (h : w.slots.get? level slot = some here) (f : Field)
    (column : SelectColumn) : (w.withLeaf level slot f column).slots.get? level slot =
      some { here with entries := here.entries ++ [.field f.outputName] } := by
  rw [Walk.withLeaf, get?_addEntry, if_pos ⟨rfl, rfl⟩, h, Option.map_some]

theorem extends_withSlot (w : Walk) (level slot : Nat) (f : Field) :
    Extends level slot w.slots (w.withSlot level slot f).slots := by
  intro l n here hne hget
  exact extends_addEntry level slot _ _ l n here hne (get?_add_of_some hget)

/-- The slots of a walk are kept by the walk over a new slot. -/
theorem extends_below {joined below : Walk}
    (hjoined : joined.slots = (w.withSlot level slot f).slots)
    (h : Extends (level + 1) (w.nextSlot level) joined.slots below.slots) :
    Extends level slot w.slots below.slots := by
  intro l n here hne hget
  refine h l n here ?_ (hjoined ▸ extends_withSlot w level slot f l n here hne hget)
  rintro rfl rfl
  exact Nat.lt_irrefl _ (lt_of_get? hget)

theorem Walks.extends (h : Walks c vars table level slot w fields w') :
    Extends level slot w.slots w'.slots := by
  induction h with
  | nil => exact .refl _ _ _
  | leaf _ _ _ _ ih => exact (extends_addEntry _ _ _ _).trans ih
  | nested _ _ _ hjoin _ _ _ ihbelow ih =>
      exact (extends_below (slots_addJoin hjoin) ihbelow).trans ih

end Compiler

/-- The fields of a selection are placed in a slot: its entries are theirs, in order, the leaves
have their columns from a given one on, depth first, and each nested field has a slot of its own on
the level below, in which its selection is placed. -/
inductive Placed (s : Slots) (columns : List SelectColumn) :
    (level slot start : Nat) → List Field → List SlotEntry → Prop
  | nil {level slot start} : Placed s columns level slot start [] []
  | leaf {level slot start f rest entries column} :
      f.isLeaf = true → columns[start]? = some column → column.label = ⟨level, slot, f.outputName⟩ →
      Placed s columns level slot (start + 1) rest entries →
      Placed s columns level slot start (f :: rest) (.field f.outputName :: entries)
  | nested {level slot start f rest entries n child} :
      f.isLeaf = false → s.get? (level + 1) n = some child → child.outputName = f.outputName →
      Placed s columns (level + 1) n start f.selection child.entries →
      Placed s columns level slot (start + (leavesOf f).length) rest entries →
      Placed s columns level slot start (f :: rest) (.child n :: entries)

/-- What is placed stays, as long as the slots on the levels below stay. -/
theorem Placed.extend {s s' : Slots} {columns : List SelectColumn} {level slot start : Nat}
    {fields : List Field} {entries : List SlotEntry} (more : List SelectColumn)
    (h : Placed s columns level slot start fields entries)
    (hs : ∀ l n here, level < l → s.get? l n = some here → s'.get? l n = some here) :
    Placed s' (columns ++ more) level slot start fields entries := by
  induction h with
  | nil => exact .nil
  | leaf hleaf hcolumn hlabel _ ih =>
      refine .leaf hleaf ?_ hlabel (ih hs)
      rw [List.getElem?_append_left (List.getElem?_eq_some_iff.mp hcolumn).1]
      exact hcolumn
  | nested hleaf hchild hname _ _ ihbelow ih =>
      refine .nested hleaf (hs _ _ _ (Nat.lt_succ_self _) hchild) hname (ihbelow ?_) (ih hs)
      exact fun l n here hl => hs l n here (Nat.lt_of_succ_lt hl)

/-- A column is what a leaf was compiled to. -/
def IsColumnOf (c : Compiler) (vars : Variables) (f : Field) (column : SelectColumn) : Prop :=
  ∃ table level slot, c.leafColumn vars f table level slot = .ok column

namespace Compiler

variable {c : Compiler} {vars : Variables} {table : String} {level slot : Nat} {w w' : Walk}
  {fields : List Field} {f : Field}

theorem columns_addJoin {parent child : String} (h : c.addJoin vars f parent child w = .ok w') :
    w'.columns = w.columns := by
  obtain ⟨_, rfl⟩ | ⟨_, _, _, _, rfl⟩ := addJoin_ok h
  · rfl
  · rfl

/-- A walk over a selection places it behind what was there. -/
theorem Walks.placed (h : Walks c vars table level slot w fields w') {here : Slot}
    (hhere : w.slots.get? level slot = some here) :
    ∃ entries columns, w'.slots.get? level slot =
      some { here with entries := here.entries ++ entries } ∧ w'.columns = w.columns ++ columns ∧
      List.Forall₂ (IsColumnOf c vars) (selectionLeaves fields) columns ∧
      Placed w'.slots w'.columns level slot w.columns.length fields entries := by
  induction h generalizing here with
  | nil => exact ⟨[], [], by simpa using hhere, by simp, .nil, .nil⟩
  | @leaf table level slot w f rest column w' hleaf _ hcolumn hrest ih =>
      obtain ⟨entries, columns, hget, hcolumns, hleaves, hplaced⟩ :=
        ih (get?_withLeaf hhere f column)
      obtain ⟨_, _, hlabel, _⟩ := leafColumn_ok hcolumn
      have hwhole : w'.columns = w.columns ++ column :: columns := by
        simpa [Walk.withLeaf] using hcolumns
      refine ⟨.field f.outputName :: entries,
        column :: columns, by simpa using hget, hwhole, ?_, ?_⟩
      · rw [selectionLeaves, leavesOf_leaf hleaf]
        exact .cons ⟨table, level, slot, hcolumn⟩ hleaves
      · refine .leaf hleaf (by simp [hwhole]) hlabel ?_
        simpa [Walk.withLeaf] using hplaced
  | @nested table level slot w f rest joined filters orderBy below w' hleaf _ _ hjoin _ hbelow
      hrest ihbelow ih =>
      have hslots := slots_addJoin hjoin
      have hnew : joined.slots.get? (level + 1) (w.nextSlot level) =
          some ⟨Name.internal f.name, f.outputName, true, some slot, []⟩ :=
        hslots ▸ get?_withSlot_nextSlot w level slot f
      obtain ⟨inner, columns, hchild, hcolumns, hleaves, hplaced⟩ := ihbelow hnew
      have hkept : below.slots.get? level slot =
          some { here with entries := here.entries ++ [.child (w.nextSlot level)] } := by
        refine hbelow.extends level slot _ (fun h => absurd h (by omega)) ?_
        exact hslots ▸ get?_withSlot hhere f
      obtain ⟨entries, others, hget, hothers, hmore, hafter⟩ := ih hkept
      have hbefore : below.columns = w.columns ++ columns := by
        rw [hcolumns, Walk.withClauses, columns_addJoin hjoin, Walk.withSlot]
      refine ⟨.child (w.nextSlot level) :: entries,
        columns ++ others, by simpa using hget, ?_, ?_, ?_⟩
      · rw [hothers, hbefore, List.append_assoc]
      · rw [selectionLeaves, leavesOf_nested hleaf]
        exact List.rel_append hleaves hmore
      · have hstart : (joined.withClauses filters orderBy).columns.length = w.columns.length := by
          rw [Walk.withClauses, columns_addJoin hjoin, Walk.withSlot]
        have hlength : below.columns.length = w.columns.length + (leavesOf f).length := by
          rw [hbefore, List.length_append, leavesOf_nested hleaf, hleaves.length_eq]
        have hstay : ∀ l n here, level + 1 < l → below.slots.get? l n = some here →
            w'.slots.get? l n = some here :=
          fun l n here hl => hrest.extends l n here fun h => absurd h (by omega)
        have hchild' := hrest.extends (level + 1) _ _ (fun h => absurd h (by omega)) hchild
        have hinner := hplaced.extend others hstay
        rw [← hothers, hstart] at hinner
        rw [hlength] at hafter
        exact .nested hleaf hchild' rfl (by simpa using hinner) hafter

end Compiler

/-- Every column of a walk has a label of its own, and its slot names it. -/
structure Walk.Tidy (w : Walk) : Prop where
  labels : (w.columns.map (·.label)).Nodup
  named : ∀ column ∈ w.columns, ∃ here,
    w.slots.get? column.label.level column.label.slot = some here ∧
      SlotEntry.field column.label.name ∈ here.entries

namespace Slots

/-- Every slot stays, with all its entries. -/
def Grows (s s' : Slots) : Prop :=
  ∀ level slot here, s.get? level slot = some here →
    ∃ later, s'.get? level slot = some later ∧ here.entries ⊆ later.entries

theorem grows_addEntry (s : Slots) (level slot : Nat) (entry : SlotEntry) :
    Grows s (s.addEntry level slot entry) := by
  intro l n here hget
  rw [get?_addEntry]
  split_ifs with h
  · obtain ⟨rfl, rfl⟩ := h
    rw [hget]
    exact ⟨_, rfl, List.subset_append_left _ _⟩
  · exact ⟨here, hget, List.Subset.refl _⟩

theorem grows_add (s : Slots) (level : Nat) (new : Slot) : Grows s (s.add level new) :=
  fun _ _ here hget => ⟨here, get?_add_of_some hget, List.Subset.refl _⟩

end Slots

namespace Compiler

variable {c : Compiler} {vars : Variables} {table : String} {level slot : Nat} {w w' : Walk}
  {fields : List Field} {f : Field}

theorem tidy_of_grows (h : w.Tidy) (hcolumns : w'.columns = w.columns)
    (hslots : Slots.Grows w.slots w'.slots) : w'.Tidy := by
  refine ⟨hcolumns ▸ h.labels, fun column hcolumn => ?_⟩
  obtain ⟨here, hget, hnamed⟩ := h.named column (hcolumns ▸ hcolumn)
  obtain ⟨later, hlater, hentries⟩ := hslots _ _ here hget
  exact ⟨later, hlater, hentries hnamed⟩

/-- A leaf keeps a walk tidy, if its slot does not name it yet. -/
theorem tidy_withLeaf {column : SelectColumn} (h : w.Tidy) {here : Slot}
    (hhere : w.slots.get? level slot = some here) (hfresh : .field f.outputName ∉ here.entries)
    (hlabel : column.label = ⟨level, slot, f.outputName⟩) :
    (w.withLeaf level slot f column).Tidy := by
  have hgrows : Slots.Grows w.slots (w.withLeaf level slot f column).slots :=
    Slots.grows_addEntry _ _ _ _
  constructor
  · rw [Walk.withLeaf, List.map_append, List.map_singleton]
    refine List.Nodup.append h.labels (List.nodup_singleton _) ?_
    rw [List.disjoint_singleton]
    intro hmem
    obtain ⟨other, hother, heq⟩ := List.mem_map.mp hmem
    obtain ⟨before, hget, hnamed⟩ := h.named other hother
    rw [heq, hlabel, hhere] at hget
    rw [heq, hlabel, ← Option.some.inj hget] at hnamed
    exact hfresh hnamed
  · refine List.forall_mem_append.mpr ⟨fun other hother => ?_, List.forall_mem_singleton.mpr ?_⟩
    · obtain ⟨before, hget, hnamed⟩ := h.named other hother
      obtain ⟨later, hlater, hentries⟩ := hgrows _ _ before hget
      exact ⟨later, hlater, hentries hnamed⟩
    · rw [hlabel]
      exact ⟨_, get?_withLeaf hhere f column, List.mem_append_right _ List.mem_cons_self⟩

theorem grows_withSlot (w : Walk) (level slot : Nat) (f : Field) :
    Slots.Grows w.slots (w.withSlot level slot f).slots := by
  intro l n here hget
  obtain ⟨later, hlater, hentries⟩ := Slots.grows_add w.slots (level + 1) _ l n here hget
  obtain ⟨last, hlast, hmore⟩ := Slots.grows_addEntry _ level slot _ l n later hlater
  exact ⟨last, hlast, List.Subset.trans hentries hmore⟩

/-- A walk over a selection with names of its own in every slot keeps a walk tidy, if its own slot
names none of them yet. -/
theorem Walks.tidy (h : Walks c vars table level slot w fields w') (hw : w.Tidy) {here : Slot}
    (hhere : w.slots.get? level slot = some here) (hnames : (fields.map (·.outputName)).Nodup)
    (hbelow : haveDistinctNames fields = true)
    (hfresh : ∀ f ∈ fields, .field f.outputName ∉ here.entries) : w'.Tidy := by
  induction h generalizing here with
  | nil => exact hw
  | @leaf table level slot w f rest column w' hleaf _ hcolumn _ ih =>
      obtain ⟨_, _, hlabel, _⟩ := leafColumn_ok hcolumn
      obtain ⟨hfirst, hrest⟩ := List.nodup_cons.mp hnames
      obtain ⟨_, hmore⟩ := Bool.and_eq_true_iff.mp hbelow
      obtain ⟨hf, hothers⟩ := List.forall_mem_cons.mp hfresh
      apply ih (tidy_withLeaf hw hhere hf hlabel) (get?_withLeaf hhere f column) hrest hmore
      intro g hg hmem
      rcases List.mem_append.mp hmem with hmem | hmem
      · exact hothers g hg hmem
      · have hname : g.outputName = f.outputName := by simpa using hmem
        exact hfirst (List.mem_map.mpr ⟨g, hg, hname⟩)
  | @nested table level slot w f rest joined _ _ below w' hleaf _ _ hjoin _ hwalk _ ihbelow ih =>
      have hslots := slots_addJoin hjoin
      obtain ⟨_, hrest⟩ := List.nodup_cons.mp hnames
      obtain ⟨hf, hmore⟩ := Bool.and_eq_true_iff.mp hbelow
      obtain ⟨hinner, hinnerBelow⟩ := hasDistinctNames_iff.mp hf
      obtain ⟨_, hothers⟩ := List.forall_mem_cons.mp hfresh
      have hjoined : joined.Tidy := by
        refine tidy_of_grows hw ?_ (hslots ▸ grows_withSlot w level slot f)
        rw [columns_addJoin hjoin, Walk.withSlot]
      have hnew : joined.slots.get? (level + 1) (w.nextSlot level) =
          some ⟨Name.internal f.name, f.outputName, true, some slot, []⟩ :=
        hslots ▸ get?_withSlot_nextSlot w level slot f
      have hinside : below.Tidy :=
        ihbelow ⟨hjoined.labels, hjoined.named⟩ hnew hinner hinnerBelow fun _ _ => List.not_mem_nil
      have hkept : below.slots.get? level slot =
          some { here with entries := here.entries ++ [.child (w.nextSlot level)] } := by
        refine hwalk.extends level slot _ (fun h => absurd h (by omega)) ?_
        exact hslots ▸ get?_withSlot hhere f
      apply ih hinside hkept hrest hmore
      intro g hg hmem
      rcases List.mem_append.mp hmem with hmem | hmem
      · exact hothers g hg hmem
      · simp at hmem

/-- The selection of a compiled field is placed from the root on, its leaves are the columns of the
query in order, and its columns and slots are tidy. -/
theorem exists_placed {limited : Bool} {q : CompiledQuery} (hf : hasDistinctNames f = true)
    (h : c.compileWith limited vars f = .ok q) :
    ∃ root, q.slots.get? 0 0 = some root ∧ Placed q.slots q.columns 0 0 0 f.selection root.entries ∧
      List.Forall₂ (IsColumnOf c vars) (selectionLeaves f.selection) q.columns ∧
      (q.columns.map (·.label)).Nodup ∧
      ∀ column ∈ q.columns, ∃ here, q.slots.get? column.label.level column.label.slot = some here ∧
        SlotEntry.field column.label.name ∈ here.entries := by
  obtain ⟨filters, orderBy, w, hq⟩ := exists_compiled h
  have hstart : (startWalk f q.mainTable).slots.get? 0 0 =
      some ⟨q.mainTable, f.outputName, false, none, []⟩ := rfl
  obtain ⟨hnames, hbelow⟩ := hasDistinctNames_iff.mp hf
  obtain ⟨entries, columns, hroot, hcolumns, hleaves, hplaced⟩ := hq.walks.placed hstart
  have htidy : w.Tidy := hq.walks.tidy ⟨List.nodup_nil, List.forall_mem_nil _⟩ hstart hnames hbelow
    fun _ _ => List.not_mem_nil
  rw [hq.slots, hq.columns]
  have hall : w.columns = columns := hcolumns
  exact ⟨_, hroot, hplaced, hall ▸ hleaves, htidy.labels, htidy.named⟩

end Compiler

end SqlGateway.Query
