import SqlGateway.Proofs.Assembly.Folding
import SqlGateway.Proofs.Assembly.Labelled
import SqlGateway.Proofs.Query.Placement
import SqlGateway.Proofs.Query.SlotNumbers
import SqlGateway.Proofs.Shop

/-!
# The shape of an answer

An assembled object has the keys of its selection, in the order of the selection: under a leaf the
cell of the leaf's column, in one row for all the leaves of the object, and under a nested field a
list of objects of the shape of the selection below it.

The registry of a compiled field names every child once, so the objects that its rows fold into are
the groups of the reference, to every depth and for every result set: columns may be missing or
repeated, and rows may be shorter or longer than the list of columns.

A field without nested fields has two renditions: the objects that its rows are assembled to, and
lines of texts. The lines come from the cells as they stand, the objects by way of labels, slots and
stored fields. Both say the same: under the line of the names every line has the texts of the values
of one object.
-/

namespace SqlGateway.Assembly

open Query (Compiler CompiledQuery)
open Request (Field Variables)

theorem distinctChildren_of_compileWith {c : Compiler} {vars : Variables}
    {limited : Bool} {f : Field} {q : CompiledQuery} (h : c.compileWith limited vars f = .ok q) :
    DistinctChildren q.slots :=
  fun level slot here hhere => (Query.Compiler.numbered_of_compileWith h level slot here hhere).1

/-- Folding the rows of a compiled field row by row gives the recursive grouping of all its rows. -/
theorem objects_eq_groupedRoots_of_compileWith {c : Compiler} {vars : Variables} {limited : Bool}
    {f : Field} {q : CompiledQuery} (h : c.compileWith limited vars f = .ok q) (r : ResultSet) :
    objects q.slots r = groupedRoots q.slots r :=
  objects_eq_groupedRoots (distinctChildren_of_compileWith h) r

/-- Users with their orders, the orders in one slot and once more in another, with the items. -/
def usersWithOrders : Field :=
  Shop.nested "users" [Shop.leaf "name", Shop.nested "orders" [Shop.leaf "total"],
    ⟨some "bought", "orders", [], [], [Shop.leaf "id", Shop.nested "items" [Shop.leaf "id"]]⟩]

def usersWithOrdersRows : ResultSet where
  columns := [⟨"L0~~0**name", "", .text⟩, ⟨"L1~~0**total", "", .integer⟩,
    ⟨"L1~~1**id", "", .integer⟩, ⟨"L2~~0**id", "", .integer⟩]
  rows := [[.text "ann", .int 5, .int 1, .int 8], [.text "bob", .null, .null, .null],
    [.text "ann", .int 5, .int 2, .null], [.text "ann", .int 5, .int 1, .int 9]]
  affected := 4
  lastId := none

theorem objects_eq_groupedRoots_usersWithOrders :
    ∃ q, Shop.compiler.compileWith true [] usersWithOrders = .ok q ∧
      objects q.slots usersWithOrdersRows = groupedRoots q.slots usersWithOrdersRows := by
  obtain ⟨q, hq⟩ := exists_eq_ok (x := Shop.compiler.compileWith true [] usersWithOrders)
    (by decide +kernel)
  exact ⟨q, hq, objects_eq_groupedRoots_of_compileWith hq usersWithOrdersRows⟩

example : ((Shop.compiler.compile [] usersWithOrders).toOption.map fun q =>
    (objects q.slots usersWithOrdersRows).map Json.compact) = some
      ["\x7b\"name\":\"ann\",\"orders\":[\x7b\"total\":5\x7d]," ++
          "\"bought\":[\x7b\"id\":1,\"items\":[\x7b\"id\":8\x7d,\x7b\"id\":9\x7d]\x7d," ++
          "\x7b\"id\":2,\"items\":[]\x7d]\x7d",
        "\x7b\"name\":\"bob\",\"orders\":[],\"bought\":[]\x7d"] := by decide +kernel

open Query

mutual

/-- A value has the shape of a selection whose leaves have the columns of a result set from a given
one on. -/
inductive Shaped (r : ResultSet) : Nat → List Field → Json → Prop
  | object {start fields row entries} : row ∈ r.rows → ShapedFields r row start fields entries →
      Shaped r start fields (.object entries)

/-- The fields of an object are those of a selection, in order, with the cells of a row for its
leaves. -/
inductive ShapedFields (r : ResultSet) : List Cell → Nat → List Field → Object → Prop
  | nil {row start} : ShapedFields r row start [] []
  | leaf {row start f rest entries column cell} :
      f.isLeaf = true → r.columns[start]? = some column →
      row[start]? = some cell → ShapedFields r row (start + 1) rest entries →
      ShapedFields r row start (f :: rest) ((f.outputName, cell.coerce column.type) :: entries)
  | nested {row start f rest items entries} : f.isLeaf = false →
      (∀ item ∈ items, Shaped r start f.selection item) →
      ShapedFields r row (start + (leavesOf f).length) rest entries →
      ShapedFields r row start (f :: rest) ((f.outputName, .list items) :: entries)

end

/-- The keys of an object are the output names of its selection. -/
theorem ShapedFields.keys {r : ResultSet} :
    {row : List Cell} → {start : Nat} → {fields : List Field} →
    {entries : Object} → ShapedFields r row start fields entries →
      entries.keys = fields.map (·.outputName)
  | _, _, _, _, .nil => rfl
  | _, _, _, _, .leaf _ _ _ h => congrArg (_ :: ·) h.keys
  | _, _, _, _, .nested _ _ h => congrArg (_ :: ·) h.keys

/-- The name under which a label stands in a slot. -/
def nameIn (level slot : Nat) (label : Alias) : Option String :=
  if label.level = level ∧ label.slot = slot then some label.name else none

/-- A result set under the labels of the columns of a query, each of which has a label of its own,
with rows of full width. -/
structure Fits (columns : List SelectColumn) (r : ResultSet) : Prop where
  labelled : Labelled columns r
  distinct : (columns.map (·.label)).Nodup
  width : ∀ row ∈ r.rows, row.length = columns.length

section Contributions
variable {columns : List SelectColumn} {r : ResultSet} {row : List Cell} {level slot : Nat}

theorem Labelled.places (h : Labelled columns r) :
    r.columns.map (fun column => Assembly.place column.name) = columns.map (·.label) := by
  calc r.columns.map (fun column => Assembly.place column.name)
      = (r.columns.map (·.name)).map Assembly.place := by rw [List.map_map]; rfl
    _ = columns.map (fun column => Assembly.place column.label.encode) := by
        rw [h.labels, List.map_map]; rfl
    _ = columns.map (·.label) := by
        refine List.map_congr_left fun column hcolumn => ?_
        obtain ⟨hlevel, hslot⟩ := h.words column hcolumn
        rw [Assembly.place, Alias.decode?_encode hlevel hslot, Option.getD_some]

theorem nameIn_self (label : Alias) : nameIn label.level label.slot label = some label.name :=
  if_pos ⟨rfl, rfl⟩

theorem eq_of_nameIn {label : Alias} {name : String} (h : nameIn level slot label = some name) :
    label = ⟨level, slot, name⟩ := by
  rw [nameIn, Option.ite_none_right_eq_some] at h
  obtain ⟨⟨rfl, rfl⟩, hname⟩ := h
  exact Alias.ext rfl rfl (Option.some.inj hname)

/-- What a row contributes to a slot before equal keys are stored. -/
def cells (r : ResultSet) (row : List Cell) (level slot : Nat) : Object :=
  (r.columns.zip row).filterMap fun (column, cell) =>
    (nameIn level slot (place column.name)).map (·, cell.coerce column.type)

theorem slice_eq (r : ResultSet) (row : List Cell) (level slot : Nat) :
    slice r row level slot = Object.ofFields (cells r row level slot) := by
  refine congrArg _ (List.filterMap_congr fun pair _ => ?_)
  dsimp only
  rw [nameAt?_eq, nameIn]

theorem Fits.keys_cells (h : Fits columns r) (hrow : row ∈ r.rows) :
    (cells r row level slot).keys = (columns.map (·.label)).filterMap (nameIn level slot) := by
  have hlength : r.columns.length = columns.length := by
    simpa using congrArg List.length h.labelled.labels
  have hwide : r.columns.length ≤ row.length := Nat.le_of_eq (hlength.trans (h.width row hrow).symm)
  calc (cells r row level slot).keys
      = (r.columns.zip row).filterMap fun pair => nameIn level slot (place pair.1.name) := by
        rw [Object.keys, cells, List.map_filterMap]
        refine List.filterMap_congr fun pair _ => ?_
        rw [Option.map_map]
        exact Option.map_id'
    _ = (((r.columns.zip row).map (·.1)).map fun column => place column.name).filterMap
          (nameIn level slot) := by
        rw [List.map_map, List.filterMap_map]; rfl
    _ = (columns.map (·.label)).filterMap (nameIn level slot) := by
        rw [List.map_fst_zip hwide, h.labelled.places]

/-- No key of a row is stored twice. -/
theorem Fits.slice_eq_cells (h : Fits columns r) (hrow : row ∈ r.rows) :
    slice r row level slot = cells r row level slot := by
  rw [slice_eq, Object.ofFields_of_nodup]
  rw [h.keys_cells hrow]
  refine h.distinct.filterMap fun label other name hlabel hother => ?_
  rw [eq_of_nameIn hlabel, eq_of_nameIn hother]

theorem Fits.exists_of_mem_keys (h : Fits columns r) (hrow : row ∈ r.rows) {key : String}
    (hkey : key ∈ (slice r row level slot).keys) :
    ∃ column ∈ columns, column.label = ⟨level, slot, key⟩ := by
  rw [h.slice_eq_cells hrow, h.keys_cells hrow] at hkey
  obtain ⟨label, hlabel, hname⟩ := List.mem_filterMap.mp hkey
  obtain ⟨column, hcolumn, rfl⟩ := List.mem_map.mp hlabel
  exact ⟨column, hcolumn, eq_of_nameIn hname⟩

/-- Under the name of a column stands its cell of the row. -/
theorem Fits.get?_slice (h : Fits columns r) (hrow : row ∈ r.rows) {k : Nat}
    {column : SelectColumn} (hcolumn : columns[k]? = some column) :
    ∃ result cell, r.columns[k]? = some result ∧ row[k]? = some cell ∧
      (slice r row column.label.level column.label.slot).get? column.label.name =
        some (cell.coerce result.type) := by
  have hlength : r.columns.length = columns.length := by
    simpa using congrArg List.length h.labelled.labels
  obtain ⟨hk, rfl⟩ := List.getElem?_eq_some_iff.mp hcolumn
  have hkr : k < r.columns.length := hlength ▸ hk
  have hkrow : k < row.length := (h.width row hrow).symm ▸ hk
  have hplace : place r.columns[k].name = columns[k].label := by
    have := congrArg (·[k]?) h.labelled.places
    simpa [hk, hkr] using this
  refine ⟨r.columns[k], row[k], List.getElem?_eq_getElem hkr, List.getElem?_eq_getElem hkrow, ?_⟩
  have hkeys := nodup_keys_slice r row columns[k].label.level columns[k].label.slot
  refine Object.get?_of_mem hkeys ?_
  rw [h.slice_eq_cells hrow, cells, List.mem_filterMap]
  refine ⟨(r.columns[k], row[k]), List.mem_iff_getElem.mpr ⟨k, ?_, List.getElem_zip⟩, ?_⟩
  · rw [List.length_zip]
    exact Nat.lt_min.mpr ⟨hkr, hkrow⟩
  · change (nameIn _ _ (place r.columns[k].name)).map _ = _
    rw [hplace, nameIn_self, Option.map_some]

end Contributions

section Objects
variable {s : Slots} {columns : List SelectColumn} {r : ResultSet} {level slot start : Nat}
  {fields : List Field} {entries : List SlotEntry}

/-- The objects below a slot, for the rows of an object in it. -/
def objectsBelow (s : Slots) (r : ResultSet) (level : Nat) (rows : List (List Cell)) (n : Nat) :
    List Json :=
  (firsts (slices r (joinedRows r rows (level + 1) n) (level + 1) n)).map fun o =>
    grouped s r (level + 1) n (rowsOf r (joinedRows r rows (level + 1) n) (level + 1) n o) o

/-- The fields of an object that a slot names, in the order of its entries, are all of them where
the entries have keys of their own and name every field. -/
theorem ordered_eq {here : Slot} {object : Object} {below : Nat → List Json}
    (hdistinct : (Object.keys (here.entries.filterMap (entryField s level object below))).Nodup)
    (hnamed : ∀ key ∈ object.keys, SlotEntry.field key ∈ here.entries) :
    ordered s level here object below =
      here.entries.filterMap (entryField s level object below) := by
  rw [ordered, Object.ofFields_of_nodup hdistinct]
  refine (congrArg _ (List.filter_eq_nil_iff.mpr fun field hfield => ?_)).trans (List.append_nil _)
  have hkey : field.1 ∈ object.keys := List.mem_map_of_mem hfield
  obtain ⟨value, hvalue⟩ : ∃ value, object.get? field.1 = some value :=
    Option.isSome_iff_exists.mp (Object.contains_iff_mem_keys.mpr hkey)
  have hentry : (field.1, value) ∈ here.entries.filterMap (entryField s level object below) := by
    refine List.mem_filterMap.mpr ⟨_, hnamed _ hkey, ?_⟩
    rw [entryField, hvalue, Option.map_some]
  have hcontains : Object.contains field.1
      (here.entries.filterMap (entryField s level object below)) = true :=
    Object.contains_iff_mem_keys.mpr (List.mem_map.mpr ⟨_, hentry, rfl⟩)
  simp [hcontains]

/-- Every column has its name among the entries of its slot. -/
def Named (s : Slots) (columns : List SelectColumn) : Prop :=
  ∀ column ∈ columns, ∃ here, s.get? column.label.level column.label.slot = some here ∧
    SlotEntry.field column.label.name ∈ here.entries

/-- An object of a slot has the shape of a selection, if its fields do that the entries of the slot
stand for. -/
theorem shaped_grouped (hfits : Fits columns r) (hnamed : Named s columns) {here : Slot}
    (hhere : s.get? level slot = some here) {row : List Cell} (hrow : row ∈ r.rows)
    (hnames : (fields.map (·.outputName)).Nodup) {rows : List (List Cell)}
    (hfields : ShapedFields r row start fields
      (here.entries.filterMap (entryField s level (slice r row level slot)
        (objectsBelow s r level rows)))) :
    Shaped r start fields (grouped s r level slot rows (slice r row level slot)) := by
  have hordered := ordered_eq (s := s) (hfields.keys ▸ hnames) fun key hkey => by
    obtain ⟨column, hcolumn, hlabel⟩ := hfits.exists_of_mem_keys hrow hkey
    obtain ⟨other, hother, hentry⟩ := hnamed column hcolumn
    rw [hlabel, hhere] at hother
    obtain rfl := Option.some.inj hother
    simpa [hlabel] using hentry
  rw [grouped_some hhere]
  exact .object hrow (hordered ▸ hfields)

/-- The entries of a slot stand for fields of the shape of the selection placed there, for every row
of an object and the rows that belong to it. -/
theorem shapedFields_of_placed (hfits : Fits columns r) (hnamed : Named s columns)
    (h : Placed s columns level slot start fields entries)
    (hnames : haveDistinctNames fields = true)
    {row : List Cell} (hrow : row ∈ r.rows) {rows : List (List Cell)} (hrows : rows ⊆ r.rows) :
    ShapedFields r row start fields
      (entries.filterMap (entryField s level (slice r row level slot)
        (objectsBelow s r level rows))) := by
  induction h generalizing row rows with
  | nil => exact .nil
  | leaf hleaf hcolumn hlabel _ ih =>
      obtain ⟨result, cell, hresult, hcell, hvalue⟩ := hfits.get?_slice hrow hcolumn
      rw [hlabel] at hvalue
      rw [List.filterMap_cons, entryField, hvalue, Option.map_some]
      exact .leaf hleaf hresult hcell (ih (Bool.and_eq_true_iff.mp hnames).2 hrow hrows)
  | @nested level slot start f rest entries n child hleaf hchild hname _ _ ihbelow ih =>
      obtain ⟨hf, hrest⟩ := Bool.and_eq_true_iff.mp hnames
      obtain ⟨hinner, hbelow⟩ := hasDistinctNames_iff.mp hf
      rw [List.filterMap_cons, entryField, hchild, Option.map_some, hname]
      refine .nested hleaf (fun item hitem => ?_) (ih hrest hrow hrows)
      obtain ⟨o, ho, rfl⟩ := List.mem_map.mp hitem
      obtain ⟨other, hother, rfl⟩ := List.mem_map.mp (mem_of_mem_firsts ho)
      have hjoined : joinedRows r rows (level + 1) n ⊆ r.rows :=
        List.Subset.trans (List.filter_subset_self _) hrows
      have hbelongs {o : Object} :
          rowsOf r (joinedRows r rows (level + 1) n) (level + 1) n o ⊆ r.rows :=
        List.Subset.trans (List.filter_subset_self _) hjoined
      exact shaped_grouped hfits hnamed hchild (hjoined hother) hinner
        (ihbelow hbelow (hjoined hother) hbelongs)

end Objects

/-- The answer has the shape of the selection. The columns of a compiled field are those of the
leaves of its selection, and every object that its rows assemble to has the keys of the selection in
order: under a leaf the cell of its column, under a nested field a list of objects of the shape of
the selection below it. -/
theorem objects_shaped {c : Compiler} {vars : Variables} {limited : Bool} {f : Field}
    {q : CompiledQuery} (h : c.compileWith limited vars f = .ok q)
    (hnames : hasDistinctNames f = true) {r : ResultSet}
    (hlabelled : Labelled q.columns r) (hwidth : ∀ row ∈ r.rows, row.length = q.columns.length) :
    List.Forall₂ (IsColumnOf c vars) (selectionLeaves f.selection) q.columns ∧
      ∀ o ∈ objects q.slots r, Shaped r 0 f.selection o := by
  obtain ⟨root, hroot, hplaced, hleaves, hlabels, hnamed⟩ := Compiler.exists_placed hnames h
  have hfits : Fits q.columns r := ⟨hlabelled, hlabels, hwidth⟩
  obtain ⟨hfirst, hbelow⟩ := hasDistinctNames_iff.mp hnames
  have hshaped : ∀ row ∈ r.rows, ∀ rows ⊆ r.rows,
      Shaped r 0 f.selection (grouped q.slots r 0 0 rows (slice r row 0 0)) :=
    fun row hrow rows hrows => shaped_grouped hfits hnamed hroot hrow hfirst
      (shapedFields_of_placed hfits hnamed hplaced hbelow hrow hrows)
  refine ⟨hleaves, fun o ho => ?_⟩
  rw [objects_eq_groupedRoots (distinctChildren_of_compileWith h), groupedRoots] at ho
  split_ifs at ho with hflat
  · obtain ⟨row, hrow, rfl⟩ := List.mem_map.mp ho
    exact hshaped row hrow [row] (List.cons_subset.mpr ⟨hrow, List.nil_subset _⟩)
  · obtain ⟨fields, hfields, rfl⟩ := List.mem_map.mp ho
    obtain ⟨row, hrow, rfl⟩ := List.mem_map.mp (mem_of_mem_firsts hfields)
    exact hshaped row hrow _ (List.filter_subset_self _)

theorem objects_shaped_usersWithOrders :
    ∃ q, Shop.compiler.compileWith true [] usersWithOrders = .ok q ∧
      List.Forall₂ (IsColumnOf Shop.compiler []) (selectionLeaves usersWithOrders.selection)
        q.columns ∧
      ∀ o ∈ objects q.slots usersWithOrdersRows,
        Shaped usersWithOrdersRows 0 usersWithOrders.selection o := by
  obtain ⟨q, hq⟩ := exists_eq_ok (x := Shop.compiler.compileWith true [] usersWithOrders)
    (by decide +kernel)
  have hlabels : q.columns.map (·.label) =
      [⟨0, 0, "name"⟩, ⟨1, 0, "total"⟩, ⟨1, 1, "id"⟩, ⟨2, 0, "id"⟩] :=
    part_eq (g := fun q : CompiledQuery => q.columns.map (·.label)) hq (by decide +kernel)
  have hlength : q.columns.length = 4 := by simpa using congrArg List.length hlabels
  have hwords : ∀ label ∈ q.columns.map (·.label),
      label.level < Number.wordCount ∧ label.slot < Number.wordCount := by
    rw [hlabels]
    decide
  have hencoded : usersWithOrdersRows.columns.map (·.name) = q.columns.map (·.label.encode) := by
    calc usersWithOrdersRows.columns.map (·.name)
        = [(⟨0, 0, "name"⟩ : Alias), ⟨1, 0, "total"⟩, ⟨1, 1, "id"⟩, ⟨2, 0, "id"⟩].map
          Alias.encode := by
          decide +kernel
      _ = q.columns.map (·.label.encode) := by
          rw [← hlabels, List.map_map]; rfl
  refine ⟨q, hq, objects_shaped hq (by decide +kernel) ⟨hencoded, fun column hcolumn => ?_⟩ ?_⟩
  · exact hwords _ (List.mem_map_of_mem hcolumn)
  · rw [hlength]
    decide

end SqlGateway.Assembly

namespace SqlGateway.Query.Compiler

open Request (Field Variables)

variable {c : Compiler} {vars : Variables}

/-- A walk over leaves adds one entry to its slot for each of them, and one column with the label of
that entry. -/
theorem Walks.flat {table : String} {level slot : Nat} {w w' : Walk} {fields : List Field}
    (h : Walks c vars table level slot w fields w') (hleaves : ∀ f ∈ fields, f.isLeaf = true)
    {here : Slot} (hhere : w.slots.get? level slot = some here) :
    w'.slots.get? level slot =
        some { here with entries := here.entries ++ fields.map fun f => .field f.outputName } ∧
      w'.columns.map (·.label) = w.columns.map (·.label) ++ fields.map fun f =>
        ⟨level, slot, f.outputName⟩ := by
  induction h generalizing here with
  | nil => exact ⟨by simpa using hhere, by simp⟩
  | leaf _ _ hcolumn _ ih =>
      obtain ⟨_, hrest⟩ := List.forall_mem_cons.mp hleaves
      obtain ⟨_, _, hlabel, _⟩ := leafColumn_ok hcolumn
      obtain ⟨hget, hlabels⟩ := ih hrest (get?_withLeaf hhere _ _)
      refine ⟨by simpa using hget, ?_⟩
      rw [hlabels, Walk.withLeaf, List.map_append, List.map_singleton, hlabel, List.append_assoc]
      rfl
  | nested hleaf =>
      obtain ⟨hfirst, _⟩ := List.forall_mem_cons.mp hleaves
      rw [hleaf] at hfirst
      cases hfirst

theorem flat_of_compileWith {limited : Bool} {f : Field} {q : CompiledQuery}
    (h : c.compileWith limited vars f = .ok q) (hleaves : ∀ g ∈ f.selection, g.isLeaf = true) :
    ∃ root, q.slots.get? 0 0 = some root ∧
    root.entries = (f.selection.map (·.outputName)).map .field ∧
      q.columns.map (·.label) = (f.selection.map (·.outputName)).map (Alias.mk 0 0) := by
  obtain ⟨filters, orderBy, w, hq⟩ := exists_compiled h
  have hstart : (startWalk f q.mainTable).slots.get? 0 0 =
      some ⟨q.mainTable, f.outputName, false, none, []⟩ := rfl
  obtain ⟨hroot, hlabels⟩ := hq.walks.flat hleaves hstart
  rw [hq.slots, hq.columns, List.map_map, List.map_map]
  exact ⟨_, hroot, rfl, hlabels⟩

end SqlGateway.Query.Compiler

namespace SqlGateway

/-- Looking up names of which the first are the keys of an object gives its fields again. -/
theorem Object.filterMap_get? {o : Object} {names : List String} (hnames : names.Nodup)
    (hkeys : o.keys <+: names) : names.filterMap (fun name => (o.get? name).map (name, ·)) = o := by
  induction o generalizing names with
  | nil => exact List.filterMap_eq_nil_iff.mpr fun _ _ => rfl
  | cons field rest ih =>
      obtain ⟨more, rfl⟩ := hkeys
      obtain ⟨hfresh, hmore⟩ := List.nodup_cons.mp hnames
      have hothers : ∀ name ∈ Object.keys rest ++ more,
          (Object.get? name (field :: rest)).map (name, ·) =
            (Object.get? name rest).map (name, ·) := by
        intro name hname
        have hne : field.1 ≠ name := by
          rintro rfl
          exact hfresh hname
        rw [Object.get?, if_neg hne]
      have hrest : (Object.keys rest ++ more).filterMap (fun name =>
        (Object.get? name rest).map (name, ·)) = rest :=
        ih hmore ⟨more, rfl⟩
      change ((field.1 :: (Object.keys rest ++ more)).filterMap _) = _
      rw [List.filterMap_cons_some (b := field) (by rw [Object.get?, if_pos rfl]; rfl),
        List.filterMap_congr hothers, hrest]

namespace Assembly

open Query (Alias Compiler CompiledQuery SlotEntry)
open Request (Field Variables)

section Flat
variable {names : List String} {r : ResultSet} {row : List Cell}

/-- The cells of a row under the names of their columns. -/
def namedCells (r : ResultSet) (row : List Cell) : Object :=
  (r.columns.zip row).map fun (column, cell) => (Alias.strip column.name, cell.coerce column.type)

theorem name_place (label : String) : (place label).name = Alias.strip label := by
  rw [place, Alias.strip]
  cases Alias.decode? label <;> rfl

/-- A line of texts has the texts of the named cells of its row. -/
theorem flatLines_eq (r : ResultSet) :
    flatLines r = r.columns.map (Alias.strip ·.name) ::
      r.rows.map fun row => (namedCells r row).map (·.2.flatText) := by
  simp only [flatLines, namedCells, List.map_map]
  rfl

/-- A row has a name for each of its cells that have a column. -/
theorem keys_namedCells (r : ResultSet) (row : List Cell) :
    (namedCells r row).keys = (r.columns.map (Alias.strip ·.name)).take row.length := by
  rw [Object.keys, namedCells, List.map_map]
  generalize r.columns = columns
  induction columns generalizing row with
  | nil => simp
  | cons column rest ih =>
      cases row with
      | nil => rfl
      | cons cell cells => exact congrArg (Alias.strip column.name :: ·) (ih cells)

variable (hplaces : ∀ column ∈ r.columns, place column.name = ⟨0, 0, Alias.strip column.name⟩)
include hplaces

/-- All cells of a row go to the root. -/
theorem cells_root (row : List Cell) : cells r row 0 0 = namedCells r row := by
  rw [cells, namedCells, ← List.filterMap_eq_map]
  refine List.filterMap_congr ?_
  rintro ⟨column, cell⟩ hpair
  dsimp only
  rw [hplaces column (List.of_mem_zip hpair).1]
  rfl

theorem slice_root (hdistinct : (r.columns.map (Alias.strip ·.name)).Nodup) (row : List Cell) :
    slice r row 0 0 = namedCells r row := by
  rw [slice_eq, cells_root hplaces, Object.ofFields_of_nodup]
  rw [keys_namedCells]
  exact (List.take_sublist _ _).nodup hdistinct

/-- The object of a slot that names just the columns has the named cells of its row. -/
theorem grouped_flat {s : Query.Slots} {root : Query.Slot} (hroot : s.get? 0 0 = some root)
    (hentries : root.entries = (r.columns.map (Alias.strip ·.name)).map .field)
    (hdistinct : (r.columns.map (Alias.strip ·.name)).Nodup) (row : List Cell) :
    grouped s r 0 0 [row] (slice r row 0 0) = .object (namedCells r row) := by
  have hkeys : (namedCells r row).keys <+: r.columns.map (Alias.strip ·.name) := by
    rw [keys_namedCells]
    exact List.take_prefix _ _
  have hfields : ∀ below, root.entries.filterMap (entryField s 0 (namedCells r row) below) =
      namedCells r row := by
    intro below
    rw [hentries, List.filterMap_map]
    exact Object.filterMap_get? hdistinct hkeys
  rw [grouped_some hroot, slice_root hplaces hdistinct, ordered_eq, hfields]
  · rw [hfields]
    exact hkeys.sublist.nodup hdistinct
  · intro key hkey
    rw [hentries]
    exact List.mem_map_of_mem (hkeys.subset hkey)

end Flat

/-- The two renditions of a field without nested fields agree. For every result set under the labels
of its columns the flat lines begin with the names of the selection, and then have for each row in
order the texts of the values of its object, in the order of their keys, which are the names that
the row has cells for. -/
theorem flatLines_eq_objects {c : Compiler} {vars : Variables} {limited : Bool} {f : Field}
    {q : CompiledQuery} (h : c.compileWith limited vars f = .ok q)
    (hleaves : ∀ g ∈ f.selection, g.isLeaf = true)
    (hnames : (f.selection.map (·.outputName)).Nodup) {r : ResultSet}
    (hlabels : r.columns.map (·.name) = q.columns.map (·.label.encode)) :
    ∃ rows : List Object, objects q.slots r = rows.map .object ∧
      flatLines r = f.selection.map (·.outputName) :: rows.map (fun o => o.map (·.2.flatText)) ∧
        rows.map Object.keys = r.rows.map fun row =>
          (f.selection.map (·.outputName)).take row.length := by
  obtain ⟨root, hroot, hentries, hcolumns⟩ := Compiler.flat_of_compileWith h hleaves
  have hword : 0 < Number.wordCount := by decide
  have hlabelled : Labelled q.columns r := by
    refine labelled_of_labels hcolumns ?_ (List.forall_mem_map.mpr fun _ _ => ⟨hword, hword⟩)
    rw [hlabels, ← hcolumns, List.map_map]
    rfl
  have hplaced : r.columns.map (fun column => place column.name) =
      (f.selection.map (·.outputName)).map (Alias.mk 0 0) := hlabelled.places.trans hcolumns
  have hstripped : r.columns.map (Alias.strip ·.name) = f.selection.map (·.outputName) := by
    have := congrArg (List.map Alias.name) hplaced
    simpa [List.map_map, Function.comp_def, name_place] using this
  have hplaces : ∀ column ∈ r.columns, place column.name = ⟨0, 0, Alias.strip column.name⟩ := by
    intro column hcolumn
    have hmem :=
      hplaced ▸ List.mem_map_of_mem (f := fun column : ResultColumn => place column.name) hcolumn
    obtain ⟨name, _, hname⟩ := List.mem_map.mp hmem
    rw [← name_place, ← hname]
  rw [← hstripped] at hentries hnames ⊢
  refine ⟨r.rows.map (namedCells r), ?_, ?_, ?_⟩
  · rw [objects_eq_groupedRoots (distinctChildren_of_compileWith h), groupedRoots,
      if_pos (Compiler.maxLevel_of_leaves h hleaves), List.map_map]
    exact List.map_congr_left fun row _ => grouped_flat hplaces hroot hentries hnames row
  · rw [flatLines_eq, List.map_map]
    rfl
  · rw [List.map_map]
    exact List.map_congr_left fun row _ => keys_namedCells r row

/-- Users with their keys and, under a label, their names. -/
def calledUsers : Field := Shop.nested "users" [Shop.leaf "id", ⟨some "called", "name", [], [], []⟩]

/-- A whole row, one without a name, one with a cell too many, and an empty one. -/
def calledUsersRows : ResultSet where
  columns := [⟨"L0~~0**id", "", .decimal⟩, ⟨"L0~~0**called", "", .text⟩]
  rows := [[.text "1.50", .text "ann"], [.int 2], [.null, .null, .int 9], []]
  affected := 4
  lastId := none

theorem flatLines_eq_objects_calledUsers :
    ∃ q, Shop.compiler.compileWith true [] calledUsers = .ok q ∧
      calledUsersRows.columns.map (·.name) = q.columns.map (·.label.encode) ∧
      ∃ rows : List Object, objects q.slots calledUsersRows = rows.map .object ∧
        flatLines calledUsersRows = ["id", "called"] :: rows.map (fun o => o.map (·.2.flatText)) ∧
          rows.map Object.keys = [["id", "called"], ["id"], ["id", "called"], []] := by
  obtain ⟨q, hq⟩ :=
    exists_eq_ok (x := Shop.compiler.compileWith true [] calledUsers) (by decide +kernel)
  have hlabels : q.columns.map (·.label.encode) = calledUsersRows.columns.map (·.name) :=
    part_eq (g := fun q : CompiledQuery => q.columns.map (·.label.encode)) hq (by decide +kernel)
  exact ⟨q, hq, hlabels.symm, flatLines_eq_objects hq (by decide) (by decide) hlabels.symm⟩

example : flatLines calledUsersRows = [["id", "called"], ["1.5", "ann"], ["2"], ["", ""], []] := by
  decide +kernel

end Assembly

end SqlGateway
