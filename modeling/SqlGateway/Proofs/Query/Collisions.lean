import SqlGateway.Assembly
import SqlGateway.Proofs.Assembly.Labelled
import SqlGateway.Proofs.Query.Nesting

/-!
# Collisions of names

A selection may name the same twice, directly or under a label. Two leaves of one name in one
selection get one label, and of two members of one name, of whatever kind, an object shows one only.
Nothing else makes names collide: columns have one label only if they are leaves of one selection
under one name, since the label says the place, and the members of different selections are entries
of different slots.
-/
namespace SqlGateway.Query

open Request (Field Variables)

/-- A list of pairs has no pair twice if none of the second parts stands twice under one first
part. -/
theorem nodup_iff_forall_fiber {α β : Type} [DecidableEq α] {pairs : List (α × β)} :
    pairs.Nodup ↔
    ∀ a, (pairs.filterMap fun pair => if pair.1 = a then some pair.2 else none).Nodup := by
  constructor
  · refine fun h a => h.filterMap fun pair other b hpair hother => ?_
    obtain ⟨rfl, hb⟩ := Option.ite_none_right_eq_some.mp hpair
    obtain ⟨ha, hb'⟩ := Option.ite_none_right_eq_some.mp hother
    exact Prod.ext ha.symm (Option.some.inj (hb.trans hb'.symm))
  · intro h
    induction pairs with
    | nil => exact List.nodup_nil
    | cons pair rest ih =>
        refine List.nodup_cons.mpr ⟨fun hmem => ?_, ih fun a => ?_⟩
        · have hfirst := h pair.1
          rw [List.filterMap_cons, if_pos rfl, List.nodup_cons] at hfirst
          exact hfirst.1 (List.mem_filterMap.mpr ⟨pair, hmem, if_pos rfl⟩)
        · exact (((List.sublist_cons_self pair rest).filterMap _).nodup (h a))

/-- The output name that an entry of a slot stands for. -/
def entryName? (slots : Slots) (level : Nat) : SlotEntry → Option String
  | .field name => some name
  | .child n => (slots.get? (level + 1) n).map (·.outputName)

namespace Compiler

variable {c : Compiler} {vars : Variables} {f g : Field} {s : Slots} {number : List Nat → Nat}
  {place : List Nat}

/-- The labels of the leaves at one place are distinct if their names are, and leaves at different
places have different ones. -/
theorem nodup_labels_iff_leavesAt (h : Numbering f s number) :
    ((leafPlaces f).map (labelAt number)).Nodup ↔
      ∀ place, ((leavesAt place (leafPlaces f)).map (·.outputName)).Nodup := by
  have hpairs : ((leafPlaces f).map (labelAt number)).Nodup ↔
      ((leafPlaces f).map fun leaf => (leaf.1, leaf.2.outputName)).Nodup := by
    simp only [List.Nodup, List.pairwise_map]
    refine List.Pairwise.iff_of_mem fun hleaf hother => not_congr ?_
    rw [labelAt_inj h hleaf hother, Prod.mk.injEq]
  have hnames (place : List Nat) :
    (((leafPlaces f).map fun leaf => (leaf.1, leaf.2.outputName)).filterMap
      fun pair => if pair.1 = place then some pair.2 else none) =
        (leavesAt place (leafPlaces f)).map (·.outputName) := by
    rw [leavesAt, List.filterMap_map, List.map_filterMap]
    refine List.filterMap_congr fun leaf _ => ?_
    simp only [Function.comp_apply]
    split_ifs <;> rfl
  rw [hpairs, nodup_iff_forall_fiber]
  simp only [hnames]

theorem leavesAt_of_none (h : fieldAt? f place = none) : leavesAt place (leafPlaces f) = [] := by
  refine List.filterMap_eq_nil_iff.mpr fun leaf hleaf => if_neg ?_
  rintro rfl
  obtain ⟨_, owner, howner, _⟩ := owner_of_mem_leafPlaces f leaf hleaf
  rw [h] at howner
  cases howner

theorem nodup_labels_iff (h : Numbering f s number) : ((leafPlaces f).map (labelAt number)).Nodup ↔
    ∀ place g, fieldAt? f place = some g →
    ((g.selection.filter (·.isLeaf)).map (·.outputName)).Nodup := by
  rw [nodup_labels_iff_leavesAt h]
  constructor
  · intro hall place g hg
    exact leavesAt_leafPlaces f hg ▸ hall place
  · intro hall place
    cases hg : fieldAt? f place with
    | some g => exact leavesAt_leafPlaces f hg ▸ hall place g hg
    | none =>
        rw [leavesAt_of_none hg]
        exact List.nodup_nil

/-- The entries of a slot stand for the names of the selection at its place, in order. -/
theorem entryNames_slotAt (h : Numbering f s number) (hg : fieldAt? f place = some g) :
    (slotAt number place g).entries.filterMap (entryName? s place.length) =
      g.selection.map (·.outputName) := by
  have hnames : (slotAt number place g).entries.map (entryName? s place.length) =
      g.selection.map (some ∘ (·.outputName)) := by
    refine List.ext_getElem? fun i => ?_
    simp only [slotAt, entriesAt, List.getElem?_map, List.getElem?_mapIdx, Option.map_map]
    cases hmember : g.selection[i]? with
    | none => rfl
    | some inner =>
        cases hleaf : inner.isLeaf with
        | true => simp [hleaf, entryName?]
        | false =>
            have hinner := h.slots _ _ (fieldAt?_member hg hmember hleaf)
            rw [List.length_append, List.length_singleton] at hinner
            simp [hleaf, entryName?, hinner, slotAt]
  calc (slotAt number place g).entries.filterMap (entryName? s place.length)
      = ((slotAt number place g).entries.map (entryName? s place.length)).filterMap id := by
        rw [List.filterMap_map]; rfl
    _ = g.selection.map (·.outputName) := by
        rw [hnames, ← List.map_map, List.filterMap_map, Function.id_comp, List.filterMap_some]

theorem nodup_entryNames_iff (h : Numbering f s number) :
    (∀ level n here, s.get? level n = some here →
        (here.entries.filterMap (entryName? s level)).Nodup) ↔
      ∀ place g, fieldAt? f place = some g → (g.selection.map (·.outputName)).Nodup := by
  constructor
  · intro hall place g hg
    exact entryNames_slotAt h hg ▸ hall _ _ _ (h.slots place g hg)
  · intro hall level n here hget
    obtain ⟨place, g, hg, rfl, _, rfl⟩ := h.exists_place hget
    rw [entryNames_slotAt h hg]
    exact hall place g hg

/-- Requested fields collide in a selection that gives a name twice, and nowhere else. The labels of
the columns are distinct if and only if no selection has two leaves of one name, and the entries of
every slot have distinct names if and only if no selection has two members of one name. -/
theorem collisions_within_selections {limited : Bool} {q : CompiledQuery}
    (h : c.compileWith limited vars f = .ok q) :
    ((q.columns.map (·.label.encode)).Nodup ↔ ∀ place g, fieldAt? f place = some g →
      ((g.selection.filter (·.isLeaf)).map (·.outputName)).Nodup) ∧
    ((∀ level n here, q.slots.get? level n = some here →
      (here.entries.filterMap (entryName? q.slots level)).Nodup) ↔
        ∀ place g, fieldAt? f place = some g → (g.selection.map (·.outputName)).Nodup) := by
  obtain ⟨number, hnumbering, hcolumns⟩ := exists_numbering_of_compileWith h
  have hencoded :
      q.columns.map (·.label.encode) = ((leafPlaces f).map (labelAt number)).map Alias.encode := by
    rw [← labels_eq hcolumns, List.map_map]
    rfl
  rw [hencoded, List.nodup_map_iff Alias.encode_injective]
  exact ⟨nodup_labels_iff hnumbering, nodup_entryNames_iff hnumbering⟩

/-- Orders with their items. -/
def ordersWithItems : Field :=
  Shop.nested "orders" [Shop.leaf "total", Shop.nested "items" [Shop.leaf "id"]]

theorem no_collisions_ordersWithItems : ∃ q,
    Shop.compiler.compileWith true [] ordersWithItems = .ok q ∧
      (q.columns.map (·.label.encode)).Nodup ∧ ∀ level n here, q.slots.get? level n = some here →
        (here.entries.filterMap (entryName? q.slots level)).Nodup := by
  obtain ⟨q, hq⟩ := exists_eq_ok (x := Shop.compiler.compileWith true [] ordersWithItems)
    (by decide +kernel)
  have hnames := (hasDistinctNames_iff_forall ordersWithItems).mp (by decide +kernel)
  obtain ⟨hlabels, hentries⟩ := collisions_within_selections hq
  refine ⟨q, hq, hlabels.mpr fun place g hg => ?_, hentries.mpr hnames⟩
  exact (List.filter_sublist.map _).nodup (hnames place g hg)

/-- Users with their name and their orders, each asked for twice. -/
def usersTwiceNamed : Field :=
  Shop.nested "users" [Shop.leaf "name", Shop.leaf "name", Shop.nested "orders" [Shop.leaf "id"],
    Shop.nested "orders" [Shop.leaf "total"]]

/-- The order of a user. -/
def annsOrder : ResultSet where
  columns := [⟨"L0~~0**name", "", .text⟩, ⟨"L0~~0**name", "", .text⟩, ⟨"L1~~0**id", "", .integer⟩,
    ⟨"L1~~1**total", "", .integer⟩]
  rows := [[.text "ann", .text "ann", .int 1, .int 5]]
  affected := 1
  lastId := none

/-- A field that is named twice gets one label, and of two nested ones the first is not shown. -/
theorem twice_named_fields_collide :
    ∃ q, Shop.compiler.compileWith true [] usersTwiceNamed = .ok q ∧
    ¬(q.columns.map (·.label.encode)).Nodup ∧
    (∃ here, q.slots.get? 0 0 = some here ∧
      ¬(here.entries.filterMap (entryName? q.slots 0)).Nodup) ∧
    annsOrder.columns.map (·.name) = q.columns.map (·.label.encode) ∧
    (Assembly.objects q.slots annsOrder).map Json.compact =
      ["\x7b\"name\":\"ann\",\"orders\":[\x7b\"total\":5\x7d]\x7d"] := by
  obtain ⟨q, hq⟩ := exists_eq_ok (x := Shop.compiler.compileWith true [] usersTwiceNamed)
    (by decide +kernel)
  have hlabels : q.columns.map (·.label.encode) =
      ["L0~~0**name", "L0~~0**name", "L1~~0**id", "L1~~1**total"] :=
    part_eq (g := fun q : CompiledQuery => q.columns.map (·.label.encode)) hq (by decide +kernel)
  have hentries :
    (q.slots.get? 0 0).map (fun here => here.entries.filterMap (entryName? q.slots 0)) =
      some ["name", "name", "orders", "orders"] :=
    part_eq (g := fun q : CompiledQuery => (q.slots.get? 0 0).map fun here =>
      here.entries.filterMap (entryName? q.slots 0)) hq (by decide +kernel)
  obtain ⟨here, hhere, hnames⟩ := Option.map_eq_some_iff.mp hentries
  refine ⟨q, hq, by simp [hlabels], ⟨here, hhere, by simp [hnames]⟩, hlabels.symm ▸ rfl, ?_⟩
  exact part_eq (g := fun q : CompiledQuery =>
    (Assembly.objects q.slots annsOrder).map Json.compact) hq (by decide +kernel)

end Compiler

end SqlGateway.Query
