import Mathlib.Data.List.Nodup
import SqlGateway.Assembly
import SqlGateway.Proofs.Query.Walk

/-!
# Slot numbers

How the slots of a registry are looked up after a slot or an entry was added, and what follows for
the registry of a compiled field: no slot names the same child twice, because every child has a
number that was free when it was added.
-/
namespace SqlGateway.Query

open Assembly (childSlots)
open Request (Field Variables)

namespace Slots

variable {s : Slots}

theorem level_add (l l' : Nat) (slot : Slot) :
    (s.add l slot).level l' = if l' = l then s.level l ++ [slot] else s.level l' := by
  have hpad : ∀ n, ((s.levels ++ List.replicate (l + 1 - s.levels.length) [])[n]?).getD [] =
      s.level n := by
    intro n
    rcases Nat.lt_or_ge n s.levels.length with hn | hn
    · rw [List.getElem?_append_left hn, level]
    · rw [List.getElem?_append_right hn, List.getElem?_replicate, level,
        List.getElem?_eq_none hn]
      split <;> rfl
  have hlen :
      l < (s.levels ++ List.replicate (l + 1 - s.levels.length) ([] : List Slot)).length := by
    simp only [List.length_append, List.length_replicate]
    omega
  by_cases h : l' = l
  · subst h
    rw [if_pos rfl, ← hpad l', level, add, List.getElem?_modify_eq, List.getElem?_eq_getElem hlen]
    rfl
  · rw [if_neg h, ← hpad l', level, add, List.getElem?_modify_ne _ _ (Ne.symm h)]

theorem get?_add (l n l' n' : Nat) (slot : Slot) (hn : n = (s.level l).length) :
    (s.add l slot).get? l' n' = if l' = l ∧ n' = n then some slot else s.get? l' n' := by
  subst hn
  simp only [get?, level_add]
  by_cases h : l' = l
  · subst h
    by_cases hn : n' = (s.level l').length
    · simp [hn]
    · simp only [if_true, true_and, if_neg hn]
      rcases Nat.lt_or_ge n' (s.level l').length with hlt | hge
      · rw [List.getElem?_append_left hlt]
      · rw [List.getElem?_append_right hge, List.getElem?_eq_none hge]
        exact List.getElem?_eq_none (by simp only [List.length_singleton]; omega)
  · simp [h]

theorem level_addEntry (l n l' : Nat) (entry : SlotEntry) :
    (s.addEntry l n entry).level l' =
      if l' = l then
        (s.level l).modify n fun slot => { slot with entries := slot.entries ++ [entry] }
      else s.level l' := by
  by_cases h : l' = l
  · subst h
    rw [if_pos rfl, level, addEntry, List.getElem?_modify_eq, level]
    cases s.levels[l']? <;> simp
  · rw [if_neg h, level, addEntry, List.getElem?_modify_ne _ _ (Ne.symm h), level]

theorem get?_addEntry (l n l' n' : Nat) (entry : SlotEntry) :
    (s.addEntry l n entry).get? l' n' =
      if l' = l ∧ n' = n
      then (s.get? l n).map fun slot => { slot with entries := slot.entries ++ [entry] }
      else s.get? l' n' := by
  simp only [get?, level_addEntry]
  by_cases h : l' = l
  · subst h
    by_cases hn : n' = n
    · subst hn
      simp [List.getElem?_modify_eq]
    · simp [hn, List.getElem?_modify_ne _ _ (Ne.symm hn)]
  · simp [h]

@[simp] theorem length_level_addEntry (l n l' : Nat) (entry : SlotEntry) :
    ((s.addEntry l n entry).level l').length = (s.level l').length := by
  rw [level_addEntry]
  split_ifs with h
  · subst h
    exact List.length_modify ..
  · rfl

theorem length_level_add (l l' : Nat) (slot : Slot) :
    ((s.add l slot).level l').length = (s.level l').length + if l' = l then 1 else 0 := by
  rw [level_add]
  split_ifs with h
  · subst h
    simp
  · rfl

/-- Every slot names each child once, and only children that are there. -/
def Numbered (s : Slots) : Prop :=
  ∀ level slot here, s.get? level slot = some here →
    (childSlots here).Nodup ∧ ∀ n ∈ childSlots here, n < (s.level (level + 1)).length

theorem Numbered.add (hs : s.Numbered) (l : Nat) {slot : Slot} (he : slot.entries = []) :
    (s.add l slot).Numbered := by
  intro level n here h
  rw [get?_add l _ level n slot rfl] at h
  split_ifs at h with hnew
  · obtain rfl := Option.some.inj h
    simp [childSlots, he]
  · obtain ⟨hd, hb⟩ := hs level n here h
    refine ⟨hd, fun m hm => ?_⟩
    rw [length_level_add]
    have := hb m hm
    omega

theorem Numbered.addEntry (hs : s.Numbered) (l n : Nat) {entry : SlotEntry}
    (he : ∀ m, entry = .child m → m < (s.level (l + 1)).length ∧
      ∀ here, s.get? l n = some here → m ∉ childSlots here) : (s.addEntry l n entry).Numbered := by
  intro level slot here h
  simp only [length_level_addEntry]
  rw [get?_addEntry] at h
  split_ifs at h with hat
  · obtain ⟨rfl, rfl⟩ := hat
    obtain ⟨before, hbefore, rfl⟩ := Option.map_eq_some_iff.mp h
    obtain ⟨hd, hb⟩ := hs level slot before hbefore
    cases entry with
    | field name =>
        have hchildren : childSlots { before with entries := before.entries ++ [.field name] } =
            childSlots before := by simp [childSlots]
        rw [hchildren]
        exact ⟨hd, hb⟩
    | child m =>
        obtain ⟨hm, hfresh⟩ := he m rfl
        have hchildren : childSlots { before with entries := before.entries ++ [.child m] } =
            childSlots before ++ [m] := by simp [childSlots]
        rw [hchildren]
        refine ⟨?_, ?_⟩
        · rw [List.nodup_append]
          refine ⟨hd, List.nodup_singleton _, ?_⟩
          rintro a ha b hb' rfl
          exact hfresh before hbefore (List.mem_singleton.mp hb' ▸ ha)
        · intro a ha
          rcases List.mem_append.mp ha with ha | ha
          · exact hb a ha
          · exact List.mem_singleton.mp ha ▸ hm
  · exact hs level slot here h

end Slots

namespace Compiler

variable {c : Compiler} {vars : Variables}

theorem numbered_withLeaf {w : Walk} (hw : w.slots.Numbered) (level slot : Nat) (f : Field)
    (column : SelectColumn) : (w.withLeaf level slot f column).slots.Numbered :=
  hw.addEntry level slot (fun m h => by cases h)

theorem numbered_withSlot {w : Walk} (hw : w.slots.Numbered) (level slot : Nat) (f : Field) :
    (w.withSlot level slot f).slots.Numbered := by
  refine (hw.add (level + 1) rfl).addEntry level slot ?_
  rintro m h
  obtain rfl : w.nextSlot level = m := by simpa using h
  refine ⟨?_, ?_⟩
  · rw [Slots.length_level_add, if_pos rfl]
    exact Nat.lt_succ_self _
  · intro here hhere hm
    -- The new number is the length of its level, and the numbers that the slot names are below it.
    rw [Slots.get?_add (level + 1) _ level slot _ rfl, if_neg (by omega)] at hhere
    exact Nat.lt_irrefl _ ((hw level slot here hhere).2 _ hm)

theorem slots_addJoin {f : Field} {parent child : String} {w w' : Walk}
    (h : c.addJoin vars f parent child w = .ok w') : w'.slots = w.slots := by
  obtain ⟨_, rfl⟩ | ⟨_, _, _, _, rfl⟩ := addJoin_ok h
  · rfl
  · rfl

theorem Walks.numbered {table : String} {level slot : Nat} {w w' : Walk} {fields : List Field}
    (h : Walks c vars table level slot w fields w') (hw : w.slots.Numbered) :
    w'.slots.Numbered := by
  induction h with
  | nil => exact hw
  | leaf _ _ _ _ ih => exact ih (numbered_withLeaf hw _ _ _ _)
  | nested _ _ _ hjoin _ _ _ ihbelow ih =>
      refine ih (ihbelow ?_)
      rw [Walk.withClauses, slots_addJoin hjoin]
      exact numbered_withSlot hw _ _ _

theorem length_levels_withSlot (w : Walk) (level slot : Nat) (f : Field) :
    (w.withSlot level slot f).slots.levels.length = max w.slots.levels.length (level + 2) := by
  simp only [Walk.withSlot, Slots.add, Slots.addEntry, List.length_modify, List.length_append,
    List.length_replicate]
  omega

theorem Walks.levels_length_le {table : String} {level slot : Nat} {w w' : Walk}
    {fields : List Field} (h : Walks c vars table level slot w fields w') :
    w.slots.levels.length ≤ w'.slots.levels.length := by
  induction h with
  | nil => exact Nat.le_refl _
  | leaf _ _ _ _ ih => simpa [Walk.withLeaf, Slots.addEntry] using ih
  | @nested _ level slot w f _ joined _ _ _ _ _ _ _ hjoin _ _ _ ihbelow ih =>
      refine Nat.le_trans ?_ (Nat.le_trans ihbelow ih)
      rw [Walk.withClauses, slots_addJoin hjoin, length_levels_withSlot]
      exact Nat.le_max_left ..

theorem Walks.lt_levels_length {table : String} {level slot : Nat} {w w' : Walk}
    {fields : List Field} (h : Walks c vars table level slot w fields w')
    (hnested : ∃ f ∈ fields, f.isLeaf = false) : level + 1 < w'.slots.levels.length := by
  induction h with
  | nil => simp at hnested
  | leaf hleaf _ _ _ ih =>
      refine ih ?_
      obtain ⟨f, hf, hfleaf⟩ := hnested
      rcases List.mem_cons.mp hf with rfl | hf
      · rw [hleaf] at hfleaf
        cases hfleaf
      · exact ⟨f, hf, hfleaf⟩
  | @nested _ level slot w f _ joined _ _ _ _ _ _ _ hjoin _ hbelow hrest _ _ =>
      have hle := Nat.le_trans hbelow.levels_length_le hrest.levels_length_le
      rw [Walk.withClauses, slots_addJoin hjoin, length_levels_withSlot] at hle
      omega

/-- Leaves add no level. -/
theorem Walks.levels_length_of_leaves {table : String} {level slot : Nat} {w w' : Walk}
    {fields : List Field} (h : Walks c vars table level slot w fields w')
    (hleaves : ∀ f ∈ fields, f.isLeaf = true) : w'.slots.levels.length = w.slots.levels.length := by
  induction h with
  | nil => rfl
  | leaf _ _ _ _ ih =>
      simpa [Walk.withLeaf, Slots.addEntry] using ih (List.forall_mem_cons.mp hleaves).2
  | nested hleaf => exact absurd (List.forall_mem_cons.mp hleaves).1 (by simp [hleaf])

theorem numbered_startWalk (f : Field) (main : String) : (startWalk f main).slots.Numbered := by
  refine Slots.Numbered.add (s := .empty) ?_ 0 rfl
  intro level slot here h
  simp [Slots.get?, Slots.level, Slots.empty] at h

/-- The registry of a compiled field names every child once. -/
theorem numbered_of_compileWith {limited : Bool} {f : Field} {q : CompiledQuery}
    (h : c.compileWith limited vars f = .ok q) : q.slots.Numbered := by
  obtain ⟨filters, orderBy, w, _, _, hw, hslots, _⟩ := compileWith_ok h
  rw [hslots]
  exact hw.numbered (numbered_startWalk f q.mainTable)

theorem maxLevel_pos_of_compileWith {limited : Bool} {f : Field} {q : CompiledQuery}
    (h : c.compileWith limited vars f = .ok q) (hnested : ∃ g ∈ f.selection, g.isLeaf = false) :
    0 < q.slots.maxLevel := by
  obtain ⟨filters, orderBy, w, _, _, hw, hslots, _⟩ := compileWith_ok h
  have := hw.lt_levels_length hnested
  rw [hslots, Slots.maxLevel]
  omega

theorem maxLevel_of_leaves {limited : Bool} {f : Field} {q : CompiledQuery}
    (h : c.compileWith limited vars f = .ok q) (hleaves : ∀ g ∈ f.selection, g.isLeaf = true) :
    q.slots.maxLevel = 0 := by
  obtain ⟨filters, orderBy, w, _, _, hw, hslots, _⟩ := compileWith_ok h
  rw [hslots, Slots.maxLevel, hw.levels_length_of_leaves hleaves]
  rfl

end Compiler

end SqlGateway.Query
