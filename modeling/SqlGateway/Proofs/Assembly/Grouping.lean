import Mathlib.Data.List.Basic
import SqlGateway.Assembly

/-!
# Grouping rows

The reference for assembled objects: a recursive grouping of rows by their slices, stated without
any tree that is changed row by row and without what the assembler takes from a row. The main result
is that folding the rows one after another into the tree of nodes gives exactly these groups, for
every registry of slots in which no slot names a child twice, and for every result set.
-/
namespace SqlGateway

open Query (Alias Slot SlotEntry Slots)

namespace Assembly

/-- Slices are told apart by their text. -/
def sameText (a b : Object) : Bool := (Json.object a).compact == (Json.object b).compact

@[simp] theorem sameText_self (a : Object) : sameText a a = true := by simp [sameText]

theorem sameText_comm (a b : Object) : sameText a b = sameText b a := by
  simp only [sameText, Bool.beq_comm]

theorem sameText_congr {a b : Object} (h : sameText a b = true) (c : Object) :
    sameText a c = sameText b c := by
  simp only [sameText, beq_iff_eq] at h ⊢
  rw [h]

/-- The distinct ones among slices, each in the place of the first of its text. -/
def firsts : List Object → List Object
  | [] => []
  | o :: rest => o :: (firsts rest).filter fun p => !sameText o p

theorem any_firsts (os : List Object) (k : Object) :
    (firsts os).any (sameText · k) = os.any (sameText · k) := by
  induction os with
  | nil => rfl
  | cons o rest ih =>
      simp only [firsts, List.any_cons, List.any_filter]
      by_cases h : sameText o k = true
      · simp [h]
      · have hk : ∀ p, (!sameText o p && sameText p k) = sameText p k := by
          intro p
          by_cases hp : sameText p k = true
          · have : sameText o p = false := by
              rw [sameText_comm, sameText_congr hp, sameText_comm]
              simpa using h
            simp [this]
          · simp [hp]
        simp only [hk, ih]

theorem firsts_concat (os : List Object) (k : Object) :
    firsts (os ++ [k]) =
      if os.any (sameText · k) = true then firsts os else firsts os ++ [k] := by
  induction os with
  | nil => rfl
  | cons o rest ih =>
      simp only [List.cons_append, firsts, ih, List.any_cons]
      by_cases h : sameText o k = true <;> by_cases hr : rest.any (sameText · k) = true <;>
        simp [h, hr]

theorem firsts_pairwise (os : List Object) :
    (firsts os).Pairwise fun a b => sameText a b = false := by
  induction os with
  | nil => exact .nil
  | cons o rest ih =>
      refine List.pairwise_cons.mpr ⟨?_, ih.filter _⟩
      intro p hp
      simpa using (List.mem_filter.mp hp).2

theorem mem_of_mem_firsts {os : List Object} {o : Object} (h : o ∈ firsts os) : o ∈ os := by
  induction os with
  | nil => exact h
  | cons p rest ih =>
      rcases List.mem_cons.mp h with rfl | h
      · simp
      · exact List.mem_cons_of_mem _ (ih (List.mem_filter.mp h).1)

/-- The name that a label has in a slot, if it belongs there. A label that is no alias is a name of
the root. -/
def nameAt? (level slot : Nat) (label : String) : Option String :=
  match Alias.decode? label with
  | some a => if a.level = level ∧ a.slot = slot then some a.name else none
  | none => if level = 0 ∧ slot = 0 then some label else none

/-- The slice of a row that belongs to a slot: the values of the columns whose labels belong there,
under their names, each as the type of its column has it. -/
def slice (r : ResultSet) (row : List Cell) (level slot : Nat) : Object :=
  Object.ofFields ((r.columns.zip row).filterMap fun (column, cell) =>
    (nameAt? level slot column.name).map (·, cell.coerce column.type))

theorem nameAt?_eq (level slot : Nat) (label : String) : nameAt? level slot label =
    if (place label).level = level ∧ (place label).slot = slot then some (place label).name
    else none := by
  cases h : Alias.decode? label with
  | some a =>
      have hplace : place label = a := by rw [place, h, Option.getD_some]
      rw [nameAt?, h, hplace]
  | none =>
      have hplace : place label = ⟨0, 0, label⟩ := by rw [place, h, Option.getD_none]
      rw [nameAt?, h, hplace]
      simp only [eq_comm]

/-- A row contributes its slice to a slot. -/
@[simp] theorem slice_eq_contribution (r : ResultSet) (row : List Cell) (level slot : Nat) :
    slice r row level slot = contribution r row level slot := by
  refine congrArg _ (List.filterMap_congr fun pair _ => ?_)
  dsimp only
  rw [nameAt?_eq]
  split_ifs <;> rfl

/-- The slices of rows at a slot. -/
def slices (r : ResultSet) (rows : List (List Cell)) (level slot : Nat) : List Object :=
  rows.map (slice r · level slot)

/-- The rows in which a slot has a joined row: those that are not null throughout there. -/
def joinedRows (r : ResultSet) (rows : List (List Cell)) (level slot : Nat) : List (List Cell) :=
  rows.filter fun row => !isAbsent (slice r row level slot)

/-- The rows that have a given object as their slice at a slot. -/
def rowsOf (r : ResultSet) (rows : List (List Cell)) (level slot : Nat) (o : Object) :
    List (List Cell) :=
  rows.filter fun row => sameText o (slice r row level slot)

theorem lt_length_of_get? {slots : Slots} {level slot : Nat} {here : Slot}
    (h : slots.get? level slot = some here) : level < slots.levels.length := by
  rcases Nat.lt_or_ge level slots.levels.length with hl | hl
  · exact hl
  · simp [Slots.get?, Slots.level, List.getElem?_eq_none hl] at h

/-- The field of an object that an entry of its slot stands for; `below` gives the objects of a
child slot. -/
def entryField (slots : Slots) (level : Nat) (fields : Object) (below : Nat → List Json) :
    SlotEntry → Option (String × Json)
  | .field name => (fields.get? name).map (name, ·)
  | .child n => (slots.get? (level + 1) n).map fun child => (child.outputName, .list (below n))

/-- The fields in the order of the entries, and behind them those that no entry names. -/
def ordered (slots : Slots) (level : Nat) (here : Slot) (fields : Object)
    (below : Nat → List Json) : Object :=
  let named := Object.ofFields (here.entries.filterMap (entryField slots level fields below))
  named ++ fields.filter fun field => !named.contains field.1

/-- The object of a slot that holds `fields`, where `rows` are the rows that belong to it. Below it
every child slot lists the distinct slices of those of its rows that are joined there, and each of
them is again an object, to which the rows belong that have it as their slice. -/
def grouped (slots : Slots) (r : ResultSet) (level slot : Nat) (rows : List (List Cell))
    (fields : Object) : Json :=
  match _ : slots.get? level slot with
  | none => .object fields
  | some here => .object (ordered slots level here fields fun n =>
      let joined := joinedRows r rows (level + 1) n
      (firsts (slices r joined (level + 1) n)).map fun o =>
        grouped slots r (level + 1) n (rowsOf r joined (level + 1) n o) o)
termination_by slots.levels.length - level
decreasing_by
  have := lt_length_of_get? ‹_›
  omega

/-- The root objects: one for each distinct slice at the root, or one for each row where nothing is
nested. -/
def groupedRoots (slots : Slots) (r : ResultSet) : List Json :=
  if slots.maxLevel = 0 then
    r.rows.map fun row => grouped slots r 0 0 [row] (slice r row 0 0)
  else
    (firsts (slices r r.rows 0 0)).map fun o =>
      grouped slots r 0 0 (rowsOf r r.rows 0 0 o) o

end Assembly

end SqlGateway
