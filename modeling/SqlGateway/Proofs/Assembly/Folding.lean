import Mathlib.Data.List.Induction
import SqlGateway.Proofs.Assembly.Grouping
import SqlGateway.Proofs.Json.Object

/-!
# Folding rows into nodes

What the tree of nodes holds after any number of rows. A list of nodes that is changed row by row
holds one node for each distinct contribution, grown by just the rows that contribute it; the slots
of a node grow independently of each other. From these two facts the finished objects are the groups
of the reference, level by level.
-/
namespace SqlGateway.Assembly

open Query (Slot SlotEntry Slots)

section Nodes
variable {ρ : Type} {key : ρ → Object} {step : ρ → Node → Node}

/-- A node that starts with given fields and is changed by every row in turn. -/
def grow (step : ρ → Node → Node) (rows : List ρ) (o : Object) : Node :=
  rows.foldl (fun n row => step row n) (.mk o [])

theorem grow_concat (rows : List ρ) (row : ρ) (o : Object) :
    grow step (rows ++ [row]) o = step row (grow step rows o) := by
  simp [grow]

theorem fields_grow (hstep : ∀ row n, (step row n).fields = n.fields) (rows : List ρ) (o : Object) :
    (grow step rows o).fields = o := by
  induction rows using List.reverseRecOn with
  | nil => rfl
  | append_singleton rows row ih => rw [grow_concat, hstep, ih]

/-- Among nodes that are told apart by their text at most one is changed. -/
theorem changeNode_map {build : Object → Node} (hb : ∀ o, (build o).fields = o) {os : List Object}
    (hos : os.Pairwise fun a b => sameText a b = false) (k : Object) (change : Node → Node) :
    changeNode k change (os.map build) =
      if os.any (sameText · k) = true
      then os.map fun o => if sameText o k = true then change (build o) else build o
      else os.map build ++ [change (.mk k [])] := by
  induction os with
  | nil => rfl
  | cons o rest ih =>
      have hholds : (build o).holds k = sameText o k := by
        rw [← congrArg (sameText · k) (hb o)]
        rfl
      obtain ⟨ho, hrest⟩ := List.pairwise_cons.mp hos
      by_cases h : sameText o k = true
      · have hothers :
          rest.map (fun p => if sameText p k = true then change (build p) else build p) =
            rest.map build := by
          refine List.map_congr_left fun p hp => ?_
          have : sameText p k = false := by
            rw [sameText_comm, ← sameText_congr h]
            exact ho p hp
          simp [this]
        simp [changeNode, hholds, h, hothers]
      · simp only [List.map_cons, changeNode, hholds, h, Bool.false_eq_true, if_false, ih hrest,
          List.any_cons, Bool.false_or]
        split_ifs <;> rfl

theorem foldl_changeNode (hstep : ∀ row n, (step row n).fields = n.fields) (rows : List ρ) :
    rows.foldl (fun nodes row => changeNode (key row) (step row) nodes) [] =
      (firsts (rows.map key)).map fun o =>
        grow step (rows.filter fun row => sameText o (key row)) o := by
  -- From the end: the last row is the one that the fold takes in last, and it changes the node of
  -- its text or, where there is none, begins one.
  induction rows using List.reverseRecOn with
  | nil => rfl
  | append_singleton rows row ih =>
      rw [List.foldl_concat, ih, changeNode_map (fun o => fields_grow hstep _ o)
        (firsts_pairwise _), any_firsts, List.map_append, List.map_singleton, firsts_concat]
      by_cases h : (rows.map key).any (sameText · (key row)) = true
      · simp only [h, if_true]
        refine List.map_congr_left fun o _ => ?_
        by_cases ho : sameText o (key row) = true
        · simp [ho, List.filter_append, grow_concat]
        · simp [ho, List.filter_append]
      · simp only [h, Bool.false_eq_true, if_false, List.map_append, List.map_singleton]
        congr 1
        · refine List.map_congr_left fun o ho => ?_
          have hne : sameText o (key row) = false := by
            by_contra hc
            exact h (List.any_eq_true.mpr ⟨o, mem_of_mem_firsts ho, by simpa using hc⟩)
          simp [hne, List.filter_append]
        · have hnone : rows.filter (fun x => sameText (key row) (key x)) = [] := by
            refine List.filter_eq_nil_iff.mpr fun x hx hc => h ?_
            rw [sameText_comm] at hc
            exact List.any_eq_true.mpr ⟨key x, List.mem_map_of_mem hx, hc⟩
          simp [hnone, List.filter_append, grow]

end Nodes

def nodesOf (children : List (Nat × List Node)) (slot : Nat) : List Node :=
  ((children.find? (·.1 == slot)).map (·.2)).getD []

theorem nodesOf_changeSlot (slot other : Nat) (change : List Node → List Node)
    (children : List (Nat × List Node)) :
    nodesOf (changeSlot slot change children) other =
      if other = slot then change (nodesOf children slot) else nodesOf children other := by
  induction children with
  | nil =>
      by_cases h : other = slot
      · simp [changeSlot, nodesOf, h]
      · simp [changeSlot, nodesOf, h, Ne.symm h]
  | cons child rest ih =>
      obtain ⟨s, nodes⟩ := child
      by_cases hs : s = slot
      · subst hs
        by_cases h : other = s
        · simp [changeSlot, nodesOf, h]
        · simp [changeSlot, nodesOf, h, Ne.symm h]
      · by_cases h : s = other
        · subst h
          simp [changeSlot, nodesOf, hs]
        · have hrest := ih
          simp only [nodesOf] at hrest
          simp [changeSlot, nodesOf, hs, h, hrest]

theorem nodesOf_finishChildren (slots : Slots) (level slot : Nat)
    (children : List (Nat × List Node)) :
    lookup (finishChildren slots level children) slot =
      finishNodes slots level slot (nodesOf children slot) := by
  induction children with
  | nil => rfl
  | cons child rest ih =>
      obtain ⟨s, nodes⟩ := child
      by_cases h : s = slot
      · simp [finishChildren, lookup, nodesOf, h]
      · simpa [finishChildren, lookup, nodesOf, h] using ih

theorem finishNodes_eq_map (slots : Slots) (level slot : Nat) (nodes : List Node) :
    finishNodes slots level slot nodes = nodes.map (finish slots level slot) := by
  induction nodes with
  | nil => rfl
  | cons n rest ih => simp [finishNodes, ih]

section Rows
variable {slots : Slots} {r : ResultSet}

/-- What one row does to the slots below a node. -/
def foldChildren (slots : Slots) (r : ResultSet) (row : List Cell) (below level : Nat)
    (numbers : List Nat) (children : List (Nat × List Node)) : List (Nat × List Node) :=
  numbers.foldl
    (fun children child =>
      let contributed := contribution r row (level + 1) child
      if isAbsent contributed then children
      else
        changeSlot child
          (changeNode contributed (foldRow slots r row below (level + 1) child)) children)
    children

theorem foldRow_succ {level slot : Nat} {here : Slot} (h : slots.get? level slot = some here)
    (row : List Cell) (below : Nat) (n : Node) :
    foldRow slots r row (below + 1) level slot n =
      .mk n.fields (foldChildren slots r row below level (childSlots here) n.children) := by
  cases n with
  | mk fields children => simp only [foldRow, h, foldChildren, Node.fields, Node.children]

theorem foldRow_none {level slot : Nat} (h : slots.get? level slot = none) (row : List Cell)
    (below : Nat) (n : Node) : foldRow slots r row below level slot n = n := by
  cases n with
  | mk fields children => cases below <;> simp [foldRow, h]

theorem fields_foldRow (row : List Cell) (below level slot : Nat) (n : Node) :
    (foldRow slots r row below level slot n).fields = n.fields := by
  cases below with
  | zero => cases n; rfl
  | succ below =>
      cases h : slots.get? level slot with
      | none => rw [foldRow_none h]
      | some here => rw [foldRow_succ h]; rfl

/-- A row changes a slot once, however the slots are ordered. -/
theorem nodesOf_foldChildren (row : List Cell) (below level : Nat) {numbers : List Nat}
    (hn : numbers.Nodup) (children : List (Nat × List Node)) (slot : Nat) :
    nodesOf (foldChildren slots r row below level numbers children) slot =
      if slot ∈ numbers ∧ isAbsent (contribution r row (level + 1) slot) = false
      then changeNode (contribution r row (level + 1) slot)
        (foldRow slots r row below (level + 1) slot) (nodesOf children slot)
      else nodesOf children slot := by
  induction numbers generalizing children with
  | nil => simp [foldChildren]
  | cons m rest ih =>
      obtain ⟨hm, hrest⟩ := List.nodup_cons.mp hn
      simp only [foldChildren, List.foldl_cons]
      have step := ih hrest (if isAbsent (contribution r row (level + 1) m) = true then children
        else changeSlot m (changeNode (contribution r row (level + 1) m)
          (foldRow slots r row below (level + 1) m)) children)
      simp only [foldChildren] at step
      rw [step]
      by_cases hs : slot = m
      · subst hs
        by_cases ha : isAbsent (contribution r row (level + 1) slot) = true
        · simp [hm, ha]
        · simp [hm, ha, nodesOf_changeSlot]
      · by_cases ha : isAbsent (contribution r row (level + 1) m) = true
        · simp [hs, ha]
        · simp [hs, ha, nodesOf_changeSlot]

theorem nodesOf_grow_eq_foldl {level slot : Nat} {here : Slot}
    (h : slots.get? level slot = some here) (hn : (childSlots here).Nodup) (below : Nat)
    (rows : List (List Cell)) (fields : Object) {child : Nat} (hc : child ∈ childSlots here) :
    nodesOf (grow (fun row => foldRow slots r row (below + 1) level slot) rows fields).children
        child =
      (joinedRows r rows (level + 1) child).foldl
        (fun nodes row => changeNode (contribution r row (level + 1) child)
          (foldRow slots r row below (level + 1) child) nodes) [] := by
  induction rows using List.reverseRecOn with
  | nil => rfl
  | append_singleton rows row ih =>
      rw [grow_concat, foldRow_succ h, Node.children, nodesOf_foldChildren row below level hn, ih]
      by_cases ha : isAbsent (contribution r row (level + 1) child) = true
      · simp [ha, joinedRows, List.filter_append]
      · simp [hc, ha, joinedRows, List.filter_append]

theorem nodesOf_grow {level slot : Nat} {here : Slot} (h : slots.get? level slot = some here)
    (hn : (childSlots here).Nodup) (below : Nat) (rows : List (List Cell)) (fields : Object)
    {child : Nat} (hc : child ∈ childSlots here) :
    nodesOf (grow (fun row => foldRow slots r row (below + 1) level slot) rows fields).children
        child =
      (firsts (slices r (joinedRows r rows (level + 1) child) (level + 1) child)).map fun o =>
        grow (fun row => foldRow slots r row below (level + 1) child)
          (rowsOf r (joinedRows r rows (level + 1) child) (level + 1) child o) o := by
  rw [nodesOf_grow_eq_foldl h hn below rows fields hc]
  simp only [slices, rowsOf, slice_eq_contribution]
  exact foldl_changeNode (fun row n => fields_foldRow row below (level + 1) child n) _

/-- The fields of an object that a slot does not name follow in their order. -/
theorem withUnnamed_eq {fields : Object} (hf : fields.keys.Nodup) (o : Object) :
    withUnnamed fields o = o ++ fields.filter fun field => !o.contains field.1 := by
  induction fields generalizing o with
  | nil => simp [withUnnamed]
  | cons field rest ih =>
      obtain ⟨hfield, hrest⟩ := List.nodup_cons.mp hf
      simp only [withUnnamed, List.foldl_cons]
      by_cases hc : o.contains field.1 = true
      · have := ih hrest o
        simp only [withUnnamed] at this
        simp [hc, this]
      · have hnew := ih hrest (o ++ [field])
        simp only [withUnnamed] at hnew
        have hothers : (rest.filter fun f => !Object.contains f.1 (o ++ [field])) =
            rest.filter fun f => !o.contains f.1 := by
          refine List.filter_congr fun f hm => ?_
          have hne : field.1 ≠ f.1 := by
            intro he
            have : f.1 ∈ Object.keys rest := List.mem_map_of_mem hm
            exact hfield (by rwa [← he] at this)
          have hsingle : Object.contains f.1 [field] = false := by
            simp [Object.contains, Object.get?, hne]
          rw [Object.contains_append, hsingle, Bool.or_false]
        simp only [hc, Bool.false_eq_true, if_false,
          Object.insert_of_not_contains (by simpa using hc), hnew, hothers]
        simp [hc]

theorem arrange_eq (slots : Slots) (level : Nat) (fields : Object)
    (finished : List (Nat × List Json)) (here : Slot) :
    arrange slots level fields finished here =
      Object.ofFields
        (here.entries.filterMap (entryField slots level fields (lookup finished))) := by
  unfold arrange Object.ofFields
  generalize ([] : Object) = o
  induction here.entries generalizing o with
  | nil => rfl
  | cons entry rest ih =>
      rw [List.foldl_cons, ih]
      cases entry with
      | field name => cases hf : fields.get? name <;> simp [entryField, hf, Object.insertAll]
      | child n =>
          cases hc : slots.get? (level + 1) n <;> simp [entryField, hc, Object.insertAll]

theorem filterMap_entryField_congr {slots : Slots} {level : Nat} {fields : Object} {here : Slot}
    {below : Nat → List Json} (other : Nat → List Json)
    (h : ∀ n ∈ childSlots here, below n = other n) :
    here.entries.filterMap (entryField slots level fields below) =
      here.entries.filterMap (entryField slots level fields other) := by
  refine List.filterMap_congr fun entry he => ?_
  cases entry with
  | field name => rfl
  | child n =>
      have hn : n ∈ childSlots here := List.mem_filterMap.mpr ⟨.child n, he, rfl⟩
      simp [entryField, h n hn]

theorem nodup_keys_slice (r : ResultSet) (row : List Cell) (level slot : Nat) :
    (slice r row level slot).keys.Nodup := Object.nodup_keys_ofFields _

/-- No slot names a child twice. -/
def DistinctChildren (slots : Slots) : Prop :=
  ∀ level slot here, slots.get? level slot = some here → (childSlots here).Nodup

theorem grow_of_none {level slot : Nat} (h : slots.get? level slot = none) (below : Nat)
    (rows : List (List Cell)) (fields : Object) :
    grow (fun row => foldRow slots r row below level slot) rows fields = .mk fields [] := by
  induction rows using List.reverseRecOn with
  | nil => rfl
  | append_singleton rows row ih => rw [grow_concat, foldRow_none h, ih]

theorem finish_none {level slot : Nat} (h : slots.get? level slot = none) (n : Node) :
    finish slots level slot n = .object n.fields := by
  cases n with
  | mk fields children => simp only [finish, h, Node.fields]

theorem grouped_none {level slot : Nat} (h : slots.get? level slot = none)
    (rows : List (List Cell)) (fields : Object) :
    grouped slots r level slot rows fields = .object fields := by
  rw [grouped]
  split
  · rfl
  · simp_all

theorem finish_some {level slot : Nat} {here : Slot} (h : slots.get? level slot = some here)
    {n : Node} (hf : n.fields.keys.Nodup) :
    finish slots level slot n = .object (ordered slots level here n.fields fun child =>
      (nodesOf n.children child).map (finish slots (level + 1) child)) := by
  cases n with
  | mk fields children =>
      have hbelow : lookup (finishChildren slots (level + 1) children) = fun child =>
          (nodesOf children child).map (finish slots (level + 1) child) := by
        funext child
        rw [nodesOf_finishChildren, finishNodes_eq_map]
      have hkeys : fields.keys.Nodup := hf
      simp only [finish, h, withUnnamed_eq hkeys, arrange_eq, hbelow, ordered, Node.fields,
        Node.children]

theorem grouped_some {level slot : Nat} {here : Slot} (h : slots.get? level slot = some here)
    (rows : List (List Cell)) (fields : Object) :
    grouped slots r level slot rows fields = .object (ordered slots level here fields fun n =>
      (firsts (slices r (joinedRows r rows (level + 1) n) (level + 1) n)).map fun o =>
        grouped slots r (level + 1) n
          (rowsOf r (joinedRows r rows (level + 1) n) (level + 1) n o) o) := by
  rw [grouped]
  split
  · simp_all
  · next here' h' =>
      obtain rfl : here' = here := Option.some.inj (h'.symm.trans h)
      rfl

/-- A node to which rows were folded is finished as the group of these rows. -/
theorem finish_grow (hd : DistinctChildren slots) (below : Nat) {level slot : Nat}
    (hb : level + below = slots.levels.length) (rows : List (List Cell)) {fields : Object}
    (hf : fields.keys.Nodup) :
    finish slots level slot (grow (fun row => foldRow slots r row below level slot) rows fields) =
      grouped slots r level slot rows fields := by
  -- On the levels that are left, since the fold goes down by them; a slot below the last level is
  -- not there, so the fold stops where the grouping does.
  induction below generalizing level slot rows fields with
  | zero =>
      have hnone : slots.get? level slot = none := by
        cases h : slots.get? level slot with
        | none => rfl
        | some here => exact absurd (lt_length_of_get? h) (by omega)
      rw [grow_of_none hnone, finish_none hnone, grouped_none hnone]
      rfl
  | succ below ih =>
      cases h : slots.get? level slot with
      | none =>
          rw [grow_of_none h, finish_none h, grouped_none h]
          rfl
      | some here =>
          have hfields := fields_grow (fun row n =>
            @fields_foldRow slots r row (below + 1) level slot n) rows fields
          rw [finish_some h (by rw [hfields]; exact hf), grouped_some h, hfields]
          unfold ordered
          rw [filterMap_entryField_congr fun n =>
            (firsts (slices r (joinedRows r rows (level + 1) n) (level + 1) n)).map fun o =>
              grouped slots r (level + 1) n
                (rowsOf r (joinedRows r rows (level + 1) n) (level + 1) n o) o]
          intro child hc
          rw [nodesOf_grow h (hd level slot here h) below rows fields hc, List.map_map]
          refine List.map_congr_left fun o ho => ?_
          obtain ⟨row, _, rfl⟩ := List.mem_map.mp (mem_of_mem_firsts ho)
          exact ih (by omega) _ (nodup_keys_slice r row (level + 1) child)

end Rows

/-- The finished objects are the groups of the reference. -/
theorem objects_eq_groupedRoots {slots : Slots} (hd : DistinctChildren slots) (r : ResultSet) :
    objects slots r = groupedRoots slots r := by
  have hroot : ∀ rows row, finish slots 0 0
      (grow (fun row => foldRow slots r row slots.levels.length 0 0) rows
        (contribution r row 0 0)) = grouped slots r 0 0 rows (contribution r row 0 0) :=
    fun rows row =>
      finish_grow hd _ (Nat.zero_add _)
        rows (slice_eq_contribution r row 0 0 ▸ nodup_keys_slice r row 0 0)
  simp only [objects, finishNodes_eq_map, groupedRoots, slices, rowsOf, slice_eq_contribution]
  by_cases hflat : slots.maxLevel = 0
  · have hfold : ∀ (rows : List (List Cell)) (start : List Node),
        rows.foldl (addRow slots r) start = start ++ rows.map fun row =>
          grow (fun row => foldRow slots r row slots.levels.length 0 0) [row]
            (contribution r row 0 0) := by
      intro rows
      induction rows with
      | nil => simp
      | cons row rest ih =>
          intro start
          rw [List.foldl_cons, ih]
          simp [addRow, hflat, grow]
    simp only [hflat, if_true, hfold, List.nil_append, List.map_map]
    exact List.map_congr_left fun row _ => hroot [row] row
  · have hfold : r.rows.foldl (addRow slots r) [] =
        r.rows.foldl (fun nodes row => changeNode (contribution r row 0 0)
          (foldRow slots r row slots.levels.length 0 0) nodes) [] := by
      congr 1
      funext nodes row
      simp [addRow, Nat.pos_of_ne_zero hflat]
    rw [hfold, foldl_changeNode (fun row n => fields_foldRow row _ 0 0 n), if_neg hflat,
      List.map_map]
    refine List.map_congr_left fun o ho => ?_
    obtain ⟨row, _, rfl⟩ := List.mem_map.mp (mem_of_mem_firsts ho)
    exact hroot _ row

end SqlGateway.Assembly
