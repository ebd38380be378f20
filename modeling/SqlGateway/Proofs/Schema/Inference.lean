import SqlGateway.Proofs.Schema.Tables

/-!
# Joins inferred from foreign keys

A table that is put into the active schema brings its foreign keys into the joins, column by column.
What the join with a referenced table comes to depends on the join that was there and on the foreign
key columns that refer to that table, and every other join is left as it was but for the mark
whether its tables are active.
-/
namespace SqlGateway.Schema

/-- A foreign key column: the table and the column that it refers to, and its own name. -/
structure Reference where
  referenced : String
  target : String
  own : String
  deriving DecidableEq, Repr

theorem joinKey_left_inj {a b table : String} : joinKey a table = joinKey b table ↔ a = b := by
  rw [joinKey, joinKey, String.append_left_inj, String.append_left_inj]

namespace Join

/-- The join with the pair of a foreign key column, unless it has that column already. -/
def absorb (j : Join) (x : Reference) : Join :=
  if j.columns2.contains x.own then j
  else { j with columns1 := j.columns1 ++ [x.target], columns2 := j.columns2 ++ [x.own] }

/-- The join that foreign key columns are brought into if there is none. -/
def blank (referenced table : String) : Join := ⟨referenced, table, [], [], false, false, none⟩

/-- The join with another mark whether its tables are active. -/
def marked (j : Join) (active : Bool) : Join := { j with isActive := active }

/-- The foreign key columns that a join lacks. -/
def lacking (j : Join) (xs : List Reference) : List Reference :=
  xs.filter fun x => !j.columns2.contains x.own

/-- The join with the pairs of those foreign key columns that it lacks. -/
def extended (j : Join) (xs : List Reference) : Join :=
  { j with
    columns1 := j.columns1 ++ (j.lacking xs).map (·.target)
    columns2 := j.columns2 ++ (j.lacking xs).map (·.own) }

theorem key_absorb (j : Join) (x : Reference) : (j.absorb x).key = j.key := by
  unfold absorb
  split_ifs <;> rfl

theorem absorb_marked (j : Join) (x : Reference) (active : Bool) :
    (j.marked active).absorb x = (j.absorb x).marked active := by
  unfold absorb marked
  split_ifs <;> rfl

theorem foldl_absorb_marked (j : Join) (xs : List Reference) (active : Bool) :
    xs.foldl absorb (j.marked active) = (xs.foldl absorb j).marked active := by
  induction xs generalizing j with
  | nil => rfl
  | cons x rest ih => rw [List.foldl_cons, absorb_marked, ih, List.foldl_cons]

/-- Columns of different names are brought in each for itself. -/
theorem foldl_absorb {xs : List Reference} (h : (xs.map (·.own)).Nodup) (j : Join) :
    xs.foldl absorb j = j.extended xs := by
  induction xs generalizing j with
  | nil => simp [extended, lacking]
  | cons x rest ih =>
      obtain ⟨hx, hrest⟩ := List.nodup_cons.mp h
      rw [List.foldl_cons, ih hrest, absorb]
      split_ifs with hown
      · have hlacking : j.lacking (x :: rest) = j.lacking rest :=
          List.filter_cons_of_neg (by simpa using hown)
        rw [extended, extended, hlacking]
      · have hlacking : j.lacking (x :: rest) = x :: j.lacking rest :=
          List.filter_cons_of_pos (by simpa using hown)
        have hothers :
            rest.filter (fun y => !(j.columns2 ++ [x.own]).contains y.own) = j.lacking rest := by
          refine List.filter_congr fun y hy => ?_
          have hne : y.own ≠ x.own := fun heq => hx (List.mem_map.mpr ⟨y, hy, heq⟩)
          simp [hne]
        rw [extended, extended, hlacking, lacking, hothers]
        simp

/-- A join that has all the columns stays as it is. -/
theorem extended_of_forall {j : Join} {xs : List Reference} (h : ∀ x ∈ xs, x.own ∈ j.columns2) :
    j.extended xs = j := by
  have hnone : j.lacking xs = [] := List.filter_eq_nil_iff.mpr fun x hx => by simp [h x hx]
  simp [extended, hnone]

theorem blank_extended (referenced table : String) (xs : List Reference) :
    (blank referenced table).extended xs =
      ⟨referenced, table, xs.map (·.target), xs.map (·.own), false, false, none⟩ := by
  simp [blank, extended, lacking]

end Join

namespace Registry

variable {r : Registry} {table referenced key : String} {columns : Table}

/-- The foreign key columns among the columns of a table, in their order. -/
def referencesIn (r : Registry) (columns : Table) : List Reference :=
  columns.values.filterMap fun c =>
    c.foreignKey.map fun fk => ⟨r.tableKey fk.schemaName fk.tableName, fk.columnName, c.columnName⟩

/-- The foreign key columns of a table, whether it is active or not. -/
def references (r : Registry) (table : String) : List Reference :=
  r.referencesIn ((r.found? table).getD [])

/-- The foreign key columns of a table that refer to another one. -/
def referencesTo (r : Registry) (table referenced : String) : List Reference :=
  (r.references table).filter fun x => x.referenced == referenced

theorem mem_referencesTo {x : Reference} :
    x ∈ r.referencesTo table referenced ↔ x ∈ r.references table ∧ x.referenced = referenced := by
  simp [referencesTo]

theorem exists_of_referencesTo_ne_nil (h : r.referencesTo table referenced ≠ []) :
    ∃ x ∈ r.references table, x.referenced = referenced := by
  obtain ⟨x, hx⟩ := List.exists_mem_of_ne_nil _ h
  exact ⟨x, mem_referencesTo.mp hx⟩

/-- What refers to what is known from the tables and the name of the default schema. -/
theorem references_congr {r' : Registry} (hschema : r'.defaultSchema = r.defaultSchema)
    (hfound : r'.found? table = r.found? table) : r'.references table = r.references table := by
  simp only [references, referencesIn, tableKey, hschema, hfound]

theorem referencesTo_congr {r' : Registry} (hschema : r'.defaultSchema = r.defaultSchema)
    (hfound : r'.found? table = r.found? table) (referenced : String) :
    r'.referencesTo table referenced = r.referencesTo table referenced := by
  rw [referencesTo, references_congr hschema hfound, referencesTo]

theorem own_referencesIn_sublist (hcolumns : columns.Orderly) :
    ((r.referencesIn columns).map (·.own)).Sublist columns.keys := by
  have hnames : columns.values.map (·.columnName) = columns.keys := by
    rw [Dictionary.values, Dictionary.keys, List.map_map]
    refine List.map_congr_left fun entry hentry => ?_
    exact hcolumns.named entry.1 entry.2 (Dictionary.get?_of_mem hcolumns.ascending hentry)
  rw [← hnames, referencesIn]
  induction columns.values with
  | nil => exact .slnil
  | cons c rest ih =>
      cases hfk : c.foreignKey with
      | none =>
          rw [List.filterMap_cons_none (by simp [hfk])]
          exact ih.cons _
      | some fk =>
          rw [List.filterMap_cons_some (by rw [hfk]; rfl), List.map_cons, List.map_cons]
          exact ih.cons_cons _

/-- The foreign key columns of a table go by their names. -/
theorem Orderly.ascending_own_referencesTo (h : r.Orderly) (table referenced : String) :
    ((r.referencesTo table referenced).map (·.own)).Pairwise (· < ·) := by
  refine List.Pairwise.sublist (List.filter_sublist.map _) ?_
  rw [references]
  cases hfound : r.found? table with
  | none => exact .nil
  | some columns =>
      have hcolumns := h.tables table columns hfound
      exact (Dictionary.ascending_iff.mp hcolumns.ascending).sublist
        (own_referencesIn_sublist hcolumns)

theorem Orderly.nodup_own_referencesTo (h : r.Orderly) (table referenced : String) :
    ((r.referencesTo table referenced).map (·.own)).Nodup := by
  refine List.Pairwise.imp (fun hlt heq => ?_) (h.ascending_own_referencesTo table referenced)
  rw [heq] at hlt
  exact String.lt_irrefl _ hlt

/-- The join of a table with one that its foreign keys refer to: each foreign key column paired with
the column that it refers to, and active if both tables are. -/
def inferredJoin (r : Registry) (table referenced : String) : Join where
  table1 := referenced
  table2 := table
  columns1 := (r.referencesTo table referenced).map (·.target)
  columns2 := (r.referencesTo table referenced).map (·.own)
  isActive := r.hasTable referenced && r.hasTable table
  isCustom := false
  complexCondition := none

/-- Brings a foreign key column of a table into the join with the referenced table. -/
def infer (r : Registry) (table : String) (x : Reference) : Registry :=
  let found := (r.joins.get? (joinKey x.referenced table)).getD (.blank x.referenced table)
  { r with
    joins := r.joins.insert (joinKey x.referenced table)
      ((found.absorb x).marked (r.hasTable x.referenced)) }

theorem inferJoin_eq (r : Registry) (table : String) (c : Column) (fk : ForeignKey) :
    r.inferJoin table c fk =
      r.infer table ⟨r.tableKey fk.schemaName fk.tableName, fk.columnName, c.columnName⟩ := rfl

theorem foldl_inferJoin (r : Registry) (table : String) (cs : List Column) {q : Registry}
    (hq : q.defaultSchema = r.defaultSchema) :
    cs.foldl (fun r c => match c.foreignKey with
      | some fk => r.inferJoin table c fk
      | none => r) q =
    (cs.filterMap fun c => c.foreignKey.map fun fk =>
      ⟨r.tableKey fk.schemaName fk.tableName, fk.columnName, c.columnName⟩).foldl
        (fun r x => r.infer table x) q := by
  induction cs generalizing q with
  | nil => rfl
  | cons c rest ih =>
      have hkey (fk : ForeignKey) : q.tableKey fk.schemaName fk.tableName =
          r.tableKey fk.schemaName fk.tableName := by simp only [tableKey, hq]
      cases hfk : c.foreignKey with
      | none => simpa [hfk] using ih hq
      | some fk =>
          have hnext : (q.inferJoin table c fk).defaultSchema = r.defaultSchema := hq
          simpa [hfk, inferJoin_eq, hkey fk] using ih hnext

theorem foldl_infer_frame (xs : List Reference) (r : Registry) (table : String) :
    ∃ joins, xs.foldl (fun r x => r.infer table x) r = { r with joins } := by
  induction xs generalizing r with
  | nil => exact ⟨r.joins, rfl⟩
  | cons x rest ih =>
      obtain ⟨joins, hrest⟩ := ih (r.infer table x)
      exact ⟨joins, by rw [List.foldl_cons, hrest]; rfl⟩

theorem get?_foldl_infer_of_ne {xs : List Reference}
    (h : ∀ x ∈ xs, joinKey x.referenced table ≠ key) (r : Registry) :
    (xs.foldl (fun r x => r.infer table x) r).joins.get? key = r.joins.get? key := by
  induction xs generalizing r with
  | nil => rfl
  | cons x rest ih =>
      obtain ⟨hx, hrest⟩ := List.forall_mem_cons.mp h
      rw [List.foldl_cons, ih hrest, infer, Dictionary.get?_insert_of_ne _ _ (Ne.symm hx)]

/-- The join with a referenced table has the columns that refer to it brought in one after
another. -/
theorem get?_foldl_infer (xs : List Reference) (r : Registry) (table referenced : String) :
    (xs.foldl (fun r x => r.infer table x) r).joins.get? (joinKey referenced table) =
      if xs.filter (fun x => x.referenced == referenced) = [] then
        r.joins.get? (joinKey referenced table)
      else some (((xs.filter fun x => x.referenced == referenced).foldl Join.absorb
        ((r.joins.get? (joinKey referenced table)).getD (.blank referenced table))).marked
          (r.hasTable referenced)) := by
  induction xs generalizing r with
  | nil => rfl
  | cons x rest ih =>
      rw [List.foldl_cons, ih]
      by_cases hx : x.referenced = referenced
      · subst hx
        have hmine : (x :: rest).filter (fun y => y.referenced == x.referenced) =
            x :: rest.filter fun y => y.referenced == x.referenced :=
          List.filter_cons_of_pos (beq_self_eq_true _)
        rw [infer, Dictionary.get?_insert_self, hmine, if_neg (List.cons_ne_nil _ _),
          List.foldl_cons]
        split_ifs with hrest
        · rw [hrest, List.foldl_nil]
        · rw [Option.getD_some, Join.foldl_absorb_marked]
          rfl
      · have hkey : joinKey referenced table ≠ joinKey x.referenced table := fun heq =>
          hx (joinKey_left_inj.mp heq).symm
        have hmine : (x :: rest).filter (fun y => y.referenced == referenced) =
            rest.filter fun y => y.referenced == referenced :=
          List.filter_cons_of_neg (by simpa using hx)
        rw [infer, Dictionary.get?_insert_of_ne _ _ hkey, hmine]
        rfl

/-- A join with the mark that it gets when a table on its first side becomes active. -/
def mark (r : Registry) (table : String) (j : Join) : Join :=
  if j.table1 = table then j.marked (r.hasTable j.table2) else j

/-- The registry with the foreign keys of an active table in its joins. -/
def linked (r : Registry) (table : String) : Registry :=
  let joined := (r.references table).foldl (fun r x => r.infer table x) r
  { joined with joins := joined.joins.mapValues (r.mark table) }

theorem linked_frame (r : Registry) (table : String) :
    ∃ joins, r.linked table = { r with joins } := by
  obtain ⟨joins, hjoined⟩ := foldl_infer_frame (r.references table) r table
  exact ⟨_, by rw [linked, hjoined]⟩

theorem found?_linked (r : Registry) (table name : String) :
    (r.linked table).found? name = r.found? name := by
  obtain ⟨joins, hlinked⟩ := r.linked_frame table
  rw [hlinked]
  rfl

theorem hasTable_linked (r : Registry) (table name : String) :
    (r.linked table).hasTable name = r.hasTable name := by
  obtain ⟨joins, hlinked⟩ := r.linked_frame table
  rw [hlinked]
  rfl

theorem referencesTo_linked (r : Registry) (table name referenced : String) :
    (r.linked table).referencesTo name referenced = r.referencesTo name referenced := by
  obtain ⟨joins, hlinked⟩ := r.linked_frame table
  rw [hlinked]
  rfl

theorem references_linked (r : Registry) (table name : String) :
    (r.linked table).references name = r.references name := by
  obtain ⟨joins, hlinked⟩ := r.linked_frame table
  rw [hlinked]
  rfl

theorem mark_linked (r : Registry) (table : String) :
    (r.linked table).mark table = r.mark table := by
  funext j
  rw [mark, mark, hasTable_linked]

/-- What activation makes of the registry in which the table has been moved. -/
theorem linked_eq (hfound : r.found? table = r.active.get? table) :
    r.linked table =
      let joined := (r.columnsOf table).foldl
        (fun r c => match c.foreignKey with
          | some fk => r.inferJoin table c fk
          | none => r)
        r
      { joined with
        joins := joined.joins.mapValues fun j =>
          if j.table1 = table then { j with isActive := joined.active.contains j.table2 }
          else j } := by
  have hcolumns : r.references table = (r.columnsOf table).filterMap fun c =>
      c.foreignKey.map fun fk =>
        ⟨r.tableKey fk.schemaName fk.tableName, fk.columnName, c.columnName⟩ := by
    rw [references, hfound]
    rfl
  have hfold := foldl_inferJoin r table (r.columnsOf table) rfl
  rw [← hcolumns] at hfold
  obtain ⟨joins, hjoined⟩ := foldl_infer_frame (r.references table) r table
  rw [linked, hfold, hjoined]
  rfl

/-- A table that is found is put into the active schema and linked there. -/
theorem Orderly.activate_eq (h : r.Orderly) (hfound : r.found? table = some columns) :
    r.activate table = .ok ((r.withActive table columns).linked table) := by
  have hmoved : (r.withActive table columns).found? table =
      (r.withActive table columns).active.get? table := by
    rw [found?_withActive, if_pos rfl]
    exact (Dictionary.get?_insert_self _ _ _).symm
  rw [linked_eq hmoved]
  cases hinactive : r.inactive.get? table with
  | some moved =>
      obtain rfl : moved = columns := by simpa [found?, hinactive] using hfound
      rw [activate, hinactive]
      rfl
  | none =>
      have hactive : r.active.get? table = some columns := by simpa [found?, hinactive] using hfound
      have hhas : r.active.contains table = true := by rw [Dictionary.contains, hactive]; rfl
      rw [h.withActive_of_hasTable hhas, Dictionary.insert_of_get? h.active hactive,
        activate, hinactive]
      simp only [hhas, if_true]
      rfl

theorem activate_of_not_found (hfound : r.found? table = none) :
    r.activate table = .error (missingTable table) := by
  obtain ⟨hinactive, hactive⟩ := Option.or_eq_none_iff.mp hfound
  rw [activate, hinactive]
  simp only [Dictionary.contains, hactive]
  rfl

theorem Orderly.activate_ok (h : r.Orderly) {r' : Registry} (hok : r.activate table = .ok r') :
    ∃ columns, r.found? table = some columns ∧ r' = (r.withActive table columns).linked table := by
  cases hfound : r.found? table with
  | none =>
      rw [activate_of_not_found hfound] at hok
      cases hok
  | some columns =>
      rw [h.activate_eq hfound] at hok
      exact ⟨columns, rfl, (Except.ok.inj hok).symm⟩

/-- The join with a table that foreign key columns refer to has them all. -/
theorem Orderly.get?_linked (h : r.Orderly) (hrefers : r.referencesTo table referenced ≠ []) :
    (r.linked table).joins.get? (joinKey referenced table) =
      some (r.mark table ((((r.joins.get? (joinKey referenced table)).getD
        (.blank referenced table)).extended (r.referencesTo table referenced)).marked
          (r.hasTable referenced))) := by
  have hget := get?_foldl_infer (r.references table) r table referenced
  rw [← referencesTo, if_neg hrefers,
    Join.foldl_absorb (h.nodup_own_referencesTo table referenced)] at hget
  rw [linked, Dictionary.get?_mapValues, hget, Option.map_some]

/-- A join under a key of no foreign key of the table gets at most its mark. -/
theorem get?_linked_of_ne (h : ∀ x ∈ r.references table, joinKey x.referenced table ≠ key) :
    (r.linked table).joins.get? key = (r.joins.get? key).map (r.mark table) := by
  rw [linked, Dictionary.get?_mapValues, get?_foldl_infer_of_ne h r]

theorem Orderly.infer (h : r.Orderly) (table : String) (x : Reference) :
    (r.infer table x).Orderly := by
  refine h.withJoins (h.joins.insert _ _) fun key j hj => ?_
  rw [Dictionary.get?_insert] at hj
  split_ifs at hj with hkey
  · obtain rfl := Option.some.inj hj
    have hfound : ((r.joins.get? key).getD (.blank x.referenced table)).key = key := by
      cases hget : r.joins.get? key with
      | none => exact hkey.symm
      | some held => exact h.keyed key held hget
    rw [← hkey]
    exact (Join.key_absorb _ x).trans hfound
  · exact h.keyed key j hj

theorem Orderly.linked (h : r.Orderly) (table : String) : (r.linked table).Orderly := by
  have hfold (xs : List Reference) {q : Registry} (hq : q.Orderly) :
      (xs.foldl (fun r x => r.infer table x) q).Orderly := by
    induction xs generalizing q with
    | nil => exact hq
    | cons x rest ih => exact ih (hq.infer table x)
  have hjoined := hfold (r.references table) h
  refine hjoined.withJoins (hjoined.joins.mapValues _) fun key j hj => ?_
  rw [Dictionary.get?_mapValues] at hj
  obtain ⟨held, hheld, rfl⟩ := Option.map_eq_some_iff.mp hj
  have hkey : (r.mark table held).key = held.key := by
    unfold mark
    split_ifs <;> rfl
  rw [hkey]
  exact hjoined.keyed key held hheld

section Activated
variable {r' : Registry} (h : r.Orderly) (hok : r.activate table = .ok r')
include h hok

theorem Orderly.activate : r'.Orderly := by
  obtain ⟨columns, hcolumns, rfl⟩ := h.activate_ok hok
  exact (h.withActive (h.tables table columns hcolumns)).linked table

theorem Orderly.hasTable_activate (name : String) :
    r'.hasTable name = (name == table || r.hasTable name) := by
  obtain ⟨columns, -, rfl⟩ := h.activate_ok hok
  rw [hasTable_linked, hasTable_withActive]

theorem Orderly.found?_activate (name : String) : r'.found? name = r.found? name := by
  obtain ⟨columns, hcolumns, rfl⟩ := h.activate_ok hok
  rw [found?_linked, found?_withActive]
  split_ifs with hname
  · rw [hname, hcolumns]
  · rfl

/-- Activation leaves what is neither a table nor a join. -/
theorem Orderly.activate_frame : r'.defaultSchema = r.defaultSchema ∧
    r'.securityRules = r.securityRules ∧ r'.transformRules = r.transformRules := by
  obtain ⟨columns, -, rfl⟩ := h.activate_ok hok
  obtain ⟨joins, hlinked⟩ := (r.withActive table columns).linked_frame table
  rw [hlinked]
  exact ⟨rfl, rfl, rfl⟩

theorem Orderly.references_activate (name : String) : r'.references name = r.references name :=
  references_congr (h.activate_frame hok).1 (h.found?_activate hok name)

theorem Orderly.referencesTo_activate (name referenced : String) :
    r'.referencesTo name referenced = r.referencesTo name referenced :=
  referencesTo_congr (h.activate_frame hok).1 (h.found?_activate hok name) referenced

/-- The join with a table that foreign keys of the activated one refer to gets the columns that it
lacks. -/
theorem Orderly.get?_activate (hrefers : r.referencesTo table referenced ≠ []) :
    r'.joins.get? (joinKey referenced table) =
      some (r'.mark table ((((r.joins.get? (joinKey referenced table)).getD
        (.blank referenced table)).extended (r.referencesTo table referenced)).marked
          (r'.hasTable referenced))) := by
  rw [← h.referencesTo_activate hok] at hrefers ⊢
  obtain ⟨columns, hcolumns, rfl⟩ := h.activate_ok hok
  rw [referencesTo_linked] at hrefers ⊢
  rw [(h.withActive (h.tables table columns hcolumns)).get?_linked hrefers, mark_linked,
    hasTable_linked]
  rfl

/-- A join under a key of no foreign key of the activated table gets at most its mark. -/
theorem Orderly.get?_activate_of_ne (hne : ∀ x ∈ r.references table,
    joinKey x.referenced table ≠ key) :
    r'.joins.get? key = (r.joins.get? key).map (r'.mark table) := by
  rw [← h.references_activate hok] at hne
  obtain ⟨columns, hcolumns, rfl⟩ := h.activate_ok hok
  rw [references_linked] at hne
  rw [get?_linked_of_ne hne, mark_linked]
  rfl

end Activated

end Registry

end SqlGateway.Schema
