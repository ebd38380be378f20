import SqlGateway.Proofs.Dictionary
import SqlGateway.Schema.Registry

/-!
# The tables of a registry

A table is in the active schema or out of it, under its name and with its columns under theirs. All
that is ever done to the tables is to put one into the active schema or out of it, with some
columns; what this does to the other tables, to what is active and to what is found is said here
once.
-/
namespace SqlGateway.Schema

/-- The columns of a table stand under their names, in ascending order. -/
structure Table.Orderly (t : Table) : Prop where
  ascending : t.Ascending
  named : ∀ name c, t.get? name = some c → c.columnName = name

/-- The table of some columns. Of two columns of one name the last counts. -/
def tableOf (columns : List Column) : Table :=
  Dictionary.ofList (columns.map fun c => (c.columnName, c))

theorem tableOf_concat (columns : List Column) (c : Column) :
    tableOf (columns ++ [c]) = (tableOf columns).insert c.columnName c := by
  rw [tableOf, List.map_append]
  exact Dictionary.ofList_concat _ _

theorem orderly_tableOf (columns : List Column) : (tableOf columns).Orderly where
  ascending := Dictionary.ascending_ofList _
  named := by
    intro name c h
    obtain ⟨_, _, heq⟩ := List.mem_map.mp (Dictionary.mem_of_mem_ofList (Dictionary.mem_of_get? h))
    cases heq
    rfl

theorem Table.Orderly.insert {t : Table} (h : t.Orderly) {name : String} {c : Column}
    (hc : c.columnName = name) : Table.Orderly (t.insert name c) where
  ascending := h.ascending.insert name c
  named := by
    intro other d hd
    rw [Dictionary.get?_insert] at hd
    split_ifs at hd with hother
    · obtain rfl := Option.some.inj hd
      rw [hc, hother]
    · exact h.named other d hd

namespace Registry

variable {r : Registry} {table name : String} {columns : Table}

/-- The columns of a table, whether it is in the active schema or not. -/
def found? (r : Registry) (table : String) : Option Table :=
  (r.inactive.get? table).or (r.active.get? table)

/-- Nothing is held twice, and everything under its own name: no table is both active and inactive,
and each join is stored under its key. -/
structure Orderly (r : Registry) : Prop where
  active : r.active.Ascending
  inactive : r.inactive.Ascending
  joins : r.joins.Ascending
  apart : ∀ table ∈ r.active.keys, table ∉ r.inactive.keys
  tables : ∀ table columns, r.found? table = some columns → columns.Orderly
  keyed : ∀ key j, r.joins.get? key = some j → j.key = key

theorem hasTable_iff : r.hasTable table = true ↔ table ∈ r.active.keys := Dictionary.contains_iff

theorem orderly_empty (defaultSchema : String) : (empty defaultSchema).Orderly where
  active := List.Pairwise.nil
  inactive := List.Pairwise.nil
  joins := List.Pairwise.nil
  apart := nofun
  tables := nofun
  keyed := nofun

theorem Orderly.get?_active (h : r.Orderly) (ht : r.hasTable table = true) :
    r.active.get? table = r.found? table := by
  rw [found?, Dictionary.get?_eq_none_iff.mpr (h.apart table (hasTable_iff.mp ht)), Option.none_or]

theorem Orderly.found?_of_active (h : r.Orderly) (ht : r.active.get? table = some columns) :
    r.found? table = some columns := by
  rw [← h.get?_active (by rw [hasTable, Dictionary.contains, ht]; rfl), ht]

theorem Orderly.tables_active (h : r.Orderly) (ht : r.active.get? table = some columns) :
    columns.Orderly :=
  h.tables table columns (h.found?_of_active ht)

theorem get?_inactive (ht : r.hasTable table = false) : r.inactive.get? table = r.found? table := by
  have hnone : r.active.get? table = none := by simpa [hasTable, Dictionary.contains] using ht
  rw [found?, hnone, Option.or_none]

/-- A table is found just if it is active or inactive. -/
theorem found?_eq_none_iff :
    r.found? table = none ↔ table ∉ r.active.keys ∧ table ∉ r.inactive.keys := by
  rw [found?, Option.or_eq_none_iff, Dictionary.get?_eq_none_iff, Dictionary.get?_eq_none_iff,
    and_comm]

/-- The join of two tables is held under their key, or the other way round under that of their
exchange. -/
theorem get?_of_join {parent child : String} {j : Join} (h : r.join parent child = .ok j) :
    r.joins.get? (joinKey parent child) = some j ∨
      ∃ held, r.joins.get? (joinKey child parent) = some held ∧ j = held.swapped := by
  unfold join at h
  split_ifs at h
  · cases h
  · cases h
  · cases h
  · cases hfirst : r.joins.get? (joinKey parent child) with
    | some held =>
        rw [hfirst] at h
        exact .inl (congrArg some (Except.ok.inj h))
    | none =>
        cases hsecond : r.joins.get? (joinKey child parent) with
        | some held =>
            rw [hfirst, hsecond] at h
            exact .inr ⟨held, rfl, (Except.ok.inj h).symm⟩
        | none =>
            rw [hfirst, hsecond] at h
            cases h

/-- Each join is stored under its key. -/
theorem Orderly.map_key_values (h : r.Orderly) : r.joins.values.map (·.key) = r.joins.keys := by
  rw [Dictionary.values, Dictionary.keys, List.map_map]
  refine List.map_congr_left fun entry hentry => ?_
  exact h.keyed entry.1 entry.2 (Dictionary.get?_of_mem h.joins hentry)

/-- A registry in order is known by its joins, its tables and which of them are active. -/
theorem Orderly.ext {r' : Registry} (h : r.Orderly) (h' : r'.Orderly)
    (hschema : r'.defaultSchema = r.defaultSchema)
    (hsecurity : r'.securityRules = r.securityRules)
    (htransform : r'.transformRules = r.transformRules)
    (hactive : ∀ table, r'.hasTable table = r.hasTable table)
    (hfound : ∀ table, r'.found? table = r.found? table)
    (hjoins : ∀ key, r'.joins.get? key = r.joins.get? key) : r' = r := by
  have get?_active_of_not {q : Registry} {table : String} (hq : q.hasTable table = false) :
      q.active.get? table = none := by simpa [hasTable, Dictionary.contains] using hq
  have get?_inactive_of {q : Registry} (hq : q.Orderly) {table : String}
    (ht : q.hasTable table = true) : q.inactive.get? table = none :=
        Dictionary.get?_eq_none_iff.mpr (hq.apart table (hasTable_iff.mp ht))
  have heqActive : r'.active = r.active := by
    refine Dictionary.eq_of_get? h'.active h.active fun table => ?_
    cases ht : r.hasTable table with
    | true => rw [h'.get?_active ((hactive table).trans ht), h.get?_active ht, hfound]
    | false => rw [get?_active_of_not ((hactive table).trans ht), get?_active_of_not ht]
  have heqInactive : r'.inactive = r.inactive := by
    refine Dictionary.eq_of_get? h'.inactive h.inactive fun table => ?_
    cases ht : r.hasTable table with
    | true => rw [get?_inactive_of h' ((hactive table).trans ht), get?_inactive_of h ht]
    | false => rw [get?_inactive ((hactive table).trans ht), get?_inactive ht, hfound]
  have heqJoins : r'.joins = r.joins := Dictionary.eq_of_get? h'.joins h.joins hjoins
  obtain ⟨_, _, _, _, _, _⟩ := r
  obtain ⟨_, _, _, _, _, _⟩ := r'
  simp_all

/-- The registry with a table in the active schema. -/
def withActive (r : Registry) (table : String) (columns : Table) : Registry :=
  { r with active := r.active.insert table columns, inactive := r.inactive.erase table }

/-- The registry with a table out of the active schema. -/
def withInactive (r : Registry) (table : String) (columns : Table) : Registry :=
  { r with active := r.active.erase table, inactive := r.inactive.insert table columns }

theorem hasTable_withActive (r : Registry) (table name : String) (columns : Table) :
    (r.withActive table columns).hasTable name = (name == table || r.hasTable name) := by
  simp only [hasTable, Dictionary.contains, withActive, Dictionary.get?_insert]
  by_cases h : name = table <;> simp [h]

theorem hasTable_withInactive (r : Registry) (table name : String) (columns : Table) :
    (r.withInactive table columns).hasTable name = (name != table && r.hasTable name) := by
  simp only [hasTable, Dictionary.contains, withInactive, Dictionary.get?_erase]
  by_cases h : name = table <;> simp [h]

theorem found?_withActive (r : Registry) (table name : String) (columns : Table) :
    (r.withActive table columns).found? name =
      if name = table then some columns else r.found? name := by
  simp only [found?, withActive, Dictionary.get?_insert, Dictionary.get?_erase]
  split_ifs with h <;> simp

theorem found?_withInactive (r : Registry) (table name : String) (columns : Table) :
    (r.withInactive table columns).found? name =
      if name = table then some columns else r.found? name := by
  simp only [found?, withInactive, Dictionary.get?_insert, Dictionary.get?_erase]
  split_ifs with h <;> simp

theorem Orderly.withActive (h : r.Orderly) (hcolumns : columns.Orderly) :
    (r.withActive table columns).Orderly where
  active := h.active.insert table columns
  inactive := h.inactive.erase table
  joins := h.joins
  apart := by
    intro other hother hmem
    obtain ⟨hne, hmem⟩ := (Dictionary.mem_keys_erase _ _ _).mp hmem
    exact h.apart other (((Dictionary.mem_keys_insert _ _ _ _).mp hother).resolve_left hne) hmem
  tables := by
    intro other found hfound
    rw [found?_withActive] at hfound
    split_ifs at hfound
    · exact Option.some.inj hfound ▸ hcolumns
    · exact h.tables other found hfound
  keyed := h.keyed

theorem Orderly.withInactive (h : r.Orderly) (hcolumns : columns.Orderly) :
    (r.withInactive table columns).Orderly where
  active := h.active.erase table
  inactive := h.inactive.insert table columns
  joins := h.joins
  apart := by
    intro other hother hmem
    obtain ⟨hne, hother⟩ := (Dictionary.mem_keys_erase _ _ _).mp hother
    exact h.apart other hother (((Dictionary.mem_keys_insert _ _ _ _).mp hmem).resolve_left hne)
  tables := by
    intro other found hfound
    rw [found?_withInactive] at hfound
    split_ifs at hfound
    · exact Option.some.inj hfound ▸ hcolumns
    · exact h.tables other found hfound
  keyed := h.keyed

/-- Other joins under their keys leave a registry in order. -/
theorem Orderly.withJoins (h : r.Orderly) {joins : Dictionary Join} (hjoins : joins.Ascending)
    (hkeyed : ∀ key j, joins.get? key = some j → j.key = key) : Orderly { r with joins } :=
  ⟨h.active, h.inactive, hjoins, h.apart, h.tables, hkeyed⟩

/-- A table that is active has no place among the others to be taken out of. -/
theorem Orderly.withActive_of_hasTable (h : r.Orderly) (ht : r.hasTable table = true)
    (columns : Table) :
    r.withActive table columns = { r with active := r.active.insert table columns } := by
  rw [Registry.withActive, Dictionary.erase_of_not_mem (h.apart table (hasTable_iff.mp ht))]

theorem withInactive_of_not_hasTable (ht : r.hasTable table = false) (columns : Table) :
    r.withInactive table columns = { r with inactive := r.inactive.insert table columns } := by
  have hnot : table ∉ r.active.keys := fun hmem => by simp [hasTable_iff.mpr hmem] at ht
  rw [withInactive, Dictionary.erase_of_not_mem hnot]

/-- The captured columns of a table. -/
def capturedOf (r : Registry) (captured : List Column) (table : String) : List Column :=
  captured.filter fun c => r.tableKey c.schemaName c.tableName == table

/-- The registry with other columns of a table, which is active just if it was. -/
def recaptured (r : Registry) (entry : String × Table) : Registry :=
  if r.hasTable entry.1 then r.withActive entry.1 entry.2 else r.withInactive entry.1 entry.2

theorem grouped_concat (r : Registry) (captured : List Column) (c : Column) :
    r.grouped (captured ++ [c]) = (r.grouped captured).insert (r.tableKey c.schemaName c.tableName)
      ((((r.grouped captured).get? (r.tableKey c.schemaName c.tableName)).getD []).insert
        c.columnName c) := by
  simp [grouped]

theorem ascending_grouped (r : Registry) (captured : List Column) :
    (r.grouped captured).Ascending := by
  induction captured using List.reverseRecOn with
  | nil => exact List.Pairwise.nil
  | append_singleton captured c ih =>
      rw [grouped_concat]
      exact ih.insert _ _

theorem capturedOf_concat_self (r : Registry) (captured : List Column) (c : Column) :
    r.capturedOf (captured ++ [c]) (r.tableKey c.schemaName c.tableName) =
      r.capturedOf captured (r.tableKey c.schemaName c.tableName) ++ [c] := by
  simp [capturedOf]

theorem capturedOf_concat_of_ne {c : Column} (h : table ≠ r.tableKey c.schemaName c.tableName)
    (captured : List Column) :
    r.capturedOf (captured ++ [c]) table = r.capturedOf captured table := by
  simp [capturedOf, Ne.symm h]

/-- Captured columns are grouped by the table that they belong to. -/
theorem get?_grouped (r : Registry) (captured : List Column) (table : String) :
    (r.grouped captured).get? table =
      if r.capturedOf captured table = [] then none
      else some (tableOf (r.capturedOf captured table)) := by
  induction captured using List.reverseRecOn with
  | nil => rfl
  | append_singleton captured c ih =>
      rw [grouped_concat, Dictionary.get?_insert]
      by_cases htable : table = r.tableKey c.schemaName c.tableName
      · subst htable
        have hsome : r.capturedOf captured (r.tableKey c.schemaName c.tableName) ++ [c] ≠ [] :=
          List.append_ne_nil_of_right_ne_nil _ (List.cons_ne_nil c [])
        rw [if_pos rfl, ih, capturedOf_concat_self, if_neg hsome, tableOf_concat]
        split_ifs with hnone
        · rw [hnone]
          rfl
        · rfl
      · rw [if_neg htable, ih, capturedOf_concat_of_ne htable]

theorem Orderly.grouped (captured : List Column) {entry : String × Table}
    (h : entry ∈ r.grouped captured) : entry.2.Orderly := by
  have hget := Dictionary.get?_of_mem (r.ascending_grouped captured) h
  rw [get?_grouped] at hget
  split_ifs at hget
  exact Option.some.inj hget ▸ orderly_tableOf _

theorem hasTable_recaptured (r : Registry) (entry : String × Table) (name : String) :
    (r.recaptured entry).hasTable name = r.hasTable name := by
  unfold recaptured
  split_ifs with h
  · rw [hasTable_withActive]
    by_cases hname : name = entry.1 <;> simp [hname, h]
  · rw [hasTable_withInactive]
    by_cases hname : name = entry.1 <;> simp [hname, h]

theorem found?_recaptured (r : Registry) (entry : String × Table) (name : String) :
    (r.recaptured entry).found? name = if name = entry.1 then some entry.2 else r.found? name := by
  unfold recaptured
  split_ifs <;> simp_all [found?_withActive, found?_withInactive]

theorem Orderly.recaptured (h : r.Orderly) {entry : String × Table} (hentry : entry.2.Orderly) :
    (r.recaptured entry).Orderly := by
  unfold Registry.recaptured
  split_ifs
  · exact h.withActive hentry
  · exact h.withInactive hentry

theorem recaptured_frame (r : Registry) (entry : String × Table) :
    ∃ active inactive, r.recaptured entry = { r with active, inactive } := by
  unfold recaptured
  split_ifs
  · exact ⟨_, _, rfl⟩
  · exact ⟨_, _, rfl⟩

/-- A captured table takes the place of its columns where it is. -/
theorem Orderly.recaptured_eq (h : r.Orderly) (entry : String × Table) : r.recaptured entry =
    if r.active.contains entry.1 then { r with active := r.active.insert entry.1 entry.2 }
    else { r with inactive := r.inactive.insert entry.1 entry.2 } := by
  rw [Registry.recaptured, ← hasTable]
  split_ifs with ht
  · exact h.withActive_of_hasTable ht entry.2
  · exact withInactive_of_not_hasTable (by simpa using ht) entry.2

/-- Capturing is putting in each captured table where it is. -/
theorem Orderly.capture_eq (h : r.Orderly) (captured : List Column) :
    r.capture captured = (r.grouped captured).foldl Registry.recaptured r := by
  have hfold (entries : Dictionary Table) (hentries : ∀ entry ∈ entries, entry.2.Orderly)
      {q : Registry} (hq : q.Orderly) :
      entries.foldl (fun r entry =>
        if r.active.contains entry.1 then { r with active := r.active.insert entry.1 entry.2 }
        else { r with inactive := r.inactive.insert entry.1 entry.2 }) q =
      entries.foldl Registry.recaptured q := by
    induction entries generalizing q with
    | nil => rfl
    | cons entry rest ih =>
        obtain ⟨hentry, hrest⟩ := List.forall_mem_cons.mp hentries
        rw [List.foldl_cons, List.foldl_cons, ← ih hrest (hq.recaptured hentry), hq.recaptured_eq]
  exact hfold _ (fun _ hentry => Orderly.grouped captured hentry) h

theorem Orderly.foldl_recaptured (h : r.Orderly) {entries : Dictionary Table}
    (hentries : ∀ entry ∈ entries, entry.2.Orderly) :
    (entries.foldl Registry.recaptured r).Orderly := by
  induction entries generalizing r with
  | nil => exact h
  | cons entry rest ih =>
      obtain ⟨hentry, hrest⟩ := List.forall_mem_cons.mp hentries
      exact ih (h.recaptured hentry) hrest

theorem found?_foldl_recaptured {entries : Dictionary Table} (hentries : entries.Ascending)
    (r : Registry) (name : String) :
    (entries.foldl recaptured r).found? name = (entries.get? name).or (r.found? name) := by
  induction entries generalizing r with
  | nil => rfl
  | cons entry rest ih =>
      have hnodup := List.nodup_cons.mp hentries.nodup
      rw [List.foldl_cons, ih (List.pairwise_cons.mp hentries).2, found?_recaptured]
      by_cases hname : name = entry.1
      · subst hname
        have hnone : Dictionary.get? entry.1 rest = none := Dictionary.get?_eq_none_iff.mpr hnodup.1
        simp [Dictionary.get?, hnone]
      · simp [Dictionary.get?, Ne.symm hname, hname]

theorem hasTable_foldl_recaptured (entries : Dictionary Table) (r : Registry) (name : String) :
    (entries.foldl recaptured r).hasTable name = r.hasTable name := by
  induction entries generalizing r with
  | nil => rfl
  | cons entry rest ih => rw [List.foldl_cons, ih, hasTable_recaptured]

theorem foldl_recaptured_frame (entries : Dictionary Table) (r : Registry) :
    ∃ active inactive, entries.foldl recaptured r = { r with active, inactive } := by
  induction entries generalizing r with
  | nil => exact ⟨r.active, r.inactive, rfl⟩
  | cons entry rest ih =>
      obtain ⟨active, inactive, hentry⟩ := r.recaptured_frame entry
      obtain ⟨active', inactive', hrest⟩ := ih (r.recaptured entry)
      exact ⟨active', inactive', by rw [List.foldl_cons, hrest, hentry]⟩

theorem Orderly.capture (h : r.Orderly) (captured : List Column) :
    (r.capture captured).Orderly := by
  rw [h.capture_eq]
  exact h.foldl_recaptured fun _ hentry => Orderly.grouped captured hentry

/-- Capturing makes no table active or inactive. -/
theorem Orderly.hasTable_capture (h : r.Orderly) (captured : List Column) (table : String) :
    (r.capture captured).hasTable table = r.hasTable table := by
  rw [h.capture_eq, hasTable_foldl_recaptured]

/-- Captured tables have the captured columns and no others, and the other tables those that they
had. -/
theorem Orderly.found?_capture (h : r.Orderly) (captured : List Column) (table : String) :
    (r.capture captured).found? table =
      if r.capturedOf captured table = [] then r.found? table
      else some (tableOf (r.capturedOf captured table)) := by
  rw [h.capture_eq, found?_foldl_recaptured (r.ascending_grouped captured), get?_grouped]
  split_ifs
  · exact Option.none_or
  · exact Option.some_or

/-- Capturing leaves all but the tables as it is. -/
theorem Orderly.capture_frame (h : r.Orderly) (captured : List Column) :
    ∃ active inactive, r.capture captured = { r with active, inactive } := by
  rw [h.capture_eq]
  exact foldl_recaptured_frame _ r

end Registry

end SqlGateway.Schema
