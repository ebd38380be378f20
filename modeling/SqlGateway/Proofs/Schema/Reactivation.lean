import SqlGateway.Proofs.Schema.Operations

/-!
# Taking a table out and putting it back

A table that is taken out of the active schema and put back has the tables and the joins between
others as they were. Of its own joins those that it refers by come back, and those by which others
refer to it are lost: only what its own foreign keys say is inferred again.
-/
namespace SqlGateway.Schema

namespace Registry

variable {r r' : Registry} {table key referenced : String} {columns : Table} {j : Join}

/-- Taken out and put back, a table stands where it stood, and its joins have been cut and inferred
again. -/
theorem Orderly.reactivate_eq (h : r.Orderly) (ht : r.active.get? table = some columns) :
    ∃ out, r.deactivate table = .ok out ∧
    out.activate table = .ok ((r.unlinked table).linked table) := by
  have hcolumns := h.tables_active ht
  have hout : ((r.withInactive table columns).unlinked table).Orderly :=
    (h.withInactive hcolumns).unlinked table
  have hfound : ((r.withInactive table columns).unlinked table).found? table = some columns := by
    have hinactive := r.found?_withInactive table table columns
    rwa [if_pos rfl] at hinactive
  have hactive : (r.active.erase table).insert table columns = r.active := by
    refine Dictionary.eq_of_get? ((h.active.erase table).insert _ _) h.active fun name => ?_
    rw [Dictionary.get?_insert, Dictionary.get?_erase]
    split_ifs with hname
    · rw [hname, ht]
    · rfl
  have hinactive : (r.inactive.insert table columns).erase table = r.inactive := by
    have hnot : r.inactive.get? table = none := Dictionary.get?_eq_none_iff.mpr
      (h.apart table (Dictionary.mem_keys_iff.mpr ⟨columns, ht⟩))
    refine Dictionary.eq_of_get? ((h.inactive.insert _ _).erase table) h.inactive fun name => ?_
    rw [Dictionary.get?_erase, Dictionary.get?_insert]
    split_ifs with hname
    · rw [hname, hnot]
    · rfl
  have hback : ((r.withInactive table columns).unlinked table).withActive table columns =
      r.unlinked table := by
    simp only [Registry.unlinked, Registry.withInactive, Registry.withActive, hactive, hinactive]
  exact ⟨_, deactivate_eq ht, by rw [hout.activate_eq hfound, hback]⟩

/-- The join under a key of a foreign key of the table: what was kept of it, or a new one. -/
theorem Orderly.get?_relinked (h : r.Orderly) (hrefers : r.referencesTo table referenced ≠ []) :
    ((r.unlinked table).linked table).joins.get? (joinKey referenced table) =
      some (((((r.joins.get? (joinKey referenced table)).filter fun j => j.table1 != table).getD
        (.blank referenced table)).extended (r.referencesTo table referenced)).marked
          (r.hasTable referenced)) := by
  rw [(h.unlinked table).get?_linked hrefers, h.get?_unlinked]
  refine congrArg some ?_
  cases hkept : (r.joins.get? (joinKey referenced table)).filter (fun j => j.table1 != table) with
  | none =>
      rw [Option.map_none, Option.getD_none, mark]
      split_ifs with hself
      · obtain rfl : referenced = table := hself
        rfl
      · rfl
  | some j =>
      have hother : j.table1 ≠ table := by simpa using (Option.filter_eq_some_iff.mp hkept).2
      rw [Option.map_some, Option.getD_some]
      split_ifs <;> exact if_neg hother

/-- A join under a key of no foreign key of the table: it is as it was, but gone if the table is on
its first side, and marked as inactive if it is on its second. -/
theorem Orderly.get?_relinked_of_ne (h : r.Orderly)
    (hkey : ∀ x ∈ r.references table, joinKey x.referenced table ≠ key) :
    ((r.unlinked table).linked table).joins.get? key =
      ((r.joins.get? key).filter fun j => j.table1 != table).map fun j =>
        if j.table2 = table then j.marked false else j := by
  have hcut : ∀ x ∈ (r.unlinked table).references table, joinKey x.referenced table ≠ key := hkey
  rw [get?_linked_of_ne hcut, h.get?_unlinked, Option.map_map]
  refine Option.map_congr fun j hj => ?_
  have hother : j.table1 ≠ table := by simpa using (Option.filter_eq_some_iff.mp hj).2
  simp only [Function.comp]
  split_ifs <;> exact if_neg hother

/-- How a registry stands in which a table has been taken out and put back. -/
structure PutBack (r : Registry) (table : String) (r' : Registry) : Prop where
  /-- All but the joins is as it was. -/
  tables : r' = { r with joins := r'.joins }
  /-- A join between other tables is as it was, unless a foreign key of the table has its key. -/
  elsewhere : ∀ key j, r.joins.get? key = some j → j.table1 ≠ table → j.table2 ≠ table →
    (∀ x ∈ r.references table, joinKey x.referenced table ≠ key) → r'.joins.get? key = some j
  /-- A join by which the table refers to another one, for some foreign key, has got the foreign key
  columns that it lacked, and is active if the other table is. -/
  referring : ∀ key j, r.joins.get? key = some j → j.table1 ≠ table → j.table2 = table →
    r.referencesTo table j.table1 ≠ [] → r'.joins.get? key =
      some ((j.extended (r.referencesTo table j.table1)).marked (r.hasTable j.table1))
  /-- So it is as it was if it lacked none and was marked rightly. -/
  unchanged : ∀ key j, r.joins.get? key = some j → j.table1 ≠ table → j.table2 = table →
    r.referencesTo table j.table1 ≠ [] → (∀ x ∈ r.referencesTo table j.table1, x.own ∈ j.columns2) →
    j.isActive = r.hasTable j.table1 → r'.joins.get? key = some j
  /-- A join by which it refers to another table without a foreign key is as it was but for the
  mark. -/
  custom : ∀ key j, r.joins.get? key = some j → j.table1 ≠ table → j.table2 = table →
    r.referencesTo table j.table1 = [] → ∃ active, r'.joins.get? key = some (j.marked active)
  /-- A join by which another table refers to it is gone. -/
  referenced : ∀ key j, r.joins.get? key = some j → j.table1 = table →
    (∀ x ∈ r.references table, joinKey x.referenced table ≠ key) → r'.joins.get? key = none
  /-- For its foreign keys that had no join, or whose join is gone, there is a new one. -/
  inferred : ∀ referenced, r.referencesTo table referenced ≠ [] →
    (∀ j, r.joins.get? (joinKey referenced table) = some j → j.table1 = table) →
    r'.joins.get? (joinKey referenced table) = some (r.inferredJoin table referenced)
  /-- There are no others. -/
  only : ∀ key, r.joins.get? key = none →
    (∀ x ∈ r.references table, joinKey x.referenced table ≠ key) → r'.joins.get? key = none

theorem Orderly.putBack (h : r.Orderly) (ht : r.hasTable table = true) :
    r.PutBack table ((r.unlinked table).linked table) := by
  have hkept {key : String} {j : Join} (hj : r.joins.get? key = some j)
    (hother : j.table1 ≠ table) :
      (r.joins.get? key).filter (fun j => j.table1 != table) = some j := by
    rw [hj, Option.filter_some_pos (by simpa using hother)]
  have hcut {key : String} (hnone : ∀ j, r.joins.get? key = some j → j.table1 = table) :
      (r.joins.get? key).filter (fun j => j.table1 != table) = none :=
    Option.filter_eq_none_iff.mpr fun j hj => by simp [hnone j hj]
  have hkeyed {key : String} {j : Join} (hj : r.joins.get? key = some j) (hj2 : j.table2 = table) :
      key = joinKey j.table1 table := by rw [← h.keyed key j hj, Join.key, hj2]
  have hreferring (key : String) (j : Join) (hj : r.joins.get? key = some j)
    (hj1 : j.table1 ≠ table)
      (hj2 : j.table2 = table) (hrefers : r.referencesTo table j.table1 ≠ []) :
      ((r.unlinked table).linked table).joins.get? key =
        some ((j.extended (r.referencesTo table j.table1)).marked (r.hasTable j.table1)) := by
    obtain rfl := hkeyed hj hj2
    rw [h.get?_relinked hrefers, hkept hj hj1, Option.getD_some]
  constructor
  · obtain ⟨joins, hlinked⟩ := (r.unlinked table).linked_frame table
    rw [hlinked]
    rfl
  · intro key j hj hj1 hj2 hkey
    rw [h.get?_relinked_of_ne hkey, hkept hj hj1, Option.map_some, if_neg hj2]
  · exact hreferring
  · intro key j hj hj1 hj2 hrefers hall hactive
    rw [hreferring key j hj hj1 hj2 hrefers, Join.extended_of_forall hall, ← hactive]
    rfl
  · intro key j hj hj1 hj2 hrefers
    have hkey : ∀ x ∈ r.references table, joinKey x.referenced table ≠ key := by
      intro x hx heq
      have hsame : x.referenced = j.table1 := joinKey_left_inj.mp (heq.trans (hkeyed hj hj2))
      exact List.ne_nil_of_mem (mem_referencesTo.mpr ⟨hx, hsame⟩) hrefers
    rw [h.get?_relinked_of_ne hkey, hkept hj hj1, Option.map_some, if_pos hj2]
    exact ⟨false, rfl⟩
  · intro key j hj hj1 hkey
    have hgone : ∀ held, r.joins.get? key = some held → held.table1 = table := fun held hheld =>
      Option.some.inj (hj.symm.trans hheld) ▸ hj1
    rw [h.get?_relinked_of_ne hkey, hcut hgone, Option.map_none]
  · intro referenced hrefers hnone
    rw [h.get?_relinked hrefers, hcut hnone, Option.getD_none, Join.blank_extended]
    simp only [inferredJoin, Join.marked, ht, Bool.and_true]
  · intro key hnone hkey
    rw [h.get?_relinked_of_ne hkey, hnone]
    rfl

/-- In every registry, an active table can be taken out of the active schema and put back. -/
theorem reactivation_restores (defaultSchema : String) (ops : List Operation)
    (ht : (replay defaultSchema ops).hasTable table = true) :
    ∃ out r', (replay defaultSchema ops).deactivate table = .ok out ∧ out.activate table = .ok r' ∧
      (replay defaultSchema ops).PutBack table r' := by
  have h := orderly_replay defaultSchema ops
  obtain ⟨columns, hcolumns⟩ := Option.isSome_iff_exists.mp ht
  obtain ⟨out, hout, hback⟩ := h.reactivate_eq hcolumns
  exact ⟨out, _, hout, hback, h.putBack ht⟩

theorem reactivation_restores_orders :
    let r := replay "public" [.capture shopColumns, .activate "users", .activate "orders"]
    r.hasTable "orders" = true ∧ ∃ out r', r.deactivate "orders" = .ok out ∧
      out.activate "orders" = .ok r' ∧ r.PutBack "orders" r' ∧
      r'.joins.get? "users___orders" =
        some ⟨"users", "orders", ["id"], ["user_id"], true, false, none⟩ := by
  have ht : (replay "public"
      [.capture shopColumns, .activate "users", .activate "orders"]).hasTable "orders" = true := by
    decide +kernel
  obtain ⟨out, r', hout, hback, hr'⟩ := reactivation_restores "public" _ ht
  exact ⟨ht, out, r', hout, hback, hr',
    hr'.unchanged "users___orders" _ rfl (by decide) rfl (by decide +kernel)
      (by decide +kernel) rfl⟩

/-- The join by which orders refer to users is gone when users have been taken out and put back. -/
theorem referenced_table_loses_its_joins :
    let r := replay "public" [.capture shopColumns, .activate "users", .activate "orders"]
    r.hasTable "users" = true ∧ r.hasTable "orders" = true ∧
      r.joins.get? "users___orders" =
        some ⟨"users", "orders", ["id"], ["user_id"], true, false, none⟩ ∧
      ∃ out r', r.deactivate "users" = .ok out ∧ out.activate "users" = .ok r' ∧
        r'.hasTable "users" = true ∧ r'.hasTable "orders" = true ∧
        r'.joins.get? "users___orders" = none :=
  ⟨rfl, rfl, rfl, _, _, rfl, rfl, rfl, rfl, rfl⟩

end Registry

end SqlGateway.Schema
