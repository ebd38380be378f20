import Mathlib.Logic.Basic
import SqlGateway.Proofs.Except
import SqlGateway.Proofs.Schema.Inference

/-!
# Operations on a registry

A registry comes about by operations, one after another, each of which works on the registry in
place and may fail on the way. No operation leaves a table in two places or in none that it was in,
whichever fails, and one that fails leaves everything as it was.
-/
namespace SqlGateway.Schema

inductive Operation where
  | capture (captured : List Column)
  | insertTable (table : String) (columns : List Column)
  | activate (table : String)
  | deactivate (table : String)
  | addJoin (j : Join)
  | removeJoin (j : Join)
  | attachMask (table column rule : String)

namespace Registry

variable {r r' : Registry} {table column rule key : String} {columns : Table}

/-- The registry without the joins on whose first side a table stands, and with those on whose
second side it stands marked. -/
def unlinked (r : Registry) (table : String) : Registry :=
  let kept : Dictionary Join := r.joins.filter fun (_, j) => j.table1 != table
  { r with joins := kept.mapValues fun j => if j.table2 = table then j.marked false else j }

theorem deactivate_eq (h : r.active.get? table = some columns) :
    r.deactivate table = .ok ((r.withInactive table columns).unlinked table) := by
  rw [deactivate, h]
  rfl

theorem deactivate_of_not_active (h : r.active.get? table = none) :
    r.deactivate table = .error (missingTable table) := by
  rw [deactivate, h]
  rfl

theorem deactivate_ok (h : r.deactivate table = .ok r') :
    ∃ columns, r.active.get? table = some columns ∧
    r' = (r.withInactive table columns).unlinked table := by
  cases hactive : r.active.get? table with
  | none =>
      rw [deactivate_of_not_active hactive] at h
      cases h
  | some columns =>
      rw [deactivate_eq hactive] at h
      exact ⟨columns, rfl, (Except.ok.inj h).symm⟩

theorem Orderly.get?_unlinked (h : r.Orderly) (table key : String) :
    (r.unlinked table).joins.get? key = ((r.joins.get? key).filter fun j => j.table1 != table).map
      fun j =>
      if j.table2 = table then j.marked false else j := by
  rw [unlinked, Dictionary.get?_mapValues]
  exact congrArg _ (Dictionary.get?_filter h.joins (fun j => j.table1 != table) key)

theorem Orderly.unlinked (h : r.Orderly) (table : String) : (r.unlinked table).Orderly := by
  refine h.withJoins ((h.joins.filter _).mapValues _) fun key j hj => ?_
  have hget := (h.get?_unlinked table key).symm.trans hj
  obtain ⟨held, hheld, rfl⟩ := Option.map_eq_some_iff.mp hget
  have hkey : (if held.table2 = table then held.marked false else held).key = held.key := by
    split_ifs <;> rfl
  rw [hkey]
  exact h.keyed key held (Option.eq_some_of_filter_eq_some hheld)

theorem Orderly.addJoin (h : r.Orderly) (j : Join) : (r.addJoin j).Orderly := by
  refine h.withJoins (h.joins.insert _ _) fun key held hheld => ?_
  rw [Dictionary.get?_insert] at hheld
  split_ifs at hheld with hkey
  · obtain rfl := Option.some.inj hheld
    exact hkey.symm
  · exact h.keyed key held hheld

theorem Orderly.removeJoin (h : r.Orderly) (j : Join) : (r.removeJoin j).1.Orderly := by
  refine h.withJoins (h.joins.erase _) fun key held hheld => ?_
  rw [Dictionary.get?_erase] at hheld
  split_ifs at hheld
  exact h.keyed key held hheld

/-- A rule is put on a column that an active table has, and nothing else is changed. -/
theorem Orderly.attachMask_ok (h : r.Orderly) (hok : r.attachMask table column rule = .ok r') :
    ∃ columns c, r.active.get? table = some columns ∧ columns.get? column = some c ∧
      r' = r.withActive table (columns.insert column { c with maskingRule := some rule }) := by
  unfold attachMask column? at hok
  cases hactive : r.active.get? table with
  | none =>
      rw [hactive] at hok
      cases hok
  | some columns =>
      rw [hactive, Option.bind_some] at hok
      cases hcolumn : columns.get? column with
      | none =>
          rw [hcolumn] at hok
          cases hok
      | some c =>
          rw [hcolumn] at hok
          have hhas : r.hasTable table = true := by rw [hasTable, Dictionary.contains, hactive]; rfl
          refine ⟨columns, c, rfl, hcolumn, ?_⟩
          rw [h.withActive_of_hasTable hhas]
          exact (Except.ok.inj hok).symm

/-- Work on a registry in place: what has been done before a failure stays done. -/
abbrev InPlace := ExceptT Error (StateM Registry) Unit

def moveInPlace (table : String) : InPlace := do
  match (← get).inactive.get? table with
  | some columns =>
    modify fun r => { r with inactive := r.inactive.erase table }
    modify fun r => { r with active := r.active.insert table columns }
  | none => if !(← get).active.contains table then throw (missingTable table)

def linkInPlace (table : String) : InPlace := do
  forM ((← get).columnsOf table) fun c =>
    match c.foreignKey with
    | some fk => modify fun r => r.inferJoin table c fk
    | none => pure ()
  modify fun r => { r with
    joins := r.joins.mapValues fun j =>
      if j.table1 = table then { j with isActive := r.active.contains j.table2 } else j }

def activateInPlace (table : String) : InPlace := do
  moveInPlace table
  linkInPlace table

def deactivateInPlace (table : String) : InPlace := do
  let found := (← get).active.get? table
  modify fun r => { r with active := r.active.erase table }
  match found with
  | none => throw (missingTable table)
  | some columns =>
    modify fun r => { r with inactive := r.inactive.insert table columns }
    modify fun r => { r with joins := r.joins.filter fun (_, j) => j.table1 != table }
    modify fun r => { r with
      joins := r.joins.mapValues fun j =>
        if j.table2 = table then { j with isActive := false } else j }

def attachMaskInPlace (table column rule : String) : InPlace := do
  let r ← get
  match r.active.get? table, r.column? table column with
  | some columns, some c =>
    set { r with
      active := r.active.insert table
        (columns.insert column { c with maskingRule := some rule }) }
  | _, _ => throw (.schemaNotFound s!"column `{table}.{column}`")

/-- What an operation answers and leaves of which the outcome is known: a failure leaves the
registry. -/
def settle (r : Registry) : Except Error Registry → Except Error Unit × Registry
  | .ok r' => (.ok (), r')
  | .error e => (.error e, r)

theorem forM_inferJoin (cs : List Column) (r : Registry) (table : String) :
    (forM cs fun c => match c.foreignKey with
      | some fk => modify fun r => r.inferJoin table c fk
      | none => pure () : InPlace) r =
    (.ok (), cs.foldl (fun r c => match c.foreignKey with
      | some fk => r.inferJoin table c fk
      | none => r) r) := by
  induction cs generalizing r with
  | nil => rfl
  | cons c rest ih =>
      rw [List.forM_cons, run_bind, List.foldl_cons]
      cases hfk : c.foreignKey with
      | none => exact ih r
      | some fk => exact ih (r.inferJoin table c fk)

theorem linkInPlace_run (r : Registry) (table : String) :
    linkInPlace table r = (.ok (),
      let joined := (r.columnsOf table).foldl (fun r c => match c.foreignKey with
        | some fk => r.inferJoin table c fk
        | none => r) r
      { joined with
        joins := joined.joins.mapValues fun j =>
          if j.table1 = table then { j with isActive := joined.active.contains j.table2 }
          else j }) := by
  rw [linkInPlace, run_bind]
  change (forM (r.columnsOf table) _ >>= fun _ => _ : InPlace) r = _
  rw [run_bind, forM_inferJoin]
  rfl

theorem activateInPlace_run (r : Registry) (table : String) :
    activateInPlace table r = r.settle (r.activate table) := by
  rw [activateInPlace, run_bind, activate]
  cases hinactive : r.inactive.get? table with
  | some columns =>
      have hmove : moveInPlace table r = (.ok (), { r with
          inactive := r.inactive.erase table
          active := r.active.insert table columns }) := by
        rw [moveInPlace, run_bind]
        change (match r.inactive.get? table with | some columns => _ | none => _ : InPlace) r = _
        rw [hinactive]
        rfl
      rw [hmove]
      simp only [linkInPlace_run]
      rfl
  | none =>
      have hmove : moveInPlace table r =
          (if r.active.contains table then .ok () else .error (missingTable table), r) := by
        rw [moveInPlace, run_bind]
        change (match r.inactive.get? table with | some columns => _ | none => _ : InPlace) r = _
        rw [hinactive]
        change (if !r.active.contains table then _ else _ : InPlace) r = _
        cases r.active.contains table <;> rfl
      rw [hmove]
      split_ifs
      · simp only [linkInPlace_run]
        rfl
      · rfl

theorem deactivateInPlace_run (r : Registry) (table : String) :
    deactivateInPlace table r = r.settle (r.deactivate table) := by
  cases hactive : r.active.get? table with
  | none =>
      have hsame : r.active.erase table = r.active :=
        Dictionary.erase_of_not_mem (Dictionary.get?_eq_none_iff.mp hactive)
      have hrun : deactivateInPlace table r =
          (.error (missingTable table), { r with active := r.active.erase table }) := by
        rw [deactivateInPlace, run_bind]
        change (match r.active.get? table with | none => _ | some columns => _ : InPlace) _ = _
        rw [hactive]
        rfl
      rw [hrun, hsame, deactivate_of_not_active hactive]
      rfl
  | some columns =>
      rw [deactivate_eq hactive, deactivateInPlace, run_bind]
      change (match r.active.get? table with | none => _ | some columns => _ : InPlace) _ = _
      rw [hactive]
      rfl

theorem attachMaskInPlace_run (r : Registry) (table column rule : String) :
    attachMaskInPlace table column rule r = r.settle (r.attachMask table column rule) := by
  have hrun : attachMaskInPlace table column rule r =
      (match r.active.get? table, r.column? table column with
      | some columns, some c => set { r with
          active :=
            r.active.insert table (columns.insert column { c with maskingRule := some rule }) }
      | _, _ => throw (.schemaNotFound s!"column `{table}.{column}`") : InPlace) r := rfl
  rw [hrun, attachMask]
  cases r.active.get? table with
  | none => rfl
  | some columns => cases r.column? table column <;> rfl

end Registry

namespace Operation

variable {r r' : Registry} {op : Operation} {table : String}

/-- Performs an operation in place. -/
def perform : Operation → Registry.InPlace
  | .capture captured => modify fun r => r.capture captured
  | .insertTable table columns => modify fun r => r.insertTable table columns
  | .activate table => Registry.activateInPlace table
  | .deactivate table => Registry.deactivateInPlace table
  | .addJoin j => modify fun r => r.addJoin j
  | .removeJoin j => modify fun r => (r.removeJoin j).1
  | .attachMask table column rule => Registry.attachMaskInPlace table column rule

/-- The registry that an operation makes of another one, or its failure. -/
def outcome (r : Registry) : Operation → Except Error Registry
  | .capture captured => .ok (r.capture captured)
  | .insertTable table columns => .ok (r.insertTable table columns)
  | .activate table => r.activate table
  | .deactivate table => r.deactivate table
  | .addJoin j => .ok (r.addJoin j)
  | .removeJoin j => .ok (r.removeJoin j).1
  | .attachMask table column rule => r.attachMask table column rule

/-- Done in place, an operation leaves its outcome, or after a failure the registry as it was. -/
theorem perform_eq (op : Operation) (r : Registry) : op.perform r = r.settle (op.outcome r) := by
  cases op with
  | capture captured => rfl
  | insertTable table columns => rfl
  | activate table => exact Registry.activateInPlace_run r table
  | deactivate table => exact Registry.deactivateInPlace_run r table
  | addJoin j => rfl
  | removeJoin j => rfl
  | attachMask table column rule => exact Registry.attachMaskInPlace_run r table column rule

/-- The registry after an operation, whether it succeeds or fails. -/
def after (op : Operation) (r : Registry) : Registry := (op.perform r).2

theorem after_of_ok (h : op.outcome r = .ok r') : op.after r = r' := by
  rw [after, perform_eq, h]
  rfl

theorem after_of_error {e : Error} (h : op.outcome r = .error e) : op.after r = r := by
  rw [after, perform_eq, h]
  rfl

/-- What holds of a registry and of every outcome of an operation holds after the operation. -/
theorem after_induction {motive : Registry → Prop} (op : Operation) (hr : motive r)
    (hok : ∀ r', op.outcome r = .ok r' → motive r') : motive (op.after r) := by
  cases h : op.outcome r with
  | error e => rwa [after_of_error h]
  | ok r' =>
      rw [after_of_ok h]
      exact hok r' h

/-- The tables that an operation brings into a registry of some default schema. -/
def introduces (defaultSchema : String) : Operation → List String
  | .capture captured =>
      captured.map fun c => (Registry.empty defaultSchema).tableKey c.schemaName c.tableName
  | .insertTable table _ => [table]
  | _ => []

/-- Whatever brings in tables succeeds. -/
theorem introduces_of_error {e : Error} {defaultSchema : String} (h : op.outcome r = .error e) :
    op.introduces defaultSchema = [] := by
  cases op with
  | capture captured => cases h
  | insertTable table columns => cases h
  | _ => rfl

theorem orderly_outcome (h : r.Orderly) (hok : op.outcome r = .ok r') : r'.Orderly := by
  cases op with
  | capture captured => exact Except.ok.inj hok ▸ h.capture captured
  | insertTable table columns => exact Except.ok.inj hok ▸ h.withActive (orderly_tableOf columns)
  | activate table => exact h.activate hok
  | deactivate table =>
      obtain ⟨columns, hactive, rfl⟩ := Registry.deactivate_ok hok
      exact (h.withInactive (h.tables_active hactive)).unlinked table
  | addJoin j => exact Except.ok.inj hok ▸ h.addJoin j
  | removeJoin j => exact Except.ok.inj hok ▸ h.removeJoin j
  | attachMask table column rule =>
      obtain ⟨columns, c, hactive, hcolumn, rfl⟩ := h.attachMask_ok hok
      have hcolumns := h.tables_active hactive
      exact h.withActive (hcolumns.insert (hcolumns.named column c hcolumn))

theorem orderly_after (h : r.Orderly) : (op.after r).Orderly :=
  op.after_induction h fun _ => orderly_outcome h

theorem defaultSchema_outcome (h : r.Orderly) (hok : op.outcome r = .ok r') :
    r'.defaultSchema = r.defaultSchema := by
  cases op with
  | capture captured =>
      obtain ⟨active, inactive, hcapture⟩ := h.capture_frame captured
      rw [← Except.ok.inj hok, hcapture]
  | activate table => exact (h.activate_frame hok).1
  | deactivate table =>
      obtain ⟨columns, -, rfl⟩ := Registry.deactivate_ok hok
      rfl
  | attachMask table column rule =>
      obtain ⟨columns, c, -, -, rfl⟩ := h.attachMask_ok hok
      rfl
  | insertTable table columns => exact Except.ok.inj hok ▸ rfl
  | addJoin j => exact Except.ok.inj hok ▸ rfl
  | removeJoin j => exact Except.ok.inj hok ▸ rfl

/-- A table is found after an operation if it was found before or the operation brings it in. -/
theorem found?_outcome (h : r.Orderly) (hok : op.outcome r = .ok r') (table : String) :
    r'.found? table = none ↔ r.found? table = none ∧ table ∉ op.introduces r.defaultSchema := by
  cases op with
  | capture captured =>
      have hintroduced : table ∈ introduces r.defaultSchema (.capture captured) ↔
          r.capturedOf captured table ≠ [] := by
        simp [introduces, Registry.capturedOf, Registry.tableKey, Registry.empty,
          List.filter_eq_nil_iff]
      rw [← Except.ok.inj hok, h.found?_capture, hintroduced, not_not]
      split_ifs with hnone <;> simp [hnone]
  | insertTable other columns =>
      have hfound := r.found?_withActive other table (tableOf columns)
      have hr' : r' = r.withActive other (tableOf columns) := (Except.ok.inj hok).symm
      rw [hr', hfound]
      simp only [introduces, List.mem_singleton]
      split_ifs with hname <;> simp [hname]
  | activate other => simp [h.found?_activate hok, introduces]
  | deactivate other =>
      obtain ⟨columns, hactive, rfl⟩ := Registry.deactivate_ok hok
      have hfound : ((r.withInactive other columns).unlinked other).found? table = _ :=
        r.found?_withInactive other table columns
      rw [hfound]
      simp only [introduces, List.not_mem_nil, not_false_eq_true, and_true]
      split_ifs with hname
      · simp [hname, Registry.found?, hactive]
      · rfl
  | attachMask other column rule =>
      obtain ⟨columns, c, hactive, -, rfl⟩ := h.attachMask_ok hok
      rw [Registry.found?_withActive]
      simp only [introduces, List.not_mem_nil, not_false_eq_true, and_true]
      split_ifs with hname
      · simp [hname, Registry.found?, hactive]
      · rfl
  | addJoin j => simp [← Except.ok.inj hok, introduces, Registry.addJoin, Registry.found?]
  | removeJoin j => simp [← Except.ok.inj hok, introduces, Registry.removeJoin, Registry.found?]

end Operation

/-- Users, and their orders, each of which may follow another one, as an introspection finds
them. -/
def shopColumns : List Column :=
  [(Column.plain "users" "id" .integer).asPrimaryKey, .plain "users" "name" .text,
    (Column.plain "orders" "id" .integer).asPrimaryKey,
    (Column.plain "orders" "follows" .integer).referring "orders" "id",
    (Column.plain "orders" "user_id" .integer).referring "users" "id"]

/-- The registry that operations make of an empty one. -/
def replay (defaultSchema : String) (ops : List Operation) : Registry :=
  ops.foldl (fun r op => op.after r) (.empty defaultSchema)

section Replay
variable (defaultSchema : String) (ops : List Operation)

theorem replay_concat (op : Operation) :
    replay defaultSchema (ops ++ [op]) = op.after (replay defaultSchema ops) := by
  simp [replay]

theorem orderly_replay : (replay defaultSchema ops).Orderly := by
  induction ops using List.reverseRecOn with
  | nil => exact Registry.orderly_empty defaultSchema
  | append_singleton ops op ih =>
      rw [replay_concat]
      exact Operation.orderly_after ih

theorem defaultSchema_replay : (replay defaultSchema ops).defaultSchema = defaultSchema := by
  induction ops using List.reverseRecOn with
  | nil => rfl
  | append_singleton ops op ih =>
      rw [replay_concat]
      refine op.after_induction (motive := fun r => r.defaultSchema = defaultSchema) ih
        fun r' hok => ?_
      rw [Operation.defaultSchema_outcome (orderly_replay defaultSchema ops) hok, ih]

/-- The tables of a registry are those that the operations have brought in. -/
theorem found?_replay (table : String) : (replay defaultSchema ops).found? table ≠ none ↔
    ∃ op ∈ ops, table ∈ op.introduces defaultSchema := by
  induction ops using List.reverseRecOn with
  | nil => exact ⟨fun h => absurd rfl h, fun ⟨_, hop, _⟩ => nomatch hop⟩
  | append_singleton ops op ih =>
      have hr := orderly_replay defaultSchema ops
      simp only [replay_concat, List.mem_append, List.mem_singleton, or_and_right, exists_or,
        exists_eq_left, ← ih]
      cases hok : op.outcome (replay defaultSchema ops) with
      | error e =>
          rw [Operation.after_of_error hok, Operation.introduces_of_error hok]
          simp
      | ok r' =>
          rw [Operation.after_of_ok hok, Ne, Operation.found?_outcome hr hok, defaultSchema_replay]
          tauto

/-- Whatever operations are done, in whatever order: every table that was ever captured or put in is
active or inactive, never both and never twice, and there are no others. Capturing makes no table
active or inactive and changes the columns of the captured tables only, which have the captured ones
from then on. Each join is stored under its own key. And an operation that fails has changed
nothing. -/
theorem no_table_is_lost_or_doubled :
    ((replay defaultSchema ops).active.keys ++ (replay defaultSchema ops).inactive.keys).Nodup ∧
    (∀ table, (∃ op ∈ ops, table ∈ op.introduces defaultSchema) ↔
      Xor (table ∈ (replay defaultSchema ops).active.keys)
        (table ∈ (replay defaultSchema ops).inactive.keys)) ∧
    (∀ captured table,
      let r := replay defaultSchema ops
      let r' := (Operation.capture captured).after r
      r'.hasTable table = r.hasTable table ∧
      r'.found? table = if r.capturedOf captured table = [] then r.found? table
        else some (tableOf (r.capturedOf captured table))) ∧
    (∀ key j, (replay defaultSchema ops).joins.get? key = some j → key = j.key) ∧
    ∀ (op : Operation) (e : Error) (r : Registry),
      op.perform (replay defaultSchema ops) = (.error e, r) → r = replay defaultSchema ops := by
  have hr := orderly_replay defaultSchema ops
  refine ⟨?_, fun table => ?_, fun captured table => ?_, fun key j hj =>
    (hr.keyed key j hj).symm, ?_⟩
  · exact List.nodup_append.mpr ⟨hr.active.nodup, hr.inactive.nodup,
      fun table hactive _ hinactive heq => hr.apart table hactive (heq ▸ hinactive)⟩
  · rw [← found?_replay, Ne, Registry.found?_eq_none_iff]
    have hapart := hr.apart table
    rw [xor_def]
    tauto
  · exact ⟨hr.hasTable_capture captured table, hr.found?_capture captured table⟩
  · intro op e r hfailed
    rw [op.perform_eq] at hfailed
    cases hok : op.outcome (replay defaultSchema ops) with
    | error _ =>
        rw [hok] at hfailed
        exact (Prod.mk.inj hfailed).2.symm
    | ok r' =>
        rw [hok] at hfailed
        cases (Prod.mk.inj hfailed).1

theorem no_table_is_lost_or_doubled_shop :
    let r := replay "public" [.capture shopColumns, .activate "users"]
    Xor ("orders" ∈ r.active.keys) ("orders" ∈ r.inactive.keys) ∧
    ((Operation.capture shopColumns).after r).hasTable "users" = r.hasTable "users" ∧
    ∃ r', (Operation.deactivate "orders").perform r =
      (.error (Registry.missingTable "orders"), r') ∧ r' = r := by
  obtain ⟨-, hplace, hcapture, -, hfailed⟩ :=
    no_table_is_lost_or_doubled "public" [.capture shopColumns, .activate "users"]
  have horders : "orders" ∈ (Operation.capture shopColumns).introduces "public" := by decide +kernel
  exact ⟨(hplace "orders").mp ⟨_, List.mem_cons_self, horders⟩,
    (hcapture shopColumns "users").1, _, rfl,
    hfailed (.deactivate "orders") (Registry.missingTable "orders") _ rfl⟩

end Replay

end SqlGateway.Schema
