import SqlGateway.Proofs.Schema.Operations

/-!
# The order of activation

Where nothing but activation has been done, the joins of a registry are those that the foreign keys
of its active tables stand for, and they are known from the tables and from which of them are
active. One activation keeps this. So whichever order the tables are activated in, and however
often, it comes to the same registry.

There is one join for a table and one that it refers to, so it takes all foreign keys between the
two together.
-/
namespace SqlGateway.Schema.Registry

variable {r r' : Registry} {table referenced : String} {tables : List String}

/-- Foreign keys of different tables do not come under one key. -/
def KeysApart (r : Registry) (tables : List String) : Prop :=
  ∀ t ∈ tables, ∀ t' ∈ tables, ∀ x ∈ r.references t, ∀ x' ∈ r.references t',
    joinKey x.referenced t = joinKey x'.referenced t' → t = t'

/-- The joins are those that the foreign keys of the active tables stand for. -/
structure Inferred (r : Registry) : Prop where
  present : ∀ table referenced, r.hasTable table = true → r.referencesTo table referenced ≠ [] →
    r.joins.get? (joinKey referenced table) = some (r.inferredJoin table referenced)
  only : ∀ key, (∀ table, r.hasTable table = true →
    ∀ x ∈ r.references table, joinKey x.referenced table ≠ key) → r.joins.get? key = none

theorem inferred_of_empty (hactive : r.active = []) (hjoins : r.joins = []) : r.Inferred where
  present := by
    intro table referenced htable
    rw [hasTable, hactive] at htable
    cases htable
  only := fun key _ => by
    rw [hjoins]
    rfl

/-- A join of another table stays what the foreign keys of that table stand for. -/
theorem mark_inferredJoin {other : String} (hother : other ≠ table)
    (hrefers : r'.referencesTo other referenced = r.referencesTo other referenced)
    (hactive : ∀ name, r'.hasTable name = (name == table || r.hasTable name))
    (htable : r.hasTable other = true) :
    r'.mark table (r.inferredJoin other referenced) = r'.inferredJoin other referenced := by
  unfold mark
  split_ifs with hname
  · obtain rfl : referenced = table := hname
    simp [inferredJoin, Join.marked, hrefers, hactive, htable]
  · have hne : (referenced == table) = false := by simpa [inferredJoin] using hname
    simp [inferredJoin, hrefers, hactive, htable, hne]

/-- A join of the activated table itself has all of its foreign key columns, whether it is made just
now or was made when the table was activated before. -/
theorem mark_extended (hrefers : r'.referencesTo table referenced = r.referencesTo table referenced)
    (htable : r'.hasTable table = true) {held : Option Join}
    (hheld : held = none ∨ held = some (r.inferredJoin table referenced)) :
    r'.mark table
      (((held.getD (.blank referenced table)).extended (r.referencesTo table referenced)).marked
      (r'.hasTable referenced)) = r'.inferredJoin table referenced := by
  have hextended : ((held.getD (.blank referenced table)).extended
      (r.referencesTo table referenced)).marked (r'.hasTable referenced) =
        r'.inferredJoin table referenced := by
    rcases hheld with rfl | rfl
    · rw [Option.getD_none, Join.blank_extended]
      simp only [inferredJoin, Join.marked, hrefers, htable, Bool.and_true]
    · have hall : ∀ x ∈ r.referencesTo table referenced,
          x.own ∈ (r.inferredJoin table referenced).columns2 := fun x hx => List.mem_map_of_mem hx
      rw [Option.getD_some, Join.extended_of_forall hall]
      simp only [inferredJoin, Join.marked, hrefers, htable, Bool.and_true]
  rw [hextended, mark]
  split_ifs with hname
  · obtain rfl : referenced = table := hname
    simp only [inferredJoin, Join.marked, htable, Bool.and_self]
  · rfl

/-- The join of a pair that the foreign keys of its second table stand for, if that table is active
and has any. -/
def inferred? (r : Registry) (referenced table : String) : Option Join :=
  if r.hasTable table = true ∧ r.referencesTo table referenced ≠ [] then
    some (r.inferredJoin table referenced)
  else none

/-- Under the key of a pair there is what foreign keys stand for. -/
def InferredAt (r : Registry) (referenced table : String) : Prop :=
  r.joins.get? (joinKey referenced table) = r.inferred? referenced table

theorem ne_of_referencesTo_eq_nil (h : r.referencesTo table referenced = []) :
    ∀ x ∈ r.references table, joinKey x.referenced table ≠ joinKey referenced table :=
      fun _ hx hkey =>
  List.ne_nil_of_mem (mem_referencesTo.mpr ⟨hx, joinKey_left_inj.mp hkey⟩) h

/-- Activating a table keeps what foreign keys stand for under the key of a pair, if only foreign
keys of the second table of the pair come under that key. -/
theorem InferredAt.activate {activated : String} (h : r.InferredAt referenced table)
    (hr : r.Orderly) (hapart : ∀ x ∈ r.references activated, joinKey x.referenced activated =
      joinKey referenced table → activated = table)
    (hok : r.activate activated = .ok r') : r'.InferredAt referenced table := by
  have hactive := hr.hasTable_activate hok
  have hrefers := hr.referencesTo_activate hok table referenced
  rw [InferredAt, inferred?] at h ⊢
  rw [hrefers]
  by_cases hname : activated = table
  · subst hname
    have hnow : r'.hasTable activated = true := by rw [hactive, beq_self_eq_true, Bool.true_or]
    by_cases hnone : r.referencesTo activated referenced = []
    · rw [hr.get?_activate_of_ne hok (ne_of_referencesTo_eq_nil hnone), h, if_neg fun hboth =>
        hboth.2 hnone, if_neg fun hboth => hboth.2 hnone, Option.map_none]
    · rw [if_pos ⟨hnow, hnone⟩, hr.get?_activate hok hnone]
      refine congrArg some (mark_extended hrefers hnow ?_)
      rw [h]
      split_ifs
      · exact .inr rfl
      · exact .inl rfl
  · have hsame : r'.hasTable table = r.hasTable table := by simp [hactive, Ne.symm hname]
    rw [hr.get?_activate_of_ne hok fun x hx hkey => hname (hapart x hx hkey), h, hsame]
    split_ifs with hboth
    · rw [Option.map_some, mark_inferredJoin (Ne.symm hname) hrefers hactive hboth.1]
    · rfl

section Activated
variable (hr : r.Orderly) (h : r.Inferred) (hapart : r.KeysApart tables)
  (hactive : ∀ name, r.hasTable name = true → name ∈ tables) (htable : table ∈ tables)

include h hapart hactive htable in
/-- Where keys are apart, there is no join of a pair whose second table is not active. -/
theorem Inferred.inferredAt (hrefers : r.referencesTo table referenced ≠ []) :
    r.InferredAt referenced table := by
  rw [InferredAt, inferred?]
  split_ifs with hboth
  · exact h.present table referenced hboth.1 hrefers
  · obtain ⟨x, hx, rfl⟩ := exists_of_referencesTo_ne_nil hrefers
    refine h.only _ fun other hother y hy hkey => ?_
    obtain rfl := hapart other (hactive other hother) table htable y hy x hx hkey
    exact hboth ⟨hother, hrefers⟩

variable (hok : r.activate table = .ok r')
include hr h hapart hactive htable hok

/-- Activating a table brings in the joins of its foreign keys and keeps the others. -/
theorem Inferred.activate : r'.Inferred where
  present := by
    intro other referenced hother hrefers
    have hafter := hrefers
    rw [hr.referencesTo_activate hok] at hrefers
    have hmem : other ∈ tables := by
      rw [hr.hasTable_activate hok, Bool.or_eq_true, beq_iff_eq] at hother
      exact hother.elim (fun hname => hname ▸ htable) (hactive other)
    obtain ⟨x, hx, rfl⟩ := exists_of_referencesTo_ne_nil hrefers
    have hat := (h.inferredAt hapart hactive hmem hrefers).activate hr
      (fun y hy hkey => hapart table htable other hmem y hy x hx hkey) hok
    rw [InferredAt, inferred?, if_pos ⟨hother, hafter⟩] at hat
    exact hat
  only := by
    intro key hkey
    simp only [hr.hasTable_activate hok, hr.references_activate hok] at hkey
    have hown : ∀ x ∈ r.references table, joinKey x.referenced table ≠ key :=
      hkey table (by rw [beq_self_eq_true, Bool.true_or])
    have hnone : r.joins.get? key = none :=
      h.only key fun other hother => hkey other (by rw [hother, Bool.or_true])
    rw [hr.get?_activate_of_ne hok hown, hnone, Option.map_none]

end Activated

/-- A registry in which some tables have been activated and nothing else has been done. -/
structure Brought (r : Registry) (tables : List String) (r' : Registry) : Prop where
  orderly : r'.Orderly
  inferred : r'.Inferred
  schema : r'.defaultSchema = r.defaultSchema
  security : r'.securityRules = r.securityRules
  transform : r'.transformRules = r.transformRules
  active : ∀ name, r'.hasTable name = true ↔ name ∈ tables
  found : ∀ name, r'.found? name = r.found? name

theorem Brought.keysApart {all : List String} (h : r.Brought tables r') (hapart : r.KeysApart all) :
    r'.KeysApart all := by
  intro t ht t' ht' x hx x' hx'
  rw [references_congr h.schema (h.found _)] at hx hx'
  exact hapart t ht t' ht' x hx x' hx'

/-- Activating one more table succeeds if it is found. -/
theorem Brought.step (h : r.Brought tables r') {all : List String} (hapart : r.KeysApart all)
    (htables : tables ⊆ all) (htable : table ∈ all) (hfound : r.found? table ≠ none) :
    ∃ r'', r'.activate table = .ok r'' ∧ r.Brought (table :: tables) r'' := by
  obtain ⟨columns, hcolumns⟩ := Option.ne_none_iff_exists'.mp hfound
  have hok := h.orderly.activate_eq ((h.found table).trans hcolumns)
  obtain ⟨hschema, hsecurity, htransform⟩ := h.orderly.activate_frame hok
  refine ⟨_, hok, h.orderly.activate hok, ?_, hschema.trans h.schema, hsecurity.trans h.security,
    htransform.trans h.transform, fun name => ?_, fun name => ?_⟩
  · have hactive : ∀ name, r'.hasTable name = true → name ∈ all := fun name hname =>
      htables ((h.active name).mp hname)
    exact h.inferred.activate h.orderly (h.keysApart hapart) hactive htable hok
  · rw [h.orderly.hasTable_activate hok, Bool.or_eq_true, beq_iff_eq, h.active, List.mem_cons]
  · exact (h.orderly.found?_activate hok name).trans (h.found name)

theorem Brought.run (h : r.Brought tables r') {all more : List String} (hapart : r.KeysApart all)
    (htables : tables ⊆ all) (hmore : more ⊆ all) (hfound : ∀ table ∈ more, r.found? table ≠ none) :
    ∃ r'', more.foldlM Registry.activate r' = .ok r'' ∧ r.Brought (more.reverse ++ tables) r'' := by
  induction more generalizing tables r' with
  | nil => exact ⟨r', rfl, h⟩
  | cons table rest ih =>
      obtain ⟨htable, hrest⟩ := List.forall_mem_cons.mp hfound
      have hmem : table ∈ all := hmore List.mem_cons_self
      obtain ⟨next, hok, hnext⟩ := h.step hapart htables hmem htable
      obtain ⟨last, hlast, hbrought⟩ := ih hnext (List.cons_subset.mpr ⟨hmem, htables⟩)
        (fun t ht => hmore (List.mem_cons_of_mem _ ht)) hrest
      refine ⟨last, ?_, ?_⟩
      · rw [List.foldlM_cons, hok]
        exact hlast
      · rwa [List.reverse_cons, List.append_assoc]

/-- The joins, as the foreign keys give them. -/
theorem Inferred.get?_eq_some_iff (h : r.Inferred) {key : String} {j : Join} :
    r.joins.get? key = some j ↔ ∃ table, r.hasTable table = true ∧ ∃ x ∈ r.references table,
      joinKey x.referenced table = key ∧ j = r.inferredJoin table x.referenced := by
  have hpresent {table : String} (htable : r.hasTable table = true) {x : Reference}
      (hx : x ∈ r.references table) :
      r.joins.get? (joinKey x.referenced table) = some (r.inferredJoin table x.referenced) :=
    h.present table x.referenced htable (List.ne_nil_of_mem (mem_referencesTo.mpr ⟨hx, rfl⟩))
  constructor
  · intro hj
    have hkey : ∃ table, r.hasTable table = true ∧
        ∃ x ∈ r.references table, joinKey x.referenced table = key := by
      by_contra hnone
      rw [h.only key fun table htable x hx heq => hnone ⟨table, htable, x, hx, heq⟩] at hj
      cases hj
    obtain ⟨table, htable, x, hx, rfl⟩ := hkey
    rw [hpresent htable hx] at hj
    exact ⟨table, htable, x, hx, rfl, (Option.some.inj hj).symm⟩
  · rintro ⟨table, htable, x, hx, rfl, rfl⟩
    exact hpresent htable hx

/-- The joins are known from the tables and from which of them are active. -/
theorem Inferred.get?_eq (h : r.Inferred) (h' : r'.Inferred)
    (hschema : r'.defaultSchema = r.defaultSchema)
    (hactive : ∀ name, r'.hasTable name = r.hasTable name)
    (hfound : ∀ name, r'.found? name = r.found? name)
    (key : String) : r'.joins.get? key = r.joins.get? key := by
  have hreferences (table : String) := references_congr hschema (hfound table)
  have hjoin (table referenced : String) :
      r'.inferredJoin table referenced = r.inferredJoin table referenced := by
    simp only [inferredJoin, referencesTo_congr hschema (hfound table), hactive]
  refine Option.ext fun j => ?_
  simp only [h.get?_eq_some_iff, h'.get?_eq_some_iff, hactive, hreferences, hjoin]

theorem Inferred.mem_values_iff (h : r.Inferred) (hr : r.Orderly) {j : Join} : j ∈ r.joins.values ↔
    ∃ table, r.hasTable table = true ∧ ∃ referenced, r.referencesTo table referenced ≠ [] ∧
      j = r.inferredJoin table referenced := by
  rw [Dictionary.mem_values_iff hr.joins]
  constructor
  · rintro ⟨key, hj⟩
    obtain ⟨table, htable, x, hx, -, rfl⟩ := h.get?_eq_some_iff.mp hj
    exact ⟨table, htable, x.referenced, List.ne_nil_of_mem (mem_referencesTo.mpr ⟨hx, rfl⟩), rfl⟩
  · rintro ⟨table, htable, referenced, hrefers, rfl⟩
    exact ⟨_, h.present table referenced htable hrefers⟩

theorem Brought.unique {others : List String} {r'' : Registry} (h : r.Brought tables r')
    (h' : r.Brought others r'') (hsame : ∀ t, t ∈ others ↔ t ∈ tables) : r'' = r' := by
  have hschema := h'.schema.trans h.schema.symm
  have hfound (t : String) : r''.found? t = r'.found? t := (h'.found t).trans (h.found t).symm
  have hactive (t : String) : r''.hasTable t = r'.hasTable t := by
    rw [Bool.eq_iff_iff, h'.active, h.active, hsame]
  exact h.orderly.ext h'.orderly hschema (h'.security.trans h.security.symm)
    (h'.transform.trans h.transform.symm) hactive hfound
    (h.inferred.get?_eq h'.inferred hschema hactive hfound)

/-- One join for each pair. -/
theorem Orderly.nodup_pairs (h : r.Orderly) :
    (r.joins.values.map fun j => (j.table1, j.table2)).Nodup := by
  refine List.Nodup.of_map (fun pair : String × String => joinKey pair.1 pair.2) ?_
  rw [List.map_map]
  exact h.map_key_values ▸ h.joins.nodup

theorem brought_of_captured {captured : List Column} (hactive : r.active = [])
    (hjoins : r.joins = []) (hinactive : r.inactive = r.grouped captured) : r.Brought [] r where
  orderly := by
    refine ⟨hactive ▸ .nil, hinactive ▸ r.ascending_grouped captured, hjoins ▸ .nil, ?_, ?_, ?_⟩
    · rw [hactive]
      intro table htable
      cases htable
    · intro table columns hfound
      rw [found?, hactive, hinactive] at hfound
      exact Orderly.grouped captured (Dictionary.mem_of_get? (Option.or_none.symm.trans hfound))
    · rw [hjoins]
      intro key j hj
      cases hj
  inferred := inferred_of_empty hactive hjoins
  schema := rfl
  security := rfl
  transform := rfl
  active := by simp [hasTable, Dictionary.contains, hactive, Dictionary.get?]
  found := fun _ => rfl

/-- From captured columns, without active tables and joins: activating captured tables whose foreign
keys come under different keys succeeds in every order and with every repetition, and it always
comes to the same registry. Just those tables are active then. There is exactly one join for each
table that foreign keys of an active table refer to, with the table they refer to on the first side
and theirs on the second, each foreign key column paired once with the column that it refers to, and
a join is active just if both its tables are. -/
theorem activation_order_is_immaterial {captured : List Column} (hactive : r.active = [])
    (hjoins : r.joins = []) (hinactive : r.inactive = r.grouped captured)
    (htables : ∀ table ∈ tables, table ∈ r.inactive.keys) (hapart : r.KeysApart tables) :
    ∃ r', tables.foldlM Registry.activate r = .ok r' ∧
      (∀ others : List String, (∀ t, t ∈ others ↔ t ∈ tables) →
        others.foldlM Registry.activate r = .ok r') ∧
      (∀ table, r'.hasTable table = true ↔ table ∈ tables) ∧
      (∀ table, r'.found? table = r.found? table) ∧
      (∀ j, j ∈ r'.joins.values ↔ ∃ table ∈ tables, ∃ referenced,
        r.referencesTo table referenced ≠ [] ∧
        j = { table1 := referenced
              table2 := table
              columns1 := (r.referencesTo table referenced).map (·.target)
              columns2 := (r.referencesTo table referenced).map (·.own)
              isActive := decide (referenced ∈ tables ∧ table ∈ tables)
              isCustom := false
              complexCondition := none }) ∧
      (r'.joins.values.map fun j => (j.table1, j.table2)).Nodup ∧
      ∀ j ∈ r'.joins.values, j.columns2.Nodup := by
  have hstart := brought_of_captured hactive hjoins hinactive
  have hfound {others : List String} (hsame : ∀ t, t ∈ others ↔ t ∈ tables) :
      ∀ table ∈ others, r.found? table ≠ none := fun table htable hnone =>
    (found?_eq_none_iff.mp hnone).2 (htables table ((hsame table).mp htable))
  obtain ⟨r', hok, hr'⟩ := hstart.run hapart (List.nil_subset _) (List.Subset.refl tables)
    (hfound fun _ => Iff.rfl)
  have hmem (t : String) : t ∈ tables.reverse ++ [] ↔ t ∈ tables := by simp
  have hhas (table : String) : r'.hasTable table = true ↔ table ∈ tables :=
    (hr'.active table).trans (hmem table)
  have hrefers (table referenced : String) :=
    referencesTo_congr hr'.schema (hr'.found table) referenced
  have hjoin (table referenced : String) : r'.inferredJoin table referenced =
      { table1 := referenced
        table2 := table
        columns1 := (r.referencesTo table referenced).map (·.target)
        columns2 := (r.referencesTo table referenced).map (·.own)
        isActive := decide (referenced ∈ tables ∧ table ∈ tables)
        isCustom := false
        complexCondition := none } := by
    have hboth : (r'.hasTable referenced && r'.hasTable table) =
        decide (referenced ∈ tables ∧ table ∈ tables) := by
      rw [Bool.eq_iff_iff, Bool.and_eq_true, hhas, hhas, decide_eq_true_eq]
    simp only [inferredJoin, hrefers, hboth]
  have hjoinsOf (j : Join) : j ∈ r'.joins.values ↔ ∃ table ∈ tables, ∃ referenced,
      r.referencesTo table referenced ≠ [] ∧ j = r'.inferredJoin table referenced := by
    simp only [hr'.inferred.mem_values_iff hr'.orderly, hhas, hrefers]
  refine ⟨r', hok, fun others hsame => ?_, hhas, hr'.found, fun j => ?_,
    hr'.orderly.nodup_pairs, ?_⟩
  · obtain ⟨r'', hok'', hr''⟩ := hstart.run hapart (List.nil_subset _)
      (fun t ht => (hsame t).mp ht) (hfound hsame)
    rw [hok'', hr'.unique hr'' fun t => by simp [hsame]]
  · simp only [hjoinsOf, hjoin]
  · intro j hj
    obtain ⟨table, -, referenced, -, rfl⟩ := (hjoinsOf j).mp hj
    exact hr'.orderly.nodup_own_referencesTo table referenced

theorem activation_order_is_immaterial_shop :
    let r := (empty "public").capture shopColumns
    r.KeysApart ["orders", "users"] ∧ ∃ r', ["orders", "users"].foldlM Registry.activate r =
      .ok r' ∧ ["users", "orders", "users"].foldlM Registry.activate r = .ok r' ∧
      r'.joins = [("orders___orders", ⟨"orders", "orders", ["id"], ["follows"], true, false, none⟩),
        ("users___orders", ⟨"users", "orders", ["id"], ["user_id"], true, false, none⟩)] := by
  have hapart : ((empty "public").capture shopColumns).KeysApart ["orders", "users"] := by
    unfold KeysApart
    decide +kernel
  have hinactive : ((empty "public").capture shopColumns).inactive =
      ((empty "public").capture shopColumns).grouped shopColumns := rfl
  obtain ⟨r', hok, hothers, -⟩ :=
    activation_order_is_immaterial rfl rfl hinactive (by decide +kernel) hapart
  exact ⟨hapart, r', hok, hothers _ (by simp [or_comm]), by
    rw [← Except.ok.inj hok]
    rfl⟩

/-- The column as part of a constraint. -/
def constrained (name : String) (c : Column) : Column := { c with constraintName := some name }

/-- The name of the constraint of a column of a table. -/
def constraint? (r : Registry) (table column : String) : Option String :=
  ((r.found? table).bind (·.get? column)).bind (·.constraintName)

/-- The columns of a join belong to one foreign key constraint of its second table. -/
def FollowsOne (r : Registry) (j : Join) : Prop :=
  ∃ name, ∀ own ∈ j.columns2, r.constraint? j.table2 own = some name

theorem pairs_inferredJoin (r : Registry) (table referenced : String) :
    (r.inferredJoin table referenced).pairs =
      (r.referencesTo table referenced).map fun x => (x.target, x.own) := by
  rw [Join.pairs, inferredJoin, List.zip_map', List.map_inj_left]
  exact fun _ _ => rfl

section Captured
variable {defaultSchema : String} {captured : List Column}

/-- The foreign key columns of a table that refer to another one, as they were captured. -/
def keyColumns (defaultSchema : String) (captured : List Column) (table referenced : String) :
    List Column :=
  (tableOf ((empty defaultSchema).capturedOf captured table)).values.filter fun c =>
    c.foreignKey.any fun fk =>
      (empty defaultSchema).tableKey fk.schemaName fk.tableName == referenced

/-- Captured columns, and tables activated one after another. -/
def activations (captured : List Column) (tables : List String) : List Operation :=
  .capture captured :: tables.map .activate

theorem replay_activations_concat (tables : List String) (table : String) :
    replay defaultSchema (activations captured (tables ++ [table])) =
      (Operation.activate table).after (replay defaultSchema (activations captured tables)) := by
  rw [activations, List.map_append, ← List.cons_append]
  exact replay_concat _ _ _

/-- Activations leave the tables as they were captured. -/
theorem found?_activations (tables : List String) (name : String) :
    (replay defaultSchema (activations captured tables)).found? name =
      if (empty defaultSchema).capturedOf captured name = [] then none
      else some (tableOf ((empty defaultSchema).capturedOf captured name)) := by
  induction tables using List.reverseRecOn with
  | nil => exact (orderly_empty defaultSchema).found?_capture captured name
  | append_singleton tables table ih =>
      have hr := orderly_replay defaultSchema (activations captured tables)
      rw [replay_activations_concat]
      exact (Operation.activate table).after_induction ih fun r' hok =>
        (hr.found?_activate hok name).trans ih

/-- Just those of the tables that were captured become active. -/
theorem hasTable_activations (tables : List String) (name : String) :
    (replay defaultSchema (activations captured tables)).hasTable name = true ↔
      name ∈ tables ∧ (empty defaultSchema).capturedOf captured name ≠ [] := by
  induction tables using List.reverseRecOn with
  | nil =>
      have hnone := (orderly_replay defaultSchema []).hasTable_capture captured name
      refine ⟨fun hactive => ?_, fun h => ?_⟩
      · cases hnone.symm.trans hactive
      · cases h.1
  | append_singleton tables table ih =>
      have hr := orderly_replay defaultSchema (activations captured tables)
      have hfound := @found?_activations defaultSchema captured tables table
      rw [replay_activations_concat, List.mem_append, List.mem_singleton]
      cases hok : (replay defaultSchema (activations captured tables)).activate table with
      | error e =>
          have hout : (Operation.activate table).outcome _ = .error e := hok
          have hmissing : (empty defaultSchema).capturedOf captured table = [] := by
            by_contra hsome
            rw [if_neg hsome] at hfound
            cases (hr.activate_eq hfound).symm.trans hok
          rw [Operation.after_of_error hout, ih]
          refine ⟨fun ⟨hmem, hsome⟩ => ⟨.inl hmem, hsome⟩, fun ⟨hmem, hsome⟩ => ⟨?_, hsome⟩⟩
          exact hmem.resolve_right fun hname => hsome (hname ▸ hmissing)
      | ok r' =>
          have hout : (Operation.activate table).outcome _ = .ok r' := hok
          obtain ⟨columns, hcolumns, -⟩ := hr.activate_ok hok
          have hsome : (empty defaultSchema).capturedOf captured table ≠ [] := fun hnone => by
            rw [if_pos hnone, hcolumns] at hfound
            cases hfound
          rw [Operation.after_of_ok hout, hr.hasTable_activate hok, Bool.or_eq_true, beq_iff_eq, ih]
          constructor
          · rintro (rfl | ⟨hmem, hcaptured⟩)
            · exact ⟨.inr rfl, hsome⟩
            · exact ⟨.inl hmem, hcaptured⟩
          · rintro ⟨hmem | rfl, hcaptured⟩
            · exact .inr ⟨hmem, hcaptured⟩
            · exact .inl rfl

/-- The foreign key columns that activation goes by are the captured ones. -/
theorem referencesTo_activations (tables : List String) (table referenced : String) :
    (replay defaultSchema (activations captured tables)).referencesTo table referenced =
      (keyColumns defaultSchema captured table referenced).filterMap fun c =>
        c.foreignKey.map fun fk => ⟨referenced, fk.columnName, c.columnName⟩ := by
  have hschema :
      (replay defaultSchema (activations captured tables)).defaultSchema = defaultSchema :=
    defaultSchema_replay _ _
  have hfound : ((replay defaultSchema (activations captured tables)).found? table).getD [] =
      tableOf ((empty defaultSchema).capturedOf captured table) := by
    rw [found?_activations]
    split_ifs with hnone
    · rw [hnone]
      rfl
    · rfl
  rw [referencesTo, references, referencesIn, hfound, keyColumns, List.filter_filterMap,
    List.filterMap_filter]
  refine List.filterMap_congr fun c _ => ?_
  cases hfk : c.foreignKey with
  | none => rfl
  | some fk =>
      have hkey :
        (replay defaultSchema (activations captured tables)).tableKey fk.schemaName fk.tableName =
          (empty defaultSchema).tableKey fk.schemaName fk.tableName := by
        rw [tableKey, tableKey, hschema]
        rfl
      simp only [Option.map_some, Option.filter_some, Option.any_some, hkey, beq_iff_eq]
      split_ifs with hname
      · rw [hname]
      · rfl

theorem captured_of_mem_keyColumns {c : Column}
    (hc : c ∈ keyColumns defaultSchema captured table referenced) : c ∈ captured := by
  obtain ⟨entry, hentry, rfl⟩ := List.mem_map.mp (List.mem_filter.mp hc).1
  obtain ⟨c, hmem, rfl⟩ := List.mem_map.mp (Dictionary.mem_of_mem_ofList hentry)
  exact (List.mem_filter.mp hmem).1

theorem keyColumns_eq_nil_iff (tables : List String) (table referenced : String) :
    (replay defaultSchema (activations captured tables)).referencesTo table referenced = [] ↔
      keyColumns defaultSchema captured table referenced = [] := by
  rw [referencesTo_activations, List.filterMap_eq_nil_iff]
  refine ⟨fun h => ?_, fun h c hc => absurd (h ▸ hc) List.not_mem_nil⟩
  refine List.eq_nil_iff_forall_not_mem.mpr fun c hc => ?_
  obtain ⟨fk, hfk, -⟩ := (Option.any_eq_true _ _).mp (List.mem_filter.mp hc).2
  cases (congrArg (Option.map _) hfk).symm.trans (h c hc)

/-- Activations leave under the key of a pair what foreign keys stand for, if only foreign keys of
its second table come under that key. -/
theorem inferredAt_activations (hapart : ∀ t ∈ tables, ∀ other,
      keyColumns defaultSchema captured t other ≠ [] → joinKey other t = joinKey referenced table →
      t = table) :
    (replay defaultSchema (activations captured tables)).InferredAt referenced table := by
  induction tables using List.reverseRecOn with
  | nil =>
      obtain ⟨active, inactive, hcapture⟩ := (orderly_empty defaultSchema).capture_frame captured
      have hnone : ¬(replay defaultSchema (activations captured [])).hasTable table = true :=
        fun hactive =>
        List.not_mem_nil ((hasTable_activations [] table).mp hactive).1
      rw [InferredAt, inferred?, if_neg fun hboth => hnone hboth.1]
      change ((empty defaultSchema).capture captured).joins.get? _ = none
      rw [hcapture]
      rfl
  | append_singleton tables last ih =>
      have hat := ih fun t ht => hapart t (List.mem_append_left _ ht)
      have hlast : ∀ x ∈ (replay defaultSchema (activations captured tables)).references last,
          joinKey x.referenced last = joinKey referenced table → last = table := fun x hx =>
        hapart last (List.mem_append_right _ List.mem_cons_self) x.referenced fun hnone =>
          List.ne_nil_of_mem (mem_referencesTo.mpr ⟨hx, rfl⟩)
            ((keyColumns_eq_nil_iff tables _ _).mpr hnone)
      rw [replay_activations_concat]
      exact (Operation.activate last).after_induction hat fun r' hok =>
        hat.activate (orderly_replay _ _) hlast hok

/-- A captured column is found with its constraint. -/
theorem constraint?_activations {c : Column}
    (hc : c ∈ keyColumns defaultSchema captured table referenced) :
    (replay defaultSchema (activations captured tables)).constraint? table c.columnName =
      c.constraintName := by
  obtain ⟨entry, hentry, rfl⟩ := List.mem_map.mp (List.mem_filter.mp hc).1
  have htable := orderly_tableOf ((empty defaultSchema).capturedOf captured table)
  have hget := Dictionary.get?_of_mem htable.ascending hentry
  have hsome : (empty defaultSchema).capturedOf captured table ≠ [] := fun hnone => by
    rw [hnone] at hentry
    cases hentry
  rw [constraint?, found?_activations, if_neg hsome, Option.bind_some, htable.named _ _ hget, hget,
    Option.bind_some]

/-- The columns of the join that the foreign keys of a table stand for. -/
theorem own_referencesTo_activations (tables : List String) (table referenced : String) :
    ((replay defaultSchema (activations captured tables)).referencesTo table referenced).map
      (·.own) = (keyColumns defaultSchema captured table referenced).map (·.columnName) := by
  rw [referencesTo_activations, List.map_filterMap, ← List.filterMap_eq_map]
  refine List.filterMap_congr fun c hc => ?_
  obtain ⟨fk, hfk, -⟩ := (Option.any_eq_true _ _).mp (List.mem_filter.mp hc).2
  rw [hfk]
  rfl

/-- Columns with constraints belong to one just if no two of them belong to different ones. -/
theorem followsOne_inferredJoin_iff (hnamed : ∀ c ∈ captured, c.foreignKey ≠ none →
    c.constraintName ≠ none) : (replay defaultSchema (activations captured tables)).FollowsOne
        ((replay defaultSchema (activations captured tables)).inferredJoin table referenced) ↔
      ∀ c ∈ keyColumns defaultSchema captured table referenced,
        ∀ c' ∈ keyColumns defaultSchema captured table referenced, c.constraintName =
          c'.constraintName := by
  have hcolumns :
    ((replay defaultSchema (activations captured tables)).inferredJoin table referenced).columns2 =
      (keyColumns defaultSchema captured table referenced).map (·.columnName) :=
    own_referencesTo_activations tables table referenced
  rw [FollowsOne, hcolumns]
  constructor
  · rintro ⟨name, hname⟩
    have hone : ∀ c ∈ keyColumns defaultSchema captured table referenced, c.constraintName =
      some name := fun c hc =>
      (constraint?_activations hc).symm.trans (hname c.columnName (List.mem_map_of_mem hc))
    exact fun c hc c' hc' => (hone c hc).trans (hone c' hc').symm
  · intro hsame
    cases hkeys : keyColumns defaultSchema captured table referenced with
    | nil => exact ⟨"", by simp⟩
    | cons first rest =>
        have hfirst : first ∈ keyColumns defaultSchema captured table referenced :=
          hkeys ▸ List.mem_cons_self
        obtain ⟨fk, hfk, -⟩ := (Option.any_eq_true _ _).mp (List.mem_filter.mp hfirst).2
        have hmem : first ∈ captured := captured_of_mem_keyColumns hfirst
        obtain ⟨name, hname⟩ :=
          Option.ne_none_iff_exists'.mp (hnamed first hmem (hfk ▸ Option.some_ne_none fk))
        refine ⟨name, fun own hown => ?_⟩
        obtain ⟨c, hc, rfl⟩ := List.mem_map.mp (hkeys ▸ hown)
        exact ((constraint?_activations hc).trans (hsame c hc first hfirst)).trans hname

/-- There is one join for a table and one that its foreign keys refer to. After any activations it
equates all foreign key columns of the one table that refer to the other with the columns that they
refer to, in the order of their names, and whatever constraints they belong to. So they belong to
one just if no two of them belong to different ones. -/
theorem inferred_join_follows_pair (hnamed : ∀ c ∈ captured, c.foreignKey ≠ none →
    c.constraintName ≠ none)
    (hapart : ∀ t ∈ tables, ∀ other, keyColumns defaultSchema captured t other ≠ [] →
      joinKey other t = joinKey referenced table → t = table) :
    let r := replay defaultSchema (activations captured tables)
    let keys := keyColumns defaultSchema captured table referenced
    (keys.map (·.columnName)).Pairwise (· < ·) ∧
    (r.joins.get? (joinKey referenced table) ≠ none ↔ table ∈ tables ∧ keys ≠ []) ∧
    ∀ j, r.joins.get? (joinKey referenced table) = some j →
      j.table1 = referenced ∧ j.table2 = table ∧
      j.pairs = keys.filterMap (fun c => c.foreignKey.map fun fk => (fk.columnName, c.columnName)) ∧
      j.equalityCondition = " AND ".intercalate (keys.filterMap fun c => c.foreignKey.map fun fk =>
        s!"{referenced}.{fk.columnName} = {table}.{c.columnName}") ∧
      (r.FollowsOne j ↔ ∀ c ∈ keys, ∀ c' ∈ keys, c.constraintName = c'.constraintName) := by
  intro r keys
  have hrefers := @referencesTo_activations defaultSchema captured tables table referenced
  have hat : r.joins.get? (joinKey referenced table) = r.inferred? referenced table :=
    inferredAt_activations hapart
  have hnil : r.referencesTo table referenced ≠ [] ↔ keys ≠ [] :=
    not_congr (keyColumns_eq_nil_iff tables table referenced)
  have hboth : r.hasTable table = true ∧ r.referencesTo table referenced ≠ [] ↔ table ∈ tables ∧
      keys ≠ [] := by
    rw [hasTable_activations, hnil]
    refine ⟨fun ⟨hactive, hkeys⟩ => ⟨hactive.1, hkeys⟩, fun ⟨hmem, hkeys⟩ =>
      ⟨⟨hmem, fun hnone => hkeys ?_⟩, hkeys⟩⟩
    simp only [keys, keyColumns, hnone]
    rfl
  refine ⟨?_, ?_, fun j hj => ?_⟩
  · rw [← own_referencesTo_activations tables]
    exact (orderly_replay _ _).ascending_own_referencesTo table referenced
  · rw [hat, inferred?, ← hboth]
    split_ifs with h
    · simp [h]
    · simp [h]
  · rw [hat, inferred?] at hj
    split_ifs at hj
    obtain rfl := Option.some.inj hj
    have hpairs : (r.inferredJoin table referenced).pairs =
        keys.filterMap fun c => c.foreignKey.map fun fk => (fk.columnName, c.columnName) := by
      rw [pairs_inferredJoin, hrefers, List.map_filterMap]
      exact List.filterMap_congr fun c _ => Option.map_map _ _ _
    refine ⟨rfl, rfl, hpairs, ?_, followsOne_inferredJoin_iff hnamed⟩
    rw [Join.equalityCondition, hpairs, List.map_filterMap]
    exact congrArg _ (List.filterMap_congr fun c _ => Option.map_map _ _ _)

end Captured

/-- The lines of orders, and parcels, each of which takes one up by its two key columns. -/
def parcelColumns : List Column :=
  [(Column.plain "lines" "order_no" .integer).asPrimaryKey,
    (Column.plain "lines" "line_no" .integer).asPrimaryKey,
    (Column.plain "parcels" "id" .integer).asPrimaryKey,
    constrained "parcels_line_fkey" ((Column.plain "parcels" "order_no" .integer).referring "lines"
      "order_no"),
    constrained "parcels_line_fkey"
      ((Column.plain "parcels" "line_no" .integer).referring "lines" "line_no")]

theorem inferred_join_follows_pair_parcels :
    let r := replay "public" (activations parcelColumns ["parcels", "lines", "parcels"])
    ∃ j, r.joins.get? "lines___parcels" = some j ∧ r.FollowsOne j ∧
      j.equalityCondition =
        "lines.line_no = parcels.line_no AND lines.order_no = parcels.order_no" := by
  have hnamed : ∀ c ∈ parcelColumns, c.foreignKey ≠ none → c.constraintName ≠ none := by
    decide +kernel
  have hapart : ∀ t ∈ ["parcels", "lines", "parcels"], ∀ other,
    keyColumns "public" parcelColumns t other ≠ [] →
      joinKey other t = joinKey "lines" "parcels" → t = "parcels" := by
    intro t ht other hkeys _
    rcases List.mem_cons.mp ht with rfl | ht
    · rfl
    rcases List.mem_cons.mp ht with rfl | ht
    · exact absurd rfl hkeys
    · exact List.mem_singleton.mp ht
  obtain ⟨-, hpresent, hjoin⟩ := inferred_join_follows_pair hnamed hapart
  obtain ⟨j, hj⟩ := Option.ne_none_iff_exists'.mp (hpresent.mpr (by decide +kernel))
  obtain ⟨-, -, -, hcondition, hone⟩ := hjoin j hj
  exact ⟨j, hj, hone.mpr (by decide +kernel), hcondition.trans (by decide +kernel)⟩

/-- Users, and the messages that one of them sends to another. -/
def messageColumns : List Column :=
  [(Column.plain "users" "id" .integer).asPrimaryKey,
    (Column.plain "messages" "id" .integer).asPrimaryKey,
    constrained "messages_sender_fkey"
      ((Column.plain "messages" "sender_id" .integer).referring "users" "id"),
    constrained "messages_receiver_fkey"
      ((Column.plain "messages" "receiver_id" .integer).referring "users" "id")]

/-- Two foreign keys to one table make one join, which takes both together. -/
theorem join_of_two_foreign_keys :
    (∀ c ∈ messageColumns, c.foreignKey ≠ none → c.constraintName ≠ none) ∧
    let r := replay "public" (activations messageColumns ["users", "messages"])
    ∃ j, r.joins.get? "users___messages" = some j ∧
      j.equalityCondition = "users.id = messages.receiver_id AND users.id = messages.sender_id" ∧
      ¬r.FollowsOne j := by
  refine ⟨by decide +kernel,
    ⟨"users", "messages", ["id", "id"], ["receiver_id", "sender_id"], true, false, none⟩,
    rfl, by decide +kernel, ?_⟩
  rintro ⟨name, hname⟩
  have hreceiver := hname "receiver_id" (by decide)
  have hsender := hname "sender_id" (by decide)
  have hsame : some "messages_receiver_fkey" = some "messages_sender_fkey" :=
    hreceiver.trans hsender.symm
  exact absurd hsame (by decide)

end SqlGateway.Schema.Registry
