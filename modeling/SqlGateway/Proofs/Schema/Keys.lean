import Mathlib.Data.Set.Defs
import SqlGateway.Proofs.Name
import SqlGateway.Proofs.Schema.Directions
import SqlGateway.Proofs.Text.Search

/-!
# The keys of joins

A join is stored under the names of its two tables with three underscores between them, and it is
looked up by this key alone. The key of two names tells them as long as none of them has three
underscores in a row, or one where they meet; otherwise the key is that of other names as well.
Inner names have not even two underscores in a row. The joins of a registry that operations have
made of an empty one are of tables that the operations name, so a join that is looked up is of the
two tables just if no other two of these names have their key.
-/
namespace SqlGateway.Name

/-- A text has no three underscores in a row. -/
def NoTriple (cs : List Char) : Prop := ∀ before after, cs ≠ before ++ '_' :: '_' :: '_' :: after

theorem NoDouble.noTriple {cs : List Char} (h : NoDouble cs) : NoTriple cs := fun before after =>
  h before ('_' :: after)

/-- Three underscores in a row are found by a search. -/
theorem noTriple_iff {cs : List Char} : NoTriple cs ↔ Text.occurs ['_', '_', '_'] cs = false := by
  constructor
  · intro h
    by_contra hoccurs
    obtain ⟨before, after, heq⟩ := Text.exists_of_occurs (by simpa using hoccurs)
    exact h before after heq
  · rintro h before after rfl
    have hoccurs := Text.occurs_append before ['_', '_', '_'] after
    exact absurd (hoccurs.symm.trans h) (by decide)

instance (cs : List Char) : Decidable (NoTriple cs) := decidable_of_iff' _ noTriple_iff

end SqlGateway.Name

namespace SqlGateway.Schema

open Name (NoDouble NoTriple)

/-- A name that neither begins nor ends with an underscore. -/
def HasPlainEnds (name : String) : Prop :=
  name.toList.head? ≠ some '_' ∧ name.toList.getLast? ≠ some '_'

instance (name : String) : Decidable (HasPlainEnds name) := inferInstanceAs (Decidable (_ ∧ _))

section Split
variable {a b a' b' : List Char}

/-- Three underscores that stand where one text ends and the other begins are found nowhere else, if
neither text has three in a row nor one at that end. -/
theorem split_of_noTriple (ha : NoTriple a) (hb : NoTriple b) (hend : a.getLast? ≠ some '_')
    (hstart : b.head? ≠ some '_')
    (h : a' ++ ('_' :: '_' :: '_' :: b') = a ++ ('_' :: '_' :: '_' :: b)) : a' = a ∧ b' = b := by
  obtain ⟨middle, ha', hb'⟩ | ⟨middle, ha', hb'⟩ := List.append_eq_append_iff.mp h
  · -- The other split comes first, and its underscores reach into the first text.
    match middle with
    | [] => exact ⟨by simpa using ha'.symm, by simpa using hb'⟩
    | [c] =>
        simp only [List.cons_append, List.cons.injEq] at hb'
        rw [ha', ← hb'.1, List.getLast?_concat] at hend
        exact absurd rfl hend
    | [c, d] =>
        simp only [List.cons_append, List.cons.injEq] at hb'
        rw [ha', ← hb'.2.1, List.getLast?_append] at hend
        exact absurd rfl hend
    | c :: d :: e :: rest =>
        simp only [List.cons_append, List.cons.injEq] at hb'
        exact absurd (by rw [ha', ← hb'.1, ← hb'.2.1, ← hb'.2.2.1]) (ha a' rest)
  · -- The other split comes last, and its underscores reach into the second text.
    match middle with
    | [] => exact ⟨by simpa using ha', by simpa using hb'.symm⟩
    | [_] | [_, _] =>
        simp only [List.cons_append, List.nil_append, List.cons.injEq, true_and] at hb'
        exact absurd (by simp [hb']) hstart
    | _ :: _ :: _ :: rest =>
        simp only [List.cons_append, List.cons.injEq] at hb'
        exact absurd hb'.2.2.2 (hb rest _)

end Split

theorem joinKey_inj {a b a' b' : String} (ha : NoTriple a.toList) (hb : NoTriple b.toList)
    (hend : a.toList.getLast? ≠ some '_') (hstart : b.toList.head? ≠ some '_')
    (h : joinKey a' b' = joinKey a b) : a' = a ∧ b' = b := by
  have hchars := congrArg String.toList h
  simp only [joinKey, String.toList_append, List.append_assoc] at hchars
  obtain ⟨hfirst, hsecond⟩ := split_of_noTriple ha hb hend hstart hchars
  exact ⟨String.toList_injective hfirst, String.toList_injective hsecond⟩

/-- The join of two tables is a join of these two, the parent first, if no name of them has an
underscore at an end. -/
theorem Registry.Orderly.tables_of_join {r : Registry} (h : r.Orderly) {parent child : String}
    (hparent : NoDouble parent.toList) (hchild : NoDouble child.toList)
    (hends : HasPlainEnds parent)
    (hends' : HasPlainEnds child) {j : Join} (hj : r.join parent child = .ok j) :
    j.table1 = parent ∧ j.table2 = child := by
  obtain hheld | ⟨held, hheld, rfl⟩ := get?_of_join hj
  · exact joinKey_inj hparent.noTriple hchild.noTriple hends.2 hends'.1 (h.keyed _ _ hheld)
  · obtain ⟨htable1, htable2⟩ :=
      joinKey_inj hchild.noTriple hparent.noTriple hends'.2 hends.1 (h.keyed _ _ hheld)
    exact ⟨htable2, htable1⟩

/-- The key of two names is the key of no other two among some names. -/
def Unmistakable (names : Set String) (a b : String) : Prop :=
  ∀ a' ∈ names, ∀ b' ∈ names, joinKey a' b' = joinKey a b → a' = a ∧ b' = b

/-- A name without underscores at its ends and without three of them in a row. -/
def IsPlainName (name : String) : Prop := HasPlainEnds name ∧ NoTriple name.toList

instance (name : String) : Decidable (IsPlainName name) := inferInstanceAs (Decidable (_ ∧ _))

theorem unmistakable_of_isPlainName {a b : String} (ha : IsPlainName a) (hb : IsPlainName b)
    (names : Set String) : Unmistakable names a b := fun _ _ _ _ =>
  joinKey_inj ha.2 hb.2 ha.1.2 hb.1.1

/-- The table that a foreign key column refers to is among some names. -/
def Column.RefersWithin (defaultSchema : String) (names : Set String) (c : Column) : Prop :=
  ∀ fk ∈ c.foreignKey, (Registry.empty defaultSchema).tableKey fk.schemaName fk.tableName ∈ names

/-- All tables that an operation names are among some names, those that foreign keys refer to
included. -/
def Operation.Within (defaultSchema : String) (names : Set String) : Operation → Prop
  | .capture captured => ∀ c ∈ captured,
      (Registry.empty defaultSchema).tableKey c.schemaName c.tableName ∈ names ∧
        c.RefersWithin defaultSchema names
  | .insertTable table columns => table ∈ names ∧ ∀ c ∈ columns, c.RefersWithin defaultSchema names
  | .activate table => table ∈ names
  | .deactivate table => table ∈ names
  | .addJoin j => j.table1 ∈ names ∧ j.table2 ∈ names
  | .removeJoin j => j.table1 ∈ names ∧ j.table2 ∈ names
  | .attachMask table _ _ => table ∈ names

/-- The tables of joins, and those that foreign keys refer to, are among some names. -/
structure Registry.Within (names : Set String) (r : Registry) : Prop where
  references : ∀ table columns, r.found? table = some columns →
    ∀ c ∈ columns.values, c.RefersWithin r.defaultSchema names
  joins : ∀ key j, r.joins.get? key = some j → j.table1 ∈ names ∧ j.table2 ∈ names

section Within
variable {names : Set String} {r r' : Registry} {op : Operation} {table key : String} {j : Join}

theorem Registry.within_empty (defaultSchema : String) :
    (Registry.empty defaultSchema).Within names where
  references := nofun
  joins := nofun

theorem mem_of_mem_values_tableOf {columns : List Column} {c : Column}
    (h : c ∈ (tableOf columns).values) : c ∈ columns := by
  obtain ⟨entry, hentry, rfl⟩ := List.mem_map.mp h
  obtain ⟨c, hc, rfl⟩ := List.mem_map.mp (Dictionary.mem_of_mem_ofList hentry)
  exact hc

theorem Registry.Within.referenced_mem (h : r.Within names) {x : Reference}
    (hx : x ∈ r.references table) : x.referenced ∈ names := by
  rw [Registry.references] at hx
  cases hfound : r.found? table with
  | none =>
      rw [hfound] at hx
      cases hx
  | some columns =>
      rw [hfound, Option.getD_some] at hx
      obtain ⟨c, hc, hmap⟩ := List.mem_filterMap.mp hx
      obtain ⟨fk, hfk, rfl⟩ := Option.map_eq_some_iff.mp hmap
      exact h.references table columns hfound c hc fk hfk

theorem Registry.table1_mark (r : Registry) (table : String) (j : Join) :
    (r.mark table j).table1 = j.table1 := by
  unfold mark
  split_ifs <;> rfl

theorem Registry.table2_mark (r : Registry) (table : String) (j : Join) :
    (r.mark table j).table2 = j.table2 := by
  unfold mark
  split_ifs <;> rfl

/-- A join after an activation is of the tables of one before, or of the activated table and one
that its foreign keys refer to. -/
theorem Registry.Orderly.tables_activate (h : r.Orderly) (hok : r.activate table = .ok r')
    (hj : r'.joins.get? key = some j) :
    (∃ held, r.joins.get? key = some held ∧ j.table1 = held.table1 ∧ j.table2 = held.table2) ∨
      (j.table2 = table ∧ ∃ x ∈ r.references table, j.table1 = x.referenced) := by
  by_cases hown : ∃ x ∈ r.references table, joinKey x.referenced table = key
  · obtain ⟨x, hx, rfl⟩ := hown
    have hrefers := List.ne_nil_of_mem (mem_referencesTo.mpr ⟨hx, rfl⟩)
    rw [h.get?_activate hok hrefers] at hj
    obtain rfl := Option.some.inj hj
    simp only [table1_mark, table2_mark]
    cases hheld : r.joins.get? (joinKey x.referenced table) with
    | none => exact .inr ⟨rfl, x, hx, rfl⟩
    | some held => exact .inl ⟨held, rfl, rfl, rfl⟩
  · have hne : ∀ x ∈ r.references table, joinKey x.referenced table ≠ key := fun x hx heq =>
      hown ⟨x, hx, heq⟩
    rw [h.get?_activate_of_ne hok hne] at hj
    obtain ⟨held, hheld, rfl⟩ := Option.map_eq_some_iff.mp hj
    exact .inl ⟨held, hheld, table1_mark _ _ _, table2_mark _ _ _⟩

/-- An operation that names tables of some names brings no others into joins and foreign keys. -/
theorem Operation.within_outcome (hr : r.Orderly) (h : r.Within names)
    (hop : op.Within r.defaultSchema names) (hok : op.outcome r = .ok r') : r'.Within names := by
  have hschema := Operation.defaultSchema_outcome hr hok
  cases op with
  | capture captured =>
      obtain rfl := Except.ok.inj hok
      refine ⟨fun table columns hfound c hc => ?_, fun key j hj => ?_⟩
      · rw [hschema]
        rw [hr.found?_capture] at hfound
        split_ifs at hfound
        · exact h.references table columns hfound c hc
        · obtain rfl := Option.some.inj hfound
          exact (hop c (List.mem_of_mem_filter (mem_of_mem_values_tableOf hc))).2
      · obtain ⟨active, inactive, hcapture⟩ := hr.capture_frame captured
        rw [hcapture] at hj
        exact h.joins key j hj
  | insertTable other columns =>
      have hr' : r' = r.withActive other (tableOf columns) := (Except.ok.inj hok).symm
      subst hr'
      refine ⟨fun table found hfound c hc => ?_, h.joins⟩
      rw [Registry.found?_withActive] at hfound
      split_ifs at hfound
      · obtain rfl := Option.some.inj hfound
        exact hop.2 c (mem_of_mem_values_tableOf hc)
      · exact h.references table found hfound c hc
  | activate other =>
      refine ⟨fun table columns hfound => ?_, fun key j hj => ?_⟩
      · rw [hr.found?_activate hok] at hfound
        rw [hschema]
        exact h.references table columns hfound
      · rcases hr.tables_activate hok hj with ⟨held, hheld, h1, h2⟩ | ⟨h2, x, hx, h1⟩
        · rw [h1, h2]
          exact h.joins key held hheld
        · rw [h1, h2]
          exact ⟨h.referenced_mem hx, hop⟩
  | deactivate other =>
      obtain ⟨columns, hactive, rfl⟩ := Registry.deactivate_ok hok
      refine ⟨fun table found hfound => ?_, fun key j hj => ?_⟩
      · have hmoved : (r.withInactive other columns).found? table = some found := hfound
        rw [Registry.found?_withInactive] at hmoved
        split_ifs at hmoved
        · exact Option.some.inj hmoved ▸ h.references other columns (hr.found?_of_active hactive)
        · exact h.references table found hmoved
      · rw [(hr.withInactive (hr.tables_active hactive)).get?_unlinked] at hj
        obtain ⟨held, hheld, rfl⟩ := Option.map_eq_some_iff.mp hj
        have hnames := h.joins key held (Option.eq_some_of_filter_eq_some hheld)
        split_ifs <;> exact hnames
  | addJoin given =>
      obtain rfl := Except.ok.inj hok
      refine ⟨h.references, fun key j hj => ?_⟩
      rw [Registry.addJoin, Dictionary.get?_insert] at hj
      split_ifs at hj
      · exact Option.some.inj hj ▸ hop
      · exact h.joins key j hj
  | removeJoin given =>
      obtain rfl := Except.ok.inj hok
      refine ⟨h.references, fun key j hj => ?_⟩
      rw [Registry.removeJoin, Dictionary.get?_erase] at hj
      split_ifs at hj
      exact h.joins key j hj
  | attachMask other column rule =>
      obtain ⟨columns, c, hactive, hcolumn, rfl⟩ := hr.attachMask_ok hok
      have hcolumns := h.references other columns (hr.found?_of_active hactive)
      refine ⟨fun table found hfound d hd => ?_, h.joins⟩
      rw [Registry.found?_withActive] at hfound
      split_ifs at hfound
      · obtain rfl := Option.some.inj hfound
        obtain ⟨entry, hentry, rfl⟩ := List.mem_map.mp hd
        -- The column with the rule refers to what it referred to without it.
        rcases Dictionary.mem_insert hentry with rfl | hentry
        · exact hcolumns c (List.mem_map_of_mem (Dictionary.mem_of_get? hcolumn))
        · exact hcolumns entry.2 (List.mem_map_of_mem hentry)
      · exact h.references table found hfound d hd

/-- However operations are done, joins are of tables that the operations name. -/
theorem within_replay {defaultSchema : String} {ops : List Operation}
    (h : ∀ op ∈ ops, op.Within defaultSchema names) : (replay defaultSchema ops).Within names := by
  induction ops using List.reverseRecOn with
  | nil => exact Registry.within_empty defaultSchema
  | append_singleton ops op ih =>
      have hops := ih fun other hother => h other (List.mem_append_left _ hother)
      have hop := h op (List.mem_append_right _ List.mem_cons_self)
      rw [replay_concat]
      rw [← defaultSchema_replay defaultSchema ops] at hop
      exact op.after_induction hops fun r' hok =>
        Operation.within_outcome (orderly_replay defaultSchema ops) hops hop hok

end Within

section Asked
variable {names : Set String} {r : Registry} {parent child : String} {j : Join}

/-- A join of two tables is one of these two, the parent first, if their keys are unmistakable. -/
theorem Registry.Orderly.tables_of_unmistakable (h : r.Orderly) (hnames : r.Within names)
    (hforth : Unmistakable names parent child) (hback : Unmistakable names child parent)
    (hj : r.join parent child = .ok j) : j.table1 = parent ∧ j.table2 = child := by
  obtain hheld | ⟨held, hheld, rfl⟩ := get?_of_join hj
  · obtain ⟨hfirst, hsecond⟩ := hnames.joins _ _ hheld
    exact hforth _ hfirst _ hsecond (h.keyed _ _ hheld)
  · obtain ⟨hfirst, hsecond⟩ := hnames.joins _ _ hheld
    exact (hback _ hfirst _ hsecond (h.keyed _ _ hheld)).symm

/-- Two tables without columns, and a join of two names. -/
def oneJoin (parent child a b : String) : List Operation :=
  [.insertTable parent [], .insertTable child [], .addJoin (.custom a [] b [])]

/-- The only join of a registry is looked up under its key, in either order. -/
theorem join_oneJoin (defaultSchema parent child a b : String) :
    (replay defaultSchema (oneJoin parent child a b)).join parent child =
      if joinKey a b = joinKey parent child then .ok (.custom a [] b [])
      else if joinKey a b = joinKey child parent then .ok (.custom b [] a [])
      else .error (.joinNotFound parent child) := by
  have hjoins (key : String) : (replay defaultSchema (oneJoin parent child a b)).joins.get? key =
      if joinKey a b = key then some (.custom a [] b []) else none := rfl
  have hactive (table : String) : (replay defaultSchema (oneJoin parent child a b)).hasTable table =
      (table == child || (table == parent || (Registry.empty defaultSchema).hasTable table)) := by
    have hfirst := (Registry.empty defaultSchema).hasTable_withActive parent table (tableOf [])
    have hsecond :=
      ((Registry.empty defaultSchema).withActive parent (tableOf [])).hasTable_withActive child
      table (tableOf [])
    rw [hfirst] at hsecond
    exact hsecond
  have hparent := hactive parent
  have hchild := hactive child
  simp only [beq_self_eq_true, Bool.true_or, Bool.or_true] at hparent hchild
  rw [Registry.join_eq hparent hchild, hjoins, hjoins]
  split_ifs <;> rfl

/-- In every registry that operations on tables of some names make, a join of two tables is one of
these two, the parent first, just if no other two of these names have the key of the two in either
order. Whatever the names are, this is so for two names without underscores at their ends and
without three of them in a row. -/
theorem join_is_of_asked_pair_iff (defaultSchema : String) (hparent : parent ∈ names)
    (hchild : child ∈ names) :
    ((∀ ops : List Operation, (∀ op ∈ ops, op.Within defaultSchema names) → ∀ j,
        (replay defaultSchema ops).join parent child = .ok j →
          j.table1 = parent ∧ j.table2 = child ∧ j.equalityCondition =
            " AND ".intercalate (j.pairs.map fun pair =>
              s!"{parent}.{pair.1} = {child}.{pair.2}")) ↔
      Unmistakable names parent child ∧ Unmistakable names child parent) ∧
    (IsPlainName parent → IsPlainName child →
      Unmistakable names parent child ∧ Unmistakable names child parent) := by
  refine ⟨⟨fun h => ?_, ?_⟩, fun hp hc =>
    ⟨unmistakable_of_isPlainName hp hc names, unmistakable_of_isPlainName hc hp names⟩⟩
  · -- A join of two other names under the key is found as the join of the pair.
    have hforth : Unmistakable names parent child := by
      intro a ha b hb hkey
      have hops : ∀ op ∈ oneJoin parent child a b, op.Within defaultSchema names := by
        simp [oneJoin, Operation.Within, Join.custom, hparent, hchild, ha, hb]
      have hjoin := join_oneJoin defaultSchema parent child a b
      rw [if_pos hkey] at hjoin
      obtain ⟨hfirst, hsecond, -⟩ := h _ hops _ hjoin
      exact ⟨hfirst, hsecond⟩
    refine ⟨hforth, fun a ha b hb hkey => ?_⟩
    have hops : ∀ op ∈ oneJoin parent child a b, op.Within defaultSchema names := by
      simp [oneJoin, Operation.Within, Join.custom, hparent, hchild, ha, hb]
    have hjoin := join_oneJoin defaultSchema parent child a b
    by_cases hboth : joinKey a b = joinKey parent child
    · obtain ⟨rfl, rfl⟩ := hforth a ha b hb hboth
      obtain ⟨hswap, -⟩ := hforth b hb a ha hkey.symm
      exact ⟨hswap.symm, hswap⟩
    · rw [if_neg hboth, if_pos hkey] at hjoin
      obtain ⟨hfirst, hsecond, -⟩ := h _ hops _ hjoin
      exact ⟨hsecond, hfirst⟩
  · rintro ⟨hforth, hback⟩ ops hops j hj
    obtain ⟨rfl, rfl⟩ :=
      (orderly_replay defaultSchema ops).tables_of_unmistakable (within_replay hops) hforth hback hj
    exact ⟨rfl, rfl, rfl⟩

/-- Underscores inside names, two in a row even, leave the key of a pair unmistakable. -/
theorem join_is_of_asked_pair_orderItems :
    let names : Set String := {name | Name.isSafe name = true}
    let ops := [.insertTable "user_accounts" [], .insertTable "order__items" [],
      .addJoin (.custom "user_accounts" ["id"] "order__items" ["account_id"])]
    let j := Join.custom "order__items" ["account_id"] "user_accounts" ["id"]
    "order__items" ∈ names ∧ "user_accounts" ∈ names ∧ (∀ op ∈ ops, op.Within "public" names) ∧
      Unmistakable names "order__items" "user_accounts" ∧
      (replay "public" ops).join "order__items" "user_accounts" = .ok j ∧
      j.table1 = "order__items" ∧ j.table2 = "user_accounts" ∧
      j.equalityCondition = "order__items.account_id = user_accounts.id" := by
  have hitems : Name.isSafe "order__items" = true := by decide
  have haccounts : Name.isSafe "user_accounts" = true := by decide
  obtain ⟨hiff, hplain⟩ :=
    @join_is_of_asked_pair_iff {name | Name.isSafe name = true} "order__items"
    "user_accounts" "public" hitems haccounts
  have hpair := hplain (by decide) (by decide)
  have hops : ∀ op ∈ [Operation.insertTable "user_accounts" [], .insertTable "order__items" [],
      .addJoin (.custom "user_accounts" ["id"] "order__items" ["account_id"])],
      op.Within "public" {name | Name.isSafe name = true} :=
    List.forall_mem_cons.mpr ⟨⟨haccounts, List.forall_mem_nil _⟩, List.forall_mem_cons.mpr
      ⟨⟨hitems, List.forall_mem_nil _⟩, List.forall_mem_singleton.mpr ⟨haccounts, hitems⟩⟩⟩
  obtain ⟨hfirst, hsecond, hcondition⟩ := hiff.mpr hpair _ hops _ rfl
  exact ⟨hitems, haccounts, hops, hpair.1, rfl, hfirst, hsecond, hcondition⟩

/-- The key of `a_` and `b` is that of `a` and `_b`. -/
theorem join_of_another_pair :
    let r := replay "public" [.insertTable "a" [], .insertTable "_b" [], .insertTable "a_" [],
      .insertTable "b" [], .addJoin (.custom "a_" ["id"] "b" ["a_id"])]
    (∀ name ∈ r.active.keys, Name.isSafe name = true) ∧ r.hasTable "a" = true ∧
    r.hasTable "_b" = true ∧
      r.join "a" "_b" = .ok (.custom "a_" ["id"] "b" ["a_id"]) ∧
      (Join.custom "a_" ["id"] "b" ["a_id"]).table1 ≠ "a" ∧
      (Join.custom "a_" ["id"] "b" ["a_id"]).equalityCondition = "a_.id = b.a_id" := by
  refine ⟨by decide +kernel, rfl, rfl, rfl, by decide, rfl⟩

end Asked

end SqlGateway.Schema
