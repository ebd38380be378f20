import Mathlib.Data.List.Nodup
import SqlGateway.Proofs.Query.Joins
import SqlGateway.Proofs.Schema.Keys
import SqlGateway.Proofs.Shop

/-!
# Links between tables

A table is joined once: where the walk over a selection first comes to a nested field of it, under
the table that this field stands in. The registry, or the caller, says how the two belong together,
and where neither does, there is no query. A later nested field of the same table, or one of the
main table, gets no join of its own. So every join comes after the one that introduces the table it
joins to.
-/
namespace SqlGateway.Query

open Request (Field Variables)
open Schema (HasPlainEnds Registry)

mutual

/-- A nested field and those below it, depth first, each with the table that it stands in. -/
def linksOf (table : String) : Field → List (String × Field)
  | ⟨label, name, arguments, directives, selection⟩ =>
    if selection.isEmpty then []
    else (table, ⟨label, name, arguments, directives, selection⟩) ::
      selectionLinks (Name.internal name) selection

def selectionLinks (table : String) : List Field → List (String × Field)
  | [] => []
  | f :: rest => linksOf table f ++ selectionLinks table rest

end

theorem linksOf_leaf {f : Field} (h : f.isLeaf = true) (table : String) : linksOf table f = [] := by
  cases f
  exact if_pos h

theorem linksOf_nested {f : Field} (h : f.isLeaf = false) (table : String) :
    linksOf table f = (table, f) :: selectionLinks (Name.internal f.name) f.selection := by
  cases f
  exact if_neg ((Bool.not_eq_true _).mpr h)

/-- The table that a nested field asks for. -/
def linkedTable (link : String × Field) : String := Name.internal link.2.name

/-- The first nested field of each table that was not seen before. -/
def firstLinks (seen : List String) : List (String × Field) → List (String × Field)
  | [] => []
  | link :: rest =>
    if linkedTable link ∈ seen then firstLinks seen rest
    else link :: firstLinks (seen ++ [linkedTable link]) rest

theorem firstLinks_append (seen : List String) (before after : List (String × Field)) :
    firstLinks seen (before ++ after) = firstLinks seen before ++
      firstLinks (seen ++ (firstLinks seen before).map linkedTable) after := by
  induction before generalizing seen with
  | nil => simp [firstLinks]
  | cons link rest ih =>
      rw [List.cons_append, firstLinks, firstLinks]
      split_ifs with h
      · exact ih seen
      · rw [ih, List.cons_append, List.map_cons, List.append_assoc, List.singleton_append]

/-- The tables seen and those of the first nested fields are those seen and those of all nested
fields. -/
theorem mem_firstLinks_tables {seen : List String} {links : List (String × Field)}
    {table : String} :
    table ∈ seen ++ (firstLinks seen links).map linkedTable ↔
    table ∈ seen ++ links.map linkedTable := by
  induction links generalizing seen with
  | nil => simp [firstLinks]
  | cons link rest ih =>
      rw [firstLinks]
      split_ifs with h
      · rw [ih]
        simp only [List.mem_append, List.map_cons, List.mem_cons]
        exact ⟨Or.imp_right .inr, Or.rec .inl (Or.rec (fun heq => .inl (heq ▸ h)) .inr)⟩
      · have hstep := @ih (seen ++ [linkedTable link])
        simpa [or_assoc] using hstep

/-- No table is twice among the first nested fields, and none of them was seen before. -/
theorem nodup_firstLinks {seen : List String} (hseen : seen.Nodup) (links : List (String × Field)) :
    (seen ++ (firstLinks seen links).map linkedTable).Nodup := by
  induction links generalizing seen with
  | nil => simpa [firstLinks] using hseen
  | cons link rest ih =>
      rw [firstLinks]
      split_ifs with h
      · exact ih hseen
      · have hnew : (seen ++ [linkedTable link]).Nodup := by
          rw [List.nodup_append]
          refine ⟨hseen, List.nodup_singleton _, ?_⟩
          rintro table htable other hother rfl
          exact h (List.mem_singleton.mp hother ▸ htable)
        simpa using ih hnew

theorem mem_firstLinks {seen : List String} {before after : List (String × Field)}
    {link : String × Field} (hseen : linkedTable link ∉ seen)
    (hbefore : linkedTable link ∉ before.map linkedTable) :
    link ∈ firstLinks seen (before ++ link :: after) := by
  rw [firstLinks_append, firstLinks, if_neg]
  · exact List.mem_append_right _ List.mem_cons_self
  · rw [mem_firstLinks_tables, List.mem_append]
    exact not_or.mpr ⟨hseen, hbefore⟩

/-- Nested fields each of which stands in a table that is there before, or that one before it asks
for. -/
inductive ParentsFirst : List String → List (String × Field) → Prop
  | nil {tables} : ParentsFirst tables []
  | cons {tables link rest} : link.1 ∈ tables → ParentsFirst (tables ++ [linkedTable link]) rest →
      ParentsFirst tables (link :: rest)

namespace ParentsFirst

variable {tables : List String} {links before after : List (String × Field)} {link : String × Field}

theorem append (h : ParentsFirst tables before)
    (h' : ParentsFirst (tables ++ before.map linkedTable) after) :
    ParentsFirst tables (before ++ after) := by
  induction h with
  | nil => simpa using h'
  | cons hparent _ ih =>
      refine .cons hparent (ih ?_)
      simpa using h'

/-- Links to tables that are there already can be left out. -/
theorem firstLinks (h : ParentsFirst tables links) {seen : List String} (hseen : tables ⊆ seen) :
    ParentsFirst seen (firstLinks seen links) := by
  induction h generalizing seen with
  | nil => exact .nil
  | @cons tables link rest hparent _ ih =>
      rw [Query.firstLinks]
      split_ifs with hlinked
      · exact ih (List.append_subset.mpr ⟨hseen, by simpa using hlinked⟩)
      · exact .cons (hseen hparent) (ih (List.append_subset.mpr
          ⟨List.subset_append_of_subset_left _ hseen, List.subset_append_right _ _⟩))

theorem mem_of_getElem? (h : ParentsFirst tables links) {i : Nat} (hi : links[i]? = some link) :
    link.1 ∈ tables ++ (links.take i).map linkedTable := by
  induction h generalizing i with
  | nil => simp at hi
  | cons hparent _ ih =>
      cases i with
      | zero =>
          obtain rfl := Option.some.inj hi
          simpa using hparent
      | succ i => simpa using ih hi

end ParentsFirst

mutual

/-- A field is walked before the fields below it, and these stand in its table. -/
theorem parentsFirst_linksOf {table : String} {tables : List String} (htable : table ∈ tables) :
    (f : Field) → ParentsFirst tables (linksOf table f)
  | ⟨label, name, arguments, directives, selection⟩ => by
      rw [linksOf]
      split_ifs
      · exact .nil
      · exact .cons htable (parentsFirst_selectionLinks (by simp [linkedTable]) selection)

theorem parentsFirst_selectionLinks {table : String} {tables : List String}
    (htable : table ∈ tables) :
    (fields : List Field) → ParentsFirst tables (selectionLinks table fields)
  | [] => .nil
  | f :: rest => (parentsFirst_linksOf htable f).append
      (parentsFirst_selectionLinks (List.mem_append_left _ htable) rest)

end

namespace Compiler

variable {c : Compiler} {vars : Variables} {f : Field} {parent child condition : String}

/-- The condition of the join that the registry holds for two tables: its equalities and its further
condition. -/
def RegistryCondition (c : Compiler) (parent child condition : String) : Prop :=
  ∃ j further parts, c.schema.join parent child = .ok j ∧
    FilterClause ⟨c.dialect, child, true⟩ j.complexCondition further ∧
    parts = (if j.equalityCondition.isEmpty then [] else [j.equalityCondition]) ++ further.toList ∧
    parts ≠ [] ∧ condition = " AND ".intercalate parts

/-- An equality that the caller asks for: a column of the parent and one of the child. -/
def AskedEquality (parent child : String) (pair : String × Json) (text : String) : Prop :=
  ∃ name, pair.2.asText? = some name ∧ Name.isSafe (Name.qualify parent pair.1) = true ∧
    Name.isSafe (Name.qualify child name) = true ∧
    text = Name.qualify parent pair.1 ++ " = " ++ Name.qualify child name

/-- The condition that the caller asks for, which has at least one equality. -/
def AskedCondition (parent child : String) (on : List (String × Json))
    (condition : String) : Prop :=
  on ≠ [] ∧ ∃ equalities, List.Forall₂ (AskedEquality parent child) on equalities ∧
    condition = " AND ".intercalate equalities

/-- The equalities that a nested field asks for in its `join.on`. -/
def askedOn? (vars : Variables) (f : Field) : Option (List (String × Json)) :=
  match f.resolved vars "join" with
  | some (.object spec) =>
    match Object.get? "on" spec with
    | some (.object on) => some on
    | _ => none
  | _ => none

/-- The condition under which a nested field links its table to the one that it stands in: the one
that the caller asks for, and otherwise the registry's. -/
def LinkCondition (c : Compiler) (vars : Variables) (f : Field)
    (parent child condition : String) : Prop :=
  match askedOn? vars f with
  | some on => AskedCondition parent child on condition
  | none => RegistryCondition c parent child condition

theorem registryCondition_ok (h : c.registryCondition parent child = .ok condition) :
    RegistryCondition c parent child condition := by
  obtain ⟨j, hj, h⟩ := bind_eq_ok.mp h
  have further_ok : ∀ further : Option String,
      (let parts := (if j.equalityCondition.isEmpty then [] else [j.equalityCondition]) ++
        further.toList
       if parts.isEmpty then throw (.joinNotFound parent child)
       else pure (" AND ".intercalate parts) :
        Except Error String) = .ok condition →
      FilterClause ⟨c.dialect, child, true⟩ j.complexCondition further →
      RegistryCondition c parent child condition := by
    intro further h hfurther
    dsimp only at h
    generalize hparts : (if j.equalityCondition.isEmpty then [] else [j.equalityCondition]) ++
      further.toList = parts at h
    split_ifs at h with hempty
    exact ⟨j, further, parts, hj, hfurther,
      hparts.symm, by simpa using hempty, (pure_eq_ok.mp h).symm⟩
  cases hcomplex : j.complexCondition with
  | none =>
      rw [hcomplex] at h
      exact further_ok none h (by rw [hcomplex]; rfl)
  | some tree =>
      rw [hcomplex] at h
      obtain ⟨further, hfurther, h⟩ := bind_eq_ok.mp h
      exact further_ok further h (by rwa [hcomplex])

theorem explicitPair_ok {left text : String} {right : Json}
    (h : explicitPair parent child left right = .ok text) :
    AskedEquality parent child (left, right) text := by
  unfold explicitPair at h
  split at h
  · rename_i name hname
    obtain ⟨_, hleft, h⟩ := bind_eq_ok.mp h
    obtain ⟨_, hright, h⟩ := bind_eq_ok.mp h
    exact ⟨name, hname, ensureSafe_ok hleft, ensureSafe_ok hright, (pure_eq_ok.mp h).symm⟩
  · cases h

theorem joinSpec_ok {kind : Schema.JoinKind}
    (h : c.joinSpec vars f parent child = .ok (kind, condition)) :
    LinkCondition c vars f parent child condition := by
  have registered : askedOn? vars f = none → c.registryCondition parent child = .ok condition →
      LinkCondition c vars f parent child condition := by
    intro hasked hcondition
    rw [LinkCondition, hasked]
    exact registryCondition_ok hcondition
  unfold joinSpec at h
  split at h
  · rename_i hjoin
    obtain ⟨found, hfound, h⟩ := bind_eq_ok.mp h
    obtain ⟨_, rfl⟩ := Prod.mk.inj (pure_eq_ok.mp h)
    exact registered (by rw [askedOn?, hjoin]) hfound
  · rename_i name hjoin
    obtain ⟨_, _, h⟩ := bind_eq_ok.mp h
    obtain ⟨found, hfound, h⟩ := bind_eq_ok.mp h
    obtain ⟨_, rfl⟩ := Prod.mk.inj (pure_eq_ok.mp h)
    exact registered (by rw [askedOn?, hjoin]) hfound
  · rename_i spec hjoin
    obtain ⟨_, _, h⟩ := bind_eq_ok.mp h
    obtain ⟨found, hfound, h⟩ := bind_eq_ok.mp h
    obtain ⟨_, rfl⟩ := Prod.mk.inj (pure_eq_ok.mp h)
    unfold joinCondition at hfound
    split at hfound
    · rename_i hon
      exact registered (by rw [askedOn?, hjoin]; simp [hon]) hfound
    · rename_i hon
      exact registered (by rw [askedOn?, hjoin]; simp [hon]) hfound
    · rename_i first rest hon
      obtain ⟨equalities, hequalities, hfound⟩ := bind_eq_ok.mp hfound
      have hasked : askedOn? vars f = some (first :: rest) := by rw [askedOn?, hjoin]; simp [hon]
      rw [LinkCondition, hasked]
      refine ⟨List.cons_ne_nil first rest, equalities, ?_, (pure_eq_ok.mp hfound).symm⟩
      exact (forall₂_of_mapM hequalities).imp fun _ _ => explicitPair_ok
    · cases hfound
  · cases h

/-- A join links the table of a nested field to the table that the field stands in. -/
def Linked (c : Compiler) (vars : Variables) (link : String × Field) (clause : JoinClause) : Prop :=
  clause.table = linkedTable link ∧ LinkCondition c vars link.2 link.1 clause.table clause.condition

/-- A walk has joined, after what was joined before, the tables of the first nested fields of a
selection. -/
def Joins (c : Compiler) (vars : Variables) (links : List (String × Field)) (w w' : Walk) : Prop :=
  ∃ clauses : List JoinClause, w'.joins = w.joins ++ clauses.map JoinClause.text ∧
    w'.joined = w.joined ++ clauses.map (·.table) ∧
    List.Forall₂ (Linked c vars) (firstLinks w.joined links) clauses

theorem tables_of_linked {links : List (String × Field)} {clauses : List JoinClause}
    (h : List.Forall₂ (Linked c vars) links clauses) :
    clauses.map (·.table) = links.map linkedTable := by
  induction h with
  | nil => rfl
  | cons hfirst _ ih => rw [List.map_cons, List.map_cons, hfirst.1, ih]

theorem Joins.append {before after : List (String × Field)} {w u w' : Walk}
    (h : Joins c vars before w u) (h' : Joins c vars after u w') :
    Joins c vars (before ++ after) w w' := by
  obtain ⟨clauses, hjoins, hjoined, hlinked⟩ := h
  obtain ⟨others, hjoins', hjoined', hlinked'⟩ := h'
  refine ⟨clauses ++ others, ?_, ?_, ?_⟩
  · rw [hjoins', hjoins, List.map_append, List.append_assoc]
  · rw [hjoined', hjoined, List.map_append, List.append_assoc]
  · rw [firstLinks_append, ← tables_of_linked hlinked, ← hjoined]
    exact List.rel_append hlinked hlinked'

theorem joins_of_addJoin {w w' : Walk} (hsafe : Name.isSafe (Name.internal f.name) = true)
    (h : c.addJoin vars f parent (Name.internal f.name) w = .ok w') :
    Joins c vars [(parent, f)] w w' := by
  obtain ⟨hmem, hsame⟩ | ⟨kind, condition, hfresh, hspec, rfl⟩ := addJoin_ok h
  · subst hsame
    refine ⟨[], by simp, by simp, ?_⟩
    have hseen : linkedTable (parent, f) ∈ w'.joined := hmem
    rw [firstLinks, if_pos hseen]
    exact .nil
  · refine ⟨[⟨kind, Name.internal f.name, condition, hsafe⟩], rfl, rfl, ?_⟩
    have hnew : linkedTable (parent, f) ∉ w.joined := hfresh
    rw [firstLinks, if_neg hnew]
    exact .cons ⟨rfl, joinSpec_ok hspec⟩ .nil

theorem Walks.joinsFirsts {table : String} {level slot : Nat} {w w' : Walk} {fields : List Field}
    (h : Walks c vars table level slot w fields w') :
    Joins c vars (selectionLinks table fields) w w' := by
  induction h with
  | nil => exact ⟨[], by simp, by simp, .nil⟩
  | leaf hleaf _ _ _ ih =>
      rw [selectionLinks, linksOf_leaf hleaf]
      exact ih
  | nested hleaf _ htable hjoin _ _ _ ihbelow ih =>
      rw [selectionLinks, linksOf_nested hleaf]
      have hfirst := joins_of_addJoin htable.safe hjoin
      exact (Joins.append hfirst ihbelow).append ih

section Compiled
variable {limited : Bool} {q : CompiledQuery}

/-- The joins of a compiled query are those of the first link to each table, in the order of the
links. -/
theorem firstLinks_of_compileWith (h : c.compileWith limited vars f = .ok q) :
    ∃ clauses : List JoinClause, q.joins = clauses.map JoinClause.text ∧
    List.Forall₂ (Linked c vars)
      (firstLinks [q.mainTable] (selectionLinks (Name.internal f.name) f.selection))
      clauses := by
  obtain ⟨filters, orderBy, w, hq⟩ := exists_compiled h
  obtain ⟨clauses, hjoins, _, hlinked⟩ := hq.walks.joinsFirsts
  refine ⟨clauses, by rw [hq.joins, hjoins]; rfl, ?_⟩
  rw [hq.mainTable] at hlinked
  exact hq.mainTable.symm ▸ hlinked

/-- A nested field whose table is neither the main one nor that of a field before it has a join of
its own. -/
theorem exists_linked_of_compileWith (h : c.compileWith limited vars f = .ok q)
    {before after : List (String × Field)} {link : String × Field}
    (hlinks : selectionLinks (Name.internal f.name) f.selection = before ++ link :: after)
    (hmain : linkedTable link ≠ Name.internal f.name)
    (hbefore : linkedTable link ∉ before.map linkedTable) :
    ∃ clause : JoinClause, clause.text ∈ q.joins ∧ Linked c vars link clause := by
  obtain ⟨clauses, hjoins, hlinked⟩ := firstLinks_of_compileWith h
  obtain ⟨filters, orderBy, w, hq⟩ := exists_compiled h
  have hmem :
      link ∈ firstLinks [q.mainTable] (selectionLinks (Name.internal f.name) f.selection) := by
    rw [hlinks]
    exact mem_firstLinks (by rw [hq.mainTable]; simpa using hmain) hbefore
  obtain ⟨i, hi, rfl⟩ := List.mem_iff_getElem.mp hmem
  obtain ⟨hlength, hall⟩ := List.forall₂_iff_get.mp hlinked
  refine ⟨clauses[i], ?_, hall i hi (hlength ▸ hi)⟩
  rw [hjoins]
  exact List.mem_map_of_mem (List.getElem_mem _)

end Compiled

/-- Every table but the main one is joined once, under the table in which the walk first came to it,
and on the condition of that link. -/
theorem tables_linked_where_first_met (c : Compiler) (vars : Variables) (limited : Bool)
    (f : Field) : let links := selectionLinks (Name.internal f.name) f.selection
    (∀ q, c.compileWith limited vars f = .ok q → ∃ clauses : List JoinClause,
      q.joins = clauses.map JoinClause.text ∧
      List.Forall₂ (Linked c vars) (firstLinks [q.mainTable] links) clauses ∧
      (q.mainTable :: clauses.map (·.table)).Nodup) ∧
    ∀ before link after, links = before ++ link :: after → linkedTable link ≠ Name.internal f.name →
      linkedTable link ∉ before.map linkedTable →
      (∀ q, c.compileWith limited vars f = .ok q → ∃ clause : JoinClause,
        clause.text ∈ q.joins ∧ Linked c vars link clause) ∧
      ((¬∃ condition, LinkCondition c vars link.2 link.1 (linkedTable link) condition) →
        ∃ e, c.compileWith limited vars f = .error e) := by
  intro links
  refine ⟨fun q h => ?_, fun before link after hlinks hmain hbefore =>
    ⟨fun q h => ?_, fun hnone => ?_⟩⟩
  · obtain ⟨clauses, hjoins, hlinked⟩ := firstLinks_of_compileWith h
    refine ⟨clauses, hjoins, hlinked, ?_⟩
    rw [tables_of_linked hlinked]
    exact nodup_firstLinks (List.nodup_singleton q.mainTable) links
  · exact exists_linked_of_compileWith h hlinks hmain hbefore
  · cases h : c.compileWith limited vars f with
    | error e => exact ⟨e, rfl⟩
    | ok q =>
        obtain ⟨clause, _, htable, hcondition⟩ :=
          exists_linked_of_compileWith h hlinks hmain hbefore
        exact absurd ⟨clause.condition, htable ▸ hcondition⟩ hnone

/-- Nothing joins users and items in the shop. -/
theorem not_linkCondition_items {f : Field} (hasked : askedOn? [] f = none) :
    ¬∃ condition, LinkCondition Shop.compiler [] f "users" "items" condition := by
  rintro ⟨condition, hcondition⟩
  rw [LinkCondition, hasked] at hcondition
  obtain ⟨j, _, _, hj, _⟩ := hcondition
  have hnone : (Shop.compiler.schema.join "users" "items").toOption.isNone = true := by
    decide +kernel
  rw [hj] at hnone
  cases hnone

def items : Field := Shop.nested "items" [Shop.leaf "id"]

/-- Items of orders, and the same table once more directly below users. -/
def itemsTwice : Field := Shop.nested "users" [Shop.nested "orders" [Shop.leaf "id", items], items]

theorem tables_linked_itemsTwice :
    (∃ q, Shop.compiler.compileWith true [] itemsTwice = .ok q ∧
      ∃ clause : JoinClause, clause.text ∈ q.joins ∧ Linked Shop.compiler []
        ("orders", items) clause) ∧
    ∃ e, Shop.compiler.compileWith true [] (Shop.nested "users" [items]) = .error e := by
  constructor
  · obtain ⟨q, hq⟩ :=
      exists_eq_ok (x := Shop.compiler.compileWith true [] itemsTwice) (by decide +kernel)
    have hlinked := (tables_linked_where_first_met Shop.compiler [] true itemsTwice).2
      [("users", Shop.nested "orders" [Shop.leaf "id", items])] ("orders", items)
      [("users", items)] rfl (by decide) (by decide)
    exact ⟨q, hq, hlinked.1 q hq⟩
  · have hlinked :=
      (tables_linked_where_first_met Shop.compiler [] true (Shop.nested "users" [items])).2
      [] ("users", items) [] rfl (by decide) (by decide)
    exact hlinked.2 (not_linkCondition_items rfl)

/-- Users and their items are not linked, if the items were joined below orders before. -/
theorem items_not_linked_to_users : ∃ q, Shop.compiler.compileWith true [] itemsTwice = .ok q ∧
    ("users", items) ∈ selectionLinks (Name.internal itemsTwice.name) itemsTwice.selection ∧
    ¬∃ clause : JoinClause, clause.text ∈ q.joins ∧ Linked Shop.compiler []
      ("users", items) clause := by
  obtain ⟨q, hq⟩ :=
    exists_eq_ok (x := Shop.compiler.compileWith true [] itemsTwice) (by decide +kernel)
  have hlinks : selectionLinks (Name.internal itemsTwice.name) itemsTwice.selection =
      [("users", Shop.nested "orders" [Shop.leaf "id", items]), ("orders", items),
        ("users", items)] := rfl
  refine ⟨q, hq, by simp [hlinks], ?_⟩
  rintro ⟨clause, _, htable, hcondition⟩
  have hitems : clause.table = "items" := htable
  exact not_linkCondition_items rfl ⟨clause.condition, hitems ▸ hcondition⟩

/-- The condition of a join begins with the equalities of the registry's join of two tables. These
are of the two tables, those of the first one on the left, as long as no name of them has an
underscore at an end. -/
def BeginsWithEqualities (c : Compiler) (parent child condition : String) : Prop :=
  ∃ j rest, c.schema.join parent child = .ok j ∧ condition = j.equalityCondition ++ rest ∧
    (c.schema.Orderly → HasPlainEnds parent → HasPlainEnds child → j.table1 = parent ∧
      j.table2 = child)

theorem RegistryCondition.beginsWithEqualities (h : RegistryCondition c parent child condition)
    (hparent : Name.NoDouble parent.toList) (hchild : Name.NoDouble child.toList) :
    BeginsWithEqualities c parent child condition := by
  obtain ⟨j, further, parts, hj, _, hparts, _, hcondition⟩ := h
  have hbegins : ∃ rest, condition = j.equalityCondition ++ rest := by
    rw [hcondition, hparts]
    split_ifs with hempty
    · exact ⟨_, by rw [String.isEmpty_iff.mp hempty, String.empty_append]⟩
    · cases further with
      | none => exact ⟨"", by simp⟩
      | some text => exact ⟨" AND " ++ text, by simp [String.append_assoc]⟩
  obtain ⟨rest, hrest⟩ := hbegins
  exact ⟨j, rest, hj, hrest, fun horderly hends hends' =>
    horderly.tables_of_join hparent hchild hends hends' hj⟩

/-- Every link stands in a table with an inner name, if the first table has one. -/
theorem noDouble_of_link {main : String} (hmain : Name.NoDouble main.toList)
    {links : List (String × Field)} (h : ParentsFirst [main] links) {i : Nat}
    {link : String × Field} (hi : links[i]? = some link) : Name.NoDouble link.1.toList := by
  obtain heq | hearlier := List.mem_append.mp (h.mem_of_getElem? hi)
  · rwa [List.mem_singleton.mp heq]
  · obtain ⟨other, _, heq⟩ := List.mem_map.mp hearlier
    rw [← heq]
    exact Name.noDouble_internal other.2.name

/-- Tables are introduced in order. A compiled query joins the tables of its nested fields, but for
the main one, each once and in the order in which the walk first comes to them, under a table that
is there by then; and unless the caller asks for another condition, that of a join begins with the
equalities of the registry. -/
theorem tables_introduced_in_order {limited : Bool} {q : CompiledQuery}
    (h : c.compileWith limited vars f = .ok q) :
    let links := firstLinks [q.mainTable] (selectionLinks q.mainTable f.selection)
    ∃ clauses : List JoinClause, q.joins = clauses.map JoinClause.text ∧
      clauses.map (·.table) = links.map linkedTable ∧
      (q.mainTable :: clauses.map (·.table)).Nodup ∧
      (∀ table, table ∈ q.mainTable :: clauses.map (·.table) ↔
        table ∈ q.mainTable :: (selectionLinks q.mainTable f.selection).map linkedTable) ∧
      ∀ i link clause, links[i]? = some link → clauses[i]? = some clause →
        link.1 ∈ q.mainTable :: (clauses.take i).map (·.table) ∧
        (askedOn? vars link.2 = none →
          BeginsWithEqualities c link.1 clause.table clause.condition) := by
  intro links
  obtain ⟨filters, orderBy, w, hq⟩ := exists_compiled h
  obtain ⟨clauses, hjoins, hlinked⟩ := firstLinks_of_compileWith h
  rw [← hq.mainTable] at hlinked
  have htables : clauses.map (·.table) = links.map linkedTable := tables_of_linked hlinked
  have hparents : ParentsFirst [q.mainTable] links :=
    (parentsFirst_selectionLinks (List.mem_singleton_self _) f.selection).firstLinks
      (List.Subset.refl _)
  have hmain : Name.NoDouble q.mainTable.toList := hq.mainTable ▸ Name.noDouble_internal f.name
  refine ⟨clauses, hjoins, htables, ?_, fun table => ?_, fun i link clause hlink hclause =>
    ⟨?_, fun hasked => ?_⟩⟩
  · rw [htables]
    exact nodup_firstLinks (List.nodup_singleton q.mainTable) _
  · rw [htables]
    exact List.singleton_append ▸ mem_firstLinks_tables
  · rw [List.map_take, htables, ← List.map_take]
    exact hparents.mem_of_getElem? hlink
  · have hpair : (link, clause) ∈ links.zip clauses :=
      List.mem_of_getElem? (List.getElem?_zip_eq_some.mpr ⟨hlink, hclause⟩)
    obtain ⟨htable, hcondition⟩ := (List.forall₂_iff_zip.mp hlinked).2 hpair
    rw [LinkCondition, hasked] at hcondition
    exact hcondition.beginsWithEqualities (noDouble_of_link hmain hparents hlink)
      (htable ▸ Name.noDouble_internal link.2.name)

theorem tables_introduced_itemsTwice : ∃ q, Shop.compiler.compileWith true [] itemsTwice = .ok q ∧
    ∃ clauses : List JoinClause, q.joins = clauses.map JoinClause.text ∧
      clauses.map (·.table) = ["orders", "items"] ∧
      ∀ clause, clauses[1]? = some clause →
        BeginsWithEqualities Shop.compiler "orders" "items" clause.condition := by
  obtain ⟨q, hq⟩ :=
    exists_eq_ok (x := Shop.compiler.compileWith true [] itemsTwice) (by decide +kernel)
  have hmain : q.mainTable = "users" :=
    part_eq (g := fun q : CompiledQuery => q.mainTable) hq (by decide +kernel)
  obtain ⟨clauses, hjoins, htables, _, _, hordered⟩ := tables_introduced_in_order hq
  rw [hmain] at htables hordered
  have hnames : clauses.map (·.table) = ["orders", "items"] := htables.trans (by decide)
  refine ⟨q, hq, clauses, hjoins, hnames, fun clause hclause => ?_⟩
  obtain ⟨_, hbegins⟩ := hordered 1 ("orders", items) clause rfl hclause
  have hsecond : (clauses.map (·.table))[1]? = some "items" := hnames ▸ rfl
  have htable : clause.table = "items" := by simpa [hclause] using hsecond
  exact htable ▸ hbegins rfl

/-- Tables whose names have underscores where the key of a join puts its own: `a_` and `b` have the
key of `a` and `_b`. -/
def underscoredRegistry : Registry :=
  (((((Registry.empty "public").insertTable "a" [Shop.key "a" "id" .integer]).insertTable "_b"
    [Shop.key "_b" "id" .integer, .plain "_b" "a_id" .integer]).insertTable "a_"
    [Shop.key "a_" "id" .integer]).insertTable "b"
    [Shop.key "b" "id" .integer, .plain "b" "a_id" .integer]).addJoin
    (.custom "a_" ["id"] "b" ["a_id"]) |>.addJoin (.custom "a" ["id"] "_b" ["a_id"])

/-- The join of two tables may be that of two others, which the query does not even have. -/
theorem join_of_other_tables : ∃ q,
    { Shop.compiler with schema := underscoredRegistry }.compileWith true []
      (Shop.nested "a_" [Shop.leaf "id", Shop.nested "b" [Shop.leaf "id"]]) = .ok q ∧
    q.mainTable = "a_" ∧ q.joins = ["LEFT JOIN b ON a.id = _b.a_id"] := by
  obtain ⟨q, hq⟩ :=
    exists_eq_ok (x := { Shop.compiler with schema := underscoredRegistry }.compileWith true []
    (Shop.nested "a_" [Shop.leaf "id", Shop.nested "b" [Shop.leaf "id"]])) (by decide +kernel)
  have hparts : (q.mainTable, q.joins) = ("a_", ["LEFT JOIN b ON a.id = _b.a_id"]) :=
    part_eq (g := fun q : CompiledQuery => (q.mainTable, q.joins)) hq (by decide +kernel)
  exact ⟨q, hq, congrArg (·.1) hparts, congrArg (·.2) hparts⟩

end Compiler

end SqlGateway.Query
