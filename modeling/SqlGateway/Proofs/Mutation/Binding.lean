import SqlGateway.Proofs.Mutation.Decisions
import SqlGateway.Proofs.Mutation.Markers
import SqlGateway.Proofs.Request.Spelling

/-!
# Binding parameters

The parameters of a write are its values row by row, and its statement has their markers in the same
order: the marker of a value stands in the place of its row and column in the list of values, or in
the assignment of its column. Nothing else in the statement holds a marker, for every name in it is
a safe one of the schema or one that is asked back, and what the caller writes into a condition
stays inside its literals.
-/
namespace SqlGateway.Schema

/-- The columns of a schema and the columns of its joins have safe names. -/
structure Registry.SafeColumns (r : Registry) : Prop where
  columns : ∀ entry ∈ r.active, ∀ column ∈ entry.2.keys, Name.isSafe column = true
  joins : ∀ j ∈ r.joins.values, ∀ column ∈ j.columns1 ++ j.columns2, Name.isSafe column = true

section Names
variable {r : Registry} {parent child table : String} {j : Join}

theorem Registry.SafeColumns.pairs (h : r.SafeColumns) (hj : r.join parent child = .ok j) :
    ∀ pair ∈ j.pairs, Name.isSafe pair.1 = true ∧ Name.isSafe pair.2 = true := by
  rintro ⟨left, right⟩ hpair
  obtain ⟨hleft, hright⟩ := List.of_mem_zip hpair
  obtain ⟨held, hheld, hswapped⟩ := Registry.join_ok hj
  obtain ⟨hcolumns1, hcolumns2⟩ := List.forall_mem_append.mp (h.joins held hheld)
  rcases hswapped with rfl | rfl
  · exact ⟨hcolumns1 left hleft, hcolumns2 right hright⟩
  · exact ⟨hcolumns2 left hleft, hcolumns1 right hright⟩

theorem Registry.SafeColumns.column {column : String} (h : r.SafeColumns)
    (hcolumn : (r.column? table column).isSome = true) : Name.isSafe column = true := by
  obtain ⟨c, hc⟩ := Option.isSome_iff_exists.mp hcolumn
  obtain ⟨columns, hcolumns, hc⟩ := Option.bind_eq_some_iff.mp hc
  have hkey : column ∈ columns.keys := List.mem_map_of_mem (Dictionary.mem_of_get? hc)
  exact h.columns (table, columns) (Dictionary.mem_of_get? hcolumns) column hkey

/-- The child of a join is a table of the active schema. -/
theorem Registry.mem_keys_of_join (h : r.join parent child = .ok j) : child ∈ r.active.keys := by
  unfold Registry.join at h
  split_ifs at h
  · cases h
  · cases h
  · cases h
  · rename_i hchild _
    have hfound : r.active.get? child ≠ none := by
      simpa [Registry.hasTable, Dictionary.contains] using hchild
    obtain ⟨t, ht⟩ := Option.ne_none_iff_exists'.mp hfound
    exact List.mem_map_of_mem (Dictionary.mem_of_get? ht)

end Names

end SqlGateway.Schema

namespace SqlGateway.Mutation

open Query (Lexed Phrase keywords)
open Request (Field Variables)

/-- A name of the grammar is plain. -/
theorem isPlain_of_isName {name : String} (h : Request.IsName name) : isPlain name = true := by
  obtain ⟨hne, hchars⟩ := h
  refine isPlain_iff.mpr ⟨fun hempty => hne (String.toList_eq_nil_iff.mpr hempty), fun c hc => ?_,
    hasMarker_of_forall (fun c hc => ⟨?_, ?_⟩) false⟩
  · have htail : Name.isTailChar c = true := Bool.or_eq_true_iff.mpr (.inl (hchars c hc))
    exact Query.isUnmarked_of_class (fun _ => Name.visible_of_isTailChar) (by decide) htail
  · rintro rfl
    exact absurd (hchars _ hc) (by decide)
  · rintro rfl
    exact absurd (hchars _ hc) (by decide)

namespace Projection

mutual

/-- All columns that are asked back, at any depth. -/
def names : Projection → List String
  | ⟨fields, children⟩ => fields ++ childNames children

def childNames : List (String × Projection) → List String
  | [] => []
  | (_, p) :: rest => names p ++ childNames rest

end

theorem names_of_mem {children : List (String × Projection)} {child : String × Projection}
    (h : child ∈ children) : child.2.names ⊆ childNames children := by
  induction children with
  | nil => cases h
  | cons first rest ih =>
      rw [childNames]
      rcases List.mem_cons.mp h with rfl | h
      · exact List.subset_append_left ..
      · exact List.Subset.trans (ih h) (List.subset_append_right ..)

theorem names_child (p : Projection) (key : String) : (p.child key).names ⊆ p.names := by
  cases p with
  | mk fields children =>
      rw [child, names]
      cases hfind : children.find? (·.1 == key) with
      | none => exact List.nil_subset _
      | some found =>
          exact List.Subset.trans (names_of_mem (List.mem_of_find?_eq_some hfind))
            (List.subset_append_right ..)

end Projection

theorem Projection.fields_subset_names (p : Projection) : p.fields ⊆ p.names := by
  cases p
  exact List.subset_append_left ..

/-- A write whose names are plain, under a condition whose literals are closed by the rules of a
dialect. -/
structure WriteNode.IsPlain (e : Dialect) (n : WriteNode) : Prop where
  table : isPlain n.table = true
  columns : ∀ column ∈ n.columns, isPlain column = true
  returning : ∀ column ∈ n.returning, isPlain column = true
  projection : ∀ name ∈ n.projection.names, isPlain name = true
  condition : ∀ text ∈ n.filter, Phrase e text
  spelled : n.kind ≠ .insertSelect
  updated : n.kind = .update → n.rows.length = 1
  deleted : n.kind = .delete → n.rows = []

def ArePlain (e : Dialect) (nodes : List WriteNode) : Prop := ∀ n ∈ nodes, n.IsPlain e

theorem ArePlain.finish {e : Dialect} {p : Planner} {nodes : List WriteNode} (h : ArePlain e nodes)
    (id : Nat) : ArePlain e (p.finish nodes id) := by
  refine Planner.forall_mem_modify (fun n hn => ?_) h id
  exact ⟨hn.table, hn.columns, hn.returning, hn.projection, hn.condition, hn.spelled,
    hn.updated, hn.deleted⟩

/-- A nested document is asked for plain columns, as its parent is. -/
theorem ArePlain.asked {e : Dialect} {nodes : List WriteNode} (h : ArePlain e nodes) (parent : Nat)
    (key : String) :
    ∀ name ∈ Projection.names (((nodes[parent]?).map fun n => n.projection.child key).getD .empty),
      isPlain name = true := by
  cases hparent : nodes[parent]? with
  | none => exact List.forall_mem_nil _
  | some n =>
      exact fun name hname =>
        (h n (List.mem_of_getElem? hparent)).projection name (Projection.names_child _ _ hname)

theorem mem_extendedReturning {join : Schema.Join} {returning : List String} {column : String}
    (h : column ∈ extendedReturning join returning) :
    column ∈ returning ∨ ∃ pair ∈ join.pairs, column = pair.1 := by
  have run : ∀ (pairs : List (String × String)) (returning : List String),
      column ∈ pairs.foldl (fun asked pair => askFor asked pair.1) returning →
      column ∈ returning ∨ ∃ pair ∈ pairs, column = pair.1 := by
    intro pairs
    induction pairs with
    | nil => exact fun _ h => .inl h
    | cons pair rest ih =>
        intro returning h
        rcases ih _ h with hmem | ⟨later, hlater, heq⟩
        · change column ∈ askFor returning pair.1 at hmem
          unfold askFor at hmem
          split at hmem
          · exact .inl hmem
          · rcases List.mem_append.mp hmem with hmem | hmem
            · exact .inl hmem
            · exact .inr ⟨pair, List.mem_cons_self, List.mem_singleton.mp hmem⟩
        · exact .inr ⟨later, List.mem_cons_of_mem _ hlater, heq⟩
  exact run join.pairs returning h

section Attaching
variable {e : Dialect} {p : Planner} {vars : Variables} {table : String}
  {nodes nodes' : List WriteNode}

/-- The columns that a document is split into have safe names. -/
theorem safe_split {content : Object} {split : SplitDocument} (hschema : p.schema.SafeColumns)
    (h : p.split vars table content = .ok split) :
    ∀ column ∈ split.columns, Name.isSafe column.1 = true := by
  obtain ⟨_, _, h⟩ := bind_eq_ok.mp h
  obtain ⟨forced, _, h⟩ := bind_eq_ok.mp h
  refine foldlM_ok (motive := fun split => ∀ column ∈ split.columns,
    Name.isSafe column.1 = true) ?_ h (List.forall_mem_nil _)
  rintro before after ⟨key, v⟩ _ hbefore hafter
  obtain ⟨rfl, hcolumn⟩ | ⟨_, _, _, _, _, rfl⟩ := Planner.place_ok hafter
  · have hkey : Name.isSafe key = true := hcolumn.elim hschema.column Query.Compiler.ensureSafe_ok
    exact List.forall_mem_append.mpr ⟨hbefore, List.forall_mem_singleton.mpr hkey⟩
  · exact hbefore

variable (hschema : p.schema.SafeColumns)
  (htables : ∀ table ∈ p.schema.active.keys, Name.isSafe table = true)

include hschema

theorem WriteNode.IsPlain.withChild {parent : String} {n : WriteNode} {join : Schema.Join}
    (h : n.IsPlain e) (hjoin : p.schema.join parent table = .ok join) (child : Nat) :
    (withChild join child n).IsPlain e := by
  refine ⟨h.table, h.columns, fun column hcolumn => ?_, h.projection, h.condition, h.spelled,
    h.updated, h.deleted⟩
  rcases mem_extendedReturning hcolumn with hmem | ⟨pair, hpair, rfl⟩
  · exact h.returning column hmem
  · exact isPlain_of_isSafe (hschema.pairs hjoin pair hpair).1

include htables

/-- The write of a nested document that is asked for plain columns is plain. -/
theorem isPlain_childWrite {number : Nat} {projection : Projection} {link : ParentLink}
    {group : ChildGroup} {child : SplitDocument} {content : Object}
    (hasked : ∀ name ∈ projection.names, isPlain name = true)
    (hjoin : p.schema.join table group.table = .ok group.join)
    (hchild : p.split vars group.table content = .ok child) :
    (childWrite p number projection link group child).IsPlain e where
  table := isPlain_of_isSafe (htables _ (Schema.Registry.mem_keys_of_join hjoin))
  columns := by
    refine List.forall_mem_append.mpr ⟨List.forall_mem_map.mpr fun column hcolumn => ?_,
      List.forall_mem_map.mpr fun pair hpair => ?_⟩
    · exact isPlain_of_isSafe (safe_split hschema hchild column hcolumn)
    · exact isPlain_of_isSafe (hschema.pairs hjoin pair (mem_of_mem_unsupplied hpair)).2
  returning name hname := hasked name (projection.fields_subset_names hname)
  projection := hasked
  condition := by simp [childWrite, Planner.newNode]
  spelled := by simp [childWrite, Planner.newNode]
  updated := by simp [childWrite, Planner.newNode]
  deleted := by simp [childWrite, Planner.newNode]

/-- The writes of nested documents are plain, however deep they go. -/
theorem arePlain_attachGroup {document depth parent row : Nat} {group : ChildGroup}
    (hjoin : p.schema.join table group.table = .ok group.join) (hnodes : ArePlain e nodes)
    (h : p.attachGroup vars document depth nodes parent row group = .ok nodes') :
    ArePlain e nodes' := by
  -- Each level down is below the table of its own group.
  induction depth generalizing nodes nodes' parent row table group with
  | zero => cases h
  | succ depth ih =>
      obtain ⟨_, _, h⟩ := bind_eq_ok.mp h
      refine foldlM_ok (motive := ArePlain e) (fun before after content _ hbefore hafter => ?_)
        h hnodes
      obtain ⟨child, attached, hchild, hattached, rfl⟩ := attachDocument_ok hafter
      obtain ⟨_, _, _, hgroups⟩ := Planner.split_ok hchild
      have hopen : ArePlain e (before.modify parent (withChild group.join before.length) ++
          [childWrite p document (((nodes[parent]?).map (·.projection.child group.key)).getD .empty)
            ⟨parent, row, group.key⟩ group child]) := by
        refine List.forall_mem_append.mpr ⟨?_, List.forall_mem_singleton.mpr ?_⟩
        · exact Planner.forall_mem_modify (fun n hn => hn.withChild hschema hjoin _) hbefore _
        · exact isPlain_childWrite hschema htables (ArePlain.asked hnodes parent group.key)
            hjoin hchild
      have hattached : ArePlain e attached :=
        foldlM_ok (motive := ArePlain e)
          (fun _ _ group hgroup hbefore hafter => ih (hgroups group hgroup).1 hbefore hafter)
            hattached hopen
      exact hattached.finish before.length

/-- The writes below a plain root are plain. -/
theorem arePlain_attachRows {depth : Nat} {root : WriteNode} (splits : List SplitDocument)
    (hsplits : ∀ split ∈ splits, ∃ content, p.split vars table content = .ok split)
    (hroot : root.IsPlain e)
    (h : p.attachRows vars depth 0 [root] (splits.mapIdx fun i s => (i, s)) = .ok nodes) :
    ArePlain e (p.finish nodes 0) := by
  have hnodes : ArePlain e nodes := by
    refine foldlM_ok (motive := ArePlain e) ?_ h (List.forall_mem_singleton.mpr hroot)
    rintro before after ⟨row, split⟩ hmem hbefore hafter
    have hsplit : split ∈ splits := by
      obtain ⟨i, hi, heq⟩ := List.mem_iff_getElem.mp hmem
      rw [List.getElem_mapIdx] at heq
      exact (Prod.mk.inj heq).2 ▸ List.getElem_mem _
    obtain ⟨content, hcontent⟩ := hsplits split hsplit
    obtain ⟨_, _, _, hgroups⟩ := Planner.split_ok hcontent
    exact foldlM_ok (motive := ArePlain e)
      (fun _ _ group hgroup hbefore hafter =>
        arePlain_attachGroup hschema htables (hgroups group hgroup).1 hbefore hafter) hafter hbefore
  exact hnodes.finish 0

end Attaching

section Widths
variable {α : Type} {rows : List (List α)} {width : Nat}

theorem length_flatten_of_width (h : ∀ values ∈ rows, values.length = width) :
    rows.flatten.length = rows.length * width := by
  induction rows with
  | nil => simp
  | cons values rest ih =>
      obtain ⟨hvalues, hrest⟩ := List.forall_mem_cons.mp h
      rw [List.flatten_cons, List.length_append, hvalues, ih hrest, List.length_cons, Nat.succ_mul,
        Nat.add_comm]

/-- Rows of one width lie one behind another. -/
theorem getElem?_flatten_of_width (h : ∀ values ∈ rows, values.length = width) {r c : Nat} {v : α}
    (hv : rows[r]?.bind (·[c]?) = some v) : c < width ∧ rows.flatten[r * width + c]? = some v := by
  induction rows generalizing r with
  | nil => simp at hv
  | cons values rest ih =>
      obtain ⟨hvalues, hrest⟩ := List.forall_mem_cons.mp h
      rw [List.flatten_cons]
      cases r with
      | zero =>
          have hv : values[c]? = some v := hv
          have hc : c < values.length := (List.getElem?_eq_some_iff.mp hv).1
          rw [Nat.zero_mul, Nat.zero_add, List.getElem?_append_left hc]
          exact ⟨hvalues ▸ hc, hv⟩
      | succ r =>
          obtain ⟨hc, hflatten⟩ := ih hrest hv
          have hplace : (r + 1) * width + c = values.length + (r * width + c) := by
            rw [hvalues, Nat.succ_mul]
            omega
          rw [hplace, List.getElem?_append_right (Nat.le_add_right ..), Nat.add_sub_cancel_left]
          exact ⟨hc, hflatten⟩

end Widths

/-- The markers in the statement of a write are those of its parameters, in order. The value in a
row and a column is the parameter with the number that its marker has: in the list of values of an
insert, or in the assignment of its column in an update. -/
structure WriteNode.LinesUp (d e : Dialect) (n : WriteNode) : Prop where
  markers : textMarkers? e n.sql = some (firstMarkers d n.parameters.length)
  numbers : n.parameters.length = n.rows.length * n.columns.length ∧
    ∀ (r c : Nat) (v : Json), n.rows[r]?.bind (·[c]?) = some v →
      c < n.columns.length ∧ n.parameters[r * n.columns.length + c]? = some v
  kind : n.kind ≠ .insertSelect
  values : n.kind = .insert → ∃ answer back, Lexed e n.sql (insertFront n.table n.columns answer ++
    valueLexemes d n.rows.length n.columns.length ++ back) ∧
    Unmarked (insertFront n.table n.columns answer) ∧ Unmarked back
  assignments : n.kind = .update → n.rows.length = 1 ∧ ∃ back, Lexed e n.sql
    (keywords ["update", n.table, "set"] ++ assignmentLexemes d n.columns ++ back) ∧
    Unmarked (keywords ["update", n.table, "set"]) ∧ Unmarked back
  nothing : n.kind = .delete → n.parameters = []

/-- Markers between lexemes without any. -/
theorem textMarkers?_between {e : Dialect} {text : String} {front middle back : List Query.Lexeme}
    {markers : List String} (h : Lexed e text (front ++ middle ++ back)) (hfront : Unmarked front)
    (hmiddle : markers? middle = some markers) (hback : Unmarked back) :
    textMarkers? e text = some markers := by
  have hall := markers?_append (markers?_append hfront.markers? hmiddle) hback.markers?
  rw [textMarkers?, h, Option.bind_some, hall, List.nil_append, List.append_nil]

section LinesUp
variable {e : Dialect} {p : Planner} {n : WriteNode}

/-- The markers of a plain write line up with its parameters, once its statement is spelled. -/
theorem WriteNode.IsPlain.linesUp (h : n.IsPlain e) (hsql : n.sql = p.statementOf n)
    (hwidth : ∀ values ∈ n.rows, values.length = n.columns.length) : n.LinesUp p.dialect e := by
  have hnumbers : n.parameters.length = n.rows.length * n.columns.length :=
    length_flatten_of_width hwidth
  have hvalues :
    n.kind = .insert → ∃ answer back, Lexed e n.sql (insertFront n.table n.columns answer ++
      valueLexemes p.dialect n.rows.length n.columns.length ++ back) ∧
      Unmarked (insertFront n.table n.columns answer) ∧ Unmarked back := by
    intro hkind
    rw [hsql, Planner.statementOf, hkind]
    exact lexed_insert h.table h.columns h.returning n.rows.length
  have hassignments : n.kind = .update → ∃ back, Lexed e n.sql
      (keywords ["update", n.table, "set"] ++ assignmentLexemes p.dialect n.columns ++ back) ∧
      Unmarked (keywords ["update", n.table, "set"]) ∧ Unmarked back := by
    intro hkind
    rw [hsql, Planner.statementOf, hkind]
    exact lexed_update h.table h.columns h.returning h.condition
  have hnothing : n.kind = .delete → n.parameters = [] := fun hkind => by
    rw [WriteNode.parameters, h.deleted hkind, List.flatten_nil]
  refine ⟨?_, ⟨hnumbers, fun r c v hv => getElem?_flatten_of_width hwidth hv⟩, h.spelled, hvalues,
    fun hkind => ⟨h.updated hkind, hassignments hkind⟩, hnothing⟩
  cases hkind : n.kind with
  | insert =>
      obtain ⟨answer, back, hlexed, hfront, hback⟩ := hvalues hkind
      rw [hnumbers]
      exact textMarkers?_between hlexed hfront (markers?_valueLexemes ..) hback
  | update =>
      obtain ⟨back, hlexed, hfront, hback⟩ := hassignments hkind
      rw [hnumbers, h.updated hkind, Nat.one_mul]
      exact textMarkers?_between hlexed hfront (markers?_assignmentLexemes h.columns) hback
  | delete =>
      obtain ⟨xs, hlexed, hunmarked⟩ :=
        lexed_delete (d := p.dialect) h.table h.returning h.condition
      rw [hnothing hkind, textMarkers?, hsql, Planner.statementOf, hkind]
      simp only [hlexed, Option.bind_some, hunmarked.markers?]
      rfl
  | insertSelect => exact absurd hkind h.spelled

/-- Putting in a row of the parent changes neither the statement nor the number of the values. -/
theorem WriteNode.IsPlain.linesUp_inject (h : n.IsPlain e) (hsql : n.sql = p.statementOf n)
    (hwidth : ∀ values ∈ n.rows, values.length = n.columns.length) (parentRow : Object) :
    (n.inject parentRow).LinesUp p.dialect e := by
  rw [inject_eq]
  have hplain : { n with rows := n.rows.map (injectedValues parentRow n.injected) }.IsPlain e := by
    refine ⟨h.table, h.columns, h.returning, h.projection, h.condition, h.spelled, fun hkind => ?_,
      fun hkind => ?_⟩
    · exact (List.length_map ..).trans (h.updated hkind)
    · rw [h.deleted hkind, List.map_nil]
  refine hplain.linesUp ?_ (List.forall_mem_map.mpr fun values hvalues => ?_)
  · rw [hsql]
    simp only [Planner.statementOf, List.length_map]
    cases n.kind <;> rfl
  · exact (length_injectedValues ..).trans (hwidth values hvalues)

end LinesUp

/-- By the rules of a dialect, the literals survive that stand in the condition of a write: those of
the caller's filter, and those of the filter that the security role puts on the table. -/
def Planner.LiteralsSurvive (p : Planner) (e : Dialect) (vars : Variables) (table : String)
    (filter : Option Json) : Prop :=
  ∀ tree, tree ∈ filter ∨ p.rules.security table (p.schema.securityRules.get? table) vars =
    .ok (.filter tree) →
    ∀ f, Query.reading ⟨p.dialect, table, false⟩ [] tree = some f →
    ∀ s ∈ f.literals, Query.Survives e s

/-- A plan of an insert, an update or a delete, for a table and answers with plain names and under a
condition whose literals survive. -/
inductive Planner.PlansPlain (p : Planner) (e : Dialect) (vars : Variables) : Plan → Prop
  | insert {table docs projection plan} : isPlain table = true →
      (∀ name ∈ projection.names, isPlain name = true) →
      p.planInsert vars table docs projection = .ok plan → p.PlansPlain e vars plan
  | update {table docs filter projection plan} : isPlain table = true →
      (∀ name ∈ projection.names, isPlain name = true) → p.LiteralsSurvive e vars table filter →
      p.planUpdate vars table docs filter projection = .ok plan → p.PlansPlain e vars plan
  | delete {table filter projection plan} : isPlain table = true →
      (∀ name ∈ projection.names, isPlain name = true) → p.LiteralsSurvive e vars table filter →
      p.planDelete vars table filter projection = .ok plan → p.PlansPlain e vars plan

section Plans
variable {p : Planner} {e : Dialect} {vars : Variables} {table : String} {docs : Json}
  {filter : Option Json} {projection : Projection} {plan : Plan}

theorem phrase_of_writeFilter {kind : Kind} {condition : Option String}
    (hliterals : p.LiteralsSurvive e vars table filter)
    (h : p.writeFilter vars kind table filter = .ok condition) :
    ∀ text ∈ condition, Phrase e text := by
  obtain ⟨own, ruled, hown, ⟨decision, hdecision, hruled⟩, hcondition, _⟩ :=
    Planner.restricted_of_writeFilter h
  have hownPhrase : ∀ text ∈ own, Phrase e text := by
    cases filter with
    | none =>
        obtain rfl : own = none := hown
        simp
    | some tree => exact Query.phrase_of_survives (hliterals tree (.inl rfl)) hown
  have hruledPhrase : ∀ text ∈ ruled, Phrase e text := by
    cases decision with
    | allow =>
        obtain rfl : ruled = none := hruled
        simp
    | deny reason => cases hruled
    | filter tree => exact Query.phrase_of_survives (hliterals tree (.inr hdecision)) hruled
  split_ifs at hcondition
  · simp [hcondition]
  · rw [hcondition]
    rintro text ⟨rfl⟩
    refine Query.Phrase.conjunction (List.forall_mem_append.mpr ⟨?_, ?_⟩)
    · exact fun text htext => hownPhrase text (Option.mem_toList.mp htext)
    · exact fun text htext => hruledPhrase text (Option.mem_toList.mp htext)

/-- The table that a request names is safe. -/
theorem safe_target {f : Field} {kind : Kind} (h : p.target f = .ok (kind, table)) :
    Name.isSafe table = true := by
  unfold Planner.target at h
  split at h
  · obtain ⟨_, hsafe, h⟩ := bind_eq_ok.mp h
    obtain ⟨_, _, h⟩ := bind_eq_ok.mp h
    obtain ⟨rfl, rfl⟩ := Prod.mk.inj (pure_eq_ok.mp h)
    exact Query.Compiler.ensureSafe_ok hsafe
  · cases h

/-- A plan of plain writes with their statements spelled lines up. -/
theorem linesUp_of_laid {documents : List (List SplitDocument)} {nodes : List WriteNode}
    (hplain : ArePlain e nodes) (h : Laid p vars documents nodes []) :
    ∀ n ∈ nodes, n.LinesUp p.dialect e ∧ ∀ parentRow, (n.inject parentRow).LinesUp p.dialect e := by
  intro n hn
  have hsql := Planner.sql_eq_of_laid h n hn
  obtain ⟨id, hid⟩ := List.mem_iff_getElem?.mp hn
  have hwidth := h.width id n hid
  exact ⟨(hplain n hn).linesUp hsql hwidth, (hplain n hn).linesUp_inject hsql hwidth⟩

variable (hschema : p.schema.SafeColumns)
  (htables : ∀ table ∈ p.schema.active.keys, Name.isSafe table = true)
  (htable : isPlain table = true) (hasked : ∀ name ∈ projection.names, isPlain name = true)

include hschema htables htable hasked

theorem arePlain_of_planInsert (h : p.planInsert vars table docs projection = .ok plan) :
    ArePlain e plan.nodes := by
  obtain ⟨contents, _, h⟩ := bind_eq_ok.mp h
  obtain ⟨_, _, h⟩ := bind_eq_ok.mp h
  obtain ⟨splits, hsplits, h⟩ := bind_eq_ok.mp h
  have hcontents : ∀ split ∈ splits, ∃ content, p.split vars table content = .ok split := by
    intro split hsplit
    obtain ⟨content, _, hcontent⟩ := exists_of_mem_mapM hsplits hsplit
    exact ⟨content, hcontent⟩
  extract_lets columns root rest at h
  have hcolumns : ∀ column ∈ columns, isPlain column = true := by
    cases splits with
    | nil => exact List.forall_mem_nil _
    | cons first _ =>
        obtain ⟨content, hcontent⟩ := hcontents first List.mem_cons_self
        refine List.forall_mem_map.mpr fun column hcolumn => isPlain_of_isSafe ?_
        exact safe_split hschema hcontent column hcolumn
  split at h
  · cases h
  · obtain ⟨nodes, hnodes, h⟩ := bind_eq_ok.mp h
    obtain rfl := pure_eq_ok.mp h
    have hroot : root.IsPlain e := by
      refine ⟨htable, hcolumns, fun name hname =>
        hasked name (projection.fields_subset_names hname), hasked,
        ?_, ?_, ?_, ?_⟩ <;> simp [root, Planner.newNode]
    exact arePlain_attachRows hschema htables splits hcontents hroot hnodes

theorem arePlain_of_planUpdate (hliterals : p.LiteralsSurvive e vars table filter)
    (h : p.planUpdate vars table docs filter projection = .ok plan) : ArePlain e plan.nodes := by
  obtain ⟨content, _, h⟩ := bind_eq_ok.mp h
  obtain ⟨condition, hcondition, h⟩ := bind_eq_ok.mp h
  obtain ⟨split, hsplit, h⟩ := bind_eq_ok.mp h
  extract_lets root rest at h
  split at h
  · cases h
  · obtain ⟨nodes, hnodes, h⟩ := bind_eq_ok.mp h
    obtain rfl := pure_eq_ok.mp h
    have hcolumns : ∀ column ∈ split.columns.map (·.1), isPlain column = true :=
      List.forall_mem_map.mpr fun column hcolumn =>
        isPlain_of_isSafe (safe_split hschema hsplit column hcolumn)
    have hroot : { root with filter := condition }.IsPlain e := by
      refine ⟨htable, hcolumns, fun name hname =>
        hasked name (projection.fields_subset_names hname), hasked,
        phrase_of_writeFilter hliterals hcondition, ?_, ?_, ?_⟩ <;> simp [root, Planner.newNode]
    exact arePlain_attachRows hschema htables [split]
      (List.forall_mem_singleton.mpr ⟨content, hsplit⟩) hroot hnodes

omit hschema htables

theorem linesUp_of_planDelete (hliterals : p.LiteralsSurvive e vars table filter)
    (h : p.planDelete vars table filter projection = .ok plan) :
    ∀ n ∈ plan.nodes, n.LinesUp p.dialect e ∧
    ∀ parentRow, (n.inject parentRow).LinesUp p.dialect e := by
  obtain ⟨condition, hcondition, h⟩ := bind_eq_ok.mp h
  obtain rfl := pure_eq_ok.mp h
  have hroot :
      { p.newNode table .delete [] [] 1 projection with filter := condition }.IsPlain e := by
    refine ⟨htable, List.forall_mem_nil _, fun name hname =>
      hasked name (projection.fields_subset_names hname),
      hasked, phrase_of_writeFilter hliterals hcondition, ?_, ?_, ?_⟩ <;> simp [Planner.newNode]
  have hplain := ArePlain.finish (p := p) (List.forall_mem_singleton.mpr hroot) 0
  intro n hn
  have hn' := hplain n hn
  obtain rfl := List.mem_singleton.mp hn
  exact ⟨hn'.linesUp rfl (List.forall_mem_nil _), hn'.linesUp_inject rfl (List.forall_mem_nil _)⟩

omit htable hasked

/-- What a request plans is plain, for its names are names of the grammar and its table has a safe
name. -/
theorem plansPlain_of_plan {f : Field}
    (hasked : ∀ name ∈ (returningProjection f).names, Request.IsName name)
    (hliterals : ∀ kind table, p.target f = .ok (kind, table) →
      p.LiteralsSurvive e vars table (f.resolved vars "where"))
    (h : p.plan vars f = .ok plan) : p.PlansPlain e vars plan := by
  have hnames : ∀ name ∈ (returningProjection f).names, isPlain name = true :=
    fun name hname => isPlain_of_isName (hasked name hname)
  obtain ⟨⟨kind, table⟩, htarget, h⟩ := bind_eq_ok.mp h
  have htable : isPlain table = true := isPlain_of_isSafe (safe_target htarget)
  cases kind with
  | insert =>
      obtain ⟨docs, _, h⟩ := bind_eq_ok.mp h
      exact .insert htable hnames h
  | update =>
      obtain ⟨docs, _, h⟩ := bind_eq_ok.mp h
      exact .update htable hnames (hliterals _ _ htarget) h
  | delete => exact .delete htable hnames (hliterals _ _ htarget) h
  | insertSelect => cases h

end Plans

/-- In every plan for a schema with safe names, the markers line up with the parameters, before and
after a row of the parent is put in, by the rules of every dialect that reads the literals of the
condition back. -/
theorem markers_line_up {p : Planner} {e : Dialect} {vars : Variables} {plan : Plan}
    (hschema : p.schema.SafeColumns)
    (htables : ∀ table ∈ p.schema.active.keys, Name.isSafe table = true)
    (h : p.PlansPlain e vars plan) :
    ∀ n ∈ plan.nodes, n.LinesUp p.dialect e ∧
    ∀ parentRow, (n.inject parentRow).LinesUp p.dialect e := by
  cases h with
  | insert htable hasked h =>
      obtain ⟨_, hplanned⟩ := planned_of_planInsert h
      exact linesUp_of_laid (arePlain_of_planInsert hschema htables htable hasked h) hplanned.laid
  | update htable hasked hliterals h =>
      obtain ⟨_, hplanned⟩ := planned_of_planUpdate h
      exact linesUp_of_laid (arePlain_of_planUpdate hschema htables htable hasked hliterals h)
        hplanned.laid
  | delete htable hasked hliterals h => exact linesUp_of_planDelete htable hasked hliterals h

/-- A new name for the users whose names hold something like a marker, and an order for the first of
them. -/
def renamedUsers : Field :=
  ⟨none, "update_users",
    [⟨"docs", .object [("name", .text "ann"), ("orders", .object [("total", .int 5)])]⟩,
    ⟨"where", .object [("name", .object [("$like", .text "50\\% off?")])]⟩], [],
    [Shop.nested "returning" [Shop.leaf "name"]]⟩

theorem markers_line_up_renamedUsers :
    let p : Planner := ⟨Shop.registry, .mysql, .passThrough⟩
    ∃ plan, p.plan [] renamedUsers = .ok plan ∧
      plan.nodes.map (·.sql) = ["update users set name = ? where users.name LIKE '%50\\% off?%'",
        "insert into orders (total, user_id) values (?, ?)"] ∧
      plan.nodes.map (fun n => (n.inject [("id", .int 7)]).parameters.length) = [1, 2] ∧
      ∀ n ∈ plan.nodes, n.LinesUp .mysql .mysql ∧
      ∀ parentRow, (n.inject parentRow).LinesUp .mysql .mysql := by
  intro p
  have hschema : p.schema.SafeColumns := ⟨by decide +kernel, by decide +kernel⟩
  have hasked : ∀ name ∈ (returningProjection renamedUsers).names, Request.IsName name := by
    rw [show (returningProjection renamedUsers).names = ["name"] by decide +kernel]
    exact List.forall_mem_singleton.mpr ⟨by decide, by decide⟩
  have hliterals : ∀ kind table, p.target renamedUsers = .ok (kind, table) →
      p.LiteralsSurvive .mysql [] table (renamedUsers.resolved [] "where") := by
    rintro kind table htarget tree (htree | hruled) f hf s hs
    · have hread : ((p.target renamedUsers).toOption.bind fun target =>
          (renamedUsers.resolved [] "where").bind fun tree =>
            (Query.reading ⟨.mysql, target.2, false⟩ [] tree).map Query.Formula.literals) =
          some ["%50\\% off?%"] := by decide +kernel
      rw [htarget, Option.mem_def.mp htree] at hread
      change (Query.reading ⟨.mysql, table, false⟩ [] tree).map Query.Formula.literals = _ at hread
      rw [hf, Option.map_some, Option.some.injEq] at hread
      obtain rfl : s = "%50\\% off?%" := by simpa [hread] using hs
      decide
    · cases hruled
  obtain ⟨plan, hplan⟩ := exists_eq_ok (x := p.plan [] renamedUsers) (by decide +kernel)
  exact ⟨plan, hplan, part_eq (g := fun plan : Plan => plan.nodes.map (·.sql))
    hplan (by decide +kernel),
    part_eq (g := fun plan : Plan => plan.nodes.map fun n =>
      (n.inject [("id", .int 7)]).parameters.length) hplan (by decide +kernel),
    markers_line_up hschema (by decide +kernel) (plansPlain_of_plan hasked hliterals hplan)⟩

/-- A backslash ends a literal of a condition early, and a marker in the rest of its text is one
that nothing is bound to. -/
theorem backslash_frees_marker :
    let p : Planner := ⟨Shop.registry, .mysql, .passThrough⟩
    let filter : Json := .object [("name", .text "\\' OR name = ? -- ")]
    let freed := "update users set name = ? where users.name = '\\'' OR name = ?"
    ∃ plan, p.planUpdate [] "users" (.object [("name", .text "ann")])
      (some filter) .empty = .ok plan ∧
      plan.nodes.map (fun n => (n.sql, n.parameters.length)) = [(freed ++ " -- '", 1)] ∧
      textMarkers? .mysql freed = some ["?", "?"] ∧ ∀ n ∈ plan.nodes, ¬n.LinesUp .mysql .mysql := by
  intro p filter freed
  obtain ⟨plan, hplan⟩ := exists_eq_ok
    (x := p.planUpdate [] "users" (.object [("name", .text "ann")]) (some filter) .empty)
    (by decide +kernel)
  have hnodes : plan.nodes.map (fun n => (n.sql, n.parameters.length)) = [(freed ++ " -- '", 1)] :=
    part_eq (g := fun plan : Plan => plan.nodes.map fun n => (n.sql, n.parameters.length)) hplan
      (by decide +kernel)
  refine ⟨plan, hplan, hnodes, by decide +kernel, fun n hn hlines => ?_⟩
  have hmem : (n.sql, n.parameters.length) ∈ [(freed ++ " -- '", 1)] :=
    hnodes ▸ List.mem_map_of_mem (f := fun n : WriteNode => (n.sql, n.parameters.length)) hn
  obtain ⟨hsql, _⟩ := Prod.mk.inj (List.mem_singleton.mp hmem)
  have hmarkers := hlines.markers
  have hnone : textMarkers? .mysql (freed ++ " -- '") = none := by decide +kernel
  rw [hsql, hnone] at hmarkers
  cases hmarkers

end SqlGateway.Mutation
