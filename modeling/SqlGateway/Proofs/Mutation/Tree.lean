import Mathlib.Data.List.Nodup
import SqlGateway.Proofs.Json.Object
import SqlGateway.Proofs.Mutation.Layout
import SqlGateway.Proofs.Query.Clauses
import SqlGateway.Proofs.Shop

/-!
# Plans as trees

The writes of a plan are listed in the order in which a walk over the nested documents comes to
them: behind a write stand all those below it, and behind these the next write of its parent. So a
subtree takes up an interval of the list, its root in front, and running the writes in the order of
the list runs every parent before its children.
-/
namespace SqlGateway.Mutation

open Request (Field Variables)

/-- Every row has a value for each column, no column is named twice, and the injected values go to
columns of their own. -/
structure WriteNode.IsRegular (n : WriteNode) : Prop where
  width : ∀ values ∈ n.rows, values.length = n.columns.length
  columns : n.columns.Nodup
  positions : (n.injected.map (·.position)).Nodup
  inRange : ∀ i ∈ n.injected, i.position < n.columns.length

/-- What is added to a write while the tree grows leaves it regular. -/
theorem WriteNode.IsRegular.grown {n : WriteNode} (h : n.IsRegular) (returning : List String)
    (children : List Nat) (sql : String) : { n with returning, children, sql }.IsRegular :=
  ⟨h.width, h.columns, h.positions, h.inRange⟩

theorem nodup_unsupplied {own : List String} (h : own.Nodup) (pairs : List (String × String)) :
    (own ++ (unsupplied own pairs).map (·.2)).Nodup := by
  induction pairs generalizing own with
  | nil => simpa [unsupplied] using h
  | cons pair rest ih =>
      rw [unsupplied]
      split_ifs with hmem
      · exact ih h
      · have hnew : (own ++ [pair.2]).Nodup := by
          rw [List.nodup_append]
          refine ⟨h, List.nodup_singleton _, ?_⟩
          rintro column hcolumn other hother rfl
          exact hmem (List.mem_singleton.mp hother ▸ hcolumn)
        simpa using ih hnew

theorem isRegular_childWrite {p : Planner} {documentNumber : Nat} {projection : Projection}
    {link : ParentLink} {group : ChildGroup} {child : SplitDocument}
    (h : (child.columns.map (·.1)).Nodup) :
    (childWrite p documentNumber projection link group child).IsRegular where
  width := by simp [childWrite, Planner.newNode]
  columns := nodup_unsupplied h group.join.pairs
  positions := by
    have hpositions :
      (childWrite p documentNumber projection link group child).injected.map (·.position) =
        List.range' child.columns.length (missing group.join child.columns).length := by
      rw [List.range'_eq_map_range]
      refine List.ext_getElem (by simp [childWrite]) fun i hi _ => ?_
      simp [childWrite]
    rw [hpositions]
    exact List.nodup_range'
  inRange := by
    intro i hi
    obtain ⟨j, hj, rfl⟩ := List.mem_iff_getElem.mp hi
    simp only [childWrite, List.length_mapIdx] at hj
    simpa [childWrite, Planner.newNode] using hj

/-- No object that the transforming role forces into a document has a key twice, if none in the
document has. -/
def Planner.ForcesDistinctKeys (p : Planner) (vars : Variables) : Prop :=
  ∀ table content forced, (Json.object content).hasDistinctKeys = true →
    p.rules.overwrite table (p.schema.transformRules.get? table) content vars = .ok forced →
    ∀ field ∈ forced, field.2.hasDistinctKeys = true

def ChildGroup.HasDistinctKeys (group : ChildGroup) : Prop :=
  ∀ content ∈ group.documents, (Json.object content).hasDistinctKeys = true

theorem mem_of_mapM_documentOf? {items : List Json} {documents : List Object}
    (h : items.mapM documentOf? = some documents) {content : Object}
    (hcontent : content ∈ documents) : .object content ∈ items := by
  induction items generalizing documents with
  | nil =>
      obtain rfl : [] = documents := by simpa using h
      cases hcontent
  | cons item rest ih =>
      rw [List.mapM_cons] at h
      obtain ⟨first, hfirst, h⟩ := Option.bind_eq_some_iff.mp h
      obtain ⟨others, hothers, h⟩ := Option.bind_eq_some_iff.mp h
      obtain rfl := Option.some.inj h
      rcases List.mem_cons.mp hcontent with rfl | hcontent
      · cases item with
        | object fields =>
            obtain rfl := Option.some.inj hfirst
            exact List.mem_cons_self
        | null | bool _ | int _ | float _ | text _ | list _ => cases hfirst
      · exact List.mem_cons_of_mem item (ih hothers hcontent)

theorem distinct_childDocuments {v : Json} {documents : List Object} (hv : v.hasDistinctKeys = true)
    (h : childDocuments? v = some documents) :
    ∀ content ∈ documents, (Json.object content).hasDistinctKeys = true := by
  cases v with
  | object fields =>
      obtain rfl := Option.some.inj h
      exact List.forall_mem_singleton.mpr hv
  | list items =>
      exact fun content hcontent =>
        Json.hasDistinctKeys_list.mp hv _ (mem_of_mapM_documentOf? h hcontent)
  | null | bool _ | int _ | float _ | text _ => cases h

/-- A document without a key twice has columns of their own, and so have the documents nested in
it. -/
theorem distinct_split {p : Planner} {vars : Variables} {table : String} {content : Object}
    {split : SplitDocument} (hrules : p.ForcesDistinctKeys vars)
    (hcontent : (Json.object content).hasDistinctKeys = true)
    (h : p.split vars table content = .ok split) :
    (split.columns.map (·.1)).Nodup ∧ ∀ group ∈ split.children, group.HasDistinctKeys := by
  obtain ⟨hkeys, hvalues⟩ := Json.hasDistinctKeys_object.mp hcontent
  obtain ⟨forced, hforced, hcolumns, hgroups⟩ := Planner.split_ok h
  constructor
  · exact (Object.nodup_keys_insertAll forced hkeys).sublist (hcolumns.map _)
  · intro group hgroup
    obtain ⟨_, field, hfield, hdocuments⟩ := hgroups group hgroup
    have hfield : field.2.hasDistinctKeys = true := by
      rcases Object.mem_insertAll hfield with hmem | hmem
      · exact hrules _ _ _ hcontent (Query.asRole_eq_ok hforced) field hmem
      · exact hvalues field hmem
    exact distinct_childDocuments hfield hdocuments

/-- A write hangs below a parent that has a given number of rows. Below a root it belongs to the
document of the row that it is linked to, and deeper to the document of its parent. -/
structure WriteNode.IsChild (n : WriteNode) (parent rows : Nat) (document? : Option Nat) :
    Prop where
  link : ∃ link, n.parent = some link ∧ link.node = parent ∧ link.row < rows ∧
    n.document = document?.getD (link.row + 1)
  regular : n.IsRegular

/-- The subtrees of the children of a write take up an interval of a list of writes, each from its
root on. -/
inductive Hangs (nodes : List WriteNode) : (parent rows : Nat) → (document? : Option Nat) →
    (children : List Nat) → (start stop : Nat) → Prop
  | nil {parent rows document? start} : Hangs nodes parent rows document? [] start start
  | cons {parent rows document? id rest mid stop} {n : WriteNode} :
      nodes[id]? = some n → n.IsChild parent rows document? →
      Hangs nodes id n.rows.length (some n.document) n.children (id + 1) mid →
      Hangs nodes parent rows document? rest mid stop →
      Hangs nodes parent rows document? (id :: rest) id stop

section Hangs
variable {nodes nodes' : List WriteNode} {parent rows : Nat} {document? : Option Nat}
  {children others : List Nat} {start mid stop : Nat}

theorem Hangs.le (h : Hangs nodes parent rows document? children start stop) : start ≤ stop := by
  induction h with
  | nil => exact Nat.le_refl _
  | cons _ _ _ _ ihbelow ih => omega

/-- Only the writes of the interval matter. -/
theorem Hangs.mono (h : Hangs nodes parent rows document? children start stop)
    (hsame : ∀ id n, start ≤ id → id < stop → nodes[id]? = some n → nodes'[id]? = some n) :
    Hangs nodes' parent rows document? children start stop := by
  induction h with
  | nil => exact .nil
  | cons hn hchild hbelow hrest ihbelow ih =>
      have hle := hbelow.le
      have hle' := hrest.le
      refine .cons (hsame _ _ (Nat.le_refl _) (by omega) hn) hchild (ihbelow ?_) (ih ?_)
      · exact fun id n hstart hstop => hsame id n (by omega) (by omega)
      · exact fun id n hstart hstop => hsame id n (by omega) hstop

theorem Hangs.append (h : Hangs nodes parent rows document? children start mid)
    (h' : Hangs nodes parent rows document? others mid stop) :
    Hangs nodes parent rows document? (children ++ others) start stop := by
  induction h with
  | nil => exact h'
  | cons hn hchild hbelow _ _ ih => exact .cons hn hchild hbelow (ih h')

theorem Hangs.bounds (h : Hangs nodes parent rows document? children start stop) :
    ∀ id ∈ children, start ≤ id ∧ id < stop := by
  induction h with
  | nil => simp
  | cons _ _ hbelow hrest _ ih =>
      have hle := hbelow.le
      have hle' := hrest.le
      refine List.forall_mem_cons.mpr ⟨by omega, fun id hid => ?_⟩
      have := ih id hid
      omega

theorem Hangs.nodup (h : Hangs nodes parent rows document? children start stop) :
    children.Nodup := by
  induction h with
  | nil => exact List.nodup_nil
  | cons _ _ hbelow hrest _ ih =>
      refine List.nodup_cons.mpr ⟨fun hmem => ?_, ih⟩
      have hle := hbelow.le
      have := hrest.bounds _ hmem
      omega

theorem Hangs.isChild (h : Hangs nodes parent rows document? children start stop) :
    ∀ id ∈ children, ∃ n, nodes[id]? = some n ∧ n.IsChild parent rows document? := by
  induction h with
  | nil => simp
  | cons hn hchild _ _ _ ih => exact List.forall_mem_cons.mpr ⟨⟨_, hn, hchild⟩, ih⟩

/-- Below every write of the interval hang the subtrees of its own children. -/
theorem Hangs.exists_below (h : Hangs nodes parent rows document? children start stop) {id : Nat}
    (hstart : start ≤ id) (hstop : id < stop) : ∃ n mid, nodes[id]? = some n ∧ mid ≤ stop ∧
      Hangs nodes id n.rows.length (some n.document) n.children (id + 1) mid := by
  induction h with
  | nil => omega
  | @cons _ _ _ first _ mid stop n hn _ hbelow hrest ihbelow ih =>
      have hle := hrest.le
      rcases Nat.lt_or_ge id mid with hin | hout
      · rcases Nat.eq_or_lt_of_le hstart with rfl | hlater
        · exact ⟨n, mid, hn, hle, hbelow⟩
        · obtain ⟨m, last, hm, hlast, hhangs⟩ := ihbelow hlater hin
          exact ⟨m, last, hm, by omega, hhangs⟩
      · exact ih hout hstop

/-- Every write of the interval is a child: of the parent, or of a write of the interval before
it. -/
theorem Hangs.cover (h : Hangs nodes parent rows document? children start stop) {id : Nat}
    (hstart : start ≤ id) (hstop : id < stop) : id ∈ children ∨
      ∃ above n, start ≤ above ∧ above < id ∧ nodes[above]? = some n ∧ id ∈ n.children := by
  induction h with
  | nil => omega
  | @cons _ _ _ first _ mid stop n hn _ hbelow hrest ihbelow ih =>
      have hle := hbelow.le
      rcases Nat.lt_or_ge id mid with hin | hout
      · rcases Nat.eq_or_lt_of_le hstart with rfl | hlater
        · exact .inl List.mem_cons_self
        · rcases ihbelow hlater hin with hmem | ⟨above, m, hfirst, hbefore, hm, hmem⟩
          · exact .inr ⟨first, n, Nat.le_refl _, hlater, hn, hmem⟩
          · exact .inr ⟨above, m, by omega, hbefore, hm, hmem⟩
      · rcases ih hout hstop with hmem | ⟨above, m, hfirst, hbefore, hm, hmem⟩
        · exact .inl (List.mem_cons_of_mem first hmem)
        · exact .inr ⟨above, m, by omega, hbefore, hm, hmem⟩

/-- A walk with a stack goes through the subtrees in the order of the list. -/
theorem Hangs.visit (h : Hangs nodes parent rows document? children start stop) (steps : Nat)
    (stack : List Nat) : Plan.visit nodes (stop - start + steps) (children ++ stack) =
      List.range' start (stop - start) ++ Plan.visit nodes steps stack := by
  induction h generalizing steps stack with
  | nil => simp
  | @cons _ _ _ id rest mid stop n hn _ hbelow hrest ihbelow ih =>
      have hle := hbelow.le
      have hle' := hrest.le
      have hsteps : stop - id + steps = (mid - (id + 1) + (stop - mid + steps)) + 1 := by omega
      have hlength : stop - id = (mid - (id + 1) + (stop - mid)) + 1 := by omega
      have hmid : id + 1 + (mid - (id + 1)) = mid := by omega
      rw [hsteps, List.cons_append, Plan.visit, hn, Option.map_some, Option.getD_some, ihbelow,
        ih, hlength,
        List.range'_succ, ← List.range'_append_1, hmid, List.cons_append, List.append_assoc]

end Hangs

/-- Further writes were attached below a write: its list of children got longer, what hangs below
these is new, and the other writes are as they were. -/
structure Attached (nodes nodes' : List WriteNode) (parent rows : Nat) (document? : Option Nat)
    (children : List Nat) : Prop where
  kept : ∀ id n, id ≠ parent → nodes[id]? = some n → nodes'[id]? = some n
  grown : ∀ n, nodes[parent]? = some n → ∃ returning,
    nodes'[parent]? = some { n with returning, children := n.children ++ children }
  hangs : Hangs nodes' parent rows document? children nodes.length nodes'.length

section Attached
variable {p : Planner} {vars : Variables} {nodes nodes' nodes'' : List WriteNode}
  {parent rows : Nat} {document? : Option Nat} {children others : List Nat}

theorem length_finish (p : Planner) (nodes : List WriteNode) (id : Nat) :
    (p.finish nodes id).length = nodes.length := List.length_modify ..

theorem getElem?_finish_self {id : Nat} {n : WriteNode} (h : nodes[id]? = some n) :
    (p.finish nodes id)[id]? = some { n with sql := p.statementOf n } := by
  rw [Planner.finish, List.getElem?_modify_eq, h]
  rfl

theorem getElem?_finish_ne {id other : Nat} (h : other ≠ id) :
    (p.finish nodes id)[other]? = nodes[other]? := by
  rw [Planner.finish, List.getElem?_modify_ne _ _ (Ne.symm h)]

theorem Attached.refl (nodes : List WriteNode) (parent rows : Nat) (document? : Option Nat) :
    Attached nodes nodes parent rows document? [] where
  kept _ _ _ h := h
  grown n h := ⟨n.returning, by rwa [List.append_nil]⟩
  hangs := .nil

theorem Attached.trans (hparent : parent < nodes.length)
    (h : Attached nodes nodes' parent rows document? children)
    (h' : Attached nodes' nodes'' parent rows document? others) :
    Attached nodes nodes'' parent rows document? (children ++ others) where
  kept id n hid hn := h'.kept id n hid (h.kept id n hid hn)
  grown n hn := by
    obtain ⟨returning, hn'⟩ := h.grown n hn
    obtain ⟨returning', hn''⟩ := h'.grown _ hn'
    exact ⟨returning', by simpa using hn''⟩
  hangs := by
    refine Hangs.append (h.hangs.mono fun id n hstart _ => h'.kept id n ?_) h'.hangs
    omega

/-- What is attached one after another is attached. -/
theorem Attached.foldlM {α : Type} {attach : List WriteNode → α → Except Error (List WriteNode)}
    {items : List α} (hparent : parent < nodes.length)
    (step : ∀ item ∈ items, ∀ before after : List WriteNode, parent < before.length →
      attach before item = .ok after →
      ∃ children, Attached before after parent rows document? children)
    (h : items.foldlM attach nodes = .ok nodes') :
    ∃ children, Attached nodes nodes' parent rows document? children := by
  refine foldlM_ok (motive := fun reached => ∃ children,
    Attached nodes reached parent rows document? children) ?_ h ⟨[], .refl ..⟩
  rintro before after item hitem ⟨children, hbefore⟩ hafter
  have hlength := hbefore.hangs.le
  obtain ⟨others, hnext⟩ := step item hitem before after (by omega) hafter
  exact ⟨children ++ others, hbefore.trans hparent hnext⟩

/-- A new child, below which all of its own was attached, is attached to its parent. -/
theorem Attached.child {attached : List WriteNode} {join : Schema.Join} {node : WriteNode}
    (h : Attached (nodes.modify parent (withChild join nodes.length) ++ [node]) attached
      nodes.length node.rows.length (some node.document) children)
    (hnode : node.children = []) (hchild : node.IsChild parent rows document?) :
    Attached nodes (p.finish attached nodes.length) parent rows document? [nodes.length] := by
  have hlinked : (nodes.modify parent (withChild join nodes.length)).length = nodes.length :=
    List.length_modify ..
  -- The writes before the new one stay as they were when its parent was linked to it.
  have hbefore : ∀ (id : Nat) (n : WriteNode),
      (nodes.modify parent (withChild join nodes.length))[id]? = some n →
      (p.finish attached nodes.length)[id]? = some n := by
    intro id n hn
    have hlt : id < nodes.length := hlinked ▸ (List.getElem?_eq_some_iff.mp hn).1
    have hne : id ≠ nodes.length := Nat.ne_of_lt hlt
    rw [getElem?_finish_ne hne]
    exact h.kept id n hne (by rwa [List.getElem?_append_left (by omega)])
  have hnew :
      (nodes.modify parent (withChild join nodes.length) ++ [node])[nodes.length]? = some node := by
    rw [List.getElem?_append_right (Nat.le_of_eq hlinked), hlinked, Nat.sub_self]
    rfl
  obtain ⟨returning, hgrown⟩ := h.grown node hnew
  refine ⟨fun id n hid hn => hbefore id n ?_, fun n hn => ?_, ?_⟩
  · rwa [List.getElem?_modify_ne _ _ (Ne.symm hid)]
  · have hlink : (nodes.modify parent (withChild join nodes.length))[parent]? =
        some (withChild join nodes.length n) := by
      rw [List.getElem?_modify_eq, hn]
      rfl
    exact ⟨_, hbefore parent _ hlink⟩
  · have hinterval := h.hangs
    rw [List.length_append, hlinked, List.length_singleton] at hinterval
    rw [length_finish]
    refine .cons (getElem?_finish_self hgrown) ⟨hchild.link, hchild.regular.grown ..⟩ ?_ .nil
    rw [hnode, List.nil_append]
    exact hinterval.mono fun id n hstart _ hn => (getElem?_finish_ne (by omega)).trans hn

/-- The write of a nested document is attached with all that hangs below it. -/
theorem attached_attachDocument {row documentNumber : Nat}
    {attach : List WriteNode → Nat → ChildGroup → Except Error (List WriteNode)}
    {projection : Projection} {content : Object} {group : ChildGroup}
    (hrules : p.ForcesDistinctKeys vars)
    (hattach : ∀ (before after : List WriteNode) (id : Nat) (group : ChildGroup), id <
      before.length → group.HasDistinctKeys → attach before id group = .ok after →
      ∃ children, Attached before after id 1 (some documentNumber) children)
    (hrow : row < rows) (hdocument : documentNumber = document?.getD (row + 1))
    (hcontent : (Json.object content).hasDistinctKeys = true)
    (h : p.attachDocument attach vars documentNumber parent row group projection nodes content =
      .ok nodes') : ∃ children, Attached nodes nodes' parent rows document? children := by
  obtain ⟨child, attached, hchild, hattached, rfl⟩ := attachDocument_ok h
  obtain ⟨hcolumns, hgroups⟩ := distinct_split hrules hcontent hchild
  obtain ⟨children, hbelow⟩ := Attached.foldlM (by simp)
    (fun group hgroup before after hid =>
      hattach before after nodes.length group hid (hgroups group hgroup))
    hattached
  exact ⟨[nodes.length],
    hbelow.child rfl ⟨⟨_, rfl, rfl, hrow, hdocument⟩, isRegular_childWrite hcolumns⟩⟩

/-- A group of nested documents is attached, however deep it goes. -/
theorem attached_attachGroup (hrules : p.ForcesDistinctKeys vars) {documentNumber depth row : Nat}
    {group : ChildGroup} (hparent : parent < nodes.length) (hrow : row < rows)
    (hdocument : documentNumber = document?.getD (row + 1)) (hgroup : group.HasDistinctKeys)
    (h : p.attachGroup vars documentNumber depth nodes parent row group = .ok nodes') :
    ∃ children, Attached nodes nodes' parent rows document? children := by
  induction depth generalizing nodes nodes' parent row rows document? group with
  | zero => cases h
  | succ depth ih =>
      obtain ⟨_, _, h⟩ := bind_eq_ok.mp h
      refine Attached.foldlM hparent (fun content hcontent before after _ hafter => ?_) h
      refine attached_attachDocument hrules ?_ hrow hdocument (hgroup content hcontent) hafter
      -- The write of a nested document has one row, and what hangs below it belongs to the same
      -- document.
      exact fun _ _ _ _ hid hinner hattached => ih hid (Nat.lt_succ_self 0) rfl hinner hattached

/-- The groups of each row of a root are attached below the root, for the document with the number
of the row. -/
theorem attached_attachRows (hrules : p.ForcesDistinctKeys vars) {depth : Nat}
    {splits : List SplitDocument} (hparent : parent < nodes.length)
    (hsplits : ∀ split ∈ splits, ∀ group ∈ split.children, group.HasDistinctKeys)
    (h : p.attachRows vars depth parent nodes (splits.mapIdx fun i s => (i, s)) = .ok nodes') :
    ∃ children, Attached nodes nodes' parent splits.length none children := by
  refine Attached.foldlM hparent ?_ h
  rintro ⟨row, split⟩ hmem before after hbefore hafter
  obtain ⟨i, hi, heq⟩ := List.mem_iff_getElem.mp hmem
  rw [List.getElem_mapIdx] at heq
  obtain ⟨rfl, rfl⟩ := Prod.mk.inj heq
  have hi : i < splits.length := by simpa using hi
  refine Attached.foldlM hbefore (fun group hgroup reached next hreached hnext => ?_) hafter
  exact attached_attachGroup hrules hreached hi rfl
    (hsplits _ (List.getElem_mem hi) group hgroup) hnext

end Attached

/-- The row of the root that a write belongs to, through the writes between them. -/
inductive RootRow (nodes : List WriteNode) : (id row : Nat) → Prop
  | top {id : Nat} {n : WriteNode} {link : ParentLink} :
      nodes[id]? = some n → n.parent = some link → link.node = 0 → RootRow nodes id link.row
  | deeper {id row : Nat} {n : WriteNode} {link : ParentLink} :
      nodes[id]? = some n → n.parent = some link →
      RootRow nodes link.node row → RootRow nodes id row

/-- The writes of a plan are a tree below the first of them, and run in their order. -/
structure Plan.IsTree (plan : Plan) : Prop where
  root : plan.roots = [0] ∧ ∃ n, plan.nodes[0]? = some n ∧ n.parent = none
  parent : ∀ (id : Nat) (n : WriteNode), plan.nodes[id]? = some n → id ≠ 0 →
    ∃ (link : ParentLink) (above : WriteNode), n.parent = some link ∧ link.node < id ∧
      plan.nodes[link.node]? = some above ∧ above.children.count id = 1 ∧
      link.row < above.rows.length
  child : ∀ (id : Nat) (n : WriteNode), plan.nodes[id]? = some n → ∀ below ∈ n.children,
    ∃ (m : WriteNode) (link : ParentLink), plan.nodes[below]? = some m ∧ m.parent = some link ∧
    link.node = id
  regular : ∀ n ∈ plan.nodes, n.kind = .insert ∨ n.kind = .update → n.IsRegular
  document : ∀ (id : Nat) (n : WriteNode), plan.nodes[id]? = some n → id ≠ 0 →
    (∃ row, RootRow plan.nodes id row) ∧ ∀ row, RootRow plan.nodes id row → n.document = row + 1
  order : plan.executionOrder = List.range plan.nodes.length ∧
    ∀ steps, plan.nodes.length ≤ steps → Plan.visit plan.nodes steps plan.roots =
      List.range plan.nodes.length

namespace Plan.IsTree
variable {plan : Plan} {id : Nat} {n : WriteNode} {link : ParentLink}

theorem parent_lt (h : plan.IsTree) (hn : plan.nodes[id]? = some n) (hlink : n.parent = some link) :
    link.node < id := by
  rcases eq_or_ne id 0 with rfl | hid
  · obtain ⟨-, root, hroot, hnone⟩ := h.root
    obtain rfl := Option.some.inj (hroot.symm.trans hn)
    rw [hnone] at hlink
    cases hlink
  · obtain ⟨link', _, hlink', hlt, -⟩ := h.parent id n hn hid
    obtain rfl := Option.some.inj (hlink.symm.trans hlink')
    exact hlt

theorem parent_eq_none_iff (h : plan.IsTree) (hn : plan.nodes[id]? = some n) :
    n.parent = none ↔ id = 0 := by
  constructor
  · intro hnone
    by_contra hid
    obtain ⟨link, _, hlink, -⟩ := h.parent id n hn hid
    rw [hnone] at hlink
    cases hlink
  · rintro rfl
    obtain ⟨-, root, hroot, hnone⟩ := h.root
    obtain rfl := Option.some.inj (hroot.symm.trans hn)
    exact hnone

end Plan.IsTree

/-- All writes behind the first hang below it. -/
structure Rooted (nodes : List WriteNode) (root : WriteNode) : Prop where
  first : nodes[0]? = some root
  parent : root.parent = none
  regular : root.kind = .insert ∨ root.kind = .update → root.IsRegular
  below : Hangs nodes 0 root.rows.length none root.children 1 nodes.length

namespace Rooted
variable {nodes : List WriteNode} {root n : WriteNode} {id : Nat}

/-- The number that the children of a write share. Those of the root have numbers of their own. -/
def documentBelow (id : Nat) (n : WriteNode) : Option Nat :=
  if id = 0 then none else some n.document

theorem hangs (h : Rooted nodes root) (hn : nodes[id]? = some n) :
    ∃ stop, Hangs nodes id n.rows.length (documentBelow id n) n.children (id + 1) stop := by
  rcases Nat.eq_zero_or_pos id with rfl | hid
  · obtain rfl := Option.some.inj (h.first.symm.trans hn)
    exact ⟨_, h.below⟩
  · have hlt := (List.getElem?_eq_some_iff.mp hn).1
    obtain ⟨m, stop, hm, _, hbelow⟩ := h.below.exists_below hid hlt
    obtain rfl := Option.some.inj (hn.symm.trans hm)
    rw [documentBelow, if_neg (Nat.ne_of_gt hid)]
    exact ⟨stop, hbelow⟩

/-- Every other write is a child, once, of a write before it. -/
theorem above (h : Rooted nodes root) (hn : nodes[id]? = some n) (hid : id ≠ 0) :
    ∃ above m, above < id ∧ nodes[above]? = some m ∧ m.children.count id = 1 ∧
      n.IsChild above m.rows.length (documentBelow above m) := by
  have hlt := (List.getElem?_eq_some_iff.mp hn).1
  have hmem : ∃ above m, above < id ∧ nodes[above]? = some m ∧ id ∈ m.children := by
    rcases h.below.cover (Nat.pos_of_ne_zero hid) hlt with hroot |
      ⟨above, m, _, hbefore, hm, hchild⟩
    · exact ⟨0, root, Nat.pos_of_ne_zero hid, h.first, hroot⟩
    · exact ⟨above, m, hbefore, hm, hchild⟩
  obtain ⟨above, m, hbefore, hm, hchild⟩ := hmem
  obtain ⟨stop, hbelow⟩ := h.hangs hm
  obtain ⟨n', hn', hisChild⟩ := hbelow.isChild id hchild
  obtain rfl := Option.some.inj (hn.symm.trans hn')
  exact ⟨above, m, hbefore, hm, List.count_eq_one_of_mem hbelow.nodup hchild, hisChild⟩

theorem exists_rootRow (h : Rooted nodes root) (hn : nodes[id]? = some n) (hid : id ≠ 0) :
    ∃ row, RootRow nodes id row := by
  induction id using Nat.strongRecOn generalizing n with
  | ind id ih =>
    obtain ⟨above, m, hbefore, hm, _, ⟨link, hlink, rfl, _⟩, _⟩ := h.above hn hid
    rcases Nat.eq_zero_or_pos link.node with hzero | hpos
    · exact ⟨link.row, .top hn hlink hzero⟩
    · obtain ⟨row, hrow⟩ := ih link.node hbefore hm (Nat.ne_of_gt hpos)
      exact ⟨row, .deeper hn hlink hrow⟩

/-- The root belongs to none of its rows. -/
theorem ne_zero_of_rootRow (h : Rooted nodes root) {row : Nat} (hrow : RootRow nodes id row) :
    id ≠ 0 := by
  rintro rfl
  have hparent : ∀ {m : WriteNode} {link : ParentLink}, nodes[0]? = some m →
      m.parent = some link → False := by
    intro m link hm hlink
    obtain rfl := Option.some.inj (h.first.symm.trans hm)
    rw [h.parent] at hlink
    cases hlink
  cases hrow with
  | top hm hlink _ => exact hparent hm hlink
  | deeper hm hlink _ => exact hparent hm hlink

/-- A write has the number of the root's row that it belongs to, as its parent has. -/
theorem document_of_rootRow (h : Rooted nodes root) {row : Nat} (hrow : RootRow nodes id row)
    (hn : nodes[id]? = some n) : n.document = row + 1 := by
  -- The link of the write that the row was found through is that of the write itself.
  have hlinked : ∀ {id : Nat} {n m : WriteNode} {link : ParentLink}, nodes[id]? = some n → id ≠ 0 →
      nodes[id]? = some m → m.parent = some link → ∃ above, nodes[link.node]? = some above ∧
        n.document = (documentBelow link.node above).getD (link.row + 1) := by
    intro id n m link hn hid hm hlink
    obtain rfl := Option.some.inj (hn.symm.trans hm)
    obtain ⟨_, above, _, habove, _, ⟨link', hlink', rfl, _, hdocument⟩, _⟩ := h.above hn hid
    obtain rfl := Option.some.inj (hlink.symm.trans hlink')
    exact ⟨above, habove, hdocument⟩
  induction hrow generalizing n with
  | top hm hlink hzero =>
    obtain ⟨above, _, hdocument⟩ := hlinked hn (h.ne_zero_of_rootRow (.top hm hlink hzero)) hm hlink
    rwa [documentBelow, if_pos hzero] at hdocument
  | deeper hm hlink hrow ih =>
    obtain ⟨above, habove, hdocument⟩ :=
      hlinked hn (h.ne_zero_of_rootRow (.deeper hm hlink hrow)) hm hlink
    rw [documentBelow, if_neg (h.ne_zero_of_rootRow hrow)] at hdocument
    exact hdocument.trans (ih habove)

/-- Walked from the root, the writes are met in their order. -/
theorem visit (h : Rooted nodes root) (steps : Nat) (hsteps : nodes.length ≤ steps) :
    Plan.visit nodes steps [0] = List.range nodes.length := by
  have hpos : 1 ≤ nodes.length := h.below.le
  have hwalk := h.below.visit (steps - nodes.length) []
  have hrest : Plan.visit nodes (steps - nodes.length) [] = [] := by
    cases steps - nodes.length <;> rfl
  have hone : steps = (nodes.length - 1 + (steps - nodes.length)) + 1 := by omega
  have hlength : nodes.length = (nodes.length - 1) + 1 := by omega
  rw [hone, Plan.visit, h.first, Option.map_some, Option.getD_some, hwalk, hrest, List.append_nil,
    List.range_eq_range']
  nth_rewrite 2 [hlength]
  rw [List.range'_succ]

/-- Writes that hang below the first are a tree. -/
theorem isTree (h : Rooted nodes root) (kind : Kind) (table : String) (projection : Projection) :
    Plan.IsTree ⟨kind, table, nodes, [0], projection⟩ where
  root := ⟨rfl, root, h.first, h.parent⟩
  parent id n hn hid := by
    obtain ⟨_, m, hbefore, hm, hcount, ⟨link, hlink, rfl, hrow, _⟩, _⟩ := h.above hn hid
    exact ⟨link, m, hlink, hbefore, hm, hcount, hrow⟩
  child id n hn below hbelow := by
    obtain ⟨_, hhangs⟩ := h.hangs hn
    obtain ⟨m, hm, ⟨link, hlink, hnode, _⟩, _⟩ := hhangs.isChild below hbelow
    exact ⟨m, link, hm, hlink, hnode⟩
  regular n hn hkind := by
    obtain ⟨id, hid⟩ := List.mem_iff_getElem?.mp hn
    rcases eq_or_ne id 0 with rfl | hne
    · obtain rfl := Option.some.inj (h.first.symm.trans hid)
      exact h.regular hkind
    · obtain ⟨_, _, _, _, _, hchild⟩ := h.above hid hne
      exact hchild.regular
  document id n hn hid := ⟨h.exists_rootRow hn hid, fun _ hrow => h.document_of_rootRow hrow hn⟩
  order := ⟨h.visit _ (Nat.le_refl _), h.visit⟩

end Rooted

/-- A plan of the planner, for documents without a key twice. -/
inductive Planner.Makes (p : Planner) (vars : Variables) : Plan → Prop
  | insert {table docs projection plan} : docs.hasDistinctKeys = true →
      p.planInsert vars table docs projection = .ok plan → p.Makes vars plan
  | update {table docs filter projection plan} : docs.hasDistinctKeys = true →
      p.planUpdate vars table docs filter projection = .ok plan → p.Makes vars plan
  | delete {table filter projection plan} :
      p.planDelete vars table filter projection = .ok plan → p.Makes vars plan
  | insertSelect {f query plan} : p.planInsertSelect vars f query = .ok plan → p.Makes vars plan

section Plans
variable {p : Planner} {vars : Variables} {plan : Plan}

/-- The statement of the root is spelled when all is attached below it. -/
theorem rooted_of_attachRows (hrules : p.ForcesDistinctKeys vars) {root : WriteNode}
    (hparent : root.parent = none) (hchildren : root.children = []) (hregular : root.IsRegular)
    (splits : List SplitDocument) (hrows : root.rows.length = splits.length)
    (hsplits : ∀ split ∈ splits, ∀ group ∈ split.children, group.HasDistinctKeys)
    {depth : Nat} {nodes : List WriteNode}
    (h : p.attachRows vars depth 0 [root] (splits.mapIdx fun i s => (i, s)) = .ok nodes) :
    ∃ grown, Rooted (p.finish nodes 0) grown := by
  obtain ⟨children, hattached⟩ := attached_attachRows hrules Nat.one_pos hsplits h
  obtain ⟨returning, hgrown⟩ := hattached.grown root rfl
  refine ⟨_, getElem?_finish_self hgrown, hparent, fun _ => hregular.grown .., ?_⟩
  rw [length_finish, hchildren, hrows]
  exact hattached.hangs.mono fun id n hstart _ hn =>
    (getElem?_finish_ne (Nat.ne_of_gt hstart)).trans hn

theorem distinct_insertDocuments {table : String} {docs : Json} {contents : List Object}
    (hdocs : docs.hasDistinctKeys = true) (h : insertDocuments table docs = .ok contents) :
    ∀ content ∈ contents, (Json.object content).hasDistinctKeys = true := by
  obtain ⟨content, rfl, rfl⟩ | rfl := insertDocuments_ok h
  · exact List.forall_mem_singleton.mpr hdocs
  · exact fun content hcontent =>
      Json.hasDistinctKeys_list.mp hdocs _ (List.mem_map_of_mem hcontent)

/-- A write without injected values is regular if its rows are as wide as its list of columns. -/
theorem isRegular_newNode {table : String} {kind : Kind} {columns : List String}
    {rows : List (List Json)} {document : Nat} {projection : Projection}
    (hwidth : ∀ values ∈ rows, values.length = columns.length)
    (hcolumns : columns.Nodup) :
    (p.newNode table kind columns rows document projection).IsRegular where
  width := hwidth
  columns := hcolumns
  positions := List.nodup_nil
  inRange := by simp [Planner.newNode]

theorem isTree_of_planInsert {table : String} {docs : Json} {projection : Projection}
    (hrules : p.ForcesDistinctKeys vars) (hdocs : docs.hasDistinctKeys = true)
    (h : p.planInsert vars table docs projection = .ok plan) : plan.IsTree := by
  obtain ⟨contents, hcontents, h⟩ := bind_eq_ok.mp h
  obtain ⟨_, _, h⟩ := bind_eq_ok.mp h
  obtain ⟨splits, hsplits, h⟩ := bind_eq_ok.mp h
  have hdistinct : ∀ split ∈ splits, (split.columns.map (·.1)).Nodup ∧
      ∀ group ∈ split.children, group.HasDistinctKeys := by
    intro split hsplit
    obtain ⟨content, hcontent, hsplit⟩ := exists_of_mem_mapM hsplits hsplit
    exact distinct_split hrules (distinct_insertDocuments hdocs hcontents content hcontent) hsplit
  extract_lets columns root rest at h
  have hcolumns : columns.Nodup := by
    cases splits with
    | nil => exact List.nodup_nil
    | cons first _ => exact (hdistinct first List.mem_cons_self).1
  split at h
  · cases h
  · obtain ⟨nodes, hnodes, h⟩ := bind_eq_ok.mp h
    obtain rfl := pure_eq_ok.mp h
    have hroot : root.IsRegular := isRegular_newNode (by simp [valuesFor]) hcolumns
    obtain ⟨_, hrooted⟩ := rooted_of_attachRows hrules rfl rfl hroot splits (List.length_map ..)
      (fun split hsplit => (hdistinct split hsplit).2) hnodes
    exact hrooted.isTree ..

theorem isTree_of_planUpdate {table : String} {docs : Json} {filter : Option Json}
    {projection : Projection} (hrules : p.ForcesDistinctKeys vars)
    (hdocs : docs.hasDistinctKeys = true)
    (h : p.planUpdate vars table docs filter projection = .ok plan) : plan.IsTree := by
  obtain ⟨content, hcontent, h⟩ := bind_eq_ok.mp h
  obtain rfl := updateDocument_ok hcontent
  obtain ⟨clause, _, h⟩ := bind_eq_ok.mp h
  obtain ⟨split, hsplit, h⟩ := bind_eq_ok.mp h
  obtain ⟨hcolumns, hgroups⟩ := distinct_split hrules hdocs hsplit
  extract_lets root rest at h
  split at h
  · cases h
  · obtain ⟨nodes, hnodes, h⟩ := bind_eq_ok.mp h
    obtain rfl := pure_eq_ok.mp h
    have hroot : { root with filter := clause }.IsRegular :=
      ⟨by simp [root, Planner.newNode], hcolumns, List.nodup_nil, by simp [root, Planner.newNode]⟩
    obtain ⟨_, hrooted⟩ := rooted_of_attachRows hrules rfl rfl hroot [split] rfl
      (List.forall_mem_singleton.mpr hgroups) hnodes
    exact hrooted.isTree ..

theorem rooted_singleton {root : WriteNode} (hparent : root.parent = none)
    (hchildren : root.children = []) (hkind : ¬ (root.kind = .insert ∨ root.kind = .update)) :
    Rooted [root] root :=
  ⟨rfl, hparent, fun h => absurd h hkind, hchildren ▸ .nil⟩

theorem isTree_of_planDelete {table : String} {filter : Option Json} {projection : Projection}
    (h : p.planDelete vars table filter projection = .ok plan) : plan.IsTree := by
  obtain ⟨_, _, h⟩ := bind_eq_ok.mp h
  obtain rfl := pure_eq_ok.mp h
  exact (rooted_singleton rfl rfl (by simp [Planner.newNode])).isTree ..

theorem isTree_of_planInsertSelect {f : Field} {query : Query.CompiledQuery}
    (h : p.planInsertSelect vars f query = .ok plan) : plan.IsTree := by
  obtain ⟨⟨kind, table⟩, _, h⟩ := bind_eq_ok.mp h
  dsimp only at h
  split at h
  · cases h
  · rename_i hkind
    obtain rfl := not_not.mp hkind
    split at h
    · cases h
    · obtain ⟨_, _, h⟩ := bind_eq_ok.mp h
      obtain ⟨_, _, h⟩ := bind_eq_ok.mp h
      obtain rfl := pure_eq_ok.mp h
      exact (rooted_singleton rfl rfl (by simp [Planner.newNode])).isTree ..

/-- The writes of every plan are a tree below the first of them, and run in its order. -/
theorem plan_isTree (hrules : p.ForcesDistinctKeys vars) (h : p.Makes vars plan) : plan.IsTree := by
  cases h with
  | insert hdocs h => exact isTree_of_planInsert hrules hdocs h
  | update hdocs h => exact isTree_of_planUpdate hrules hdocs h
  | delete h => exact isTree_of_planDelete h
  | insertSelect h => exact isTree_of_planInsertSelect h

end Plans

/-- In the shop, every document is stamped with the one who writes it. -/
def stamping : Rules := { Rules.passThrough with
  overwrite := fun _ _ _ _ => .ok [("writer", .text "clerk")] }

/-- Ann has two orders, the first of them with an item, and Bob has one. -/
def twoUsers : Json :=
  .list [
    .object [("name", .text "ann"), ("orders", .list [
      .object [("total", .int 5), ("items", .object [("id", .int 1)])],
        .object [("total", .int 6)]])],
    .object [("name", .text "bob"), ("orders", .object [("total", .int 7)])]]

theorem plan_isTree_twoUsers :
    let p : Planner := ⟨Shop.registry, .postgres, stamping⟩
    ∃ plan, p.planInsert [] "users" twoUsers .empty = .ok plan ∧ plan.IsTree ∧
      plan.nodes.map (·.parent.map fun link => (link.node, link.row)) =
        [none, some (0, 0), some (1, 0), some (0, 0), some (0, 1)] ∧
      plan.nodes.map (·.document) = [1, 1, 1, 1, 2] ∧
      plan.nodes.map (·.columns) = [["name", "writer"], ["total", "writer", "user_id"],
        ["id", "writer", "order_id"], ["total", "writer", "user_id"],
          ["total", "writer", "user_id"]] := by
  intro p
  obtain ⟨plan, hplan⟩ :=
    exists_eq_ok (x := p.planInsert [] "users" twoUsers .empty) (by decide +kernel)
  have hrules : p.ForcesDistinctKeys [] := by
    intro table content forced _ hforced
    obtain rfl : [("writer", Json.text "clerk")] = forced := Except.ok.inj hforced
    decide
  exact ⟨plan, hplan, plan_isTree hrules (.insert (by decide +kernel) hplan),
    part_eq (g := fun plan : Plan =>
      plan.nodes.map (·.parent.map fun link => (link.node, link.row))) hplan (by decide +kernel),
    part_eq (g := fun plan : Plan => plan.nodes.map (·.document)) hplan (by decide +kernel),
    part_eq (g := fun plan : Plan => plan.nodes.map (·.columns)) hplan (by decide +kernel)⟩

end SqlGateway.Mutation
