import SqlGateway.Proofs.Except
import SqlGateway.Proofs.Mutation.Injection

/-!
# The layout of write plans

Which document every write of a plan belongs to. A plan is made by appending a write for each nested
document below the write of its parent, whose list of returned columns grows meanwhile; the
invariant says what is known of the writes so far, and that a statement is spelled once nothing of
it can change.
-/
namespace SqlGateway.Mutation

open Request (Variables)

namespace Planner

variable {p : Planner} {vars : Variables} {table : String}

/-- A field becomes a column of the table or one with a safe name, or a group of documents for a
joined table. -/
theorem place_ok {split split' : SplitDocument} {key : String} {v : Json}
    (h : p.place table split key v = .ok split') :
    (split' = { split with columns := split.columns ++ [(key, v)] } ∧
      ((p.schema.column? table key).isSome = true ∨ Name.ensureSafe "column" key = .ok ())) ∨
      ∃ child join documents, p.schema.join table child = .ok join ∧
      childDocuments? v = some documents ∧
        split' = { split with children := split.children ++ [⟨key, child, join, documents⟩] } := by
  unfold place at h
  extract_lets asColumn at h
  split at h
  · rename_i hcolumn
    exact .inl ⟨(pure_eq_ok.mp h).symm, .inl hcolumn⟩
  · split at h
    · obtain ⟨_, hsafe, h⟩ := bind_eq_ok.mp h
      exact .inl ⟨(pure_eq_ok.mp h).symm, .inr hsafe⟩
    · rename_i documents hdocuments
      split at h
      · rename_i join hjoin
        exact .inr ⟨_, join, documents, hjoin, hdocuments, (pure_eq_ok.mp h).symm⟩
      · split at h
        · obtain ⟨_, hsafe, h⟩ := bind_eq_ok.mp h
          exact .inl ⟨(pure_eq_ok.mp h).symm, .inr hsafe⟩
        · cases h

/-- A document is split into columns, which are fields of it with the forced values in, and into
groups of nested documents, which are values of such fields and for tables that are joined to its
own. -/
theorem split_ok {content : Object} {split : SplitDocument}
    (h : p.split vars table content = .ok split) :
    ∃ forced, Rules.asRole "transform" (p.rules.overwrite table (p.schema.transformRules.get? table)
        content vars) = .ok forced ∧ split.columns.Sublist (Object.insertAll forced content) ∧
      ∀ group ∈ split.children, p.schema.join table group.table = .ok group.join ∧
        ∃ field ∈ Object.insertAll forced content, childDocuments? field.2 =
          some group.documents := by
  obtain ⟨_, _, h⟩ := bind_eq_ok.mp h
  obtain ⟨forced, hforced, h⟩ := bind_eq_ok.mp h
  have run : ∀ (fields : Object) (before after : SplitDocument),
      fields.foldlM (fun split field => p.place table split field.1 field.2) before = .ok after →
      (∃ added : Object, after.columns = before.columns ++ added ∧ added.Sublist fields) ∧
        ∀ group ∈ after.children, group ∈ before.children ∨
          (p.schema.join table group.table = .ok group.join ∧
            ∃ field ∈ fields, childDocuments? field.2 = some group.documents) := by
    intro fields
    induction fields with
    | nil =>
        intro before after h
        obtain rfl := pure_eq_ok.mp h
        exact ⟨⟨[], by simp, .slnil⟩, fun group hgroup => .inl hgroup⟩
    | cons field rest ih =>
        intro before after h
        obtain ⟨next, hnext, h⟩ := bind_eq_ok.mp h
        obtain ⟨⟨added, hadded, hsub⟩, hafter⟩ := ih next after h
        have hlater : ∀ group ∈ after.children, group ∈ next.children ∨
            (p.schema.join table group.table = .ok group.join ∧
              ∃ later ∈ field :: rest, childDocuments? later.2 = some group.documents) := by
          intro group hgroup
          rcases hafter group hgroup with hmem | ⟨hjoin, later, hmem, hdocuments⟩
          · exact .inl hmem
          · exact .inr ⟨hjoin, later, List.mem_cons_of_mem field hmem, hdocuments⟩
        obtain ⟨rfl, _⟩ | ⟨child, join, documents, hjoin, hdocuments, rfl⟩ := place_ok hnext
        · exact ⟨⟨field :: added, by simpa using hadded, hsub.cons_cons field⟩, hlater⟩
        · refine ⟨⟨added, hadded, hsub.cons field⟩, fun group hgroup => ?_⟩
          rcases hlater group hgroup with hmem | hnested
          · rcases List.mem_append.mp hmem with hmem | hmem
            · exact .inl hmem
            · obtain rfl := List.mem_singleton.mp hmem
              exact .inr ⟨hjoin, field, List.mem_cons_self, hdocuments⟩
          · exact .inr hnested
  obtain ⟨⟨added, hadded, hsub⟩, hgroups⟩ := run _ _ _ h
  refine ⟨forced, hforced, by simpa [hadded] using hsub, fun group hgroup => ?_⟩
  exact (hgroups group hgroup).resolve_left List.not_mem_nil

end Planner

/-- The write of a nested document, as it is before a row of its parent is put in. -/
structure Describes (n : WriteNode) (group : ChildGroup) (child : SplitDocument) : Prop where
  table : n.table = group.table
  kind : n.kind = .insert
  columns : n.columns = child.columns.map (·.1) ++ (missing group.join child.columns).map (·.2)
  rows : n.rows =
    [child.columns.map (·.2) ++ (missing group.join child.columns).map fun _ => Json.null]
  injected : n.injected = (missing group.join child.columns).mapIdx fun i pair =>
    ⟨child.columns.length + i, pair.1⟩

/-- A write stands where its document stands: among the nested documents of the row that it is
linked to, in a group that is joined to the table of its parent, which asks for the columns of that
join. The list gives the documents of every write by row. -/
def Stands (p : Planner) (vars : Variables) (documents : List (List SplitDocument))
    (parent : WriteNode) (id : Nat) (n : WriteNode) (link : ParentLink) : Prop :=
  ∃ document group content child, (documents[link.node]?.getD [])[link.row]? = some document ∧
    group ∈ document.children ∧ group.key = link.key ∧ content ∈ group.documents ∧
    p.split vars group.table content = .ok child ∧ documents[id]? = some [child] ∧
    p.schema.join parent.table group.table = .ok group.join ∧ Describes n group child ∧
    ∀ pair ∈ group.join.pairs, Asks parent.returning pair.1

/-- The writes of a plan while it is made. A write is open as long as children are added to it. Only
the first has no parent. -/
structure Laid (p : Planner) (vars : Variables) (documents : List (List SplitDocument))
    (nodes : List WriteNode) (opened : List Nat) : Prop where
  length : documents.length = nodes.length
  split : ∀ (id : Nat) (n : WriteNode), nodes[id]? = some n → ∀ document ∈ documents[id]?.getD [],
    ∃ content, p.split vars n.table content = .ok document
  sql : ∀ (id : Nat) (n : WriteNode), nodes[id]? = some n → id ∉ opened → n.sql = p.statementOf n
  width : ∀ (id : Nat) (n : WriteNode), nodes[id]? = some n →
    ∀ values ∈ n.rows, values.length = n.columns.length
  root : ∀ (id : Nat) (n : WriteNode), nodes[id]? = some n → n.parent = none → id = 0
  stands : ∀ (id : Nat) (n : WriteNode) (link : ParentLink), nodes[id]? = some n →
    n.parent = some link →
    ∃ parent, nodes[link.node]? = some parent ∧ Stands p vars documents parent id n link

section Laid
variable {p : Planner} {vars : Variables} {documents : List (List SplitDocument)}
  {nodes : List WriteNode} {opened : List Nat}

theorem lt_length_of_row {row id : Nat} {document : SplitDocument}
    (h : (documents[id]?.getD [])[row]? = some document) : id < documents.length := by
  rcases Nat.lt_or_ge id documents.length with hlt | hge
  · exact hlt
  · simp [List.getElem?_eq_none hge] at h

theorem row_append {row id : Nat} {document : SplitDocument}
    (h : (documents[id]?.getD [])[row]? = some document) (more : List (List SplitDocument)) :
    ((documents ++ more)[id]?.getD [])[row]? = some document := by
  rwa [List.getElem?_append_left (lt_length_of_row h)]

/-- Only statements, lists of children and returned columns change; what was asked for stays asked
for. -/
structure Extends (n n' : WriteNode) : Prop where
  same : n' = { n with returning := n'.returning, children := n'.children, sql := n'.sql }
  asks : ∀ column, Asks n.returning column → Asks n'.returning column

theorem Extends.refl (n : WriteNode) : Extends n n := ⟨rfl, fun _ h => h⟩

theorem Extends.describes {n n' : WriteNode} (h : Extends n n') {group : ChildGroup}
    {child : SplitDocument} (hn : Describes n group child) : Describes n' group child := by
  rw [h.same]
  exact ⟨hn.table, hn.kind, hn.columns, hn.rows, hn.injected⟩

theorem Stands.extend {parent parent' n n' : WriteNode} {id : Nat} {link : ParentLink}
    (hparent : Extends parent parent') (hn : Extends n n') (more : List (List SplitDocument))
    (h : Stands p vars documents parent id n link) :
    Stands p vars (documents ++ more) parent' id n' link := by
  obtain ⟨document, group, content, child, hdocument, hgroup, hkey, hcontent, hsplit, hchild, hjoin,
    hdescribes, hasks⟩ := h
  refine ⟨document, group, content, child, row_append hdocument more, hgroup, hkey,
    hcontent, hsplit,
    ?_, ?_, hn.describes hdescribes, fun pair hpair => hparent.asks _ (hasks pair hpair)⟩
  · rw [List.getElem?_append_left (List.getElem?_eq_some_iff.mp hchild).1, hchild]
  · rw [hparent.same]
    exact hjoin

theorem Laid.extend (h : Laid p vars documents nodes opened) {nodes' : List WriteNode}
    {opened' : List Nat} (hlength : nodes'.length = nodes.length)
    (hextends : ∀ (id : Nat) (n' : WriteNode), nodes'[id]? = some n' →
      ∃ n, nodes[id]? = some n ∧ Extends n n')
    (hsql : ∀ (id : Nat) (n' : WriteNode), nodes'[id]? = some n' → id ∉ opened' →
      n'.sql = p.statementOf n') :
    Laid p vars documents nodes' opened' where
  length := by rw [hlength, h.length]
  split id n' hn' document hdocument := by
    obtain ⟨n, hn, hsame⟩ := hextends id n' hn'
    rw [hsame.same]
    exact h.split id n hn document hdocument
  sql := hsql
  width id n' hn' values hvalues := by
    obtain ⟨n, hn, hsame⟩ := hextends id n' hn'
    rw [hsame.same] at hvalues ⊢
    exact h.width id n hn values hvalues
  root id n' hn' hparent := by
    obtain ⟨n, hn, hsame⟩ := hextends id n' hn'
    rw [hsame.same] at hparent
    exact h.root id n hn hparent
  stands id n' link hn' hlink := by
    obtain ⟨n, hn, hsame⟩ := hextends id n' hn'
    obtain ⟨parent, hparent, hstands⟩ :=
      h.stands id n link hn (by rw [hsame.same] at hlink; exact hlink)
    have hbound : link.node < nodes'.length :=
      hlength ▸ (List.getElem?_eq_some_iff.mp hparent).1
    obtain ⟨old, hold, hparentSame⟩ := hextends _ _ (List.getElem?_eq_getElem hbound)
    obtain rfl : parent = old := Option.some.inj (hparent.symm.trans hold)
    refine ⟨_, List.getElem?_eq_getElem hbound, ?_⟩
    have := hstands.extend hparentSame hsame []
    rwa [List.append_nil] at this

theorem Laid.modify (h : Laid p vars documents nodes opened) {id : Nat}
    (change : WriteNode → WriteNode) (hchange : ∀ n, Extends n (change n)) (hid : id ∈ opened) :
    Laid p vars documents (nodes.modify id change) opened := by
  refine h.extend (List.length_modify ..) ?_ ?_
  · intro other n' hn'
    rw [List.getElem?_modify] at hn'
    obtain ⟨n, hn, rfl⟩ := Option.map_eq_some_iff.mp hn'
    refine ⟨n, hn, ?_⟩
    split
    · exact hchange n
    · exact .refl n
  · intro other n' hn' hclosed
    have hne : id ≠ other := fun heq => hclosed (heq ▸ hid)
    rw [List.getElem?_modify_ne _ _ hne] at hn'
    exact h.sql other n' hn' hclosed

/-- A statement is spelled, and its write is open no more. -/
theorem Laid.finish {id : Nat} (h : Laid p vars documents nodes (id :: opened)) :
    Laid p vars documents (p.finish nodes id) opened := by
  have hget : ∀ (other : Nat) (n' : WriteNode), (p.finish nodes id)[other]? = some n' →
      ∃ n, nodes[other]? = some n ∧
      n' = if id = other then { n with sql := p.statementOf n } else n := by
    intro other n' hn'
    rw [Planner.finish, List.getElem?_modify] at hn'
    obtain ⟨n, hn, rfl⟩ := Option.map_eq_some_iff.mp hn'
    exact ⟨n, hn, rfl⟩
  refine h.extend (List.length_modify ..) ?_ ?_
  · intro other n' hn'
    obtain ⟨n, hn, rfl⟩ := hget other n' hn'
    refine ⟨n, hn, ?_⟩
    split
    · exact ⟨rfl, fun _ h => h⟩
    · exact .refl n
  · intro other n' hn' hclosed
    obtain ⟨n, hn, rfl⟩ := hget other n' hn'
    split
    · cases hkind : n.kind <;> simp [Planner.statementOf, hkind]
    · rename_i hne
      refine h.sql other n hn ?_
      simp only [List.mem_cons, not_or]
      exact ⟨Ne.symm hne, hclosed⟩

theorem Laid.append (h : Laid p vars documents nodes opened) (n : WriteNode) {link : ParentLink}
    (hlink : n.parent = some link) {child : SplitDocument}
    (hsplit : ∃ content, p.split vars n.table content = .ok child)
    (hwidth : ∀ values ∈ n.rows, values.length = n.columns.length) {parent : WriteNode}
    (hparent : nodes[link.node]? = some parent)
    (hstands : Stands p vars (documents ++ [[child]]) parent nodes.length n link) :
    Laid p vars (documents ++ [[child]]) (nodes ++ [n]) (nodes.length :: opened) := by
  have hold : ∀ {id : Nat} {m : WriteNode}, (nodes ++ [n])[id]? = some m →
      nodes[id]? = some m ∨ id = nodes.length ∧ m = n := by
    intro id m hm
    rcases Nat.lt_or_ge id nodes.length with hlt | hge
    · exact .inl (by rwa [List.getElem?_append_left hlt] at hm)
    · rw [List.getElem?_append_right hge, List.getElem?_singleton] at hm
      split at hm
      · exact .inr ⟨by omega, (Option.some.inj hm).symm⟩
      · cases hm
  refine ⟨by simp [h.length], ?_, ?_, ?_, ?_, ?_⟩
  · intro id m hm document hdocument
    obtain hm | ⟨rfl, rfl⟩ := hold hm
    · rw [List.getElem?_append_left
        (by rw [h.length]; exact (List.getElem?_eq_some_iff.mp hm).1)] at hdocument
      exact h.split id m hm document hdocument
    · rw [← h.length, List.getElem?_concat_length] at hdocument
      obtain rfl : document = child := List.mem_singleton.mp hdocument
      exact hsplit
  · intro id m hm hclosed
    obtain hm | ⟨rfl, rfl⟩ := hold hm
    · exact h.sql id m hm fun hid => hclosed (List.mem_cons_of_mem _ hid)
    · exact absurd List.mem_cons_self hclosed
  · intro id m hm
    obtain hm | ⟨rfl, rfl⟩ := hold hm
    · exact h.width id m hm
    · exact hwidth
  · intro id m hm hnone
    obtain hm | ⟨rfl, rfl⟩ := hold hm
    · exact h.root id m hm hnone
    · rw [hlink] at hnone
      cases hnone
  · intro id m link' hm hlink'
    obtain hm | ⟨rfl, rfl⟩ := hold hm
    · obtain ⟨parent', hparent', hstands'⟩ := h.stands id m link' hm hlink'
      exact ⟨parent', List.getElem?_append_left (List.getElem?_eq_some_iff.mp hparent').1 ▸
        hparent', hstands'.extend (.refl _) (.refl _) _⟩
    · obtain rfl : link = link' := Option.some.inj (hlink.symm.trans hlink')
      exact ⟨parent, List.getElem?_append_left (List.getElem?_eq_some_iff.mp hparent).1 ▸ hparent,
        hstands⟩

/-- Writes that are attached one after another keep the invariant if each of them does, whatever was
attached before it. -/
theorem Laid.foldlM {α : Type} {attach : List WriteNode → α → Except Error (List WriteNode)}
    {items : List α} {nodes' : List WriteNode} (h : Laid p vars documents nodes opened)
    (step : ∀ item ∈ items, ∀ (more : List (List SplitDocument)) (before after : List WriteNode),
      Laid p vars (documents ++ more) before opened → attach before item = .ok after →
      ∃ further, Laid p vars (documents ++ more ++ further) after opened)
    (hnodes : items.foldlM attach nodes = .ok nodes') :
    ∃ more, Laid p vars (documents ++ more) nodes' opened := by
  refine foldlM_ok (motive := fun nodes => ∃ more, Laid p vars (documents ++ more) nodes opened) ?_
    hnodes ⟨[], by simpa using h⟩
  rintro before after item hitem ⟨more, hbefore⟩ hafter
  obtain ⟨further, hlaid⟩ := step item hitem more before after hbefore hafter
  exact ⟨more ++ further, by rwa [← List.append_assoc]⟩

/-- What attaching a group of nested documents below a row of an open write has to keep. -/
def Attaches (p : Planner) (vars : Variables) (row : Nat)
    (attach : List WriteNode → Nat → ChildGroup → Except Error (List WriteNode)) : Prop :=
  ∀ {documents : List (List SplitDocument)} {nodes nodes' : List WriteNode} {opened : List Nat}
    {id : Nat} {document : SplitDocument} {group : ChildGroup},
    Laid p vars documents nodes opened → id ∈ opened →
    (documents[id]?.getD [])[row]? = some document → group ∈ document.children →
    attach nodes id group = .ok nodes' → ∃ more, Laid p vars (documents ++ more) nodes' opened

theorem Attaches.foldlM {row : Nat}
    {attach : List WriteNode → Nat → ChildGroup → Except Error (List WriteNode)}
    (hattach : Attaches p vars row attach) {nodes' : List WriteNode} {id : Nat}
    {document : SplitDocument} (h : Laid p vars documents nodes opened) (hid : id ∈ opened)
    (hdocument : (documents[id]?.getD [])[row]? = some document)
    (hnodes : document.children.foldlM (fun nodes group => attach nodes id group) nodes =
      .ok nodes') : ∃ more, Laid p vars (documents ++ more) nodes' opened := by
  refine h.foldlM (fun group hgroup more before after hbefore hafter => ?_) hnodes
  exact hattach hbefore hid (row_append hdocument more) hgroup hafter

/-- The write of a nested document, as it is appended. -/
def childWrite (p : Planner) (documentNumber : Nat) (projection : Projection) (link : ParentLink)
    (group : ChildGroup) (child : SplitDocument) : WriteNode :=
  { p.newNode group.table .insert
      (child.columns.map (·.1) ++ (missing group.join child.columns).map (·.2))
      [child.columns.map (·.2) ++ (missing group.join child.columns).map fun _ => Json.null]
      documentNumber projection with
    injected := (missing group.join child.columns).mapIdx fun i pair =>
      ⟨child.columns.length + i, pair.1⟩
    parent := some link }

/-- A write with one more child, for which it asks for the columns of a join. -/
def withChild (join : Schema.Join) (child : Nat) (n : WriteNode) : WriteNode :=
  { n with
    returning := extendedReturning join n.returning
    children := n.children ++ [child] }

theorem extends_withChild (join : Schema.Join) (child : Nat) (n : WriteNode) :
    Extends n (withChild join child n) :=
  ⟨rfl, (asks_extendedReturning join n.returning).1⟩

theorem attachDocument_ok {row documentNumber parent : Nat}
    {attach : List WriteNode → Nat → ChildGroup → Except Error (List WriteNode)}
    {projection : Projection} {content : Object} {group : ChildGroup} {nodes' : List WriteNode}
    (h : p.attachDocument attach vars documentNumber parent row group projection nodes content =
      .ok nodes') :
    ∃ child attached, p.split vars group.table content = .ok child ∧
      child.children.foldlM (fun more group => attach more nodes.length group)
        (nodes.modify parent (withChild group.join nodes.length) ++
          [childWrite p documentNumber projection ⟨parent, row, group.key⟩ group child]) =
        .ok attached ∧ nodes' = p.finish attached nodes.length := by
  obtain ⟨child, hchild, h⟩ := bind_eq_ok.mp h
  rw [injectedColumns_eq] at h
  dsimp only at h
  obtain ⟨attached, hattached, h⟩ := bind_eq_ok.mp h
  obtain rfl := pure_eq_ok.mp h
  refine ⟨child, attached, hchild, ?_, rfl⟩
  simp only [List.map_append, List.map_map, Function.comp_def] at hattached
  exact hattached

/-- The bound on how deep documents are nested shows in no plan: what is attached within one bound
is attached alike within any greater one. -/
theorem attachGroup_of_le {document depth depth' parent row : Nat} {group : ChildGroup}
    {nodes nodes' : List WriteNode} (hle : depth ≤ depth')
    (h : p.attachGroup vars document depth nodes parent row group = .ok nodes') :
    p.attachGroup vars document depth' nodes parent row group = .ok nodes' := by
  induction depth generalizing depth' nodes nodes' parent row group with
  | zero => cases h
  | succ depth ih =>
      obtain ⟨depth', rfl⟩ := Nat.exists_eq_add_of_lt hle
      obtain ⟨_, hwrite, h⟩ := bind_eq_ok.mp h
      refine bind_eq_ok.mpr ⟨_, hwrite, foldlM_mono (fun before after content hattached => ?_) h⟩
      obtain ⟨child, hchild, hattached⟩ := bind_eq_ok.mp hattached
      refine bind_eq_ok.mpr ⟨child, hchild, ?_⟩
      obtain ⟨attached, hbelow, hfinished⟩ := bind_eq_ok.mp hattached
      refine bind_eq_ok.mpr ⟨attached, foldlM_mono (fun _ _ _ => ih ?_) hbelow, hfinished⟩
      exact Nat.le_add_right depth depth'

theorem attachRows_of_le {depth depth' root : Nat} {rows : List (Nat × SplitDocument)}
    {nodes nodes' : List WriteNode} (hle : depth ≤ depth')
    (h : p.attachRows vars depth root nodes rows = .ok nodes') :
    p.attachRows vars depth' root nodes rows = .ok nodes' :=
  foldlM_mono (fun _ _ _ => foldlM_mono fun _ _ _ => attachGroup_of_le hle) h

theorem attachDocument_laid {row documentNumber parent : Nat}
    {attach : List WriteNode → Nat → ChildGroup → Except Error (List WriteNode)}
    (hattach : Attaches p vars 0 attach) {projection : Projection} {content : Object}
    {document : SplitDocument} {group : ChildGroup} {nodes' : List WriteNode}
    (h : Laid p vars documents nodes opened) (hparent : parent ∈ opened)
    (hdocument : (documents[parent]?.getD [])[row]? = some document)
    (hgroup : group ∈ document.children) (hcontent : content ∈ group.documents)
    (hnodes : p.attachDocument attach vars documentNumber parent row group projection
      nodes content = .ok nodes') : ∃ more, Laid p vars (documents ++ more) nodes' opened := by
  obtain ⟨child, attached, hchild, hattached, rfl⟩ := attachDocument_ok hnodes
  obtain ⟨parentNode, hparentNode⟩ : ∃ n, nodes[parent]? = some n :=
    ⟨_, List.getElem?_eq_getElem (h.length ▸ lt_length_of_row hdocument)⟩
  obtain ⟨_, hsplit⟩ := h.split parent parentNode hparentNode document
    (List.mem_of_getElem? hdocument)
  have hlinked := h.modify (withChild group.join nodes.length) (extends_withChild _ _) hparent
  have hlength : (nodes.modify parent (withChild group.join nodes.length)).length = nodes.length :=
    List.length_modify ..
  have hopen : Laid p vars (documents ++ [[child]])
      (nodes.modify parent (withChild group.join nodes.length) ++
        [childWrite p documentNumber projection ⟨parent, row, group.key⟩ group child])
      (nodes.length :: opened) := by
    have hget : (nodes.modify parent (withChild group.join nodes.length))[parent]? =
        some (withChild group.join nodes.length parentNode) := by
      rw [List.getElem?_modify_eq, hparentNode]
      rfl
    have happended := hlinked.append
      (childWrite p documentNumber projection ⟨parent, row, group.key⟩ group child) rfl
      ⟨content, hchild⟩ (by simp [childWrite, Planner.newNode]) hget
    rw [hlength] at happended
    refine happended ?_
    refine ⟨document, group, content, child, row_append hdocument _, hgroup, rfl, hcontent, hchild,
      ?_, ?_, ?_, ?_⟩
    · rw [← h.length, List.getElem?_concat_length]
    · obtain ⟨_, _, _, hgroups⟩ := Planner.split_ok hsplit
      exact (hgroups group hgroup).1
    · exact ⟨rfl, rfl, rfl, rfl, rfl⟩
    · exact (asks_extendedReturning group.join parentNode.returning).2
  have hown : ((documents ++ [[child]])[nodes.length]?.getD [])[0]? = some child := by
    rw [← h.length, List.getElem?_concat_length]
    rfl
  obtain ⟨more, hlaid⟩ := hattach.foldlM hopen List.mem_cons_self hown hattached
  exact ⟨[child] :: more, by simpa using hlaid.finish⟩

/-- Groups of nested documents keep the invariant, however deep they go. -/
theorem attaches_attachGroup (documentNumber depth row : Nat) : Attaches p vars row
    fun nodes parent group => p.attachGroup vars documentNumber depth nodes parent row group := by
  induction depth generalizing row with
  | zero =>
      intro _ _ _ _ _ _ _ _ _ _ _ h
      cases h
  | succ depth ih =>
      intro documents nodes nodes' opened parent document group h hparent hdocument hgroup hnodes
      obtain ⟨_, _, hnodes⟩ := bind_eq_ok.mp hnodes
      refine h.foldlM (fun content hcontent more before after hbefore hafter => ?_) hnodes
      -- The write of a nested document has one row, so its own groups are attached to row 0.
      exact attachDocument_laid (ih 0) hbefore hparent (row_append hdocument more) hgroup hcontent
        hafter

theorem attachRows_laid {depth root : Nat} {nodes' : List WriteNode} {splits : List SplitDocument}
    (h : Laid p vars documents nodes opened) (hroot : root ∈ opened)
    (hdocuments : documents[root]?.getD [] = splits)
    (hnodes : p.attachRows vars depth root nodes (splits.mapIdx fun i s => (i, s)) = .ok nodes') :
    ∃ more, Laid p vars (documents ++ more) nodes' opened := by
  refine h.foldlM ?_ hnodes
  rintro ⟨row, document⟩ hmem more before after hbefore hafter
  have hdocument : (documents[root]?.getD [])[row]? = some document := by
    obtain ⟨i, hi, heq⟩ := List.mem_iff_getElem.mp hmem
    rw [List.getElem_mapIdx] at heq
    obtain ⟨rfl, rfl⟩ := Prod.mk.inj heq
    rw [hdocuments]
    exact List.getElem?_eq_getElem _
  exact Attaches.foldlM (attaches_attachGroup (row + 1) depth row) hbefore hroot
    (row_append hdocument more) hafter

theorem laid_root {root : WriteNode} (hroot : root.parent = none)
    (hwidth : ∀ values ∈ root.rows, values.length = root.columns.length)
    {splits : List SplitDocument}
    (hsplits : ∀ document ∈ splits, ∃ content, p.split vars root.table content = .ok document) :
    Laid p vars [splits] [root] [0] := by
  have hget : ∀ {id : Nat} {n : WriteNode}, [root][id]? = some n → id = 0 ∧ n = root := by
    intro id n hn
    rw [List.getElem?_singleton] at hn
    split at hn
    · exact ⟨‹_›, (Option.some.inj hn).symm⟩
    · cases hn
  refine ⟨rfl, ?_, ?_, ?_, fun id n hn _ => (hget hn).1, ?_⟩
  · intro id n hn
    obtain ⟨rfl, rfl⟩ := hget hn
    exact hsplits
  · intro id n hn hclosed
    exact absurd (hget hn).1 (by simpa using hclosed)
  · intro id n hn
    obtain ⟨rfl, rfl⟩ := hget hn
    exact hwidth
  · intro id n link hn hlink
    obtain ⟨rfl, rfl⟩ := hget hn
    rw [hroot] at hlink
    cases hlink

end Laid

theorem resolved_of_requiredDocuments {vars : Variables} {f : Request.Field} {docs : Json}
    (h : requiredDocuments f vars = .ok docs) : f.resolved vars "docs" = some docs := by
  unfold requiredDocuments at h
  split at h
  next resolved hresolved => rw [hresolved, Except.ok.inj h]
  · cases h

/-- What is inserted is one document, or a list of nothing but documents. -/
theorem insertDocuments_ok {table : String} {docs : Json} {contents : List Object}
    (h : insertDocuments table docs = .ok contents) :
    (∃ content, docs = .object content ∧ contents = [content]) ∨
    docs = .list (contents.map .object) := by
  have hnonempty : ∀ found : List Object, (do
      if found.isEmpty then throw (.invalid s!"no documents to insert into `{table}`")
      return found : Except Error (List Object)) = .ok contents → found = contents := by
    intro found h
    dsimp only at h
    split at h
    · cases h
    · exact pure_eq_ok.mp h
  cases docs with
  | object fields => exact .inl ⟨fields, rfl, (hnonempty [fields] h).symm⟩
  | list items =>
      obtain ⟨found, hfound, h⟩ := bind_eq_ok.mp h
      obtain rfl := hnonempty found h
      have hitems : List.Forall₂ (fun item content => item = Json.object content) items found := by
        refine (forall₂_of_mapM hfound).imp fun item content hitem => ?_
        cases item with
        | object fields => rw [Except.ok.inj hitem]
        | null | bool _ | int _ | float _ | text _ | list _ => cases hitem
      exact .inr
        (congrArg Json.list (List.forall₂_eq_eq_eq ▸ List.forall₂_map_right_iff.mpr hitems))
  | null | bool _ | int _ | float _ | text _ => cases h

theorem updateDocument_ok {table : String} {docs : Json} {content : Object}
    (h : Planner.updateDocument table docs = .ok content) : docs = .object content := by
  cases docs with
  | object fields => rw [Except.ok.inj h]
  | null | bool _ | int _ | float _ | text _ | list _ => cases h

/-- The documents that the root of a plan is for: those of an insert by row, or the one of an
update. -/
inductive Roots (p : Planner) (vars : Variables) (table : String) (docs : Json) :
    Kind → List SplitDocument → Prop
  | insert {contents splits} : insertDocuments table docs = .ok contents →
      contents.mapM (p.split vars table) = .ok splits → Roots p vars table docs .insert splits
  | update {content split} : Planner.updateDocument table docs = .ok content →
      p.split vars table content = .ok split → Roots p vars table docs .update [split]

/-- A finished plan is for given documents: the root for those of the caller, and every other write
for a document that is nested in the row it is linked to. -/
structure Planned (p : Planner) (vars : Variables) (table : String) (docs : Json) (plan : Plan)
    (documents : List (List SplitDocument)) : Prop where
  roots : ∃ roots, documents[0]? = some roots ∧ Roots p vars table docs plan.kind roots
  laid : Laid p vars documents plan.nodes []

section Planned
variable {p : Planner} {vars : Variables} {table : String} {docs : Json} {projection : Projection}
  {plan : Plan}

theorem planned_of_attachRows {root : WriteNode} (hroot : root.parent = none)
    (hwidth : ∀ values ∈ root.rows, values.length = root.columns.length)
    (splits : List SplitDocument) {kind : Kind} (hroots : Roots p vars table docs kind splits)
    (hsplits : ∀ document ∈ splits, ∃ content, p.split vars root.table content = .ok document)
    {depth : Nat} {nodes : List WriteNode}
    (hnodes : p.attachRows vars depth 0 [root] (splits.mapIdx fun i s => (i, s)) = .ok nodes) :
    ∃ documents, Planned p vars table docs ⟨kind, table, p.finish nodes 0, [0], projection⟩
      documents := by
  obtain ⟨more, hlaid⟩ :=
    attachRows_laid (laid_root hroot hwidth hsplits) List.mem_cons_self rfl hnodes
  exact ⟨[splits] ++ more, ⟨splits, rfl, hroots⟩, hlaid.finish⟩

theorem planned_of_planInsert (h : p.planInsert vars table docs projection = .ok plan) :
    ∃ documents, Planned p vars table docs plan documents := by
  obtain ⟨contents, hcontents, h⟩ := bind_eq_ok.mp h
  obtain ⟨_, _, h⟩ := bind_eq_ok.mp h
  obtain ⟨splits, hsplits, h⟩ := bind_eq_ok.mp h
  extract_lets columns root rest at h
  split at h
  · cases h
  · obtain ⟨nodes, hnodes, h⟩ := bind_eq_ok.mp h
    obtain rfl := pure_eq_ok.mp h
    refine planned_of_attachRows rfl ?_ splits (.insert hcontents hsplits) ?_ hnodes
    · simp [root, Planner.newNode, valuesFor]
    · intro document hdocument
      obtain ⟨content, _, hcontent⟩ := exists_of_mem_mapM hsplits hdocument
      exact ⟨content, hcontent⟩

theorem planned_of_planUpdate {filter : Option Json}
    (h : p.planUpdate vars table docs filter projection = .ok plan) :
    ∃ documents, Planned p vars table docs plan documents := by
  obtain ⟨content, hcontent, h⟩ := bind_eq_ok.mp h
  obtain ⟨clause, _, h⟩ := bind_eq_ok.mp h
  obtain ⟨split, hsplit, h⟩ := bind_eq_ok.mp h
  extract_lets root rest at h
  split at h
  · cases h
  · obtain ⟨nodes, hnodes, h⟩ := bind_eq_ok.mp h
    obtain rfl := pure_eq_ok.mp h
    refine planned_of_attachRows rfl ?_ [split] (.update hcontent hsplit) ?_ hnodes
    · simp [root, Planner.newNode]
    · intro document hdocument
      obtain rfl := List.mem_singleton.mp hdocument
      exact ⟨content, hsplit⟩

end Planned

end SqlGateway.Mutation
