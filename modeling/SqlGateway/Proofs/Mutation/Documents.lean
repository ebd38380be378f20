import SqlGateway.Proofs.Mutation.Tree

/-!
# Where the documents of an insert stand

The writes of an insert are told by its documents: behind the write of a document stand those of the
documents nested in it, in the order in which the document lists them, and behind these the write of
the next document.
-/
namespace SqlGateway.Mutation

open Request (Variables)

/-- The documents that are nested in a document, in order, each with its group. -/
def SplitDocument.items (split : SplitDocument) : List (ChildGroup × Object) :=
  split.children.flatMap fun group => group.documents.map (group, ·)

/-- The write of a nested document, as it is when the plan is finished. -/
structure Writes (p : Planner) (vars : Variables) (n : WriteNode) (group : ChildGroup)
    (content : Object) (child : SplitDocument) : Prop where
  split : p.split vars group.table content = .ok child
  describes : Describes n group child
  sql : n.sql = p.statementOf n
  keys : (child.children.map (·.key)).Nodup

/-- The documents nested in a row have their writes in an interval of a list, each followed by the
writes of the documents nested in it. -/
inductive LaidOut (p : Planner) (vars : Variables) (nodes : List WriteNode) :
    (parent row : Nat) → List (ChildGroup × Object) → (children : List Nat) →
    (start stop : Nat) → Prop
  | nil {parent row start} : LaidOut p vars nodes parent row [] [] start start
  | cons {parent row group content items id rest mid stop} {n : WriteNode} {split : SplitDocument} :
      nodes[id]? = some n → n.parent = some ⟨parent, row, group.key⟩ →
      Writes p vars n group content split →
      LaidOut p vars nodes id 0 split.items n.children (id + 1) mid →
      LaidOut p vars nodes parent row items rest mid stop →
      LaidOut p vars nodes parent row ((group, content) :: items) (id :: rest) id stop

/-- The same for the rows of a root, from one on, each with the documents nested in it. -/
inductive RowsLaidOut (p : Planner) (vars : Variables) (nodes : List WriteNode) :
    (row : Nat) → List SplitDocument → (children : List Nat) → (start stop : Nat) → Prop
  | nil {row start} : RowsLaidOut p vars nodes row [] [] start start
  | cons {row start mid stop children others} {split : SplitDocument}
      {splits : List SplitDocument} : LaidOut p vars nodes 0 row split.items children start mid →
      RowsLaidOut p vars nodes (row + 1) splits others mid stop →
      RowsLaidOut p vars nodes row (split :: splits) (children ++ others) start stop

section LaidOut
variable {p : Planner} {vars : Variables} {nodes nodes' : List WriteNode} {parent row : Nat}
  {items more : List (ChildGroup × Object)} {children others : List Nat} {start mid stop : Nat}

theorem LaidOut.le (h : LaidOut p vars nodes parent row items children start stop) :
    start ≤ stop := by
  induction h with
  | nil => exact Nat.le_refl _
  | cons _ _ _ _ _ ihbelow ih => omega

/-- Only the writes of the interval matter. -/
theorem LaidOut.mono (h : LaidOut p vars nodes parent row items children start stop)
    (hsame : ∀ id n, start ≤ id → nodes[id]? = some n → nodes'[id]? = some n) :
    LaidOut p vars nodes' parent row items children start stop := by
  induction h with
  | nil => exact .nil
  | cons hn hparent hwrites hbelow _ ihbelow ih =>
      have hle := hbelow.le
      refine .cons (hsame _ _ (Nat.le_refl _) hn) hparent hwrites (ihbelow ?_) (ih ?_)
      · exact fun id n hstart => hsame id n (by omega)
      · exact fun id n hstart => hsame id n (by omega)

theorem LaidOut.append (h : LaidOut p vars nodes parent row items children start mid)
    (h' : LaidOut p vars nodes parent row more others mid stop) :
    LaidOut p vars nodes parent row (items ++ more) (children ++ others) start stop := by
  induction h with
  | nil => exact h'
  | cons hn hparent hwrites hbelow _ _ ih => exact .cons hn hparent hwrites hbelow (ih h')

theorem RowsLaidOut.le {splits : List SplitDocument}
    (h : RowsLaidOut p vars nodes row splits children start stop) : start ≤ stop := by
  induction h with
  | nil => exact Nat.le_refl _
  | cons hrow _ ih =>
      have hle := hrow.le
      omega

theorem RowsLaidOut.mono {splits : List SplitDocument}
    (h : RowsLaidOut p vars nodes row splits children start stop)
    (hsame : ∀ id n, start ≤ id → nodes[id]? = some n → nodes'[id]? = some n) :
    RowsLaidOut p vars nodes' row splits children start stop := by
  induction h with
  | nil => exact .nil
  | cons hrow _ ih =>
      have hle := hrow.le
      exact .cons (hrow.mono hsame) (ih fun id n hstart => hsame id n (by omega))

end LaidOut

/-- The groups of a document have keys of their own, as the fields of the document have. -/
theorem sublist_keys_split {p : Planner} {vars : Variables} {table : String} {content : Object}
    {split : SplitDocument} (h : p.split vars table content = .ok split) :
    ∃ forced, (split.children.map (·.key)).Sublist (Object.insertAll forced content).keys := by
  obtain ⟨_, _, h⟩ := bind_eq_ok.mp h
  obtain ⟨forced, _, h⟩ := bind_eq_ok.mp h
  have run : ∀ (fields : Object) (before after : SplitDocument),
      fields.foldlM (fun split field => p.place table split field.1 field.2) before = .ok after →
      ∃ added : List ChildGroup, after.children = before.children ++ added ∧
        (added.map (·.key)).Sublist fields.keys := by
    intro fields
    induction fields with
    | nil =>
        intro before after h
        obtain rfl := pure_eq_ok.mp h
        exact ⟨[], (List.append_nil _).symm, .slnil⟩
    | cons field rest ih =>
        intro before after h
        obtain ⟨next, hnext, h⟩ := bind_eq_ok.mp h
        obtain ⟨added, hadded, hsub⟩ := ih next after h
        obtain ⟨rfl, -⟩ | ⟨child, join, documents, -, -, rfl⟩ := Planner.place_ok hnext
        · exact ⟨added, hadded, hsub.cons field.1⟩
        · exact ⟨⟨field.1, child, join, documents⟩ ::
            added, by simpa using hadded, hsub.cons_cons field.1⟩
  obtain ⟨added, hadded, hsub⟩ := run _ _ _ h
  exact ⟨forced, by rwa [hadded, List.nil_append]⟩

theorem nodup_keys_split {p : Planner} {vars : Variables} {table : String} {content : Object}
    {split : SplitDocument} (hcontent : (Json.object content).hasDistinctKeys = true)
    (h : p.split vars table content = .ok split) : (split.children.map (·.key)).Nodup := by
  obtain ⟨forced, hsub⟩ := sublist_keys_split h
  exact (Object.nodup_keys_insertAll forced (Json.hasDistinctKeys_object.mp hcontent).1).sublist
    hsub

/-- Documents were attached below a row of a write, one after another. -/
structure Planted (p : Planner) (vars : Variables) (nodes nodes' : List WriteNode)
    (parent rows : Nat) (document? : Option Nat) (row : Nat) (items : List (ChildGroup × Object))
    (children : List Nat) : Prop where
  attached : Attached nodes nodes' parent rows document? children
  laidOut : LaidOut p vars nodes' parent row items children nodes.length nodes'.length

section Planted
variable {p : Planner} {vars : Variables} {nodes nodes' nodes'' : List WriteNode}
  {parent rows row : Nat} {document? : Option Nat} {items more : List (ChildGroup × Object)}
  {children others : List Nat}

theorem Planted.refl (nodes : List WriteNode) (parent rows : Nat) (document? : Option Nat)
    (row : Nat) : Planted p vars nodes nodes parent rows document? row [] [] :=
  ⟨.refl .., .nil⟩

theorem Planted.trans (hparent : parent < nodes.length)
    (h : Planted p vars nodes nodes' parent rows document? row items children)
    (h' : Planted p vars nodes' nodes'' parent rows document? row more others) :
    Planted p vars nodes nodes'' parent rows document? row (items ++ more)
      (children ++ others) where
  attached := h.attached.trans hparent h'.attached
  laidOut := by
    refine (h.laidOut.mono fun id n hstart => h'.attached.kept id n ?_).append h'.laidOut
    omega

/-- What is attached one after another stands one after another. -/
theorem Planted.foldlM {α : Type} {attach : List WriteNode → α → Except Error (List WriteNode)}
    {places : List α} {itemsOf : α → List (ChildGroup × Object)} (hparent : parent < nodes.length)
    (step : ∀ place ∈ places, ∀ before after : List WriteNode, parent < before.length →
      attach before place = .ok after →
      ∃ children, Planted p vars before after parent rows document? row (itemsOf place) children)
    (h : places.foldlM attach nodes = .ok nodes') :
    ∃ children, Planted p vars nodes nodes' parent rows document? row (places.flatMap itemsOf)
      children := by
  induction places generalizing nodes with
  | nil =>
      obtain rfl := pure_eq_ok.mp h
      exact ⟨[], .refl ..⟩
  | cons place places ih =>
      obtain ⟨next, hnext, h⟩ := bind_eq_ok.mp h
      obtain ⟨children, hfirst⟩ := step place List.mem_cons_self nodes next hparent hnext
      have hlength := hfirst.attached.hangs.le
      obtain ⟨others, hrest⟩ := ih (by omega)
        (fun other hother => step other (List.mem_cons_of_mem place hother)) h
      exact ⟨children ++ others, hfirst.trans hparent hrest⟩

/-- The write of a nested document is attached with the documents nested in it. -/
theorem planted_attachDocument {documentNumber : Nat}
    {attach : List WriteNode → Nat → ChildGroup → Except Error (List WriteNode)}
    {projection : Projection} {content : Object} {group : ChildGroup}
    (hrules : p.ForcesDistinctKeys vars)
    (hattach : ∀ (before after : List WriteNode) (id : Nat) (group : ChildGroup), id <
      before.length → group.HasDistinctKeys → attach before id group = .ok after → ∃ children,
        Planted p vars before after id 1 (some documentNumber) 0 (group.documents.map (group, ·))
          children)
    (hrow : row < rows) (hdocument : documentNumber = document?.getD (row + 1))
    (hcontent : (Json.object content).hasDistinctKeys = true)
    (h : p.attachDocument attach vars documentNumber parent row group projection nodes content =
      .ok nodes') :
    ∃ children, Planted p vars nodes nodes' parent rows document? row [(group, content)]
      children := by
  obtain ⟨child, attached, hchild, hattached, rfl⟩ := attachDocument_ok h
  obtain ⟨hcolumns, hgroups⟩ := distinct_split hrules hcontent hchild
  let node := childWrite p documentNumber projection ⟨parent, row, group.key⟩ group child
  have hlinked : (nodes.modify parent (withChild group.join nodes.length)).length = nodes.length :=
    List.length_modify ..
  obtain ⟨children, hbelow⟩ := Planted.foldlM (by simp)
    (fun group hgroup before after hid =>
      hattach before after nodes.length group hid (hgroups group hgroup))
    hattached
  have hnew : (nodes.modify parent (withChild group.join nodes.length) ++ [node])[nodes.length]? =
      some node := by
    rw [List.getElem?_append_right (Nat.le_of_eq hlinked), hlinked, Nat.sub_self]
    rfl
  obtain ⟨returning, hgrown⟩ := hbelow.attached.grown node hnew
  have hisChild : node.IsChild parent rows document? :=
    ⟨⟨_, rfl, rfl, hrow, hdocument⟩, isRegular_childWrite hcolumns⟩
  refine ⟨[nodes.length], hbelow.attached.child rfl hisChild, ?_⟩
  have hinterval := hbelow.laidOut
  rw [List.length_append, hlinked, List.length_singleton] at hinterval
  rw [length_finish]
  have hkeys := nodup_keys_split hcontent hchild
  refine .cons (getElem?_finish_self hgrown) rfl ⟨hchild, ⟨rfl, rfl, rfl, rfl, rfl⟩, rfl,
    hkeys⟩ ?_ .nil
  exact hinterval.mono fun id n hstart hn => (getElem?_finish_ne (by omega)).trans hn

/-- The documents of a group are attached in their order, however deep it goes. -/
theorem planted_attachGroup (hrules : p.ForcesDistinctKeys vars) {documentNumber depth : Nat}
    {group : ChildGroup} (hparent : parent < nodes.length) (hrow : row < rows)
    (hdocument : documentNumber = document?.getD (row + 1)) (hgroup : group.HasDistinctKeys)
    (h : p.attachGroup vars documentNumber depth nodes parent row group = .ok nodes') :
    ∃ children, Planted p vars nodes nodes' parent rows document? row
      (group.documents.map (group, ·)) children := by
  induction depth generalizing nodes nodes' parent row rows document? group with
  | zero => cases h
  | succ depth ih =>
      obtain ⟨_, _, h⟩ := bind_eq_ok.mp h
      rw [List.map_eq_flatMap]
      refine Planted.foldlM hparent (fun content hcontent before after _ hafter => ?_) h
      refine planted_attachDocument hrules ?_ hrow hdocument (hgroup content hcontent) hafter
      -- The write of a nested document has one row, so its own documents are nested in row 0.
      exact fun _ _ _ _ hid hinner hattached => ih hid (Nat.lt_succ_self 0) rfl hinner hattached

/-- The documents nested in the rows of a root are attached row by row. -/
theorem rowsLaidOut_attachRows (hrules : p.ForcesDistinctKeys vars) {depth : Nat}
    {splits : List SplitDocument} (hroot : 0 < nodes.length) (hrows : row + splits.length ≤ rows)
    (hsplits : ∀ split ∈ splits, ∀ group ∈ split.children, group.HasDistinctKeys)
    (h : p.attachRows vars depth 0 nodes (splits.mapIdx fun i split => (row + i, split)) =
      .ok nodes') :
    ∃ children, Attached nodes nodes' 0 rows none children ∧
      RowsLaidOut p vars nodes' row splits children nodes.length nodes'.length := by
  induction splits generalizing nodes row with
  | nil =>
      obtain rfl := pure_eq_ok.mp h
      exact ⟨[], .refl .., .nil⟩
  | cons split splits ih =>
      rw [List.mapIdx_cons] at h
      obtain ⟨next, hnext, h⟩ := bind_eq_ok.mp h
      rw [List.length_cons] at hrows
      obtain ⟨children, hfirst⟩ : ∃ children,
          Planted p vars nodes next 0 rows none row split.items children := by
        refine Planted.foldlM hroot (fun group hgroup before after hbefore hafter => ?_) hnext
        exact planted_attachGroup hrules hbefore (by omega) rfl
          (hsplits split List.mem_cons_self group hgroup) hafter
      have hlength := hfirst.attached.hangs.le
      have hrest :
        p.attachRows vars depth 0 next (splits.mapIdx fun i split => (row + 1 + i, split)) =
          .ok nodes' := by
        simpa only [Planner.attachRows, Nat.add_assoc, Nat.add_comm 1] using h
      obtain ⟨others, hattached, hlaid⟩ := ih (by omega) (by omega)
        (fun other hother => hsplits other (List.mem_cons_of_mem split hother)) hrest
      refine ⟨children ++ others, hfirst.attached.trans hroot hattached, .cons ?_ hlaid⟩
      exact hfirst.laidOut.mono fun id n hstart => hattached.kept id n (by omega)

end Planted

/-- The plan of an insert by its documents: the root has a row for each of them, and what is nested
in them stands behind it. -/
structure Inserts (p : Planner) (vars : Variables) (table : String) (docs : Json) (plan : Plan)
    (root : WriteNode) (contents : List Object) (splits : List SplitDocument) : Prop where
  documents : insertDocuments table docs = .ok contents
  split : contents.mapM (p.split vars table) = .ok splits
  keys : ∀ document ∈ splits, (document.children.map (·.key)).Nodup
  first : plan.nodes[0]? = some root
  table : root.table = table
  kind : root.kind = .insert
  columns : root.columns = ((splits.head?.map (·.columns)).getD []).map (·.1)
  rows : root.rows = splits.map (valuesFor root.columns)
  sql : root.sql = p.statementOf root
  laidOut : RowsLaidOut p vars plan.nodes 0 splits root.children 1 plan.nodes.length

theorem inserts_of_planInsert {p : Planner} {vars : Variables} {table : String} {docs : Json}
    {projection : Projection} {plan : Plan} (hrules : p.ForcesDistinctKeys vars)
    (hdocs : docs.hasDistinctKeys = true) (h : p.planInsert vars table docs projection = .ok plan) :
    plan.projection = projection ∧
      ∃ root contents splits, Inserts p vars table docs plan root contents splits := by
  obtain ⟨contents, hcontents, h⟩ := bind_eq_ok.mp h
  obtain ⟨_, _, h⟩ := bind_eq_ok.mp h
  obtain ⟨splits, hsplits, h⟩ := bind_eq_ok.mp h
  have hdistinct : ∀ split ∈ splits, (split.children.map (·.key)).Nodup ∧
      ∀ group ∈ split.children, group.HasDistinctKeys := by
    intro split hsplit
    obtain ⟨content, hcontent, hsplit⟩ := exists_of_mem_mapM hsplits hsplit
    have hkeys := distinct_insertDocuments hdocs hcontents content hcontent
    exact ⟨nodup_keys_split hkeys hsplit, (distinct_split hrules hkeys hsplit).2⟩
  extract_lets columns root rest at h
  split at h
  · cases h
  · obtain ⟨nodes, hnodes, h⟩ := bind_eq_ok.mp h
    obtain rfl := pure_eq_ok.mp h
    have hrows : p.attachRows vars (Planner.depthFor docs) 0 [root]
        (splits.mapIdx fun i split => (0 + i, split)) = .ok nodes := by
      simpa only [Nat.zero_add] using hnodes
    have hroot : 0 < [root].length := Nat.one_pos
    obtain ⟨children, hattached, hlaid⟩ := rowsLaidOut_attachRows hrules hroot
      (Nat.le_of_eq (Nat.zero_add splits.length))
      (fun split hsplit => (hdistinct split hsplit).2) hrows
    obtain ⟨returning, hgrown⟩ := hattached.grown root rfl
    refine ⟨rfl, _, contents, splits, hcontents, hsplits, fun split hsplit =>
      (hdistinct split hsplit).1, getElem?_finish_self hgrown, rfl, rfl, rfl, rfl, rfl, ?_⟩
    rw [length_finish]
    exact hlaid.mono fun id n hstart hn => (getElem?_finish_ne (Nat.ne_of_gt hstart)).trans hn

end SqlGateway.Mutation
