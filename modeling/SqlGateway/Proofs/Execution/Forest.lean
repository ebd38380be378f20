import Mathlib.Data.List.Sort
import SqlGateway.Proofs.Execution.Obliging
import SqlGateway.Proofs.Execution.PartialFailure
import SqlGateway.Proofs.Mutation.Documents
import SqlGateway.Proofs.Mutation.Projected

/-!
# The forest of an insert

A nested insert on a server that obliges answers with a tree for each document: the row that was
returned for the document, and under the key of each group of nested documents the trees of these.
The projection then leaves what was asked for, as long as no nested key is asked for twice.
-/
namespace SqlGateway.Execution

open Connection (Driver Recorded Scripted Session)
open Mutation
open Request (Variables)

/-- The list under the key of a group, if the group has a document. -/
def arrayOf (key : String) (objects : List Object) : Object :=
  if objects.isEmpty then [] else [(key, .list (objects.map .object))]

/-- What the objects of nested documents, in the order of the documents, add to the object that they
are nested in: under the key of each group a list with an object for each of its documents. -/
def arrays : List ChildGroup → List Object → Object
  | [], _ => []
  | group :: rest, objects =>
    arrayOf group.key (objects.take group.documents.length) ++
      arrays rest (objects.drop group.documents.length)

/-- A nested document was written below a row: the statement binds the values of the document and,
in the other columns of the join, those of the row above, and was answered with one row. -/
structure Written (p : Planner) (above : Object) (group : ChildGroup)
    (child : SplitDocument) (w : Sent) (row : Object) : Prop where
  sql : w.node.sql = Statement.insert p.dialect group.table w.node.columns 1 w.node.returning
  values : w.node.columns.zip w.node.parameters =
    child.columns ++ (missing group.join child.columns).map fun pair =>
      (pair.2, linkedValue above pair.1)
  answer : ∃ r, w.reply.result = .ok r ∧ r.rows.map r.rowObject = [row]

/-- The trees of documents that are nested below a row, and the statements that wrote them. The
object of a document is the row returned for it with the objects of the documents nested in it. -/
inductive Branches (p : Planner) (vars : Variables) :
    (above : Object) → List (ChildGroup × Object) → List Sent → List Object → Prop
  | nil {above} : Branches p vars above [] [] []
  | cons {above group content items w row below nested more objects} {child : SplitDocument} :
      p.split vars group.table content = .ok child → Written p above group child w row →
      Branches p vars row child.items below nested → Branches p vars above items more objects →
      Branches p vars above ((group, content) :: items) (w :: (below ++ more))
        ((row ++ arrays child.children nested) :: objects)

/-- The trees of the outermost documents, and the statements for what is nested in them. -/
inductive Trees (p : Planner) (vars : Variables) :
    List SplitDocument → (rows : List Object) → List Sent → List Object → Prop
  | nil : Trees p vars [] [] [] []
  | cons {row rows below nested more objects} {split : SplitDocument}
      {splits : List SplitDocument} :
      Branches p vars row split.items below nested → Trees p vars splits rows more objects →
      Trees p vars (split :: splits) (row :: rows) (below ++ more)
        ((row ++ arrays split.children nested) :: objects)

/-- The outermost documents were written in one statement, by the columns of the first of them. -/
structure RootWritten (p : Planner) (table : String) (splits : List SplitDocument) (w : Sent)
    (rows : List Object) : Prop where
  sql : w.node.sql = Statement.insert p.dialect table w.node.columns splits.length w.node.returning
  columns : w.node.columns = ((splits.head?.map (·.columns)).getD []).map (·.1)
  values : w.node.rows = splits.map (valuesFor w.node.columns)
  answer : ∃ r, w.reply.result = .ok r ∧ r.rows.map r.rowObject = rows

/-- What an insert sent, and the tree of each of its documents. -/
def Forest (p : Planner) (vars : Variables) (table : String) (docs : Json) (sent : List Sent)
    (objects : List Object) : Prop :=
  ∃ contents splits w below rows, insertDocuments table docs = .ok contents ∧
    contents.mapM (p.split vars table) = .ok splits ∧ sent = w :: below ∧
    RootWritten p table splits w rows ∧ Trees p vars splits rows below objects

theorem Branches.length {p : Planner} {vars : Variables} {above : Object}
    {items : List (ChildGroup × Object)} {sent : List Sent} {objects : List Object}
    (h : Branches p vars above items sent objects) : objects.length = items.length := by
  induction h with
  | nil => rfl
  | cons _ _ _ _ _ ih => rw [List.length_cons, List.length_cons, ih]

section Put
variable {key : String} {row : Object}

theorem insert_append_self (h : key ∉ row.keys) (v w : Json) :
    Object.insert key w (row ++ [(key, v)]) = row ++ [(key, w)] := by
  induction row with
  | nil => simp [Object.insert]
  | cons field rest ih =>
      rw [Object.keys, List.map_cons, List.mem_cons, not_or] at h
      rw [List.cons_append, Object.insert, if_neg (Ne.symm h.1), ih h.2]
      rfl

theorem get?_of_not_mem (h : key ∉ row.keys) : row.get? key = none := by
  rw [← Option.not_isSome_iff_eq_none]
  exact fun hsome => h (Object.contains_iff_mem_keys.mp hsome)

theorem put_listed (h : key ∉ row.keys) (items : List Json) (objects : List Object) :
    (objects.map fun o => (key, [o])).foldl put (row ++ [(key, .list items)]) =
      row ++ [(key, .list (items ++ objects.map .object))] := by
  induction objects generalizing items with
  | nil => simp
  | cons o rest ih =>
      have hlisted : listed key (row ++ [(key, .list items)]) = items := by
        rw [listed, Object.get?_append, get?_of_not_mem h]
        simp [Object.get?]
      rw [List.map_cons, List.foldl_cons, put, extend_eq, hlisted, insert_append_self h, ih]
      simp

/-- Rows with one object each are put in a list, if there are any. -/
theorem foldl_put_own (h : key ∉ row.keys) (objects : List Object) :
    (objects.map fun o => (key, [o])).foldl put row = row ++ arrayOf key objects := by
  cases objects with
  | nil => exact (List.append_nil row).symm
  | cons o rest =>
      have hlisted : listed key row = [] := by
        rw [listed, get?_of_not_mem h]
      have hcontains : Object.contains key row = false := by
        rw [Object.contains, get?_of_not_mem h]
        rfl
      rw [List.map_cons, List.foldl_cons, put, extend_eq, hlisted,
        Object.insert_of_not_contains hcontains, put_listed h]
      rfl

/-- What is put in for the documents of groups with keys of their own. -/
def itemPayloads (items : List (ChildGroup × Object)) (objects : List Object) : Payloads :=
  List.zipWith (fun item o => (item.1.key, [o])) items objects

theorem itemPayloads_group (group : ChildGroup) {documents objects : List Object}
    (h : objects.length = documents.length) :
    itemPayloads (documents.map (group, ·)) objects = objects.map fun o => (group.key, [o]) := by
  induction documents generalizing objects with
  | nil =>
      rw [List.length_eq_zero_iff.mp h]
      rfl
  | cons document rest ih =>
      cases objects with
      | nil => cases h
      | cons o others =>
          rw [List.map_cons, List.map_cons, ← ih (Nat.succ.inj h)]
          rfl

theorem foldl_put_arrays {groups : List ChildGroup} {objects : List Object}
    (hkeys : (groups.map (·.key)).Nodup) (hfree : ∀ group ∈ groups, group.documents ≠ [] →
      group.key ∉ row.keys)
    (hlength : objects.length =
      (groups.flatMap fun group => group.documents.map (group, ·)).length) :
    (itemPayloads (groups.flatMap fun group => group.documents.map (group, ·)) objects).foldl
      put row = row ++ arrays groups objects := by
  induction groups generalizing row objects with
  | nil => exact (List.append_nil row).symm
  | cons group rest ih =>
      obtain ⟨hkey, hrest⟩ := List.nodup_cons.mp hkeys
      obtain ⟨hown, hothers⟩ := List.forall_mem_cons.mp hfree
      rw [List.flatMap_cons, List.length_append, List.length_map] at hlength
      have htake : (objects.take group.documents.length).length = group.documents.length := by
        rw [List.length_take]
        omega
      have hsplit : itemPayloads ((group :: rest).flatMap fun group =>
        group.documents.map (group, ·)) objects =
          (objects.take group.documents.length).map (fun o => (group.key, [o])) ++
            itemPayloads (rest.flatMap fun group => group.documents.map (group, ·))
              (objects.drop group.documents.length) := by
        rw [← itemPayloads_group group htake, List.flatMap_cons]
        nth_rewrite 1 [← List.take_append_drop group.documents.length objects]
        exact List.zipWith_append (by rw [List.length_map, htake])
      have hput :
        ((objects.take group.documents.length).map fun o => (group.key, [o])).foldl put row =
          row ++ arrayOf group.key (objects.take group.documents.length) := by
        by_cases hnone : group.documents = []
        · simp [hnone, arrayOf]
        · exact foldl_put_own (hown hnone) _
      rw [hsplit, List.foldl_append, hput, arrays, ← List.append_assoc]
      refine ih hrest (fun other hother hsome => ?_) ?_
      · -- The key of another group is neither in the row nor that of this group.
        rw [Object.keys, List.map_append, List.mem_append, not_or]
        refine ⟨hothers other hother hsome, fun hmem => ?_⟩
        have hsame : other.key = group.key := by
          unfold arrayOf at hmem
          split at hmem
          · cases hmem
          · exact List.mem_singleton.mp hmem
        exact hkey (List.mem_map.mpr ⟨other, hother, hsame⟩)
      · rw [List.length_drop]
        omega

end Put

section Children
variable {p : Planner} {vars : Variables} {nodes : List WriteNode} {parent row : Nat}
  {items : List (ChildGroup × Object)} {children : List Nat} {start stop : Nat}

/-- No key under which the rows of a child go is a key of a row. -/
def Free (nodes : List WriteNode) (children : List Nat) (o : Object) : Prop :=
  ∀ child ∈ children, ∀ m link, nodes[child]? = some m → m.parent = some link → link.key ∉ o.keys

theorem Fits.free {plan : Plan} {n : WriteNode} {r : ResultSet} (h : Fits plan n r)
    (cells : List Cell) : Free plan.nodes n.children (r.rowObject cells) := by
  intro child hchild m link hm hlink hkey
  rw [← Object.contains_iff_mem_keys, ResultSet.rowObject, Object.contains_ofFields,
    Object.contains_iff_mem_keys, Object.keys, List.map_map] at hkey
  obtain ⟨⟨column, cell⟩, hmem, hname⟩ := List.mem_map.mp hkey
  exact h.columns column (List.of_mem_zip hmem).1 child hchild m link hm hlink hname

theorem payloadsOf_cons {id : Nat} {n : WriteNode} {link : ParentLink} (hn : nodes[id]? = some n)
    (hlink : n.parent = some link) (payload : Nat → List Object) :
    payloadsOf nodes (id :: children) payload row =
      (if link.row = row then [(link.key, payload id)] else []) ++ payloadsOf nodes children
        payload row := by
  rw [payloadsOf, List.filterMap_cons, hn, Option.bind_some, hlink]
  by_cases hrow : link.row = row
  · have hfilter : (some link).filter (·.row == row) = some link := by simp [hrow]
    rw [hfilter, if_pos hrow]
    rfl
  · have hfilter : (some link).filter (·.row == row) = none := by simp [hrow]
    rw [hfilter, if_neg hrow]
    rfl

theorem payloadsOf_of_laidOut (h : LaidOut p vars nodes parent row items children start stop)
    {payload : Nat → List Object} {objects : List Object}
    (hpayload : List.Forall₂ (fun child o => payload child = [o]) children objects) :
    payloadsOf nodes children payload row = itemPayloads items objects := by
  induction h generalizing objects with
  | nil =>
      cases hpayload
      rfl
  | cons hn hparent _ _ _ _ ih =>
      obtain ⟨o, others, ho, hothers, rfl⟩ := List.forall₂_cons_left_iff.mp hpayload
      rw [payloadsOf_cons hn hparent, if_pos rfl, ih hothers, ho]
      rfl

theorem payloadsOf_of_laidOut_ne (h : LaidOut p vars nodes parent row items children start stop)
    (payload : Nat → List Object) {other : Nat} (hother : other ≠ row) :
    payloadsOf nodes children payload other = [] := by
  induction h with
  | nil => rfl
  | cons hn hparent _ _ _ _ ih =>
      rw [payloadsOf_cons hn hparent, if_neg (Ne.symm hother), ih hother]
      rfl

theorem payloadsOf_append (payload : Nat → List Object) (others : List Nat) :
    payloadsOf nodes (children ++ others) payload row =
      payloadsOf nodes children payload row ++ payloadsOf nodes others payload row :=
  List.filterMap_append

/-- Nothing is put in a row before the first of them. -/
theorem payloadsOf_of_rowsLaidOut_lt {splits : List SplitDocument}
    (h : RowsLaidOut p vars nodes row splits children start stop) (payload : Nat → List Object)
    {other : Nat} (hother : other < row) : payloadsOf nodes children payload other = [] := by
  induction h with
  | nil => rfl
  | cons hrow _ ih =>
      rw [payloadsOf_append, payloadsOf_of_laidOut_ne hrow payload (Nat.ne_of_lt hother),
        ih (by omega)]
      rfl

theorem key_of_laidOut (h : LaidOut p vars nodes parent row items children start stop) :
    ∀ item ∈ items, ∃ child ∈ children, ∃ m, nodes[child]? = some m ∧
      m.parent = some ⟨parent, row, item.1.key⟩ := by
  induction h with
  | nil => exact List.forall_mem_nil _
  | cons hn hparent _ _ _ _ ih =>
      refine List.forall_mem_cons.mpr ⟨⟨_, List.mem_cons_self, _, hn, hparent⟩,
        fun item hitem => ?_⟩
      obtain ⟨child, hchild, hlinked⟩ := ih item hitem
      exact ⟨child, List.mem_cons_of_mem _ hchild, hlinked⟩

/-- A row with the objects of the documents nested in it. -/
theorem foldl_put_of_laidOut {split : SplitDocument}
    (h : LaidOut p vars nodes parent row split.items children start stop)
    (hkeys : (split.children.map (·.key)).Nodup) {o : Object} (hfree : Free nodes children o)
    {payload : Nat → List Object} {objects : List Object}
    (hpayload : List.Forall₂ (fun child o => payload child = [o]) children objects)
    (hlength : objects.length = split.items.length) :
    (payloadsOf nodes children payload row).foldl put o = o ++ arrays split.children objects := by
  rw [payloadsOf_of_laidOut h hpayload]
  refine foldl_put_arrays hkeys (fun group hgroup hsome => ?_) hlength
  obtain ⟨document, hdocument⟩ := List.exists_mem_of_ne_nil _ hsome
  have hitem : (group, document) ∈ split.items :=
    List.mem_flatMap.mpr ⟨group, hgroup, List.mem_map_of_mem hdocument⟩
  obtain ⟨child, hchild, m, hm, hparent⟩ := key_of_laidOut h _ hitem
  exact hfree child hchild m _ hm hparent

end Children

/-- A write that was planned for a nested document and sent with the row above put in. -/
theorem written_of_inject {p : Planner} {vars : Variables} {n : WriteNode} {group : ChildGroup}
    {content above row : Object} {child : SplitDocument} {w : Sent}
    (h : Writes p vars n group content child) (hnode : w.node = n.inject above)
    (hanswer : ∃ r, w.reply.result = .ok r ∧ r.rows.map r.rowObject = [row]) :
    Written p above group child w row where
  sql := by
    rw [hnode, inject_eq]
    simp only [h.sql, Planner.statementOf, h.describes.kind, h.describes.table, h.describes.rows,
      List.length_singleton]
  values := by
    rw [← zip_inject h.describes, hnode, inject_eq]
  answer := hanswer

section Sent
variable {sent : List Sent} {start mid stop : Nat}

/-- The statements at the places of an interval. -/
def stretch (sent : List Sent) (start stop : Nat) : List Sent :=
  (sent.drop start).take (stop - start)

theorem stretch_append (h : start ≤ mid) (h' : mid ≤ stop) :
    stretch sent start stop = stretch sent start mid ++ stretch sent mid stop := by
  have hlength : stop - start = mid - start + (stop - mid) := by omega
  have hmid : start + (mid - start) = mid := by omega
  rw [stretch, hlength, List.take_add, List.drop_drop, hmid]
  rfl

theorem stretch_cons {id : Nat} {w : Sent} (hw : sent[id]? = some w) (h : id < stop) :
    stretch sent id stop = w :: stretch sent (id + 1) stop := by
  obtain ⟨hlt, rfl⟩ := List.getElem?_eq_some_iff.mp hw
  have hlength : stop - id = stop - (id + 1) + 1 := by omega
  rw [stretch, List.drop_eq_getElem_cons hlt, hlength, List.take_succ_cons]
  rfl

end Sent

/-- A plan was run to its end on a server that returns rows, and each of its writes was answered. -/
structure Fulfilled (plan : Plan) (dialect : Dialect) (timeout : Duration) (sent : List Sent)
    (answers : Answers) : Prop where
  tree : plan.IsTree
  returns : dialect.returning ≠ .unsupported
  told : Told plan dialect timeout plan.nodes.length sent answers []
  answered : ∀ w ∈ sent, Answered plan timeout w

namespace Fulfilled
variable {plan : Plan} {dialect : Dialect} {timeout : Duration} {sent : List Sent}
  {answers : Answers} {p : Planner} {vars : Variables} {start stop : Nat} {children : List Nat}

/-- Every write was sent, at its place. -/
theorem places (h : Fulfilled plan dialect timeout sent answers) :
    sent.map (·.id) = List.range plan.nodes.length := by
  have hsent : ∀ id < plan.nodes.length, ∃ w ∈ sent, w.id = id := by
    intro id
    induction id using Nat.strongRecOn with
    | ind id ih =>
      intro hid
      have hn : plan.nodes[id]? = some plan.nodes[id] := List.getElem?_eq_getElem hid
      rw [h.told.reached id _ hid hn]
      intro link hlink
      have hlt := h.tree.parent_lt hn hlink
      obtain ⟨w, hw, hwid⟩ := ih link.node hlt (Nat.lt_trans hlt hid)
      obtain ⟨_, r, -, hr, -⟩ := h.answered w hw
      rw [← hwid, h.told.rowsAt_of_mem hw, hr]
      exact Option.some_ne_none _
  refine h.told.ordered.eq_of_mem_iff List.pairwise_lt_range fun id => ?_
  rw [List.mem_map, List.mem_range]
  constructor
  · rintro ⟨w, hw, rfl⟩
    exact h.told.within w hw
  · exact hsent id

theorem length_sent (h : Fulfilled plan dialect timeout sent answers) :
    sent.length = plan.nodes.length := by
  simpa using congrArg List.length h.places

/-- The write at a place, with its answer. -/
theorem exists_at (h : Fulfilled plan dialect timeout sent answers) {id : Nat} {n : WriteNode}
    (hn : plan.nodes[id]? = some n) :
    ∃ w r, sent[id]? = some w ∧ w.reply.result = .ok r ∧ Fits plan n r ∧
      IsLinked dialect timeout sent n w.node ∧
      rowsAt dialect timeout sent id = some (r.rows.map r.rowObject) := by
  have hid := (List.getElem?_eq_some_iff.mp hn).1
  have hlength : id < sent.length := h.length_sent ▸ hid
  have hat : sent[id]? = some sent[id] := List.getElem?_eq_getElem hlength
  have hwid : sent[id].id = id := by
    have hmapped := congrArg (·[id]?) h.places
    simpa [hat, hid] using hmapped
  have hmem := List.mem_of_getElem? hat
  obtain ⟨m, r, hm, hr, hfits⟩ := h.answered _ hmem
  obtain ⟨m', hm', hlinked⟩ := h.told.linked _ hmem
  rw [hwid] at hm hm'
  obtain rfl := Option.some.inj (hn.symm.trans hm)
  obtain rfl := Option.some.inj (hn.symm.trans hm')
  have hrows := h.told.rowsAt_of_mem hmem
  rw [hwid, hr] at hrows
  exact ⟨_, r, hat, result_of_outcome hr, hfits, hlinked,
    hrows.trans (congrArg some (rowsOf_returned h.returns _ r))⟩

/-- The rows of a write with those of its children, each row with what was put in for it. -/
theorem nested_eq (h : Fulfilled plan dialect timeout sent answers) {depth id : Nat} {n : WriteNode}
    {rows : List Object} (hn : plan.nodes[id]? = some n)
    (hrows : rowsAt dialect timeout sent id = some rows) :
    nested plan answers (depth + 1) id = some (rows.mapIdx fun i row =>
      (payloadsOf plan.nodes n.children (shown plan answers depth) i).foldl put row) := by
  rw [nested_succ hn ((h.told.answers id).trans hrows)]
  refine congrArg some (List.ext_getElem? fun i => ?_)
  rw [getElem?_foldl_attach, List.getElem?_mapIdx]

/-- The documents that are nested below a row that was returned have grown to trees. -/
theorem branches (h : Fulfilled plan dialect timeout sent answers) {parent row : Nat}
    {items : List (ChildGroup × Object)}
    (hlaid : LaidOut p vars plan.nodes parent row items children start stop)
    (hstop : stop ≤ plan.nodes.length) {rows : List Object} {above : Object}
    (hrows : rowsAt dialect timeout sent parent = some rows) (habove : rows[row]? = some above) :
    ∃ objects, Branches p vars above items (stretch sent start stop) objects ∧
      ∀ depth, plan.nodes.length ≤ depth + start →
        List.Forall₂ (fun child o => nested plan answers depth child = some [o]) children
          objects := by
  induction hlaid generalizing rows above with
  | nil =>
      refine ⟨[], ?_, fun _ _ => .nil⟩
      rw [stretch, Nat.sub_self]
      exact .nil
  | @cons parent row group content items id rest mid stop n child hn hparent hwrites hbelow hrest
      ihbelow ih =>
      have hle := hbelow.le
      have hle' := hrest.le
      obtain ⟨w, r, hw, hr, hfits, hlinked, hown⟩ := h.exists_at hn
      -- The write has one row, and was answered with one.
      have hone : n.rows.length = 1 := by
        rw [hwrites.describes.rows]
        rfl
      obtain ⟨cells, hcells⟩ := List.length_eq_one_iff.mp (hfits.rows.trans hone)
      have hrow : r.rows.map r.rowObject = [r.rowObject cells] := by
        rw [hcells]
        rfl
      rw [hrow] at hown
      have hfill : w.node = n.inject above := by
        unfold IsLinked at hlinked
        rw [hparent] at hlinked
        obtain ⟨rows', row', hrows', hrow', hnode⟩ := hlinked
        obtain rfl := Option.some.inj (hrows.symm.trans hrows')
        obtain rfl := Option.some.inj (habove.symm.trans hrow')
        exact hnode
      obtain ⟨below, hbranches, hnested⟩ := ihbelow (by omega) hown rfl
      obtain ⟨objects, hothers, hrestNested⟩ := ih hstop hrows habove
      refine ⟨(r.rowObject cells ++ arrays child.children below) :: objects, ?_,
        fun depth hdepth => ?_⟩
      · rw [stretch_cons hw (by omega), stretch_append hle hle']
        exact .cons hwrites.split (written_of_inject hwrites hfill ⟨r, hr, hrow⟩) hbranches hothers
      · obtain ⟨depth, rfl⟩ : ∃ shallower, depth = shallower + 1 :=
          Nat.exists_eq_succ_of_ne_zero (by
          have := (List.getElem?_eq_some_iff.mp hn).1
          omega)
        refine .cons ?_ (hrestNested _ (by omega))
        rw [h.nested_eq hn hown]
        refine congrArg (fun o => some [o]) ?_
        refine foldl_put_of_laidOut hbelow hwrites.keys (hfits.free cells) ?_ hbranches.length
        exact (hnested depth (by omega)).imp fun _ _ => shown_of_nested

/-- So have the outermost documents, row by row. -/
theorem trees (h : Fulfilled plan dialect timeout sent answers) {row : Nat}
    {splits : List SplitDocument}
    (hlaid : RowsLaidOut p vars plan.nodes row splits children start stop)
    (hstop : stop ≤ plan.nodes.length)
    {rows : List Object} (hrows : rowsAt dialect timeout sent 0 = some rows)
    (hlength : rows.length = row + splits.length)
    (hkeys : ∀ split ∈ splits, (split.children.map (·.key)).Nodup)
    (hfree : ∀ o ∈ rows, Free plan.nodes children o) {depth : Nat}
    (hdepth : plan.nodes.length ≤ depth + start) :
    Trees p vars splits (rows.drop row) (stretch sent start stop) ((rows.drop row).mapIdx fun i o =>
      (payloadsOf plan.nodes children (shown plan answers depth) (row + i)).foldl put o) := by
  induction hlaid with
  | @nil row start =>
      have hnone : rows.drop row = [] := List.drop_eq_nil_of_le (Nat.le_of_eq hlength)
      rw [hnone, stretch, Nat.sub_self]
      exact .nil
  | @cons row start mid stop children others split splits hrow hrest ih =>
      rw [List.length_cons] at hlength
      obtain ⟨hfirst, hothers⟩ := List.forall_mem_cons.mp hkeys
      have hlt : row < rows.length := by omega
      have hle := hrow.le
      have hle' := hrest.le
      obtain ⟨below, hbranches, hnested⟩ :=
        h.branches hrow (by omega) hrows (List.getElem?_eq_getElem hlt)
      have hown :
        (payloadsOf plan.nodes (children ++ others) (shown plan answers depth) (row + 0)).foldl put
          rows[row] = rows[row] ++ arrays split.children below := by
        rw [Nat.add_zero, payloadsOf_append, payloadsOf_of_rowsLaidOut_lt hrest _
          (Nat.lt_succ_self row), List.append_nil]
        refine foldl_put_of_laidOut hrow hfirst ?_ ?_ hbranches.length
        · exact fun child hchild =>
            hfree _ (List.getElem_mem hlt) child (List.mem_append_left _ hchild)
        · exact (hnested depth hdepth).imp fun _ _ => shown_of_nested
      have hlater : ∀ i, payloadsOf plan.nodes (children ++ others) (shown plan answers depth)
        (row + (i + 1)) =
          payloadsOf plan.nodes others (shown plan answers depth) (row + 1 + i) := by
        intro i
        rw [payloadsOf_append, payloadsOf_of_laidOut_ne hrow _ (by omega), List.nil_append,
          Nat.add_assoc, Nat.add_comm 1]
      rw [List.drop_eq_getElem_cons hlt, List.mapIdx_cons, hown, stretch_append hle hle']
      simp only [hlater]
      refine .cons hbranches (ih hstop (by omega) hothers (fun o ho child hchild => ?_) (by omega))
      exact hfree o ho child (List.mem_append_right _ hchild)

/-- What was sent of an insert, and what its root shows, is the forest of its documents. -/
theorem forest (h : Fulfilled plan dialect timeout sent answers) {table : String} {docs : Json}
    {root : WriteNode} {contents : List Object} {splits : List SplitDocument}
    (hinserts : Inserts p vars table docs plan root contents splits) :
    ∃ objects, Forest p vars table docs sent objects ∧
      nested plan answers plan.nodes.length 0 = some objects := by
  obtain ⟨w, r, hw, hr, hfits, hlinked, hrows⟩ := h.exists_at hinserts.first
  have hroot : w.node = root := by
    unfold IsLinked at hlinked
    rwa [(h.tree.parent_eq_none_iff hinserts.first).mpr rfl] at hlinked
  have hcount : (r.rows.map r.rowObject).length = splits.length := by
    rw [List.length_map, hfits.rows, hinserts.rows, List.length_map]
  have hpos : 0 < plan.nodes.length := (List.getElem?_eq_some_iff.mp hinserts.first).1
  obtain ⟨depth, hdepth⟩ := Nat.exists_eq_succ_of_ne_zero (Nat.ne_of_gt hpos)
  have htrees := h.trees hinserts.laidOut (Nat.le_refl _) hrows
    (hcount.trans (Nat.zero_add _).symm) hinserts.keys ?_ (Nat.le_of_eq hdepth)
  · have hsent : sent = w :: stretch sent 1 plan.nodes.length := by
      rw [← stretch_cons hw hpos, stretch, List.drop_zero, Nat.sub_zero, ← h.length_sent,
        List.take_length]
    have hwritten : RootWritten p table splits w (r.rows.map r.rowObject) := by
      refine ⟨?_, hroot ▸ hinserts.columns, hroot ▸ hinserts.rows, r, hr, rfl⟩
      rw [hroot, hinserts.sql, Planner.statementOf, hinserts.kind, hinserts.table, hinserts.rows,
        List.length_map]
    refine ⟨_, ⟨contents, splits, w, _, _, hinserts.documents, hinserts.split, hsent, hwritten,
      htrees⟩, ?_⟩
    · rw [hdepth, h.nested_eq hinserts.first hrows]
      simp only [List.drop_zero, Nat.zero_add]
  · intro o ho
    obtain ⟨cells, _, rfl⟩ := List.mem_map.mp ho
    exact hfits.free cells

end Fulfilled

/-- A nested insert answers with the forest of its documents. On a server that accepts all it is
asked and returns a row for each row that is inserted, the plan of an insert succeeds without a
failure, in any transaction, with one object for each document; and as long as no nested key is
asked for twice, the projection leaves at every depth what was asked for and nothing else. -/
theorem insert_answers_forest {σ : Type} {d : Driver σ}
    (hreturns : d.dialect.returning ≠ .unsupported) {p : Planner} {vars : Variables}
    (hrules : p.ForcesDistinctKeys vars) {table : String} {docs : Json}
    (hdocs : docs.hasDistinctKeys = true) {projection : Projection} {plan : Plan}
    (hplan : p.planInsert vars table docs projection = .ok plan) {s : Session (Recorded σ)}
    (hs : s.driver = d.recorded) {ready : σ → Prop} (hready : ready s.server.server)
    (hobliges : Obliges d s.timeout plan ready) (options : TransactionOptions) :
    ∃ sent objects,
      (runPlan options plan s).2.record = s.record ++ sent.map (Sent.exchange d.dialect) ∧
      (runPlan options plan s).1 = .ok ⟨objects.map fun o => .object (projection.apply o), []⟩ ∧
      Forest p vars table docs sent objects ∧
      (projection.nestsOnce = true → ∀ o ∈ objects, projection.Leaves o (projection.apply o)) := by
  have htree := isTree_of_planInsert hrules hdocs hplan
  obtain ⟨hprojection, root, contents, splits, hinserts⟩ := inserts_of_planInsert hrules hdocs hplan
  obtain ⟨sent, answers, s', hrun, hrecord, htold, hanswered⟩ :=
    runPlan_obliged hobliges hreturns htree ⟨hs, rfl, rfl, rfl⟩ hready options
  have hfulfilled : Fulfilled plan d.dialect s.timeout sent answers :=
    ⟨htree, hreturns, htold, hanswered⟩
  obtain ⟨objects, hforest, hnested⟩ := hfulfilled.forest hinserts
  refine ⟨sent, objects, ?_, ?_, hforest, fun honce o _ => projection.leaves_apply honce o⟩
  · rw [hrun]
    exact hrecord
  · rw [hrun, outcome, htree.root.1, List.flatMap_singleton, hnested, Option.getD_some, hprojection]

section Shop

/-- The number of rows in the text of an insert: each stands in parentheses, and so do the
columns. -/
def insertedRows (sql : String) : Nat := sql.toList.count '(' - 1

/-- A server that returns a row for each row that is inserted, with the next number as its key. -/
def numbering : Driver Nat where
  dialect := .postgres
  description := "Numbering"
  connect := fun next => (.now (.ok ()), next)
  query sql _ := fun next =>
    let keys := (List.range (insertedRows sql)).map fun (i : Nat) =>
      [Cell.int (Int.ofNat (next + i))]
    (.now (.ok ⟨[⟨"id", "", .integer⟩], keys, keys.length, none⟩), next + keys.length)
  execute _ _ := fun next => (.now (.ok .empty), next)
  batch _ := fun next => (.now (.ok ()), next)

def numberingSession : Session (Recorded Nat) where
  driver := numbering.recorded
  clock := ⟨0⟩
  server := ⟨1, []⟩
  lease := ⟨⟨0⟩, false⟩
  timeout := .ofSeconds 1
  inTransaction := false

/-- The text of every statement of a plan has its number of rows, and no rows go under the key of
the numbers. -/
def isNumbered (plan : Plan) : Bool :=
  plan.nodes.all fun n => insertedRows n.sql == n.rows.length && n.parent.all (·.key != "id")

theorem obliges_numbering {plan : Plan} (h : isNumbered plan = true) (timeout : Duration) :
    Obliges numbering timeout plan fun _ => True where
  batch _ _ _ := ⟨⟨Nat.not_lt_zero _, rfl⟩, trivial⟩
  query a _ n hn m hm := by
    have hsql : m.sql = n.sql := by
      rcases hm with rfl | ⟨row, rfl⟩
      · rfl
      · rw [inject_eq]
    refine ⟨_, ⟨Nat.not_lt_zero _, rfl⟩, ⟨?_, ?_⟩, trivial⟩
    · rw [List.length_map, List.length_range, hsql]
      exact eq_of_beq (Bool.and_eq_true_iff.mp (List.all_eq_true.mp h n hn)).1
    · intro column hcolumn child _ below link hbelow hlink hname
      obtain rfl := List.mem_singleton.mp hcolumn
      have hkey :=
        (Bool.and_eq_true_iff.mp (List.all_eq_true.mp h below (List.mem_of_getElem? hbelow))).2
      rw [hlink] at hkey
      exact bne_iff_ne.mp hkey hname.symm

/-- The keys of the orders, and nothing else. -/
def orderKeys : Projection := ⟨[], [("orders", ⟨["id"], []⟩)]⟩

theorem insert_answers_forest_twoUsers : ∃ plan sent objects,
    (shopPlanner .postgres).planInsert [] "users" twoUsers orderKeys = .ok plan ∧
      (runPlan withoutTransaction plan numberingSession).2.record =
        sent.map (Sent.exchange .postgres) ∧
      (runPlan withoutTransaction plan numberingSession).1 =
        .ok ⟨objects.map fun o => .object (orderKeys.apply o), []⟩ ∧
      Forest (shopPlanner .postgres) [] "users" twoUsers sent objects ∧
      (∀ o ∈ objects, orderKeys.Leaves o (orderKeys.apply o)) ∧
      answerTexts numberingSession plan =
        some (["\x7b\"orders\":[\x7b\"id\":3\x7d,\x7b\"id\":5\x7d]\x7d",
          "\x7b\"orders\":[\x7b\"id\":6\x7d]\x7d"], []) := by
  have hrules : (shopPlanner .postgres).ForcesDistinctKeys [] := by
    intro table content forced _ hforced
    obtain rfl : ([] : Object) = forced := Except.ok.inj hforced
    exact List.forall_mem_nil _
  obtain ⟨plan, hplan⟩ := exists_eq_ok
    (x := (shopPlanner .postgres).planInsert [] "users" twoUsers orderKeys) (by decide +kernel)
  have hnumbered : isNumbered plan = true := part_eq (g := isNumbered) hplan (by decide +kernel)
  obtain ⟨sent, objects, hrecord, hresult, hforest, hleaves⟩ :=
    insert_answers_forest (s := numberingSession)
    (by decide) hrules (by decide +kernel) hplan rfl trivial (obliges_numbering hnumbered _)
      withoutTransaction
  exact ⟨plan, sent, objects, hplan, hrecord, hresult, hforest, hleaves (by decide),
    part_eq (g := answerTexts numberingSession) hplan (by decide +kernel)⟩

/-- The orders are asked for twice, once with their keys and once with their totals. -/
def ordersTwice : Projection := ⟨["name"], [("orders", ⟨["id"], []⟩), ("orders", ⟨["total"], []⟩)]⟩

/-- A session on a database that answers with a user and the key of an order. -/
def orderSession : Session (Recorded Scripted) := scriptedSession .postgres [userRow, keyRow 10]

/-- The row that was returned for a user, and under its key the list with the one that was returned
for the order. -/
def annWithOrder : Object := userRow.objectAt 0 ++ arrayOf "orders" [(keyRow 10).objectAt 0]

/-- A nested key that is asked for twice leaves nothing of the rows under it, though one of the two
asks for a key that was returned. -/
theorem twice_named_rows_are_emptied :
    ordersTwice.nestsOnce = false ∧
    (∃ plan, (shopPlanner .postgres).planInsert [] "users" annsTotal ordersTwice = .ok plan ∧
      plan.nodes.map (·.rows.length) = [1, 1] ∧
      (runPlan withoutTransaction plan orderSession).2.record.map rowCount = [some 1, some 1] ∧
      answerTexts orderSession plan =
        some (["\x7b\"name\":\"ann\",\"orders\":[\x7b\x7d]\x7d"], [])) ∧
    ∀ left, ordersTwice.Leaves annWithOrder left →
      (Json.object left).compact = "\x7b\"name\":\"ann\",\"orders\":[\x7b\"id\":10\x7d]\x7d" := by
  refine ⟨by decide, ?_, fun left hleft => ?_⟩
  · obtain ⟨plan, hplan⟩ := exists_eq_ok
      (x := (shopPlanner .postgres).planInsert [] "users" annsTotal ordersTwice) (by decide +kernel)
    obtain ⟨hinserted, hreturned⟩ := Prod.mk.inj (part_eq (b := ([1, 1], [some 1, some 1]))
      (g := fun plan : Plan => (plan.nodes.map (·.rows.length),
        (runPlan withoutTransaction plan orderSession).2.record.map rowCount))
          hplan (by decide +kernel))
    exact ⟨plan, hplan, hinserted, hreturned, part_eq (g := answerTexts orderSession)
      hplan (by decide +kernel)⟩
  · have horder : ∀ inner, (ordersTwice.under "orders").Leaves [("id", .int 10)] inner →
        inner = [("id", .int 10)] := by
      intro inner hinner
      cases hinner with
      | all _ => rfl
      | requested change _ _ => rfl
    cases hleft with
    | all hempty => cases hempty
    | requested change _ hinner =>
        have hkept := horder _ (hinner "orders" (by decide) [("id", .int 10)])
        have hleft : ((annWithOrder.filter fun field => ordersTwice.keeps field.1).map fun field =>
            (field.1, if ordersTwice.nests field.1 then Projection.onItems (change field.1) field.2
              else field.2)) =
            [("name", .text "ann"),
              ("orders", .list [.object (change "orders" [("id", .int 10)])])] := rfl
        rw [hleft, hkept]
        decide +kernel

end Shop

end SqlGateway.Execution
