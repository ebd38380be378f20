import Mathlib.Data.Set.Card
import SqlGateway.Proofs.Assembly.Folding
import SqlGateway.Proofs.Assembly.Labelled
import SqlGateway.Proofs.Json.Cutting
import SqlGateway.Proofs.Query.Joins
import SqlGateway.Proofs.Query.SlotNumbers
import SqlGateway.Proofs.Shop

/-!
# Distinct parents

Root objects are told apart by what the root selection shows of them. Where it shows the primary key
of the main table and nothing that varies under one key, there is exactly one root object for each
key among the rows that the query denotes, and below it stands what was joined to the row of that
key. Where the selection leaves the key out, different rows may fall into one object.
-/
namespace SqlGateway.Assembly

theorem ncard_eq_length {α : Type} {s : Set α} {xs : List α} (hnodup : xs.Nodup)
    (h : ∀ a, a ∈ xs ↔ a ∈ s) : s.ncard = xs.length := by
  classical
  have hs : s = xs.toFinset := by
    ext a
    simp [h]
  rw [hs, Set.ncard_coe_finset, List.toFinset_card_of_nodup hnodup]

open Query (CompiledQuery Compiler Engine JoinClause JoinedRow SelectColumn)
open Request (Field Variables)

/-- The key of the row of the main table that takes part in a joined row. -/
def keyOf (main : String) (key : List String) (j : JoinedRow) : List Cell := key.map (j.cell main)

/-- The keys of the main table among the rows that a query denotes. -/
def keysOf (e : Engine) (key : List String) (q : CompiledQuery) (clauses : List JoinClause) :
    Set (List Cell) :=
  {k | ∃ j ∈ e.passing q clauses, keyOf q.mainTable key j = k}

def IsRoot (column : SelectColumn) : Prop := column.label.level = 0 ∧ column.label.slot = 0

/-- An engine keeps a primary key: it reads the columns of the key by their names, no two rows have
the same key, and no row has none. -/
structure KeepsKey (e : Engine) (main : String) (key : List String) : Prop where
  ne_nil : key ≠ []
  reads : ∀ k ∈ key, ∀ j : JoinedRow, e.value (main ++ "." ++ k) j = j.cell main k
  unique : ∀ a ∈ e.rows main, ∀ b ∈ e.rows main, (∀ k ∈ key, a k = b k) → a = b
  notNull : ∀ a ∈ e.rows main, ∃ k ∈ key, a k ≠ .null

/-- The root selection shows the key of the main table: each column of it under a label of its own,
with values that their texts tell apart, and beside it only what the row of the main table
determines. -/
structure ShowsKey (e : Engine) (key : List String) (q : CompiledQuery) (r : ResultSet) : Prop where
  selected : ∀ k ∈ key, ∃ column ∈ q.columns, IsRoot column ∧
    column.expression = q.mainTable ++ "." ++ k ∧
    (∀ other ∈ q.columns, other.label = column.label → other = column) ∧
    ∀ result ∈ r.columns, result.name = column.label.encode →
      ∀ a ∈ Cell.null :: (e.rows q.mainTable).map (· k),
        ∀ b ∈ Cell.null :: (e.rows q.mainTable).map (· k),
          (a.coerce result.type).compact = (b.coerce result.type).compact → a = b
  plain : ∀ column ∈ q.columns, IsRoot column → column.aggregate = false
  determined : ∀ column ∈ q.columns, IsRoot column → ∀ i j : JoinedRow,
    i q.mainTable = j q.mainTable → e.value column.expression i = e.value column.expression j

/-- What the row of a group contributes to the root. -/
def rootSlice (e : Engine) (q : CompiledQuery) (r : ResultSet) (g : List JoinedRow) : Object :=
  slice r (q.columns.map (e.columnValue g)) 0 0

/-- An object is the root of a group in which a key stands. -/
def IsRootOf (e : Engine) (key : List String) (q : CompiledQuery) (clauses : List JoinClause)
    (r : ResultSet) (o : Object) (k : List Cell) : Prop :=
  ∃ g ∈ e.groups q clauses, ∃ j ∈ g, o = rootSlice e q r g ∧ keyOf q.mainTable key j = k

section Slices
variable {e : Engine} {key : List String} {q : CompiledQuery} {clauses : List JoinClause}
  {r : ResultSet}

theorem cell_mem {main k : String} (hmain : ∀ clause ∈ clauses, clause.table ≠ main) {j : JoinedRow}
    (hj : j ∈ e.joined main clauses) : j.cell main k ∈ Cell.null :: (e.rows main).map (· k) := by
  unfold JoinedRow.cell
  cases hrow : j main with
  | none => exact List.mem_cons_self
  | some row =>
      refine List.mem_cons_of_mem _ (List.mem_map.mpr ⟨row, ?_, rfl⟩)
      exact Engine.main_mem_rows_of_mem_joined hmain hj hrow

theorem main_eq_of_keyOf_eq {main : String} (hkey : KeepsKey e main key)
    (hmain : ∀ clause ∈ clauses, clause.table ≠ main) {i j : JoinedRow}
    (hi : i ∈ e.joined main clauses) (hj : j ∈ e.joined main clauses)
    (h : keyOf main key i = keyOf main key j) : i main = j main := by
  have hcells : ∀ k ∈ key, i.cell main k = j.cell main k := List.map_inj_left.mp h
  have absent : ∀ {i j : JoinedRow} {row : Query.Record}, i ∈ e.joined main clauses →
      i main = some row → j main = none → (∀ k ∈ key, i.cell main k = j.cell main k) → False := by
    intro i j row hi hrow hnone hcells
    obtain ⟨k, hk, hne⟩ := hkey.notNull row (Engine.main_mem_rows_of_mem_joined hmain hi hrow)
    have := hcells k hk
    simp only [JoinedRow.cell, hrow, hnone] at this
    exact hne this
  cases hrow : i main with
  | none =>
      cases hrow' : j main with
      | none => rfl
      | some row => exact (absent hj hrow' hrow fun k hk => (hcells k hk).symm).elim
  | some row =>
      cases hrow' : j main with
      | none => exact (absent hi hrow hrow' hcells).elim
      | some row' =>
          refine congrArg some (hkey.unique row (Engine.main_mem_rows_of_mem_joined hmain hi hrow)
            row' (Engine.main_mem_rows_of_mem_joined hmain hj hrow') fun k hk => ?_)
          simpa only [JoinedRow.cell, hrow, hrow'] using hcells k hk

variable (hkey : KeepsKey e q.mainTable key) (hshows : ShowsKey e key q r)
  (hlabelled : Labelled q.columns r) (hgroupBy : q.groupBy = Compiler.groupTerms q.columns)
  (hmain : ∀ clause ∈ clauses, clause.table ≠ q.mainTable)

include hkey hshows hlabelled hgroupBy hmain

/-- The roots of two groups have the same text exactly if the groups have the same key. -/
theorem sameText_rootSlice_iff {g g' : List JoinedRow} (hg : g ∈ e.groups q clauses)
    (hg' : g' ∈ e.groups q clauses) {i j : JoinedRow} (hi : i ∈ g) (hj : j ∈ g') :
    sameText (rootSlice e q r g) (rootSlice e q r g') = true ↔
      keyOf q.mainTable key i = keyOf q.mainTable key j := by
  have joined {j : JoinedRow} {g : List JoinedRow} (hg : g ∈ e.groups q clauses) (hj : j ∈ g) :
      j ∈ e.joined q.mainTable clauses :=
    (List.mem_filter.mp (Engine.mem_passing_of_mem_group hg hj)).1
  constructor
  · intro hsame
    have hcompact := eq_of_beq hsame
    have htexts := (Json.sameTexts_of_compact hcompact).get?
    refine List.map_inj_left.mpr fun k hk => ?_
    obtain ⟨column, hmem, hroot, hexpression, hunique, happart⟩ := hshows.selected k hk
    obtain ⟨result, hresult, hname, hget⟩ := get?_slice_map hlabelled hmem hunique
    rw [hroot.1, hroot.2] at hget
    have hplain := hshows.plain column hmem hroot
    have htext := htexts column.label.name
    rw [rootSlice, rootSlice, hget, hget, Engine.columnValue_of_mem hgroupBy hmem hplain hg hi,
      Engine.columnValue_of_mem hgroupBy hmem hplain hg' hj, hexpression, hkey.reads k hk,
      hkey.reads k hk] at htext
    exact happart result hresult hname _ (cell_mem hmain (joined hg hi)) _
      (cell_mem hmain (joined hg' hj)) (by simpa using htext)
  · intro heq
    have hrow := main_eq_of_keyOf_eq hkey hmain (joined hg hi) (joined hg' hj) heq
    have hslices : rootSlice e q r g = rootSlice e q r g' := by
      rw [rootSlice, rootSlice, slice_map hlabelled, slice_map hlabelled]
      congr 1
      refine List.filterMap_congr ?_
      rintro ⟨result, column⟩ hpair
      have hmem := (List.of_mem_zip hpair).2
      by_cases hroot : IsRoot column
      · have hplain := hshows.plain column hmem hroot
        have hvalue : e.columnValue g column = e.columnValue g' column := by
          rw [Engine.columnValue_of_mem hgroupBy hmem hplain hg hi,
            Engine.columnValue_of_mem hgroupBy hmem hplain hg' hj,
            hshows.determined column hmem hroot i j hrow]
        simp only [hvalue]
      · exact (if_neg hroot).trans (if_neg hroot).symm
    rw [hslices, sameText_self]

omit hlabelled hmain in
theorem nonempty_of_mem_groups {g : List JoinedRow} (hg : g ∈ e.groups q clauses) : ∃ j, j ∈ g := by
  obtain ⟨k, hk⟩ := List.exists_mem_of_ne_nil key hkey.ne_nil
  obtain ⟨column, hmem, hroot, _⟩ := hshows.selected k hk
  exact Engine.exists_mem_of_mem_groups hgroupBy hmem (hshows.plain column hmem hroot) hg

omit hlabelled hmain in
theorem exists_isRootOf (hanswers : e.Answers q clauses r) {o : Object}
    (ho : o ∈ firsts (slices r r.rows 0 0)) : ∃ k, IsRootOf e key q clauses r o k := by
  obtain ⟨row, hrow, rfl⟩ := List.mem_map.mp (mem_of_mem_firsts ho)
  obtain ⟨g, hg, rfl⟩ := (hanswers.rows row).mp hrow
  obtain ⟨j, hj⟩ := nonempty_of_mem_groups hkey hshows hgroupBy hg
  exact ⟨_, g, hg, j, hj, rfl, rfl⟩

/-- The texts of roots tell the keys that they are the roots of. -/
theorem IsRootOf.sameText_iff {o o' : Object} {k k' : List Cell}
    (h : IsRootOf e key q clauses r o k) (h' : IsRootOf e key q clauses r o' k') :
    sameText o o' = true ↔ k = k' := by
  obtain ⟨g, hg, j, hj, rfl, rfl⟩ := h
  obtain ⟨g', hg', j', hj', rfl, rfl⟩ := h'
  exact sameText_rootSlice_iff hkey hshows hlabelled hgroupBy hmain hg hg' hj hj'

/-- The keys among the joined rows are those of the distinct slices at the root. -/
theorem exists_keys (hanswers : e.Answers q clauses r) : ∃ keyOfRoot : Object → List Cell,
    (∀ o ∈ firsts (slices r r.rows 0 0), IsRootOf e key q clauses r o (keyOfRoot o)) ∧
      ((firsts (slices r r.rows 0 0)).map keyOfRoot).Nodup ∧
      ∀ k, k ∈ (firsts (slices r r.rows 0 0)).map keyOfRoot ↔ k ∈ keysOf e key q clauses := by
  have hroots : ∀ o ∈ firsts (slices r r.rows 0 0), ∃ k, IsRootOf e key q clauses r o k :=
    fun o ho => exists_isRootOf hkey hshows hgroupBy hanswers ho
  choose! keyOfRoot hroot using hroots
  have sound {o o' : Object} {k k' : List Cell} (h : IsRootOf e key q clauses r o k)
      (h' : IsRootOf e key q clauses r o' k') : sameText o o' = true ↔ k = k' :=
    h.sameText_iff hkey hshows hlabelled hgroupBy hmain h'
  refine ⟨keyOfRoot, hroot, ?_, fun k => ⟨?_, ?_⟩⟩
  · rw [List.Nodup, List.pairwise_map]
    refine (firsts_pairwise _).imp_of_mem ?_
    intro o o' ho ho' hdiffers heq
    rw [(sound (hroot o ho) (hroot o' ho')).mpr heq] at hdiffers
    cases hdiffers
  · intro hk
    obtain ⟨o, ho, rfl⟩ := List.mem_map.mp hk
    obtain ⟨g, hg, j, hj, _, hkeyOf⟩ := hroot o ho
    exact ⟨j, Engine.mem_passing_of_mem_group hg hj, hkeyOf⟩
  · rintro ⟨j, hj, rfl⟩
    obtain ⟨g, hg, hmem⟩ := Engine.exists_group hj
    have hrow : q.columns.map (e.columnValue g) ∈ r.rows := (hanswers.rows _).mpr ⟨g, hg, rfl⟩
    -- The slice of the group itself may stand later in the list than one of the same text.
    have hany : (slices r r.rows 0 0).any (sameText · (rootSlice e q r g)) = true :=
      List.any_eq_true.mpr ⟨_, List.mem_map.mpr ⟨_, hrow, rfl⟩, sameText_self _⟩
    rw [← any_firsts] at hany
    obtain ⟨o, ho, hsame⟩ := List.any_eq_true.mp hany
    exact List.mem_map.mpr ⟨o, ho, (sound (hroot o ho) ⟨g, hg, j, hmem, rfl, rfl⟩).mp hsame⟩

end Slices

/-- Distinct parents stay distinct. Where the root selection shows the primary key of the main
table, the root objects correspond to the keys among the rows that the query denotes, one object for
each key, and the rows that are grouped below an object are those with its key. -/
theorem roots_eq_keys_of_compileWith {c : Compiler} {vars : Variables} {limited : Bool} {f : Field}
    {q : CompiledQuery} (h : c.compileWith limited vars f = .ok q)
    (hnested : ∃ g ∈ f.selection, g.isLeaf = false) {e : Engine} {clauses : List JoinClause}
    (hclauses : q.joins = clauses.map JoinClause.text) {r : ResultSet}
    (hanswers : e.Answers q clauses r)
    (hwords : ∀ column ∈ q.columns, column.label.level < Number.wordCount ∧
      column.label.slot < Number.wordCount)
    (hkey : KeepsKey e q.mainTable (c.schema.primaryKey q.mainTable))
    (hshows : ShowsKey e (c.schema.primaryKey q.mainTable) q r) :
    (objects q.slots r).length = (keysOf e (c.schema.primaryKey q.mainTable) q clauses).ncard ∧
      ∃ keys : List (List Cell), keys.Nodup ∧
        (∀ k, k ∈ keys ↔ k ∈ keysOf e (c.schema.primaryKey q.mainTable) q clauses) ∧
        List.Forall₂ (fun k object => ∃ (belongs : List Cell → Bool) (fields : Object),
          object = grouped q.slots r 0 0 (r.rows.filter belongs) fields ∧
          ∀ g ∈ e.groups q clauses, belongs (q.columns.map (e.columnValue g)) = true ↔
            ∀ j ∈ g, keyOf q.mainTable (c.schema.primaryKey q.mainTable) j = k)
          keys (objects q.slots r) := by
  have hlabelled : Labelled q.columns r := ⟨hanswers.labels, hwords⟩
  have hlevel := Compiler.maxLevel_pos_of_compileWith h hnested
  have hmain := Compiler.table_ne_mainTable h hclauses
  obtain ⟨_, _, w, _, _, _, _, hcolumns, _, _, hgroupBy⟩ := Compiler.compileWith_ok h
  rw [← hcolumns] at hgroupBy
  obtain ⟨keyOfRoot, hroot, hnodup, hkeys⟩ :=
    exists_keys hkey hshows hlabelled hgroupBy hmain hanswers
  have hobjects : objects q.slots r = (firsts (slices r r.rows 0 0)).map fun o =>
      grouped q.slots r 0 0 (rowsOf r r.rows 0 0 o) o := by
    rw [objects_eq_groupedRoots (fun level slot here hhere =>
      (Compiler.numbered_of_compileWith h level slot here hhere).1) r, groupedRoots,
      if_neg (by omega)]
  refine ⟨?_, _, hnodup, hkeys, ?_⟩
  · rw [ncard_eq_length hnodup hkeys, hobjects, List.length_map, List.length_map]
  · rw [hobjects, List.forall₂_map_left_iff, List.forall₂_map_right_iff, List.forall₂_same]
    intro o ho
    refine ⟨fun row => sameText o (slice r row 0 0), o, rfl, fun g hg => ?_⟩
    have hsame {j : JoinedRow} (hj : j ∈ g) : sameText o (rootSlice e q r g) = true ↔
        keyOfRoot o = keyOf q.mainTable (c.schema.primaryKey q.mainTable) j :=
      (hroot o ho).sameText_iff hkey hshows hlabelled hgroupBy hmain ⟨g, hg, j, hj, rfl, rfl⟩
    constructor
    · exact fun hbelongs j hj => ((hsame hj).mp hbelongs).symm
    · intro hall
      obtain ⟨j, hj⟩ := nonempty_of_mem_groups hkey hshows hgroupBy hg
      exact (hsame hj).mpr (hall j hj).symm

section Shop
open Query (Record)

def user (id : Cell) (name : String) : Record := fun column =>
  if column = "id" then id else .text name

def order (id user total : Int) : Record := fun column =>
  .int (if column = "id" then id else if column = "user_id" then user else total)

/-- An engine with users and orders, which an order joins by the number of its user. -/
def shopEngine (users orders : List Record) : Engine where
  rows table := if table = "users" then users else if table = "orders" then orders else []
  holds _ j :=
    match j.cell "users" "id", j.cell "orders" "user_id" with
    | .int a, .int b => a == b
    | _, _ => false
  value expression j :=
    match Name.segments '.' expression.toList with
    | [table, column] => j.cell (String.ofList table) (String.ofList column)
    | _ => .null
  total _ _ := .null

def toOrders : JoinClause := ⟨.left, "orders", "users.id = orders.user_id", by decide⟩

/-- Two users of one name, each with an order of the same total. -/
def namesakes : Engine :=
  shopEngine [user (.int 1) "ann", user (.int 2) "ann"] [order 10 1 5, order 11 2 5]

theorem keepsKey_shopEngine {users orders : List Record}
    (hunique : ∀ a ∈ users, ∀ b ∈ users, a "id" = b "id" → a = b)
    (hnotNull : ∀ a ∈ users, a "id" ≠ .null) :
    KeepsKey (shopEngine users orders) "users" ["id"] where
  ne_nil := by decide
  reads k hk j := by
    obtain rfl := List.mem_singleton.mp hk
    rfl
  unique a ha b hb h := hunique a ha b hb (h "id" (by simp))
  notNull a ha := ⟨"id", by simp, hnotNull a ha⟩

theorem keepsKey_namesakes : KeepsKey namesakes "users" ["id"] := by
  refine keepsKey_shopEngine ?_ ?_ <;>
    simp +contextual only [List.mem_cons, List.not_mem_nil, or_false, forall_eq_or_imp,
      forall_eq] <;>
    simp [user]

theorem passing_of_no_filter {e : Engine} {q : CompiledQuery} (hmain : q.mainTable = "users")
    (hfilter : q.filter = none) : e.passing q [toOrders] = e.joined "users" [toOrders] := by
  rw [Engine.passing, hmain, hfilter]
  exact List.filter_eq_self.mpr fun _ _ => rfl

def usersById : Field :=
  Shop.nested "users" [Shop.leaf "id", Shop.leaf "name", Shop.nested "orders" [Shop.leaf "total"]]

def usersByIdRows : ResultSet where
  columns :=
    [⟨"L0~~0**id", "", .integer⟩, ⟨"L0~~0**name", "", .text⟩, ⟨"L1~~0**total", "", .integer⟩]
  rows := [[.int 1, .text "ann", .int 5], [.int 2, .text "ann", .int 5]]
  affected := 2
  lastId := none

theorem roots_eq_keys_namesakes : ∃ q, Shop.compiler.compileWith true [] usersById = .ok q ∧
    namesakes.Answers q [toOrders] usersByIdRows ∧
    (objects q.slots usersByIdRows).length = (keysOf namesakes ["id"] q [toOrders]).ncard := by
  obtain ⟨q, hq⟩ :=
    exists_eq_ok (x := Shop.compiler.compileWith true [] usersById) (by decide +kernel)
  have hkeyColumns : Shop.compiler.schema.primaryKey "users" = ["id"] := by decide +kernel
  have hmain : q.mainTable = "users" := part_eq hq (by decide +kernel)
  have hfilter : q.filter = none := part_eq hq (by decide +kernel)
  have hjoins : q.joins = [toOrders].map JoinClause.text := part_eq hq (by decide +kernel)
  have hcolumns :
    q.columns = [⟨"users.id", ⟨0, 0, "id"⟩, false⟩, ⟨"users.name", ⟨0, 0, "name"⟩, false⟩,
    ⟨"orders.total", ⟨1, 0, "total"⟩, false⟩] := part_eq hq (by decide +kernel)
  have hlabels : usersByIdRows.columns.map (·.name) = q.columns.map (·.label.encode) := by
    rw [hcolumns]
    decide +kernel
  have hanswers : namesakes.Answers q [toOrders] usersByIdRows := by
    refine Engine.answers_of_plain (by simp [hcolumns]) hlabels ?_
    rw [passing_of_no_filter hmain hfilter, hcolumns]
    rfl
  refine ⟨q, hq, hanswers, ?_⟩
  have hnested : ∃ g ∈ usersById.selection, g.isLeaf = false := by decide
  have hshows : ShowsKey namesakes ["id"] q usersByIdRows := by
    refine ⟨fun k hk => ?_, ?_, ?_⟩
    · obtain rfl := List.mem_singleton.mp hk
      refine ⟨⟨"users.id", ⟨0, 0, "id"⟩, false⟩, by simp [hcolumns], ⟨rfl, rfl⟩, by rw [hmain]; rfl,
        by simp [hcolumns], fun result hresult hname a ha b hb htext => ?_⟩
      have hinteger : result.type = .integer := by
        simp only [usersByIdRows, List.mem_cons, List.not_mem_nil, or_false] at hresult
        obtain rfl | rfl | rfl := hresult
        · rfl
        · exact absurd hname (by decide +kernel)
        · rfl
      simp only [hmain, namesakes, shopEngine, if_true, List.map_cons, List.map_nil, List.mem_cons,
        List.not_mem_nil, or_false, hinteger] at ha hb htext
      obtain rfl | rfl | rfl := ha <;> obtain rfl | rfl | rfl := hb <;>
        first | rfl | exact absurd htext (by decide +kernel)
    · simp [hcolumns]
    · intro column hcolumn hroot i j hij
      simp only [hcolumns, List.mem_cons, List.not_mem_nil, or_false] at hcolumn
      rw [hmain] at hij
      have hcell (name : String) : i.cell "users" name = j.cell "users" name := by
        simp only [JoinedRow.cell, hij]
      obtain rfl | rfl | rfl := hcolumn
      · exact hcell "id"
      · exact hcell "name"
      · exact absurd hroot.1 (by decide)
  have hcount := (roots_eq_keys_of_compileWith hq hnested hjoins hanswers
    (by simp [hcolumns, Number.wordCount])
    (by rw [hmain, hkeyColumns]; exact keepsKey_namesakes)
    (by rw [hmain, hkeyColumns]; exact hshows)).1
  rwa [hmain, hkeyColumns] at hcount

/-- A selection whose answer has another number of root objects than keys. -/
def Miscounts (c : Compiler) (f : Field) (e : Engine) (r : ResultSet) : Prop :=
  ∃ q, c.compileWith true [] f = .ok q ∧ q.joins = [toOrders].map JoinClause.text ∧
    e.Answers q [toOrders] r ∧ KeepsKey e q.mainTable (c.schema.primaryKey q.mainTable) ∧
    (objects q.slots r).length ≠
      (keysOf e (c.schema.primaryKey q.mainTable) q [toOrders]).ncard

theorem miscounts_of_joined {c : Compiler} {f : Field} {e : Engine} {r : ResultSet}
    (columns : List SelectColumn) (count : Nat) (keys : List (List Cell))
    (hparts : (c.compileWith true [] f).toOption.map (fun q => (q.mainTable, q.filter, q.joins,
      q.columns, (objects q.slots r).length)) =
        some ("users", none, [toOrders.text], columns, count))
    (hplain : columns.any (·.aggregate) = false)
    (hlabels : r.columns.map (·.name) = columns.map (·.label.encode))
    (hrows : r.rows = (e.joined "users" [toOrders]).map fun j =>
      columns.map fun column => e.value column.expression j)
    (hkeyColumns : c.schema.primaryKey "users" = ["id"]) (hkey : KeepsKey e "users" ["id"])
    (hnodup : keys.Nodup)
    (hkeys : ∀ k, k ∈ keys ↔ k ∈ (e.joined "users" [toOrders]).map (keyOf "users" ["id"]))
    (hcount : count ≠ keys.length) : Miscounts c f e r := by
  obtain ⟨q, hq, hparts⟩ := Option.map_eq_some_iff.mp hparts
  obtain ⟨hmain, hfilter, hjoins, hcolumns, hlength⟩ : q.mainTable = "users" ∧ q.filter = none ∧
      q.joins = [toOrders.text] ∧ q.columns = columns ∧ (objects q.slots r).length = count := by
    simpa using hparts
  have hok : c.compileWith true [] f = .ok q := by
    cases h : c.compileWith true [] f with
    | error _ => simp [h, Except.toOption] at hq
    | ok _ => simpa [h, Except.toOption] using hq
  have hpassing : e.passing q [toOrders] = e.joined "users" [toOrders] :=
    passing_of_no_filter hmain hfilter
  refine ⟨q, hok, hjoins, Engine.answers_of_plain ?_ ?_ ?_, ?_, ?_⟩
  · rwa [hcolumns]
  · rwa [hcolumns]
  · rw [hpassing, hcolumns, hrows]
  · rwa [hmain, hkeyColumns]
  · rw [hmain, hkeyColumns, hlength, ncard_eq_length hnodup fun k => ?_]
    · exact hcount
    · rw [hkeys, keysOf, hpassing, hmain]
      exact List.mem_map

def usersByName : Field :=
  Shop.nested "users" [Shop.leaf "name", Shop.nested "orders" [Shop.leaf "total"]]

def usersByNameRows : ResultSet where
  columns := [⟨"L0~~0**name", "", .text⟩, ⟨"L1~~0**total", "", .integer⟩]
  rows := [[.text "ann", .int 5], [.text "ann", .int 5]]
  affected := 2
  lastId := none

def regular : Engine := shopEngine [user (.int 1) "ann"] [order 10 1 5, order 11 1 6]

def usersWithTotals : Field :=
  Shop.nested "users" [Shop.leaf "id",
    ⟨some "total", "sum", [⟨"calc", .text "orders.total"⟩], [], []⟩,
    Shop.nested "orders" [Shop.leaf "id"]]

def usersWithTotalsRows : ResultSet where
  columns :=
    [⟨"L0~~0**id", "", .integer⟩, ⟨"L0~~0**total", "", .integer⟩, ⟨"L1~~0**id", "", .integer⟩]
  rows := [[.int 1, .int 5, .int 10], [.int 1, .int 6, .int 11]]
  affected := 2
  lastId := none

def longKeys : Engine :=
  shopEngine [user (.text "9007199254740992") "ann", user (.text "9007199254740993") "ann"] []

def longKeysRows : ResultSet where
  columns :=
    [⟨"L0~~0**id", "", .decimal⟩, ⟨"L0~~0**name", "", .text⟩, ⟨"L1~~0**total", "", .integer⟩]
  rows := [[.text "9007199254740992", .text "ann", .null],
    [.text "9007199254740993", .text "ann", .null]]
  affected := 2
  lastId := none

/-- Root objects and keys part company where the key is left out of the selection, where the root
shows a calculation over another table, and where two keys are one number in the answer. -/
theorem roots_ne_keys : Miscounts Shop.compiler usersByName namesakes usersByNameRows ∧
    Miscounts Shop.compiler usersWithTotals regular usersWithTotalsRows ∧
    Miscounts { Shop.compiler with schema := Shop.registryWith .decimal } usersById longKeys
      longKeysRows := by
  refine ⟨?_, ?_, ?_⟩
  · exact miscounts_of_joined
      [⟨"users.name", ⟨0, 0, "name"⟩, false⟩, ⟨"orders.total", ⟨1, 0, "total"⟩, false⟩]
      1 [[.int 1], [.int 2]] (by decide +kernel) rfl (by decide +kernel) rfl (by decide +kernel)
      keepsKey_namesakes (by simp) (fun _ => Iff.rfl) (by decide)
  · refine miscounts_of_joined
      [⟨"users.id", ⟨0, 0, "id"⟩, false⟩, ⟨"orders.total", ⟨0, 0, "total"⟩, false⟩,
        ⟨"orders.id", ⟨1, 0, "id"⟩, false⟩]
      2 [[.int 1]] (by decide +kernel) rfl (by decide +kernel) rfl (by decide +kernel)
      (keepsKey_shopEngine (by simp) (by simp [user])) (by simp) (fun k => ?_) (by decide)
    change k ∈ [[Cell.int 1]] ↔ k ∈ [[Cell.int 1], [Cell.int 1]]
    simp
  · refine miscounts_of_joined
      [⟨"users.id", ⟨0, 0, "id"⟩, false⟩, ⟨"users.name", ⟨0, 0, "name"⟩, false⟩,
        ⟨"orders.total", ⟨1, 0, "total"⟩, false⟩]
      1 [[.text "9007199254740992"], [.text "9007199254740993"]] (by decide +kernel) rfl
      (by decide +kernel) rfl (by decide +kernel) (keepsKey_shopEngine ?_ ?_) (by simp)
      (fun _ => Iff.rfl) (by decide) <;>
      simp +contextual only [List.mem_cons, List.not_mem_nil, or_false, forall_eq_or_imp,
        forall_eq] <;>
      simp [user]

end Shop

end SqlGateway.Assembly
