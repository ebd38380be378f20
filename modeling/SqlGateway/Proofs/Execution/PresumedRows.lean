import SqlGateway.Proofs.Execution.ForeignKeys
import SqlGateway.Proofs.Json.Object

/-!
# Nested writes without returned rows

What the statements of nested documents bind where the database answers no write with rows. The row
of the parent is then made up from what is known of it: of an insert the written values and the
generated key, of an update nothing but a count. A join column that is not among these is bound to
null, and the statement is sent all the same.

An engine that returns no rows numbers the rows of an insert that come without a key, one after
another, and reports the first number. The rows that are made up from that report keep the keys that
were written, and to every other row give the reported number and its place in the insert. Every row
before it that came with a key shifts that away from the number that the engine took, and with it
what the children of the row are bound to.
-/
namespace SqlGateway.Execution

open Connection (Driver Recorded Session)
open Mutation
open Request (Variables)

/-- The value that an insert wrote into a column of a row. -/
def writtenValue? (n : WriteNode) (row : Nat) (column : String) : Option Json :=
  (n.rows[row]?).bind fun values => Object.get? column (Object.ofFields (n.columns.zip values))

/-- The value of a column in a row of an insert, as far as it is known: the one that was written, or
the generated key where none was. -/
def ownValue? (n : WriteNode) (r : ResultSet) (row : Nat) (column : String) : Option Json :=
  let written := writtenValue? n row column
  if n.generatedKey = some column ∧ (written.getD .null).isNull = true then
    (r.lastId.map fun first => .int (Number.asInt64 (first + row))).or written
  else written

/-- What a child statement binds for a pair of the join, where rows are made up. Below an insert it
is the parent's own value; one is known exactly if the insert wrote the column or the engine
reported it as the generated key, and else null takes its place. Below any other write it is null,
unless the column has the name of the count. -/
structure HandsDown (parent : Sent) (r : ResultSet) (row : Nat) (w : Sent)
    (pair : String × String) : Prop where
  insert : parent.node.kind = .insert →
    (pair.2, (ownValue? parent.node r row pair.1).getD .null) ∈
      w.node.columns.zip w.node.parameters ∧
      ((ownValue? parent.node r row pair.1).isSome = true ↔ pair.1 ∈ parent.node.columns ∨
        parent.node.generatedKey = some pair.1 ∧ r.lastId.isSome = true)
  other : parent.node.kind ≠ .insert →
    (pair.2, if pair.1 = "affected_rows" then .int r.affected else .null) ∈
      w.node.columns.zip w.node.parameters

section Presumed
variable {n : WriteNode} {r : ResultSet} {row : Nat} {column : String}

theorem isSome_writtenValue? (hrow : row < n.rows.length)
    (hwidth : ∀ values ∈ n.rows, values.length = n.columns.length) :
    (writtenValue? n row column).isSome = true ↔ column ∈ n.columns := by
  rw [writtenValue?, List.getElem?_eq_getElem hrow, Option.bind_some]
  change Object.contains column _ = true ↔ _
  rw [Object.contains_ofFields, Object.contains_iff_mem_keys, Object.keys,
    List.map_fst_zip (Nat.le_of_eq (hwidth _ (List.getElem_mem hrow)).symm)]

theorem isSome_ownValue? (hrow : row < n.rows.length)
    (hwidth : ∀ values ∈ n.rows, values.length = n.columns.length) :
    (ownValue? n r row column).isSome = true ↔
      column ∈ n.columns ∨ n.generatedKey = some column ∧ r.lastId.isSome = true := by
  have hwritten : (writtenValue? n row column).isSome = true ↔ column ∈ n.columns :=
    isSome_writtenValue? hrow hwidth
  unfold ownValue?
  extract_lets written
  split
  · rename_i h
    simp only [Option.isSome_or, Option.isSome_map, Bool.or_eq_true, h.1, true_and]
    rw [← hwritten, or_comm]
  · rename_i h
    rw [← hwritten]
    refine ⟨.inl, fun hor => hor.elim id fun hkey => ?_⟩
    -- Where nothing was written the generated key would have been taken.
    by_contra hnone
    have : written = none := by simpa using hnone
    exact h ⟨hkey.1, by rw [this]; rfl⟩

theorem get?_presumedRow (hkind : n.kind = .insert) (hrow : row < n.rows.length) :
    Object.get? column (((presumedRows n r)[row]?).getD []) = ownValue? n r row column := by
  have hpresumed : (presumedRows n r)[row]? = some (insertedRow n r.lastId row n.rows[row]) := by
    simp only [presumedRows, hkind, List.getElem?_mapIdx, List.getElem?_eq_getElem hrow,
      Option.map_some]
  have hwritten : writtenValue? n row column =
      Object.get? column (Object.ofFields (n.columns.zip n.rows[row])) := by
    rw [writtenValue?, List.getElem?_eq_getElem hrow, Option.bind_some]
  rw [hpresumed, Option.getD_some, ownValue?, hwritten]
  unfold insertedRow
  cases n.generatedKey with
  | none => simp
  | some key =>
      cases r.lastId with
      | none => simp
      | some first =>
          dsimp only
          by_cases hkey : key = column
          · subst hkey
            split <;> simp [*]
          · have hne : column ≠ key := fun h => hkey h.symm
            split <;> simp [hkey, Object.get?_insert_of_ne _ _ hne]

theorem handsDown_of_binds {dialect : Dialect} {parent w : Sent} {group : ChildGroup}
    {child : SplitDocument}
    (hwidth : ∀ values ∈ parent.node.rows, values.length = parent.node.columns.length)
    (h : Binds dialect parent (presumedRows parent.node r) row w group child)
    {pair : String × String} (hpair : pair ∈ missing group.join child.columns) :
    HandsDown parent r row w pair := by
  have hbound : (pair.2, linkedValue (((presumedRows parent.node r)[row]?).getD []) pair.1) ∈
      w.node.columns.zip w.node.parameters := by
    rw [h.values]
    exact List.mem_append_right _ (List.mem_map.mpr ⟨pair, hpair, rfl⟩)
  have hanswered := h.answered (List.ne_nil_of_mem hpair)
  constructor
  · intro hkind
    have hrow : row < parent.node.rows.length := by
      simpa [presumedRows, hkind] using hanswered
    refine ⟨?_, isSome_ownValue? hrow hwidth⟩
    rwa [linkedValue, get?_presumedRow hkind hrow] at hbound
  · intro hkind
    have hcount : presumedRows parent.node r = [[("affected_rows", .int r.affected)]] := by
      unfold presumedRows
      split
      · exact absurd ‹_› hkind
      · rfl
    rw [hcount] at hbound hanswered
    obtain rfl : row = 0 := by simpa using hanswered
    by_cases hname : pair.1 = "affected_rows"
    · simpa [linkedValue, Object.get?, hname] using hbound
    · simpa [linkedValue, Object.get?, hname, Ne.symm hname] using hbound

end Presumed

/-- Where the database returns no rows, every child statement of a run is bound to a row that is
made up. -/
theorem propagates_made_up_rows {σ : Type} {d : Driver σ} {s : Session (Recorded σ)}
    (hs : s.driver = d.recorded) {p : Planner} (hd : d.dialect = p.dialect)
    (hreturns : p.dialect.returning = .unsupported) {vars : Variables} {table : String}
    {docs : Json}
    {projection : Projection} {plan : Plan} (h : Plans p vars table docs projection plan)
    (options : TransactionOptions) :
    ∃ sent, (runPlan options plan s).2.record = s.record ++ sent.map (Sent.exchange p.dialect) ∧
      Propagates p vars table docs plan (fun parent r row w group child =>
        Binds p.dialect parent (presumedRows parent.node r) row w group child) sent := by
  obtain ⟨documents, hplan⟩ := h.planned
  obtain ⟨_, hsends, sent, answers, rfl, hran⟩ := sending_runPlan options s hs
  rw [hd] at hsends hran
  have hrows : rowsOf p.dialect = presumedRows := by
    funext n r
    unfold rowsOf
    rw [hreturns]
  have hpropagates := propagates_of_ran hplan hran
  rw [hrows] at hpropagates
  exact ⟨sent, hsends.record, hpropagates⟩

/-- Where the database returns no rows, every child statement of a run binds what is known of its
parent without them: it is sent with null in the place of every join column that is not known. -/
theorem propagates_presumed_rows {σ : Type} {d : Driver σ} {s : Session (Recorded σ)}
    (hs : s.driver = d.recorded) {p : Planner} (hd : d.dialect = p.dialect)
    (hreturns : p.dialect.returning = .unsupported) {vars : Variables} {table : String}
    {docs : Json}
    {projection : Projection} {plan : Plan} (h : Plans p vars table docs projection plan)
    (options : TransactionOptions) :
    ∃ sent, (runPlan options plan s).2.record = s.record ++ sent.map (Sent.exchange p.dialect) ∧
      Propagates p vars table docs plan (fun parent r row w group child =>
        Binds p.dialect parent (presumedRows parent.node r) row w group child ∧
          ∀ pair ∈ missing group.join child.columns, HandsDown parent r row w pair) sent := by
  obtain ⟨sent, hrecord, hpropagates⟩ := propagates_made_up_rows hs hd hreturns h options
  refine ⟨sent, hrecord, hpropagates.mono ?_⟩
  intro parent r row w group child hwidth hbinds
  exact ⟨hbinds, fun pair hpair => handsDown_of_binds hwidth hbinds hpair⟩

section Shop

/-- The answer to a write of an engine without returned rows. -/
def countRow (affected : Nat) (lastId : Option Int) : ResultSet := ⟨[], [], affected, lastId⟩

theorem propagates_presumed_annsOrder : ∃ plan,
    Plans (shopPlanner .mysql) [] "users" annsOrder .empty plan ∧
    ∃ sent, (runPlan withoutTransaction plan
        (scriptedSession .mysql [countRow 1 (some 1), countRow 1 (some 10)])).2.record =
          sent.map (Sent.exchange .mysql) ∧
      Propagates (shopPlanner .mysql) [] "users" annsOrder plan (fun parent r row w group child =>
        Binds .mysql parent (presumedRows parent.node r) row w group child ∧
          ∀ pair ∈ missing group.join child.columns, HandsDown parent r row w pair) sent := by
  obtain ⟨plan, hplan⟩ := exists_eq_ok
    (x := (shopPlanner .mysql).planInsert [] "users" annsOrder .empty) (by decide +kernel)
  refine ⟨plan, .inl hplan, ?_⟩
  exact propagates_presumed_rows
    (s := scriptedSession .mysql [countRow 1 (some 1), countRow 1 (some 10)])
    rfl rfl rfl (.inl hplan) withoutTransaction

/-- Below an update an order is inserted without its user. -/
theorem null_bound_below_update : ∃ plan,
    Plans (shopPlanner .mysql) [] "users" annsTotal .empty plan ∧
      statementsOf .mysql [countRow 1 none] plan =
        [("update users set name = ?", ["\"ann\""]),
          ("insert into orders (total, user_id) values (?, ?)", ["5", "null"])] := by
  obtain ⟨plan, hplan⟩ := exists_eq_ok
    (x := (shopPlanner .mysql).planUpdate [] "users" annsTotal none .empty) (by decide +kernel)
  refine ⟨plan, .inr ⟨none, hplan⟩, ?_⟩
  exact part_eq (g := statementsOf .mysql [countRow 1 none]) hplan (by decide +kernel)

end Shop

/-- The key that an insert supplies for a row: a written value that is not null. -/
def ownKey? (n : WriteNode) (key : String) (values : List Json) : Option Json :=
  (Object.get? key (Object.ofFields (n.columns.zip values))).filter (!·.isNull)

/-- The keys that an insert supplies, row by row. -/
def suppliedKeys (n : WriteNode) (key : String) : List (Option Json) := n.rows.map (ownKey? n key)

/-- The keys of rows whose own keys are given, if the others are numbered in their order. -/
def numberedKeys : (next : Int) → List (Option Json) → List Json
  | _, [] => []
  | next, some own :: rest => own :: numberedKeys next rest
  | next, none :: rest => .int next :: numberedKeys (next + 1) rest

/-- The keys that the rows of an insert have in the database, where the engine numbers from `first`
on. -/
def assignedKeys (n : WriteNode) (key : String) (first : Int) : List Json :=
  numberedKeys first (suppliedKeys n key)

/-- An engine generates the key of an insert and answers with the first number that it takes. -/
structure Numbers (n : WriteNode) (key : String) (r : ResultSet) (first : Int) : Prop where
  kind : n.kind = .insert
  generated : n.generatedKey = some key
  reported : none ∈ suppliedKeys n key → r.lastId = some first

/-- How many rows before a row come without a key. -/
def numberedBefore (n : WriteNode) (key : String) (row : Nat) : Nat :=
  ((suppliedKeys n key).take row).countP (·.isNone)

/-- How many rows before a row come with a key. -/
def suppliedBefore (n : WriteNode) (key : String) (row : Nat) : Nat :=
  ((suppliedKeys n key).take row).countP (·.isSome)

/-- Where the made-up key of a row is the one it has in the database: the row comes with its key, or
its number fits a word with a sign and no row before it came with a key, up to a count that a word
does not show. -/
def InStep (n : WriteNode) (key : String) (first : Int) (row : Nat) : Prop :=
  (∃ own, (suppliedKeys n key)[row]? = some (some own)) ∨
    Number.asInt64 (first + numberedBefore n key row) = first + numberedBefore n key row ∧
      Number.wordCount ∣ suppliedBefore n key row

section Numbering

theorem getElem?_numberedKeys (first : Int) (supplied : List (Option Json)) (row : Nat) :
    (numberedKeys first supplied)[row]? = (supplied[row]?).map fun own =>
      own.getD (.int (first + (supplied.take row).countP (·.isNone))) := by
  induction supplied generalizing first row with
  | nil => rfl
  | cons own rest ih =>
      cases own with
      | some own =>
          cases row with
          | zero => rfl
          | succ row => simpa [numberedKeys] using ih first row
      | none =>
          cases row with
          | zero => simp [numberedKeys]
          | succ row =>
              have hnext : ∀ counted : Nat, first + 1 + counted = first + (counted + 1 : Nat) := by
                intro counted
                omega
              rw [numberedKeys, List.getElem?_cons_succ, ih, List.getElem?_cons_succ,
                List.take_succ_cons, List.countP_cons_of_pos rfl, hnext]

/-- A wrapped sum is its first part just if that fits and the rest is a number of whole words. -/
theorem asInt64_add_eq_iff (a : Int) (k : Nat) :
    Number.asInt64 (a + k) = a ↔ Number.asInt64 a = a ∧ Number.wordCount ∣ k := by
  unfold Number.asInt64
  constructor
  · intro h
    have hfits : a.bmod Number.wordCount = a := by
      rw [← h, Int.bmod_bmod]
    refine ⟨hfits, ?_⟩
    have hdvd : (Number.wordCount : Int) ∣ (a + k) - (a + k).bmod Number.wordCount :=
      Int.dvd_self_sub_bmod
    have hrest : a + k - a = k := by omega
    rw [h, hrest] at hdvd
    exact Int.natCast_dvd_natCast.mp hdvd
  · rintro ⟨hfits, words, rfl⟩
    rw [Int.natCast_mul, Int.add_mul_bmod_self_left, hfits]

variable {n : WriteNode} {r : ResultSet} {key : String} {first : Int} {row : Nat}

theorem numberedBefore_add_suppliedBefore (hrow : row < n.rows.length) :
    numberedBefore n key row + suppliedBefore n key row = row := by
  have hlength : ((suppliedKeys n key).take row).length = row := by
    rw [List.length_take, suppliedKeys, List.length_map]
    exact Nat.min_eq_left (Nat.le_of_lt hrow)
  have hsplit := List.length_eq_countP_add_countP (fun own : Option Json => own.isNone)
    (l := (suppliedKeys n key).take row)
  have hothers : ((suppliedKeys n key).take row).countP (fun own => decide ¬ own.isNone = true) =
      suppliedBefore n key row := List.countP_congr fun own _ => by cases own <;> simp
  rw [hothers, hlength] at hsplit
  exact hsplit.symm

theorem getElem?_suppliedKeys (row : Nat) :
    (suppliedKeys n key)[row]? = (n.rows[row]?).map (ownKey? n key) := List.getElem?_map

/-- The made-up key of a row is its own, or the reported number and the place of the row. -/
theorem get?_key_presumedRow (h : Numbers n key r first) (hrow : row < n.rows.length) :
    Object.get? key (((presumedRows n r)[row]?).getD []) =
      ((suppliedKeys n key)[row]?).map fun own =>
        own.getD (.int (Number.asInt64 (first + row))) := by
  have hwritten :
      writtenValue? n row key = Object.get? key (Object.ofFields (n.columns.zip n.rows[row])) := by
    rw [writtenValue?, List.getElem?_eq_getElem hrow, Option.bind_some]
  have hsupplied : (suppliedKeys n key)[row]? = some (ownKey? n key n.rows[row]) := by
    rw [getElem?_suppliedKeys, List.getElem?_eq_getElem hrow, Option.map_some]
  rw [get?_presumedRow h.kind hrow, ownValue?, hwritten, hsupplied, Option.map_some]
  cases hown : ownKey? n key n.rows[row] with
  | some own =>
      obtain ⟨hvalue, hnotnull⟩ := Option.filter_eq_some_iff.mp hown
      have hkept : ¬ (n.generatedKey = some key ∧ ((some own).getD .null).isNull = true) :=
        fun hnull => by simp [show own.isNull = true from hnull.2] at hnotnull
      rw [hvalue, if_neg hkept, Option.getD_some]
  | none =>
      have hnull :
          ((Object.get? key (Object.ofFields (n.columns.zip n.rows[row]))).getD .null).isNull =
            true := by
        cases hvalue : Object.get? key (Object.ofFields (n.columns.zip n.rows[row])) with
        | none => rfl
        | some value => simpa using Option.filter_eq_none_iff.mp hown value hvalue
      have hlast := h.reported (List.mem_of_getElem? (hsupplied.trans (congrArg some hown)))
      rw [if_pos ⟨h.generated, hnull⟩, hlast]
      rfl

/-- The made-up key of a row is the one that the engine gave it just if the row is in step. -/
theorem get?_key_presumedRow_eq_iff (h : Numbers n key r first) (hrow : row < n.rows.length) :
    Object.get? key (((presumedRows n r)[row]?).getD []) = (assignedKeys n key first)[row]? ↔
      InStep n key first row := by
  have hplace : first + (row : Int) =
      first + numberedBefore n key row + (suppliedBefore n key row : Int) := by
    have hrows : numberedBefore n key row + suppliedBefore n key row = row :=
      numberedBefore_add_suppliedBefore hrow
    omega
  rw [get?_key_presumedRow h hrow, assignedKeys, getElem?_numberedKeys, ← numberedBefore, InStep]
  rw [getElem?_suppliedKeys, List.getElem?_eq_getElem hrow, Option.map_some]
  cases ownKey? n key n.rows[row] with
  | some own => simp
  | none =>
      have hsome : ¬ ∃ own : Json, some (none : Option Json) = some (some own) := by simp
      rw [or_iff_right hsome, Option.map_some, Option.map_some, Option.getD_none,
        Option.getD_none, hplace, ← asInt64_add_eq_iff]
      simp

/-- A child binds the number that the engine gave to its parent's row just if that row is in
step. -/
theorem HandsDown.binds_assigned_iff {parent w : Sent} {column : String}
    (hhands : HandsDown parent r row w (key, column)) (h : Numbers parent.node key r first)
    (hrow : row < parent.node.rows.length) :
    ∃ bound, (column, bound) ∈ w.node.columns.zip w.node.parameters ∧
      ((assignedKeys parent.node key first)[row]? = some bound ↔
        InStep parent.node key first row) := by
  obtain ⟨hbound, _⟩ := hhands.insert h.kind
  obtain ⟨value, hvalue⟩ : ∃ value, ownValue? parent.node r row key = some value := by
    rw [← get?_presumedRow h.kind hrow, get?_key_presumedRow h hrow, getElem?_suppliedKeys,
      List.getElem?_eq_getElem hrow]
    exact ⟨_, rfl⟩
  refine ⟨value, by simpa [hvalue] using hbound, ?_⟩
  rw [← get?_key_presumedRow_eq_iff h hrow, get?_presumedRow h.kind hrow, hvalue, eq_comm]

end Numbering

/-- Where the database returns no rows and numbers the rows of an insert, the key that is made up
for a row is the one that the row has, and the children of the row are bound to it, just if the row
is in step: it came with its key, or no row before it did. -/
theorem generated_keys_assigned_iff {σ : Type} {d : Driver σ} {s : Session (Recorded σ)}
    (hs : s.driver = d.recorded) {p : Planner} (hd : d.dialect = p.dialect)
    (hreturns : p.dialect.returning = .unsupported) {vars : Variables} {table : String}
    {docs : Json}
    {projection : Projection} {plan : Plan} (h : Plans p vars table docs projection plan)
    (options : TransactionOptions) :
    ∃ sent, (runPlan options plan s).2.record = s.record ++ sent.map (Sent.exchange p.dialect) ∧
      (∀ w ∈ sent, ∀ r key first, Numbers w.node key r first → ∀ row < w.node.rows.length,
        (Object.get? key (((presumedRows w.node r)[row]?).getD []) =
          (assignedKeys w.node key first)[row]? ↔ InStep w.node key first row)) ∧
      Propagates p vars table docs plan (fun parent r row w group child =>
        ∀ key first, Numbers parent.node key r first →
          ∀ column, (key, column) ∈ missing group.join child.columns →
            ∃ bound, (column, bound) ∈ w.node.columns.zip w.node.parameters ∧
              ((assignedKeys parent.node key first)[row]? = some bound ↔
                InStep parent.node key first row)) sent := by
  obtain ⟨sent, hrecord, hpropagates⟩ := propagates_made_up_rows hs hd hreturns h options
  refine ⟨sent, hrecord, fun w _ r key first hnumbers row hrow =>
    get?_key_presumedRow_eq_iff hnumbers hrow, hpropagates.mono ?_⟩
  intro parent r row w group child hwidth hbinds key first hnumbers column hmissing
  have hrow : row < parent.node.rows.length := by
    have := hbinds.answered (List.ne_nil_of_mem hmissing)
    simpa [presumedRows, hnumbers.kind] using this
  exact (handsDown_of_binds hwidth hbinds hmissing).binds_assigned_iff hnumbers hrow

section Shop

/-- Two users, of which the second has an order. The first may come with more columns. -/
def annAndBob (annsKey : Object) : Json :=
  .list [.object (annsKey ++ [("name", .text "ann")]),
    .object [("name", .text "bob"), ("orders", .object [("total", .int 7)])]]

theorem generated_keys_annAndBob : ∃ plan,
    Plans (shopPlanner .mysql) [] "users" (annAndBob []) .empty plan ∧
    ∃ sent, (runPlan withoutTransaction plan
        (scriptedSession .mysql [countRow 2 (some 6), countRow 1 (some 1)])).2.record =
          sent.map (Sent.exchange .mysql) ∧
      (∀ w ∈ sent, ∀ r key first, Numbers w.node key r first → ∀ row < w.node.rows.length,
        (Object.get? key (((presumedRows w.node r)[row]?).getD []) =
          (assignedKeys w.node key first)[row]? ↔ InStep w.node key first row)) ∧
      Propagates (shopPlanner .mysql) [] "users" (annAndBob []) plan
        (fun parent r row w group child =>
        ∀ key first, Numbers parent.node key r first →
          ∀ column, (key, column) ∈ missing group.join child.columns →
            ∃ bound, (column, bound) ∈ w.node.columns.zip w.node.parameters ∧
              ((assignedKeys parent.node key first)[row]? = some bound ↔
                InStep parent.node key first row)) sent := by
  obtain ⟨plan, hplan⟩ := exists_eq_ok
    (x := (shopPlanner .mysql).planInsert [] "users" (annAndBob []) .empty) (by decide +kernel)
  refine ⟨plan, .inl hplan, ?_⟩
  exact generated_keys_assigned_iff
    (s := scriptedSession .mysql [countRow 2 (some 6), countRow 1 (some 1)])
    rfl rfl rfl (.inl hplan) withoutTransaction

/-- Behind a user with a key, the engine numbers the second user 6. The row that is made up for it
has 7, and so has its order. -/
theorem keyed_row_shifts_number : ∃ plan n,
    Plans (shopPlanner .mysql) [] "users" (annAndBob [("id", .int 5)]) .empty plan ∧
      plan.nodes[0]? = some n ∧ Numbers n "id" (countRow 2 (some 6)) 6 ∧
      (assignedKeys n "id" 6).map (·.compact) = ["5", "6"] ∧
      (presumedRows n (countRow 2 (some 6))).map (fun row => (row.get? "id").map (·.compact)) =
        [some "5", some "7"] ∧
      statementsOf .mysql [countRow 2 (some 6), countRow 1 (some 1)] plan =
        [("insert into users (id, name) values (?, ?), (?, ?)",
          ["5", "\"ann\"", "null", "\"bob\""]),
          ("insert into orders (total, user_id) values (?, ?)", ["7", "7"])] := by
  obtain ⟨plan, hplan⟩ := exists_eq_ok
    (x := (shopPlanner .mysql).planInsert [] "users" (annAndBob [("id", .int 5)]) .empty)
    (by decide +kernel)
  let parts (n : WriteNode) :=
    (n.kind.name, n.generatedKey, (assignedKeys n "id" 6).map (·.compact),
    (presumedRows n (countRow 2 (some 6))).map fun row => (row.get? "id").map (·.compact))
  have hfirst :
      (plan.nodes[0]?).map parts = some ("insert", some "id", ["5", "6"], [some "5", some "7"]) :=
    part_eq (g := fun plan : Plan => (plan.nodes[0]?).map parts) hplan (by decide +kernel)
  obtain ⟨n, hn, hparts⟩ := Option.map_eq_some_iff.mp hfirst
  simp only [parts, Prod.mk.injEq] at hparts
  obtain ⟨hname, hkey, hassigned, hpresumed⟩ := hparts
  have hkind : n.kind = .insert := by
    revert hname
    cases n.kind <;> decide
  refine ⟨plan, n, .inl hplan, hn, ⟨hkind, hkey, fun _ => rfl⟩, hassigned, hpresumed, ?_⟩
  exact part_eq (g := statementsOf .mysql [countRow 2 (some 6), countRow 1 (some 1)])
    hplan (by decide +kernel)

end Shop

end SqlGateway.Execution
