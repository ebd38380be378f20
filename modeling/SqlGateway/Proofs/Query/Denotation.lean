import Mathlib.Logic.Function.Basic
import Mathlib.Data.Set.Insert
import SqlGateway.Query.Compiler
import SqlGateway.ResultSet

/-!
# What a compiled query denotes

The rows that a compiled statement answers with, by the usual meaning of its clauses: the joins one
after another, the condition, the grouping and the select list. What an expression or a condition
means is left to the engine, and so are the order of the rows and whether equal rows are given once
or several times.
-/
namespace SqlGateway.Query

open Schema (JoinKind)

/-- A row of a table, by the names of its columns. -/
abbrev Record := String → Cell

/-- A row of a join: for every table the row that takes part in it, if one does. -/
abbrev JoinedRow := String → Option Record

def JoinedRow.empty : JoinedRow := fun _ => none

/-- A joined row in which a row of one more table takes part. -/
def JoinedRow.put (j : JoinedRow) (table : String) (row : Record) : JoinedRow :=
  Function.update j table (some row)

/-- The value of a column, null where no row of its table takes part. -/
def JoinedRow.cell (j : JoinedRow) (table column : String) : Cell :=
  match j table with
  | some row => row column
  | none => .null

/-- A join of a table to the rows before it, as the text of a compiled query spells it. -/
structure JoinClause where
  kind : JoinKind
  table : String
  condition : String
  safe : Name.isSafe table = true

def JoinClause.text (clause : JoinClause) : String :=
  s!"{clause.kind.sql} {clause.table} ON {clause.condition}"

/-- An engine with the rows of its tables. It says which joined rows a condition holds of, the value
of an expression in a joined row, and the value of an aggregate over a group of them. -/
structure Engine where
  rows : String → List Record
  holds : String → JoinedRow → Bool
  value : String → JoinedRow → Cell
  total : String → List JoinedRow → Cell

namespace Engine

variable (e : Engine)

/-- The rows that a joined row becomes with the matching rows of a further table. -/
def matching (clause : JoinClause) (j : JoinedRow) : List JoinedRow :=
  ((e.rows clause.table).map (j.put clause.table)).filter (e.holds clause.condition)

/-- The rows of a further table that match none of the rows before it. -/
def unmatched (clause : JoinClause) (before : List JoinedRow) : List Record :=
  (e.rows clause.table).filter fun row =>
    before.all fun j => !e.holds clause.condition (j.put clause.table row)

/-- Joins one more table. -/
def join (before : List JoinedRow) (clause : JoinClause) : List JoinedRow :=
  match clause.kind with
  | .inner => before.flatMap (e.matching clause)
  | .left => before.flatMap fun j =>
      if (e.matching clause j).isEmpty then [j] else e.matching clause j
  | .right => before.flatMap (e.matching clause) ++
      (e.unmatched clause before).map (JoinedRow.empty.put clause.table)

/-- The rows of the main table with the rows of all joined tables. -/
def joined (main : String) (clauses : List JoinClause) : List JoinedRow :=
  clauses.foldl e.join ((e.rows main).map (JoinedRow.empty.put main))

/-- The joined rows under the condition of a query. -/
def passing (q : CompiledQuery) (clauses : List JoinClause) : List JoinedRow :=
  (e.joined q.mainTable clauses).filter fun j => q.filter.all (e.holds · j)

open Classical in
/-- The joined rows that one row of the answer stands for: a single one, or, if anything is
aggregated, all that agree in the terms of the grouping. -/
noncomputable def groups (q : CompiledQuery) (clauses : List JoinClause) : Set (List JoinedRow) :=
  if q.columns.any (·.aggregate) then
    if q.groupBy.isEmpty then {e.passing q clauses}
    else {g | ∃ j ∈ e.passing q clauses, g = (e.passing q clauses).filter fun i =>
      q.groupBy.all fun term => e.value term i = e.value term j}
  else {g | ∃ j ∈ e.passing q clauses, g = [j]}

/-- The value of a selected column for a group. -/
def columnValue (g : List JoinedRow) (column : SelectColumn) : Cell :=
  if column.aggregate then e.total column.expression g
  else (g.head?.map (e.value column.expression)).getD .null

/-- A result set holds what a query denotes: its columns carry the labels of the query, and its rows
are those of the groups. -/
structure Answers (q : CompiledQuery) (clauses : List JoinClause) (r : ResultSet) : Prop where
  labels : r.columns.map (·.name) = q.columns.map (·.label.encode)
  rows : ∀ row, row ∈ r.rows ↔ ∃ g ∈ e.groups q clauses, row = q.columns.map (e.columnValue g)

section Rows
variable {e : Engine} {q : CompiledQuery} {clauses : List JoinClause}

/-- A joined row goes back to a row before the join, or to no row at all. -/
theorem mem_join {before : List JoinedRow} {clause : JoinClause} {j : JoinedRow}
    (h : j ∈ e.join before clause) :
    ∃ i, (i ∈ before ∨ i = JoinedRow.empty) ∧ (j = i ∨ ∃ row, j = i.put clause.table row) := by
  have matching : ∀ j ∈ before.flatMap (e.matching clause),
      ∃ i ∈ before, ∃ row, j = i.put clause.table row := by
    intro j hj
    obtain ⟨i, hi, hj⟩ := List.mem_flatMap.mp hj
    obtain ⟨row, _, rfl⟩ := List.mem_map.mp (List.mem_filter.mp hj).1
    exact ⟨i, hi, row, rfl⟩
  unfold join at h
  split at h
  · obtain ⟨i, hi, hj⟩ := matching j h
    exact ⟨i, .inl hi, .inr hj⟩
  · obtain ⟨i, hi, hj⟩ := List.mem_flatMap.mp h
    split_ifs at hj with hempty
    · exact ⟨i, .inl hi, .inl (List.mem_singleton.mp hj)⟩
    · obtain ⟨row, _, rfl⟩ := List.mem_map.mp (List.mem_filter.mp hj).1
      exact ⟨i, .inl hi, .inr ⟨row, rfl⟩⟩
  · rcases List.mem_append.mp h with h | h
    · obtain ⟨i, hi, hj⟩ := matching j h
      exact ⟨i, .inl hi, .inr hj⟩
    · obtain ⟨row, _, rfl⟩ := List.mem_map.mp h
      exact ⟨.empty, .inr rfl, .inr ⟨row, rfl⟩⟩

/-- The rows of the main table that take part in joined rows are rows of that table. -/
def FromMain (e : Engine) (main : String) (js : List JoinedRow) : Prop :=
  ∀ j ∈ js, ∀ row, j main = some row → row ∈ e.rows main

theorem FromMain.join {main : String} {js : List JoinedRow} (h : FromMain e main js)
    {clause : JoinClause} (hclause : clause.table ≠ main) : FromMain e main (e.join js clause) := by
  intro j hj row hrow
  obtain ⟨i, hi, hji⟩ := mem_join hj
  have hsame : j main = i main := by
    obtain rfl | ⟨other, rfl⟩ := hji
    · rfl
    · exact Function.update_of_ne (Ne.symm hclause) _ _
  rw [hsame] at hrow
  obtain hi | rfl := hi
  · exact h i hi row hrow
  · cases hrow

/-- Joining other tables brings no further rows of the main table. -/
theorem main_mem_rows_of_mem_joined {main : String}
    (hmain : ∀ clause ∈ clauses, clause.table ≠ main) {j : JoinedRow}
    (h : j ∈ e.joined main clauses) {row : Record} (hrow : j main = some row) :
    row ∈ e.rows main := by
  have run : ∀ before, FromMain e main before → FromMain e main (clauses.foldl e.join before) := by
    clear h hrow
    induction clauses with
    | nil => exact fun _ hbefore => hbefore
    | cons clause rest ih =>
        obtain ⟨hclause, hrest⟩ := List.forall_mem_cons.mp hmain
        exact fun before hbefore => ih hrest _ (hbefore.join hclause)
  refine run _ ?_ j h row hrow
  intro j hj row hrow
  obtain ⟨first, hfirst, rfl⟩ := List.mem_map.mp hj
  obtain rfl : first = row := by simpa [JoinedRow.put] using hrow
  exact hfirst

theorem mem_passing_of_mem_group {g : List JoinedRow} (hg : g ∈ e.groups q clauses) {j : JoinedRow}
    (hj : j ∈ g) : j ∈ e.passing q clauses := by
  unfold groups at hg
  split_ifs at hg
  · exact Set.mem_singleton_iff.mp hg ▸ hj
  · obtain ⟨_, _, rfl⟩ := hg
    exact (List.mem_filter.mp hj).1
  · obtain ⟨i, hi, rfl⟩ := hg
    exact List.mem_singleton.mp hj ▸ hi

theorem exists_group {j : JoinedRow} (hj : j ∈ e.passing q clauses) :
    ∃ g ∈ e.groups q clauses, j ∈ g := by
  unfold groups
  split_ifs
  · exact ⟨_, rfl, hj⟩
  · exact ⟨_, ⟨j, hj, rfl⟩, List.mem_filter.mpr ⟨hj, by simp⟩⟩
  · exact ⟨_, ⟨j, hj, rfl⟩, List.mem_singleton.mpr rfl⟩

/-- The terms of a grouping, with one more unless it is there. -/
def addTerm (seen : List String) (term : String) : List String :=
  if seen.contains term then seen else seen ++ [term]

theorem mem_addTerm (seen : List String) (term t : String) :
    t ∈ addTerm seen term ↔ t ∈ seen ∨ t = term := by
  by_cases hterm : term ∈ seen
  · simp only [addTerm, List.contains_iff_mem, hterm, if_true]
    exact ⟨.inl, fun h => h.elim id (· ▸ hterm)⟩
  · simp [addTerm, hterm]

theorem mem_groupTerms {columns : List SelectColumn} {column : SelectColumn}
    (hany : columns.any (·.aggregate) = true) (hmem : column ∈ columns)
    (hplain : column.aggregate = false) : column.expression ∈ Compiler.groupTerms columns := by
  have run : ∀ (terms seen : List String) (t : String), t ∈ seen ∨ t ∈ terms →
      t ∈ terms.foldl addTerm seen := by
    intro terms
    induction terms with
    | nil => exact fun _ _ h => h.resolve_right List.not_mem_nil
    | cons term rest ih =>
        intro seen t h
        refine ih _ t ?_
        rw [mem_addTerm]
        simpa only [List.mem_cons, or_assoc] using h
  rw [Compiler.groupTerms, if_pos hany]
  refine run _ _ _ (.inr (List.mem_map.mpr ⟨column, List.mem_filter.mpr ⟨hmem, ?_⟩, rfl⟩))
  simp [hplain]

section Plain
variable {column : SelectColumn} (hgroupBy : q.groupBy = Compiler.groupTerms q.columns)
  (hmem : column ∈ q.columns) (hplain : column.aggregate = false)

include hgroupBy hmem hplain

theorem exists_mem_of_mem_groups {g : List JoinedRow} (hg : g ∈ e.groups q clauses) :
    ∃ j, j ∈ g := by
  unfold groups at hg
  split_ifs at hg with hany hempty
  · have := mem_groupTerms hany hmem hplain
    simp_all
  · obtain ⟨j, hj, rfl⟩ := hg
    exact ⟨j, List.mem_filter.mpr ⟨hj, by simp⟩⟩
  · obtain ⟨j, _, rfl⟩ := hg
    exact ⟨j, List.mem_singleton.mpr rfl⟩

/-- A column that is not aggregated has one value throughout a group, and that is its value for the
group. -/
theorem columnValue_of_mem {g : List JoinedRow} (hg : g ∈ e.groups q clauses) {j : JoinedRow}
    (hj : j ∈ g) : e.columnValue g column = e.value column.expression j := by
  have hhead : ∀ i ∈ g, e.value column.expression i = e.value column.expression j := by
    classical
    unfold groups at hg
    split_ifs at hg with hany hempty
    · have := mem_groupTerms hany hmem hplain
      simp_all
    · obtain ⟨first, _, rfl⟩ := hg
      have hterm : column.expression ∈ q.groupBy := hgroupBy ▸ mem_groupTerms hany hmem hplain
      have agrees : ∀ i, i ∈ (e.passing q clauses).filter (fun i =>
          q.groupBy.all fun term => e.value term i = e.value term first) →
          e.value column.expression i = e.value column.expression first := by
        intro i hi
        simpa using List.all_eq_true.mp (List.mem_filter.mp hi).2 _ hterm
      intro i hi
      rw [agrees i hi, agrees j hj]
    · obtain ⟨first, _, rfl⟩ := hg
      intro i hi
      rw [List.mem_singleton.mp hi, List.mem_singleton.mp hj]
  cases g with
  | nil => cases hj
  | cons first rest =>
      simpa [columnValue, hplain] using hhead first (by simp)

end Plain

/-- Without an aggregate a query denotes one row for each joined row under its condition. -/
theorem answers_of_plain {r : ResultSet} (hplain : q.columns.any (·.aggregate) = false)
    (hlabels : r.columns.map (·.name) = q.columns.map (·.label.encode))
    (hrows : r.rows = (e.passing q clauses).map fun j =>
      q.columns.map fun column => e.value column.expression j) : e.Answers q clauses r := by
  have hvalue : ∀ j, q.columns.map (e.columnValue [j]) =
      q.columns.map fun column => e.value column.expression j := by
    intro j
    refine List.map_congr_left fun column hcolumn => ?_
    have : column.aggregate = false := by simpa using List.any_eq_false.mp hplain column hcolumn
    simp [columnValue, this]
  refine ⟨hlabels, fun row => ?_⟩
  rw [hrows, groups, if_neg (by simp [hplain]), List.mem_map]
  constructor
  · rintro ⟨j, hj, rfl⟩
    exact ⟨[j], ⟨j, hj, rfl⟩, (hvalue j).symm⟩
  · rintro ⟨_, ⟨j, hj, rfl⟩, rfl⟩
    exact ⟨j, hj, (hvalue j).symm⟩

end Rows

end Engine

end SqlGateway.Query
