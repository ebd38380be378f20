import SqlGateway.Mutation.Planner

/-!
# Injected columns

Which columns of a nested document take values of the parent's row: those of the join that the
document does not supply, each for the first pair of the join that names it. Putting a row in fills
exactly these columns and leaves the values of the document as they are.
-/
namespace SqlGateway.Mutation

open Schema (Join)

/-- The pairs of a join whose second column is not among given ones and in no pair before. -/
def unsupplied (own : List String) : List (String × String) → List (String × String)
  | [] => []
  | pair :: rest =>
    if pair.2 ∈ own then unsupplied own rest else pair :: unsupplied (own ++ [pair.2]) rest

/-- The pairs of a join whose column a nested document leaves to the row of its parent. -/
def missing (join : Join) (own : List (String × Json)) : List (String × String) :=
  unsupplied (own.map (·.1)) join.pairs

theorem mem_of_mem_unsupplied {own : List String} {pairs : List (String × String)}
    {pair : String × String} (h : pair ∈ unsupplied own pairs) : pair ∈ pairs := by
  induction pairs generalizing own with
  | nil => exact h
  | cons first rest ih =>
      rw [unsupplied] at h
      split at h
      · exact List.mem_cons_of_mem _ (ih h)
      · rcases List.mem_cons.mp h with rfl | h
        · exact List.mem_cons_self
        · exact List.mem_cons_of_mem _ (ih h)

/-- The columns of a child write are those of its document, and behind them the missing ones. -/
theorem injectedColumns_eq (join : Join) (own : List (String × Json)) :
    injectedColumns join own =
      (own ++ (missing join own).map fun pair => (pair.2, Json.null),
        (missing join own).mapIdx fun i pair => ⟨own.length + i, pair.1⟩) := by
  have run : ∀ (pairs : List (String × String)) (columns : List (String × Json))
      (injected : List Injection),
      pairs.foldl (fun state pair =>
        if state.1.any (·.1 == pair.2) then state
        else (state.1 ++ [(pair.2, .null)], state.2 ++ [⟨state.1.length, pair.1⟩]))
        (columns, injected) =
      (columns ++ (unsupplied (columns.map (·.1)) pairs).map fun pair => (pair.2, Json.null),
        injected ++ (unsupplied (columns.map (·.1)) pairs).mapIdx fun i pair =>
          ⟨columns.length + i, pair.1⟩) := by
    intro pairs
    induction pairs with
    | nil => simp [unsupplied]
    | cons pair rest ih =>
        intro columns injected
        have hany : columns.any (·.1 == pair.2) = true ↔ pair.2 ∈ columns.map (·.1) := by
          simp [List.any_eq_true, List.mem_map]
        rw [List.foldl_cons, unsupplied]
        by_cases h : pair.2 ∈ columns.map (·.1)
        · rw [if_pos (hany.mpr h), if_pos h, ih]
        · rw [if_neg (mt hany.mp h), if_neg h, ih]
          simp [List.mapIdx_cons, Nat.add_assoc, Nat.add_comm 1]
  exact run join.pairs own []

/-- The value that the row of a parent has for a column, null if it does not have the column. -/
def linkedValue (parentRow : Object) (column : String) : Json := (parentRow.get? column).getD .null

/-- The values of a row with those of a parent's row in the injected places. -/
def injectedValues (parentRow : Object) (injected : List Injection) (values : List Json) :
    List Json :=
  injected.foldl
    (fun values i => values.set i.position (linkedValue parentRow i.parentColumn)) values

theorem length_injectedValues (parentRow : Object) (injected : List Injection)
    (values : List Json) : (injectedValues parentRow injected values).length = values.length := by
  induction injected generalizing values with
  | nil => rfl
  | cons i rest ih => exact (ih _).trans (List.length_set ..)

theorem inject_eq (parentRow : Object) (n : WriteNode) :
    n.inject parentRow = { n with rows := n.rows.map (injectedValues parentRow n.injected) } := by
  have run : ∀ (injected : List Injection) (m : WriteNode),
      injected.foldl (fun m i =>
        { m with rows := m.rows.map (·.set i.position (linkedValue parentRow i.parentColumn)) }) m =
      { m with rows := m.rows.map (injectedValues parentRow injected) } := by
    intro injected
    induction injected with
    | nil =>
        intro m
        have hid : injectedValues parentRow [] = id := rfl
        simp [hid]
    | cons i rest ih =>
        intro m
        rw [List.foldl_cons, ih, List.map_map]
        rfl
  exact run n.injected n

/-- Putting a row in fills the places behind the values of the document. -/
theorem injectedValues_mapIdx (parentRow : Object) (pairs : List (String × String))
    (values : List Json) :
    injectedValues parentRow (pairs.mapIdx fun i pair => ⟨values.length + i, pair.1⟩)
      (values ++ pairs.map fun _ => Json.null) =
        values ++ pairs.map fun pair => linkedValue parentRow pair.1 := by
  induction pairs generalizing values with
  | nil => simp [injectedValues]
  | cons pair rest ih =>
      have := ih (values ++ [linkedValue parentRow pair.1])
      simp only [injectedValues, List.length_append, List.length_singleton, List.append_assoc,
        List.singleton_append, Nat.add_assoc, Nat.add_comm 1] at this
      simpa [injectedValues, List.mapIdx_cons] using this

/-- A statement that names no columns asks for all of them. -/
def Asks (returning : List String) (column : String) : Prop :=
  returning = [] ∨ column ∈ returning

/-- The columns that a statement asks for, with one more. Where it asks for all, nothing is
added. -/
def askFor (returning : List String) (column : String) : List String :=
  if returning.isEmpty || returning.contains column then returning else returning ++ [column]

theorem asks_askFor (returning : List String) (column : String) :
    Asks (askFor returning column) column := by
  unfold askFor
  split
  · rename_i h
    simpa [Asks] using h
  · exact .inr (by simp)

theorem Asks.askFor {returning : List String} {column : String} (h : Asks returning column)
    (other : String) : Asks (askFor returning other) column := by
  unfold Mutation.askFor
  split
  · exact h
  · rename_i hnew
    refine .inr (List.mem_append_left _ (h.resolve_left fun hnil => hnew ?_))
    simp [hnil]

/-- A statement goes on asking for what it asked for, and asks for the columns of the join as
well. -/
theorem asks_extendedReturning (join : Join) (returning : List String) :
    (∀ column, Asks returning column → Asks (extendedReturning join returning) column) ∧
      ∀ pair ∈ join.pairs, Asks (extendedReturning join returning) pair.1 := by
  have run : ∀ (pairs : List (String × String)) (returning : List String),
      (∀ column, Asks returning column →
        Asks (pairs.foldl (fun asked pair => askFor asked pair.1) returning) column) ∧
      ∀ pair ∈ pairs, Asks (pairs.foldl (fun asked pair => askFor asked pair.1) returning)
        pair.1 := by
    intro pairs
    induction pairs with
    | nil => exact fun _ => ⟨fun _ h => h, fun _ h => absurd h List.not_mem_nil⟩
    | cons pair rest ih =>
        intro returning
        obtain ⟨hkeeps, hadds⟩ := ih (askFor returning pair.1)
        refine ⟨fun column h => hkeeps column (h.askFor pair.1), ?_⟩
        exact List.forall_mem_cons.mpr ⟨hkeeps _ (asks_askFor returning pair.1), hadds⟩
  exact run join.pairs returning

end SqlGateway.Mutation
