import Mathlib.Data.List.Nodup
import SqlGateway.Dialect.Definition
import SqlGateway.Proofs.Except
import SqlGateway.Proofs.Query.Composition

/-!
# Table definitions

What an engine reads in a statement that makes a table: a name, and in parentheses the declarations
of columns and of keys, with commas between them. A column begins with its name; among what follows
it may be declared the primary key and may refer to a column of another table.
-/
namespace SqlGateway.Dialect

open Query (Lexeme Lexed Adds keywords separated lexemes)
open Schema (Column ForeignKey)

structure ColumnDeclaration where
  name : String
  /-- How often the column is declared the primary key. -/
  keys : Nat
  /-- The tables and columns that it refers to. -/
  references : List (String × String)
  deriving DecidableEq

inductive Declaration where
  | column (c : ColumnDeclaration)
  /-- A primary key of some columns. -/
  | key (columns : List String)
  deriving DecidableEq

/-- The parts between the commas that stand in no further parentheses, up to the parenthesis that
ends the last part and the statement. -/
def parts? : (depth : Nat) → (part : List Lexeme) → List Lexeme → Option (List (List Lexeme))
  | _, _, [] => none
  | 0, part, .closing :: rest => if rest.isEmpty then some [part] else none
  | depth + 1, part, .closing :: rest => parts? depth (part ++ [.closing]) rest
  | depth, part, .opening :: rest => parts? (depth + 1) (part ++ [.opening]) rest
  | 0, part, .comma :: rest => (parts? 0 [] rest).map (part :: ·)
  | depth, part, x :: rest => parts? depth (part ++ [x]) rest

/-- How often a column is declared the primary key, and what it refers to. -/
def clauses? : List Lexeme → Option (Nat × List (String × String))
  | [] => some (0, [])
  | .word "PRIMARY" :: .word "KEY" :: rest =>
      (clauses? rest).map fun found => (1 + found.1, found.2)
  | .word "REFERENCES" :: .word table :: .opening :: .word column :: .closing :: rest =>
    (clauses? rest).map fun found => (found.1, (table, column) :: found.2)
  | .word "REFERENCES" :: _ => none
  | _ :: rest => clauses? rest

/-- Names with commas between them, up to a parenthesis. -/
def names? : List Lexeme → Option (List String)
  | [.word name, .closing] => some [name]
  | .word name :: .comma :: rest => (names? rest).map (name :: ·)
  | _ => none

def declaration? : List Lexeme → Option Declaration
  | .word "PRIMARY" :: .word "KEY" :: .opening :: rest => (names? rest).map .key
  | .word name :: rest => (clauses? rest).map fun found => .column ⟨name, found.1, found.2⟩
  | _ => none

structure TableStatement where
  table : String
  declarations : List Declaration
  deriving DecidableEq

/-- The statement that a text is. -/
def tableStatement? (d : Dialect) (sql : String) : Option TableStatement :=
  match lexemes d sql.toList with
  | some (.word "CREATE" :: .word "TABLE" :: .word table :: .opening :: rest) =>
    ((parts? 0 [] rest).bind (List.mapM declaration?)).map (⟨table, ·⟩)
  | _ => none

namespace Declaration

def column? : Declaration → Option ColumnDeclaration
  | column c => some c
  | key _ => none

def primaryKeys : Declaration → List (List String)
  | column c => List.replicate c.keys [c.name]
  | key columns => [columns]

end Declaration

namespace TableStatement

def columns (s : TableStatement) : List ColumnDeclaration :=
  s.declarations.filterMap Declaration.column?

/-- The columns of each primary key that is declared. -/
def primaryKeys (s : TableStatement) : List (List String) :=
  s.declarations.flatMap Declaration.primaryKeys

/-- The names of tables and columns that occur. -/
def names (s : TableStatement) : List String :=
  s.table :: s.columns.flatMap (fun c => c.name :: c.references.flatMap fun x => [x.1, x.2]) ++
    s.primaryKeys.flatten

end TableStatement

/-- The column that a column refers to, with its table. -/
def references (c : Column) : List (String × String) :=
  c.foreignKey.toList.map fun fk => (fk.tableName, fk.columnName)

def keyNames (columns : List Column) : List String :=
  (columns.filter (·.isPrimaryKey)).map (·.columnName)

/-- The statement makes a table of columns: it declares each of them once, in the order of their
positions, no primary key but that of the key columns, and has no name that is not safe. -/
structure TableStatement.Defines (s : TableStatement) (table : String) (columns : List Column) :
    Prop where
  table : s.table = table
  columns : ∃ ordered : List Column, ordered.Perm columns ∧
    ordered.Pairwise (fun a b => a.ordinalPosition ≤ b.ordinalPosition) ∧
    s.columns.map (fun c => (c.name, c.references)) =
      ordered.map (fun c => (c.columnName, references c)) ∧
    s.primaryKeys = if keyNames ordered = [] then [] else [keyNames ordered]
  safe : ∀ name ∈ s.names, Name.isSafe name = true

/-- What the foreign keys refer to has safe names. -/
def SafeReferences (columns : List Column) : Prop :=
  ∀ c ∈ columns, ∀ x ∈ references c, Name.isSafe x.1 = true ∧ Name.isSafe x.2 = true

instance (columns : List Column) : Decidable (SafeReferences columns) := by
  unfold SafeReferences
  infer_instance

/-- If the only key column is counted, no other column is. -/
def OneCounted (columns : List Column) : Prop :=
  ∀ key ∈ columns, key.isAutoIncrement = true → columns.filter (·.isPrimaryKey) = [key] →
    columns.filter (·.isAutoIncrement) = [key]

instance (columns : List Column) : Decidable (OneCounted columns) := by
  unfold OneCounted
  infer_instance

theorem TableStatement.Defines.safeReferences {s : TableStatement} {table : String}
    {columns : List Column} (h : s.Defines table columns) : SafeReferences columns := by
  obtain ⟨ordered, hperm, -, hcolumns, -⟩ := h.columns
  intro c hc x hx
  have hmem : (c.columnName, references c) ∈ s.columns.map fun c => (c.name, c.references) :=
    hcolumns ▸ List.mem_map_of_mem (hperm.mem_iff.mpr hc)
  obtain ⟨declared, hdeclared, heq⟩ := List.mem_map.mp hmem
  obtain ⟨-, hreferences⟩ := Prod.mk.inj heq
  have hnames : ∀ name ∈ [x.1, x.2], name ∈ s.names := fun name hname =>
    List.mem_append_left _ (List.mem_cons_of_mem _ (List.mem_flatMap.mpr ⟨declared, hdeclared,
      List.mem_cons_of_mem _ (List.mem_flatMap.mpr ⟨x, hreferences ▸ hx, hname⟩)⟩))
  exact ⟨h.safe _ (hnames _ (by simp)), h.safe _ (hnames _ (by simp))⟩

/-- Lexemes that close the parentheses that they open and the given ones before them, and have no
comma outside. -/
def isWhole : (depth : Nat) → List Lexeme → Bool
  | depth, [] => depth == 0
  | depth, .opening :: rest => isWhole (depth + 1) rest
  | 0, .closing :: _ => false
  | depth + 1, .closing :: rest => isWhole depth rest
  | 0, .comma :: _ => false
  | depth, _ :: rest => isWhole depth rest

section Parts
variable {xs ys : List Lexeme} {n : Nat}

theorem isWhole_append (h : isWhole n xs = true) : isWhole n (xs ++ ys) = isWhole 0 ys := by
  induction xs generalizing n with
  | nil =>
      obtain rfl : n = 0 := by simpa [isWhole] using h
      rfl
  | cons x rest ih =>
      cases x <;> cases n <;> first | exact ih h | cases h

theorem isWhole_keywords (ws : List String) : isWhole 0 (keywords ws) = true := by
  induction ws with
  | nil => rfl
  | cons w rest ih => exact ih

theorem isWhole_parenthesized (h : ∀ x ∈ xs, x ≠ .opening ∧ x ≠ .closing) :
    isWhole 0 (.opening :: (xs ++ [.closing])) = true := by
  have hinside : isWhole 1 (xs ++ [.closing]) = true := by
    induction xs with
    | nil => rfl
    | cons x rest ih =>
        obtain ⟨⟨hopening, hclosing⟩, hrest⟩ := List.forall_mem_cons.mp h
        cases x <;> first | exact ih hrest | contradiction
  exact hinside

/-- A part is not cut. -/
theorem parts?_of_isWhole (h : isWhole n xs = true) (depth : Nat) (part : List Lexeme) :
    parts? (depth + n) part (xs ++ ys) = parts? depth (part ++ xs) ys := by
  induction xs generalizing n part with
  | nil =>
      obtain rfl : n = 0 := by simpa [isWhole] using h
      simp
  | cons x rest ih =>
      -- The depth goes up and down with the parentheses, so only a comma outside of them could cut.
      have hstep : ∃ m, isWhole m rest = true ∧
          parts? (depth + n) part (x :: (rest ++ ys)) = parts? (depth + m) (part ++ [x])
            (rest ++ ys) := by
        cases x with
        | opening => exact ⟨n + 1, h, by rw [← Nat.add_assoc]; cases depth + n <;> rfl⟩
        | closing =>
            cases n with
            | zero => cases h
            | succ n => exact ⟨n, h, rfl⟩
        | comma =>
            cases n with
            | zero => cases h
            | succ n => exact ⟨n + 1, h, rfl⟩
        | word _ | literal _ | name _ =>
            exact ⟨n, by cases n <;> exact h, by cases depth + n <;> rfl⟩
      obtain ⟨m, hrest, heq⟩ := hstep
      rw [List.cons_append, heq, ih hrest, List.append_assoc, List.singleton_append]

/-- The parts of a definition are found again. -/
theorem parts?_separated {xss : List (List Lexeme)} (hne : xss ≠ [])
    (h : ∀ xs ∈ xss, isWhole 0 xs = true) :
    parts? 0 [] (separated xss ++ [.closing]) = some xss := by
  induction xss with
  | nil => exact absurd rfl hne
  | cons xs rest ih =>
      obtain ⟨hxs, hrest⟩ := List.forall_mem_cons.mp h
      have hpart (ys : List Lexeme) : parts? 0 [] (xs ++ ys) = parts? 0 xs ys :=
        parts?_of_isWhole hxs 0 []
      cases rest with
      | nil =>
          have hlast : parts? 0 xs [.closing] = some [xs] := rfl
          simp [separated, hpart, hlast]
      | cons next others =>
          have hcomma (ys : List Lexeme) :
            parts? 0 xs (.comma :: ys) = (parts? 0 [] ys).map (xs :: ·) := rfl
          have htail :
              separated (xs :: next :: others) = xs ++ (.comma :: separated (next :: others)) := by
            simp [separated, List.intercalate_cons_cons]
          rw [htail, List.append_assoc, hpart, List.cons_append, hcomma,
            ih (List.cons_ne_nil _ _) hrest]
          rfl

theorem names?_separated {names : List String} (hne : names ≠ []) :
    names? (separated (names.map fun name => [.word name]) ++ [.closing]) = some names := by
  induction names with
  | nil => exact absurd rfl hne
  | cons name rest ih =>
      cases rest with
      | nil => rfl
      | cons next others =>
          have hcomma (ys : List Lexeme) :
              names? (.word name :: .comma :: ys) = (names? ys).map (name :: ·) := rfl
          have htail : separated ((name :: next :: others).map fun name => [Lexeme.word name]) =
              .word name :: .comma :: separated ((next :: others).map fun name =>
                [.word name]) := by
            simp [separated, List.intercalate_cons_cons]
          rw [htail, List.cons_append, List.cons_append, hcomma, ih (List.cons_ne_nil _ _)]
          rfl

end Parts

/-- Lexemes in the declaration of a column that declare it a key so often and refer to these
columns. -/
def Declares (xs : List Lexeme) (keys : Nat) (targets : List (String × String)) : Prop :=
  ∀ ys, clauses? (xs ++ ys) = (clauses? ys).map fun found => (keys + found.1, targets ++ found.2)

/-- A text adds a clause to the declaration of a column. -/
def AddsClause (d : Dialect) (text : String) (keys : Nat)
    (targets : List (String × String)) : Prop :=
  ∃ xs, Adds d text xs ∧ isWhole 0 xs = true ∧ Declares xs keys targets

section Clauses
variable {d : Dialect} {a b : String} {xs ys : List Lexeme} {keys more : Nat}
  {targets others : List (String × String)}

theorem Declares.append (hx : Declares xs keys targets) (hy : Declares ys more others) :
    Declares (xs ++ ys) (keys + more) (targets ++ others) := fun zs => by
  rw [List.append_assoc, hx, hy, Option.map_map]
  simp [Function.comp_def, Nat.add_assoc]

/-- Lexemes that are no part of a key or a reference. -/
theorem Declares.nothing (h : ∀ x ∈ xs, x ≠ .word "PRIMARY" ∧ x ≠ .word "REFERENCES") :
    Declares xs 0 [] := by
  intro ys
  induction xs with
  | nil => simp
  | cons x rest ih =>
      obtain ⟨⟨hkey, hreference⟩, hrest⟩ := List.forall_mem_cons.mp h
      have hskip : clauses? (x :: (rest ++ ys)) = clauses? (rest ++ ys) := by
        rw [clauses?.eq_def]
        split <;> simp_all
      rw [List.cons_append, hskip, ih hrest]

theorem AddsClause.empty : AddsClause d "" 0 [] := ⟨[], .empty, rfl, .nothing (by simp)⟩

theorem AddsClause.append (ha : AddsClause d a keys targets) (hb : AddsClause d b more others) :
    AddsClause d (a ++ b) (keys + more) (targets ++ others) := by
  obtain ⟨xs, hxs, hwhole, hdeclares⟩ := ha
  obtain ⟨ys, hys, hwhole', hdeclares'⟩ := hb
  exact ⟨xs ++ ys, hxs.append hys, (isWhole_append hwhole).trans hwhole',
    hdeclares.append hdeclares'⟩

theorem AddsClause.spaced {ws : List String}
    (h : ∀ w ∈ ws, w ≠ "" ∧ w.toList.all Query.isUnmarked = true)
    (hnothing : ∀ w ∈ ws, w ≠ "PRIMARY" ∧ w ≠ "REFERENCES") :
    AddsClause d (Query.spaced ws) 0 [] := by
  refine ⟨keywords ws, Query.adds_spaced (Query.areWords_of_forall h), isWhole_keywords ws,
    .nothing fun x hx => ?_⟩
  obtain ⟨w, hw, rfl⟩ := List.mem_map.mp hx
  simpa using hnothing w hw

/-- How often the clause of a counted column declares it a key. -/
def countedKeys : Dialect → Nat
  | .sqlite => 1
  | _ => 0

theorem addsClause_blank : AddsClause d (" " ++ "") 0 [] :=
  ⟨[], Adds.blank Query.lexemes_nil, rfl, .nothing (by simp)⟩

theorem addsClause_autoIncrement (d : Dialect) :
    AddsClause d (" " ++ d.autoIncrementClause) (countedKeys d) [] := by
  cases d with
  | postgres =>
      exact @AddsClause.spaced _ ["GENERATED", "BY", "DEFAULT", "AS", "IDENTITY"]
        (by decide) (by decide)
  | mysql => exact @AddsClause.spaced _ ["AUTO_INCREMENT"] (by decide) (by decide)
  | mssql => exact addsClause_blank
  | sqlite =>
      have hwords : Adds .sqlite (Query.spaced ["PRIMARY", "KEY", "AUTOINCREMENT"])
          (keywords ["PRIMARY", "KEY", "AUTOINCREMENT"]) :=
        Query.adds_spaced (Query.areWords_of_forall (by decide))
      have hkey : Declares (keywords ["PRIMARY", "KEY", "AUTOINCREMENT"]) 1 [] := fun ys => by
        simp [keywords, clauses?]
      exact ⟨_, hwords, rfl, hkey⟩

theorem addsClause_reference {table column : String} (htable : Name.isSafe table = true)
    (hcolumn : Name.isSafe column = true) :
    AddsClause d (" REFERENCES " ++ table ++ "(" ++ column ++ ")") 0 [(table, column)] := by
  have hword : Lexed d "REFERENCES" [.word "REFERENCES"] :=
    Query.lexemes_word (by decide) (by decide)
  have htarget :
      Lexed d (table ++ "(" ++ column ++ ")") [.word table, .opening, .word column, .closing] := by
    simpa [Lexed] using Query.lexemes_append_parenthesized (Query.lexed_of_isSafe htable)
      (Query.lexed_of_isSafe hcolumn)
  have hadds := Adds.blank (hword.blank htarget)
  have htext : " " ++ ("REFERENCES" ++ (" " ++ (table ++ "(" ++ column ++ ")"))) =
      " REFERENCES " ++ table ++ "(" ++ column ++ ")" := String.toList_injective (by simp)
  exact ⟨_, htext ▸ hadds, rfl, fun ys => by simp [clauses?]⟩

end Clauses

/-- The declaration of a column, where a clause declares counted columns keys so often. -/
def declared (counted : Nat) (c : Column) : ColumnDeclaration :=
  ⟨c.columnName, if c.isAutoIncrement then counted else 0, references c⟩

section Columns
variable {d : Dialect} {typeName counter text : String} {c : Column} {counted : Nat}

/-- Lexemes that can stand between the name of a column and its clauses. -/
def isTypeName : List Lexeme → Bool
  | .word first :: rest => first != "KEY" && isWhole 0 (.word first :: rest) &&
    (.word first :: rest).all fun x => x != .word "PRIMARY" && x != .word "REFERENCES"
  | _ => false

theorem isTypeName_nativeType {type : Schema.ValueType} (h : d.nativeType? type = some typeName) :
    ∃ xs, Lexed d typeName xs ∧ isTypeName xs = true := by
  have hany : (lexemes d typeName.toList).any isTypeName = true := by
    cases type <;> cases d <;> first | (cases h; decide) | cases h
  exact (Option.any_eq_true _ _).mp hany

theorem isWhole_of_isTypeName {xs : List Lexeme} (h : isTypeName xs = true) :
    isWhole 0 xs = true := by
  match xs, h with
  | .word first :: rest, h =>
      simp only [isTypeName, Bool.and_eq_true] at h
      exact h.1.2

/-- A name, the name of a type and clauses are the declaration of a column. -/
theorem declaration?_column {name : String} {xs ys : List Lexeme} {keys : Nat}
    {targets : List (String × String)} (hxs : isTypeName xs = true)
    (hys : Declares ys keys targets) :
    declaration? (.word name :: (xs ++ ys)) = some (.column ⟨name, keys, targets⟩) := by
  match xs, hxs with
  | .word first :: rest, hxs =>
      simp only [isTypeName, Bool.and_eq_true, List.all_eq_true, bne_iff_ne] at hxs
      obtain ⟨⟨hfirst, -⟩, hnothing⟩ := hxs
      have hclauses := ((Declares.nothing hnothing).append hys) []
      have hcolumn : declaration? (.word name :: .word first :: (rest ++ ys)) =
          (clauses? (.word first :: (rest ++ ys))).map fun found =>
            .column ⟨name, found.1, found.2⟩ := by
        rw [declaration?.eq_def]
        split <;> simp_all
      simp only [List.append_nil, List.cons_append, clauses?, Option.map_some] at hclauses
      rw [List.cons_append, hcolumn, hclauses]
      simp

/-- The clauses that follow the name and the type of a column. -/
def clauseText (counter : String) (c : Column) : String :=
  (if c.isAutoIncrement then " " ++ counter else "") ++
    ((if !c.isNullable && !c.isPrimaryKey then " NOT NULL" else "") ++
      ((if c.isUnique && !c.isPrimaryKey then " UNIQUE" else "") ++
        (match c.foreignKey with
          | some fk => " REFERENCES " ++ fk.tableName ++ "(" ++ fk.columnName ++ ")"
          | none => "")))

theorem columnDefinition_ok (hok : d.columnDefinition counter c = .ok text) :
    Name.isSafe c.columnName = true ∧ ∃ typeName, d.nativeType? c.type = some typeName ∧
      text = c.columnName ++ (" " ++ typeName) ++ clauseText counter c := by
  rw [columnDefinition] at hok
  obtain ⟨_, hname, hok⟩ := bind_eq_ok.mp hok
  refine ⟨Query.Compiler.ensureSafe_ok hname, ?_⟩
  cases htypeName : d.nativeType? c.type with
  | none =>
      rw [htypeName] at hok
      cases hok
  | some typeName =>
      rw [htypeName] at hok
      refine ⟨typeName, rfl, (pure_eq_ok.mp hok).symm.trans ?_⟩
      simp only [clauseText, ← String.append_assoc]
      rfl

/-- A fixed clause, where a column has it. -/
theorem addsClause_if {condition : Bool} {clause : String} (h : AddsClause d clause 0 []) :
    AddsClause d (if condition then clause else "") 0 [] := by
  split_ifs
  · exact h
  · exact .empty

theorem addsClause_clauseText (hcounter : AddsClause d (" " ++ counter) counted [])
    (hsafe : ∀ x ∈ references c, Name.isSafe x.1 = true ∧ Name.isSafe x.2 = true) :
    AddsClause d (clauseText counter c) (if c.isAutoIncrement then counted else 0)
      (references c) := by
  have hcounted : AddsClause d (if c.isAutoIncrement then " " ++ counter else "")
      (if c.isAutoIncrement then counted else 0) [] := by
    split_ifs
    · exact hcounter
    · exact .empty
  have hrequired : AddsClause d " NOT NULL" 0 [] :=
    @AddsClause.spaced _ ["NOT", "NULL"] (by decide) (by decide)
  have hunique : AddsClause d " UNIQUE" 0 [] :=
    @AddsClause.spaced _ ["UNIQUE"] (by decide) (by decide)
  have hreference : AddsClause d (match c.foreignKey with
      | some fk => " REFERENCES " ++ fk.tableName ++ "(" ++ fk.columnName ++ ")"
      | none => "") 0 (references c) := by
    unfold references at hsafe ⊢
    cases hfk : c.foreignKey with
    | none => exact .empty
    | some fk =>
        rw [hfk] at hsafe
        obtain ⟨htable, hcolumn⟩ := hsafe (fk.tableName, fk.columnName) List.mem_cons_self
        exact addsClause_reference htable hcolumn
  have hall : AddsClause d (clauseText counter c) _ _ :=
    hcounted.append ((addsClause_if hrequired).append ((addsClause_if hunique).append hreference))
  simpa only [Nat.add_zero, List.nil_append] using hall

/-- What is written for a column declares it. -/
theorem declaration_columnDefinition (hcounter : AddsClause d (" " ++ counter) counted [])
    (hsafe : ∀ x ∈ references c, Name.isSafe x.1 = true ∧ Name.isSafe x.2 = true)
    (hok : d.columnDefinition counter c = .ok text) :
    ∃ xs, Lexed d text xs ∧ isWhole 0 xs = true ∧
    declaration? xs = some (.column (declared counted c)) := by
  obtain ⟨hname, typeName, htypeName, rfl⟩ := columnDefinition_ok hok
  obtain ⟨xs, hxs, htype⟩ := isTypeName_nativeType htypeName
  obtain ⟨ys, hys, hwhole, hdeclares⟩ := addsClause_clauseText hcounter hsafe
  have hlexed := hys _ _ ((Query.lexed_of_isSafe hname).blank hxs)
  rw [List.append_assoc, List.singleton_append] at hlexed
  exact ⟨_, hlexed, (isWhole_append (isWhole_of_isTypeName htype)).trans hwhole,
    declaration?_column htype hdeclares⟩

end Columns

section Tables
variable {d : Dialect} {counter table sql : String} {columns : List Column} {counted : Nat}

/-- The columns of a table in the order of their positions. -/
def ordered (columns : List Column) : List Column :=
  columns.mergeSort fun a b => a.ordinalPosition ≤ b.ordinalPosition

theorem perm_ordered (columns : List Column) : (ordered columns).Perm columns :=
  List.mergeSort_perm _ _

theorem pairwise_ordered (columns : List Column) :
    (ordered columns).Pairwise fun a b => a.ordinalPosition ≤ b.ordinalPosition := by
  have hsorted : (ordered columns).Pairwise fun a b =>
    decide (a.ordinalPosition ≤ b.ordinalPosition) = true := by
    refine List.pairwise_mergeSort (fun a b c hab hbc => ?_) (fun a b => ?_) columns
    · exact decide_eq_true (Int.le_trans (of_decide_eq_true hab) (of_decide_eq_true hbc))
    · simpa using Int.le_total a.ordinalPosition b.ordinalPosition
  exact hsorted.imp of_decide_eq_true

/-- Positions that differ fix the order. -/
theorem mergeSort_eq {others : List Column} (hperm : others.Perm columns)
    (hpositions : (others.map (·.ordinalPosition)).Pairwise (· < ·)) :
    columns.mergeSort (fun a b => a.ordinalPosition ≤ b.ordinalPosition) = others := by
  have hnodup : (others.map (·.ordinalPosition)).Nodup := hpositions.imp fun h => Int.ne_of_lt h
  have hsorted : others.Pairwise fun a b => a.ordinalPosition ≤ b.ordinalPosition :=
    (List.pairwise_map.mp hpositions).imp fun h => Int.le_of_lt h
  refine List.Perm.eq_of_pairwise (fun a b ha hb hab hba => ?_) (pairwise_ordered columns) hsorted
    ((perm_ordered columns).trans hperm.symm)
  exact List.inj_on_of_nodup_map hnodup
    (hperm.mem_iff.mpr ((perm_ordered columns).mem_iff.mp ha)) hb (Int.le_antisymm hab hba)

/-- The clause of the key columns, if there are any. -/
def keyTexts (names : List String) : List String :=
  if names.isEmpty then [] else ["PRIMARY KEY (" ++ ", ".intercalate names ++ ")"]

def keyDeclarations (names : List String) : List Declaration :=
  if names = [] then [] else [.key names]

theorem tableDefinition_ok (hok : d.tableDefinition table columns counter = .ok sql) :
    Name.isSafe table = true ∧ columns ≠ [] ∧ (∀ c ∈ columns, Name.isSafe c.columnName = true) ∧
    ∃ texts,
      List.Forall₂ (fun c text => d.columnDefinition counter c = .ok text) (ordered columns) texts ∧
      sql = "CREATE TABLE " ++ table ++ " (" ++ ", ".intercalate
        (texts ++ keyTexts (keyNames (ordered columns))) ++ ")" := by
  rw [tableDefinition] at hok
  obtain ⟨_, htable, hok⟩ := bind_eq_ok.mp hok
  refine ⟨Query.Compiler.ensureSafe_ok htable, ?_⟩
  split_ifs at hok with hempty
  · cases hok
  · obtain ⟨texts, htexts, hok⟩ := bind_eq_ok.mp hok
    refine ⟨fun hnil => hempty (by rw [hnil]; rfl), fun c hc => ?_, texts, forall₂_of_mapM htexts,
      (pure_eq_ok.mp hok).symm⟩
    have hall := isOk_mapM.mp (congrArg Except.isOk htexts)
    obtain ⟨text, htext⟩ := exists_eq_ok (hall c ((perm_ordered columns).mem_iff.mpr hc))
    exact (columnDefinition_ok htext).1

/-- What is written for columns declares them. -/
theorem declarations_of_forall₂ {cs : List Column} {texts : List String}
    (hcounter : AddsClause d (" " ++ counter) counted []) (hsafe : SafeReferences cs)
    (h : List.Forall₂ (fun c text => d.columnDefinition counter c = .ok text) cs texts) :
    ∃ xss, List.Forall₂ (Lexed d) texts xss ∧ (∀ xs ∈ xss, isWhole 0 xs = true) ∧
      xss.mapM declaration? = some (cs.map fun c => .column (declared counted c)) := by
  induction h with
  | nil => exact ⟨[], .nil, by simp, rfl⟩
  | @cons c text rest more hok _ ih =>
      obtain ⟨hc, hrest⟩ := List.forall_mem_cons.mp hsafe
      obtain ⟨xs, hxs, hwhole, hdeclaration⟩ := declaration_columnDefinition hcounter hc hok
      obtain ⟨xss, hxss, hwholes, hdeclarations⟩ := ih hrest
      refine ⟨xs :: xss, .cons hxs hxss, List.forall_mem_cons.mpr ⟨hwhole, hwholes⟩, ?_⟩
      simp [hdeclaration, hdeclarations]

/-- The clause of the key columns declares them a key. -/
theorem declarations_keyTexts {names : List String}
    (hsafe : ∀ name ∈ names, Name.isSafe name = true) :
    ∃ xss, List.Forall₂ (Lexed d) (keyTexts names) xss ∧ (∀ xs ∈ xss, isWhole 0 xs = true) ∧
      xss.mapM declaration? = some (keyDeclarations names) := by
  unfold keyTexts keyDeclarations
  by_cases hne : names = []
  · subst hne
    exact ⟨[], .nil, by simp, rfl⟩
  · rw [if_neg (by simpa using hne), if_neg hne]
    have hnames : Query.AreWords d names := fun name hname =>
      Query.lexed_of_isSafe (hsafe name hname)
    have hprimary : Lexed d "PRIMARY" [.word "PRIMARY"] :=
      Query.lexemes_word (by decide) (by decide)
    have hkey : Lexed d "KEY" [.word "KEY"] := Query.lexemes_word (by decide) (by decide)
    have hclause := hprimary.blank (hkey.blank hnames.separated.parenthesized)
    have htext : "PRIMARY" ++ (" " ++ ("KEY" ++ (" " ++ ("(" ++ ", ".intercalate names ++ ")")))) =
        "PRIMARY KEY (" ++ ", ".intercalate names ++ ")" := String.toList_injective (by simp)
    have hwords : ∀ x ∈ separated (names.map fun name => [Lexeme.word name]), x ≠ .opening ∧
        x ≠ .closing := by
      refine Query.forall_mem_separated (by simp) fun xs hxs x hx => ?_
      obtain ⟨name, -, rfl⟩ := List.mem_map.mp hxs
      simp [List.mem_singleton.mp hx]
    refine ⟨[_], .cons (htext ▸ hclause) .nil, List.forall_mem_singleton.mpr ?_, ?_⟩
    · exact (isWhole_append (isWhole_keywords ["PRIMARY", "KEY"])).trans
        (isWhole_parenthesized hwords)
    · simp [declaration?, names?_separated hne]

/-- What is said of columns, with counted ones declared keys so often, and of key columns. -/
def statement (table : String) (columns : List Column) (counted : Nat) (names : List String) :
    TableStatement :=
  ⟨table, (ordered columns).map (fun c => .column (declared counted c)) ++ keyDeclarations names⟩

/-- A table definition is read back. -/
theorem tableStatement?_tableDefinition (hcounter : AddsClause d (" " ++ counter) counted [])
    (hsafe : SafeReferences columns) (hok : d.tableDefinition table columns counter = .ok sql) :
    tableStatement? d sql =
      some (statement table columns counted (keyNames (ordered columns))) := by
  obtain ⟨htable, hne, hnames, texts, htexts, rfl⟩ := tableDefinition_ok hok
  have hmem {c : Column} (hc : c ∈ ordered columns) : c ∈ columns :=
    (perm_ordered columns).mem_iff.mp hc
  have hkeyNames : ∀ name ∈ keyNames (ordered columns), Name.isSafe name = true := by
    intro name hname
    obtain ⟨c, hc, rfl⟩ := List.mem_map.mp hname
    exact hnames c (hmem (List.mem_filter.mp hc).1)
  obtain ⟨xss, hxss, hwhole, hcolumns⟩ :=
    declarations_of_forall₂ hcounter (fun c hc => hsafe c (hmem hc)) htexts
  obtain ⟨yss, hyss, hwhole', hkeys⟩ := declarations_keyTexts (d := d) hkeyNames
  have hcreate : Lexed d "CREATE" [.word "CREATE"] := Query.lexemes_word (by decide) (by decide)
  have hword : Lexed d "TABLE" [.word "TABLE"] := Query.lexemes_word (by decide) (by decide)
  have hparts := (Query.lexed_separated (List.rel_append hxss hyss)).parenthesized
  have hlexed := hcreate.blank (hword.blank ((Query.lexed_of_isSafe htable).blank hparts))
  have hsome : xss ++ yss ≠ [] := fun hnil => by
    obtain ⟨rfl, -⟩ := List.append_eq_nil_iff.mp hnil
    cases hxss
    exact hne
      (List.perm_nil.mp (List.forall₂_nil_right_iff.mp htexts ▸ (perm_ordered columns).symm))
  have hfound := parts?_separated hsome (List.forall_mem_append.mpr ⟨hwhole, hwhole'⟩)
  have htext (items : String) :
    "CREATE" ++ (" " ++ ("TABLE" ++ (" " ++ (table ++ (" " ++ ("(" ++ items ++ ")")))))) =
      "CREATE TABLE " ++ table ++ " (" ++ items ++ ")" := String.toList_injective (by simp)
  rw [htext] at hlexed
  have hdeclarations : (xss ++ yss).mapM declaration? = some ((ordered columns).map
      (fun c => .column (declared counted c)) ++ keyDeclarations (keyNames (ordered columns))) := by
    simp [List.mapM_append, hcolumns, hkeys]
  rw [tableStatement?, hlexed]
  simp [hfound, hdeclarations, statement]

theorem columns_statement (names : List String) :
    (statement table columns counted names).columns = (ordered columns).map (declared counted) := by
  have hkeys : (keyDeclarations names).filterMap Declaration.column? = [] := by
    unfold keyDeclarations
    split_ifs <;> rfl
  rw [TableStatement.columns, statement, List.filterMap_append, hkeys, List.append_nil,
    List.filterMap_map, ← List.filterMap_eq_map]
  rfl

theorem primaryKeys_statement (names : List String) :
    (statement table columns counted names).primaryKeys =
    ((ordered columns).filter (·.isAutoIncrement)).flatMap
      (fun c => List.replicate counted [c.columnName]) ++ if names = [] then [] else [names] := by
  have hkeys : (keyDeclarations names).flatMap Declaration.primaryKeys =
      if names = [] then [] else [names] := by
    unfold keyDeclarations
    split_ifs <;> rfl
  rw [TableStatement.primaryKeys, statement, List.flatMap_append, hkeys, List.flatMap_map]
  congr 1
  induction ordered columns with
  | nil => rfl
  | cons c rest ih =>
      rw [List.flatMap_cons, ih, List.filter_cons]
      by_cases hc : c.isAutoIncrement = true <;> simp [Declaration.primaryKeys, declared, hc]

/-- A statement defines a table if it declares no keys but the key columns. -/
theorem defines_statement {names : List String} (htable : Name.isSafe table = true)
    (hnames : ∀ c ∈ columns, Name.isSafe c.columnName = true) (hsafe : SafeReferences columns)
    (hkeys : (statement table columns counted names).primaryKeys =
      if keyNames (ordered columns) = [] then [] else [keyNames (ordered columns)]) :
    (statement table columns counted names).Defines table columns where
  table := rfl
  columns := by
    refine ⟨ordered columns, perm_ordered columns, pairwise_ordered columns, ?_, hkeys⟩
    rw [columns_statement, List.map_map]
    rfl
  safe := by
    have hmem {c : Column} (hc : c ∈ ordered columns) : c ∈ columns :=
      (perm_ordered columns).mem_iff.mp hc
    intro name hname
    rw [TableStatement.names, columns_statement, hkeys] at hname
    rcases List.mem_append.mp hname with hname | hname
    · rcases List.mem_cons.mp hname with rfl | hname
      · exact htable
      · obtain ⟨declaration, hdeclaration, hname⟩ := List.mem_flatMap.mp hname
        obtain ⟨c, hc, rfl⟩ := List.mem_map.mp hdeclaration
        rcases List.mem_cons.mp hname with rfl | hname
        · exact hnames c (hmem hc)
        · obtain ⟨x, hx, hname⟩ := List.mem_flatMap.mp hname
          obtain ⟨hfirst, hsecond⟩ := hsafe c (hmem hc) x hx
          simp only [List.mem_cons, List.not_mem_nil, or_false] at hname
          rcases hname with rfl | rfl
          · exact hfirst
          · exact hsecond
    · have hname : name ∈ keyNames (ordered columns) := by
        split_ifs at hname
        · cases hname
        · simpa using hname
      obtain ⟨c, hc, rfl⟩ := List.mem_map.mp hname
      exact hnames c (hmem (List.mem_filter.mp hc).1)

end Tables

section Counted
variable {d : Dialect} {table sql : String} {columns : List Column} {key : Column}

theorem soleCountedKey?_some (h : soleCountedKey? columns = some key) :
    key ∈ columns ∧ key.isAutoIncrement = true ∧ columns.filter (·.isPrimaryKey) = [key] := by
  have hkey := List.find?_some h
  simp only [Bool.and_eq_true, beq_iff_eq] at hkey
  obtain ⟨⟨hcounted, hprimary⟩, hlength⟩ := hkey
  have hmem : key ∈ columns := List.mem_of_find?_eq_some h
  obtain ⟨only, honly⟩ := List.length_eq_one_iff.mp hlength
  have hin : key ∈ columns.filter (·.isPrimaryKey) := List.mem_filter.mpr ⟨hmem, hprimary⟩
  obtain rfl : key = only := List.mem_singleton.mp (honly ▸ hin)
  exact ⟨hmem, hcounted, honly⟩

theorem soleCountedKey?_eq_some (hmem : key ∈ columns) (hcounted : key.isAutoIncrement = true)
    (honly : columns.filter (·.isPrimaryKey) = [key]) : soleCountedKey? columns = some key := by
  have hin : key ∈ columns.filter (·.isPrimaryKey) := honly ▸ List.mem_singleton_self key
  cases hfound : soleCountedKey? columns with
  | none =>
      simpa [hcounted, (List.mem_filter.mp hin).2, honly] using List.find?_eq_none.mp
        hfound key hmem
  | some other =>
      obtain ⟨-, -, hother⟩ := soleCountedKey?_some hfound
      rw [(List.cons.inj (hother.symm.trans honly)).1]

/-- A column as it stands in a table with an inline key. -/
def inlined (key c : Column) : Column :=
  if c.columnName = key.columnName then
    { c with isPrimaryKey := false, isUnique := false, isNullable := true }
  else c

theorem withInlineKey_eq (key : Column) (columns : List Column) :
    withInlineKey key columns = columns.map (inlined key) := rfl

/-- Only the flags of a key column differ. -/
theorem inlined_frame (key c : Column) : (inlined key c).columnName = c.columnName ∧
    (inlined key c).ordinalPosition = c.ordinalPosition ∧ (inlined key c).isAutoIncrement =
      c.isAutoIncrement ∧
    references (inlined key c) = references c := by
  unfold inlined
  split_ifs <;> exact ⟨rfl, rfl, rfl, rfl⟩

theorem ordered_withInlineKey (key : Column) (columns : List Column) :
    ordered (withInlineKey key columns) = (ordered columns).map (inlined key) := by
  rw [withInlineKey_eq, ordered, ordered]
  refine (List.map_mergeSort fun a _ b _ => ?_).symm
  rw [(inlined_frame key a).2.1, (inlined_frame key b).2.1]

theorem keyNames_withInlineKey (honly : columns.filter (·.isPrimaryKey) = [key]) :
    keyNames (ordered (withInlineKey key columns)) = [] := by
  rw [ordered_withInlineKey, keyNames, List.map_eq_nil_iff, List.filter_eq_nil_iff]
  intro other hother hprimary
  obtain ⟨c, hc, rfl⟩ := List.mem_map.mp hother
  unfold inlined at hprimary
  split_ifs at hprimary with hname
  have hin : c ∈ columns.filter (·.isPrimaryKey) :=
    List.mem_filter.mpr ⟨(perm_ordered columns).mem_iff.mp hc, hprimary⟩
  rw [honly] at hin
  exact hname (List.mem_singleton.mp hin ▸ rfl)

theorem statement_withInlineKey (key : Column) (columns : List Column) (counted : Nat)
    (names : List String) :
    statement table (withInlineKey key columns) counted names =
      statement table columns counted names := by
  have hdeclared :
    ((ordered columns).map (inlined key)).map (fun c => Declaration.column (declared counted c)) =
      (ordered columns).map fun c => .column (declared counted c) := by
    rw [List.map_map]
    refine List.map_congr_left fun c _ => ?_
    obtain ⟨hname, -, hcounted, hreferences⟩ := inlined_frame key c
    rw [Function.comp_apply, declared, declared, hname, hcounted, hreferences]
  rw [statement, statement, ordered_withInlineKey, hdeclared]

theorem createTable_inline (hkey : soleCountedKey? columns = some key) :
    createTable .sqlite table columns =
    tableDefinition .sqlite table (withInlineKey key columns) (autoIncrementClause .sqlite) := by
  rw [createTable, hkey]

/-- The names in what is made are safe, but for those of foreign keys. -/
theorem isSafe_of_createTable (hok : d.createTable table columns = .ok sql) :
    Name.isSafe table = true ∧ ∀ c ∈ columns, Name.isSafe c.columnName = true := by
  have houtside {counter : String} (hok : d.tableDefinition table columns counter = .ok sql) :
      Name.isSafe table = true ∧ ∀ c ∈ columns, Name.isSafe c.columnName = true := by
    obtain ⟨htable, -, hnames, -⟩ := tableDefinition_ok hok
    exact ⟨htable, hnames⟩
  cases d with
  | postgres => exact houtside hok
  | mysql => exact houtside hok
  | mssql => cases hok
  | sqlite =>
      cases hkey : soleCountedKey? columns with
      | none =>
          rw [createTable, hkey] at hok
          exact houtside hok
      | some key =>
          rw [createTable_inline hkey] at hok
          obtain ⟨htable, -, hnames, -⟩ := tableDefinition_ok hok
          refine ⟨htable, fun c hc => ?_⟩
          exact (inlined_frame key c).1 ▸ hnames _ (List.mem_map_of_mem hc)

/-- The statement of the file-based dialect, where the only key column is counted. -/
theorem tableStatement?_inline (hkey : soleCountedKey? columns = some key)
    (hsafe : SafeReferences columns) (hok : createTable .sqlite table columns = .ok sql) :
    tableStatement? .sqlite sql = some (statement table columns 1 []) := by
  have hsafe' : SafeReferences (withInlineKey key columns) := by
    intro other hother
    obtain ⟨c, hc, rfl⟩ := List.mem_map.mp (withInlineKey_eq key columns ▸ hother)
    rw [(inlined_frame key c).2.2.2]
    exact hsafe c hc
  rw [createTable_inline hkey] at hok
  rw [tableStatement?_tableDefinition (addsClause_autoIncrement .sqlite) hsafe' hok,
    keyNames_withInlineKey (soleCountedKey?_some hkey).2.2, statement_withInlineKey]
  rfl

/-- The statement otherwise. -/
theorem tableStatement?_outline (hkey : d = .sqlite → soleCountedKey? columns = none)
    (hsafe : SafeReferences columns) (hok : d.createTable table columns = .ok sql) :
    tableStatement? d sql = some (statement table columns 0 (keyNames (ordered columns))) := by
  cases d with
  | postgres => exact tableStatement?_tableDefinition (addsClause_autoIncrement .postgres) hsafe hok
  | mysql => exact tableStatement?_tableDefinition (addsClause_autoIncrement .mysql) hsafe hok
  | mssql => cases hok
  | sqlite =>
      rw [createTable, hkey rfl] at hok
      exact tableStatement?_tableDefinition addsClause_blank hsafe hok

/-- A statement with an inline key defines its table just if no other column is counted. -/
theorem defines_inline_iff (hkey : soleCountedKey? columns = some key)
    (htable : Name.isSafe table = true) (hnames : ∀ c ∈ columns, Name.isSafe c.columnName = true)
    (hsafe : SafeReferences columns) :
    (statement table columns 1 []).Defines table columns ↔
    columns.filter (·.isAutoIncrement) = [key] := by
  obtain ⟨hmem, hcounted, honly⟩ := soleCountedKey?_some hkey
  have hkeys : (statement table columns 1 []).primaryKeys =
      ((ordered columns).filter (·.isAutoIncrement)).map fun c => [c.columnName] := by
    rw [primaryKeys_statement, if_pos rfl, List.append_nil, List.map_eq_flatMap]
    rfl
  have hperm :
      ((ordered columns).filter (·.isAutoIncrement)).Perm (columns.filter (·.isAutoIncrement)) :=
    (perm_ordered columns).filter _
  have hkeyNames {others : List Column} (hothers : others.Perm columns) :
      keyNames others = [key.columnName] := by
    have hfilter := hothers.filter (·.isPrimaryKey)
    rw [honly, List.perm_singleton] at hfilter
    rw [keyNames, hfilter]
    rfl
  constructor
  · intro hdefines
    -- Every counted column has made a key of its own, and there may be but one.
    obtain ⟨others, hothers, -, -, hprimary⟩ := hdefines.columns
    rw [hkeys, hkeyNames hothers, if_neg (List.cons_ne_nil _ _)] at hprimary
    have hlength : (columns.filter (·.isAutoIncrement)).length = 1 := by
      rw [← hperm.length_eq, ← List.length_map, hprimary]
      rfl
    obtain ⟨only, hone⟩ := List.length_eq_one_iff.mp hlength
    have hin : key ∈ columns.filter (·.isAutoIncrement) := List.mem_filter.mpr ⟨hmem, hcounted⟩
    rw [hone] at hin ⊢
    rw [List.mem_singleton.mp hin]
  · intro hone
    rw [hone, List.perm_singleton] at hperm
    refine defines_statement htable hnames hsafe ?_
    rw [hkeys, hperm, hkeyNames (perm_ordered columns), if_neg (List.cons_ne_nil _ _)]
    rfl

/-- A statement with a key clause defines its table. -/
theorem defines_outline (htable : Name.isSafe table = true)
    (hnames : ∀ c ∈ columns, Name.isSafe c.columnName = true) (hsafe : SafeReferences columns) :
    (statement table columns 0 (keyNames (ordered columns))).Defines table columns := by
  refine defines_statement htable hnames hsafe ?_
  rw [primaryKeys_statement]
  simp

/-- A statement that is made defines its table just if the foreign keys refer to safe names and, in
the file-based dialect, no column is counted beside an only key column that is. -/
theorem createTable_defines_iff (hok : d.createTable table columns = .ok sql) :
    (∃ s, tableStatement? d sql = some s ∧ s.Defines table columns) ↔
      SafeReferences columns ∧ (d = .sqlite → OneCounted columns) := by
  obtain ⟨htable, hnames⟩ := isSafe_of_createTable hok
  constructor
  · rintro ⟨s, hs, hdefines⟩
    -- What is read has the references of the columns, so these are safe, and it is the statement
    -- that was written.
    have hsafe := hdefines.safeReferences
    refine ⟨hsafe, ?_⟩
    rintro rfl key hmem hcounted honly
    have hkey := soleCountedKey?_eq_some hmem hcounted honly
    obtain rfl := Option.some.inj ((tableStatement?_inline hkey hsafe hok).symm.trans hs)
    exact (defines_inline_iff hkey htable hnames hsafe).mp hdefines
  · rintro ⟨hsafe, hone⟩
    by_cases hinline : d = .sqlite ∧ (soleCountedKey? columns).isSome = true
    · obtain ⟨rfl, hsome⟩ := hinline
      obtain ⟨key, hkey⟩ := Option.isSome_iff_exists.mp hsome
      obtain ⟨hmem, hcounted, honly⟩ := soleCountedKey?_some hkey
      exact ⟨_, tableStatement?_inline hkey hsafe hok,
        (defines_inline_iff hkey htable hnames hsafe).mpr (hone rfl key hmem hcounted honly)⟩
    · have hnone : d = .sqlite → soleCountedKey? columns = none := fun hd => by
        simpa [hd] using hinline
      exact ⟨_, tableStatement?_outline hnone hsafe hok, defines_outline htable hnames hsafe⟩

end Counted

/-- A counted key, and a column that refers to another table, in front of it. -/
def orderColumns : List Column :=
  [{ (Column.plain "orders" "user_id" .integer).referring "users" "id" with ordinalPosition := 2 },
    { (Column.plain "orders" "id" .integer).asPrimaryKey.asAutoIncrement with
      ordinalPosition := 1 }]

theorem createTable_defines_orders :
    let sql :=
      "CREATE TABLE orders (id INTEGER PRIMARY KEY AUTOINCREMENT, user_id INTEGER REFERENCES users(id))"
    createTable .sqlite "orders" orderColumns = .ok sql ∧
      ∃ s, tableStatement? .sqlite sql = some s ∧ s.Defines "orders" orderColumns := by
  have hkey : soleCountedKey? orderColumns = some orderColumns[1] := rfl
  have hok : createTable .sqlite "orders" orderColumns = .ok
      "CREATE TABLE orders (id INTEGER PRIMARY KEY AUTOINCREMENT, user_id INTEGER REFERENCES users(id))" := by
    rw [createTable_inline hkey, tableDefinition,
      mergeSort_eq (List.reverse_perm (withInlineKey orderColumns[1] orderColumns)) (by decide)]
    rfl
  exact ⟨hok, (createTable_defines_iff hok).mpr ⟨by decide +kernel, fun _ => by decide +kernel⟩⟩

/-- A foreign key whose table is a text that goes on with a statement of its own. -/
def hostileColumns : List Column :=
  [(Column.plain "orders" "user_id" .integer).referring "users(id)); DROP TABLE users; --" "id"]

/-- A counted key and another counted column. -/
def twiceCountedColumns : List Column :=
  [(Column.plain "t" "id" .integer).asPrimaryKey.asAutoIncrement,
    { (Column.plain "t" "n" .integer).asAutoIncrement with ordinalPosition := 1 }]

/-- What a foreign key refers to is written as it is, and every counted column of the file-based
dialect gets the clause of the counted key. -/
theorem createTable_without_definition :
    (∃ sql, createTable .postgres "orders" hostileColumns = .ok sql ∧
      ¬∃ s, tableStatement? .postgres sql = some s ∧ s.Defines "orders" hostileColumns) ∧
    ∃ sql, createTable .sqlite "t" twiceCountedColumns = .ok sql ∧
      ¬∃ s, tableStatement? .sqlite sql = some s ∧ s.Defines "t" twiceCountedColumns := by
  constructor
  · have hok : createTable .postgres "orders" hostileColumns = .ok
        "CREATE TABLE orders (user_id bigint REFERENCES users(id)); DROP TABLE users; --(id))" := by
      change tableDefinition .postgres "orders" hostileColumns (autoIncrementClause .postgres) = _
      rw [tableDefinition, mergeSort_eq (List.Perm.refl hostileColumns) (by decide)]
      rfl
    refine ⟨_, hok, ?_⟩
    rintro ⟨s, -, hdefines⟩
    exact absurd hdefines.safeReferences (by decide +kernel)
  · have hkey : soleCountedKey? twiceCountedColumns = some twiceCountedColumns[0] := rfl
    have hok : createTable .sqlite "t" twiceCountedColumns = .ok
        "CREATE TABLE t (id INTEGER PRIMARY KEY AUTOINCREMENT, n INTEGER PRIMARY KEY AUTOINCREMENT)" := by
      rw [createTable_inline hkey, tableDefinition,
        mergeSort_eq (List.Perm.refl (withInlineKey twiceCountedColumns[0] twiceCountedColumns))
          (by decide)]
      rfl
    refine ⟨_, hok, ?_⟩
    rintro ⟨s, hs, hdefines⟩
    obtain ⟨htable, hnames⟩ := isSafe_of_createTable hok
    obtain rfl :=
      Option.some.inj ((tableStatement?_inline hkey hdefines.safeReferences hok).symm.trans hs)
    have hone := (defines_inline_iff hkey htable hnames hdefines.safeReferences).mp hdefines
    exact absurd hone (by decide +kernel)

end SqlGateway.Dialect
