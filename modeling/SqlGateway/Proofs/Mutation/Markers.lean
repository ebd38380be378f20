import SqlGateway.Mutation.Statement
import SqlGateway.Proofs.Query.Composition
import SqlGateway.Proofs.Query.Phrases

/-!
# Markers in write statements

Where the markers of parameters stand in the text of a write. An insert numbers them row by row in
its list of values, an update has one in each assignment, and no other word of a statement has one:
names, operators and numerals hold none, and what a literal holds is not a word. A text need not be
cut by the rules of the dialect that it is written in: MySQL can be set to read literals as the
others do.
-/
namespace SqlGateway.Mutation

open Number
open Query (Lexeme Lexed Adds Phrase keywords separated isUnmarked lexemes)

/-- A marker begins in the characters: at a question mark, or at a dollar sign that does not go on
with a name. -/
def hasMarker : (inName : Bool) → List Char → Bool
  | _, [] => false
  | inName, c :: rest => c == '?' || (c == '$' && !inName) || hasMarker (Name.isTailChar c) rest

/-- The whole word is a marker: a question mark, or a dollar sign and a number. -/
def isMarker (w : String) : Bool :=
  match w.toList with
  | ['?'] => true
  | '$' :: digits => !digits.isEmpty && digits.all isDigit
  | _ => false

/-- The markers in a lexeme; none where a marker is a part of a word. -/
def lexemeMarkers? : Lexeme → Option (List String)
  | .word w => if hasMarker false w.toList then if isMarker w then some [w] else none else some []
  | _ => some []

/-- The markers among lexemes, in order. -/
def markers? : List Lexeme → Option (List String)
  | [] => some []
  | x :: rest => (lexemeMarkers? x).bind fun own => (markers? rest).map (own ++ ·)

/-- The markers that are found in a text, outside of the literals, by the rules of a dialect. -/
def textMarkers? (e : Dialect) (text : String) : Option (List String) :=
  (lexemes e text.toList).bind markers?

/-- Lexemes without markers. -/
def Unmarked (xs : List Lexeme) : Prop := ∀ x ∈ xs, lexemeMarkers? x = some []

section Lists
variable {xs ys : List Lexeme} {before after : List String}

theorem Unmarked.markers? (h : Unmarked xs) : markers? xs = some [] := by
  induction xs with
  | nil => rfl
  | cons x rest ih =>
      obtain ⟨hx, hrest⟩ := List.forall_mem_cons.mp h
      simp [Mutation.markers?, hx, ih hrest]

theorem Unmarked.append (hx : Unmarked xs) (hy : Unmarked ys) : Unmarked (xs ++ ys) :=
  List.forall_mem_append.mpr ⟨hx, hy⟩

theorem markers?_append (hx : markers? xs = some before) (hy : markers? ys = some after) :
    markers? (xs ++ ys) = some (before ++ after) := by
  induction xs generalizing before with
  | nil =>
      obtain rfl := Option.some.inj hx
      exact hy
  | cons x rest ih =>
      obtain ⟨own, hown, hrest⟩ := Option.bind_eq_some_iff.mp hx
      obtain ⟨others, hothers, rfl⟩ := Option.map_eq_some_iff.mp hrest
      simp [markers?, hown, ih hothers]

theorem markers?_separated {xss : List (List Lexeme)} {lists : List (List String)}
    (h : List.Forall₂ (fun xs own => markers? xs = some own) xss lists) :
    markers? (separated xss) = some lists.flatten := by
  induction h with
  | nil => rfl
  | @cons xs own rest others hxs hrest ih =>
      cases hrest with
      | nil => simpa [separated] using hxs
      | cons hnext hmore =>
          have hcomma : markers? [.comma] = some [] := rfl
          have hrest := markers?_append hcomma ih
          rw [separated, List.intercalate_cons_cons, List.append_assoc]
          exact markers?_append hxs hrest

theorem unmarked_separated {xss : List (List Lexeme)} (h : ∀ xs ∈ xss, Unmarked xs) :
    Unmarked (separated xss) :=
  Query.forall_mem_separated rfl h

end Lists

/-- A word of its own that holds no marker. -/
def isPlain (w : String) : Bool := w != "" && w.toList.all isUnmarked && !hasMarker false w.toList

section Plain
variable {w : String} {cs : List Char} {e : Dialect}

theorem isPlain_iff : isPlain w = true ↔
    w ≠ "" ∧ (∀ c ∈ w.toList, isUnmarked c = true) ∧ hasMarker false w.toList = false := by
  simp [isPlain, and_assoc]

theorem lexed_of_isPlain (h : isPlain w = true) : Lexed e w [.word w] := by
  obtain ⟨hne, hchars, _⟩ := isPlain_iff.mp h
  exact Query.lexemes_word hne hchars

theorem unmarked_of_isPlain (h : isPlain w = true) : Unmarked [.word w] := by
  obtain ⟨_, _, hmarker⟩ := isPlain_iff.mp h
  exact List.forall_mem_singleton.mpr (by simp [lexemeMarkers?, hmarker])

theorem unmarked_keywords {ws : List String} (h : ∀ w ∈ ws, isPlain w = true) :
    Unmarked (keywords ws) := by
  intro x hx
  obtain ⟨w, hw, rfl⟩ := List.mem_map.mp hx
  exact unmarked_of_isPlain (h w hw) _ List.mem_cons_self

theorem hasMarker_of_forall (h : ∀ c ∈ cs, c ≠ '?' ∧ c ≠ '$') (inName : Bool) :
    hasMarker inName cs = false := by
  induction cs generalizing inName with
  | nil => rfl
  | cons c rest ih =>
      obtain ⟨⟨hquestion, hdollar⟩, hrest⟩ := List.forall_mem_cons.mp h
      simp [hasMarker, hquestion, hdollar, ih hrest]

/-- Nothing goes on with a name behind a dot. -/
theorem hasMarker_append_dot (inName : Bool) (cs ds : List Char) :
    hasMarker inName (cs ++ '.' :: ds) = (hasMarker inName cs || hasMarker false ds) := by
  induction cs generalizing inName with
  | nil => rfl
  | cons c rest ih => simp [hasMarker, ih, Bool.or_assoc]

/-- The parts of a safe name begin with no dollar sign, so all its dollar signs go on with a
name. -/
theorem hasMarker_of_segments (cs : List Char) :
    ((Name.segments '.' cs).all Name.isSafeSegment = true → hasMarker false cs = false) ∧
      ∀ first others, Name.segments '.' cs = first :: others → first.all Name.isTailChar = true →
        others.all Name.isSafeSegment = true → hasMarker true cs = false := by
  have htail : ∀ {c : Char}, Name.isTailChar c = true → c ≠ '?' := by
    rintro c hc rfl
    exact absurd hc (by decide)
  -- The first part speaks of where a segment begins, the second of where one goes on; a dot leads
  -- back to the first.
  induction cs with
  | nil => exact ⟨fun _ => rfl, fun _ _ _ _ _ => rfl⟩
  | cons c rest ih =>
      obtain ⟨ihfresh, ihname⟩ := ih
      by_cases hdot : c = '.'
      · subst hdot
        have hsegments : Name.segments '.' ('.' :: rest) = [] :: Name.segments '.' rest := by
          simp [Name.segments]
        refine ⟨fun h => ?_, fun first others heq _ hothers => ?_⟩
        · rw [hsegments] at h
          cases h
        · obtain ⟨rfl, rfl⟩ := List.cons.inj (hsegments.symm.trans heq)
          exact ihfresh hothers
      · obtain ⟨first, others, hrest⟩ := List.exists_cons_of_ne_nil (Name.segments_ne_nil '.' rest)
        have hsegments : Name.segments '.' (c :: rest) = (c :: first) :: others := by
          simp [Name.segments, hdot, hrest]
        refine ⟨fun h => ?_, fun first' others' heq hfirst hothers => ?_⟩
        · rw [hsegments, List.all_cons, Bool.and_eq_true] at h
          obtain ⟨hsegment, hothers⟩ := h
          obtain ⟨hhead, hfirst⟩ := Bool.and_eq_true_iff.mp hsegment
          have hc : Name.isTailChar c = true :=
            Name.isTailChar_of_isSafeSegment hsegment c List.mem_cons_self
          have hdollar : c ≠ '$' := by
            rintro rfl
            exact absurd hhead (by decide)
          simp [hasMarker, htail hc, hdollar, hc, ihname first others hrest hfirst hothers]
        · obtain ⟨rfl, rfl⟩ := List.cons.inj (hsegments.symm.trans heq)
          rw [List.all_cons, Bool.and_eq_true] at hfirst
          obtain ⟨hc, hfirst⟩ := hfirst
          simp [hasMarker, htail hc, hc, ihname first others hrest hfirst hothers]

theorem isPlain_of_isSafe (h : Name.isSafe w = true) : isPlain w = true := by
  refine isPlain_iff.mpr ⟨?_, Query.isUnmarked_of_isSafe h, (hasMarker_of_segments w.toList).1 h⟩
  rintro rfl
  cases h

/-- A name behind the row that it is a column of. -/
theorem isPlain_dotted (row : String) (hrow : isPlain row = true) (h : isPlain w = true) :
    isPlain (row ++ "." ++ w) = true := by
  obtain ⟨_, hrowChars, hrowMarker⟩ := isPlain_iff.mp hrow
  obtain ⟨_, hchars, hmarker⟩ := isPlain_iff.mp h
  have htext : (row ++ "." ++ w).toList = row.toList ++ '.' :: w.toList := by simp
  refine isPlain_iff.mpr ⟨fun hempty => ?_, ?_, ?_⟩
  · rw [hempty] at htext
    simp at htext
  · rw [htext]
    exact List.forall_mem_append.mpr ⟨hrowChars, List.forall_mem_cons.mpr ⟨by decide, hchars⟩⟩
  · rw [htext, hasMarker_append_dot, hrowMarker, hmarker]
    rfl

/-- No word inside a condition holds a marker. -/
theorem unmarked_of_inner {x : Lexeme} (h : x.Inner) : lexemeMarkers? x = some [] := by
  cases x with
  | word w =>
      have hmarker : hasMarker false w.toList = false := by
        rcases Query.inner_word_cases h with hfixed | hread | ⟨hsafe, _⟩
        · have hall : ∀ w ∈ Query.fixedWords ++ Query.innerWords, hasMarker false w.toList =
            false := by decide
          exact hall w hfixed
        · obtain ⟨_, hnumber⟩ := Option.isSome_iff_exists.mp hread
          refine hasMarker_of_forall (fun c hc => ?_) false
          have hnumeral := isNumeralChar_of_float? hnumber c hc
          constructor
          · rintro rfl
            exact absurd hnumeral (by decide)
          · rintro rfl
            exact absurd hnumeral (by decide)
        · exact (hasMarker_of_segments w.toList).1 hsafe
      simp [lexemeMarkers?, hmarker]
  | literal _ | name _ | opening | closing | comma => rfl

theorem toList_marker (d : Dialect) (n : Nat) :
    (d.marker n).toList = if d = .postgres then '$' :: decimalDigits n else ['?'] := by
  cases d with
  | postgres =>
      have htext : (Dialect.postgres.marker n).toList = '$' :: (toString n).toList :=
        String.toList_append
      rw [htext, if_pos rfl]
      exact congrArg ('$' :: ·) Nat.toList_repr
  | mysql | mssql | sqlite =>
      rw [if_neg (by decide)]
      change "?".toList = ['?']
      decide

/-- The marker of a dialect is a word of its own. -/
theorem lexed_marker (d e : Dialect) (n : Nat) : Lexed e (d.marker n) [.word (d.marker n)] := by
  have hchars := toList_marker d n
  refine Query.lexemes_word (fun hempty => ?_) ?_
  · rw [hempty] at hchars
    split_ifs at hchars <;> cases hchars
  · rw [hchars]
    split_ifs
    · refine List.forall_mem_cons.mpr ⟨by decide, fun c hc => Query.isUnmarked_of_isNumeralChar ?_⟩
      have hdigit := isDigit_of_mem_decimalDigits hc
      simp [isNumeralChar, toLower_of_isDigit hdigit, isNumeric_of_isDigit hdigit]
    · decide

theorem markers?_marker (d : Dialect) (n : Nat) :
    markers? [.word (d.marker n)] = some [d.marker n] := by
  have hchars := toList_marker d n
  have hwhole : hasMarker false (d.marker n).toList = true ∧ isMarker (d.marker n) = true := by
    unfold isMarker
    rw [hchars]
    split_ifs
    · have hne : decimalDigits n ≠ [] := Nat.toDigits_ne_nil
      have hdigits : (decimalDigits n).all isDigit = true :=
        List.all_eq_true.mpr fun c hc => isDigit_of_mem_decimalDigits hc
      exact ⟨rfl, by simp [hne, hdigits]⟩
    · exact ⟨rfl, rfl⟩
  simp only [markers?, lexemeMarkers?, hwhole, if_true]
  rfl

end Plain

/-- A text that adds lexemes without markers to those before it. -/
def AddsUnmarked (e : Dialect) (text : String) : Prop := ∃ xs, Adds e text xs ∧ Unmarked xs

section Clauses
variable {d e : Dialect} {w : String} {returning columns : List String}

theorem AddsUnmarked.empty : AddsUnmarked e "" := ⟨[], .empty, List.forall_mem_nil _⟩

theorem AddsUnmarked.blank {text : String} {xs : List Lexeme} (h : Lexed e text xs)
    (hxs : Unmarked xs) : AddsUnmarked e (" " ++ text) :=
  ⟨xs, .blank h, hxs⟩

theorem lexed_names {names : List String} (h : ∀ name ∈ names, isPlain name = true) :
    Lexed e (", ".intercalate names) (separated (names.map fun name => [.word name])) ∧
      Unmarked (separated (names.map fun name => [.word name])) := by
  constructor
  · exact Query.AreWords.separated fun name hname => lexed_of_isPlain (h name hname)
  · refine unmarked_separated fun xs hxs => ?_
    obtain ⟨name, hname, rfl⟩ := List.mem_map.mp hxs
    exact unmarked_of_isPlain (h name hname)

/-- The columns asked back, of the new or the old row where it is named. -/
theorem lexed_returningList (front : String) (hfront : front ∈ ["", "INSERTED.", "DELETED."])
    (h : ∀ column ∈ returning, isPlain column = true) :
    ∃ xs, Lexed e (Statement.returningList returning front) xs ∧ Unmarked xs := by
  have hplain : ∀ column, isPlain column = true → isPlain (front ++ column) = true := by
    intro column hcolumn
    simp only [List.mem_cons, List.not_mem_nil, or_false] at hfront
    rcases hfront with rfl | rfl | rfl
    · rwa [String.empty_append]
    · exact isPlain_dotted "INSERTED" (by decide) hcolumn
    · exact isPlain_dotted "DELETED" (by decide) hcolumn
  unfold Statement.returningList
  split
  · have hall := hplain "*" (by decide)
    exact ⟨_, lexed_of_isPlain hall, unmarked_of_isPlain hall⟩
  · refine ⟨_, lexed_names fun name hname => ?_⟩
    obtain ⟨column, hcolumn, rfl⟩ := List.mem_map.mp hname
    exact hplain column (h column hcolumn)

/-- A clause that begins with a word. -/
theorem AddsUnmarked.clause {text : String} {xs : List Lexeme} (hw : isPlain w = true)
    (h : Lexed e text xs) (hxs : Unmarked xs) : AddsUnmarked e (" " ++ w ++ " " ++ text) := by
  have hclause :=
    AddsUnmarked.blank ((lexed_of_isPlain hw).blank h) ((unmarked_of_isPlain hw).append hxs)
  simpa [String.append_assoc] using hclause

theorem adds_suffixClause (h : ∀ column ∈ returning, isPlain column = true) :
    AddsUnmarked e (Statement.suffixClause d returning) := by
  have hword : " " ++ "RETURNING" ++ " " = " RETURNING " := by decide
  unfold Statement.suffixClause
  split
  · obtain ⟨xs, hxs, hunmarked⟩ := lexed_returningList (e := e) "" (by decide) h
    exact hword ▸ AddsUnmarked.clause (by decide) hxs hunmarked
  · exact .empty

theorem adds_outputClause (side : String) (hside : side ∈ ["INSERTED", "DELETED"])
    (h : ∀ column ∈ returning, isPlain column = true) :
    AddsUnmarked e (Statement.outputClause d returning side) := by
  have hword : " " ++ "OUTPUT" ++ " " = " OUTPUT " := by decide
  have hfront : side ++ "." ∈ ["", "INSERTED.", "DELETED."] := by
    revert side
    decide
  unfold Statement.outputClause
  split
  · obtain ⟨xs, hxs, hunmarked⟩ := lexed_returningList (e := e) _ hfront h
    exact hword ▸ AddsUnmarked.clause (by decide) hxs hunmarked
  · exact .empty

theorem adds_whereClause {filter : Option String} (h : ∀ text ∈ filter, Phrase e text) :
    AddsUnmarked e (Statement.whereClause filter) := by
  have hword : " " ++ "where" ++ " " = " where " := by decide
  cases filter with
  | none => exact .empty
  | some text =>
      obtain ⟨xs, hxs, hclause⟩ := (h text rfl).exists_lexed
      rw [Statement.whereClause, ← hword]
      exact AddsUnmarked.clause (by decide) hxs fun x hx => unmarked_of_inner (hclause.inner x hx)

end Clauses

/-- The lexemes of a batch of values: in each row a marker for each column, numbered row by row. -/
def valueLexemes (d : Dialect) (rows columns : Nat) : List Lexeme :=
  separated ((List.range rows).map fun r =>
    .opening :: (separated ((List.range columns).map fun c =>
    [.word (d.marker (r * columns + c + 1))]) ++ [.closing]))

/-- The lexemes of the assignments of an update: a column and its marker in each. -/
def assignmentLexemes (d : Dialect) (columns : List String) : List Lexeme :=
  separated (columns.mapIdx fun c column => [.word column, .word "=", .word (d.marker (c + 1))])

/-- The first markers of a dialect, in order. -/
def firstMarkers (d : Dialect) (n : Nat) : List String := (List.range n).map fun k =>
  d.marker (k + 1)

section Values
variable {d e : Dialect} {columns : List String}

theorem lexed_markerRows (d e : Dialect) (rows columns : Nat) :
    Lexed e (d.markerRows rows columns) (valueLexemes d rows columns) := by
  refine Query.lexed_separated ?_
  rw [List.forall₂_map_left_iff, List.forall₂_map_right_iff, List.forall₂_same]
  intro r _
  have hrow :
    Lexed e (", ".intercalate ((List.range columns).map fun c => d.marker (r * columns + 1 + c)))
      (separated ((List.range columns).map fun c => [.word (d.marker (r * columns + c + 1))])) := by
    refine Query.lexed_separated ?_
    rw [List.forall₂_map_left_iff, List.forall₂_map_right_iff, List.forall₂_same]
    intro c _
    rw [Nat.add_right_comm]
    exact lexed_marker d e _
  simpa [Dialect.markerRow, Lexed] using Query.lexemes_parenthesized hrow

/-- The markers of a batch are the first ones: those of a row are followed by those of the next. -/
theorem flatten_markerRows (d : Dialect) (rows columns : Nat) :
    ((List.range rows).map fun r => (List.range columns).map fun c =>
      d.marker (r * columns + c + 1)).flatten = firstMarkers d (rows * columns) := by
  -- One more row goes behind the others, so the numbers of these stay.
  induction rows with
  | zero => simp [firstMarkers]
  | succ rows ih =>
      rw [List.range_succ, List.map_append, List.flatten_append, ih, firstMarkers, firstMarkers,
        Nat.succ_mul, List.range_add, List.map_append, List.map_map]
      simp [Function.comp_def]

/-- Cells with one marker each, with commas between them. -/
theorem markers?_cells {cells : List (List Lexeme)} {markers : List String}
    (h : List.Forall₂ (fun cell marker => markers? cell = some [marker]) cells markers) :
    markers? (separated cells) = some markers := by
  have hflatten : (markers.map fun marker => [marker]).flatten = markers := by
    rw [← List.flatMap_def, ← List.map_eq_flatMap, List.map_id']
  have hcells := markers?_separated (List.forall₂_map_right_iff.mpr h)
  rwa [hflatten] at hcells

theorem markers?_valueLexemes (d : Dialect) (rows columns : Nat) :
    markers? (valueLexemes d rows columns) = some (firstMarkers d (rows * columns)) := by
  rw [← flatten_markerRows]
  refine markers?_separated ?_
  rw [List.forall₂_map_left_iff, List.forall₂_map_right_iff, List.forall₂_same]
  intro r _
  have hopening : markers? [.opening] = some [] := rfl
  have hclosing : markers? [.closing] = some [] := rfl
  have hrow : markers? (separated ((List.range columns).map fun c =>
      [.word (d.marker (r * columns + c + 1))])) =
        some ((List.range columns).map fun c => d.marker (r * columns + c + 1)) := by
    refine markers?_cells ?_
    rw [List.forall₂_map_left_iff, List.forall₂_map_right_iff, List.forall₂_same]
    exact fun c _ => markers?_marker d _
  simpa using markers?_append hopening (markers?_append hrow hclosing)

theorem lexed_assignments (h : ∀ column ∈ columns, isPlain column = true) :
    Lexed e (", ".intercalate (Statement.assignments d columns)) (assignmentLexemes d columns) := by
  have hsign : Lexed e "=" [.word "="] := Query.lexemes_word (by decide) (by decide)
  refine Query.lexed_separated (List.forall₂_iff_get.mpr ⟨by simp [Statement.assignments], ?_⟩)
  intro c hc _
  have hc : c < columns.length := by simpa [Statement.assignments] using hc
  have hcolumn := lexed_of_isPlain (e := e) (h columns[c] (List.getElem_mem hc))
  have hassignment := hcolumn.blank (hsign.blank (lexed_marker d e (c + 1)))
  have htext : columns[c] ++ (" " ++ ("=" ++ (" " ++ d.marker (c + 1)))) =
      columns[c] ++ " = " ++ d.marker (c + 1) := String.toList_injective (by simp)
  rw [htext] at hassignment
  simpa [Statement.assignments] using hassignment

theorem markers?_assignmentLexemes (h : ∀ column ∈ columns, isPlain column = true) :
    markers? (assignmentLexemes d columns) = some (firstMarkers d columns.length) := by
  refine markers?_cells (List.forall₂_iff_get.mpr ⟨by simp [firstMarkers], ?_⟩)
  intro c hc _
  have hc : c < columns.length := by simpa using hc
  have hplain : ∀ w ∈ [columns[c], "="], isPlain w = true :=
    List.forall_mem_cons.mpr ⟨h _ (List.getElem_mem hc), List.forall_mem_singleton.mpr (by decide)⟩
  have hcolumn : Unmarked [.word columns[c], .word "="] := unmarked_keywords hplain
  simpa [firstMarkers] using markers?_append hcolumn.markers? (markers?_marker d (c + 1))

end Values

theorem lexed_of_eq {e : Dialect} {a b : String} {xs ys : List Lexeme} (h : Lexed e a xs)
    (htext : a = b) (hlexemes : xs = ys) : Lexed e b ys :=
  htext ▸ hlexemes ▸ h

/-- The lexemes of an insert up to its values. -/
def insertFront (table : String) (columns : List String) (answer : List Lexeme) : List Lexeme :=
  keywords ["insert", "into", table] ++
    .opening :: (separated (columns.map fun column => [.word column]) ++ .closing :: answer) ++
    keywords ["values"]

section Statements
variable {d e : Dialect} {table : String} {columns returning : List String} {filter : Option String}

/-- An insert has its columns in front of its values, and no marker but those of its values. -/
theorem lexed_insert (htable : isPlain table = true)
    (hcolumns : ∀ column ∈ columns, isPlain column = true)
    (hreturning : ∀ column ∈ returning, isPlain column = true) (rows : Nat) :
    ∃ answer back, Lexed e (Statement.insert d table columns rows returning)
        (insertFront table columns answer ++ valueLexemes d rows columns.length ++ back) ∧
      Unmarked (insertFront table columns answer) ∧ Unmarked back := by
  obtain ⟨answer, hanswer, hanswerMarks⟩ :=
    adds_outputClause (d := d) (e := e) "INSERTED" (by decide) hreturning
  obtain ⟨back, hback, hbackMarks⟩ := adds_suffixClause (d := d) (e := e) hreturning
  obtain ⟨hnames, hnamesMarks⟩ := lexed_names (e := e) hcolumns
  have hfront := (lexed_of_isPlain (e := e) (w := "insert") (by decide)).blank
    ((lexed_of_isPlain (w := "into") (by decide)).blank (lexed_of_isPlain htable))
  have hlist : Lexed e ("(" ++ ", ".intercalate columns ++ ")")
      (.opening :: (separated (columns.map fun column => [.word column]) ++ [.closing])) :=
        hnames.parenthesized
  have hvalues : Adds e (" " ++ ("values" ++ (" " ++ d.markerRows rows columns.length)))
      ([.word "values"] ++ valueLexemes d rows columns.length) :=
    .blank ((lexed_of_isPlain (by decide)).blank (lexed_markerRows d e rows columns.length))
  have hwhole := (((Adds.blank hlist).append hanswer).append hvalues |>.append hback) _ _ hfront
  have htext : ∀ names output rows suffix : String,
      "insert" ++ (" " ++ ("into" ++ (" " ++ table))) ++ (" " ++ ("(" ++ names ++ ")") ++ output ++
        (" " ++ ("values" ++ (" " ++ rows))) ++ suffix) =
      "insert into " ++ table ++ " (" ++ names ++ ")" ++ output ++ " values " ++ rows ++
        suffix := by
    intro names output rows suffix
    exact String.toList_injective (by simp)
  refine ⟨answer, back, lexed_of_eq hwhole (htext _ _ _ _) (by simp [insertFront, keywords]),
    ?_, hbackMarks⟩
  have hkeywords : Unmarked (keywords ["insert", "into", table]) :=
    unmarked_keywords (by simp [htable]; decide)
  have hvaluesWord : Unmarked (keywords ["values"]) := unmarked_keywords (by decide)
  have hopening : Unmarked [.opening] := by simp [Unmarked, lexemeMarkers?]
  have hclosing : Unmarked [.closing] := by simp [Unmarked, lexemeMarkers?]
  have hcolumnsMarks := hopening.append (hnamesMarks.append (hclosing.append hanswerMarks))
  exact (hkeywords.append hcolumnsMarks).append hvaluesWord

/-- An update assigns a marker to each of its columns, and has no other. -/
theorem lexed_update (htable : isPlain table = true)
    (hcolumns : ∀ column ∈ columns, isPlain column = true)
    (hreturning : ∀ column ∈ returning, isPlain column = true)
    (hfilter : ∀ text ∈ filter, Phrase e text) :
    ∃ back, Lexed e (Statement.update d table columns filter returning)
        (keywords ["update", table, "set"] ++ assignmentLexemes d columns ++ back) ∧
      Unmarked (keywords ["update", table, "set"]) ∧ Unmarked back := by
  obtain ⟨answer, hanswer, hanswerMarks⟩ :=
    adds_outputClause (d := d) (e := e) "INSERTED" (by decide) hreturning
  obtain ⟨condition, hcondition, hconditionMarks⟩ := adds_whereClause hfilter
  obtain ⟨back, hback, hbackMarks⟩ := adds_suffixClause (d := d) (e := e) hreturning
  have hfront := (lexed_of_isPlain (e := e) (w := "update") (by decide)).blank
    ((lexed_of_isPlain htable).blank
      ((lexed_of_isPlain (w := "set") (by decide)).blank (lexed_assignments (d := d) hcolumns)))
  have hwhole := ((hanswer.append hcondition).append hback) _ _ hfront
  have htext : ∀ assignments output condition suffix : String,
      "update" ++ (" " ++ (table ++ (" " ++ ("set" ++ (" " ++ assignments))))) ++
        (output ++ condition ++ suffix) =
      "update " ++ table ++ " set " ++ assignments ++ output ++ condition ++ suffix := by
    intro assignments output condition suffix
    exact String.toList_injective (by simp)
  refine ⟨answer ++ condition ++ back, lexed_of_eq hwhole (htext _ _ _ _)
    (by simp [keywords]), ?_, ?_⟩
  · exact unmarked_keywords (by simp [htable]; decide)
  · exact (hanswerMarks.append hconditionMarks).append hbackMarks

/-- A delete has no markers. -/
theorem lexed_delete (htable : isPlain table = true)
    (hreturning : ∀ column ∈ returning, isPlain column = true)
    (hfilter : ∀ text ∈ filter, Phrase e text) :
    ∃ xs, Lexed e (Statement.delete d table filter returning) xs ∧ Unmarked xs := by
  obtain ⟨answer, hanswer, hanswerMarks⟩ :=
    adds_outputClause (d := d) (e := e) "DELETED" (by decide) hreturning
  obtain ⟨condition, hcondition, hconditionMarks⟩ := adds_whereClause hfilter
  obtain ⟨back, hback, hbackMarks⟩ := adds_suffixClause (d := d) (e := e) hreturning
  have hfront := (lexed_of_isPlain (e := e) (w := "delete") (by decide)).blank
    ((lexed_of_isPlain (w := "from") (by decide)).blank (lexed_of_isPlain htable))
  have hwhole := ((hanswer.append hcondition).append hback) _ _ hfront
  have hkeywords : Unmarked (keywords ["delete", "from", table]) :=
    unmarked_keywords (by simp [htable]; decide)
  have htext : ∀ output condition suffix : String,
      "delete" ++ (" " ++ ("from" ++ (" " ++ table))) ++ (output ++ condition ++ suffix) =
      "delete from " ++ table ++ output ++ condition ++ suffix := by
    intro output condition suffix
    exact String.toList_injective (by simp)
  exact ⟨_, lexed_of_eq hwhole (htext _ _ _) (by simp [keywords]),
    hkeywords.append ((hanswerMarks.append hconditionMarks).append hbackMarks)⟩

end Statements

end SqlGateway.Mutation
