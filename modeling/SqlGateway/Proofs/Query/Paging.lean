import Mathlib.Data.List.Chain
import SqlGateway.Proofs.Query.Composition
import SqlGateway.Proofs.Query.Ordered

/-!
# Statements cut to their rows

The row limit of each dialect has its place in the statement: after everything else, or before the
columns, where SQL Server puts it unless rows are skipped.

A table may have the name of a keyword that orders or cuts rows. In a statement such a keyword is
known from the table by what follows it, for after a table the statement goes on with one of few
words.
-/
namespace SqlGateway.Query

open Text Dialect SelectStatement
open Schema (Registry)

/-- The words that may follow a table. -/
def tableFollowers : List String := ["INNER", "LEFT", "RIGHT", "ON", "WHERE", "GROUP", "ORDER"]

/-- The words that order rows or cut them, but for the one that stands before the columns. -/
def rowWords : List String := "ORDER" :: lastWords

/-- Lexemes in a row of which the first is one of some words only as a table. -/
def OnlyTables (ws : List String) (x y : Lexeme) : Prop :=
  ∀ w, x = .word w → uppered w ∈ ws → ∃ v ∈ tableFollowers, y = .word v

/-- A lexeme that is none of some words. -/
def Unlisted (ws : List String) (x : Lexeme) : Prop := ∀ w, x = .word w → uppered w ∉ ws

/-- Lexemes that a statement may go on with after a table. -/
structure Continues (ws : List String) (xs : List Lexeme) : Prop where
  chain : xs.IsChain (OnlyTables ws)
  head : ∀ x ∈ xs.head?, ∃ v ∈ tableFollowers, x = .word v

section Tables
variable {ws more : List String} {xs ys : List Lexeme} {s : SelectStatement}
  {IsTable : String → Prop}

theorem Unlisted.mono {x : Lexeme} (h : Unlisted more x) (hws : ws ⊆ more) : Unlisted ws x :=
  fun w hx hmem => h w hx (hws hmem)

theorem unlisted_of_inner {x : Lexeme} (h : x.Inner) : Unlisted rowWords x := by
  have hrows : rowWords ⊆ clauseWords := by decide
  rintro w rfl hmem
  exact not_reserved_of_inner h (hrows hmem)

theorem unlisted_keywords {words : List String} (h : ∀ w ∈ words, uppered w ∉ ws) :
    ∀ x ∈ keywords words, Unlisted ws x := by
  intro x hx w hw
  obtain ⟨v, hv, rfl⟩ := List.mem_map.mp hx
  exact Lexeme.word.inj hw ▸ h v hv

theorem unlisted_separated {terms : List (List Lexeme)} (h : ∀ xs ∈ terms, InClause xs) :
    ∀ x ∈ separated terms, Unlisted rowWords x :=
  forall_mem_separated (unlisted_of_inner .comma) fun xs hxs x hx =>
    unlisted_of_inner ((h xs hxs).inner x hx)

/-- What stands before the main table has no table in it. -/
theorem SelectStatement.Legible.unlisted_before (h : s.Legible IsTable) :
    ∀ x ∈ s.before, Unlisted rowWords x := by
  have hamong : ∀ x ∈ s.before, x.Among (Registry.empty "") beforeWords := h.among_before
  have hrows : ∀ v ∈ rowWords, v ∈ clauseWords ∧ ∀ w ∈ beforeWords, uppered w ≠ v := by decide
  rintro x hx w rfl hmem
  obtain ⟨hclause, hbefore⟩ := hrows _ hmem
  exact (hamong _ hx).uppered_ne hclause hbefore rfl

theorem isChain_append_of_unlisted (h : ∀ x ∈ xs, Unlisted ws x)
    (hys : ys.IsChain (OnlyTables ws)) : (xs ++ ys).IsChain (OnlyTables ws) := by
  induction xs with
  | nil => exact hys
  | cons x rest ih =>
      obtain ⟨hx, hrest⟩ := List.forall_mem_cons.mp h
      exact List.isChain_cons.mpr ⟨fun y _ w hw hmem => absurd hmem (hx w hw), ih hrest⟩

theorem Continues.nil : Continues ws [] := ⟨List.isChain_nil, nofun⟩

theorem Continues.isChain_table (h : Continues ws xs) (table : String) :
    (Lexeme.word table :: xs).IsChain (OnlyTables ws) :=
  List.isChain_cons.mpr ⟨fun y hy _ _ _ => h.head y hy, h.chain⟩

theorem Continues.clause {first : String} {rest : List String} {terms : List (List Lexeme)}
    (hws : ws ⊆ rowWords) (hfirst : first ∈ tableFollowers)
    (hwords : ∀ w ∈ first :: rest, uppered w ∉ ws)
    (hterms : ∀ xs ∈ terms, InClause xs) (h : Continues ws ys) :
    Continues ws (SelectStatement.clause (first :: rest) terms ++ ys) := by
  cases terms with
  | nil => exact h
  | cons xs others =>
      refine ⟨isChain_append_of_unlisted (List.forall_mem_append.mpr ⟨unlisted_keywords hwords, ?_⟩)
        h.chain, ?_⟩
      · exact fun x hx => (unlisted_separated hterms x hx).mono hws
      · rintro x hx
        obtain rfl : Lexeme.word first = x := Option.some.inj hx
        exact ⟨first, hfirst, rfl⟩

theorem Continues.joinPart {j : JoinPart} (hws : ws ⊆ rowWords) (hj : InClause j.condition)
    (h : Continues ws ys) : Continues ws (j.lexemes ++ ys) := by
  have hon : Continues ws (keywords ["ON"] ++ (j.condition ++ ys)) := by
    have hwords : ∀ x ∈ keywords ["ON"], Unlisted rowWords x := unlisted_keywords (by decide)
    refine ⟨?_, fun x hx => ⟨"ON", by decide, (Option.some.inj hx).symm⟩⟩
    refine isChain_append_of_unlisted (fun x hx => (hwords x hx).mono hws) ?_
    exact isChain_append_of_unlisted
      (fun x hx => (unlisted_of_inner (hj.inner x hx)).mono hws) h.chain
  have hkind : ∀ w ∈ JoinPart.kindWords j.kind, uppered w ∉ rowWords := by cases j.kind <;> decide
  have hfirst :
      ∃ first rest, JoinPart.kindWords j.kind = first :: rest ∧ first ∈ tableFollowers := by
    cases j.kind <;> exact ⟨_, _, rfl, by decide⟩
  have hlexemes : j.lexemes ++ ys = keywords (JoinPart.kindWords j.kind) ++
      .word j.table :: (keywords ["ON"] ++ (j.condition ++ ys)) := by
        simp [JoinPart.lexemes, keywords]
  rw [hlexemes]
  refine ⟨isChain_append_of_unlisted (unlisted_keywords fun w hw hmem => hkind w hw (hws hmem))
    (hon.isChain_table j.table), fun x hx => ?_⟩
  obtain ⟨first, rest, hwords, hfirst⟩ := hfirst
  rw [hwords] at hx
  exact ⟨first, hfirst, (Option.some.inj hx).symm⟩

theorem Continues.middle (hws : ws ⊆ rowWords) (hs : s.Legible IsTable) (h : Continues ws ys) :
    Continues ws (s.middle ++ ys) := by
  have hgroupWords : ∀ w ∈ ["GROUP", "BY"], uppered w ∉ rowWords := by decide
  have hwhereWords : ∀ w ∈ ["WHERE"], uppered w ∉ rowWords := by decide
  have hgroup : Continues ws (SelectStatement.clause ["GROUP", "BY"] s.groupBy ++ ys) :=
    h.clause hws (by decide) (fun w hw hmem => hgroupWords w hw (hws hmem)) hs.groupBy
  have hwhere : Continues ws (SelectStatement.clause ["WHERE"] s.condition.toList ++
      (SelectStatement.clause ["GROUP", "BY"] s.groupBy ++ ys)) :=
    hgroup.clause hws (by decide) (fun w hw hmem => hwhereWords w hw (hws hmem))
      fun xs hxs => hs.condition xs (Option.mem_toList.mp hxs)
  have hjoins : ∀ joins : List JoinPart, (∀ j ∈ joins, InClause j.condition) →
    ∀ {zs}, Continues ws zs →
      Continues ws (joins.flatMap JoinPart.lexemes ++ zs) := by
    intro joins hjoins zs hzs
    induction joins with
    | nil => exact hzs
    | cons j rest ih =>
        obtain ⟨hj, hrest⟩ := List.forall_mem_cons.mp hjoins
        rw [List.flatMap_cons, List.append_assoc]
        exact (ih hrest).joinPart hws hj
  have hall := hjoins s.joins (fun j hj => (hs.joins j hj).2) hwhere
  simpa [SelectStatement.middle, List.append_assoc] using hall

/-- Before its order, a statement has the words that order and cut rows only as tables. -/
theorem SelectStatement.Legible.isChain (hws : ws ⊆ rowWords) (hs : s.Legible IsTable)
    (h : Continues ws ys) :
    (s.before ++ .word "FROM" :: .word s.table :: (s.middle ++ ys)).IsChain (OnlyTables ws) := by
  have hfrom : ∀ x ∈ keywords ["FROM"], Unlisted rowWords x := unlisted_keywords (by decide)
  refine isChain_append_of_unlisted (fun x hx => (hs.unlisted_before x hx).mono hws) ?_
  exact isChain_append_of_unlisted (fun x hx => (hfrom x hx).mono hws)
    ((h.middle hws hs).isChain_table s.table)

/-- After the word that begins an order no other word of it follows, where that word is only a
table. -/
theorem filterMap_ne_of_isChain (horder : "ORDER" ∈ ws) (h : xs.IsChain (OnlyTables ws))
    (front back : List (List Char)) :
    xs.filterMap Lexer.upperWord? ≠ front ++ "ORDER".toList :: "BY".toList :: back := by
  intro heq
  obtain ⟨before, after, rfl, _, hafter⟩ := List.filterMap_eq_append_iff.mp heq
  obtain ⟨between, x, rest, rfl, _, hx, hrest⟩ := List.filterMap_eq_cons_iff.mp hafter
  cases x with
  | word w =>
      cases rest with
      | nil => cases hrest
      | cons y more =>
          rw [← List.append_assoc] at h
          have hw : uppered w = "ORDER" :=
            String.toList_injective (by simpa [uppered] using Option.some.inj hx)
          obtain ⟨v, hv, rfl⟩ := (List.isChain_append_cons_cons.mp h).2.1 w rfl (hw ▸ horder)
          have hby : upper v.toList = "BY".toList := (List.cons.inj hrest).1
          have hall : ∀ v ∈ tableFollowers, upper v.toList ≠ "BY".toList := by decide
          exact hall v hv hby
  | literal value | name label | opening | closing | comma => cases hx

end Tables

/-- A text that does not begin with a keyword: a dot or a parenthesis stands before its first
blank. -/
def Headed (text : String) : Prop :=
  ∃ front c rest, text.toList = front ++ c :: rest ∧ (∀ b ∈ front, isUnmarked b = true) ∧
    c ∈ ['.', '(']

theorem Headed.append {a : String} (h : Headed a) (b : String) : Headed (a ++ b) := by
  obtain ⟨front, c, rest, htext, hfront, hc⟩ := h
  exact ⟨front, c, rest ++ b.toList, by simp [htext], hfront, hc⟩

theorem Headed.startsWith_eq_false {text : String} (h : Headed text) :
    startsWith "DISTINCT ".toList (upper text.toList) = false := by
  refine (Bool.not_eq_true _).mp fun hstart => ?_
  obtain ⟨front, c, rest, htext, hfront, hc⟩ := h
  obtain ⟨after, hafter⟩ := exists_of_startsWith hstart
  have hupper : upper text.toList = upper (front ++ [c]) ++ upper rest := by
    simp [htext, upper]
  have hmark : c.toUpper = c ∧ c ∉ "DISTINCT ".toList := by
    have hall : ∀ c ∈ ['.', '('], c.toUpper = c ∧ c ∉ "DISTINCT ".toList := by decide
    exact hall c hc
  rcases List.prefix_or_prefix_of_prefix (List.prefix_append "DISTINCT ".toList after)
      (hafter ▸ hupper ▸ List.prefix_append (upper (front ++ [c])) (upper rest)) with hpre | hpre
  · have hblank : ' ' ∈ upper (front ++ [c]) := hpre.subset (by decide)
    obtain ⟨b, hb, hbupper⟩ := List.mem_map.mp hblank
    rcases List.mem_append.mp hb with hb | hb
    · have hnot := Lexer.isBlank_of_mark?_none
        (Lexer.mark?_toUpper (not_mark_of_isUnmarked (d := .mssql) (hfront b hb)).1)
      rw [hbupper] at hnot
      cases hnot
    · obtain rfl := List.mem_singleton.mp hb
      rw [hmark.1] at hbupper
      subst hbupper
      exact absurd hc (by decide)
  · have hmem : c.toUpper ∈ upper (front ++ [c]) :=
      List.mem_map_of_mem (List.mem_append_right front List.mem_cons_self)
    rw [hmark.1] at hmem
    exact hmark.2 (hpre.subset hmem)

/-- The cut after keywords that a text begins with. -/
theorem cut_append (keywords rest : String) (n : Int) :
    String.ofList ((keywords.toList ++ rest.toList).take keywords.length) ++ s!"TOP {n} " ++
        String.ofList ((keywords.toList ++ rest.toList).drop keywords.length) =
      keywords ++ ("TOP " ++ toString n ++ " ") ++ rest := by
  have htop : s!"TOP {n} " = "TOP " ++ toString n ++ " " := rfl
  have htake : (keywords.toList ++ rest.toList).take keywords.length = keywords.toList :=
    List.take_left' String.length_toList
  have hdrop : (keywords.toList ++ rest.toList).drop keywords.length = rest.toList :=
    List.drop_left' String.length_toList
  rw [htop, htake, hdrop, String.ofList_toList, String.ofList_toList]

theorem startsWith_upper_append (keywords : String) (h : upper keywords.toList = keywords.toList)
    (rest : String) :
    startsWith keywords.toList (upper (keywords.toList ++ rest.toList)) = true := by
  have happend : upper (keywords.toList ++ rest.toList) = keywords.toList ++ upper rest.toList := by
    rw [upper, List.map_append, ← upper, ← upper, h]
  rw [happend]
  exact startsWith_append _ _

theorem withTop_distinct (rest : String) (n : Int) :
    withTop ("SELECT DISTINCT " ++ rest) n = "SELECT DISTINCT " ++ ("TOP " ++ toString n ++ " ") ++
      rest := by
  have htrim : ("SELECT DISTINCT " ++ rest).toList.dropWhile isBlank =
      "SELECT DISTINCT ".toList ++ rest.toList := by
    rw [String.toList_append]
    rfl
  have hstart := startsWith_upper_append "SELECT DISTINCT " (by decide) rest
  simp only [withTop, htrim, hstart, if_true]
  exact cut_append "SELECT DISTINCT " rest n

theorem withTop_plain {rest : String}
    (h : startsWith "DISTINCT ".toList (upper rest.toList) = false) (n : Int) :
    withTop ("SELECT " ++ rest) n = "SELECT " ++ ("TOP " ++ toString n ++ " ") ++ rest := by
  have htrim : ("SELECT " ++ rest).toList.dropWhile isBlank = "SELECT ".toList ++ rest.toList := by
    rw [String.toList_append]
    rfl
  have hnot :
      startsWith "SELECT DISTINCT ".toList (upper ("SELECT ".toList ++ rest.toList)) = false := by
    refine (Bool.not_eq_true _).mp fun hstart => ?_
    obtain ⟨after, hafter⟩ := exists_of_startsWith hstart
    have hselect :
        upper ("SELECT ".toList ++ rest.toList) = "SELECT ".toList ++ upper rest.toList := by
      rw [upper, List.map_append]
      rfl
    have hdistinct :
        "SELECT DISTINCT ".toList ++ after = "SELECT ".toList ++ ("DISTINCT ".toList ++ after) :=
      rfl
    rw [hselect, hdistinct] at hafter
    rw [List.append_cancel_left hafter, startsWith_append] at h
    cases h
  have hstart := startsWith_upper_append "SELECT " (by decide) rest
  simp only [withTop, htrim, hnot, hstart, if_true]
  exact cut_append "SELECT " rest n

/-- A text that begins with a character of a word. -/
def Fronted (text : String) : Prop := ∃ c rest, text.toList = c :: rest ∧ isUnmarked c = true

theorem Fronted.append {a : String} (h : Fronted a) (b : String) : Fronted (a ++ b) := by
  obtain ⟨c, rest, htext, hc⟩ := h
  exact ⟨c, rest ++ b.toList, by simp [htext], hc⟩

theorem exists_intercalate_eq (separator first : String) (rest : List String) :
    ∃ after, separator.intercalate (first :: rest) = first ++ after := by
  cases rest with
  | nil => exact ⟨"", by simp⟩
  | cons next more => exact ⟨_, by rw [String.intercalate_cons_cons, String.append_assoc]⟩

section Cuts
variable {d : Dialect} {q : CompiledQuery} {s : SelectStatement}

theorem orderText_eq {cut : Cut} (h : q.orderBy = [] → ∀ skip n, cut ≠ .fetch skip n) :
    orderText q cut = Compiler.clause "ORDER BY" ", " q.orderBy := by
  unfold orderText
  split
  · rename_i horder
    exact absurd rfl (h horder _ _)
  · rfl

theorem statementText_whole :
    statementText d q .whole = frontText d q .whole ++ Compiler.clause "ORDER BY" ", "
      q.orderBy := by
  have hlast : spaced Cut.whole.lastWords = "" := rfl
  rw [statementText, orderText_eq (by simp), hlast, String.append_empty]

theorem paged_limit (query : String) (limit skip : Int) :
    (if 0 < skip then s!"{query} LIMIT {limit} OFFSET {skip}" else s!"{query} LIMIT {limit}") =
      query ++ spaced (Cut.limit limit (if 0 < skip then some skip else none)).lastWords := by
  split_ifs
  · have htext : query ++ " LIMIT " ++ toString limit ++ " OFFSET " ++ toString skip =
        query ++ spaced ["LIMIT", toString limit, "OFFSET", toString skip] :=
      String.toList_injective (by simp [spaced])
    exact htext
  · have htext : query ++ " LIMIT " ++ toString limit = query ++ spaced ["LIMIT", toString limit] :=
      String.toList_injective (by simp [spaced])
    exact htext

theorem paged_fetch {skip : Int} (hskip : 0 < skip) (query : String) (limit default : Int) :
    Dialect.mssql.paged query limit skip default =
      query ++ (if hasOrderBy query then "" else " ORDER BY (SELECT NULL)") ++
        spaced (Cut.fetch skip (effectiveLimit limit default)).lastWords := by
  generalize hn : effectiveLimit limit default = n
  have htext : ∀ front : String, front ++ " OFFSET " ++ toString skip ++ " ROWS FETCH NEXT " ++
      toString n ++ " ROWS ONLY" = front ++ spaced (Cut.fetch skip n).lastWords :=
    fun front => String.toList_injective (by simp [spaced, Cut.lastWords])
  simp only [paged, hn, if_pos hskip]
  exact htext _

theorem headed_selectedText (hcolumns : q.columns ≠ [])
    (hheaded : ∀ column ∈ q.columns, Headed column.expression) : Headed (selectedText d q) := by
  obtain ⟨column, more, hcons⟩ := List.exists_cons_of_ne_nil hcolumns
  have hcolumn : Headed column.expression := hheaded column (hcons ▸ List.mem_cons_self)
  obtain ⟨after, hafter⟩ := exists_intercalate_eq ", "
    (column.expression ++ " AS " ++ d.quoteAlias column.label.encode)
    (more.map fun column => column.expression ++ " AS " ++ d.quoteAlias column.label.encode)
  rw [selectedText, hcons, List.map_cons, hafter]
  exact (((((((hcolumn.append _).append _).append _).append _).append _).append _).append _).append
    _

theorem withTop_statementText (hcolumns : q.columns ≠ [])
    (hheaded : ∀ column ∈ q.columns, Headed column.expression) (n : Int) :
    withTop (statementText d q .whole) n = statementText d q (.top n) := by
  have hlast : spaced (Cut.top n).lastWords = "" := rfl
  rw [statementText_whole, statementText, orderText_eq (by simp), hlast, String.append_empty]
  generalize Compiler.clause "ORDER BY" ", " q.orderBy = order
  cases hdistinct : q.distinct with
  | true =>
      have hwhole :
          frontText d q .whole ++ order = "SELECT DISTINCT " ++ (selectedText d q ++ order) :=
        String.toList_injective (by simp [frontText, hdistinct, spaced, Cut.topWords])
      rw [hwhole, withTop_distinct]
      exact String.toList_injective (by simp [frontText, hdistinct, spaced, Cut.topWords])
  | false =>
      have hwhole : frontText d q .whole ++ order = "SELECT " ++ (selectedText d q ++ order) :=
        String.toList_injective (by simp [frontText, hdistinct, spaced, Cut.topWords])
      have hhead :=
        ((headed_selectedText (d := d) hcolumns hheaded).append order).startsWith_eq_false
      rw [hwhole, withTop_plain hhead]
      exact String.toList_injective (by simp [frontText, hdistinct, spaced, Cut.topWords])

/-- An order clause is found in a statement just if it has order terms. -/
theorem hasOrderBy_statementText (h : Composes .mssql q s) (hs : s.Legible (Name.isSafe · = true))
    (hfronted : ∀ text ∈ q.orderBy, Fronted text) :
    hasOrderBy (statementText .mssql q .whole) = !q.orderBy.isEmpty := by
  have hlegible := hs.withCut .whole
  have hfront := (h.withCut .whole).lexed_frontText hlegible
  rw [statementText_whole]
  cases horder : q.orderBy with
  | nil =>
      have hclause : Compiler.clause "ORDER BY" ", " [] = "" := rfl
      have hchain := hlegible.isChain (List.Subset.refl rowWords) .nil
      rw [hclause, String.append_empty]
      refine (Bool.not_eq_true _).mp fun hfound => ?_
      obtain ⟨before, after, heq⟩ := exists_of_hasOrderBy hfront hfound
      rw [List.append_nil] at hchain
      exact filterMap_ne_of_isChain (by decide) hchain before after heq
  | cons first rest =>
      obtain ⟨after, hafter⟩ := exists_intercalate_eq ", " first rest
      have hclause : Compiler.clause "ORDER BY" ", " (first :: rest) =
          " ORDER BY " ++ ", ".intercalate (first :: rest) :=
        String.toList_injective (by simp [Compiler.clause])
      have hfirst : Fronted first := hfronted first (horder ▸ List.mem_cons_self)
      have hselect : Fronted (frontText .mssql q .whole) :=
        ⟨'S', _, by simp [frontText]; rfl, by decide⟩
      rw [hclause, ← String.append_assoc]
      refine hasOrderBy_eq_true hfront hselect ?_
      rw [hafter]
      exact hfirst.append after

/-- For SQL Server the row limit stands before the columns, or after the order where rows are
skipped. -/
theorem paged_mssql (h : Composes .mssql q s) (hs : s.Legible (Name.isSafe · = true))
    (hcolumns : q.columns ≠ []) (hheaded : ∀ column ∈ q.columns, Headed column.expression)
    (hfronted : ∀ text ∈ q.orderBy, Fronted text) (limit skip default : Int) :
    Dialect.mssql.paged (statementText .mssql q .whole) limit skip default =
      statementText .mssql q (if 0 < skip then .fetch skip (effectiveLimit limit default)
        else .top (effectiveLimit limit default)) := by
  generalize hn : effectiveLimit limit default = n
  split_ifs with hskip
  · have hfront : frontText .mssql q .whole = frontText .mssql q (.fetch skip n) := rfl
    rw [paged_fetch hskip, hasOrderBy_statementText h hs hfronted, statementText_whole, hn,
      statementText, hfront]
    cases horder : q.orderBy with
    | nil =>
        have hclause : Compiler.clause "ORDER BY" ", " [] = "" := rfl
        have hconstant : orderText q (.fetch skip n) = " ORDER BY (SELECT NULL)" := by
          unfold orderText
          rw [horder]
        rw [hclause, hconstant, String.append_empty]
        rfl
    | cons first rest =>
        rw [orderText_eq (by simp [horder]), horder]
        exact congrArg (· ++ spaced _) String.append_empty
  · have htop := withTop_statementText (d := .mssql) hcolumns hheaded n
    simpa only [paged, hn, if_neg hskip] using htop

/-- A cut statement is the statement with its row limit in the place of its dialect. -/
theorem exists_paged_eq (hd : d ≠ .mysql) (h : Composes d q s)
    (hs : s.Legible (Name.isSafe · = true)) (hcolumns : q.columns ≠ [])
    (hheaded : ∀ column ∈ q.columns, Headed column.expression)
    (hfronted : ∀ text ∈ q.orderBy, Fronted text) (limit skip default : Int) :
    ∃ cut, d.paged (statementText d q .whole) limit skip default = statementText d q cut := by
  generalize hn : effectiveLimit limit default = n
  have hlimit : ∃ cut, (if 0 < skip then s!"{statementText d q .whole} LIMIT {n} OFFSET {skip}"
      else s!"{statementText d q .whole} LIMIT {n}") = statementText d q cut := by
    refine ⟨.limit n (if 0 < skip then some skip else none), ?_⟩
    rw [paged_limit, statementText_whole, statementText, orderText_eq (by simp)]
    rfl
  cases d with
  | mysql => exact absurd rfl hd
  | postgres | sqlite => simpa only [paged, hn] using hlimit
  | mssql => exact ⟨_, paged_mssql h hs hcolumns hheaded hfronted limit skip default⟩

end Cuts

end SqlGateway.Query
