import SqlGateway.Proofs.Number.Written
import SqlGateway.Proofs.Query.Safety

/-!
# Row limits

The row limit of a statement is read back from its lexemes: every dialect writes it once, with the
number of rows and of the rows that are skipped before them, and leaves the rest of the statement as
it is. A query that asks for no limit takes the default one, which an unlimited query takes too when
it skips rows.
-/
namespace SqlGateway.Query

open Dialect SelectStatement Text
open Number (decimalDigits)
open Request (Field Variables)

namespace Compiler
variable {c : Compiler} {vars : Variables} {f : Field} {q : CompiledQuery}

/-- A compiler with another default limit. -/
def withDefault (c : Compiler) (n : Int) : Compiler := { c with defaultLimit := n }

@[simp] theorem schema_withDefault (c : Compiler) (n : Int) :
    (c.withDefault n).schema = c.schema := rfl

@[simp] theorem statement_withDefault (c : Compiler) (n : Int) :
    (c.withDefault n).statement = c.statement := rfl

mutual

theorem walkField_withDefault (c : Compiler) (n : Int) (table : String) (level slot : Nat)
    (w : Walk) :
    (f : Field) → (c.withDefault n).walkField vars table level slot w f =
      c.walkField vars table level slot w f
  | ⟨label, name, arguments, directives, selection⟩ => by
      simp only [walkField]
      split_ifs
      · rfl
      · simp only [walkSelection_withDefault c n]
        rfl

theorem walkSelection_withDefault (c : Compiler) (n : Int) (table : String) (level slot : Nat)
    (w : Walk) :
    (fields : List Field) → (c.withDefault n).walkSelection vars table level slot w fields =
      c.walkSelection vars table level slot w fields
  | [] => rfl
  | f :: rest => by
      simp only [walkSelection, walkField_withDefault c n, walkSelection_withDefault c n]

end

theorem walkRoot_withDefault (c : Compiler) (n : Int) (main : String) :
    (c.withDefault n).walkRoot vars f main = c.walkRoot vars f main := by
  simp only [walkRoot, walkSelection_withDefault c n]
  rfl

/-- The text of a query with a default limit, from the statement without one. -/
def pagedText (c : Compiler) (limited : Bool) (q : CompiledQuery) (unpaged : String) : String :=
  if limited || 0 < q.limit || 0 < q.skip then c.dialect.paged unpaged q.limit q.skip c.defaultLimit
  else unpaged

/-- A result that depends on a number only where it succeeds, and there by way of the text of one
query. -/
def Uniform (Q : CompiledQuery → Prop) (text : Int → CompiledQuery → String)
    (result : Int → Except Error CompiledQuery) : Prop :=
  (∃ e, ∀ n, result n = .error e) ∨ ∃ q, Q q ∧ ∀ n, result n = .ok { q with sql := text n q }

theorem uniform_bind {α : Type} {Q : CompiledQuery → Prop} {text : Int → CompiledQuery → String}
    {step : Except Error α} {next : Int → α → Except Error CompiledQuery}
    (h : ∀ a, step = .ok a → Uniform Q text fun n => next n a) : Uniform Q text fun n =>
      step >>= next n := by
  cases step with
  | error e => exact .inl ⟨e, fun _ => rfl⟩
  | ok a => exact h a rfl

/-- Whatever the default limit is, a field has the same error, or the same query but for its
text. -/
theorem compileWith_withDefault (c : Compiler) (limited : Bool) (vars : Variables) (f : Field) :
    Uniform (fun q => intArgument f "limit" vars = .ok q.limit ∧
        ∃ w, c.walkRoot vars f q.mainTable = .ok w ∧ q.sql = c.statement q.distinct q.mainTable w)
      (fun n q => (c.withDefault n).pagedText limited q q.sql)
      (fun n => (c.withDefault n).compileWith limited vars f) := by
  simp only [compileWith, walkRoot_withDefault, schema_withDefault, statement_withDefault]
  refine uniform_bind fun _ _ => uniform_bind fun _ _ => uniform_bind fun _ _ =>
    uniform_bind fun distinct _ =>
    uniform_bind fun limit hlimit => uniform_bind fun skip _ => uniform_bind fun w hw => ?_
  by_cases hcolumns : w.columns.isEmpty = true
  · simp only [if_pos hcolumns]
    exact .inl ⟨_, fun _ => rfl⟩
  · simp only [if_neg hcolumns]
    let q : CompiledQuery := {
      mainTable := Name.internal f.name
      outputName := f.outputName
      columns := w.columns
      joins := w.joins
      filter := if w.filters.isEmpty then none else some (" AND ".intercalate w.filters)
      groupBy := groupTerms w.columns
      orderBy := w.orderBy
      distinct
      limit
      skip
      slots := w.slots
      sql := c.statement distinct (Name.internal f.name) w
      csv := f.hasDirective "csv" }
    exact .inr ⟨q, ⟨hlimit, w, hw, rfl⟩, fun n => rfl⟩

/-- Where rows are skipped, the text holds the default limit of a query that asks for none. -/
theorem exists_paged_default (d : Dialect) (query : String) {limit skip : Int} (hlimit : limit ≤ 0)
    (hskip : 0 < skip) :
    ∃ front back, ∀ n : Int, d.paged query limit skip n = front ++ (toString n ++ back) := by
  simp only [paged, effectiveLimit, if_pos hlimit, if_pos hskip]
  cases d with
  | postgres | sqlite =>
      have htext : ∀ n : Int, query ++ " LIMIT " ++ toString n ++ " OFFSET " ++ toString skip =
          query ++ " LIMIT " ++ (toString n ++ (" OFFSET " ++ toString skip)) :=
        fun n => String.toList_injective (by simp)
      exact ⟨_, _, htext⟩
  | mysql =>
      have htext : ∀ n : Int, query ++ " LIMIT " ++ toString skip ++ ", " ++ toString n =
          query ++ " LIMIT " ++ toString skip ++ ", " ++ (toString n ++ "") :=
        fun n => String.toList_injective (by simp)
      exact ⟨_, _, htext⟩
  | mssql =>
      generalize (if hasOrderBy query then "" else " ORDER BY (SELECT NULL)") = order
      have htext :
        ∀ n : Int, query ++ order ++ " OFFSET " ++ toString skip ++ " ROWS FETCH NEXT " ++
          toString n ++ " ROWS ONLY" =
            query ++ order ++ " OFFSET " ++ toString skip ++ " ROWS FETCH NEXT " ++
              (toString n ++ " ROWS ONLY") := fun n => String.toList_injective (by simp)
      exact ⟨_, _, htext⟩

/-- Without a limit of its own, an unlimited query does not depend on the default limit just if it
skips no rows, and then its text is the whole statement. -/
theorem default_limit_ignored_iff (hlimit : ∀ n, intArgument f "limit" vars = .ok n → n ≤ 0) :
    ((∀ n m, (c.withDefault n).compileUnlimited vars f =
      (c.withDefault m).compileUnlimited vars f) ↔
        ∀ q, c.compileUnlimited vars f = .ok q → q.skip ≤ 0) ∧
      ∀ q, c.compileUnlimited vars f = .ok q → q.skip ≤ 0 →
        ∃ w, c.walkRoot vars f q.mainTable = .ok w ∧
        q.sql = c.statement q.distinct q.mainTable w := by
  have hself : (c.withDefault c.defaultLimit).compileUnlimited vars f = c.compileUnlimited vars f :=
    rfl
  unfold compileUnlimited at hself ⊢
  obtain ⟨e, herror⟩ | ⟨q, ⟨hq, w, hw, hsql⟩, hok⟩ := compileWith_withDefault c false vars f
  · have herror : ∀ n, (c.withDefault n).compileWith false vars f = .error e := herror
    have hnone : ∀ q, c.compileWith false vars f ≠ .ok q := by
      intro q hq
      rw [← hself, herror] at hq
      cases hq
    exact ⟨iff_of_true (fun n m => (herror n).trans (herror m).symm) fun q hq =>
      absurd hq (hnone q), fun q hq => absurd hq (hnone q)⟩
  · have hnonpositive : ¬ 0 < q.limit := Int.not_lt.mpr (hlimit _ hq)
    have htext : ∀ n, (c.withDefault n).pagedText false q q.sql =
        if 0 < q.skip then c.dialect.paged q.sql q.limit q.skip n else q.sql := by
      intro n
      simp [pagedText, withDefault, hnonpositive]
    simp only [← hself, hok, Except.ok.injEq, forall_eq', htext]
    refine ⟨⟨fun heq => ?_, fun hskip n m => ?_⟩, fun hskip => ⟨w, hw, ?_⟩⟩
    · refine Int.not_lt.mp fun hskip => ?_
      obtain ⟨front, back, hpaged⟩ := exists_paged_default c.dialect q.sql (hlimit _ hq) hskip
      have htexts := congrArg CompiledQuery.sql (heq 1 2)
      simp only [if_pos hskip, hpaged] at htexts
      have hnumbers := congrArg String.toList htexts
      simp only [String.toList_append, List.append_cancel_left_eq,
        List.append_cancel_right_eq] at hnumbers
      exact absurd hnumbers (by decide)
    · simp only [if_neg (Int.not_lt.mpr hskip)]
    · rw [if_neg (Int.not_lt.mpr hskip)]
      exact hsql

end Compiler

/-- Users in the order of their names. -/
def sortedUsers : Field := ⟨none, "users", [⟨"sort", .text "name"⟩], [], [Shop.leaf "id"]⟩

theorem default_limit_ignored_sortedUsers :
    (∀ n, intArgument sortedUsers "limit" [] = .ok n → n ≤ 0) ∧
      ∀ n m, (Shop.compiler.withDefault n).compileUnlimited [] sortedUsers =
        (Shop.compiler.withDefault m).compileUnlimited [] sortedUsers := by
  have hlimit : ∀ n, intArgument sortedUsers "limit" [] = .ok n → n ≤ 0 := by
    intro n hn
    exact (Except.ok.inj hn).ge
  refine ⟨hlimit, (Compiler.default_limit_ignored_iff hlimit).1.mpr fun q hq => ?_⟩
  have hskip : q.skip = 0 := part_eq (g := CompiledQuery.skip) hq (by decide +kernel)
  exact hskip.le

/-- A query without a limit that skips rows is cut to the default limit. -/
theorem skipped_rows_take_default_limit :
    let f : Field := ⟨none, "users", [⟨"skip", .int 5⟩], [], [Shop.leaf "id"]⟩
    (∀ n, intArgument f "limit" [] = .ok n → n ≤ 0) ∧
      (((Shop.compiler.withDefault 1000).compileUnlimited [] f).toOption.map (·.sql) =
        some "SELECT users.id AS \"L0~~0**id\" FROM users LIMIT 1000 OFFSET 5") ∧
      (Shop.compiler.withDefault 1000).compileUnlimited [] f ≠
        (Shop.compiler.withDefault 7).compileUnlimited [] f := by
  intro f
  refine ⟨fun n hn => (Except.ok.inj hn).ge, by decide +kernel, fun heq => ?_⟩
  have htexts := congrArg (fun result => result.toOption.map CompiledQuery.sql) heq
  exact absurd htexts (by decide +kernel)

/-- The rows that are wanted of a statement: how many, and how many are skipped before them. -/
structure Window where
  limit : Nat
  skip : Nat
  deriving DecidableEq, Repr

namespace Lexeme

/-- The natural number that a word writes. -/
def natural? : Lexeme → Option Nat
  | .word w => Number.natural? w.toList
  | _ => none

/-- A keyword, in letters of either case. -/
def isKeyword (keyword : String) : Lexeme → Bool
  | .word w => uppered w == keyword
  | _ => false

end Lexeme

/-- A piece of a row limit at the end of a statement. -/
inductive LimitPiece where
  | keyword (keyword : String)
  | comma
  | limit
  | skip
  deriving DecidableEq, Repr

def LimitPiece.read (x : Lexeme) (w : Window) : LimitPiece → Option Window
  | keyword k => if x.isKeyword k then some w else none
  | comma => if x = .comma then some w else none
  | limit => x.natural?.map fun n => { w with limit := n }
  | skip => x.natural?.map fun n => { w with skip := n }

/-- The row limits that may end a statement of a dialect. -/
def limitForms : Dialect → List (List LimitPiece)
  | .postgres | .sqlite =>
      [[.keyword "LIMIT", .limit], [.keyword "LIMIT", .limit, .keyword "OFFSET", .skip]]
  | .mysql => [[.keyword "LIMIT", .limit], [.keyword "LIMIT", .skip, .comma, .limit]]
  | .mssql =>
      [[.keyword "OFFSET", .skip, .keyword "ROWS", .keyword "FETCH", .keyword "NEXT", .limit,
      .keyword "ROWS", .keyword "ONLY"]]

/-- The window of lexemes that are written as a form of row limits has them. -/
def readForm : List LimitPiece → List Lexeme → Option Window
  | [], [] => some ⟨0, 0⟩
  | piece :: form, x :: xs => (readForm form xs).bind fun w => piece.read x w
  | _, _ => none

/-- The row limit that ends lexemes, with what stands before it. -/
def lastWindow? (d : Dialect) (xs : List Lexeme) : Option (List Lexeme × Window) :=
  (limitForms d).findSome? fun form =>
    let n := xs.length - form.length
    (readForm form (xs.drop n)).map (xs.take n, ·)

/-- The row limit after the first keyword of a statement, or after its first two, with what else
there is. -/
def firstWindow? (xs : List Lexeme) : Option (List Lexeme × Window) :=
  let n := if xs[1]?.any (·.isKeyword "DISTINCT") then 2 else 1
  match xs.drop n with
  | top :: count :: rest =>
    if top.isKeyword "TOP" then count.natural?.map fun limit => (xs.take n ++ rest, ⟨limit, 0⟩)
    else none
  | _ => none

/-- The row limit of a statement, with the statement without it. -/
def window? (d : Dialect) (xs : List Lexeme) : Option (List Lexeme × Window) :=
  match d with
  | .mssql => (firstWindow? xs).or (lastWindow? d xs)
  | _ => lastWindow? d xs

section Reading
variable {d : Dialect} {xs rest : List Lexeme} {form : List LimitPiece} {w : Window}
  {s : SelectStatement} {IsTable : String → Prop}

theorem natural?_repr {n : Int} (h : 0 ≤ n) : (Lexeme.word n.repr).natural? = some n.toNat := by
  obtain ⟨k, rfl⟩ := Int.eq_ofNat_of_zero_le h
  have hdigits : (Int.repr k).toList = decimalDigits k := Nat.toList_repr
  rw [Lexeme.natural?, hdigits, Number.natural?_decimalDigits]
  rfl

/-- A form is read where it ends lexemes, if no form before it is. -/
theorem lastWindow?_append (before : List (List LimitPiece)) {after : List (List LimitPiece)}
    {ys : List Lexeme} (hforms : limitForms d = before ++ form :: after)
    (hread : readForm form ys = some w) (hlength : ys.length = form.length)
    (hbefore : ∀ other ∈ before, other.length ≤ ys.length ∧
      readForm other (ys.drop (ys.length - other.length)) = none) (xs : List Lexeme) :
    lastWindow? d (xs ++ ys) = some (xs, w) := by
  have hdrop : (xs ++ ys).length - form.length = xs.length := by
    rw [List.length_append, hlength, Nat.add_sub_cancel]
  have hnone : before.findSome? (fun other => (readForm other ((xs ++ ys).drop ((xs ++ ys).length -
      other.length))).map ((xs ++ ys).take ((xs ++ ys).length - other.length), ·)) = none := by
    refine List.findSome?_eq_none_iff.mpr fun other hother => ?_
    obtain ⟨hshort, hread⟩ := hbefore other hother
    rw [List.length_append, Nat.add_sub_assoc hshort, List.drop_length_add_append, hread]
    rfl
  rw [lastWindow?, hforms, List.findSome?_append, hnone, Option.none_or, List.findSome?_cons]
  simp only [hdrop, List.drop_left, List.take_left, hread, Option.map_some]

theorem readForm_cons {piece : LimitPiece} (h : readForm (piece :: form) xs = some w) :
    ∃ x rest v, xs = x :: rest ∧ readForm form rest = some v ∧ piece.read x v = some w := by
  cases xs with
  | nil => cases h
  | cons x rest =>
      obtain ⟨v, hv, hread⟩ := Option.bind_eq_some_iff.mp h
      exact ⟨x, rest, v, rfl, hv, hread⟩

theorem LimitPiece.isSome_natural? {piece : LimitPiece} {x : Lexeme} {v : Window}
    (hpiece : piece ∈ [.limit, .skip]) (h : piece.read x v = some w) :
    x.natural?.isSome = true := by
  simp only [List.mem_cons, List.not_mem_nil, or_false] at hpiece
  rcases hpiece with rfl | rfl
  all_goals
    obtain ⟨n, hn, _⟩ := Option.map_eq_some_iff.mp h
    simp [hn]

/-- Every row limit at an end begins with a keyword and a number. -/
theorem exists_of_mem_limitForms (h : form ∈ limitForms d) :
    ∃ k ∈ lastWords, ∃ piece ∈ [LimitPiece.limit, .skip], ∃ more, form =
      .keyword k :: piece :: more := by
  cases d with
  | postgres | sqlite | mysql =>
      simp only [limitForms, List.mem_cons, List.not_mem_nil, or_false] at h
      rcases h with rfl | rfl
      · exact ⟨"LIMIT", by decide, _, by decide, _, rfl⟩
      · exact ⟨"LIMIT", by decide, _, by decide, _, rfl⟩
  | mssql =>
      obtain rfl := List.mem_singleton.mp h
      exact ⟨"OFFSET", by decide, _, by decide, _, rfl⟩

/-- Lexemes that have the words of row limits only as tables end with no row limit. -/
theorem lastWindow?_eq_none (h : xs.IsChain (OnlyTables lastWords)) : lastWindow? d xs = none := by
  refine List.findSome?_eq_none_iff.mpr fun form hform => ?_
  obtain ⟨k, hk, piece, hpiece, more, rfl⟩ := exists_of_mem_limitForms hform
  dsimp only
  generalize hn : xs.length - (LimitPiece.keyword k :: piece :: more).length = n
  cases hread : readForm (.keyword k :: piece :: more) (xs.drop n) with
  | none => rfl
  | some w =>
      obtain ⟨x, rest, v, hdrop, hrest, hx⟩ := readForm_cons hread
      obtain ⟨y, others, u, rfl, _, hy⟩ := readForm_cons hrest
      have hxs : xs = xs.take n ++ x :: y :: others := by rw [← hdrop, List.take_append_drop]
      rw [hxs] at h
      have hadjacent := (List.isChain_append_cons_cons.mp h).2.1
      have hkeyword : x.isKeyword k = true := by
        by_contra hnot
        simp [LimitPiece.read, hnot] at hx
      cases x with
      | word word =>
          obtain ⟨follower, hfollower, rfl⟩ := hadjacent word rfl (by simpa [Lexeme.isKeyword] using
            (beq_iff_eq.mp hkeyword) ▸ hk)
          have hall : ∀ v ∈ tableFollowers, (Lexeme.word v).natural?.isSome = false := by decide
          have hsome := LimitPiece.isSome_natural? hpiece hy
          rw [hall follower hfollower] at hsome
          cases hsome
      | literal value | name label | opening | closing | comma => cases hkeyword

theorem lexed_number (d : Dialect) (n : Int) : Lexed d (toString n) [.word (toString n)] :=
  areWords_number n _ List.mem_cons_self

theorem window?_limit (hd : d ≠ .mssql) {n : Int} (hn : 0 < n) :
    window? d (xs ++ keywords ["LIMIT", toString n]) = some (xs, ⟨n.toNat, 0⟩) := by
  have hkeyword : (Lexeme.word "LIMIT").isKeyword "LIMIT" = true := by decide
  have hread :
      readForm [.keyword "LIMIT", .limit] (keywords ["LIMIT", toString n]) = some ⟨n.toNat, 0⟩ := by
    simp [readForm, keywords, LimitPiece.read, hkeyword, natural?_repr hn.le]
  have hfirst : ∃ after, limitForms d = [] ++ [.keyword "LIMIT", .limit] :: after := by
    cases d with
    | postgres | sqlite | mysql => exact ⟨_, rfl⟩
    | mssql => exact absurd rfl hd
  obtain ⟨after, hforms⟩ := hfirst
  have hlast := lastWindow?_append [] hforms hread rfl (List.forall_mem_nil _) xs
  cases d with
  | postgres | sqlite | mysql => exact hlast
  | mssql => exact absurd rfl hd

/-- A limit after everything else is read back, whatever stands before it. -/
theorem window?_paged {query : String} {limit skip default : Int} (hd : d ≠ .mssql)
    (h : Lexed d query xs) (hn : 0 < effectiveLimit limit default) :
    ∃ ys, Lexed d (d.paged query limit skip default) ys ∧
      window? d ys = some (xs, ⟨(effectiveLimit limit default).toNat, skip.toNat⟩) := by
  generalize hlimit : effectiveLimit limit default = n at hn
  by_cases hskip : 0 < skip
  · have hlimitWord : (Lexeme.word "LIMIT").isKeyword "LIMIT" = true := by decide
    have hoffsetWord : (Lexeme.word "OFFSET").isKeyword "OFFSET" = true := by decide
    have hoffset : (Lexeme.word "OFFSET").isKeyword "LIMIT" = false := by decide
    cases d with
    | mssql => exact absurd rfl hd
    | postgres | sqlite =>
        refine ⟨xs ++ keywords ["LIMIT", toString n, "OFFSET", toString skip], ?_, ?_⟩
        · have hcut := adds_spaced (areWords_lastWords (Cut.limit n (some skip))) _ _ h
          have hpaged := paged_limit query n skip
          rw [if_pos hskip, if_pos hskip] at hpaged
          simp only [paged, hlimit, if_pos hskip]
          exact hpaged ▸ hcut
        · refine lastWindow?_append [[.keyword "LIMIT", .limit]] rfl ?_ rfl ?_ xs
          · simp [readForm, keywords, LimitPiece.read, hlimitWord, hoffsetWord, natural?_repr hn.le,
              natural?_repr hskip.le]
          · simp [readForm, keywords, LimitPiece.read, hoffset]
    | mysql =>
        refine ⟨xs ++
          (keywords ["LIMIT"] ++ separated [[.word (toString skip)], [.word (toString n)]]), ?_, ?_⟩
        · have hkeyword : Lexed .mysql "LIMIT" (keywords ["LIMIT"]) := by decide
          have hnumbers :=
            lexed_separated (.cons (lexed_number .mysql skip) (.cons (lexed_number .mysql n) .nil))
          have hcut := h.blank (hkeyword.blank hnumbers)
          have htext : query ++ " LIMIT " ++ toString skip ++ ", " ++ toString n =
              query ++ (" " ++
                ("LIMIT" ++ (" " ++ ", ".intercalate [toString skip, toString n]))) :=
            String.toList_injective (by simp)
          simp only [paged, hlimit, if_pos hskip]
          exact htext ▸ hcut
        · refine lastWindow?_append [[.keyword "LIMIT", .limit]] rfl ?_ rfl ?_ xs
          · simp [readForm, keywords, separated, LimitPiece.read, hlimitWord, natural?_repr hn.le,
              natural?_repr hskip.le]
          · simp [readForm, keywords, separated, LimitPiece.read, Lexeme.isKeyword]
  · refine ⟨xs ++ keywords ["LIMIT", toString n], ?_, ?_⟩
    · have hcut := adds_spaced (areWords_lastWords (Cut.limit n none)) _ _ h
      have hpaged := paged_limit query n skip
      rw [if_neg hskip, if_neg hskip] at hpaged
      cases d with
      | mssql => exact absurd rfl hd
      | postgres | sqlite | mysql =>
          simp only [paged, hlimit, if_neg hskip]
          exact hpaged ▸ hcut
    · rw [Int.toNat_of_nonpos (Int.not_lt.mp hskip)]
      exact window?_limit hd hn

/-- The lexemes of a statement up to its order. -/
def SelectStatement.ordered (s : SelectStatement) : List Lexeme :=
  s.before ++ .word "FROM" :: .word s.table :: (s.middle ++ s.orderClause)

theorem lexemes_eq_ordered (s : SelectStatement) :
    s.lexemes = s.ordered ++ keywords s.cut.lastWords := by
  simp [SelectStatement.lexemes, SelectStatement.ordered, after]

theorem ordered_eq (s : SelectStatement) :
    s.ordered = (s.before ++ .word "FROM" :: .word s.table :: s.middle) ++ s.orderClause := by
  simp [SelectStatement.ordered]

/-- The columns of a statement begin with none of the words that may stand before them. -/
def SelectStatement.Led (s : SelectStatement) : Prop :=
  ∃ w more, separated (s.items.map itemLexemes) = .word w :: more ∧ uppered w ∉ ["DISTINCT", "TOP"]

theorem firstWindow?_eq_none (distinct : Bool) {word : String} (more : List Lexeme)
    (hword : uppered word ∉ ["DISTINCT", "TOP"]) :
    firstWindow? (keywords ("SELECT" :: if distinct then ["DISTINCT"] else []) ++ .word word ::
      more) = none := by
  have hdistinct : (Lexeme.word word).isKeyword "DISTINCT" = false :=
    beq_eq_false_iff_ne.mpr fun h => hword (by simp [h])
  have htop : (Lexeme.word word).isKeyword "TOP" = false :=
    beq_eq_false_iff_ne.mpr fun h => hword (by simp [h])
  have hfirst : (Lexeme.word "DISTINCT").isKeyword "DISTINCT" = true := by decide
  cases distinct <;> cases more <;> simp [firstWindow?, keywords, hdistinct, htop, hfirst]

theorem firstWindow?_top (distinct : Bool) {n : Int} (hn : 0 ≤ n) (more : List Lexeme) :
    firstWindow? (keywords ("SELECT" :: if distinct then ["DISTINCT"] else []) ++
        (keywords ["TOP", toString n] ++ more)) =
      some (keywords ("SELECT" :: if distinct then ["DISTINCT"] else []) ++ more,
        ⟨n.toNat, 0⟩) := by
  have hdistinct : (Lexeme.word "TOP").isKeyword "DISTINCT" = false := by decide
  have htop : (Lexeme.word "TOP").isKeyword "TOP" = true := by decide
  have hfirst : (Lexeme.word "DISTINCT").isKeyword "DISTINCT" = true := by decide
  cases distinct <;> simp [firstWindow?, keywords, hdistinct, htop, hfirst, natural?_repr hn]

/-- Without a limit before its columns, a statement has none there. -/
theorem firstWindow?_before (hled : s.Led) (htop : s.cut.topWords = []) (more : List Lexeme) :
    firstWindow? (s.before ++ more) = none := by
  obtain ⟨word, rest, hitems, hword⟩ := hled
  have hnone := firstWindow?_eq_none s.distinct (rest ++ more) hword
  simpa [before, firstWords, htop, hitems] using hnone

/-- The constant that stands for the order of rows that have none. -/
def constantTerm : List Lexeme := [.opening, .word "SELECT", .word "NULL", .closing]

theorem unlisted_constantTerm : ∀ x ∈ constantTerm, Unlisted rowWords x := by
  have hwords : ∀ x ∈ keywords ["SELECT", "NULL"], Unlisted rowWords x :=
    unlisted_keywords (by decide)
  intro x hx w hw
  refine hwords x ?_ w hw
  rw [hw] at hx ⊢
  simpa [keywords, constantTerm] using hx

theorem continues_orderClause (hs : s.Legible IsTable) : Continues lastWords s.orderClause := by
  have hlast : lastWords ⊆ rowWords := List.subset_cons_self _ _
  have hclause : Continues lastWords (clause ["ORDER", "BY"] s.orderBy ++ []) :=
    Continues.nil.clause hlast (by decide) (by decide) hs.orderBy
  rw [List.append_nil] at hclause
  unfold orderClause
  split
  · have hconstant : ∀ x ∈ constantOrder, Unlisted lastWords x :=
      List.forall_mem_append.mpr
        ⟨unlisted_keywords (by decide), fun x hx => (unlisted_constantTerm x hx).mono hlast⟩
    have hchain :=
      isChain_append_of_unlisted hconstant (List.isChain_nil (R := OnlyTables lastWords))
    rw [List.append_nil] at hchain
    exact ⟨hchain, fun x hx => ⟨"ORDER", by decide, (Option.some.inj hx).symm⟩⟩
  · exact hclause

/-- A statement up to its order has no row limit, in no dialect. -/
theorem window?_ordered (d : Dialect) (hs : s.Legible IsTable) (hled : s.Led)
    (htop : s.cut.topWords = []) : window? d s.ordered = none := by
  have hlast : lastWindow? d s.ordered = none :=
    lastWindow?_eq_none (hs.isChain (List.subset_cons_self _ _) (continues_orderClause hs))
  cases d with
  | postgres | mysql | sqlite => exact hlast
  | mssql =>
      have hfirst : firstWindow? s.ordered = none := firstWindow?_before hled htop _
      rw [window?, hfirst, hlast]
      rfl

theorem window?_top {n : Int} (hn : 0 ≤ n) (hcut : s.cut = .whole) :
    window? .mssql (SelectStatement.lexemes { s with cut := .top n }) =
      some (s.lexemes, ⟨n.toNat, 0⟩) := by
  have horder : SelectStatement.orderClause { s with cut := .top n } = s.orderClause := by
    unfold orderClause
    rw [hcut]
    cases s.orderBy <;> rfl
  have htop := firstWindow?_top s.distinct hn
    (separated (s.items.map itemLexemes) ++ .word "FROM" :: .word s.table :: s.after)
  have hafter : SelectStatement.after { s with cut := .top n } = s.after := by
    simp only [after, horder, hcut]
    rfl
  have hlexemes : SelectStatement.lexemes { s with cut := .top n } =
      keywords ("SELECT" :: if s.distinct then ["DISTINCT"] else []) ++
        (keywords ["TOP", toString n] ++
        (separated (s.items.map itemLexemes) ++ .word "FROM" :: .word s.table :: s.after)) := by
    rw [SelectStatement.lexemes, hafter]
    simp [before, firstWords, Cut.topWords, keywords]
  have hwhole : keywords ("SELECT" :: if s.distinct then ["DISTINCT"] else []) ++
      (separated (s.items.map itemLexemes) ++ .word "FROM" :: .word s.table :: s.after) =
        s.lexemes := by
    simp [SelectStatement.lexemes, before, firstWords, hcut, Cut.topWords]
  rw [window?, hlexemes, htop, hwhole]
  rfl

theorem window?_fetch {skip n : Int} (hskip : 0 ≤ skip) (hn : 0 ≤ n) (hled : s.Led)
    (hcut : s.cut = .fetch skip n) :
    window? .mssql s.lexemes = some (s.ordered, ⟨n.toNat, skip.toNat⟩) := by
  have hfirst : firstWindow? s.lexemes = none := firstWindow?_before hled (by rw [hcut]; rfl) _
  have hread : readForm [.keyword "OFFSET", .skip, .keyword "ROWS", .keyword "FETCH",
    .keyword "NEXT", .limit,
      .keyword "ROWS", .keyword "ONLY"] (keywords s.cut.lastWords) =
        some ⟨n.toNat, skip.toNat⟩ := by
    have hwords : ∀ k ∈ ["OFFSET", "ROWS", "FETCH", "NEXT", "ONLY"], (Lexeme.word k).isKeyword k =
      true := by decide
    simp only [List.forall_mem_cons] at hwords
    obtain ⟨hoffset, hrows, hfetch, hnext, honly, _⟩ := hwords
    simp [hcut, Cut.lastWords, readForm, keywords, LimitPiece.read, hoffset, hrows, hfetch,
      hnext, honly, natural?_repr hskip, natural?_repr hn]
  have hlength : (keywords s.cut.lastWords).length = 8 := by rw [hcut]; rfl
  have hlast :=
    lastWindow?_append (d := .mssql) [] rfl hread hlength (List.forall_mem_nil _) s.ordered
  rw [window?, hfirst, lexemes_eq_ordered, hlast]
  rfl

/-- The two words that order rows stand somewhere in a row. -/
def HasOrder (xs : List Lexeme) : Prop :=
  ∃ front a b back, xs = front ++ .word a :: .word b :: back ∧ uppered a = "ORDER" ∧
    uppered b = "BY"

theorem not_hasOrder_of_isChain (h : xs.IsChain (OnlyTables rowWords)) : ¬ HasOrder xs := by
  rintro ⟨front, a, b, back, rfl, ha, hb⟩
  obtain ⟨v, hv, heq⟩ := (List.isChain_append_cons_cons.mp h).2.1 a rfl (ha ▸ by decide)
  obtain rfl := Lexeme.word.inj heq
  have hall : ∀ v ∈ tableFollowers, uppered v ≠ "BY" := by decide
  exact hall b hv hb

theorem not_hasOrder_of_unlisted (h : ∀ x ∈ xs, Unlisted rowWords x) : ¬ HasOrder xs := by
  have hchain := isChain_append_of_unlisted h (List.isChain_nil (R := OnlyTables rowWords))
  rw [List.append_nil] at hchain
  exact not_hasOrder_of_isChain hchain

/-- Lexemes with one order, outside of parentheses, and its terms after it. -/
def OrderedBy (terms xs : List Lexeme) : Prop :=
  ∃ front, xs = front ++ (keywords ["ORDER", "BY"] ++ terms) ∧ Balanced front ∧ ¬ HasOrder front ∧
    ¬ HasOrder terms

theorem orderedBy_ordered {terms : List Lexeme} (hs : s.Legible IsTable)
    (hclause : s.orderClause = keywords ["ORDER", "BY"] ++ terms)
    (hterms : ∀ x ∈ terms, Unlisted rowWords x) : OrderedBy terms s.ordered := by
  refine ⟨s.before ++ .word "FROM" :: .word s.table :: s.middle, hclause ▸ ordered_eq s, ?_, ?_, ?_⟩
  · have hfrom : Balanced [.word "FROM", .word s.table] := .ofMem (by simp)
    exact hs.balanced_before.append (hfrom.append hs.balanced_middle)
  · have hchain := hs.isChain (List.Subset.refl rowWords) .nil
    rw [List.append_nil] at hchain
    exact not_hasOrder_of_isChain hchain
  · exact not_hasOrder_of_unlisted hterms

/-- Where rows are skipped, a statement is ordered by the terms of the caller, or by a constant. -/
theorem orderedBy_fetch (skip n : Int) (hs : s.Legible IsTable) (hcut : s.cut = .whole) :
    OrderedBy (if s.orderBy = [] then constantTerm else separated s.orderBy)
        (SelectStatement.ordered { s with cut := .fetch skip n }) ∧
      SelectStatement.ordered { s with cut := .fetch skip n } =
        s.lexemes ++ if s.orderBy = [] then constantOrder else [] := by
  have hlexemes : s.lexemes = s.ordered := by
    rw [lexemes_eq_ordered, hcut]
    exact List.append_nil _
  have hbefore : SelectStatement.before { s with cut := .fetch skip n } = s.before := by
    simp only [before, firstWords, hcut]
    rfl
  have hmiddle : SelectStatement.middle { s with cut := .fetch skip n } = s.middle := rfl
  have hs' : SelectStatement.Legible IsTable { s with cut := .fetch skip n } := hs.withCut _
  by_cases horder : s.orderBy = []
  · have hnone : s.orderClause = [] := by
      unfold orderClause
      rw [horder, hcut]
      rfl
    have hconstant :
        SelectStatement.orderClause { s with cut := .fetch skip n } = constantOrder := by
      unfold orderClause
      rw [horder]
    rw [if_pos horder, if_pos horder]
    refine ⟨orderedBy_ordered hs' hconstant unlisted_constantTerm, ?_⟩
    rw [hlexemes, ordered_eq, ordered_eq, hconstant, hnone, hbefore, hmiddle, List.append_nil]
  · have hclause : ∀ cut, SelectStatement.orderClause { s with cut } =
        keywords ["ORDER", "BY"] ++ separated s.orderBy := by
      obtain ⟨first, rest, hterms⟩ := List.exists_cons_of_ne_nil horder
      intro cut
      unfold orderClause
      rw [hterms]
      rfl
    have hself : s.orderClause = keywords ["ORDER", "BY"] ++ separated s.orderBy := hclause s.cut
    rw [if_neg horder, if_neg horder]
    refine ⟨orderedBy_ordered hs' (hclause _) (unlisted_separated hs.orderBy), ?_⟩
    rw [hlexemes, ordered_eq, ordered_eq, hclause, hself, hbefore, hmiddle, List.append_nil]

end Reading

section Compiled
variable {c : Compiler} {vars : Variables} {f : Field} {q : CompiledQuery}

theorem led_of_named {w : Walk} {s : SelectStatement} {IsTable : String → Prop} (hw : w.Named c)
    (hcolumns : q.columns = w.columns) (hs : Composes c.dialect q s)
    (hlegible : s.Legible IsTable) : s.Led := by
  obtain ⟨item, more, hitems⟩ := List.exists_cons_of_ne_nil hlegible.items_ne_nil
  have hall := hs.items
  rw [hitems, hcolumns] at hall
  cases hall' : w.columns with
  | nil =>
      rw [hall'] at hall
      cases hall
  | cons column others =>
      rw [hall'] at hall
      obtain ⟨⟨hlexed, _⟩, _⟩ := List.forall₂_cons.mp hall
      obtain ⟨word, rest, hled, hword⟩ := (hw.columns column (hall' ▸ List.mem_cons_self)).2.2.2
      have hitem : item.1 = .word word :: rest := Option.some.inj (hlexed.symm.trans hled)
      refine ⟨word, ?_⟩
      rw [hitems, List.map_cons, separated]
      cases more with
      | nil => exact ⟨_, by simp [itemLexemes, hitem]; rfl, hword⟩
      | cons next later =>
          rw [List.map_cons, List.intercalate_cons_cons]
          exact ⟨_, by simp [itemLexemes, hitem]; rfl, hword⟩

/-- The limit that SQL Server takes is read back, before the columns or after the order. -/
theorem window?_paged_mssql {s : SelectStatement} {limit skip default : Int}
    (hs : Composes .mssql q s) (hsafe : s.Legible (Name.isSafe · = true)) (hled : s.Led)
    (hcut : s.cut = .whole) (hcolumns : q.columns ≠ [])
    (hheaded : ∀ column ∈ q.columns, Headed column.expression)
    (hfronted : ∀ text ∈ q.orderBy, Fronted text) (hn : 0 < effectiveLimit limit default) :
    ∃ xs, Lexed .mssql (Dialect.mssql.paged (statementText .mssql q .whole) limit skip default) xs ∧
      window? .mssql xs = some (if 0 < skip then
          SelectStatement.ordered { s with cut := .fetch skip (effectiveLimit limit default) }
        else s.lexemes, ⟨(effectiveLimit limit default).toNat, skip.toNat⟩) := by
  rw [paged_mssql hs hsafe hcolumns hheaded hfronted]
  split_ifs with hskip
  · exact ⟨_, (hs.withCut _).lexed (hsafe.withCut _), window?_fetch hskip.le hn.le hled rfl⟩
  · refine ⟨_, (hs.withCut _).lexed (hsafe.withCut _), ?_⟩
    rw [Int.toNat_of_nonpos (Int.not_lt.mp hskip)]
    exact window?_top hn.le hcut

theorem effectiveLimit_eq (limit default : Int) :
    effectiveLimit limit default = if 0 < limit then limit else default := by
  unfold effectiveLimit
  split_ifs <;> omega

/-- The row limit of a compiled query is read back from its text, and is the only one: the limit
that the field asks for, or else the default, after the rows to be skipped. The rest is the
statement without a limit, with one order of its rows where SQL Server skips some. -/
theorem row_limit_read_back (hjoins : c.schema.SafeJoins)
    (hmysql : c.dialect = .mysql → q.Legible c) (hdefault : 0 < c.defaultLimit)
    (hf : isUncalculated f = true) (h : c.compile vars f = .ok q) :
    intArgument f "limit" vars = .ok q.limit ∧ intArgument f "skip" vars = .ok q.skip ∧
      ∃ w s xs rest, c.walkRoot vars f q.mainTable = .ok w ∧ s.cut = .whole ∧
      Composes c.dialect q s ∧
        Lexed c.dialect (c.statement q.distinct q.mainTable w) s.lexemes ∧
        Lexed c.dialect q.sql xs ∧ window? c.dialect xs =
          some (rest, ⟨(if 0 < q.limit then q.limit else c.defaultLimit).toNat, q.skip.toNat⟩) ∧
        window? c.dialect rest = none ∧
        rest = s.lexemes ++
          (if c.dialect = .mssql ∧ 0 < q.skip ∧ q.orderBy = [] then constantOrder else []) ∧
        (c.dialect = .mssql → 0 < q.skip →
          OrderedBy (if q.orderBy = [] then constantTerm else separated s.orderBy) rest) := by
  obtain ⟨filters, orderBy, w, hq⟩ := Compiler.exists_compiled h
  have hw := hq.named hf
  have hlegible : q.Legible c := by
    by_cases hd : c.dialect = .mysql
    · exact hmysql hd
    · exact hq.legible hd hjoins
  obtain ⟨s, hcut, hs, htables⟩ := exists_composes hq hw hlegible
  have hsafe : s.Legible (Name.isSafe · = true) := htables.mono fun _ htable => htable.safe
  have hled := led_of_named hw hq.columns hs htables
  have hwhole : s.ordered = s.lexemes := by
    rw [lexemes_eq_ordered, hcut]
    exact (List.append_nil _).symm
  have hnone : window? c.dialect s.lexemes = none :=
    hwhole ▸ window?_ordered c.dialect htables hled (by rw [hcut]; rfl)
  have hunpaged : Lexed c.dialect (c.statement q.distinct q.mainTable w) s.lexemes := by
    have hlexed := hs.lexed hsafe
    rwa [hcut, ← statement_eq hq] at hlexed
  have hsql : q.sql = c.dialect.paged (c.statement q.distinct q.mainTable w) q.limit q.skip
      c.defaultLimit := by
    rw [hq.sql, Bool.true_or, Bool.true_or, if_pos rfl]
  have hpositive : 0 < effectiveLimit q.limit c.defaultLimit := by
    rw [effectiveLimit_eq]
    split_ifs <;> assumption
  rw [← effectiveLimit_eq]
  refine ⟨hq.limit, hq.skip, w, s, ?_⟩
  by_cases hd : c.dialect = .mssql
  · have hcolumns : q.columns ≠ [] := hq.columns ▸ hq.columns_ne_nil
    have hheaded : ∀ column ∈ q.columns, Headed column.expression :=
      fun column hcolumn => (hw.columns column (hq.columns ▸ hcolumn)).2.2.1
    have hfronted : ∀ text ∈ q.orderBy, Fronted text := fun text htext =>
      (hw.orderBy text (hq.orderBy ▸ htext)).2
    have hterms : s.orderBy = [] ↔ q.orderBy = [] := by
      rw [← List.length_eq_zero_iff, ← List.length_eq_zero_iff, hs.orderBy.length_eq]
    rw [statement_eq hq] at hsql hunpaged ⊢
    rw [hd] at hs hsql hunpaged hnone ⊢
    obtain ⟨xs, hxs, hwindow⟩ :=
      window?_paged_mssql hs hsafe hled hcut hcolumns hheaded hfronted hpositive
    refine ⟨xs, _, hq.walk, hcut, hs, hunpaged, hsql ▸ hxs, hwindow, ?_⟩
    by_cases hskip : 0 < q.skip
    · obtain ⟨hordered, hfetch⟩ :=
        orderedBy_fetch q.skip (effectiveLimit q.limit c.defaultLimit) htables hcut
      simp only [hterms] at hordered hfetch
      simp only [hskip, true_and]
      exact ⟨window?_ordered .mssql (htables.withCut _) hled rfl, hfetch, fun _ _ => hordered⟩
    · simp only [hskip, false_and, and_false, if_false, List.append_nil]
      exact ⟨hnone, trivial, fun _ hfalse => hfalse.elim⟩
  · obtain ⟨xs, hxs, hwindow⟩ := window?_paged hd hunpaged hpositive
    refine ⟨xs, s.lexemes, hq.walk, hcut, hs, hunpaged, hsql ▸ hxs, hwindow, hnone, ?_,
      fun hmssql => absurd hmssql hd⟩
    rw [if_neg fun hboth => hd hboth.1, List.append_nil]

end Compiled

/-- Users and their orders after some rows, under a text that reads like the end of a statement. -/
def laterUsers : Field := ⟨none, "users",
  [⟨"where", .object [("name", .text "it's ORDER BY [x OFFSET 1 ROWS")]⟩, ⟨"skip", .int 5⟩], [],
  [⟨some "name", "id", [⟨"aggregate", .text "COUNT"⟩], [], []⟩,
    Shop.nested "orders" [Shop.leaf "total"]]⟩

theorem row_limit_read_back_laterUsers :
    let c : Compiler := { Shop.compiler with dialect := .mssql }
    ∃ q, c.compile [] laterUsers = .ok q ∧ c.schema.SafeJoins ∧ c.dialect ≠ .mysql ∧
    0 < c.defaultLimit ∧
      isUncalculated laterUsers = true ∧ ∃ xs rest, Lexed .mssql q.sql xs ∧
        window? .mssql xs = some (rest, ⟨1000, 5⟩) ∧ OrderedBy constantTerm rest := by
  intro c
  obtain ⟨q, hq⟩ : ∃ q, c.compile [] laterUsers = .ok q := exists_eq_ok (by decide +kernel)
  have hjoins : c.schema.SafeJoins := by
    unfold Schema.Registry.SafeJoins
    decide +kernel
  have hd : c.dialect ≠ .mysql := by decide
  have hdefault : 0 < c.defaultLimit := by decide
  have hf : isUncalculated laterUsers = true := by decide
  obtain ⟨_, _, _, _, xs, rest, _, _, _, _, hxs, hwindow, _, _, hordered⟩ :=
    row_limit_read_back hjoins (fun hmysql => absurd hmysql hd) hdefault hf hq
  have hparts :=
    part_eq (g := fun q => (q.limit, q.skip, q.orderBy)) (b := (0, 5, [])) hq (by decide +kernel)
  simp only [Prod.mk.injEq] at hparts
  obtain ⟨hlimit, hskip, horderBy⟩ := hparts
  rw [hlimit, hskip] at hwindow
  rw [hskip, horderBy] at hordered
  exact ⟨q, hq, hjoins, hd, hdefault, hf, xs, rest, hxs, hwindow, hordered rfl (by decide)⟩

/-- A registry with a join whose column has a quote in its name. -/
def quotedJoin : Schema.Registry :=
  ((((Schema.Registry.empty "public").insertTable "users"
    [Shop.key "users" "id" .integer, .plain "users" "name" .text]).insertTable "orders"
    [Shop.key "orders" "id" .integer, .plain "orders" "buyer's" .integer,
      .plain "orders" "total" .integer]).addJoin
    (.custom "users" ["id"] "orders" ["buyer's"]))

/-- The columns of a join are not checked, and after a quote in one of them the order of the caller
is not found: the text has two orders, and lexemes it has none. -/
theorem quoted_join_column_orders_twice :
    let c : Compiler := ⟨quotedJoin, .mssql, .passThrough, 1000⟩
    let f : Field := ⟨none, "users", [⟨"sort", .text "name"⟩, ⟨"skip", .int 5⟩], [],
      [Shop.leaf "name", Shop.nested "orders" [Shop.leaf "total"]]⟩
    isUncalculated f = true ∧ ∃ q, c.compile [] f = .ok q ∧ q.orderBy = ["users.name"] ∧
      q.sql = "SELECT users.name AS [L0~~0**name], orders.total AS [L1~~0**total] FROM users " ++
        "LEFT JOIN orders ON users.id = orders.buyer's ORDER BY users.name ORDER BY (SELECT NULL) " ++
        "OFFSET 5 ROWS FETCH NEXT 1000 ROWS ONLY" ∧
      ¬ ∃ xs, Lexed .mssql q.sql xs := by
  intro c f
  obtain ⟨q, hq⟩ : ∃ q, c.compile [] f = .ok q := exists_eq_ok (by decide +kernel)
  have hsql := part_eq (g := CompiledQuery.sql) hq (b := "SELECT users.name AS [L0~~0**name], " ++
    "orders.total AS [L1~~0**total] FROM users " ++
    "LEFT JOIN orders ON users.id = orders.buyer's ORDER BY users.name ORDER BY (SELECT NULL) " ++
    "OFFSET 5 ROWS FETCH NEXT 1000 ROWS ONLY") (by decide +kernel)
  refine ⟨by decide, q, hq, part_eq (g := CompiledQuery.orderBy) hq (by decide +kernel), hsql, ?_⟩
  rintro ⟨xs, hxs⟩
  have hnone : lexemes .mssql q.sql.toList = none := by
    rw [hsql]
    decide +kernel
  cases hnone.symm.trans hxs

end SqlGateway.Query
