import Mathlib.Data.List.Basic
import SqlGateway.Proofs.Query.Tokens

/-!
# Formulas of conditions

What the text of a condition says, by the grammar of an engine: comparisons, joined by `AND` and
`OR`, of which `AND` binds tighter, with parentheses to group them. Both connectives take any number
of parts, and a part under the same connective is no group of its own, so a formula says what is
joined and not in which steps.
-/
namespace SqlGateway.Query

inductive Operand where
  | word (text : String)
  | literal (content : String)
  deriving DecidableEq, Repr

inductive Comparison where
  | relation (left : Operand) (operator : String) (right : Operand)
  | null (left : Operand) (isNull : Bool)
  | member (left : Operand) (isMember : Bool) (items : List Operand)
  deriving DecidableEq, Repr

inductive Connective where
  | and
  | or
  deriving DecidableEq, Repr

def Connective.keyword : Connective → String
  | and => "AND"
  | or => "OR"

inductive Formula where
  | comparison (c : Comparison)
  | joined (connective : Connective) (parts : List Formula)
  deriving Repr

namespace Formula

mutual

/-- The parts that a formula joins by a connective; a formula that is not joined by it is its own
part. -/
def parts (k : Connective) : Formula → List Formula
  | comparison c => [comparison c]
  | joined connective fs => if connective = k then partsOf k fs else [joined connective fs]

def partsOf (k : Connective) : List Formula → List Formula
  | [] => []
  | f :: rest => f.parts k ++ partsOf k rest

end

/-- Formulas joined by a connective; a single one stands for itself. -/
def join (k : Connective) : List Formula → Formula
  | [f] => f
  | fs => joined k (partsOf k fs)

abbrev conj : List Formula → Formula := join .and

abbrev conjuncts : Formula → List Formula := parts .and

mutual

/-- The comparisons of a formula, in order. -/
def leaves : Formula → List Comparison
  | comparison c => [c]
  | joined _ fs => leavesOf fs

def leavesOf : List Formula → List Comparison
  | [] => []
  | f :: rest => f.leaves ++ leavesOf rest

end

section Joining
variable {k : Connective}

theorem partsOf_eq_flatMap (fs : List Formula) : partsOf k fs = fs.flatMap (parts k) := by
  induction fs with
  | nil => rfl
  | cons f rest ih => rw [partsOf, ih, List.flatMap_cons]

theorem leavesOf_eq_flatMap (fs : List Formula) : leavesOf fs = fs.flatMap leaves := by
  induction fs with
  | nil => rfl
  | cons f rest ih => rw [leavesOf, ih, List.flatMap_cons]

mutual

/-- A part is not joined by the connective itself. -/
theorem parts_of_mem_parts : (f : Formula) → ∀ g ∈ f.parts k, g.parts k = [g]
  | comparison c => by
      intro g hg
      obtain rfl : g = comparison c := by simpa [parts] using hg
      rfl
  | joined connective fs => by
      intro g hg
      by_cases hk : connective = k
      · rw [parts, if_pos hk] at hg
        exact parts_of_mem_partsOf fs g hg
      · rw [parts, if_neg hk, List.mem_singleton] at hg
        rw [hg, parts, if_neg hk]

theorem parts_of_mem_partsOf : (fs : List Formula) → ∀ g ∈ partsOf k fs, g.parts k = [g]
  | [] => by simp [partsOf]
  | f :: rest => by
      intro g hg
      rcases List.mem_append.mp hg with hg | hg
      · exact parts_of_mem_parts f g hg
      · exact parts_of_mem_partsOf rest g hg

end

/-- The parts of what is joined are those of the formulas joined. -/
theorem parts_join (fs : List Formula) : (join k fs).parts k = fs.flatMap (parts k) := by
  have joined_parts : (joined k (partsOf k fs)).parts k = fs.flatMap (parts k) := by
    rw [parts, if_pos rfl, partsOf_eq_flatMap, ← partsOf_eq_flatMap fs]
    calc (partsOf k fs).flatMap (parts k)
      _ = (partsOf k fs).flatMap fun g => [g] := List.flatMap_congr (parts_of_mem_partsOf fs)
      _ = partsOf k fs := by simp
  match fs with
  | [] => exact joined_parts
  | [f] => simp [join]
  | _ :: _ :: _ => exact joined_parts

/-- Formulas may be joined in two steps. -/
theorem join_append {fs gs : List Formula} (hf : fs ≠ []) (hg : gs ≠ []) :
    join k (fs ++ gs) = join k [join k fs, join k gs] := by
  have two : ∀ {f g : Formula} {rest : List Formula},
      join k (f :: g :: rest) = joined k (partsOf k (f :: g :: rest)) := rfl
  obtain ⟨f, fs, rfl⟩ := List.exists_cons_of_ne_nil hf
  obtain ⟨g, more, hmore⟩ := List.exists_cons_of_ne_nil (List.append_ne_nil_of_right_ne_nil fs hg)
  rw [List.cons_append, hmore, two, ← hmore, ← List.cons_append, two]
  simp [partsOf_eq_flatMap, parts_join]

mutual

theorem leavesOf_parts : (f : Formula) → leavesOf (f.parts k) = f.leaves
  | comparison _ => rfl
  | joined connective fs => by
      by_cases hk : connective = k
      · rw [parts, if_pos hk]
        exact leavesOf_partsOf fs
      · simp [parts, hk, leavesOf]

theorem leavesOf_partsOf : (fs : List Formula) → leavesOf (partsOf k fs) = leavesOf fs
  | [] => rfl
  | f :: rest => by
      have happend := leavesOf_eq_flatMap (f.parts k ++ partsOf k rest)
      rw [List.flatMap_append, ← leavesOf_eq_flatMap, ← leavesOf_eq_flatMap] at happend
      rw [partsOf, happend, leavesOf_parts f, leavesOf_partsOf rest, leavesOf]

end

/-- Joining keeps every comparison. -/
theorem leaves_join (fs : List Formula) : (join k fs).leaves = fs.flatMap leaves := by
  rw [← leavesOf_eq_flatMap]
  match fs with
  | [] => rfl
  | [f] => simp [join, leavesOf]
  | f :: g :: rest => exact leavesOf_partsOf (f :: g :: rest)

end Joining

end Formula

/-- What stands in a text outside the parentheses that are closed: operands, keywords among them,
commas, and what parentheses hold. -/
inductive Item where
  | operand (o : Operand)
  | comma
  /-- A pair of parentheses, as a formula and as a list of operands, if it is one. -/
  | group (formula : Option Formula) (operands : Option (List Operand))

/-- Keywords may be written in letters of either case. -/
def Item.isKeyword (k : Connective) : Item → Bool
  | .operand (.word w) => w.toList.map Char.toLower == k.keyword.toList.map Char.toLower
  | _ => false

namespace Formula

def relations : List String := ["=", "<>", ">", ">=", "<", "<=", "LIKE"]

/-- The comparison of a left side by what follows it. -/
def comparedBy? (left : Operand) (operator : String) (rest : List Item) : Option Comparison :=
  match operator, rest with
  | "IS", [.operand (.word "NULL")] => some (.null left true)
  | "IS", [.operand (.word "NOT"), .operand (.word "NULL")] => some (.null left false)
  | "IN", [.group _ (some items)] => some (.member left true items)
  | "NOT", [.operand (.word "IN"), .group _ (some items)] => some (.member left false items)
  | _, [.operand right] =>
    if relations.contains operator then some (.relation left operator right) else none
  | _, _ => none

def comparison? : List Item → Option Comparison
  | .operand left :: .operand (.word operator) :: rest => comparedBy? left operator rest
  | _ => none

/-- A comparison, or a formula in parentheses. -/
def factor? : List Item → Option Formula
  | [.group formula _] => formula
  | items => (comparison? items).map .comparison

/-- Formulas of one kind with a connective between them. -/
def joined? (k : Connective) (part? : List Item → Option Formula) (items : List Item) :
    Option Formula :=
  ((items.splitOnP (·.isKeyword k)).mapM part?).map (join k)

def conjunction? : List Item → Option Formula := joined? .and factor?

def disjunction? : List Item → Option Formula := joined? .or conjunction?

/-- Operands with commas between them. -/
def operands? : List Item → Option (List Operand)
  | [.operand o] => some [o]
  | .operand o :: .comma :: rest => (operands? rest).map (o :: ·)
  | _ => none

def grouped (items : List Item) : Item := .group (disjunction? items) (operands? items)

/-- What a token other than a parenthesis stands for. -/
def ofToken? : Token → Option Item
  | .word w => some (.operand (.word w))
  | .literal s => some (.operand (.literal s))
  | .comma => some .comma
  | _ => none

/-- Takes a token into the items of the open parentheses, the innermost first. -/
def take : List (List Item) → Token → Option (List (List Item))
  | frames, .opening => some ([] :: frames)
  | inner :: outer :: frames, .closing => some ((outer ++ [grouped inner]) :: frames)
  | inner :: frames, t => (ofToken? t).map fun item => (inner ++ [item]) :: frames
  | [], _ => none

/-- The items of tokens whose parentheses match. -/
def nested? (ts : List Token) : Option (List Item) :=
  match ts.foldlM take [[]] with
  | some [items] => some items
  | _ => none

/-- The items of a text; none if its literals or its parentheses do not match. -/
def items? (cs : List Char) : Option (List Item) := (tokens cs).bind nested?

end Formula

/-- The formula that a text spells. -/
def formula? (text : String) : Option Formula :=
  (Formula.items? text.toList).bind Formula.disjunction?

/-- The formula of a text that has no `OR` outside parentheses. -/
def clause? (text : String) : Option Formula :=
  (Formula.items? text.toList).bind fun items =>
    if items.any (·.isKeyword .or) then none else Formula.conjunction? items

namespace Formula

section Nesting

/-- Frames set into others: their outermost one goes on where a frame has got to, above further
ones. -/
def setInto (current : List Item) (outer : List (List Item)) :
    List (List Item) → List (List Item)
  | [] => []
  | [outermost] => (current ++ outermost) :: outer
  | inner :: next :: frames => inner :: setInto current outer (next :: frames)

variable {current : List Item} {outer frames frames' : List (List Item)}

theorem take_setInto {t : Token} (h : take frames t = some frames') (hne : frames ≠ []) :
    take (setInto current outer frames) t = some (setInto current outer frames') ∧
    frames' ≠ [] := by
  match frames, hne with
  | [inner], _ =>
      cases t <;> simp only [take, ofToken?, Option.map_some, Option.map_none, Option.some.injEq,
        reduceCtorEq] at h
      all_goals
        subst h
        exact ⟨by simp [setInto, take, ofToken?], by simp⟩
  | inner :: next :: more, _ =>
      cases t <;> simp only [take, ofToken?, Option.map_some, Option.some.injEq] at h
      all_goals
        subst h
        cases more <;> exact ⟨by simp [setInto, take, ofToken?], by simp⟩

/-- What closes all the parentheses that it opens is read alike wherever it stands. -/
theorem foldlM_take_setInto {ts : List Token} (h : ts.foldlM take frames = some frames')
    (hne : frames ≠ []) :
    ts.foldlM take (setInto current outer frames) = some (setInto current outer frames') := by
  induction ts generalizing frames with
  | nil =>
      obtain rfl := Option.some.inj h
      rfl
  | cons t rest ih =>
      rw [List.foldlM_cons] at h ⊢
      obtain ⟨next, hnext, h⟩ := Option.bind_eq_some_iff.mp h
      obtain ⟨htake, hne⟩ := take_setInto hnext hne
      rw [htake]
      exact ih h hne

theorem nested?_eq_some {ts : List Token} {items : List Item} :
    nested? ts = some items ↔ ts.foldlM take [[]] = some [items] := by
  unfold nested?
  split
  · rename_i found hfound
    rw [hfound]
    simp
  · rename_i hnone
    constructor
    · intro h
      cases h
    · intro h
      exact absurd h (hnone items)

theorem foldlM_take_of_nested? {ts : List Token} {items : List Item} (h : nested? ts = some items)
    (current : List Item) (outer : List (List Item)) :
    ts.foldlM take (current :: outer) = some ((current ++ items) :: outer) := by
  have : ts.foldlM take (setInto current outer [[]]) = some (setInto current outer [items]) :=
    foldlM_take_setInto (nested?_eq_some.mp h) (by simp)
  simpa [setInto] using this

theorem nested?_append {ts us : List Token} {xs ys : List Item} (ht : nested? ts = some xs)
    (hu : nested? us = some ys) : nested? (ts ++ us) = some (xs ++ ys) := by
  rw [nested?_eq_some, List.foldlM_append, nested?_eq_some.mp ht]
  exact foldlM_take_of_nested? hu xs []

theorem nested?_parenthesized {ts : List Token} {xs : List Item} (h : nested? ts = some xs) :
    nested? (.opening :: (ts ++ [.closing])) = some [grouped xs] := by
  have htake := foldlM_take_of_nested? h [] [[]]
  rw [nested?_eq_some, List.foldlM_cons]
  change (ts ++ [Token.closing]).foldlM take ([] :: [[]]) = _
  rw [List.foldlM_append, htake]
  rfl

end Nesting

section Items
variable {cs ds : List Char} {xs ys : List Item}

theorem items?_eq_some :
    items? cs = some xs ↔ ∃ ts, tokens cs = some ts ∧ nested? ts = some xs :=
  Option.bind_eq_some_iff

theorem items?_word {s : String} (hne : s ≠ "") (h : ∀ c ∈ s.toList, isWordPart c = true) :
    items? s.toList = some [.operand (.word s)] :=
  items?_eq_some.mpr ⟨_, tokens_word hne h, rfl⟩

theorem items?_quoteText (s : String) :
    items? (quoteText s).toList = some [.operand (.literal s)] :=
  items?_eq_some.mpr ⟨_, tokens_quoteText s, rfl⟩

theorem items?_append_mark {c : Char} {marked : List Token} {between : List Item}
    (hx : items? cs = some xs) (hc : Scan.mark? c = some marked)
    (hm : nested? marked = some between)
    (hy : items? ds = some ys) : items? (cs ++ c :: ds) = some (xs ++ between ++ ys) := by
  obtain ⟨ts, hts, hxs⟩ := items?_eq_some.mp hx
  obtain ⟨us, hus, hys⟩ := items?_eq_some.mp hy
  refine items?_eq_some.mpr ⟨ts ++ marked ++ us, ?_, nested?_append (nested?_append hxs hm) hys⟩
  rw [tokens_append_mark hts hc, hus]
  rfl

/-- Texts with a blank between them. -/
theorem items?_append_blank (hx : items? cs = some xs) (hy : items? ds = some ys) :
    items? (cs ++ ' ' :: ds) = some (xs ++ ys) := by
  have hblank : Scan.mark? ' ' = some [] := rfl
  simpa using items?_append_mark hx hblank rfl hy

/-- Texts with a comma and a blank between them. -/
theorem items?_append_comma (hx : items? cs = some xs) (hy : items? ds = some ys) :
    items? (cs ++ ',' :: ' ' :: ds) = some (xs ++ .comma :: ys) := by
  have hnil : items? [] = some [] := rfl
  have hcomma : Scan.mark? ',' = some [.comma] := rfl
  simpa using items?_append_mark hx hcomma rfl (items?_append_blank hnil hy)

theorem items?_parenthesized (hx : items? cs = some xs) :
    items? ('(' :: (cs ++ [')'])) = some [grouped xs] := by
  obtain ⟨ts, hts, hxs⟩ := items?_eq_some.mp hx
  exact items?_eq_some.mpr ⟨_, tokens_parenthesized hts, nested?_parenthesized hxs⟩

end Items

section Joined
variable {k : Connective} {part? : List Item → Option Formula}

theorem joined?_singleton {items : List Item} (h : ∀ item ∈ items, item.isKeyword k = false) :
    joined? k part? items = part? items := by
  rw [joined?, List.splitOnP_eq_singleton (by simpa using h)]
  cases hpart : part? items <;> simp [hpart, join]

theorem joined?_append {xs ys : List Item} {f g : Formula} {keyword : Item}
    (hk : keyword.isKeyword k = true) (hf : joined? k part? xs = some f)
    (hg : joined? k part? ys = some g) :
    joined? k part? (xs ++ keyword :: ys) = some (join k [f, g]) := by
  obtain ⟨fs, hfs, rfl⟩ := Option.map_eq_some_iff.mp hf
  obtain ⟨gs, hgs, rfl⟩ := Option.map_eq_some_iff.mp hg
  have nonempty : ∀ {xs : List Item} {fs : List Formula},
      (xs.splitOnP (·.isKeyword k)).mapM part? = some fs → fs ≠ [] := by
    rintro xs _ h rfl
    obtain ⟨first, more, hsplit⟩ :=
      List.exists_cons_of_ne_nil (List.splitOnP_ne_nil (·.isKeyword k) xs)
    rw [hsplit, List.mapM_cons] at h
    obtain ⟨_, _, h⟩ := Option.bind_eq_some_iff.mp h
    obtain ⟨_, _, h⟩ := Option.bind_eq_some_iff.mp h
    cases h
  rw [joined?, List.splitOnP_append_cons _ _ hk, List.mapM_append, hfs, hgs]
  simp [join_append (nonempty hfs) (nonempty hgs)]

end Joined

end Formula

section Clauses
variable {a b : String} {f g : Formula} {texts : List String} {fs : List Formula}

open Formula

theorem clause?_eq_some : clause? a = some f ↔ ∃ items, items? a.toList = some items ∧
    (∀ item ∈ items, item.isKeyword .or = false) ∧ conjunction? items = some f := by
  simp only [clause?, Option.bind_eq_some_iff]
  refine exists_congr fun items => and_congr_right fun _ => ?_
  by_cases h : items.any (·.isKeyword .or) = true
  · obtain ⟨item, hitem, hor⟩ := List.any_eq_true.mp h
    simp only [if_pos h, reduceCtorEq, false_iff, not_and]
    intro hall
    rw [hall item hitem] at hor
    cases hor
  · have hall : ∀ item ∈ items, item.isKeyword .or = false := by simpa using h
    rw [if_neg h]
    exact ⟨fun hf => ⟨hall, hf⟩, fun hf => hf.2⟩

/-- What is neither joined by `AND` nor by `OR` is a clause if it is a factor. -/
theorem clause?_of_factor? {items : List Item} (h : items? a.toList = some items)
    (hplain : ∀ item ∈ items, ∀ k, item.isKeyword k = false) (hf : factor? items = some f) :
    clause? a = some f := by
  refine clause?_eq_some.mpr ⟨items, h, fun item hitem => hplain item hitem .or, ?_⟩
  rw [conjunction?, joined?_singleton fun item hitem => hplain item hitem .and, hf]

theorem disjunction?_of_clause? (h : clause? a = some f) :
    ∃ items, items? a.toList = some items ∧ disjunction? items = some f := by
  obtain ⟨items, hitems, hor, hf⟩ := clause?_eq_some.mp h
  exact ⟨items, hitems, by rw [disjunction?, joined?_singleton hor, hf]⟩

theorem formula?_of_clause? (h : clause? a = some f) : formula? a = some f := by
  obtain ⟨items, hitems, hf⟩ := disjunction?_of_clause? h
  rw [formula?, hitems, Option.bind_some, hf]

/-- The items of two texts with a connective between them. -/
theorem items?_connective (k : Connective) {xs ys : List Item} (hx : items? a.toList = some xs)
    (hy : items? b.toList = some ys) :
    items? (a ++ (" " ++ k.keyword ++ " ") ++ b).toList =
      some (xs ++ .operand (.word k.keyword) :: ys) := by
  have hk : items? k.keyword.toList = some [.operand (.word k.keyword)] := by
    cases k <;> exact items?_word (by decide) (List.all_eq_true.mp (by decide))
  have := items?_append_blank hx (items?_append_blank hk hy)
  simpa using this

theorem isKeyword_keyword (k : Connective) :
    (Item.operand (.word k.keyword)).isKeyword k = true := by
  cases k <;> rfl

/-- Clauses with `AND` between them are a clause, and neither is regrouped. -/
theorem clause?_and (ha : clause? a = some f) (hb : clause? b = some g) :
    clause? (a ++ " AND " ++ b) = some (conj [f, g]) := by
  obtain ⟨xs, hxs, hxor, hxf⟩ := clause?_eq_some.mp ha
  obtain ⟨ys, hys, hyor, hyg⟩ := clause?_eq_some.mp hb
  refine clause?_eq_some.mpr ⟨_, items?_connective .and hxs hys, ?_,
    joined?_append (isKeyword_keyword .and) hxf hyg⟩
  intro item hitem
  rcases List.mem_append.mp hitem with hitem | hitem
  · exact hxor item hitem
  · rcases List.mem_cons.mp hitem with rfl | hitem
    · rfl
    · exact hyor item hitem

theorem join_cons (k : Connective) (hne : fs ≠ []) : join k (f :: fs) = join k [f, join k fs] := by
  have := join_append (k := k) (List.cons_ne_nil f []) hne
  exact this

/-- Texts and the formulas that they spell as clauses. -/
abbrev Clauses : List String → List Formula → Prop := List.Forall₂ fun text f =>
  clause? text = some f

theorem clause?_intercalate (h : Clauses texts fs) (hne : texts ≠ []) :
    clause? (" AND ".intercalate texts) = some (conj fs) := by
  induction h with
  | nil => exact absurd rfl hne
  | @cons text f rest fs hf hrest ih =>
      cases hrest with
      | nil => simpa [join] using hf
      | cons hg hmore =>
          rw [String.intercalate_cons_cons, conj, join_cons .and (by simp)]
          exact clause?_and hf (ih (by simp))

theorem disjunction?_intercalate (h : Clauses texts fs) (hne : texts ≠ []) :
    ∃ items, items? (" OR ".intercalate texts).toList = some items ∧
      disjunction? items = some (join .or fs) := by
  induction h with
  | nil => exact absurd rfl hne
  | @cons text f rest fs hf hrest ih =>
      obtain ⟨xs, hxs, hxf⟩ := disjunction?_of_clause? hf
      cases hrest with
      | nil => exact ⟨xs, by simpa using hxs, hxf⟩
      | cons hg hmore =>
          obtain ⟨ys, hys, hyf⟩ := ih (by simp)
          rw [String.intercalate_cons_cons, join_cons .or (by simp)]
          exact ⟨_, items?_connective .or hxs hys, joined?_append (isKeyword_keyword .or) hxf hyf⟩

/-- A formula in parentheses is a clause. -/
theorem clause?_parenthesized {items : List Item} (h : items? a.toList = some items)
    (hf : disjunction? items = some f) : clause? ("(" ++ a ++ ")") = some f := by
  have hparen : items? ("(" ++ a ++ ")").toList = some [grouped items] := by
    simpa using items?_parenthesized h
  refine clause?_of_factor? hparen ?_ hf
  intro item hitem k
  obtain rfl := List.mem_singleton.mp hitem
  rfl

end Clauses

end SqlGateway.Query
