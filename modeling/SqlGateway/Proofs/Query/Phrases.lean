import SqlGateway.Proofs.Dictionary
import SqlGateway.Proofs.Query.Linking
import SqlGateway.Proofs.Query.Paging

/-!
# Phrases of a walk

What a walk collects can stand in the clauses of a statement: expressions over columns with safe
names, conditions of joins and of filters, and order terms. This holds at the start of a walk and
each field keeps it, whatever the request writes into its arguments.
-/
namespace SqlGateway

open Number Text
open Request (Field Variables)

namespace Schema

open Query (Reserved)

/-- The tables of a schema, and the tables and columns of its joins, have safe names, and no table
has the name of a keyword. -/
structure Registry.SafeNames (r : Registry) : Prop where
  tables : ∀ table ∈ r.active.keys, Name.isSafe table = true ∧ ¬Reserved table
  joins : ∀ j ∈ r.joins.values, ∀ name ∈ j.table1 :: j.table2 :: (j.columns1 ++ j.columns2),
    Name.isSafe name = true

/-- The tables and columns of the joins of a schema have safe names. -/
def Registry.SafeJoins (r : Registry) : Prop :=
  ∀ j ∈ r.joins.values, ∀ name ∈ j.table1 :: j.table2 :: (j.columns1 ++ j.columns2),
    Name.isSafe name = true

section Joins
variable {r : Registry} {parent child : String} {j : Join}

/-- The join of two tables is one that the registry holds, or one with its sides exchanged. -/
theorem Registry.join_ok (h : r.join parent child = .ok j) :
    ∃ held ∈ r.joins.values, j = held ∨ j = held.swapped := by
  have mem_values : ∀ {key : String} {held : Join}, r.joins.get? key = some held →
      held ∈ r.joins.values := fun hget => List.mem_map_of_mem (Dictionary.mem_of_get? hget)
  obtain hfirst | ⟨held, hsecond, rfl⟩ := Registry.get?_of_join h
  · exact ⟨j, mem_values hfirst, .inl rfl⟩
  · exact ⟨held, mem_values hsecond, .inr rfl⟩

theorem Registry.SafeJoins.pairs (h : r.SafeJoins) (hj : r.join parent child = .ok j) :
    ∀ pair ∈ j.pairs, Name.isSafe (j.table1 ++ "." ++ pair.1) = true ∧
      Name.isSafe (j.table2 ++ "." ++ pair.2) = true := by
  rintro ⟨left, right⟩ hpair
  obtain ⟨hleft, hright⟩ := List.of_mem_zip hpair
  obtain ⟨held, hheld, hswapped⟩ := Registry.join_ok hj
  have hsafe := h held hheld
  simp only [List.forall_mem_cons, List.forall_mem_append] at hsafe
  obtain ⟨htable1, htable2, hcolumns1, hcolumns2⟩ := hsafe
  simp only [Name.isSafe_dotted, Bool.and_eq_true]
  rcases hswapped with rfl | rfl
  · exact ⟨⟨htable1, hcolumns1 left hleft⟩, htable2, hcolumns2 right hright⟩
  · exact ⟨⟨htable2, hcolumns2 left hleft⟩, htable1, hcolumns1 right hright⟩

end Joins

end Schema

namespace Query

/-- A text that may stand inside a clause. -/
def Phrase (d : Dialect) (text : String) : Prop := ∃ literals, Worded d text literals

section Phrases
variable {d : Dialect} {a b text : String} {texts : List String}

theorem Phrase.exists_lexed (h : Phrase d text) : ∃ xs, Lexed d text xs ∧ InClause xs := by
  obtain ⟨literals, h⟩ := h
  obtain ⟨xs, hlexed, hinner, hbalanced, _⟩ := h.exists_lexemes
  exact ⟨xs, hlexed, hinner, hbalanced⟩

theorem Phrase.conjunction (h : ∀ text ∈ texts, Phrase d text) :
    Phrase d (" AND ".intercalate texts) := by
  obtain ⟨literals, hliterals⟩ := exists_forall₂ h
  have hand : " " ++ "AND" ++ " " = " AND " := by decide
  refine ⟨literals.flatten, Worded.intercalate (fun ha hb => ?_) hliterals⟩
  rw [← hand]
  exact Worded.between (by decide) ha hb

/-- A dotted name. -/
theorem worded_dotted (h : Name.isSafe text = true) (hdot : '.' ∈ text.toList) : Worded d text [] :=
  Worded.operand (.column h hdot) (List.forall_mem_nil _)

theorem Phrase.equality (ha : Worded d a []) (hb : Worded d b []) : Phrase d (a ++ " = " ++ b) := by
  have hequals : " " ++ "=" ++ " " = " = " := by decide
  rw [← hequals]
  exact ⟨_, Worded.between (by decide) ha hb⟩

/-- No dialect but one reads escapes in a literal. -/
theorem survives_of_ne (hd : d ≠ .mysql) (s : String) : Survives d s := fun h => absurd h hd

/-- A compiled filter is a phrase where its literals survive. -/
theorem phrase_of_survives {context : FilterContext} {v : Json} {text? : Option String}
    (hs : ∀ f, reading context [] v = some f → ∀ s ∈ f.literals, Survives d s)
    (h : Condition.compile context v = .ok text?) : ∀ text ∈ text?, Phrase d text := by
  rintro text rfl
  obtain ⟨c?, hagrees, htext⟩ := exists_renders_of_compile h
  generalize reading context [] v = f? at hagrees hs
  cases hagrees with
  | none => cases htext
  | @some c f hrenders =>
      obtain rfl : text = c.text := Option.some.inj htext
      exact ⟨_, hrenders.worded (hs f rfl)⟩

theorem phrase_of_compile {context : FilterContext} {v : Json} {text? : Option String}
    (hd : context.dialect ≠ .mysql) (h : Condition.compile context v = .ok text?) :
    ∀ text ∈ text?, Phrase context.dialect text :=
  phrase_of_survives (fun _ _ s _ => survives_of_ne hd s) h

theorem fronted_of_forall (hne : text ≠ "") (h : ∀ c ∈ text.toList, isUnmarked c = true) :
    Fronted text := by
  obtain ⟨c, rest, htext⟩ := List.exists_cons_of_ne_nil (mt String.toList_eq_nil_iff.mp hne)
  exact ⟨c, rest, htext, h c (htext ▸ List.mem_cons_self)⟩

end Phrases

namespace OrderTerm
variable {table : String}

/-- The key of an order term is a dotted name or an ordinal. -/
def IsKey (key : String) : Prop :=
  (Name.isSafe key = true ∧ '.' ∈ key.toList) ∨ ∃ n : Int, key = toString n

theorem isKey_columnTerm {spec : List Char} {t : OrderTerm} (h : columnTerm table spec = .ok t) :
    IsKey t.key := by
  obtain ⟨_, hsafe, h⟩ := bind_eq_ok.mp h
  obtain rfl := pure_eq_ok.mp h
  exact .inl ⟨Compiler.ensureSafe_ok hsafe, Name.dot_mem_qualify table _⟩

theorem isKey_ordinalTerm {n : Int} {ts : List OrderTerm} (h : ordinalTerm n = .ok ts) :
    ∀ t ∈ ts, IsKey t.key := by
  unfold ordinalTerm at h
  split_ifs at h
  obtain rfl := Except.ok.inj h
  exact List.forall_mem_singleton.mpr (.inr ⟨_, rfl⟩)

mutual

theorem isKey_terms : (v : Json) → ∀ {ts}, terms table v = .ok ts → ∀ t ∈ ts, IsKey t.key
  | .null, ts, h => by
      obtain rfl : [] = ts := by simpa [terms] using h
      exact List.forall_mem_nil _
  | .text s, ts, h => by
      simp only [terms] at h
      split_ifs at h
      · obtain rfl := Except.ok.inj h
        exact List.forall_mem_nil _
      · cases hterm : columnTerm table (trimmed s.toList) with
        | error e =>
            rw [hterm] at h
            cases h
        | ok t =>
            rw [hterm] at h
            obtain rfl := Except.ok.inj h
            exact List.forall_mem_singleton.mpr (isKey_columnTerm hterm)
  | .int n, ts, h => isKey_ordinalTerm (by simpa only [terms] using h)
  | .float x, ts, h => isKey_ordinalTerm (by simpa only [terms] using h)
  | .list items, ts, h => isKey_itemTerms items (by simpa only [terms] using h)
  | .bool b, ts, h => by simp [terms] at h
  | .object fields, ts, h => by simp [terms] at h

theorem isKey_itemTerms : (items : List Json) → ∀ {ts}, itemTerms table items = .ok ts →
    ∀ t ∈ ts, IsKey t.key
  | [], ts, h => by
      obtain rfl : [] = ts := by simpa [itemTerms] using h
      exact List.forall_mem_nil _
  | item :: rest, ts, h => by
      rw [itemTerms] at h
      obtain ⟨first, hfirst, h⟩ := bind_eq_ok.mp h
      obtain ⟨others, hothers, h⟩ := bind_eq_ok.mp h
      obtain rfl := pure_eq_ok.mp h
      exact List.forall_mem_append.mpr ⟨isKey_terms item hfirst, isKey_itemTerms rest hothers⟩

end

/-- A key is an operand of its own that begins with a word. -/
theorem IsKey.written {key : String} (h : IsKey key) :
    (Operand.word key).Written key ∧ Fronted key := by
  rcases h with ⟨hsafe, hdot⟩ | ⟨n, rfl⟩
  · refine ⟨.column hsafe hdot, fronted_of_forall ?_ (isUnmarked_of_isSafe hsafe)⟩
    rintro rfl
    cases hdot
  · obtain ⟨x, hx⟩ := Option.isSome_iff_exists.mp (readable_toString n)
    refine ⟨.numeral (readable_toString n), fronted_of_forall ?_ fun c hc => ?_⟩
    · intro hempty
      rw [hempty] at hx
      cases hx
    · exact isUnmarked_of_isNumeralChar (isNumeralChar_of_float? hx c hc)

/-- An order term is a phrase that begins with a word. -/
theorem phrase_of_compile {d : Dialect} {v : Json} {texts : List String}
    (h : OrderTerm.compile table v = .ok texts) : ∀ text ∈ texts, Phrase d text ∧ Fronted text := by
  obtain ⟨_, _, h⟩ := bind_eq_ok.mp h
  obtain ⟨ts, hts, h⟩ := bind_eq_ok.mp h
  obtain rfl := pure_eq_ok.mp h
  intro text htext
  obtain ⟨t, ht, rfl⟩ := List.mem_map.mp htext
  obtain ⟨hwritten, hfronted⟩ := (isKey_terms v hts t ht).written
  have hkey : Worded d t.key [] := Worded.operand hwritten (List.forall_mem_nil _)
  unfold OrderTerm.text
  split_ifs
  · have hdesc : " " ++ "DESC" = " DESC" := by decide
    have hboth : Worded d (t.key ++ " " ++ "DESC") ([] ++ []) := hkey.blank (.keyword (by decide))
    rw [String.append_assoc, hdesc] at hboth
    exact ⟨⟨_, hboth⟩, hfronted.append " DESC"⟩
  · exact ⟨⟨_, hkey⟩, hfronted⟩

end OrderTerm

namespace Compiler

variable {c : Compiler} {vars : Variables} {f : Field} {table : String}

/-- A text whose first word is none of those that may stand before the columns. -/
def Led (d : Dialect) (text : String) : Prop :=
  ∃ w rest, Lexed d text (.word w :: rest) ∧ uppered w ∉ ["DISTINCT", "TOP"]

/-- A column of a table, or an aggregate of it, is a phrase that begins with no keyword. -/
theorem phrase_leafColumn {d : Dialect} {level slot : Nat} {column : SelectColumn}
    (htable : Name.isSafe table = true) (hcalc : f.resolved vars "calc" = none)
    (h : c.leafColumn vars f table level slot = .ok column) :
    Phrase d column.expression ∧ Headed column.expression ∧ Led d column.expression := by
  obtain ⟨base, hbase, _, hexpression⟩ := leafColumn_ok h
  obtain ⟨rfl, hname, _⟩ := baseExpression_ok hcalc hbase
  have hsafe : Name.isSafe (table ++ "." ++ f.name) = true := by
    rw [Name.isSafe_dotted, htable, hname]
    rfl
  have hcolumn : Worded d (table ++ "." ++ f.name) [] := worded_dotted hsafe (by simp)
  rcases hexpression with hexpression | ⟨name, hmem, hexpression⟩
  · rw [hexpression]
    refine ⟨⟨_, hcolumn⟩,
      ⟨table.toList, '.', f.name.toList, by simp, isUnmarked_of_isSafe htable, by simp⟩,
      _, [], lexed_of_isSafe hsafe, fun hkeyword => ?_⟩
    have hdots : ∀ w ∈ ["DISTINCT", "TOP"], '.' ∉ w.toList := by decide
    refine hdots _ hkeyword ?_
    have hdot : '.' ∈ upper (table ++ "." ++ f.name).toList := List.mem_map.mpr ⟨'.', by simp, rfl⟩
    rwa [uppered, String.toList_ofList]
  · have hunmarked :
      ∀ name ∈ aggregates, name ≠ "" ∧ ∀ b ∈ name.toList, isUnmarked b = true := by decide
    have hheaded : ∀ argument, Headed (name ++ "(" ++ argument ++ ")") := fun argument =>
      ⟨name.toList, '(', argument.toList ++ [')'], by simp, (hunmarked name hmem).2, by simp⟩
    have hled : ∀ argument literals, Worded d argument literals →
        Led d (name ++ "(" ++ argument ++ ")") := by
      intro argument literals hworded
      obtain ⟨xs, hxs, _⟩ := hworded.exists_lexemes
      have hall : ∀ name ∈ aggregates, uppered name ∉ ["DISTINCT", "TOP"] := by decide
      have happlied := lexemes_append_parenthesized
        (lexemes_word (d := d) (hunmarked name hmem).1 (hunmarked name hmem).2) hxs
      exact ⟨name, _, by simpa [Lexed] using happlied, hall name hmem⟩
    have hkeyword : Worded d name [] := .keyword (List.mem_append_right _ hmem)
    have hdistinct : Worded d "distinct" [] := .keyword (by decide)
    rcases hexpression with hexpression | hexpression
    · rw [hexpression]
      exact ⟨⟨_, hkeyword.applied hcolumn⟩, hheaded _, hled _ _ hcolumn⟩
    · rw [hexpression]
      exact ⟨⟨_, hkeyword.applied (hdistinct.blank hcolumn)⟩, hheaded _,
        hled _ _ (hdistinct.blank hcolumn)⟩

variable {parent child condition : String}

theorem phrase_equalityCondition {d : Dialect} {j : Schema.Join} (hjoins : c.schema.SafeJoins)
    (h : c.schema.join parent child = .ok j) : Phrase d j.equalityCondition := by
  refine Phrase.conjunction fun text htext => ?_
  obtain ⟨pair, hpair, rfl⟩ := List.mem_map.mp htext
  obtain ⟨hleft, hright⟩ := hjoins.pairs h pair hpair
  have hequality : Phrase d (j.table1 ++ "." ++ pair.1 ++ " = " ++ (j.table2 ++ "." ++ pair.2)) :=
    .equality (worded_dotted hleft (by simp)) (worded_dotted hright (by simp))
  have htext : j.table1 ++ "." ++ pair.1 ++ " = " ++ (j.table2 ++ "." ++ pair.2) =
      j.table1 ++ "." ++ pair.1 ++ " = " ++ j.table2 ++ "." ++ pair.2 :=
    String.toList_injective (by simp)
  rwa [htext] at hequality

theorem phrase_of_filterClause {context : FilterContext} {filter : Option Json}
    {clause : Option String} (hd : context.dialect ≠ .mysql)
    (h : FilterClause context filter clause) : ∀ text ∈ clause, Phrase context.dialect text := by
  cases filter with
  | none =>
      obtain rfl : clause = none := h
      simp
  | some tree => exact phrase_of_compile hd h

theorem phrase_registryCondition (hd : c.dialect ≠ .mysql)
    (hjoins : c.schema.SafeJoins) (h : RegistryCondition c parent child condition) :
    Phrase c.dialect condition := by
  obtain ⟨j, further, _, hj, hfurther, rfl, _, rfl⟩ := h
  refine Phrase.conjunction (List.forall_mem_append.mpr ⟨?_, fun text htext => ?_⟩)
  · split_ifs
    · exact List.forall_mem_nil _
    · exact List.forall_mem_singleton.mpr (phrase_equalityCondition hjoins hj)
  · exact phrase_of_filterClause hd hfurther text (Option.mem_toList.mp htext)

theorem phrase_askedEquality {d : Dialect} {pair : String × Json} {text : String}
    (h : AskedEquality parent child pair text) : Phrase d text := by
  obtain ⟨name, _, hleft, hright, rfl⟩ := h
  exact .equality (worded_dotted hleft (Name.dot_mem_qualify parent pair.1))
    (worded_dotted hright (Name.dot_mem_qualify child name))

theorem phrase_linkCondition (hd : c.dialect ≠ .mysql) (hjoins : c.schema.SafeJoins)
    (h : LinkCondition c vars f parent child condition) : Phrase c.dialect condition := by
  unfold LinkCondition at h
  split at h
  · obtain ⟨_, equalities, hequalities, rfl⟩ := h
    refine Phrase.conjunction fun text htext => ?_
    obtain ⟨i, hi, rfl⟩ := List.mem_iff_getElem.mp htext
    obtain ⟨hlength, hall⟩ := List.forall₂_iff_get.mp hequalities
    exact phrase_askedEquality (hall i (hlength ▸ hi) hi)
  · exact phrase_registryCondition hd hjoins h

end Compiler

end Query

end SqlGateway
