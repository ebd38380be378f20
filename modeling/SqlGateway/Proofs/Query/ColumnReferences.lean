import SqlGateway.Proofs.Name
import SqlGateway.Proofs.Query.Reading

/-!
# Columns on both sides

In a join condition a text on the right side names a column, as a key does on the left side. The
left side takes the last two segments of the name and then writes dots for double underscores, the
right side does it the other way round. So a name means the same column on both sides just if its
last two segments have no double underscore: else the right side loses the schema of a table, or
takes a part of a column for its table.
-/
namespace SqlGateway.Name

section Dotting
variable {cs segment owner name : List Char} {table column : String}

/-- Writing dots for double underscores splits each segment by itself. -/
theorem segments_dotted (cs : List Char) :
    segments '.' (dotted cs) = (segments '.' cs).flatMap fun segment =>
      segments '.' (dotted segment) := by
  by_cases hdot : '.' ∈ cs
  · obtain ⟨a, b, rfl⟩ := List.append_of_mem hdot
    rw [dotted_append_dot, segments_append_cons, segments_append_cons, List.flatMap_append,
      segments_dotted a, segments_dotted b]
  · rw [segments_of_not_mem hdot, List.flatMap_singleton]
termination_by cs.length

/-- A part of a name that is written with dots has no double underscore. -/
theorem noDouble_of_mem_segments (h : segment ∈ segments '.' (dotted cs)) : NoDouble segment :=
  (noDouble_dotted cs).of_isInfix (isInfix_of_mem_segments h)

theorem exists_last_segment (cs : List Char) : ∃ front last, segments '.' cs = front ++ [last] :=
  (List.eq_nil_or_concat' _).resolve_left (segments_ne_nil '.' cs)

theorem exists_last_segments (h : '.' ∈ cs) :
    ∃ front owner name, segments '.' cs = front ++ [owner, name] := by
  obtain ⟨a, b, rfl⟩ := List.append_of_mem h
  obtain ⟨front, owner, ha⟩ := exists_last_segment a
  obtain ⟨front', name, hb⟩ := exists_last_segment b
  rw [segments_append_cons, ha, hb]
  obtain rfl | ⟨more, last, rfl⟩ := List.eq_nil_or_concat' front'
  · exact ⟨front, owner, name, by simp⟩
  · exact ⟨front ++ owner :: more, last, name, by simp⟩

theorem toList_qualify {front : List (List Char)}
    (h : segments '.' column.toList = front ++ [owner, name]) :
    (qualify table column).toList = dotted owner ++ '.' :: name := by
  have hreverse : (segments '.' column.toList).reverse = name :: owner :: front.reverse := by
    simp [h]
  rw [qualify, hreverse]
  simp [internal]

theorem toList_qualify_of_not_mem (h : '.' ∉ column.toList) :
    (qualify table column).toList = table.toList ++ '.' :: column.toList := by
  rw [qualify, segments_of_not_mem h]
  simp

theorem eq_of_segments_eq_singleton (h : segments '.' cs = [name]) : cs = name := by
  by_cases hdot : '.' ∈ cs
  · obtain ⟨front, owner, last, hlast⟩ := exists_last_segments hdot
    have hlength := congrArg List.length (h.symm.trans hlast)
    simp at hlength
  · rw [segments_of_not_mem hdot] at h
    exact List.singleton_inj.mp h

/-- A qualified column ends with a dot and the last segment. -/
theorem exists_toList_qualify (table : String) {front : List (List Char)}
    (h : segments '.' column.toList = front ++ [name]) :
    ∃ before, (qualify table column).toList = before ++ '.' :: name := by
  obtain rfl | ⟨more, owner, rfl⟩ := List.eq_nil_or_concat' front
  · have hcolumn : column.toList = name := eq_of_segments_eq_singleton h
    have hmem : name ∈ segments '.' column.toList := by simp [h]
    have hdot : '.' ∉ name := not_mem_of_mem_segments hmem
    exact ⟨table.toList, hcolumn ▸ toList_qualify_of_not_mem (hcolumn ▸ hdot)⟩
  · exact ⟨dotted owner, toList_qualify (by simpa using h)⟩

/-- The last part of a table that is written with dots is the whole of it just if it had no double
underscore. -/
theorem dotted_eq_last_iff {front : List (List Char)} {last : List Char} (hdot : '.' ∉ owner)
    (h : segments '.' (dotted owner) = front ++ [last]) : dotted owner = last ↔ NoDouble owner := by
  constructor
  · intro hlast
    by_contra hdouble
    have hmem : last ∈ segments '.' (dotted owner) := by simp [h]
    exact not_mem_of_mem_segments hmem (hlast ▸ dot_mem_dotted hdouble)
  · intro hplain
    rw [dotted_of_noDouble hplain, segments_of_not_mem hdot] at h
    have hboth : [] ++ [owner] = front ++ [last] := h
    rw [dotted_of_noDouble hplain, List.singleton_inj.mp (List.append_inj_right' hboth rfl)]

/-- A column is the same before and after dots are written for double underscores just if its last
two segments have none. -/
theorem qualify_eq_qualify_internal_iff (table column : String) :
    qualify table column = qualify table (internal column) ↔
      ∀ segment ∈ (segments '.' column.toList).reverse.take 2, NoDouble segment := by
  obtain ⟨front, name, hcolumn⟩ := exists_last_segment column.toList
  have hinternal : segments '.' (internal column).toList =
      (front.flatMap fun segment => segments '.' (dotted segment)) ++
        segments '.' (dotted name) := by
    rw [internal, String.toList_ofList, segments_dotted, hcolumn, List.flatMap_append,
      List.flatMap_singleton]
  have hdots : ∀ segment ∈ segments '.' column.toList, '.' ∉ segment := fun _ =>
    not_mem_of_mem_segments
  have hdot : '.' ∉ name := hdots name (by simp [hcolumn])
  by_cases hname : NoDouble name
  · obtain rfl | ⟨more, owner, rfl⟩ := List.eq_nil_or_concat' front
    · have hsame : internal column = column := by
        rw [internal, eq_of_segments_eq_singleton hcolumn, dotted_of_noDouble hname,
          ← eq_of_segments_eq_singleton hcolumn, String.ofList_toList]
      simp [hsame, hcolumn, hname]
    · obtain ⟨front', last, hsplit⟩ := exists_last_segment (dotted owner)
      have hmem : last ∈ segments '.' (dotted owner) := by simp [hsplit]
      have hlast : dotted last = last := dotted_of_noDouble (noDouble_of_mem_segments hmem)
      have hleft : (qualify table column).toList = dotted owner ++ '.' :: name :=
        toList_qualify (by simpa using hcolumn)
      have hright : (qualify table (internal column)).toList = last ++ '.' :: name := by
        have hsegments : segments '.' (internal column).toList =
            (more.flatMap (fun segment => segments '.' (dotted segment)) ++ front') ++
              [last, name] := by
          rw [hinternal, dotted_of_noDouble hname, segments_of_not_mem hdot]
          simp [hsplit]
        rw [← hlast]
        exact toList_qualify hsegments
      calc qualify table column = qualify table (internal column)
        _ ↔ dotted owner = last := by rw [← String.toList_inj, hleft, hright, List.append_left_inj]
        _ ↔ NoDouble owner := dotted_eq_last_iff (hdots owner (by simp [hcolumn])) hsplit
        _ ↔ _ := by simp [hcolumn, hname]
  · refine iff_of_false (fun heq => hname ?_) (fun hall => hname (hall name (by simp [hcolumn])))
    obtain ⟨front', last, hsplit⟩ := exists_last_segment (dotted name)
    have hmem : last ∈ segments '.' (dotted name) := by simp [hsplit]
    rw [hsplit, ← List.append_assoc] at hinternal
    obtain ⟨before, hleft⟩ := exists_toList_qualify table hcolumn
    obtain ⟨before', hright⟩ := exists_toList_qualify table hinternal
    have hends : name = last := eq_of_append_dot hdot (not_mem_of_mem_segments hmem)
      (hleft.symm.trans ((congrArg String.toList heq).trans hright))
    exact hends ▸ noDouble_of_mem_segments hmem

end Dotting

end SqlGateway.Name

namespace SqlGateway.Query

/-- A key that names a column: no connective, no operator and no constant. -/
def NamesColumn (key : String) : Prop :=
  Condition.connective? key = none ∧ Condition.isOperator key = false ∧ constantOf? key = none

instance (key : String) : Decidable (NamesColumn key) := inferInstanceAs (Decidable (_ ∧ _ ∧ _))

section Sides
variable {context : FilterContext} {key op sql q text : String} {subject : Subject}

theorem NamesColumn.under (h : NamesColumn key) : Condition.Subject.under none key = .path key := by
  have hmark : Text.dropFront? Condition.constantMark key.toList = none :=
    Option.map_eq_none_iff.mp h.2.2
  simp [Condition.Subject.under, hmark]

/-- The operators that compare are operators and no connectives, and each makes its comparison. -/
theorem readField_of_comparison? (h : Condition.comparison? op = some sql) :
    Condition.readField context (some subject) op (.text q) =
      (Condition.compare context subject sql (.text q)).map some := by
  unfold Condition.comparison? at h
  split at h <;> simp only [Option.some.injEq, reduceCtorEq] at h
  all_goals
    subst h
    rfl

theorem compare_ok {c : Condition} {v : Json}
    (h : Condition.compare context subject sql v = .ok c) :
    ∃ left right, Condition.subjectText context subject = .ok left ∧
    Condition.operandText context v = .ok right ∧
      c.text = left ++ " " ++ sql ++ " " ++ right := by
  obtain ⟨left, hleft, h⟩ := bind_eq_ok.mp h
  obtain ⟨right, hright, h⟩ := bind_eq_ok.mp h
  obtain rfl := pure_eq_ok.mp h
  exact ⟨left, right, hleft, hright, rfl⟩

/-- A filter of one comparison compiles to its two sides. -/
theorem compile_comparison (hkey : NamesColumn key) (hop : Condition.comparison? op = some sql)
    (h : Condition.compile context (.object [(key, .object [(op, .text q)])]) = .ok (some text)) :
    ∃ left right, Condition.subjectText context (.path key) = .ok left ∧
      Condition.operandText context (.text q) = .ok right ∧
      text = left ++ " " ++ sql ++ " " ++ right := by
  obtain ⟨c?, hread, h⟩ := bind_eq_ok.mp h
  obtain ⟨_, _, hread⟩ := bind_eq_ok.mp hread
  obtain ⟨outer, houter, hread⟩ := bind_eq_ok.mp hread
  obtain ⟨first, hfirst, houter⟩ := bind_eq_ok.mp houter
  rw [Condition.readField, hkey.1, hkey.2.1, hkey.under] at hfirst
  obtain ⟨inner, hinner, hfirst⟩ := bind_eq_ok.mp hfirst
  obtain ⟨c?', hcompare, hinner⟩ := bind_eq_ok.mp hinner
  rw [readField_of_comparison? hop] at hcompare
  cases hc : Condition.compare context (.path key) sql (.text q) with
  | error e =>
      rw [hc] at hcompare
      cases hcompare
  | ok c =>
      rw [hc] at hcompare
      obtain rfl := Except.ok.inj hcompare
      obtain rfl := Except.ok.inj hinner
      obtain rfl := Except.ok.inj hfirst
      obtain rfl := Except.ok.inj houter
      obtain rfl := Except.ok.inj hread
      obtain rfl : c.text = text := by
        simpa [Condition.joined, Condition.text, conditionTexts] using Except.ok.inj h
      exact compare_ok hc

end Sides

/-- Where both sides accept a column, they write it alike just if its last two segments have no
double underscore; and what they write is what stands on the sides of a comparison. -/
theorem column_reads_alike_iff {context : FilterContext} (hrefs : context.columnReferences = true)
    {column left right : String} (hleft : Condition.subjectText context (.path column) = .ok left)
    (hright : Condition.operandText context (.text column) = .ok right) :
    (left = right ↔ ∀ segment ∈ (Name.segments '.' column.toList).reverse.take 2,
      Name.NoDouble segment) ∧
      ∀ op sql text, NamesColumn column → Condition.comparison? op = some sql →
        Condition.compile context (.object [(column, .object [(op, .text column)])]) =
          .ok (some text) →
        text = left ++ " " ++ sql ++ " " ++ right := by
  constructor
  · have hoperand : Condition.columnText context (Name.internal column) = .ok right := by
      simpa [Condition.operandText, hrefs] using hright
    rw [(columnText_ok hleft).1, (columnText_ok hoperand).1]
    exact Name.qualify_eq_qualify_internal_iff context.table column
  · intro op sql text hkey hop h
    obtain ⟨left', right', hleft', hright', htext⟩ := compile_comparison hkey hop h
    obtain rfl := Except.ok.inj (hleft.symm.trans hleft')
    obtain rfl := Except.ok.inj (hright.symm.trans hright')
    exact htext

/-- Of a longer path the last two segments count, so a double underscore further in front does no
harm. -/
theorem column_reads_alike_deep :
    let context : FilterContext := ⟨.postgres, "items", true⟩
    Condition.subjectText context (.path "sales__old.orders.total") = .ok "orders.total" ∧
      Condition.operandText context (.text "sales__old.orders.total") = .ok "orders.total" := by
  intro context
  have hleft :
      Condition.subjectText context (.path "sales__old.orders.total") = .ok "orders.total" :=
    eq_ok_of_toOption (by decide +kernel)
  obtain ⟨right, hright⟩ :=
    exists_eq_ok (x := Condition.operandText context (.text "sales__old.orders.total"))
    (by decide +kernel)
  obtain rfl : "orders.total" = right :=
    (column_reads_alike_iff rfl hleft hright).1.mpr (by decide +kernel)
  exact ⟨hleft, hright⟩

/-- The right side writes the dot first and then drops the schema, which by now is a segment of its
own. -/
theorem schema_is_lost_on_right_side :
    Condition.compile ⟨.postgres, "items", true⟩
      (.object [("sales__orders.total", .object [("$eq", .text "sales__orders.total")])]) =
        .ok (some "sales.orders.total = orders.total") :=
  eq_ok_of_toOption (by decide +kernel)

end SqlGateway.Query
