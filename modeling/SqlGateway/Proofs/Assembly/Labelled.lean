import SqlGateway.Proofs.Assembly.Grouping
import SqlGateway.Proofs.Json.Object
import SqlGateway.Proofs.Number.Written
import SqlGateway.Query.Compiler
import SqlGateway.Query.Slot

/-!
# Contributions under the labels of a query

What a row contributes to a slot when the columns of the result set carry the labels of a query and
the row has a value for each of them: the values of the columns of that slot, under their names.

A label that a column carries is read back as the alias that it was made of, as long as its level
and its slot are words of the machine. It is cut at the first of each of its two marks. No numeral
holds a mark, so the cuts come where the numerals end, whatever the name holds; written anew, what
was read in a label is read again, without the sign and the zeros that its numerals may have had in
front.
-/

namespace SqlGateway

open Number Text

namespace Text

theorem splitOnce_append (s : Char) (separator : List Char) {before : List Char}
    (after : List Char) (h : ∀ c ∈ before, c ≠ s) :
    splitOnce (s :: separator) (before ++ (s :: separator ++ after)) = some (before, after) := by
  induction before with
  | nil =>
      have := dropFront?_append (s :: separator) after
      rw [List.nil_append, List.cons_append] at *
      rw [splitOnce, this]
  | cons c rest ih =>
      obtain ⟨hc, hrest⟩ := List.forall_mem_cons.mp h
      rw [List.cons_append, splitOnce, dropFront?, if_neg (Ne.symm hc)]
      simp only [ih hrest, Option.map_some]

variable {front separator cs rest before after : List Char}

theorem eq_append_of_dropFront? (h : dropFront? front cs = some rest) : cs = front ++ rest := by
  induction front generalizing cs with
  | nil => exact Option.some.inj h
  | cons f front ih =>
      cases cs with
      | nil => cases h
      | cons c more =>
          rw [dropFront?] at h
          split_ifs at h with hc
          rw [hc, ih h, List.cons_append]

theorem eq_append_of_splitOnce (h : splitOnce separator cs = some (before, after)) :
    cs = before ++ (separator ++ after) := by
  induction cs generalizing before with
  | nil =>
      rw [splitOnce] at h
      split_ifs at h with hempty
      obtain ⟨rfl, rfl⟩ := Prod.mk.inj (Option.some.inj h)
      rw [List.isEmpty_iff.mp hempty, List.append_nil, List.append_nil]
  | cons c rest ih =>
      rw [splitOnce] at h
      cases hfront : dropFront? separator (c :: rest) with
      | some found =>
          rw [hfront] at h
          obtain ⟨rfl, rfl⟩ := Prod.mk.inj (Option.some.inj h)
          rw [List.nil_append, eq_append_of_dropFront? hfront]
      | none =>
          rw [hfront] at h
          obtain ⟨⟨first, second⟩, hrest, heq⟩ := Option.map_eq_some_iff.mp h
          obtain ⟨rfl, rfl⟩ := Prod.mk.inj heq
          rw [List.cons_append, ih hrest]

end Text

namespace Number

theorem unsigned64?_decimalDigits {n : Nat} (h : n < wordCount) :
    unsigned64? (decimalDigits n) = some n := by
  have hplus : ∀ rest, decimalDigits n ≠ '+' :: rest := by
    intro rest heq
    exact absurd (isDigit_of_mem_decimalDigits (n := n) (c := '+') (by simp [heq])) (by decide)
  unfold unsigned64?
  extract_lets digits
  have hdigits : digits = decimalDigits n := by simp only [digits]
  rw [hdigits, natural?_decimalDigits]
  simp [h]

variable {cs : List Char} {n : Nat}

/-- What is read as a word is one, and the text has digits only, with a plus sign in front or
without. -/
theorem of_unsigned64? (h : unsigned64? cs = some n) :
    n < wordCount ∧ ∀ c ∈ cs, isDigit c = true ∨ c = '+' := by
  have digits_of {ds : List Char} (hds : natural? ds = some n) : ∀ c ∈ ds, isDigit c = true := by
    unfold natural? at hds
    split_ifs at hds with hall
    exact List.all_eq_true.mp (Bool.and_eq_true_iff.mp hall).2
  unfold unsigned64? at h
  obtain ⟨hread, hword⟩ := Option.filter_eq_some_iff.mp h
  refine ⟨by simpa using hword, fun c hc => ?_⟩
  split at hread
  · rcases List.mem_cons.mp hc with rfl | hc
    · exact .inr rfl
    · exact .inl (digits_of hread c hc)
  · exact .inl (digits_of hread c hc)

/-- The numeral of a word ends where a mark follows it. -/
theorem splitOnce_numeral (mark : Char) (hdigit : isDigit mark = false) (hplus : mark ≠ '+')
    (separator after : List Char) (h : unsigned64? cs = some n) :
    splitOnce (mark :: separator) (cs ++ (mark :: separator ++ after)) = some (cs, after) := by
  refine splitOnce_append mark separator after fun c hc heq => ?_
  rcases (of_unsigned64? h).2 c hc with hc | hc
  · rw [heq, hdigit] at hc
    cases hc
  · exact hplus (heq ▸ hc)

end Number

namespace Query.Alias

attribute [ext] Alias

theorem ne_of_mem_decimalDigits {n : Nat} {mark : Char} (h : isDigit mark = false) :
    ∀ c ∈ decimalDigits n, c ≠ mark := by
  rintro c hc rfl
  rw [isDigit_of_mem_decimalDigits hc] at h
  cases h

theorem splitOnce_decimalDigits (mark : Char) (h : isDigit mark = false) (separator : List Char)
    (n : Nat) (after : List Char) :
    splitOnce (mark :: separator) (decimalDigits n ++ (mark :: separator ++ after)) =
      some (decimalDigits n, after) :=
  splitOnce_append mark separator after (ne_of_mem_decimalDigits h)

/-- A number and what follows it are determined by the text, if a mark that is no digit ends it. -/
theorem decimalDigits_append_inj {mark : Char} (h : isDigit mark = false) {separator : List Char}
    {n m : Nat} {after after' : List Char}
    (heq : decimalDigits n ++ (mark :: separator ++ after) =
      decimalDigits m ++ (mark :: separator ++ after')) : n = m ∧ after = after' := by
  have hsplit := congrArg (splitOnce (mark :: separator)) heq
  rw [splitOnce_decimalDigits mark h, splitOnce_decimalDigits mark h] at hsplit
  obtain ⟨hdigits, hafter⟩ := Prod.mk.inj (Option.some.inj hsplit)
  have hvalue := congrArg natural? hdigits
  rw [natural?_decimalDigits, natural?_decimalDigits] at hvalue
  exact ⟨Option.some.inj hvalue, hafter⟩

/-- Different aliases are written as different labels. -/
theorem encode_injective : Function.Injective encode := by
  intro a b h
  have hchars : a.encodeChars = b.encodeChars := by simpa [encode] using congrArg String.toList h
  simp only [encodeChars, List.append_assoc, List.append_cancel_left_eq] at hchars
  obtain ⟨hlevel, hrest⟩ := decimalDigits_append_inj rfl hchars
  obtain ⟨hslot, hname⟩ := decimalDigits_append_inj rfl hrest
  exact Alias.ext hlevel hslot (String.toList_injective hname)

/-- A label is read back as its alias. -/
theorem decode?_encode {a : Alias} (hlevel : a.level < wordCount) (hslot : a.slot < wordCount) :
    decode? a.encode = some a := by
  have level := splitOnce_decimalDigits '~' rfl ['~'] a.level
    (decimalDigits a.slot ++ (nameMark ++ a.name.toList))
  have slot := splitOnce_decimalDigits '*' rfl ['*'] a.slot a.name.toList
  have front := dropFront?_append levelMark
    (decimalDigits a.level ++ (slotMark ++ (decimalDigits a.slot ++ (nameMark ++ a.name.toList))))
  change splitOnce slotMark (_ ++ (slotMark ++ _)) = _ at level
  change splitOnce nameMark (_ ++ (nameMark ++ _)) = _ at slot
  simp only [decode?, encode, String.toList_ofList, decodeChars?, encodeChars, List.append_assoc,
    front, level, slot, unsigned64?_decimalDigits hlevel, unsigned64?_decimalDigits hslot,
    Option.bind_eq_bind, Option.bind_some, String.ofList_toList]
  rfl

section Spelling
variable {a : Alias} {label : String}

/-- A label spells an alias: between the marks stand numerals of the level and of the slot, and
after the last mark the name. -/
def Spells (label : String) (a : Alias) : Prop :=
  ∃ level slot, label.toList =
    levelMark ++ (level ++ (slotMark ++ (slot ++ (nameMark ++ a.name.toList)))) ∧
    unsigned64? level = some a.level ∧ unsigned64? slot = some a.slot

theorem spells_of_decode? (h : decode? label = some a) : Spells label a := by
  simp only [decode?, decodeChars?, bind, Option.bind_eq_some_iff, pure, Option.some.injEq] at h
  obtain ⟨whole, hfront, ⟨level, rest⟩, hlevel, ⟨slot, name⟩, hslot, n, hn, m, hm, rfl⟩ := h
  change splitOnce nameMark rest = some (slot, name) at hslot
  refine ⟨level, slot, ?_, hn, hm⟩
  rw [eq_append_of_dropFront? hfront, eq_append_of_splitOnce hlevel, eq_append_of_splitOnce hslot,
    String.toList_ofList]

theorem decode?_of_spells (h : Spells label a) : decode? label = some a := by
  obtain ⟨level, slot, hlabel, hlevel, hslot⟩ := h
  have atSlot :=
    splitOnce_numeral '~' rfl (by decide) ['~'] (slot ++ (nameMark ++ a.name.toList)) hlevel
  have atName := splitOnce_numeral '*' rfl (by decide) ['*'] a.name.toList hslot
  change splitOnce slotMark (level ++ (slotMark ++ _)) = _ at atSlot
  change splitOnce nameMark (slot ++ (nameMark ++ _)) = _ at atName
  simp only [decode?, decodeChars?, hlabel, dropFront?_append, Option.bind_eq_bind,
    Option.bind_some, atSlot, atName, hlevel, hslot, String.ofList_toList]
  rfl

/-- The labels that are read as an alias are those that spell it. -/
theorem decode?_eq_some_iff : decode? label = some a ↔ Spells label a :=
  ⟨spells_of_decode?, decode?_of_spells⟩

theorem Spells.words (h : Spells label a) : a.level < wordCount ∧ a.slot < wordCount := by
  obtain ⟨level, slot, -, hlevel, hslot⟩ := h
  exact ⟨(of_unsigned64? hlevel).1, (of_unsigned64? hslot).1⟩

theorem strip_of_decode? (h : decode? label = some a) : strip label = a.name := by rw [strip, h]

/-- Aliases are read back from their labels, whatever the name holds, and no two have one label. The
labels of an alias are those that spell it; written anew it is read again, and its name is what is
left of the label. Every other text is left as it is. -/
theorem labels_are_faithful :
    (∀ (level slot : UInt64) (name : String),
      decode? (encode ⟨level.toNat, slot.toNat, name⟩) = some ⟨level.toNat, slot.toNat, name⟩) ∧
    Function.Injective encode ∧
    (∀ label a, decode? label = some a ↔ Spells label a) ∧
    ∀ label, match decode? label with
      | some a => decode? a.encode = some a ∧ strip label = a.name
      | none => strip label = label := by
  refine ⟨fun level slot name => ?_, encode_injective, fun _ _ => decode?_eq_some_iff,
    fun label => ?_⟩
  · exact decode?_encode (UInt64.toNat_lt level) (UInt64.toNat_lt slot)
  · cases h : decode? label with
    | some a =>
        obtain ⟨hlevel, hslot⟩ := (decode?_eq_some_iff.mp h).words
        exact ⟨decode?_encode hlevel hslot, strip_of_decode? h⟩
    | none => rw [strip, h]

example : decode? "L+1~~02**a~~b**c" = some ⟨1, 2, "a~~b**c"⟩ := by decide

end Spelling

end Query.Alias

end SqlGateway

namespace SqlGateway.Assembly

open Query (CompiledQuery SelectColumn)

/-- The columns of a result set carry the labels of a query, which are words of the machine. -/
structure Labelled (columns : List SelectColumn) (r : ResultSet) : Prop where
  labels : r.columns.map (·.name) = columns.map (·.label.encode)
  words : ∀ column ∈ columns, column.label.level < Number.wordCount ∧
    column.label.slot < Number.wordCount

variable {columns : List SelectColumn} {r : ResultSet}

theorem labelled_of_labels {labels : List Query.Alias} (hlabels : columns.map (·.label) = labels)
    (hnames : r.columns.map (·.name) = labels.map Query.Alias.encode)
    (hwords : ∀ label ∈ labels, label.level < Number.wordCount ∧ label.slot < Number.wordCount) :
    Labelled columns r where
  labels := by
    rw [hnames, ← hlabels, List.map_map]
    rfl
  words := fun _ hcolumn => hwords _ (hlabels ▸ List.mem_map_of_mem hcolumn)

/-- The fields that the columns of a slot have in a row. -/
def slotFields (columns : List SelectColumn) (r : ResultSet) (value : SelectColumn → Cell)
    (level slot : Nat) : Object :=
  (r.columns.zip columns).filterMap fun (result, column) =>
    if column.label.level = level ∧ column.label.slot = slot
    then some (column.label.name, (value column).coerce result.type) else none

theorem Labelled.name (h : Labelled columns r) {result : ResultColumn} {column : SelectColumn}
    (hmem : (result, column) ∈ r.columns.zip columns) : result.name = column.label.encode := by
  obtain ⟨i, hi, hget⟩ := List.mem_iff_getElem.mp hmem
  rw [List.getElem_zip] at hget
  obtain ⟨rfl, rfl⟩ := Prod.mk.inj hget
  simp only [List.length_zip] at hi
  have hname := congrArg (·[i]?) h.labels
  simpa [show i < r.columns.length by omega, show i < columns.length by omega] using hname

theorem Labelled.place (h : Labelled columns r) {result : ResultColumn} {column : SelectColumn}
    (hmem : (result, column) ∈ r.columns.zip columns) : place result.name = column.label := by
  obtain ⟨hlevel, hslot⟩ := h.words column (List.of_mem_zip hmem).2
  rw [Assembly.place, h.name hmem, Query.Alias.decode?_encode hlevel hslot, Option.getD_some]

theorem slice_map (h : Labelled columns r) (value : SelectColumn → Cell) (level slot : Nat) :
    slice r (columns.map value) level slot =
      Object.ofFields (slotFields columns r value level slot) := by
  rw [slice_eq_contribution, contribution, slotFields, List.zip_map_right, List.filterMap_map]
  congr 1
  refine List.filterMap_congr ?_
  rintro ⟨result, column⟩ hmem
  simp [h.place hmem]

theorem get?_slotFields {column : SelectColumn} {pairs : List (ResultColumn × SelectColumn)}
    (hmem : ∃ result, (result, column) ∈ pairs)
    (hunique : ∀ pair ∈ pairs, pair.2.label = column.label → pair.2 = column) :
    ∃ result, (result, column) ∈ pairs ∧ ∀ value : SelectColumn → Cell,
      Object.get? column.label.name (pairs.filterMap fun (result, other) =>
        if other.label.level = column.label.level ∧ other.label.slot = column.label.slot
        then some (other.label.name, (value other).coerce result.type) else none) =
      some ((value column).coerce result.type) := by
  induction pairs with
  | nil => simp at hmem
  | cons pair rest ih =>
      obtain ⟨first, other⟩ := pair
      obtain ⟨hfirst, hrest⟩ := List.forall_mem_cons.mp hunique
      by_cases hlabel : other.label = column.label
      · obtain rfl : other = column := hfirst hlabel
        exact ⟨first, by simp, fun value => by simp [Object.get?]⟩
      · obtain ⟨result, hresult⟩ := hmem
        have hmemRest : (result, column) ∈ rest := by
          refine (List.mem_cons.mp hresult).resolve_left fun heq => ?_
          exact hlabel (congrArg (·.2.label) heq).symm
        obtain ⟨found, hfound, hvalue⟩ := ih ⟨result, hmemRest⟩ hrest
        refine ⟨found, List.mem_cons_of_mem _ hfound, fun value => ?_⟩
        rw [List.filterMap_cons, ← hvalue value]
        by_cases hslot : other.label.level = column.label.level ∧
            other.label.slot = column.label.slot
        · have hname : other.label.name ≠ column.label.name := fun hname =>
            hlabel (Query.Alias.ext hslot.1 hslot.2 hname)
          simp [hslot, Object.get?, hname]
        · simp [hslot]

theorem get?_slice_map (h : Labelled columns r) {column : SelectColumn}
    (hmem : column ∈ columns)
    (hunique : ∀ other ∈ columns, other.label = column.label → other = column) :
    ∃ result ∈ r.columns, result.name = column.label.encode ∧ ∀ value : SelectColumn → Cell,
      (slice r (columns.map value) column.label.level column.label.slot).get?
        column.label.name = some ((value column).coerce result.type) := by
  have hpairs : ∃ result, (result, column) ∈ (r.columns.zip columns).reverse := by
    obtain ⟨i, hi, rfl⟩ := List.mem_iff_getElem.mp hmem
    have hlen : r.columns.length = columns.length := by simpa using congrArg List.length h.labels
    refine ⟨r.columns[i], List.mem_reverse.mpr (List.mem_iff_getElem.mpr ⟨i, ?_, ?_⟩)⟩
    · simpa [hlen] using hi
    · rw [List.getElem_zip]
  obtain ⟨result, hresult, hvalue⟩ := get?_slotFields hpairs (fun pair hpair =>
    hunique pair.2 (List.of_mem_zip (List.mem_reverse.mp hpair)).2)
  have hzip := List.mem_reverse.mp hresult
  refine ⟨result, (List.of_mem_zip hzip).1, h.name hzip, fun value => ?_⟩
  rw [slice_map h, Object.get?_ofFields, slotFields, ← List.filterMap_reverse]
  exact hvalue value

end SqlGateway.Assembly
