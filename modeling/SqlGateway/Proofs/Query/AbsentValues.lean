import SqlGateway.Proofs.Guarded
import SqlGateway.Proofs.Query.Reading
import SqlGateway.Request.Document

/-!
# Absent values in filters

A filter without its absent values: the fields of its objects and the items of its lists that are
null. Where they are fields of a filter or items under a connective, the filter compiles to the same
with them and without. A null in the list of a membership test is an operand like any other, so that
what the filter compiles to without it is something else.
-/
namespace SqlGateway.Query

open Formula

/-- Whether an operator tests for membership in a list. -/
def isMembership (key : String) : Bool := key == "$in" || key == "$nin"

mutual

/-- A filter value without what is absent in it. The operands of other tests than those for
membership are values of their own and stay as they are. -/
def pruned : Json → Json
  | .object fields => .object (prunedFields fields)
  | v => v

def prunedFields : Object → Object
  | [] => []
  | (key, v) :: rest =>
      if v.isNull then prunedFields rest else (key, prunedField key v) :: prunedFields rest

def prunedField (key : String) : Json → Json
  | .list items =>
    if (Condition.connective? key).isSome then .list (prunedItems items)
    else if isMembership key then .list (items.filter (!·.isNull))
    else .list items
  | .object fields =>
      if Condition.isOperator key then .object fields else .object (prunedFields fields)
  | v => v

def prunedItems : List Json → List Json
  | [] => []
  | v :: rest => if v.isNull then prunedItems rest else pruned v :: prunedItems rest

end

mutual

/-- How many nulls stand in the lists of membership tests. -/
def nullMembers : Json → Nat
  | .object fields => fieldsNullMembers fields
  | _ => 0

def fieldsNullMembers : Object → Nat
  | [] => 0
  | (key, v) :: rest => fieldNullMembers key v + fieldsNullMembers rest

def fieldNullMembers (key : String) : Json → Nat
  | .list items =>
    if (Condition.connective? key).isSome then itemsNullMembers items
    else if isMembership key then items.countP Json.isNull
    else 0
  | .object fields => if Condition.isOperator key then 0 else fieldsNullMembers fields
  | _ => 0

def itemsNullMembers : List Json → Nat
  | [] => 0
  | v :: rest => nullMembers v + itemsNullMembers rest

end

section Compiling
variable {context : FilterContext} {items : List Json}

theorem filter_of_countP (h : items.countP Json.isNull = 0) : items.filter (!·.isNull) = items := by
  rw [List.filter_eq_self]
  intro item hitem
  have hnone := List.countP_eq_zero.mp h item hitem
  simpa using hnone

theorem eq_null_of_isNull {v : Json} (h : v.isNull = true) : v = .null := by
  cases v with
  | null => rfl
  | bool _ | int _ | float _ | text _ | list _ | object _ => cases h

/-- What gives no condition may be left out of the conditions of a list. -/
theorem append_nothing (x : Except Error (List Condition)) :
    (do let others ← x; return (none : Option Condition).toList ++ others) = x := by
  cases x <;> rfl

mutual

theorem read_pruned : (v : Json) → nullMembers v = 0 → ∀ subject,
    Condition.read context subject (pruned v) = Condition.read context subject v
  | .object fields => by
      intro h subject
      rw [pruned, Condition.read, Condition.read, readFields_pruned fields h subject]
  | .null | .bool _ | .int _ | .float _ | .text _ | .list _ => fun _ _ => rfl

theorem readFields_pruned : (fields : Object) → fieldsNullMembers fields = 0 → ∀ subject,
    Condition.readFields context subject (prunedFields fields) =
      Condition.readFields context subject fields
  | [] => fun _ _ => rfl
  | (key, v) :: rest => by
      intro h subject
      obtain ⟨hfield, hrest⟩ := Nat.add_eq_zero_iff.mp h
      rw [prunedFields]
      split_ifs with hnull
      · obtain rfl := eq_null_of_isNull hnull
        rw [readFields_pruned rest hrest subject]
        exact (append_nothing _).symm
      · rw [Condition.readFields, Condition.readFields, readField_pruned key v hfield subject,
          readFields_pruned rest hrest subject]

theorem readField_pruned (key : String) : (v : Json) → fieldNullMembers key v = 0 → ∀ subject,
    Condition.readField context subject key (prunedField key v) =
      Condition.readField context subject key v
  | .list items => by
      intro h subject
      rw [fieldNullMembers] at h
      rw [prunedField]
      split_ifs at h ⊢ with hconnective hmember
      · obtain ⟨connective, hk⟩ := Option.isSome_iff_exists.mp hconnective
        simp only [Condition.readField, hk, readItems_pruned items h subject]
      · rw [filter_of_countP h]
      · rfl
  | .object fields => by
      intro h subject
      rw [fieldNullMembers] at h
      rw [prunedField]
      split_ifs at h ⊢ with hop
      · rfl
      · rw [Condition.readField, Condition.readField, readFields_pruned fields h,
          if_neg hop, if_neg hop]
  | .null | .bool _ | .int _ | .float _ | .text _ => fun _ _ => rfl

theorem readItems_pruned : (items : List Json) → itemsNullMembers items = 0 → ∀ subject,
    Condition.readItems context subject (prunedItems items) =
      Condition.readItems context subject items
  | [] => fun _ _ => rfl
  | v :: rest => by
      intro h subject
      obtain ⟨hitem, hrest⟩ := Nat.add_eq_zero_iff.mp h
      rw [prunedItems]
      split_ifs with hnull
      · obtain rfl := eq_null_of_isNull hnull
        rw [readItems_pruned rest hrest subject]
        exact (append_nothing _).symm
      · rw [Condition.readItems, Condition.readItems, read_pruned v hitem subject,
          readItems_pruned rest hrest subject]

end

end Compiling

section Screening
open Guard (checkItems_eq_ok checkFields_eq_ok)

mutual

/-- What passes the guard passes it without what is absent. -/
theorem check_pruned :
    (v : Json) → ∀ key, Guard.check key v = .ok () → Guard.check key (pruned v) = .ok ()
  | .object fields => check_prunedFields fields
  | .null | .bool _ | .int _ | .float _ | .text _ | .list _ => fun _ => id

theorem check_prunedFields : (fields : Object) → ∀ key,
    Guard.checkFields key fields = .ok () → Guard.checkFields key (prunedFields fields) = .ok ()
  | [] => fun _ => id
  | (k, v) :: rest => by
      intro key h
      obtain ⟨⟨hk, hv⟩, hrest⟩ := List.forall_mem_cons.mp (checkFields_eq_ok.mp h)
      have hothers := check_prunedFields rest key (checkFields_eq_ok.mpr hrest)
      rw [prunedFields]
      split_ifs
      · exact hothers
      · exact checkFields_eq_ok.mpr
          (List.forall_mem_cons.mpr ⟨⟨hk, check_prunedField k v k hv⟩,
            checkFields_eq_ok.mp hothers⟩)

theorem check_prunedField (k : String) : (v : Json) → ∀ key,
    Guard.check key v = .ok () → Guard.check key (prunedField k v) = .ok ()
  | .list items => by
      intro key h
      rw [prunedField]
      split_ifs
      · exact check_prunedItems items key h
      · have hitems := checkItems_eq_ok.mp h
        exact checkItems_eq_ok.mpr fun item hitem => hitems item (List.mem_of_mem_filter hitem)
      · exact h
  | .object fields => by
      intro key h
      rw [prunedField]
      split_ifs
      · exact h
      · exact check_prunedFields fields key h
  | .null | .bool _ | .int _ | .float _ | .text _ => fun _ => id

theorem check_prunedItems : (items : List Json) → ∀ key,
    Guard.checkItems key items = .ok () → Guard.checkItems key (prunedItems items) = .ok ()
  | [] => fun _ => id
  | v :: rest => by
      intro key h
      obtain ⟨hv, hrest⟩ := List.forall_mem_cons.mp (checkItems_eq_ok.mp h)
      have hothers := check_prunedItems rest key (checkItems_eq_ok.mpr hrest)
      rw [prunedItems]
      split_ifs
      · exact hothers
      · exact checkItems_eq_ok.mpr
          (List.forall_mem_cons.mpr ⟨check_pruned v key hv, checkItems_eq_ok.mp hothers⟩)

end

theorem compile_pruned {context : FilterContext} {v : Json} {text? : Option String}
    (h : Condition.compile context v = .ok text?) (hnone : nullMembers v = 0) :
    Condition.compile context (pruned v) = .ok text? := by
  obtain ⟨c?, hread, htext⟩ := bind_eq_ok.mp h
  obtain ⟨_, hcheck, hread⟩ := bind_eq_ok.mp hread
  refine bind_eq_ok.mpr ⟨c?, bind_eq_ok.mpr ⟨_, check_pruned v _ hcheck, ?_⟩, htext⟩
  rw [read_pruned v hnone, hread]

end Screening

def Comparison.operands : Comparison → List Operand
  | .relation left _ right => [left, right]
  | .null left _ => [left]
  | .member left _ items => left :: items

/-- How many operands formulas have. -/
def operandCount (fs : List Formula) : Nat :=
  ((fs.flatMap leaves).flatMap Comparison.operands).length

section Counting
variable {context : FilterContext}

theorem operandCount_append (fs gs : List Formula) :
    operandCount (fs ++ gs) = operandCount fs + operandCount gs := by
  simp [operandCount]

theorem operandCount_joinedOf? (k : Connective) (fs : List Formula) :
    operandCount (joinedOf? k fs).toList = operandCount fs := by
  unfold joinedOf?
  split_ifs with hempty
  · rw [List.isEmpty_iff.mp hempty]
    rfl
  · simp [operandCount, leaves_join]

/-- A membership test has an operand less for each null that is taken out of its list, and no
operand if nothing is left. -/
theorem operandCount_memberLeaf? (left : Operand) (isMember : Bool) (items : List Json) :
    operandCount ((memberLeaf? context left isMember (.list (items.filter (!·.isNull)))).map
      .comparison).toList +
        items.countP Json.isNull ≤
      operandCount ((memberLeaf? context left isMember (.list items)).map .comparison).toList := by
  have hcount : ∀ items : List Json, operandCount
      ((memberLeaf? context left isMember (.list items)).map .comparison).toList =
        if items = [] then 0 else items.length + 1 := by
    intro items
    cases items with
    | nil => rfl
    | cons item rest => simp [memberLeaf?, operandCount, leaves, Comparison.operands]
  have hlength : items.length = items.countP Json.isNull + (items.filter (!·.isNull)).length := by
    rw [← List.countP_eq_length_filter]
    simpa using List.length_eq_countP_add_countP Json.isNull
  rw [hcount, hcount]
  split_ifs with hfiltered hitems
  · simp [hitems]
  · rw [hfiltered, List.length_nil] at hlength
    omega
  · simp_all
  · omega

theorem isSome_connective? (key : String) :
    (Condition.connective? key).isSome = (connectiveOf? key).isSome := by
  rw [connective?_eq, Option.isSome_map]

mutual

theorem operandCount_reading : (v : Json) → ∀ keys,
    operandCount (reading context keys (pruned v)).toList + nullMembers v ≤
      operandCount (reading context keys v).toList
  | .object fields => by
      intro keys
      rw [pruned, nullMembers, reading, reading, operandCount_joinedOf?, operandCount_joinedOf?]
      exact operandCount_entryReadings fields keys
  | .null | .bool _ | .int _ | .float _ | .text _ | .list _ => fun _ => Nat.le_refl _

theorem operandCount_entryReadings : (fields : Object) → ∀ keys,
    operandCount (entryReadings context keys (prunedFields fields)) + fieldsNullMembers fields ≤
      operandCount (entryReadings context keys fields)
  | [] => fun _ => Nat.le_refl _
  | (key, v) :: rest => by
      intro keys
      have hfield := operandCount_entryReading key v keys
      have hrest := operandCount_entryReadings rest keys
      rw [prunedFields, fieldsNullMembers, entryReadings, operandCount_append]
      split_ifs with hnull
      · obtain rfl := eq_null_of_isNull hnull
        have hzero : fieldNullMembers key .null = 0 := rfl
        omega
      · rw [entryReadings, operandCount_append]
        omega

theorem operandCount_entryReading (key : String) : (v : Json) → ∀ keys,
    operandCount (entryReading context keys key (prunedField key v)).toList +
      fieldNullMembers key v ≤ operandCount (entryReading context keys key v).toList
  | .list items => by
      intro keys
      rw [prunedField, fieldNullMembers, isSome_connective?]
      cases hk : connectiveOf? key with
      | some k =>
          simp only [entryReading, hk, Option.isSome_some, if_true, operandCount_joinedOf?]
          exact operandCount_elementReadings items keys
      | none =>
          simp only [Option.isSome_none, Bool.false_eq_true, if_false]
          split_ifs with hmember
          · simp only [entryReading, hk]
            rcases Bool.or_eq_true_iff.mp hmember with hkey | hkey
            · obtain rfl := beq_iff_eq.mp hkey
              exact operandCount_memberLeaf? _ true items
            · obtain rfl := beq_iff_eq.mp hkey
              exact operandCount_memberLeaf? _ false items
          · exact Nat.le_refl _
  | .object fields => by
      intro keys
      rw [prunedField, fieldNullMembers]
      split_ifs with hop
      · exact Nat.le_refl _
      · rw [entryReading, entryReading, if_neg hop, if_neg hop, operandCount_joinedOf?,
          operandCount_joinedOf?]
        exact operandCount_entryReadings fields (key :: keys)
  | .null | .bool _ | .int _ | .float _ | .text _ => fun _ => Nat.le_refl _

theorem operandCount_elementReadings : (items : List Json) → ∀ keys,
    operandCount (elementReadings context keys (prunedItems items)) + itemsNullMembers items ≤
      operandCount (elementReadings context keys items)
  | [] => fun _ => Nat.le_refl _
  | v :: rest => by
      intro keys
      have hitem := operandCount_reading v keys
      have hrest := operandCount_elementReadings rest keys
      rw [prunedItems, itemsNullMembers, elementReadings, operandCount_append]
      split_ifs with hnull
      · obtain rfl := eq_null_of_isNull hnull
        have hzero : nullMembers .null = 0 := rfl
        omega
      · rw [elementReadings, operandCount_append]
        omega

end

/-- Filters with one text have one formula. -/
theorem reading_eq_of_compile {v w : Json} {text? : Option String}
    (hv : Condition.compile context v = .ok text?) (hw : Condition.compile context w = .ok text?) :
    reading context [] v = reading context [] w := by
  have hreading := agrees_compile hv
  have hreading' := agrees_compile hw
  generalize reading context [] v = f, reading context [] w = g at *
  cases hreading with
  | none => cases hreading'; rfl
  | some hf =>
      cases hreading' with
      | some hg => exact hf.symm.trans hg

end Counting

/-- A filter compiles to the same without its absent values just if no membership test has a null in
its list. -/
theorem absent_values_contribute_nothing_iff {context : FilterContext} {v : Json}
    {text? : Option String} (h : Condition.compile context v = .ok text?) :
    Condition.compile context (pruned v) = .ok text? ↔ nullMembers v = 0 := by
  refine ⟨fun hpruned => ?_, compile_pruned h⟩
  have hcount : operandCount (reading context [] (pruned v)).toList + nullMembers v ≤
      operandCount (reading context [] v).toList := operandCount_reading v []
  rw [reading_eq_of_compile hpruned h] at hcount
  omega

/-- A filter with absent values in fields, below a path, under an operator and under both
connectives. -/
def sparse : Json := .object [
  ("age", .null),
    ("$or", .list [.null, .object [("name", .object [("$eq", .null), ("$like", .text "ann")])],
    .object [("$and", .list [.null, .null])]]),
  ("orders", .object [("total", .object [("$gt", .int 5)]), ("id", .null)]),
  ("id", .object [("$in", .list [.int 1])])]

theorem absent_values_contribute_nothing_sparse :
    let context : FilterContext := ⟨.postgres, "users", false⟩
    let text := "(users.name LIKE '%ann%') AND orders.total > 5 AND users.id IN (1)"
    Condition.compile context sparse = .ok (some text) ∧ nullMembers sparse = 0 ∧
      Condition.compile context (pruned sparse) = .ok (some text) := by
  intro context text
  have h : Condition.compile context sparse = .ok (some text) :=
    eq_ok_of_toOption (by decide +kernel)
  have hnone : nullMembers sparse = 0 := by decide
  exact ⟨h, hnone, (absent_values_contribute_nothing_iff h).mpr hnone⟩

/-- A variable that is not known is a null in a list, and there an operand: no number is outside of
a list with `NULL` in it. -/
theorem null_is_operand_of_membership :
    let context : FilterContext := ⟨.postgres, "users", false⟩
    let filter : Request.Value :=
      .object [("id", .object [("$nin", .list [.int 1, .variable "gone"])])]
    let v : Json := .object [("id", .object [("$nin", .list [.int 1, .null])])]
    filter.resolve [] = some v ∧ Condition.compile context v =
      .ok (some "users.id NOT IN (1, NULL)") ∧
      Condition.compile context (pruned v) = .ok (some "users.id NOT IN (1)") :=
  ⟨rfl, eq_ok_of_toOption (by decide +kernel), eq_ok_of_toOption (by decide +kernel)⟩

end SqlGateway.Query
