import SqlGateway.Proofs.Query.Comparisons

/-!
# What filters say

The formula of a filter, read off its tree: the entries of an object and the elements under a
connective are joined, and every leaf is one comparison, on whose left side stands what the
enclosing keys name. The text that a filter compiles to spells this formula.
-/
namespace SqlGateway.Query

open Text Formula

/-- The constant that a key writes, if it writes one. -/
def constantOf? (key : String) : Option String :=
  (dropFront? Condition.constantMark key.toList).map String.ofList

/-- The path of the keys back to the last constant, of keys whose innermost comes first. -/
def pathOf (keys : List String) : List String :=
  (keys.takeWhile fun key => (constantOf? key).isNone).reverse

/-- What enclosing keys name, the innermost first: a constant, if the innermost writes one, or else
a column. -/
def leftSide (table : String) (keys : List String) : Operand :=
  match keys.head?.bind constantOf? with
  | some c => .constant c
  | none => .word (Name.qualify table (".".intercalate (pathOf keys)))

/-- The subject that enclosing keys make. -/
def subjectOf : List String → Option Subject
  | [] => none
  | key :: outer => some (Condition.Subject.under (subjectOf outer) key)

theorem under_of_constantOf? {subject : Option Subject} {key c : String}
    (h : constantOf? key = some c) : Condition.Subject.under subject key = .constant c := by
  obtain ⟨constant, hconstant, rfl⟩ := Option.map_eq_some_iff.mp h
  simp [Condition.Subject.under, hconstant]

theorem subjectOf_path {key : String} {outer : List String} (h : constantOf? key = none) :
    subjectOf (key :: outer) = some (.path (".".intercalate (pathOf (key :: outer)))) := by
  have hkey : dropFront? Condition.constantMark key.toList = none := Option.map_eq_none_iff.mp h
  induction outer generalizing key with
  | nil => simp [subjectOf, Condition.Subject.under, hkey, pathOf, h]
  | cons next outer ih =>
      have hpath : pathOf (key :: next :: outer) = pathOf (next :: outer) ++ [key] := by
        simp [pathOf, h]
      rw [hpath, subjectOf]
      cases hnext : constantOf? next with
      | some c =>
          have hnil : pathOf (next :: outer) = [] := by simp [pathOf, hnext]
          rw [hnil, subjectOf, under_of_constantOf? hnext]
          simp [Condition.Subject.under, hkey]
      | none =>
          have hne : pathOf (next :: outer) ≠ [] := by simp [pathOf, hnext]
          rw [ih hnext (Option.map_eq_none_iff.mp hnext),
            String.intercalate_append_of_ne_nil hne (by simp)]
          simp [Condition.Subject.under, hkey]

/-- The left side that enclosing keys name is the one that their subject is compiled to. -/
theorem written_subjectText {context : FilterContext} {keys : List String} {subject : Subject}
    {text : String} (hs : subjectOf keys = some subject)
    (h : Condition.subjectText context subject = .ok text) :
    (leftSide context.table keys).Written text := by
  cases keys with
  | nil => cases hs
  | cons key outer =>
      have hleft : (key :: outer).head?.bind constantOf? = constantOf? key := rfl
      rw [leftSide, hleft]
      cases hkey : constantOf? key with
      | some c =>
          obtain rfl : Subject.constant c = subject := by
            simpa [subjectOf, under_of_constantOf? hkey] using hs
          obtain rfl : Condition.constantText c = text := Except.ok.inj h
          exact written_constantText c
      | none =>
          obtain rfl := Option.some.inj ((subjectOf_path hkey).symm.trans hs)
          exact written_columnText h

/-- The membership of a left side in a list that holds something. -/
def memberLeaf? (context : FilterContext) (left : Operand) (isMember : Bool) :
    Json → Option Comparison
  | .list (item :: rest) => some (.member left isMember ((item :: rest).map (.ofValue context)))
  | _ => none

/-- The comparison that an operator makes with a value, if it makes one. -/
def leaf? (context : FilterContext) (left : Operand) (operator : String) (v : Json) :
    Option Comparison :=
  let relation sql := some (.relation left sql (.ofValue context v))
  match operator with
  | "$eq" => relation "="
  | "$ne" => relation "<>"
  | "$gt" => relation ">"
  | "$gte" => relation ">="
  | "$lt" => relation "<"
  | "$lte" => relation "<="
  | "$like" => some (.relation left "LIKE" (.literal ("%" ++ v.bareText ++ "%")))
  | "$null" =>
    match v with
    | .bool isNull => some (.null left isNull)
    | _ => none
  | "$in" => memberLeaf? context left true v
  | "$nin" => memberLeaf? context left false v
  | _ => none

/-- A condition that says a formula, or nothing of either. -/
abbrev Agrees : Option Condition → Option Formula → Prop := Option.Rel Renders

section Leaves
variable {context : FilterContext} {subject : Subject} {left : Operand} {v : Json}

theorem renders_compare {operator : String} {c : Condition}
    (hleft : ∀ {text}, Condition.subjectText context subject = .ok text → left.Written text)
    (hop : operator ∈ relations) (h : Condition.compare context subject operator v = .ok c) :
    Renders c (.comparison (.relation left operator (.ofValue context v))) := by
  obtain ⟨l, hl, h⟩ := bind_eq_ok.mp h
  obtain ⟨r, hr, h⟩ := bind_eq_ok.mp h
  obtain rfl := pure_eq_ok.mp h
  exact .relation (hleft hl) hop (written_operandText hr)

theorem likeTest_eq : Condition.likeTest context subject v = (do
    let left ← Condition.subjectText context subject
    return .test (left ++ " " ++ "LIKE" ++ " " ++ quoteText ("%" ++ v.bareText ++ "%"))) := by
  have htext : ∀ left pattern : String,
      s!"{left} LIKE {pattern}" = left ++ " " ++ "LIKE" ++ " " ++ pattern := by
    intro left pattern
    change left ++ " LIKE " ++ pattern = _
    exact String.toList_injective (by simp)
  unfold Condition.likeTest
  cases v <;> simp only [htext, Json.bareText]

theorem renders_likeTest {c : Condition}
    (hleft : ∀ {text}, Condition.subjectText context subject = .ok text → left.Written text)
    (h : Condition.likeTest context subject v = .ok c) :
    Renders c (.comparison (.relation left "LIKE" (.literal ("%" ++ v.bareText ++ "%")))) := by
  rw [likeTest_eq] at h
  obtain ⟨l, hl, h⟩ := bind_eq_ok.mp h
  obtain rfl := pure_eq_ok.mp h
  exact .relation (hleft hl) (by decide) (.quoted _)

theorem forall₂_written {items : List Json} {texts : List String}
    (h : items.mapM (Condition.operandText context) = .ok texts) :
    List.Forall₂ Operand.Written texts (items.map (.ofValue context)) := by
  rw [List.forall₂_map_right_iff]
  exact (forall₂_of_mapM h).flip.imp fun _ _ => written_operandText

theorem agrees_memberTest (isMember : Bool) {c? : Option Condition}
    (hleft : ∀ {text}, Condition.subjectText context subject = .ok text → left.Written text)
    (h : Condition.memberTest context subject (if isMember then "IN" else "NOT IN") v = .ok c?) :
    Agrees c? ((memberLeaf? context left isMember v).map .comparison) := by
  unfold Condition.memberTest at h
  split at h
  · obtain ⟨members, hmembers, h⟩ := bind_eq_ok.mp h
    obtain ⟨l, hl, h⟩ := bind_eq_ok.mp h
    obtain rfl := pure_eq_ok.mp h
    have hwritten := forall₂_written hmembers
    refine .some (.member (hleft hl) isMember hwritten ?_)
    rintro rfl
    cases hwritten
  · rename_i hempty
    obtain rfl := Except.ok.inj h
    have : memberLeaf? context left isMember v = none := by
      unfold memberLeaf?
      split
      · exact absurd rfl (hempty _ _)
      · rfl
    rw [this]
    exact .none

theorem written_requireSubject {keys : List String} {operator text : String}
    (hs : Condition.requireSubject (subjectOf keys) operator = .ok subject)
    (h : Condition.subjectText context subject = .ok text) :
    (leftSide context.table keys).Written text := by
  refine written_subjectText ?_ h
  unfold Condition.requireSubject at hs
  split at hs
  next found hfound =>
    obtain rfl := Except.ok.inj hs
    exact hfound
  · cases hs

theorem leaf?_of_comparison? {operator sql : String}
    (h : Condition.comparison? operator = some sql) :
    sql ∈ relations ∧ leaf? context left operator v =
      some (.relation left sql (.ofValue context v)) := by
  unfold Condition.comparison? at h
  split at h <;> simp only [Option.some.injEq, reduceCtorEq] at h
  all_goals
    subst h
    exact ⟨by decide, rfl⟩

theorem agrees_operatorTest {keys : List String} {operator : String} {c? : Option Condition}
    (h : Condition.operatorTest context (subjectOf keys) operator v = .ok c?) :
    Agrees c? ((leaf? context (leftSide context.table keys) operator v).map .comparison) := by
  unfold Condition.operatorTest at h
  split at h
  · obtain ⟨s, hs, h⟩ := bind_eq_ok.mp h
    obtain ⟨c, hc, h⟩ := bind_eq_ok.mp h
    obtain rfl := pure_eq_ok.mp h
    exact .some (renders_likeTest (written_requireSubject hs) hc)
  · obtain ⟨s, hs, h⟩ := bind_eq_ok.mp h
    obtain ⟨c, hc, h⟩ := bind_eq_ok.mp h
    obtain rfl := pure_eq_ok.mp h
    unfold Condition.nullTest at hc
    split at hc
    · obtain ⟨l, hl, hc⟩ := bind_eq_ok.mp hc
      obtain rfl := pure_eq_ok.mp hc
      exact .some (.null (written_requireSubject hs hl) _)
    · cases hc
  · obtain ⟨s, hs, h⟩ := bind_eq_ok.mp h
    exact agrees_memberTest true (written_requireSubject hs) h
  · obtain ⟨s, hs, h⟩ := bind_eq_ok.mp h
    exact agrees_memberTest false (written_requireSubject hs) h
  · rename_i hsql
    obtain ⟨s, hs, h⟩ := bind_eq_ok.mp h
    obtain ⟨c, hc, h⟩ := bind_eq_ok.mp h
    obtain rfl := pure_eq_ok.mp h
    obtain ⟨hrelation, hleaf⟩ := leaf?_of_comparison? hsql
    rw [hleaf]
    exact .some (renders_compare (written_requireSubject hs) hrelation hc)
  · cases h

end Leaves

/-- The connective that a key writes, if it writes one. -/
def connectiveOf? : String → Option Connective
  | "$or" | "or" => some .or
  | "$and" | "and" => some .and
  | _ => none

/-- Formulas joined by a connective, if there are any. -/
def joinedOf? (k : Connective) (fs : List Formula) : Option Formula :=
  if fs.isEmpty then none else some (join k fs)

mutual

/-- The formula of a filter value under its enclosing keys, the innermost first. What says nothing
has none. -/
def reading (context : FilterContext) (keys : List String) : Json → Option Formula
  | .null => none
  | .list _ => none
  | .object fields => joinedOf? .and (entryReadings context keys fields)
  | v => some (.comparison (.relation (leftSide context.table keys) "=" (.ofValue context v)))

def entryReadings (context : FilterContext) (keys : List String) : Object → List Formula
  | [] => []
  | (key, v) :: rest =>
    (entryReading context keys key v).toList ++ entryReadings context keys rest

/-- The formula of an entry: a connective joins its elements, an operator compares, and any other
key is a further enclosing key of its value. -/
def entryReading (context : FilterContext) (keys : List String) (key : String) :
    Json → Option Formula
  | .null => none
  | .list items =>
    match connectiveOf? key with
    | some k => joinedOf? k (elementReadings context keys items)
    | none => (leaf? context (leftSide context.table keys) key (.list items)).map .comparison
  | .object fields =>
    if Condition.isOperator key then
      (leaf? context (leftSide context.table keys) key (.object fields)).map .comparison
    else joinedOf? .and (entryReadings context (key :: keys) fields)
  | v =>
    if Condition.isOperator key then
      (leaf? context (leftSide context.table keys) key v).map .comparison
    else
      some (.comparison (.relation (leftSide context.table (key :: keys)) "=" (.ofValue context v)))

def elementReadings (context : FilterContext) (keys : List String) : List Json → List Formula
  | [] => []
  | v :: rest => (reading context keys v).toList ++ elementReadings context keys rest

end

section Agreement
variable {context : FilterContext} {keys : List String}

theorem connective?_eq (key : String) :
    Condition.connective? key = (connectiveOf? key).map Connective.keyword := by
  unfold Condition.connective? connectiveOf?
  split <;> simp_all [Connective.keyword]

theorem agrees_both {cs : List Condition} {fs : List Formula} (h : List.Forall₂ Renders cs fs) :
    Agrees (Condition.joined .both cs) (joinedOf? .and fs) := by
  cases h with
  | nil => exact .none
  | cons hc hrest => exact .some (.bothOf (by simp) (.cons hc hrest))

theorem agrees_group (k : Connective) {cs : List Condition} {fs : List Formula}
    (h : List.Forall₂ Renders cs fs) :
    Agrees (Condition.joined (.group k.keyword) cs) (joinedOf? k fs) := by
  cases h with
  | nil => exact .none
  | cons hc hrest => exact .some (.groupOf k (by simp) (.cons hc hrest))

theorem agrees_readScalar {subject : Option Subject} {v : Json} {c? : Option Condition}
    (hs : subject = subjectOf keys)
    (h : Condition.readScalar context subject v = .ok c?) :
    Agrees c?
      (some (.comparison (.relation (leftSide context.table keys) "=" (.ofValue context v)))) := by
  unfold Condition.readScalar at h
  split at h
  · cases h
  · rename_i s
    cases hc : Condition.compare context s "=" v with
    | error e =>
        rw [hc] at h
        cases h
    | ok c =>
        rw [hc] at h
        obtain rfl := Except.ok.inj h
        exact .some (renders_compare (written_subjectText hs.symm) (by decide) hc)

theorem agrees_scalarField {key : String} {v : Json} {c? : Option Condition}
    (h : (if (Condition.connective? key).isSome then .error (.invalid s!"`{key}` requires an array")
      else if Condition.isOperator key then Condition.operatorTest context (subjectOf keys) key v
      else Condition.readScalar context (some (Condition.Subject.under (subjectOf keys) key)) v) =
        .ok c?) :
    Agrees c? (if Condition.isOperator key then
      (leaf? context (leftSide context.table keys) key v).map .comparison
      else some (.comparison
        (.relation (leftSide context.table (key :: keys)) "=" (.ofValue context v)))) := by
  split_ifs at h ⊢
  · exact agrees_operatorTest h
  · have hsubject :
      some (Condition.Subject.under (subjectOf keys) key) = subjectOf (key :: keys) := rfl
    exact agrees_readScalar hsubject h

theorem forall₂_append {first : Option Condition} {others : List Condition} {f : Option Formula}
    {fs : List Formula} (hfirst : Agrees first f) (hothers : List.Forall₂ Renders others fs) :
    List.Forall₂ Renders (first.toList ++ others) (f.toList ++ fs) := by
  cases hfirst with
  | none => exact hothers
  | some h => exact .cons h hothers

mutual

theorem agrees_read (keys : List String) : (v : Json) → ∀ {c?},
    Condition.read context (subjectOf keys) v = .ok c? → Agrees c? (reading context keys v)
  | .null => by
      intro h
      obtain rfl := Except.ok.inj h
      exact .none
  | .bool b => agrees_readScalar (v := .bool b) rfl
  | .int n => agrees_readScalar (v := .int n) rfl
  | .float x => agrees_readScalar (v := .float x) rfl
  | .text s => agrees_readScalar (v := .text s) rfl
  | .list items => by
      intro h
      cases h
  | .object fields => by
      intro h
      obtain ⟨cs, hcs, h⟩ := bind_eq_ok.mp h
      obtain rfl := pure_eq_ok.mp h
      exact agrees_both (renders_readFields keys fields hcs)

theorem renders_readFields (keys : List String) : (fields : Object) → ∀ {cs},
    Condition.readFields context (subjectOf keys) fields = .ok cs →
      List.Forall₂ Renders cs (entryReadings context keys fields)
  | [] => by
      intro h
      obtain rfl := Except.ok.inj h
      exact .nil
  | (key, v) :: rest => by
      intro h
      obtain ⟨first, hfirst, h⟩ := bind_eq_ok.mp h
      obtain ⟨others, hothers, h⟩ := bind_eq_ok.mp h
      obtain rfl := pure_eq_ok.mp h
      exact forall₂_append (agrees_readField keys key v hfirst)
        (renders_readFields keys rest hothers)

theorem agrees_readField (keys : List String) (key : String) : (v : Json) → ∀ {c?},
    Condition.readField context (subjectOf keys) key v = .ok c? →
      Agrees c? (entryReading context keys key v)
  | .null => by
      intro h
      obtain rfl := Except.ok.inj h
      exact .none
  | .bool b => agrees_scalarField (v := .bool b)
  | .int n => agrees_scalarField (v := .int n)
  | .float x => agrees_scalarField (v := .float x)
  | .text s => agrees_scalarField (v := .text s)
  | .list items => by
      intro h
      rw [Condition.readField, connective?_eq] at h
      rw [entryReading]
      cases hk : connectiveOf? key with
      | some k =>
          simp only [hk, Option.map_some] at h
          obtain ⟨cs, hcs, h⟩ := bind_eq_ok.mp h
          obtain rfl := pure_eq_ok.mp h
          exact agrees_group k (renders_readItems keys items hcs)
      | none =>
          simp only [hk, Option.map_none] at h
          split_ifs at h
          exact agrees_operatorTest h
  | .object fields => by
      intro h
      rw [Condition.readField] at h
      rw [entryReading]
      split_ifs at h ⊢ with hk hop
      · exact agrees_operatorTest h
      · obtain ⟨cs, hcs, h⟩ := bind_eq_ok.mp h
        obtain rfl := pure_eq_ok.mp h
        exact agrees_both (renders_readFields (key :: keys) fields hcs)

theorem renders_readItems (keys : List String) : (items : List Json) → ∀ {cs},
    Condition.readItems context (subjectOf keys) items = .ok cs →
      List.Forall₂ Renders cs (elementReadings context keys items)
  | [] => by
      intro h
      obtain rfl := Except.ok.inj h
      exact .nil
  | v :: rest => by
      intro h
      obtain ⟨first, hfirst, h⟩ := bind_eq_ok.mp h
      obtain ⟨others, hothers, h⟩ := bind_eq_ok.mp h
      obtain rfl := pure_eq_ok.mp h
      exact forall₂_append (agrees_read keys v hfirst) (renders_readItems keys rest hothers)

end

end Agreement

mutual

/-- Whether a connective joins something in a filter value. -/
def uses (k : Connective) : Json → Bool
  | .object fields => entriesUse k fields
  | _ => false

def entriesUse (k : Connective) : Object → Bool
  | [] => false
  | (key, v) :: rest => entryUses k key v || entriesUse k rest

def entryUses (k : Connective) (key : String) : Json → Bool
  | .list items =>
    match connectiveOf? key with
    | some j => j == k || elementsUse k items
    | none => false
  | .object fields => !Condition.isOperator key && entriesUse k fields
  | _ => false

def elementsUse (k : Connective) : List Json → Bool
  | [] => false
  | v :: rest => uses k v || elementsUse k rest

end

/-- A formula made of comparisons by joining, with some connectives only and never without parts. -/
inductive Built (allowed : Connective → Prop) : Formula → Prop
  | comparison (c : Comparison) : Built allowed (.comparison c)
  | join {k : Connective} {fs : List Formula} (hk : allowed k) (hne : fs ≠ [])
      (h : ∀ f ∈ fs, Built allowed f) : Built allowed (join k fs)

namespace Built
variable {context : FilterContext} {allowed : Connective → Prop} {f : Formula}

theorem leaves_ne_nil (h : Built allowed f) : f.leaves ≠ [] := by
  induction h with
  | comparison c => exact List.cons_ne_nil c []
  | @join k fs hk hne h ih =>
      rw [leaves_join]
      obtain ⟨first, rest, rfl⟩ := List.exists_cons_of_ne_nil hne
      rw [List.flatMap_cons]
      exact List.append_ne_nil_of_left_ne_nil (ih first List.mem_cons_self) _

/-- Without `OR`, what is joined is comparisons. -/
theorem conjuncts_eq_comparison (h : Built (· = .and) f) :
    ∀ g ∈ f.conjuncts, ∃ c, g = .comparison c := by
  induction h with
  | comparison c =>
      intro g hg
      exact ⟨c, List.mem_singleton.mp hg⟩
  | @join k fs hk hne h ih =>
      subst hk
      intro g hg
      rw [conjuncts, parts_join] at hg
      obtain ⟨part, hpart, hg⟩ := List.mem_flatMap.mp hg
      exact ih part hpart g hg

theorem ofJoinedOf? {k : Connective} {fs : List Formula} (hk : allowed k)
    (h : ∀ f ∈ fs, Built allowed f) : ∀ f ∈ joinedOf? k fs, Built allowed f := by
  intro f hf
  unfold joinedOf? at hf
  split_ifs at hf with hempty
  · cases hf
  · obtain rfl := Option.some.inj hf
    exact .join hk (by simpa using hempty) h

theorem ofLeaf? (leaf : Option Comparison) : ∀ f ∈ leaf.map .comparison, Built allowed f := by
  intro f hf
  obtain ⟨c, _, rfl⟩ := Option.map_eq_some_iff.mp hf
  exact .comparison c

theorem ofScalar {keys : List String} {key : String} (v : Json) :
    ∀ f ∈ (if Condition.isOperator key then
      (leaf? context (leftSide context.table keys) key v).map .comparison
      else some (.comparison
        (.relation (leftSide context.table (key :: keys)) "=" (.ofValue context v)))),
      Built allowed f := by
  split_ifs
  · exact ofLeaf? _
  · exact ofLeaf? (some _)

theorem append {first : Option Formula} {others : List Formula}
    (hfirst : ∀ f ∈ first, Built allowed f) (hothers : ∀ f ∈ others, Built allowed f) :
    ∀ f ∈ first.toList ++ others, Built allowed f := by
  intro f hf
  rcases List.mem_append.mp hf with hf | hf
  · exact hfirst f (Option.mem_toList.mp hf)
  · exact hothers f hf

end Built

section Making
variable {context : FilterContext} {allowed : Connective → Prop}

mutual

theorem built_reading (hand : allowed .and) (keys : List String) : (v : Json) →
    (∀ k, uses k v = true → allowed k) → ∀ f ∈ reading context keys v, Built allowed f
  | .null => by simp [reading]
  | .bool b => fun _ => Built.ofLeaf? (some _)
  | .int n => fun _ => Built.ofLeaf? (some _)
  | .float x => fun _ => Built.ofLeaf? (some _)
  | .text s => fun _ => Built.ofLeaf? (some _)
  | .list items => by simp [reading]
  | .object fields => by
      intro h
      exact Built.ofJoinedOf? hand (built_entryReadings hand keys fields h)

theorem built_entryReadings (hand : allowed .and) (keys : List String) : (fields : Object) →
    (∀ k, entriesUse k fields = true → allowed k) →
      ∀ f ∈ entryReadings context keys fields, Built allowed f
  | [] => by simp [entryReadings]
  | (key, v) :: rest => by
      intro h
      exact Built.append (built_entryReading hand keys key v fun k hk =>
        h k (by simp [entriesUse, hk]))
        (built_entryReadings hand keys rest fun k hk => h k (by simp [entriesUse, hk]))

theorem built_entryReading (hand : allowed .and) (keys : List String) (key : String) : (v : Json) →
    (∀ k, entryUses k key v = true → allowed k) →
      ∀ f ∈ entryReading context keys key v, Built allowed f
  | .null => by simp [entryReading]
  | .bool b => fun _ => Built.ofScalar (.bool b)
  | .int n => fun _ => Built.ofScalar (.int n)
  | .float x => fun _ => Built.ofScalar (.float x)
  | .text s => fun _ => Built.ofScalar (.text s)
  | .list items => by
      intro h
      rw [entryReading]
      cases hkey : connectiveOf? key with
      | some j =>
          have helements := built_elementReadings hand keys items fun k hk =>
            h k (by simp [entryUses, hkey, hk])
          exact Built.ofJoinedOf? (h j (by simp [entryUses, hkey])) helements
      | none => exact Built.ofLeaf? _
  | .object fields => by
      intro h
      rw [entryReading]
      split_ifs with hop
      · exact Built.ofLeaf? _
      · exact Built.ofJoinedOf? hand (built_entryReadings hand (key :: keys) fields fun k hk =>
          h k (by simp [entryUses, hop, hk]))

theorem built_elementReadings (hand : allowed .and) (keys : List String) : (items : List Json) →
    (∀ k, elementsUse k items = true → allowed k) →
      ∀ f ∈ elementReadings context keys items, Built allowed f
  | [] => by simp [elementReadings]
  | v :: rest => by
      intro h
      exact Built.append (built_reading hand keys v fun k hk => h k (by simp [elementsUse, hk]))
        (built_elementReadings hand keys rest fun k hk => h k (by simp [elementsUse, hk]))

end

end Making

section Filters
variable {context : FilterContext} {v : Json} {text? : Option String}

theorem exists_renders_of_compile (h : Condition.compile context v = .ok text?) :
    ∃ c?, Agrees c? (reading context [] v) ∧ text? = c?.map (·.text) := by
  obtain ⟨c?, hc, h⟩ := bind_eq_ok.mp h
  obtain rfl := pure_eq_ok.mp h
  obtain ⟨_, _, hread⟩ := bind_eq_ok.mp hc
  exact ⟨c?, agrees_read [] v hread, rfl⟩

theorem agrees_compile (h : Condition.compile context v = .ok text?) :
    Option.Rel (fun text f => clause? text = some f) text? (reading context [] v) := by
  obtain ⟨c?, hagrees, rfl⟩ := exists_renders_of_compile h
  generalize reading context [] v = f at hagrees ⊢
  cases hagrees with
  | none => exact .none
  | some hrenders => exact .some hrenders.clause?

/-- The text of a filter spells the formula of its tree, and there is none just if the tree has no
leaf. A filter without `OR` is a conjunction of comparisons. A further clause joins the formula as a
whole. -/
theorem filter_text_spells_tree (h : Condition.compile context v = .ok text?) :
    (text? = none ↔ (reading context [] v).elim [] leaves = []) ∧
    ∀ text ∈ text?, ∃ f, reading context [] v = some f ∧ formula? text = some f ∧
      (uses .or v = false → ∀ g ∈ f.conjuncts, ∃ c, g = .comparison c) ∧
      ∀ other g, clause? other = some g →
        formula? (text ++ " AND " ++ other) = some (conj [f, g]) ∧
        formula? (other ++ " AND " ++ text) = some (conj [g, f]) := by
  have hbuilt : ∀ f ∈ reading context [] v, Built (fun _ => True) f :=
    built_reading trivial [] v fun _ _ => trivial
  have hconjuncts : uses .or v = false →
      ∀ f ∈ reading context [] v, ∀ g ∈ f.conjuncts, ∃ c, g = .comparison c := by
    intro hor f hf
    have hand : ∀ k, uses k v = true → k = .and := by
      rintro (_ | _) hk
      · rfl
      · exact absurd (hor.symm.trans hk) Bool.false_ne_true
    have hf : Built (· = .and) f := by
      refine built_reading ?_ [] v hand f hf
      rfl
    exact hf.conjuncts_eq_comparison
  have hagrees := agrees_compile h
  generalize reading context [] v = reading at *
  cases hagrees with
  | none => exact ⟨by simp, by simp⟩
  | @some text f hclause =>
      refine ⟨by simpa using (hbuilt f rfl).leaves_ne_nil, ?_⟩
      rintro _ ⟨⟩
      refine ⟨f, rfl, formula?_of_clause? hclause, fun hor => hconjuncts hor f rfl, ?_⟩
      intro other g hother
      exact ⟨formula?_of_clause? (clause?_and hclause hother),
        formula?_of_clause? (clause?_and hother hclause)⟩

end Filters

/-- A filter whose literals hold a quote, a connective and a parenthesis. -/
def youngOrNamed : Json := .object [
  ("$or", .list [.object [("age", .object [("$lt", .int 18)])],
    .object [("name", .text "o'neil OR (x")]]),
  ("active", .bool true), ("role", .object [("$nin", .list [])]),
  ("CONST_1", .object [("$in", .list [.int 1, .int 2])])]

theorem filter_text_spells_youngOrNamed :
    let context : FilterContext := ⟨.postgres, "users", false⟩
    let text :=
      "(users.age < 18 OR users.name = 'o''neil OR (x') AND users.active = true AND 1 IN (1, 2)"
    Condition.compile context youngOrNamed = .ok (some text) ∧
      ∃ f, reading context [] youngOrNamed = some f ∧ formula? text = some f ∧
        f.conjuncts.length = 3 := by
  intro context text
  have h : Condition.compile context youngOrNamed = .ok (some text) :=
    eq_ok_of_toOption (by decide +kernel)
  obtain ⟨f, hf, hformula, -⟩ := (filter_text_spells_tree h).2 text rfl
  refine ⟨h, f, hf, hformula, ?_⟩
  have : (reading context [] youngOrNamed).map (·.conjuncts.length) = some 3 := by decide +kernel
  simpa [hf] using this

end SqlGateway.Query
