import SqlGateway.Proofs.Name
import SqlGateway.Proofs.Query.Decisions
import SqlGateway.Proofs.Request.Printing
import SqlGateway.Proofs.Schema.Operations

/-!
# Tables that requests can name

A request names a table with letters, digits and underscores alone, where a double underscore stands
for the dot between a schema and its table. Every such name comes back from the table that it means.
A table comes back from the name that is written for it just if it has no double underscore, and no
underscore in front of its dot; otherwise this name means another table. A dollar sign, which may
stand in a table, cannot be written in a name at all. The other tables are just those that requests
can read.
-/
namespace SqlGateway.Name

open Request (IsName)

variable {name table : String}

theorem isName_iff_of_isSafe (h : isSafe table = true) :
    IsName (external table) ↔ '$' ∉ table.toList := by
  have hchars : (external table).toList = underscored table.toList := by
    rw [external, String.toList_ofList]
  rw [IsName, hchars]
  constructor
  · rintro ⟨-, hall⟩ hdollar
    exact absurd (hall '$' ((mem_underscored_iff (by decide)).mpr ⟨hdollar, by decide⟩)) (by decide)
  · intro hdollar
    refine ⟨fun hnil => ?_, fun c hc => ?_⟩
    · rw [isSafe, underscored_eq_nil_iff.mp hnil] at h
      cases h
    · by_cases hunderscore : c = '_'
      · rw [hunderscore]
        rfl
      · obtain ⟨hmem, hdot⟩ := (mem_underscored_iff hunderscore).mp hc
        have htail := isTailChar_of_isSafe h hmem hdot
        have hne : c ≠ '$' := fun heq => hdollar (heq ▸ hmem)
        simpa [isTailChar, Request.isNameChar, hne] using htail

theorem dot_not_mem_of_isName (h : IsName name) : '.' ∉ name.toList := fun hdot =>
  absurd (h.2 '.' hdot) (by decide)

/-- The tables that names of requests mean. -/
theorem exists_isName_iff (hsafe : isSafe table = true) :
    (∃ name, IsName name ∧ internal name = table) ↔ IsSpellable table.toList ∧
    '$' ∉ table.toList := by
  rw [← isName_iff_of_isSafe hsafe]
  constructor
  · rintro ⟨name, hname, rfl⟩
    have hdot := dot_not_mem_of_isName hname
    exact ⟨isSpellable_internal hdot, (external_internal hdot).symm ▸ hname⟩
  · rintro ⟨hspellable, hname⟩
    exact ⟨external table, hname, internal_external_iff.mpr hspellable⟩

end SqlGateway.Name

namespace SqlGateway.Schema

open Name (IsSpellable)

/-- A table of another schema than the default one can be spelled if its schema can, and has no
underscore at its end. -/
theorem Registry.isSpellable_tableKey_iff (r : Registry) (schema table : String) :
    IsSpellable (r.tableKey schema table).toList ↔ IsSpellable table.toList ∧
      (schema = "" ∨ schema = r.defaultSchema ∨ IsSpellable schema.toList ∧ schema.toList.getLast? ≠
        some '_') := by
  rw [tableKey]
  split_ifs with h
  · have hbare : schema = "" ∨ schema = r.defaultSchema := by simpa using h
    rcases hbare with hbare | hbare <;> simp [hbare]
  · have hother : schema ≠ "" ∧ schema ≠ r.defaultSchema := by simpa using h
    have hchars : (schema ++ "." ++ table).toList = schema.toList ++ '.' :: table.toList := by simp
    rw [hchars, Name.isSpellable_append_dot]
    simp only [hother.1, hother.2, false_or]
    tauto

end SqlGateway.Schema

namespace SqlGateway.Request

open SqlGateway.Request.Parser
open Query.Compiler (Reads)

section Rules
variable {α : Type} {p : Parser α} {A : α → Prop}

theorem Parser.Yields.padded (hp : p.Yields A) : (padded p).Yields A :=
  (yields_any space).bind fun _ _ => hp.bind fun _ ha => (yields_any space).bind fun _ _ =>
    yields_pure ha

theorem Parser.Yields.between (hp : p.Yields A) (left right : Char) :
    (between left right p).Yields A :=
  (yields_any (symbol left)).bind fun _ _ => hp.bind fun _ ha =>
    (yields_any (symbol right)).bind fun _ _ => yields_pure ha

end Rules

theorem yields_name : name.Yields IsName := by
  have hrun : (run1 isNameChar).Yields fun s => IsName (String.ofList s) := by
    intro at_ s next ht
    obtain ⟨hne, hall, -⟩ := takes_run1 ht
    rw [IsName, String.toList_ofList]
    exact ⟨hne, hall⟩
  exact hrun.bind fun _ hs => yields_pure hs

theorem yields_aliasAndName : aliasAndName.Yields fun labelled => IsName labelled.2 := by
  have hsecond := ((yields_any (symbol ':')).bind fun _ _ => yields_name.padded).optional
  refine yields_name.padded.bind fun first hfirst => hsecond.bind fun second hkey => yields_pure ?_
  cases second with
  | none => exact hfirst
  | some key => exact hkey key rfl

/-- Every table that a field reads is meant by a name. -/
def Field.IsNamed (f : Field) : Prop :=
  ∀ table, Reads f table → ∃ name, IsName name ∧ Name.internal name = table

theorem Field.isNamed {f : Field} (hname : IsName f.name) (hbelow : ∀ g ∈ f.selection, g.IsNamed) :
    f.IsNamed := by
  rintro table (rfl | hreaches)
  · exact ⟨f.name, hname, rfl⟩
  · cases hreaches with
    | here hmem _ => exact hbelow _ hmem _ (.inl rfl)
    | deeper hmem hdeeper => exact hbelow _ hmem _ (.inr hdeeper)

theorem yields_fieldWithin (depth : Nat) : (fieldWithin depth).Yields Field.IsNamed := by
  induction depth with
  | zero => exact fun _ _ _ ht => nomatch ht
  | succ depth ih =>
      have hselection := (ih.many.between '\x7b' '\x7d').optional
      refine yields_aliasAndName.bind fun labelled hname => (yields_any _).bind fun arguments _ =>
        (yields_any _).bind fun directives _ => hselection.bind fun selection hbelow =>
          (yields_any _).bind fun _ _ => yields_pure (Field.isNamed hname ?_)
      cases selection with
      | none => exact List.forall_mem_nil _
      | some fields => exact hbelow fields rfl

theorem yields_field : field.Yields Field.IsNamed := by
  intro at_ f next ht
  rw [Takes, field] at ht
  exact yields_fieldWithin _ at_ f next ht

theorem yields_selectionSet : selectionSet.Yields fun fields => ∀ f ∈ fields, f.IsNamed :=
  Parser.Yields.between (yields_field.bind fun _ hf => yields_field.many.bind fun _ hrest =>
    yields_pure (List.forall_mem_cons.mpr ⟨hf, hrest⟩)) _ _

theorem yields_operation : operation.Yields fun op => ∀ f ∈ op.selection, f.IsNamed := by
  refine Yields.either ?_ (yields_selectionSet.bind fun _ hfields => yields_pure hfields)
  exact (yields_any _).bind fun _ _ => (yields_any _).bind fun _ _ => (yields_any _).bind fun _ _ =>
    (yields_any _).bind fun _ _ => yields_selectionSet.bind fun _ hfields => yields_pure hfields

/-- Whatever text a document is read from, the tables that its fields read are meant by names. -/
theorem isNamed_of_read {text : String} {d : Document} (h : Document.read text = .ok d) :
    ∀ op ∈ d.operations, ∀ f ∈ op.selection, f.IsNamed := by
  have hdocument : document.Yields fun d => ∀ op ∈ d.operations, ∀ f ∈ op.selection, f.IsNamed :=
    (yields_any _).bind fun _ _ => yields_operation.bind fun _ hfirst =>
      yields_operation.many.bind fun _ hothers =>
      (yields_any _).bind fun _ _ => (yields_any _).bind fun _ _ =>
        yields_pure (List.forall_mem_cons.mpr ⟨hfirst, hothers⟩)
  obtain ⟨next, ht⟩ := read_eq_ok_iff.mp h
  exact hdocument _ _ _ ht

end SqlGateway.Request

namespace SqlGateway.Query.Compiler

open Request (Document Field IsName)
open Name (IsSpellable external internal)

/-- The request for one column: `name { column }`. -/
def oneColumn (name column : String) : Field := ⟨none, name, [], [], [⟨none, column, [], [], []⟩]⟩

/-- A table of which requests may read a column that they can name: the security role allows it
without conditions. -/
structure Offers (c : Compiler) (table column : String) : Prop where
  isName : IsName column
  isSafe : Name.isSafe column = true
  column : (c.schema.column? table column).isSome = true
  allowed : c.rules.security table (c.schema.securityRules.get? table) [] = .ok .allow

/-- A table that a field of some document reads, which compiles. -/
def CanRead (c : Compiler) (table : String) : Prop :=
  ∃ text d, Document.read text = .ok d ∧ ∃ op ∈ d.operations, ∃ f ∈ op.selection, ∃ vars q,
    c.compile vars f = .ok q ∧ Reads f table

section Reading
variable {c : Compiler} {name table column : String}

theorem ensureSafe_of_isSafe {context : String} (h : Name.isSafe name = true) :
    Name.ensureSafe context name = .ok () := if_pos h

theorem Offers.exists_table (h : c.Offers table column) : ∃ t, c.schema.table table = .ok t := by
  cases ht : c.schema.active.get? table with
  | none => simpa [Schema.Registry.column?, ht] using h.column
  | some t => exact ⟨t, by rw [Schema.Registry.table, ht]⟩

theorem Offers.tableClauses (h : c.Offers table column) (w : Walk) :
    c.tableClauses [] (oneColumn name column) table w = .ok w := by
  have hrole :
    Rules.asRole "security" (c.rules.security table (c.schema.securityRules.get? table) []) =
      .ok .allow := by
    rw [h.allowed]
    rfl
  exact bind_eq_ok.mpr ⟨w, rfl, bind_eq_ok.mpr ⟨_, hrole, rfl⟩⟩

theorem Offers.leafColumn (h : c.Offers table column) (level slot : Nat) :
    c.leafColumn [] ⟨none, column, [], [], []⟩ table level slot =
      .ok ⟨table ++ "." ++ column, ⟨level, slot, column⟩, false⟩ := by
  have hsome : (c.schema.column? table column).isNone = false := by simpa using h.column
  have hbase :
      c.baseExpression [] ⟨none, column, [], [], []⟩ table = .ok (table ++ "." ++ column) := by
    refine bind_eq_ok.mpr ⟨(), ensureSafe_of_isSafe h.isSafe, ?_⟩
    dsimp only
    rw [hsome]
    rfl
  exact bind_eq_ok.mpr ⟨_, hbase, rfl⟩

theorem Offers.compile (h : c.Offers (internal name) column)
    (hsafe : Name.isSafe (internal name) = true) :
    ∃ q, c.compile [] (oneColumn name column) = .ok q := by
  obtain ⟨t, ht⟩ := h.exists_table
  let w := startWalk (oneColumn name column) (internal name)
  have hleaf := h.leafColumn 0 0
  have hfield : c.walkField [] (internal name) 0 0 w ⟨none, column, [], [], []⟩ = .ok _ :=
    bind_eq_ok.mpr ⟨_, ensureSafe_of_isSafe h.isSafe, bind_eq_ok.mpr ⟨_, hleaf, rfl⟩⟩
  have hwalk : c.walkRoot [] (oneColumn name column) (internal name) = .ok _ :=
    bind_eq_ok.mpr ⟨w, h.tableClauses w, bind_eq_ok.mpr ⟨_, hfield, rfl⟩⟩
  -- The field has no arguments, so there is nothing to screen, and no flag or number in them.
  exact ⟨_,
    bind_eq_ok.mpr ⟨_, ensureSafe_of_isSafe hsafe, bind_eq_ok.mpr ⟨_, ht, bind_eq_ok.mpr ⟨(), rfl,
    bind_eq_ok.mpr ⟨false, rfl, bind_eq_ok.mpr ⟨0, rfl, bind_eq_ok.mpr ⟨0, rfl,
      bind_eq_ok.mpr ⟨_, hwalk, rfl⟩⟩⟩⟩⟩⟩⟩⟩

/-- The document `query { name { column } }`. -/
def documentFor (name column : String) : Document :=
  ⟨[⟨.query, none, [], [], [oneColumn name column]⟩]⟩

theorem isWellFormed_documentFor (hname : IsName name) (hcolumn : IsName column) :
    (documentFor name column).isWellFormed = true := by
  simp [documentFor, oneColumn, Document.isWellFormed, Request.Operation.isWellFormed,
    Request.areWellFormedFields, Request.Field.isWellFormed, hname, hcolumn]

theorem CanRead.exists_isName (h : c.CanRead table) :
    ∃ name, IsName name ∧ internal name = table := by
  obtain ⟨text, d, hread, op, hop, f, hf, -, -, -, hreads⟩ := h
  exact Request.isNamed_of_read hread op hop f hf table hreads

theorem Offers.canRead (h : c.Offers (internal name) column)
    (hsafe : Name.isSafe (internal name) = true) (hname : IsName name) :
    c.CanRead (internal name) := by
  obtain ⟨q, hq⟩ := h.compile hsafe
  obtain ⟨text, htext⟩ := Request.exists_isPrintedAs (isWellFormed_documentFor hname h.isName)
  exact ⟨text, _, Request.read_of_isPrintedAs htext, _, List.mem_cons_self, _, List.mem_cons_self,
    [], q, hq, .inl rfl⟩

/-- Requests read an offered table just if some name means it. -/
theorem Offers.canRead_iff (h : c.Offers table column) (hsafe : Name.isSafe table = true) :
    c.CanRead table ↔ ∃ name, IsName name ∧ internal name = table := by
  refine ⟨CanRead.exists_isName, ?_⟩
  rintro ⟨name, hname, rfl⟩
  exact h.canRead hsafe hname

end Reading

/-- Names without dots come back from the tables that they mean, and these are just the tables in
which no underscore stands in front of another one or of a dot. A table of a schema is one of these
just if its bare name is, and its schema is and does not end with an underscore. A table comes back
from the name that is written for it just if it is one of these, and of all tables for which this
name is written it means the only one of these. Requests can name a table just if it is one of these
and has no dollar sign, and these are all offered tables that they can read. -/
theorem table_comes_back_iff (c : Compiler) :
    (∀ name : String, '.' ∉ name.toList → external (internal name) = name) ∧
    Set.BijOn internal {name | '.' ∉ name.toList} {table | IsSpellable table.toList} ∧
    (∀ schema table, IsSpellable (c.schema.tableKey schema table).toList ↔
      IsSpellable table.toList ∧ (schema = "" ∨ schema = c.schema.defaultSchema ∨
        IsSpellable schema.toList ∧ schema.toList.getLast? ≠ some '_')) ∧
    ∀ table : String, (internal (external table) = table ↔ IsSpellable table.toList) ∧
      (∀ other, external other = external table ∧ IsSpellable other.toList ↔
        other = internal (external table)) ∧
      (Name.isSafe table = true →
        ((∃ name, IsName name ∧ internal name = table) ↔ IsSpellable table.toList ∧
          '$' ∉ table.toList) ∧
        ∀ column, c.Offers table column →
        (c.CanRead table ↔ IsSpellable table.toList ∧ '$' ∉ table.toList)) := by
  refine ⟨fun name => Name.external_internal, Name.bijOn_internal,
    c.schema.isSpellable_tableKey_iff, fun table =>
    ⟨Name.internal_external_iff, fun other => Name.external_eq_and_isSpellable_iff,
      fun hsafe => ?_⟩⟩
  have hnamed := Name.exists_isName_iff hsafe
  exact ⟨hnamed, fun column h => (h.canRead_iff hsafe).trans hnamed⟩

def keyIn (schema table : String) : Schema.Column :=
  { Shop.key table "id" .integer with schemaName := schema }

def customers : Compiler := { Shop.compiler with
  schema := Schema.replay "public"
    [.capture [keyIn "crm" "line_items", keyIn "crm" "_orders", keyIn "crm_" "orders",
      keyIn "public" "order__items",
        keyIn "public" "tax$rates"],
      .activate "crm.line_items", .activate "crm._orders", .activate "crm_.orders",
        .activate "order__items",
      .activate "tax$rates"] }

theorem offers_customers {table : String}
    (h : (customers.schema.column? table "id").isSome = true) : customers.Offers table "id" :=
  ⟨by decide, by decide, h, rfl⟩

theorem table_comes_back_lineItems :
    let table := "crm.line_items"
    Name.isSafe table = true ∧ customers.Offers table "id" ∧ IsSpellable table.toList ∧
    '$' ∉ table.toList ∧
      external table = "crm__line_items" ∧ internal (external table) = table ∧
      customers.CanRead table := by
  have hsafe : Name.isSafe "crm.line_items" = true := by decide
  have hspellable : IsSpellable "crm.line_items".toList ∧ '$' ∉ "crm.line_items".toList := by decide
  have hoffers : customers.Offers "crm.line_items" "id" := offers_customers (by decide +kernel)
  obtain ⟨-, -, -, htables⟩ := table_comes_back_iff customers
  obtain ⟨hback, -, hsafely⟩ := htables "crm.line_items"
  obtain ⟨-, hread⟩ := hsafely hsafe
  exact ⟨hsafe, hoffers, hspellable.1, hspellable.2, by decide, hback.mpr hspellable.1,
    (hread "id" hoffers).mpr hspellable⟩

/-- Two tables share a name, one of the default schema is taken for a table of another, and one has
a character that no name has: none of the three can be read. -/
theorem offered_tables_without_names :
    (∀ table ∈ ["crm._orders", "crm_.orders", "order__items", "tax$rates"],
      Name.isSafe table = true ∧ table ∈ customers.schema.active.keys ∧
      customers.Offers table "id") ∧
    external "crm_.orders" = external "crm._orders" ∧ internal (external "crm_.orders") =
      "crm._orders" ∧
    internal (external "order__items") = "order.items" ∧
    (∀ table ∈ ["crm_.orders", "order__items"], internal (external table) ≠ table) ∧
    ∀ table ∈ ["crm_.orders", "order__items", "tax$rates"], ¬ customers.CanRead table := by
  have hoffered : ∀ table ∈ ["crm._orders", "crm_.orders", "order__items", "tax$rates"],
      Name.isSafe table = true ∧ table ∈ customers.schema.active.keys ∧
        (customers.schema.column? table "id").isSome = true := by decide +kernel
  have hnameless : ∀ table ∈ ["crm_.orders", "order__items", "tax$rates"],
      Name.isSafe table = true ∧ ¬ (IsSpellable table.toList ∧ '$' ∉ table.toList) := by decide
  refine ⟨fun table hmem => ?_, by decide, by decide, by decide, by decide,
    fun table hmem hread => ?_⟩
  · obtain ⟨hsafe, hactive, hcolumn⟩ := hoffered table hmem
    exact ⟨hsafe, hactive, offers_customers hcolumn⟩
  · obtain ⟨hsafe, hnot⟩ := hnameless table hmem
    exact hnot ((Name.exists_isName_iff hsafe).mp hread.exists_isName)

end SqlGateway.Query.Compiler
