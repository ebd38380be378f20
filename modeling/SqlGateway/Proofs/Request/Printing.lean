import SqlGateway.Proofs.Number.Exact
import SqlGateway.Proofs.Request.RoundTrip
import SqlGateway.Proofs.Shop

/-!
# Printing

Every well-formed document can be printed, and every text that it is printed as reads back as the
document.
-/
namespace SqlGateway.Request

open Number

instance (s : String) : Decidable (IsName s) := inferInstanceAs (Decidable (_ ∧ _))

instance (s : String) : Decidable (IsTypeName s) := inferInstanceAs (Decidable (_ ∧ _))

def isFiniteDouble : Binary64 → Bool
  | .finite _ s e => decide (IsCanonical s e)
  | _ => false

mutual

def Value.isWellFormed : Value → Bool
  | .null | .bool _ | .text _ => true
  | .int n => fitsInt64 n
  | .float x => isFiniteDouble x
  | .variable name => decide (IsName name)
  | .list items => areWellFormed items
  | .object fields => areWellFormedEntries fields

def areWellFormed : List Value → Bool
  | [] => true
  | v :: rest => v.isWellFormed && areWellFormed rest

def areWellFormedEntries : List (String × Value) → Bool
  | [] => true
  | (_, v) :: rest => v.isWellFormed && areWellFormedEntries rest

end

def Argument.isWellFormed (a : Argument) : Bool := decide (IsName a.name) && a.value.isWellFormed

def Directive.isWellFormed (d : Directive) : Bool :=
  decide (IsName d.name) && d.arguments.all Argument.isWellFormed

mutual

def Field.isWellFormed : Field → Bool
  | ⟨label, name, arguments, directives, selection⟩ =>
    label.all (fun name => decide (IsName name)) && decide (IsName name)
      && arguments.all Argument.isWellFormed && directives.all Directive.isWellFormed
      && areWellFormedFields selection

def areWellFormedFields : List Field → Bool
  | [] => true
  | f :: rest => f.isWellFormed && areWellFormedFields rest

end

def VariableDefinition.isWellFormed (d : VariableDefinition) : Bool :=
  decide (IsName d.name) && decide (IsTypeName d.typeName) && d.default.all Value.isWellFormed

def Operation.isWellFormed (op : Operation) : Bool :=
  op.name.all (fun name => decide (IsName name))
    && op.definitions.all VariableDefinition.isWellFormed
    && op.directives.all Directive.isWellFormed && !op.selection.isEmpty
    && areWellFormedFields op.selection

/-- A document with names, numbers and selections as the grammar has them. -/
def Document.isWellFormed (d : Document) : Bool :=
  !d.operations.isEmpty && d.operations.all Operation.isWellFormed

def Token.IsSpelled (t : Token) : Prop := ∃ s, Spells t s

theorem isSpelled_mark {c : Char} (h : c ∈ marks) : (Token.mark c).IsSpelled := ⟨_, .mark h⟩

/-- The numeral of a decimal, with an exponent. -/
def decimalNumeralOf (negative : Bool) (digits : Nat) (exponent : Int) : Numeral :=
  ⟨negative, decimalDigits digits, none,
    some (decide (exponent < 0), decimalDigits exponent.natAbs)⟩

theorem exists_numeralText (negative : Bool) (digits : Nat) (exponent : Int) :
    ∃ text, NumeralText (decimalNumeralOf negative digits exponent) text := by
  have hdigits := isDigits_decimalDigits exponent.natAbs
  have hexponent :
      ∃ text, ExponentText (some (decide (exponent < 0), decimalDigits exponent.natAbs)) text := by
    cases decide (exponent < 0) with
    | true => exact ⟨_, .minus (.inl rfl) hdigits⟩
    | false => exact ⟨_, .plain (.inl rfl) hdigits⟩
  obtain ⟨last, hlast⟩ := hexponent
  exact ⟨_, .mk (isDigits_decimalDigits digits) .none hlast⟩

theorem value?_decimalNumeralOf (negative : Bool) (digits : Nat) (exponent : Int) :
    (decimalNumeralOf negative digits exponent).value? =
      some (.float (.ofDecimal negative digits exponent)) := by
  have hvalue : (decimalNumeralOf negative digits exponent).value? =
      some (.float (.ofDecimal negative (digitsValue (decimalDigits digits ++ []))
        ((if decide (exponent < 0) = true then -(digitsValue (decimalDigits exponent.natAbs) : Int)
          else digitsValue (decimalDigits exponent.natAbs)) - ([] : List Char).length))) := rfl
  rw [hvalue, List.append_nil, digitsValue_decimalDigits, digitsValue_decimalDigits, signed_natAbs,
    List.length_nil, Int.ofNat_zero, Int.sub_zero]

/-- A finite number is written as its exact decimal. -/
theorem isSpelled_float {x : Binary64} (h : isFiniteDouble x = true) :
    (Token.float x).IsSpelled := by
  cases x with
  | infinite _ => cases h
  | nan => cases h
  | finite negative s e =>
      have hc : IsCanonical s e := of_decide_eq_true h
      obtain ⟨text, htext⟩ := exists_numeralText negative (exactDecimal s e).1 (exactDecimal s e).2
      refine ⟨text, .float htext ?_⟩
      rw [value?_decimalNumeralOf, ofDecimal_exact hc]

theorem exists_spaced {ts : List Token} (h : ∀ t ∈ ts, t.IsSpelled) (afterWord : Bool) :
    ∃ text, Spaced afterWord ts text := by
  induction ts generalizing afterWord with
  | nil => exact ⟨[], .nil .nil⟩
  | cons t ts ih =>
      obtain ⟨⟨spelling, hspells⟩, hrest⟩ := List.forall_mem_cons.mp h
      obtain ⟨text, htext⟩ := ih hrest t.endsWord
      exact ⟨_, .cons (.blank (c := ' ') rfl .nil) (fun _ _ => List.cons_ne_nil _ _) hspells htext⟩

/-- A phrase can be written with tokens that have spellings. -/
def Writable {α : Type} (written : α → List Token → Prop) (a : α) : Prop :=
  ∃ ts, written a ts ∧ ∀ t ∈ ts, t.IsSpelled

section Lists
variable {α : Type} {written : α → List Token → Prop} {as : List α}

theorem writable_listed (h : ∀ a ∈ as, Writable written a) : Writable (Listed written) as := by
  induction as with
  | nil => exact ⟨[], .nil, List.forall_mem_nil _⟩
  | cons a rest ih =>
      obtain ⟨⟨ts, ha, hts⟩, hrest⟩ := List.forall_mem_cons.mp h
      obtain ⟨us, hus, hspelled⟩ := ih hrest
      refine ⟨_, .cons ha hus, List.forall_mem_append.mpr ⟨hts, ?_⟩⟩
      exact List.forall_mem_cons.mpr ⟨isSpelled_mark (by decide), hspelled⟩

theorem writable_sequence (h : ∀ a ∈ as, Writable written a) : Writable (Sequence written) as := by
  induction as with
  | nil => exact ⟨[], .nil, List.forall_mem_nil _⟩
  | cons a rest ih =>
      obtain ⟨⟨ts, ha, hts⟩, hrest⟩ := List.forall_mem_cons.mp h
      obtain ⟨us, hus, hspelled⟩ := ih hrest
      exact ⟨_, .cons ha hus, List.forall_mem_append.mpr ⟨hts, hspelled⟩⟩

theorem isSpelled_enclosed {left right : Char} {ts : List Token} (hleft : left ∈ marks)
    (hright : right ∈ marks) (h : ∀ t ∈ ts, t.IsSpelled) :
    ∀ t ∈ Token.mark left :: (ts ++ [.mark right]), t.IsSpelled := by
  refine List.forall_mem_cons.mpr ⟨isSpelled_mark hleft, List.forall_mem_append.mpr ⟨h, ?_⟩⟩
  exact List.forall_mem_singleton.mpr (isSpelled_mark hright)

theorem writable_group {left right : Char} {writtenAll : List α → List Token → Prop}
    (hleft : left ∈ marks) (hright : right ∈ marks) (h : Writable writtenAll as) :
    Writable (Group left right writtenAll) as := by
  obtain ⟨ts, has, hts⟩ := h
  exact ⟨_, .present has, isSpelled_enclosed hleft hright hts⟩

end Lists

theorem writable_single {α : Type} {written : α → List Token → Prop} {a : α} {t : Token}
    (h : written a [t]) (ht : t.IsSpelled) : Writable written a :=
  ⟨[t], h, List.forall_mem_singleton.mpr ht⟩

mutual

theorem writable_value : (v : Value) → v.isWellFormed = true → Writable ValueTokens v
  | .null, _ => writable_single .null ⟨_, .name (by decide)⟩
  | .bool true, _ => writable_single .true ⟨_, .name (by decide)⟩
  | .bool false, _ => writable_single .false ⟨_, .name (by decide)⟩
  | .text _, _ => writable_single .text ⟨_, .text (.inl rfl)⟩
  | .int _, h => writable_single .int ⟨_, .int h⟩
  | .float _, h => writable_single .float (isSpelled_float h)
  | .variable _, h => writable_single .reference ⟨_, .reference (of_decide_eq_true h)⟩
  | .list items, h => by
      obtain ⟨ts, hitems, hts⟩ := writable_listed (writable_items items h)
      exact ⟨_, .list hitems, isSpelled_enclosed (by decide) (by decide) hts⟩
  | .object fields, h => by
      obtain ⟨ts, hfields, hts⟩ := writable_listed (writable_entries fields h)
      exact ⟨_, .object hfields, isSpelled_enclosed (by decide) (by decide) hts⟩

theorem writable_items : (items : List Value) → areWellFormed items = true →
    ∀ v ∈ items, Writable ValueTokens v
  | [], _ => List.forall_mem_nil _
  | v :: rest, h =>
    have h := Bool.and_eq_true_iff.mp h
    List.forall_mem_cons.mpr ⟨writable_value v h.1, writable_items rest h.2⟩

theorem writable_entries : (fields : List (String × Value)) → areWellFormedEntries fields = true →
    ∀ entry ∈ fields, Writable EntryTokens entry
  | [], _ => List.forall_mem_nil _
  | (key, v) :: rest, h => by
      obtain ⟨hv, hrest⟩ := Bool.and_eq_true_iff.mp h
      obtain ⟨ts, hwritten, hts⟩ := writable_value v hv
      refine List.forall_mem_cons.mpr ⟨⟨_, .mk hwritten, ?_⟩, writable_entries rest hrest⟩
      exact List.forall_mem_cons.mpr ⟨⟨_, .text (.inl rfl)⟩,
        List.forall_mem_cons.mpr ⟨isSpelled_mark (by decide), hts⟩⟩

end

theorem isSpelled_name {s : String} (h : decide (IsName s) = true) : (Token.name s).IsSpelled :=
  ⟨_, .name (of_decide_eq_true h)⟩

theorem writable_argument {a : Argument} (h : a.isWellFormed = true) :
    Writable ArgumentTokens a := by
  obtain ⟨hname, hvalue⟩ := Bool.and_eq_true_iff.mp h
  obtain ⟨ts, hwritten, hts⟩ := writable_value a.value hvalue
  refine ⟨_, .mk hwritten, List.forall_mem_cons.mpr ⟨isSpelled_name hname, ?_⟩⟩
  exact List.forall_mem_cons.mpr ⟨isSpelled_mark (by decide), hts⟩

theorem writable_arguments {arguments : List Argument}
    (h : arguments.all Argument.isWellFormed = true) :
    Writable (Group '(' ')' (Listed ArgumentTokens)) arguments :=
  writable_group (by decide) (by decide)
    (writable_listed fun a ha => writable_argument (List.all_eq_true.mp h a ha))

theorem writable_directive {d : Directive} (h : d.isWellFormed = true) :
    Writable DirectiveTokens d := by
  obtain ⟨hname, harguments⟩ := Bool.and_eq_true_iff.mp h
  obtain ⟨ts, hwritten, hts⟩ := writable_arguments harguments
  refine ⟨_, .mk hwritten,
    List.forall_mem_cons.mpr ⟨⟨_, .directive (of_decide_eq_true hname)⟩, hts⟩⟩

theorem writable_directives {directives : List Directive}
    (h : directives.all Directive.isWellFormed = true) :
    Writable (Sequence DirectiveTokens) directives :=
  writable_sequence fun d hd => writable_directive (List.all_eq_true.mp h d hd)

theorem isSpelled_labelTokens {label : Option String}
    (h : label.all (fun name => decide (IsName name)) = true) :
    ∀ t ∈ labelTokens label, t.IsSpelled := by
  cases label with
  | none => exact List.forall_mem_nil _
  | some label =>
      exact List.forall_mem_cons.mpr
        ⟨isSpelled_name h, List.forall_mem_singleton.mpr (isSpelled_mark (by decide))⟩

mutual

theorem writable_field : (f : Field) → f.isWellFormed = true → Writable FieldTokens f
  | ⟨label, name, arguments, directives, selection⟩, h => by
      simp only [Field.isWellFormed, Bool.and_eq_true] at h
      obtain ⟨⟨⟨⟨hlabel, hname⟩, harguments⟩, hdirectives⟩, hselection⟩ := h
      obtain ⟨args, hargs, hargsSpelled⟩ := writable_arguments harguments
      obtain ⟨dirs, hdirs, hdirsSpelled⟩ := writable_directives hdirectives
      have hbraces : Writable (Group '\x7b' '\x7d' (Sequence FieldTokens)) selection :=
        writable_group (by decide) (by decide)
          (writable_sequence (writable_fields selection hselection))
      obtain ⟨sel, hsel, hselSpelled⟩ := hbraces
      refine ⟨_, .mk hargs hdirs hsel (.inl rfl), ?_⟩
      simp only [List.append_nil, List.forall_mem_append, List.forall_mem_cons]
      exact ⟨isSpelled_labelTokens hlabel, isSpelled_name hname, hargsSpelled, hdirsSpelled,
        hselSpelled⟩

theorem writable_fields : (fields : List Field) → areWellFormedFields fields = true →
    ∀ f ∈ fields, Writable FieldTokens f
  | [], _ => List.forall_mem_nil _
  | f :: rest, h =>
    have h := Bool.and_eq_true_iff.mp h
    List.forall_mem_cons.mpr ⟨writable_field f h.1, writable_fields rest h.2⟩

end

theorem writable_definition {d : VariableDefinition} (h : d.isWellFormed = true) :
    Writable DefinitionTokens d := by
  obtain ⟨key, type, default⟩ := d
  simp only [VariableDefinition.isWellFormed, Bool.and_eq_true] at h
  obtain ⟨⟨hname, htype⟩, hdefault⟩ := h
  have hkey : (Token.reference key).IsSpelled := ⟨_, .reference (of_decide_eq_true hname)⟩
  have htypeSpelled : (Token.type type).IsSpelled := ⟨_, .type (of_decide_eq_true htype)⟩
  cases default with
  | none =>
      refine ⟨_, .plain, ?_⟩
      simp only [List.forall_mem_cons]
      exact ⟨hkey, isSpelled_mark (by decide), htypeSpelled, List.forall_mem_nil _⟩
  | some v =>
      obtain ⟨ts, hwritten, hts⟩ := writable_value v hdefault
      refine ⟨_, .default hwritten, ?_⟩
      simp only [List.forall_mem_cons]
      exact ⟨hkey, isSpelled_mark (by decide), htypeSpelled, isSpelled_mark (by decide), hts⟩

theorem isSpelled_nameTokens {name : Option String}
    (h : name.all (fun name => decide (IsName name)) = true) :
    ∀ t ∈ nameTokens name, t.IsSpelled := by
  cases name with
  | none => exact List.forall_mem_nil _
  | some name => exact List.forall_mem_singleton.mpr (isSpelled_name h)

theorem writable_operation {op : Operation} (h : op.isWellFormed = true) :
    Writable OperationTokens op := by
  obtain ⟨kind, name, definitions, directives, selection⟩ := op
  simp only [Operation.isWellFormed, Bool.and_eq_true] at h
  obtain ⟨⟨⟨⟨hname, hdefinitions⟩, hdirectives⟩, hne⟩, hselection⟩ := h
  have hbrackets : Writable (Group '(' ')' (Listed DefinitionTokens)) definitions :=
    writable_group (by decide) (by decide)
      (writable_listed fun d hd => writable_definition (List.all_eq_true.mp hdefinitions d hd))
  obtain ⟨defs, hdefs, hdefsSpelled⟩ := hbrackets
  obtain ⟨dirs, hdirs, hdirsSpelled⟩ := writable_directives hdirectives
  obtain ⟨sel, hsel, hselSpelled⟩ := writable_sequence (writable_fields selection hselection)
  cases selection with
  | nil => cases hne
  | cons f rest =>
      have hkind : (Token.name kind.word).IsSpelled := isSpelled_name (by cases kind <;> decide)
      have hwritten : OperationTokens ⟨kind, name, definitions, directives, f :: rest⟩
          (.name kind.word ::
            (nameTokens name ++ (defs ++ (dirs ++ .mark '\x7b' :: (sel ++ [.mark '\x7d']))))) :=
        .named hdefs hdirs (.mk hsel)
      refine ⟨_, hwritten, ?_⟩
      simp only [List.forall_mem_append, List.forall_mem_cons]
      refine ⟨hkind, isSpelled_nameTokens hname, hdefsSpelled, hdirsSpelled,
        isSpelled_mark (by decide), hselSpelled, isSpelled_mark (by decide), List.forall_mem_nil _⟩

theorem exists_isPrintedAs {d : Document} (h : d.isWellFormed = true) :
    ∃ text, d.IsPrintedAs text := by
  obtain ⟨hne, hoperations⟩ := Bool.and_eq_true_iff.mp h
  obtain ⟨ts, hts, hspelled⟩ := writable_sequence fun op hop =>
    writable_operation (List.all_eq_true.mp hoperations op hop)
  obtain ⟨text, htext⟩ := exists_spaced hspelled false
  refine ⟨String.ofList text, ?_, ts, hts, ?_⟩
  · intro hnil
    rw [hnil] at hne
    cases hne
  · rw [String.toList_ofList]
    exact htext

theorem read_of_isPrintedAs {d : Document} {text : String} (h : d.IsPrintedAs text) :
    Document.read text = .ok d := by
  obtain ⟨hne, ts, hts, hspaced⟩ := h
  obtain ⟨next, hresult, _⟩ := reads_document hne hts (.start text.toList) hspaced
  exact read_eq_ok_iff.mpr ⟨next, hresult⟩

/-- Reading inverts printing. A well-formed document can be printed, and every text that it is
printed as, whatever gaps the text leaves between its tokens, reads back as the document. -/
theorem read_printed {d : Document} (h : d.isWellFormed = true) :
    (∃ text, d.IsPrintedAs text) ∧ ∀ text, d.IsPrintedAs text → Document.read text = .ok d :=
  ⟨exists_isPrintedAs h, fun _ => read_of_isPrintedAs⟩

/-- Two operations, with numbers of both kinds, a default, an alias, and a string that holds a
quote, a backslash and the beginning of a comment. -/
def recentOrders : Document := ⟨[
  ⟨.query, some "Recent",
    [⟨"least", "[Float!]", some (.list [.int (-3), .float (.finite true 1 (-1074))])⟩], [],
    [⟨some "u", "users",
      [⟨"where", .object [("it's \"1\"", .text "\\\" # "), ("id", .variable "1st")]⟩],
      [⟨"csv", []⟩], [Shop.leaf "id", Shop.nested "orders" [Shop.leaf "total"]]⟩]⟩,
  ⟨.mutation, none, [], [⟨"txn", [⟨"single", .bool true⟩]⟩], [Shop.leaf "null"]⟩]⟩

theorem read_printed_recentOrders : recentOrders.isWellFormed = true ∧
    ∃ text, recentOrders.IsPrintedAs text ∧ Document.read text = .ok recentOrders := by
  have h : recentOrders.isWellFormed = true := by decide +kernel
  obtain ⟨⟨text, htext⟩, hread⟩ := read_printed h
  exact ⟨h, text, htext, hread text htext⟩

end SqlGateway.Request
