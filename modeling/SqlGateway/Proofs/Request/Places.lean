import SqlGateway.Proofs.Request.RoundTrip

/-!
# Where values are read

The scalars of a document, those inside its lists and objects too, are read from its text one after
another, each at a place of its own. Every text that the grammar reads is meant, however it is
written.
-/
namespace SqlGateway.Request

open SqlGateway.Request.Parser

mutual

/-- What a value consists of, without the lists and objects around it. -/
def Value.scalars : Value → List Value
  | .list items => itemScalars items
  | .object entries => entryScalars entries
  | v => [v]

def itemScalars : List Value → List Value
  | [] => []
  | item :: rest => item.scalars ++ itemScalars rest

def entryScalars : List (String × Value) → List Value
  | [] => []
  | entry :: rest => entry.2.scalars ++ entryScalars rest

end

def Argument.scalars (a : Argument) : List Value := a.value.scalars

def Directive.scalars (d : Directive) : List Value := d.arguments.flatMap Argument.scalars

mutual

def Field.scalars : Field → List Value
  | ⟨_, _, arguments, directives, selection⟩ =>
    arguments.flatMap Argument.scalars ++ directives.flatMap Directive.scalars ++
      selectionScalars selection

def selectionScalars : List Field → List Value
  | [] => []
  | f :: rest => f.scalars ++ selectionScalars rest

end

/-- A variable may have a default. -/
def VariableDefinition.scalars (d : VariableDefinition) : List Value :=
  (d.default.map Value.scalars).getD []

def Operation.scalars (op : Operation) : List Value :=
  op.definitions.flatMap VariableDefinition.scalars ++ op.directives.flatMap Directive.scalars ++
    op.selection.flatMap Field.scalars

/-- The scalars of the arguments and of the defaults of a document, in the order of its text. -/
def Document.scalars (d : Document) : List Value := d.operations.flatMap Operation.scalars

theorem itemScalars_eq (items : List Value) : itemScalars items = items.flatMap Value.scalars := by
  induction items with
  | nil => rfl
  | cons item rest ih => rw [itemScalars, ih, List.flatMap_cons]

theorem entryScalars_eq (entries : List (String × Value)) :
    entryScalars entries = entries.flatMap fun entry => entry.2.scalars := by
  induction entries with
  | nil => rfl
  | cons entry rest ih => rw [entryScalars, ih, List.flatMap_cons]

theorem selectionScalars_eq (selection : List Field) :
    selectionScalars selection = selection.flatMap Field.scalars := by
  induction selection with
  | nil => rfl
  | cons f rest ih => rw [selectionScalars, ih, List.flatMap_cons]

/-- A value is read at the beginning of a text, and leaves another one. -/
def IsReadFrom (v : Value) (text after : List Char) : Prop :=
  ∃ depth at_ next, (valueWithin depth).Takes at_ v next ∧ at_.rest = text ∧ next.rest = after

/-- Values that are read from a text one after another, each at its own place. The last argument is
the text that is left behind them. -/
inductive Located : List Value → List Char → List Char → Prop
  | done {text rest} : rest <:+ text → Located [] text rest
  | read {v vs text place after rest} :
      place <:+ text → IsReadFrom v place after → after <:+ place →
      Located vs after rest → Located (v :: vs) text rest

section Located
variable {vs ws : List Value} {text middle rest : List Char}

theorem Located.suffix (h : Located vs text rest) : rest <:+ text := by
  induction h with
  | done hrest => exact hrest
  | read hplace _ hafter _ ih => exact ih.trans (hafter.trans hplace)

theorem Located.widen (h : Located vs middle rest) (hmiddle : middle <:+ text) :
    Located vs text rest := by
  cases h with
  | done hrest => exact .done (hrest.trans hmiddle)
  | read hplace hread hafter hrest => exact .read (hplace.trans hmiddle) hread hafter hrest

theorem Located.append (h : Located vs text middle) (hws : Located ws middle rest) :
    Located (vs ++ ws) text rest := by
  induction h with
  | done hmiddle => exact hws.widen hmiddle
  | read hplace hread hafter _ ih => exact .read hplace hread hafter (ih hws)

end Located

namespace Parser

section Rules
variable {α β : Type} {p q : Parser α} {f : α → Parser β} {a : α} {vs : List Value}
  {g : α → List Value} {h : β → List Value}

/-- What a parser reads holds given values and then those that it reads itself, each at its own
place. -/
def Adds (p : Parser α) (vs : List Value) (g : α → List Value) : Prop :=
  ∀ at_ a next, p.Takes at_ a next → ∃ ws, g a = vs ++ ws ∧ Located ws at_.rest next.rest

/-- A parser reads on in the text, and no values. -/
def Passes (p : Parser α) : Prop := p.Adds [] fun _ => []

theorem passes_of_suffix (hp : ∀ at_ a next, p.Takes at_ a next → next.rest <:+ at_.rest) :
    p.Passes :=
  fun at_ a next ht => ⟨[], rfl, .done (hp at_ a next ht)⟩

theorem adds_pure (ha : g a = vs) : Adds (pure a) vs g := by
  intro at_ b next ht
  obtain ⟨rfl, rfl⟩ := takes_pure ht
  exact ⟨[], by rw [ha, List.append_nil], .done (List.suffix_refl _)⟩

theorem Adds.bind (hp : p.Adds [] g) (hf : ∀ a, (f a).Adds (vs ++ g a) h) :
    (p >>= f).Adds vs h := by
  intro at_ b next ht
  obtain ⟨a, middle, hpt, hft⟩ := takes_bind ht
  obtain ⟨us, hg, hlocated⟩ := hp _ _ _ hpt
  obtain ⟨ws, hh, hothers⟩ := hf a _ _ _ hft
  obtain rfl : g a = us := hg
  exact ⟨g a ++ ws, by rw [hh, List.append_assoc], hlocated.append hothers⟩

theorem Passes.bind (hp : p.Passes) (hf : ∀ a, (f a).Adds vs h) : (p >>= f).Adds vs h :=
  Adds.bind hp fun a => by
    rw [List.append_nil]
    exact hf a

theorem Adds.either (hp : p.Adds vs g) (hq : q.Adds vs g) : (either p q).Adds vs g := by
  intro at_ a next ht
  rcases takes_either ht with hpt | ⟨_, hqt⟩
  · exact hp _ _ _ hpt
  · exact hq _ _ _ hqt

theorem Adds.firstOf {ps : List (Parser α)} (hps : ∀ p ∈ ps, p.Adds vs g) :
    (firstOf ps).Adds vs g := by
  intro at_ a next ht
  obtain ⟨p, hmem, hp⟩ := takes_firstOf ht
  exact hps p hmem _ _ _ hp

theorem Adds.optional (hp : p.Adds [] g) : (optional p).Adds [] fun o => (o.map g).getD [] := by
  intro at_ o next ht
  rcases takes_optional ht with ⟨a, rfl, hpt⟩ | ⟨rfl, rfl, _⟩
  · exact hp _ _ _ hpt
  · exact ⟨[], rfl, .done (List.suffix_refl _)⟩

/-- A list that is left out stands for an empty one. -/
theorem Adds.optionalList {p : Parser (List α)} (hp : p.Adds [] (List.flatMap g)) :
    (Parser.optional p).Adds [] fun o => (o.getD []).flatMap g := by
  have hflat : (fun o : Option (List α) => (o.map (List.flatMap g)).getD []) = fun o =>
    (o.getD []).flatMap g := by
    funext o
    cases o <;> rfl
  exact hflat ▸ hp.optional

theorem Passes.optional (hp : p.Passes) : (optional p).Passes :=
  Adds.either (hp.bind fun _ => adds_pure (by rfl)) (adds_pure (by rfl))

theorem Passes.judged {judge : α → Option β} (hp : p.Passes) : (judged p judge).Passes := by
  intro at_ b next ht
  obtain ⟨a, hpt, _⟩ := takes_judged ht
  exact hp _ _ _ hpt

theorem Adds.many (hp : p.Adds [] g) : (many p).Adds [] (List.flatMap g) := by
  have hall : ∀ count, (upTo p count).Adds [] (List.flatMap g) := by
    intro count
    induction count with
    | zero => exact adds_pure (by rfl)
    | succ count ih =>
        exact Adds.either (Adds.bind hp fun a => Adds.bind ih fun rest => adds_pure (by rfl))
          (adds_pure (by rfl))
  exact fun at_ => hall at_.rest.length at_

theorem Adds.separated {separator : Parser Unit} (hp : p.Adds [] g)
    (hseparator : separator.Passes) : (separated p separator).Adds [] (List.flatMap g) := by
  have hall : ∀ count, (separatedUpTo p separator count).Adds [] (List.flatMap g) := by
    intro count
    induction count with
    | zero => exact adds_pure (by rfl)
    | succ count ih =>
        refine Adds.either (Adds.bind hp fun a => Passes.bind hseparator.optional fun more => ?_)
          (adds_pure (by rfl))
        cases more with
        | none => exact adds_pure (by simp)
        | some u => exact Adds.bind ih fun rest => adds_pure (by rfl)
  exact fun at_ => hall (at_.rest.length + 1) at_

theorem passes_satisfy (accept : Char → Bool) : (satisfy accept).Passes :=
  passes_of_suffix fun _ c _ ht => ⟨[c], (takes_satisfy ht).2.symm⟩

theorem passes_char (c : Char) : (char c).Passes := (passes_satisfy _).bind fun _ =>
  adds_pure (by rfl)

theorem passes_run (accept : Char → Bool) : (run accept).Passes :=
  passes_of_suffix fun _ s _ ht => ⟨s, (takes_run ht).2.2.symm⟩

theorem passes_run1 (accept : Char → Bool) : (run1 accept).Passes :=
  passes_of_suffix fun _ s _ ht => ⟨s, (takes_run1 ht).2.2.2.symm⟩

end Rules

end Parser

theorem skipSpace_suffix (comment : Bool) (offset : Nat) (text : List Char) :
    (skipSpace comment offset text).rest <:+ text := by
  induction text generalizing comment offset with
  | nil => cases comment <;> exact List.suffix_refl _
  | cons c rest ih =>
      cases comment with
      | true => exact (ih _ _).trans (List.suffix_cons c rest)
      | false =>
          rw [skipSpace]
          split_ifs
          · exact (ih _ _).trans (List.suffix_cons c rest)
          · exact (ih _ _).trans (List.suffix_cons c rest)
          · exact List.suffix_refl _

theorem passes_space : space.Passes :=
  passes_of_suffix fun at_ _ next ht => by
    obtain rfl : skipSpace false at_.offset at_.rest = next :=
      congrArg Prod.snd (Option.some.inj ht)
    exact skipSpace_suffix false at_.offset at_.rest

section Tokens
variable {α : Type} {p : Parser α} {g : α → List Value}

theorem Parser.Adds.padded (hp : p.Adds [] g) : (padded p).Adds [] g :=
  passes_space.bind fun _ => Adds.bind hp fun _ => passes_space.bind fun _ => adds_pure (by rfl)

theorem passes_symbol (c : Char) : (symbol c).Passes := (passes_char c).padded

theorem Parser.Adds.between (hp : p.Adds [] g) (left right : Char) :
    (between left right p).Adds [] g :=
  (passes_symbol left).bind fun _ => Adds.bind hp fun _ => (passes_symbol right).bind fun _ =>
    adds_pure (by rfl)

end Tokens

theorem passes_name : name.Passes := (passes_run1 _).bind fun _ => adds_pure (by rfl)

theorem passes_keyword (spelling : String) : (keyword spelling).Passes :=
  Passes.judged ((passes_satisfy _).bind fun _ => (passes_run _).bind fun _ => adds_pure (by rfl))

theorem quotedBody_suffix (quote : Char) (offset : Nat) (text : List Char) {s : List Char}
    {next : Cursor} (h : (quotedBody quote offset text).2 = some (s, next)) :
    next.rest <:+ text := by
  fun_induction quotedBody quote offset text generalizing s next with
  | case1 => cases h
  | case2 offset c rest furthest result hbody ih =>
      obtain ⟨⟨more, stop⟩, hresult, heq⟩ := Option.map_eq_some_iff.mp h
      cases heq
      exact (ih (by rw [hbody]; exact hresult)).trans
        ((List.suffix_cons c rest).trans (List.suffix_cons _ _))
  | case3 offset rest =>
      cases h
      exact List.suffix_cons _ _
  | case4 => cases h
  | case5 offset c rest _ _ _ furthest result hbody ih =>
      obtain ⟨⟨more, stop⟩, hresult, heq⟩ := Option.map_eq_some_iff.mp h
      cases heq
      exact (ih (by rw [hbody]; exact hresult)).trans (List.suffix_cons c rest)

theorem passes_quotedIn (quote : Char) : (quotedIn quote).Passes :=
  (passes_char quote).bind fun _ => passes_of_suffix fun at_ s next ht => by
    obtain ⟨⟨body, stop⟩, hbody, heq⟩ := Option.map_eq_some_iff.mp ht
    cases heq
    exact quotedBody_suffix quote at_.offset at_.rest hbody

theorem passes_quotedText : quotedText.Passes := (passes_quotedIn '"').either (passes_quotedIn '\'')

theorem passes_numeral : numeral.Passes := by
  have hfraction : fractionDigits.Passes := (passes_char '.').bind fun _ => passes_run1 _
  have hexponent : exponentDigits.Passes := (passes_satisfy _).bind fun _ =>
    (passes_satisfy _).optional.bind fun _ => (passes_run1 _).bind fun _ => adds_pure (by rfl)
  exact (passes_char '-').optional.bind fun _ => (passes_run1 _).bind fun _ =>
    hfraction.optional.bind fun _ => hexponent.optional.bind fun _ => adds_pure (by rfl)

/-- What is read by a parser is no list and no object. -/
def ReadsScalars (p : Parser Value) : Prop := ∀ {at_ v next}, p.Takes at_ v next → v.scalars = [v]

theorem isScalar_of_value? {n : Numeral} {v : Value} (h : n.value? = some v) : v.scalars = [v] := by
  unfold Numeral.value? at h
  split at h
  · dsimp only at h
    split_ifs at h
    all_goals
      cases h
      rfl
  · cases h
    rfl

theorem scalar_variableUse : variableUse.Passes ∧ ReadsScalars variableUse := by
  refine ⟨(passes_char '$').bind fun _ => passes_name.bind fun _ => adds_pure (by rfl),
    fun ht => ?_⟩
  obtain ⟨_, _, _, ht⟩ := takes_bind ht
  obtain ⟨_, _, _, ht⟩ := takes_bind ht
  obtain ⟨rfl, _⟩ := takes_pure ht
  rfl

theorem scalar_textValue : textValue.Passes ∧ ReadsScalars textValue := by
  refine ⟨passes_quotedText.bind fun _ => adds_pure (by rfl), fun ht => ?_⟩
  obtain ⟨_, _, _, ht⟩ := takes_bind ht
  obtain ⟨rfl, _⟩ := takes_pure ht
  rfl

theorem scalar_number : number.Passes ∧ ReadsScalars number := by
  refine ⟨passes_numeral.judged, fun ht => ?_⟩
  obtain ⟨_, _, hvalue⟩ := takes_judged ht
  exact isScalar_of_value? hvalue

theorem scalar_keywordValue (spelling : String) {v : Value} (hv : v.scalars = [v]) :
    (keywordValue spelling v).Passes ∧ ReadsScalars (keywordValue spelling v) := by
  refine ⟨(passes_keyword spelling).bind fun _ => adds_pure (by rfl), fun ht => ?_⟩
  obtain ⟨_, _, _, ht⟩ := takes_bind ht
  obtain ⟨rfl, _⟩ := takes_pure ht
  exact hv

theorem scalar_word : word.Passes ∧ ReadsScalars word := by
  have hname :
      (do return Value.text (← name)).Passes ∧ ReadsScalars (do return Value.text (← name)) := by
    refine ⟨passes_name.bind fun _ => adds_pure (by rfl), fun ht => ?_⟩
    obtain ⟨_, _, _, ht⟩ := takes_bind ht
    obtain ⟨rfl, _⟩ := takes_pure ht
    rfl
  have hall : ∀ p ∈ [keywordValue "true" (.bool true), keywordValue "false" (.bool false),
      keywordValue "null" .null, do return Value.text (← name)], p.Passes ∧ ReadsScalars p := by
    simp only [List.forall_mem_cons]
    exact ⟨scalar_keywordValue _ rfl, scalar_keywordValue _ rfl, scalar_keywordValue _ rfl, hname,
      List.forall_mem_nil _⟩
  refine ⟨Adds.firstOf fun p hp => (hall p hp).1, fun ht => ?_⟩
  obtain ⟨p, hp, ht⟩ := takes_firstOf ht
  exact (hall p hp).2 ht

theorem takes_padded {α : Type} {p : Parser α} {at_ next : Cursor} {a : α}
    (h : (padded p).Takes at_ a next) :
    ∃ stop, p.Takes (skipSpace false at_.offset at_.rest) a stop ∧
      next = skipSpace false stop.offset stop.rest := by
  obtain ⟨_, start, hstart, h⟩ := takes_bind h
  obtain ⟨b, stop, hp, h⟩ := takes_bind h
  obtain ⟨_, finish, hfinish, h⟩ := takes_bind h
  obtain ⟨rfl, rfl⟩ := takes_pure h
  cases hstart
  cases hfinish
  exact ⟨stop, hp, rfl⟩

theorem adds_listOf {p : Parser Value} (hp : p.Adds [] Value.scalars) :
    (listOf p).Adds [] Value.scalars :=
  Adds.bind ((hp.separated (passes_symbol ',')).between '[' ']') fun items =>
    adds_pure (itemScalars_eq items)

theorem adds_objectOf {p : Parser Value} (hp : p.Adds [] Value.scalars) :
    (objectOf p).Adds [] Value.scalars := by
  have hkey : objectKey.Passes :=
    (passes_quotedText.either ((passes_char '$').optional.bind fun _ =>
    (passes_run1 _).bind fun _ => adds_pure (by rfl))).padded
  have hentry : (entryOf p).Adds [] fun entry => entry.2.scalars :=
    hkey.bind fun _ => (passes_symbol ':').bind fun _ => Adds.bind hp fun _ => adds_pure (by rfl)
  exact Adds.bind ((hentry.separated (passes_symbol ',')).between '\x7b' '\x7d') fun entries =>
    adds_pure (entryScalars_eq entries)

/-- A value is read with its scalars one after another: a scalar at the place of the value, and what
a list or an object consists of inside its brackets. -/
theorem adds_valueWithin (depth : Nat) : (valueWithin depth).Adds [] Value.scalars := by
  induction depth with
  | zero =>
      intro at_ v next ht
      cases ht
  | succ depth ih =>
      intro at_ v next ht
      have hread : IsReadFrom v at_.rest next.rest := ⟨depth + 1, at_, next, ht, rfl, rfl⟩
      obtain ⟨stop, hinner, rfl⟩ := takes_padded ht
      obtain ⟨p, hmem, hp⟩ := takes_firstOf hinner
      have hscalar : ∀ p ∈ [variableUse, textValue, number, word], p.Passes ∧ ReadsScalars p := by
        simp only [List.forall_mem_cons]
        exact ⟨scalar_variableUse, scalar_textValue, scalar_number, scalar_word,
          List.forall_mem_nil _⟩
      have hnested : ∀ p ∈ [listOf (valueWithin depth), objectOf (valueWithin depth)],
          p.Adds [] Value.scalars := by
        simp only [List.forall_mem_cons]
        exact ⟨adds_listOf ih, adds_objectOf ih, List.forall_mem_nil _⟩
      have hstart := skipSpace_suffix false at_.offset at_.rest
      have hstop := skipSpace_suffix false stop.offset stop.rest
      have hmem : p ∈ [variableUse, textValue, number, word] ++
        [listOf (valueWithin depth), objectOf (valueWithin depth)] := hmem
      rcases List.mem_append.mp hmem with hmem | hmem
      · obtain ⟨hpasses, hscalars⟩ := hscalar p hmem
        obtain ⟨_, _, hlocated⟩ := hpasses _ _ _ hp
        exact ⟨[v], hscalars hp,
          .read (List.suffix_refl _) hread (hstop.trans (hlocated.suffix.trans hstart))
          (.done (List.suffix_refl _))⟩
      · obtain ⟨ws, hws, hlocated⟩ := hnested p hmem _ _ _ hp
        refine ⟨ws, hws, ?_⟩
        have hend := (hlocated.widen hstart).append (Located.done hstop)
        rwa [List.append_nil] at hend

theorem adds_value : value.Adds [] Value.scalars := by
  intro at_ v next ht
  rw [Takes, value] at ht
  exact adds_valueWithin _ at_ v next ht

theorem adds_argumentList : argumentList.Adds [] (List.flatMap Argument.scalars) := by
  have hargument : argument.Adds [] Argument.scalars := passes_name.padded.bind fun _ =>
    (passes_symbol ':').bind fun _ => Adds.bind adds_value fun _ => adds_pure (by rfl)
  exact (hargument.separated (passes_symbol ',')).between '(' ')'

theorem adds_arguments : (optional argumentList).Adds [] fun o =>
  (o.getD []).flatMap Argument.scalars :=
  adds_argumentList.optionalList

theorem adds_directive : directive.Adds [] Directive.scalars :=
  Adds.padded ((passes_char '@').bind fun _ => passes_name.bind fun _ =>
    Adds.bind adds_arguments fun _ => adds_pure (by rfl))

theorem passes_aliasAndName : aliasAndName.Passes :=
  passes_name.padded.bind fun _ =>
    Passes.bind (Passes.optional ((passes_symbol ':').bind fun _ => passes_name.padded)) fun _ =>
      adds_pure (by rfl)

theorem adds_fieldWithin (depth : Nat) : (fieldWithin depth).Adds [] Field.scalars := by
  induction depth with
  | zero =>
      intro at_ f next ht
      cases ht
  | succ depth ih =>
      have hselection : (optional (between '\x7b' '\x7d' (many (fieldWithin depth)))).Adds []
          fun o => (o.getD []).flatMap Field.scalars := (ih.many.between _ _).optionalList
      refine passes_aliasAndName.bind fun _ => Adds.bind adds_arguments fun arguments =>
        Adds.bind adds_directive.many fun directives => Adds.bind hselection fun selection =>
          (passes_symbol ',').optional.bind fun _ => adds_pure ?_
      exact congrArg (_ ++ ·) (selectionScalars_eq _)

theorem adds_field : field.Adds [] Field.scalars := by
  intro at_ f next ht
  rw [Takes, field] at ht
  exact adds_fieldWithin _ at_ f next ht

theorem adds_selectionSet : selectionSet.Adds [] (List.flatMap Field.scalars) :=
  Adds.between (Adds.bind adds_field fun _ => Adds.bind adds_field.many fun _ =>
    adds_pure (by rfl)) _ _

theorem adds_variableDefinition : variableDefinition.Adds [] VariableDefinition.scalars := by
  have hdefault : (optional (do symbol '='; value)).Adds [] fun o =>
    (o.map Value.scalars).getD [] :=
    Adds.optional ((passes_symbol '=').bind fun _ => adds_value)
  exact ((passes_char '$').bind fun _ => passes_name).padded.bind fun _ =>
    (passes_symbol ':').bind fun _ =>
    (passes_run1 _).padded.bind fun _ => Adds.bind hdefault fun _ => adds_pure (by rfl)

theorem adds_definitions :
    (optional variableDefinitions).Adds [] fun o =>
      (o.getD []).flatMap VariableDefinition.scalars :=
  ((adds_variableDefinition.separated (passes_symbol ',')).between '(' ')').optionalList

theorem passes_operationKind : operationKind.Passes :=
  Adds.padded (Adds.either ((passes_keyword _).bind fun _ => adds_pure (by rfl))
    ((passes_keyword _).bind fun _ => adds_pure (by rfl)))

theorem adds_operation : operation.Adds [] Operation.scalars := by
  refine Adds.either ?_ (Adds.bind adds_selectionSet fun _ => adds_pure (by rfl))
  exact passes_operationKind.bind fun _ => Passes.bind (Passes.optional passes_name.padded) fun _ =>
    Adds.bind adds_definitions fun _ => Adds.bind adds_directive.many fun _ =>
      Adds.bind adds_selectionSet fun _ => adds_pure (by rfl)

/-- The scalars of a document that was read are read from its text, one after another. -/
theorem located_scalars {text : String} {d : Document} (h : Document.read text = .ok d) :
    Located d.scalars text.toList [] := by
  have hend : endOfText.Passes := passes_of_suffix fun at_ u next ht => by
    unfold Takes endOfText at ht
    split_ifs at ht
    cases ht
    exact List.suffix_refl _
  have hdocument : document.Adds [] Document.scalars := passes_space.bind fun _ =>
    Adds.bind adds_operation fun _ => Adds.bind adds_operation.many fun _ =>
      passes_space.bind fun _ =>
      hend.bind fun _ => adds_pure (by rfl)
  obtain ⟨next, ht⟩ := read_eq_ok_iff.mp h
  obtain ⟨ws, hws, hlocated⟩ := hdocument (.start text.toList) d next ht
  have hall := hlocated.append (Located.done (List.nil_suffix))
  rw [List.append_nil] at hall
  exact (show d.scalars = ws from hws) ▸ hall

end SqlGateway.Request
