import SqlGateway.Proofs.Request.Spelling

/-!
# Reading tokens

The parsers of the grammar for single tokens read every spelling of a token, whatever tokens stand
behind it, and refuse the other tokens that may stand in its place.
-/
namespace SqlGateway.Request

open Number Text SqlGateway.Request.Parser

variable {ts : List Token} {text s : List Char} {c : Char} {accept : Char → Bool}
  {Q : List Char → Prop}

theorem stops_before (hs : ∀ c ∈ s.head?, accept c = false)
    (hQ : s = [] → ∀ text, Q text → Stops accept text) (h : Before s Q text) :
    Stops accept text := by
  obtain ⟨rest, rfl, hrest⟩ := h
  cases s with
  | nil => exact hQ rfl rest hrest
  | cons c s => exact hs

theorem before_append {t : List Char} (h : Before (s ++ t) Q text) :
    Before s (Before t Q) text := by
  obtain ⟨rest, rfl, hrest⟩ := h
  exact ⟨t ++ rest, List.append_assoc s t rest, rest, rfl, hrest⟩

theorem Facing.before_mark (h : Facing (.mark c :: ts) text) :
    Before [c] (Spaced false ts) text := by
  obtain ⟨_, hspells, hbefore⟩ := h
  cases hspells
  exact hbefore

theorem Facing.before_name {s : String} (h : Facing (.name s :: ts) text) :
    IsName s ∧ Before s.toList (Spaced true ts) text := by
  obtain ⟨_, hspells, hbefore⟩ := h
  cases hspells with
  | name hs => exact ⟨hs, hbefore⟩

theorem Avoids.stops (h : Avoids c ts) (hfacing : Facing ts text) : Stops (· == c) text := by
  refine hfacing.stops fun t ht d hd => ?_
  refine (Bool.not_eq_true _).mp fun heq => ?_
  obtain rfl := beq_iff_eq.mp heq
  rw [h t ht] at hd
  cases hd

theorem reads_symbol (c : Char) :
    (symbol c).Reads (Spaced false (.mark c :: ts)) () (Spaced false ts) :=
  Reads.padded ((reads_char c).weaken (fun _ => Facing.before_mark) fun _ h => h)

theorem refuses_symbol (h : Avoids c ts) : (symbol c).Refuses (Spaced false ts) :=
  Refuses.padded ((refuses_char c).weaken fun _ => h.stops)

theorem reads_word {s : String} (hs : IsName s) :
    name.Reads (Before s.toList (Spaced true ts)) s (Spaced false ts) := by
  obtain ⟨hne, hall⟩ := hs
  refine Reads.bind (reads_run1 hne hall fun _ => Spaced.stops_isNameChar) ?_
  rw [String.ofList_toList]
  exact (reads_pure s _).weaken (fun _ => Spaced.relax) fun _ h => h

theorem reads_name (s : String) : name.Reads (Facing (.name s :: ts)) s (Spaced false ts) := by
  intro at_ h
  obtain ⟨hs, hbefore⟩ := h.before_name
  exact reads_word hs at_ hbefore

theorem reads_reference (s : String) :
    variableUse.Reads (Facing (.reference s :: ts)) (.variable s) (Spaced false ts) := by
  intro at_ h
  obtain ⟨_, hspells, hbefore⟩ := h
  cases hspells with
  | reference hs =>
      refine Reads.bind (reads_char '$') ?_ at_ (before_append (s := ['$']) hbefore)
      exact (reads_word hs).bind (reads_pure _ _)

theorem refuses_reference : variableUse.Refuses (Stops (· == '$')) := (refuses_char '$').bind

theorem reads_type {s : String} (hbegin : Avoids '[' ts) (hend : Avoids ']' ts) :
    (run1 isTypeChar).Reads (Facing (.type s :: ts)) s.toList (Spaced false ts) := by
  intro at_ h
  obtain ⟨_, hspells, hbefore⟩ := h
  cases hspells with
  | type hs =>
      have hread := reads_run1 hs.1 hs.2 fun _ (h : Spaced true ts _) =>
        h.stops_isTypeChar hbegin hend
      exact hread.weaken (fun _ h => h) (fun _ => Spaced.relax) at_ hbefore

theorem isIdentifierPart_of_isNameChar (h : isNameChar c = true) : isIdentifierPart c = true := by
  rw [isIdentifierPart_of_lt (isVisible_of_isNameChar h).2, h]

/-- A name that begins with a letter or an underscore is an identifier. -/
theorem reads_identifier {s : String} (hstart : ∀ c ∈ s.toList.head?, isIdentifierStart c = true) :
    Reads
      (do
        let first ← satisfy isIdentifierStart
        let rest ← run isIdentifierPart
        return first :: rest)
      (Facing (.name s :: ts)) s.toList (Spaced true ts) := by
  intro at_ h
  obtain ⟨⟨hne, hall⟩, hbefore⟩ := h.before_name
  obtain ⟨c, rest, hcons⟩ := List.exists_cons_of_ne_nil hne
  rw [hcons] at hstart hall hbefore ⊢
  obtain ⟨_, hrest⟩ := List.forall_mem_cons.mp hall
  refine Reads.bind (reads_satisfy (hstart c rfl)) ?_ at_ (before_append (s := [c]) hbefore)
  refine Reads.bind (reads_run (fun d hd => isIdentifierPart_of_isNameChar (hrest d hd)) ?_)
    (reads_pure _ _)
  exact fun _ => Spaced.stops_isIdentifierPart

theorem reads_keyword {s : String} (hstart : ∀ c ∈ s.toList.head?, isIdentifierStart c = true) :
    (keyword s).Reads (Facing (.name s :: ts)) () (Spaced false ts) :=
  ((reads_identifier hstart).judged (if_pos rfl)).weaken (fun _ h => h) fun _ => Spaced.relax

theorem refuses_keyword {s spelling : String}
    (hstart : ∀ c ∈ s.toList.head?, isIdentifierStart c = true) (hne : s ≠ spelling) :
    (keyword spelling).Refuses (Facing (.name s :: ts)) :=
  (reads_identifier hstart).refuses_judged (if_neg fun heq => hne (String.toList_inj.mp heq))

theorem refuses_keyword_of_stops (spelling : String) :
    (keyword spelling).Refuses (Stops isIdentifierStart) :=
  Refuses.judged (refuses_satisfy _).bind

theorem quotedBody_escaped {quote : Char} (hquote : quote = '"' ∨ quote = '\'') (s rest : List Char)
    (offset : Nat) : ∃ stop, (quotedBody quote offset (escaped quote s ++ quote :: rest)).2 =
      some (s, ⟨stop, rest⟩) := by
  have hplain : unescaped quote = quote ∧ quote ≠ '\\' := by
    rcases hquote with rfl | rfl <;> decide
  induction s generalizing offset with
  | nil =>
      refine ⟨offset + 1, ?_⟩
      rw [escaped, List.flatMap_nil, List.nil_append]
      simp [quotedBody, hplain.2]
  | cons c s ih =>
      by_cases hc : c = quote ∨ c = '\\'
      · obtain ⟨stop, hstop⟩ := ih (offset + 2)
        have hunescaped : unescaped c = c := by
          rcases hc with rfl | rfl
          · exact hplain.1
          · rfl
        refine ⟨stop, ?_⟩
        rw [escaped, List.flatMap_cons, if_pos hc]
        simp only [escaped] at hstop
        simp [quotedBody, hstop, hunescaped]
      · obtain ⟨stop, hstop⟩ := ih (offset + 1)
        obtain ⟨hquoted, hescape⟩ := not_or.mp hc
        refine ⟨stop, ?_⟩
        rw [escaped, List.flatMap_cons, if_neg hc]
        simp only [escaped] at hstop
        simp [quotedBody, hstop, hquoted, hescape]

theorem reads_quotedIn {quote : Char} (hquote : quote = '"' ∨ quote = '\'') (s : String) :
    (quotedIn quote).Reads (Before (quoted quote s.toList) Q) s Q := by
  intro at_ h
  refine Reads.bind (Q := Before (escaped quote s.toList ++ [quote]) Q) (reads_char quote) ?_ at_
    (before_append (s := [quote]) h)
  rintro ⟨offset, _⟩ ⟨rest, rfl, hrest⟩
  obtain ⟨stop, hstop⟩ := quotedBody_escaped hquote s.toList rest offset
  refine ⟨⟨stop, rest⟩, ?_, hrest⟩
  rw [List.append_assoc, List.singleton_append]
  simp [hstop]

theorem refuses_quotedIn (quote : Char) : (quotedIn quote).Refuses (Stops (· == quote)) :=
  (refuses_char quote).bind

theorem reads_quotedText (s : String) :
    quotedText.Reads (Facing (.text s :: ts)) s (Spaced false ts) := by
  intro at_ h
  obtain ⟨_, hspells, hbefore⟩ := h
  cases hspells with
  | text hquote =>
      rcases hquote with rfl | rfl
      · exact (reads_quotedIn (.inl rfl) s).either_left at_ hbefore
      · refine Reads.either_right ?_ (reads_quotedIn (.inr rfl) s) at_ hbefore
        exact (refuses_quotedIn '"').weaken fun _ =>
          stops_before (by rintro c ⟨⟩; rfl) (fun h => by cases h)

theorem refuses_quotedText : quotedText.Refuses (Stops fun c => c == '"' || c == '\'') := by
  refine Refuses.either ((refuses_quotedIn '"').weaken ?_) ((refuses_quotedIn '\'').weaken ?_)
  · exact fun _ h c hc => (Bool.or_eq_false_iff.mp (h c hc)).1
  · exact fun _ h c hc => (Bool.or_eq_false_iff.mp (h c hc)).2

theorem reads_objectKey (s : String) :
    objectKey.Reads (Spaced false (.text s :: ts)) s (Spaced false ts) :=
  (reads_quotedText s).either_left.padded

section Numbers
variable {fraction : Option (List Char)} {exponent : Option (Bool × List Char)}

theorem Parser.Stops.weaken {accept' : Char → Bool} (h : Stops accept text)
    (hsub : ∀ c, accept' c = true → accept c = true) : Stops accept' text := by
  intro c hc
  refine (Bool.not_eq_true _).mp fun haccept => ?_
  have hnone := h c hc
  rw [hsub c haccept] at hnone
  cases hnone

theorem Parser.Before.of_nil (h : Before [] Q text) : Q text := by
  obtain ⟨rest, rfl, hrest⟩ := h
  exact hrest

theorem reads_digits {ds : List Char} (hds : IsDigits ds)
    (hQ : ∀ text, Q text → Stops isDigit text) : (run1 isDigit).Reads (Before ds Q) ds Q :=
  reads_run1 hds.1 hds.2 hQ

theorem IsDigits.stops {ds : List Char} (hds : IsDigits ds)
    (haccept : ∀ c, isDigit c = true → accept c = false) (h : Before ds Q text) :
    Stops accept text := by
  refine stops_before (fun c hc => ?_) (fun h => absurd h hds.1) h
  exact haccept c (hds.2 c (List.mem_of_mem_head? hc))

theorem reads_fraction (h : FractionText fraction s) (hdigit : ∀ text, Q text → Stops isDigit text)
    (hpoint : ∀ text, Q text → Stops (· == '.') text) :
    (optional fractionDigits).Reads (Before s Q) fraction Q := by
  cases h with
  | none =>
      have hrefuses : fractionDigits.Refuses Q := ((refuses_char '.').weaken hpoint).bind
      exact hrefuses.optional.weaken (fun _ => Before.of_nil) fun _ h => h
  | some hds =>
      refine Reads.optional ((Reads.bind (reads_char '.') (reads_digits hds hdigit)).weaken ?_
        fun _ h => h)
      exact fun _ => before_append (s := ['.'])

def isExponentMark (c : Char) : Bool := c == 'e' || c == 'E'

theorem isExponentMark_of_eq (h : c = 'e' ∨ c = 'E') : isExponentMark c = true := by
  rcases h with rfl | rfl <;> rfl

theorem ne_sign_of_isDigit (h : isDigit c = true) : (c == '+' || c == '-') = false := by
  refine (Bool.not_eq_true _).mp fun hsign => ?_
  rcases Bool.or_eq_true_iff.mp hsign with heq | heq
  · exact absurd (beq_iff_eq.mp heq ▸ h) (by decide)
  · exact absurd (beq_iff_eq.mp heq ▸ h) (by decide)

/-- An exponent after its mark: the sign and the digits. -/
def signedDigits : Parser (Bool × List Char) := do
  let sign ← optional (satisfy fun c => c == '+' || c == '-')
  let digits ← run1 isDigit
  return (sign == some '-', digits)

theorem reads_exponentDigits {e : Char} {value : Bool × List Char} (he : e = 'e' ∨ e = 'E')
    (h : signedDigits.Reads (Before s Q) value Q) :
    exponentDigits.Reads (Before (e :: s) Q) value Q :=
  Reads.weaken (Reads.bind (reads_satisfy (isExponentMark_of_eq he)) h)
    (fun _ => before_append (s := [e])) fun _ h => h

theorem reads_signedDigits {ds : List Char} {sign : Char}
    (hsign : (sign == '+' || sign == '-') = true) (hds : IsDigits ds)
    (hQ : ∀ text, Q text → Stops isDigit text) :
    signedDigits.Reads (Before (sign :: ds) Q) (some sign == some '-', ds) Q :=
  Reads.weaken
    (Reads.bind (reads_satisfy hsign).optional (Reads.bind (reads_digits hds hQ) (reads_pure _ _)))
    (fun _ => before_append (s := [sign])) fun _ h => h

theorem reads_exponent (h : ExponentText exponent s) (hdigit : ∀ text, Q text → Stops isDigit text)
    (hmark : ∀ text, Q text → Stops isExponentMark text) :
    (optional exponentDigits).Reads (Before s Q) exponent Q := by
  cases h with
  | none =>
      have hrefuses : exponentDigits.Refuses Q :=
        ((refuses_satisfy isExponentMark).weaken hmark).bind
      exact hrefuses.optional.weaken (fun _ => Before.of_nil) fun _ h => h
  | @plain e ds he hds =>
      have hnone : (optional (satisfy fun c => c == '+' || c == '-')).Reads (Before ds Q)
          none (Before ds Q) :=
        ((refuses_satisfy _).weaken fun _ => hds.stops fun _ => ne_sign_of_isDigit).optional
      refine (reads_exponentDigits he (Reads.bind hnone ?_)).optional
      exact (reads_digits hds hdigit).bind (reads_pure _ _)
  | plus he hds => exact (reads_exponentDigits he (reads_signedDigits rfl hds hdigit)).optional
  | minus he hds => exact (reads_exponentDigits he (reads_signedDigits rfl hds hdigit)).optional

theorem ExponentText.head (h : ExponentText exponent s) :
    ∀ c ∈ s.head?, isExponentMark c = true := by
  cases h with
  | none => exact fun _ hc => by cases hc
  | plain he _ | plus he _ | minus he _ =>
      rintro c ⟨⟩
      exact isExponentMark_of_eq he

theorem FractionText.head (h : FractionText fraction s) : ∀ c ∈ s.head?, c = '.' := by
  cases h with
  | none => exact fun _ hc => by cases hc
  | some _ => exact fun _ hc => (Option.some.inj hc).symm

theorem isExponentMark_spec (h : isExponentMark c = true) :
    isNameChar c = true ∧ isDigit c = false ∧ (c == '.') = false := by
  rcases Bool.or_eq_true_iff.mp h with heq | heq <;> rw [beq_iff_eq.mp heq] <;> decide

/-- Behind a numeral stands none of the characters that would go on with it. -/
theorem Spaced.stops_numeral (h : Spaced true ts text) :
    Stops isDigit text ∧ Stops (· == '.') text ∧ Stops isExponentMark text := by
  refine ⟨Stops.weaken h.stops_isNameChar fun _ => isNameChar_of_isDigit,
    h.stops (fun c hc => ?_) (by decide),
    Stops.weaken h.stops_isNameChar fun _ hmark => (isExponentMark_spec hmark).1⟩
  exact (Bool.not_eq_true _).mp fun heq => absurd (beq_iff_eq.mp heq ▸ hc) (by decide)

/-- The parts of a numeral are read one after another, up to where its word ends. -/
theorem reads_numeral {n : Numeral} (h : NumeralText n s) :
    numeral.Reads (Before s (Spaced true ts)) n (Spaced true ts) := by
  cases h with | @mk negative whole fraction exponent behind last hwhole hfraction hexponent =>
  have hlast :
      ∀ text, Before last (Spaced true ts) text → Stops isDigit text ∧ Stops (· == '.') text := by
    refine fun text h => ⟨stops_before ?_ (fun _ _ h => h.stops_numeral.1) h,
      stops_before ?_ (fun _ _ h => h.stops_numeral.2.1) h⟩
    · exact fun c hc => (isExponentMark_spec (hexponent.head c hc)).2.1
    · exact fun c hc => (isExponentMark_spec (hexponent.head c hc)).2.2
  have hbehind : ∀ text, Before behind (Before last (Spaced true ts)) text →
      Stops isDigit text := by
    refine fun text => stops_before (fun c hc => ?_) fun _ text h => (hlast text h).1
    rw [hfraction.head c hc]
    decide
  have hparts : ∀ sign : Option Unit, Reads
      (do
        let whole ← run1 isDigit
        let fraction ← optional fractionDigits
        let exponent ← optional exponentDigits
        return ⟨sign.isSome, whole, fraction, exponent⟩)
      (Before (whole ++ (behind ++ last)) (Spaced true ts))
      (⟨sign.isSome, whole, fraction, exponent⟩ : Numeral) (Spaced true ts) := by
    intro sign
    refine Reads.weaken
      (Reads.bind (reads_digits hwhole hbehind) (Reads.bind (reads_fraction hfraction ?_ ?_)
      (Reads.bind (reads_exponent hexponent ?_ ?_) (reads_pure _ _)))) (fun text h => ?_) fun _ h =>
        h
    · exact fun text h => (hlast text h).1
    · exact fun text h => (hlast text h).2
    · exact fun text h => h.stops_numeral.1
    · exact fun text h => h.stops_numeral.2.2
    · obtain ⟨rest, rfl, hrest⟩ := before_append h
      exact ⟨rest, rfl, before_append hrest⟩
  cases negative with
  | true =>
      exact Reads.weaken (Reads.bind (reads_char '-').optional (hparts (some ())))
        (fun _ => before_append (s := ['-'])) fun _ h => h
  | false =>
      refine Reads.bind (Refuses.optional ((refuses_char '-').weaken fun _ h => ?_)) (hparts none)
      refine hwhole.stops (fun c hc => ?_) (before_append h)
      exact (Bool.or_eq_false_iff.mp (ne_sign_of_isDigit hc)).2

theorem refuses_number : number.Refuses (Stops fun c => isDigit c || c == '-') := by
  have hsign :
      (optional (char '-')).Reads (Stops fun c => isDigit c || c == '-') none (Stops isDigit) := by
    refine ((Refuses.optional ((refuses_char '-').weaken fun _ h => ?_)).weaken (fun _ h => h)
      fun _ h => ?_)
    · exact Stops.weaken h fun c hc => by simp [hc]
    · exact Stops.weaken h fun c hc => by simp [hc]
  exact Refuses.judged (hsign.refuses_bind (refuses_run1 isDigit).bind)

theorem reads_number_float (x : Binary64) :
    number.Reads (Facing (.float x :: ts)) (.float x) (Spaced false ts) := by
  intro at_ h
  obtain ⟨_, hspells, hbefore⟩ := h
  cases hspells with
  | float htext hvalue =>
      exact ((reads_numeral htext).judged hvalue).weaken (fun _ h => h)
        (fun _ => Spaced.relax) at_ hbefore

/-- The numeral of an integer. -/
def intNumeral (n : Int) : Numeral := ⟨decide (n < 0), decimalDigits n.natAbs, none, none⟩

theorem numeralText_toString (n : Int) : NumeralText (intNumeral n) (toString n).toList := by
  have h : NumeralText ⟨decide (n < 0), _, _, _⟩ _ :=
    .mk (isDigits_decimalDigits n.natAbs) .none .none
  rw [List.append_nil, List.append_nil] at h
  rw [toList_toString]
  exact h

theorem signed_natAbs (n : Int) :
    (if decide (n < 0) = true then -(n.natAbs : Int) else n.natAbs) = n := by
  split
  · next h =>
      have hnegative := of_decide_eq_true h
      omega
  · next h =>
      rw [decide_eq_true_eq] at h
      omega

theorem value?_intNumeral {n : Int} (h : fitsInt64 n = true) :
    (intNumeral n).value? = some (.int n) := by
  simp only [intNumeral, Numeral.value?, digitsValue_decimalDigits, signed_natAbs, h, if_true]

theorem reads_number_int (n : Int) :
    number.Reads (Facing (.int n :: ts)) (.int n) (Spaced false ts) := by
  intro at_ h
  obtain ⟨_, hspells, hbefore⟩ := h
  cases hspells with
  | int hfits =>
      exact ((reads_numeral (numeralText_toString n)).judged (value?_intNumeral hfits)).weaken
        (fun _ h => h) (fun _ => Spaced.relax) at_ hbefore

end Numbers

end SqlGateway.Request
