import SqlGateway.Proofs.Except
import SqlGateway.Proofs.Number.Rounding
import SqlGateway.Proofs.Request.Places

/-!
# Numerals in documents

A numeral in the place of a value is read as its number: as an integer, or with a fraction or an
exponent as the nearest floating-point number. There is one exception on either side. A whole number
too great for 64 bits is read as a word, since words may consist of digits, and a number beyond all
floating-point ones becomes null.
-/
namespace SqlGateway.Request

open Number Text SqlGateway.Request.Parser

section Numerals
variable {n m : Numeral} {at_ next : Cursor} {s t text : List Char} {c : Char}

/-- The characters of a numeral say which one it is. -/
theorem NumeralText.unique (hm : NumeralText m s) (hn : NumeralText n s) : m = n := by
  have hbefore : Before s (Spaced true []) s := ⟨[], (List.append_nil s).symm, .nil .nil⟩
  obtain ⟨_, hm, _⟩ := reads_numeral hm ⟨0, s⟩ hbefore
  obtain ⟨_, hn, _⟩ := reads_numeral hn ⟨0, s⟩ hbefore
  cases hm.symm.trans hn
  rfl

theorem takes_sign {o : Option Unit} (h : (optional (char '-')).Takes at_ o next) :
    at_.rest = signed o.isSome next.rest := by
  rcases takes_optional h with ⟨_, rfl, hchar⟩ | ⟨rfl, rfl, _⟩
  · exact takes_char hchar
  · rfl

theorem takes_digits (h : (run1 isDigit).Takes at_ s next) :
    IsDigits s ∧ at_.rest = s ++ next.rest ∧ Stops isDigit next.rest := by
  obtain ⟨hne, hall, hstops, hrest⟩ := takes_run1 h
  exact ⟨⟨hne, hall⟩, hrest, hstops⟩

theorem takes_fraction {fraction : Option (List Char)}
    (h : (optional fractionDigits).Takes at_ fraction next) :
    (∃ s, FractionText fraction s ∧ at_.rest = s ++ next.rest) ∧
    (fraction = none → next = at_) := by
  rcases takes_optional h with ⟨ds, rfl, hsome⟩ | ⟨rfl, rfl, _⟩
  · obtain ⟨_, middle, hpoint, hdigits⟩ := takes_bind hsome
    obtain ⟨hds, hrest, _⟩ := takes_digits hdigits
    refine ⟨⟨_, .some hds, ?_⟩, fun h => by cases h⟩
    rw [takes_char hpoint, hrest, List.cons_append]
  · exact ⟨⟨[], .none, rfl⟩, fun _ => rfl⟩

theorem takes_exponentDigits {exponent : Bool × List Char}
    (h : exponentDigits.Takes at_ exponent next) :
    ∃ s, ExponentText (some exponent) s ∧ at_.rest = s ++ next.rest := by
  obtain ⟨e, behind, hmark, h⟩ := takes_bind h
  obtain ⟨sign, start, hsign, h⟩ := takes_bind h
  obtain ⟨ds, stop, hdigits, h⟩ := takes_bind h
  obtain ⟨rfl, rfl⟩ := takes_pure h
  obtain ⟨hmark, hrest⟩ := takes_satisfy hmark
  have he : e = 'e' ∨ e = 'E' := by simpa using hmark
  obtain ⟨hds, hdigitsRest, _⟩ := takes_digits hdigits
  rcases takes_optional hsign with ⟨c, rfl, hc⟩ | ⟨rfl, rfl, _⟩
  · obtain ⟨hc, hsignRest⟩ := takes_satisfy hc
    have hc : c = '+' ∨ c = '-' := by simpa using hc
    rw [hrest, hsignRest, hdigitsRest]
    rcases hc with rfl | rfl
    · exact ⟨_, .plus he hds, rfl⟩
    · exact ⟨_, .minus he hds, rfl⟩
  · rw [hrest, hdigitsRest]
    exact ⟨_, .plain he hds, rfl⟩

theorem takes_exponent {exponent : Option (Bool × List Char)}
    (h : (optional exponentDigits).Takes at_ exponent next) :
    (∃ s, ExponentText exponent s ∧ at_.rest = s ++ next.rest) ∧
      (exponent = none → next = at_ ∧ (exponentDigits at_).result = none) := by
  rcases takes_optional h with ⟨value, rfl, hsome⟩ | ⟨rfl, rfl, hnone⟩
  · exact ⟨takes_exponentDigits hsome, fun h => by cases h⟩
  · exact ⟨⟨[], .none, rfl⟩, fun _ => ⟨rfl, hnone⟩⟩

/-- What is read as a numeral is written as one. Behind a whole one there is no more digit, and no
exponent. -/
theorem takes_numeral (h : numeral.Takes at_ n next) :
    ∃ s, NumeralText n s ∧ at_.rest = s ++ next.rest ∧ (n.fraction = none → n.exponent = none →
      Stops isDigit next.rest ∧ (exponentDigits next).result = none) := by
  obtain ⟨sign, start, hsign, h⟩ := takes_bind h
  obtain ⟨whole, point, hwhole, h⟩ := takes_bind h
  obtain ⟨fraction, mark, hfraction, h⟩ := takes_bind h
  obtain ⟨exponent, stop, hexponent, h⟩ := takes_bind h
  obtain ⟨rfl, rfl⟩ := takes_pure h
  obtain ⟨hds, hwholeRest, hstops⟩ := takes_digits hwhole
  obtain ⟨⟨behind, hbehind, hbehindRest⟩, hpoint⟩ := takes_fraction hfraction
  obtain ⟨⟨last, hlast, hlastRest⟩, hmark⟩ := takes_exponent hexponent
  refine ⟨_, .mk hds hbehind hlast, ?_, fun hnone hlastNone => ?_⟩
  · rw [takes_sign hsign, hwholeRest, hbehindRest, hlastRest]
    cases sign <;> simp [signed]
  · obtain ⟨rfl, hrefuses⟩ := hmark hlastNone
    obtain rfl := hpoint hnone
    exact ⟨hstops, hrefuses⟩

/-- From a text that begins with a numeral some numeral is read. -/
theorem exists_takes_numeral (hs : NumeralText n s) (hrest : at_.rest = s ++ t) :
    ∃ m next, numeral.Takes at_ m next := by
  obtain @⟨negative, whole, fraction, exponent, behind, last, ⟨hne, hall⟩, _, _⟩ := hs
  obtain ⟨c, more, rfl⟩ := List.exists_cons_of_ne_nil hne
  have hc : isDigit c = true := hall c List.mem_cons_self
  have hsign : ∃ sign start, (optional (char '-')).Takes at_ sign start ∧
      start.rest = c :: (more ++ (behind ++ last) ++ t) := by
    cases negative with
    | true =>
        obtain ⟨start, hsign, hstart⟩ := (reads_char '-').optional at_ ⟨_, hrest, rfl⟩
        exact ⟨_, start, hsign, hstart.symm⟩
    | false =>
        have hstops : Stops (· == '-') at_.rest := by
          rw [hrest]
          rintro d ⟨⟩
          exact (Bool.or_eq_false_iff.mp (ne_sign_of_isDigit hc)).2
        have hnone : (char '-').Refuses (· = at_.rest) := (refuses_char '-').weaken fun _ h =>
          h ▸ hstops
        obtain ⟨start, hsign, hstart⟩ := hnone.optional at_ rfl
        exact ⟨_, start, hsign, hstart.trans hrest⟩
  obtain ⟨sign, start, hsign, hstart⟩ := hsign
  obtain ⟨ds, point, hwhole⟩ := exists_takes_run1 ⟨c, by rw [hstart]; rfl, hc⟩
  obtain ⟨fractionRead, mark, hfraction⟩ := exists_takes_optional fractionDigits point
  obtain ⟨exponentRead, stop, hexponent⟩ := exists_takes_optional exponentDigits mark
  exact ⟨_, _, hsign.bind (hwhole.bind (hfraction.bind (hexponent.bind rfl)))⟩

/-- The characters that no gap begins with. -/
def isSolid (c : Char) : Bool := !(isBlank c || c == '#')

theorem isSolid_of_isNameChar (h : isNameChar c = true) : isSolid c = true := by
  have hplain : c ≠ '#' := by
    rintro rfl
    exact absurd h (by decide)
  simp [isSolid, (isVisible_of_isNameChar h).isBlank_eq_false, hplain]

theorem NumeralText.isSolid (h : NumeralText n s) : ∀ c ∈ s, isSolid c = true := by
  have hdigits : ∀ {ds}, IsDigits ds → ∀ c ∈ ds, Request.isSolid c = true :=
    fun hds c hc => isSolid_of_isNameChar (isNameChar_of_isDigit (hds.2 c hc))
  have hmarks : ∀ c ∈ ['-', '.', '+', 'e', 'E'], Request.isSolid c = true := by decide
  simp only [List.forall_mem_cons] at hmarks
  obtain ⟨hminus, hpoint, hplus, he, hE, _⟩ := hmarks
  have hexponent : ∀ {e}, e = 'e' ∨ e = 'E' → Request.isSolid e = true := by
    rintro e (rfl | rfl)
    · exact he
    · exact hE
  obtain @⟨negative, whole, fraction, exponent, behind, last, hwhole, hfraction, hlast⟩ := h
  have hunsigned : ∀ c ∈ whole ++ (behind ++ last), Request.isSolid c = true := by
    refine List.forall_mem_append.mpr ⟨hdigits hwhole, List.forall_mem_append.mpr ⟨?_, ?_⟩⟩
    · cases hfraction with
      | none => exact List.forall_mem_nil _
      | some hds => exact List.forall_mem_cons.mpr ⟨hpoint, hdigits hds⟩
    · cases hlast with
      | none => exact List.forall_mem_nil _
      | plain hmark hds => exact List.forall_mem_cons.mpr ⟨hexponent hmark, hdigits hds⟩
      | plus hmark hds =>
          exact List.forall_mem_cons.mpr
            ⟨hexponent hmark, List.forall_mem_cons.mpr ⟨hplus, hdigits hds⟩⟩
      | minus hmark hds =>
          exact List.forall_mem_cons.mpr
            ⟨hexponent hmark, List.forall_mem_cons.mpr ⟨hminus, hdigits hds⟩⟩
  cases negative with
  | false => exact hunsigned
  | true => exact List.forall_mem_cons.mpr ⟨hminus, hunsigned⟩

theorem Gap.stops_isSolid {gap : List Char} (h : Gap gap) : Stops isSolid gap := by
  intro c hc
  rcases h.head hc with hblank | rfl
  · simp [isSolid, hblank]
  · decide

/-- Solid characters before a gap are told from it. -/
theorem eq_of_append_gap {g g' : List Char} (hs : ∀ c ∈ s, isSolid c = true)
    (ht : ∀ c ∈ t, isSolid c = true) (hg : Stops isSolid g) (hg' : Stops isSolid g')
    (h : s ++ g = t ++ g') : s = t := by
  rw [← (takeWhile_of_stops hs hg).1, h, (takeWhile_of_stops ht hg').1]

theorem skipSpace_solid (hc : isSolid c = true) (offset : Nat) (rest : List Char) :
    skipSpace false offset (c :: rest) = ⟨offset, c :: rest⟩ := by
  obtain ⟨hblank, hplain⟩ : isBlank c = false ∧ (c == '#') = false := by
    simpa [isSolid] using hc
  rw [skipSpace, hblank, hplain]
  rfl

theorem exists_gap (offset : Nat) (text : List Char) :
    ∃ gap, text = gap ++ (skipSpace false offset text).rest ∧ Stops isSolid gap := by
  obtain ⟨gap, hgap⟩ := skipSpace_suffix false offset text
  refine ⟨gap, hgap.symm, fun c hc => (Bool.not_eq_true _).mp fun hsolid => ?_⟩
  obtain ⟨more, rfl⟩ := List.head?_eq_some_iff.mp hc
  obtain ⟨rest, rfl⟩ : ∃ rest, text = c :: rest := ⟨_, hgap.symm⟩
  rw [skipSpace_solid hsolid] at hgap
  have hlength := congrArg List.length hgap
  simp only [List.length_cons, List.length_append] at hlength
  omega

/-- What is read at a place is a numeral, with gaps around it. -/
def Written (s text after : List Char) : Prop :=
  ∃ gap gap', Gap gap ∧ Gap gap' ∧ text = gap ++ (s ++ (gap' ++ after))

theorem isIdentifierStart_of_isDigit (h : (isDigit c || c == '-') = true) :
    isIdentifierStart c = false := by
  rcases Bool.or_eq_true_iff.mp h with hdigit | hminus
  · have hrange : 48 ≤ c.toNat ∧ c.toNat ≤ 57 := by
      simpa [isDigit, Char.le_def, UInt32.le_iff_toNat_le] using hdigit
    have hupper : ¬ 65 ≤ c.val := Nat.not_le.mpr (lt_of_le_of_lt hrange.2 (by decide))
    have hlower : ¬ 97 ≤ c.val := Nat.not_le.mpr (lt_of_le_of_lt hrange.2 (by decide))
    have hletter : c.isAlpha = false := by
      delta Char.isAlpha Char.isUpper Char.isLower
      simp [hupper, hlower]
    have hunderscore : (c == '_') = false := by
      refine beq_eq_false_iff_ne.mpr ?_
      rintro rfl
      exact absurd hdigit (by decide)
    rw [isIdentifierStart, if_pos (by omega), hletter, hunderscore]
    rfl
  · rw [beq_iff_eq.mp hminus]
    decide

theorem NumeralText.exists_cons (h : NumeralText n s) :
    ∃ c rest, s = c :: rest ∧ (isDigit c || c == '-') = true := by
  obtain @⟨negative, whole, fraction, exponent, behind, last, ⟨hne, hall⟩, _, _⟩ := h
  obtain ⟨c, more, rfl⟩ := List.exists_cons_of_ne_nil hne
  cases negative with
  | true => exact ⟨'-', _, rfl, rfl⟩
  | false => exact ⟨c, _, rfl, by rw [hall c List.mem_cons_self]; rfl⟩

theorem not_takes_between {α : Type} {p : Parser α} {left right : Char} {a : α}
    (hc : c ∈ at_.rest.head?) (hsolid : isSolid c = true) (hne : c ≠ left) :
    ¬ (between left right p).Takes at_ a next := by
  intro ht
  obtain ⟨_, _, hleft, _⟩ := takes_bind ht
  obtain ⟨stop, hleft, _⟩ := takes_padded hleft
  obtain ⟨rest, hrest⟩ := List.head?_eq_some_iff.mp hc
  rw [hrest, skipSpace_solid hsolid] at hleft
  exact hne (List.cons.inj (takes_char hleft)).1

/-- A word that does not begin as an identifier does is a text. -/
theorem takes_word {v : Value} (h : word.Takes at_ v next) (hc : c ∈ at_.rest.head?)
    (hstart : isIdentifierStart c = false) :
    ∃ s, v = .text (String.ofList s) ∧ (∀ c ∈ s, isNameChar c = true) ∧ Stops isNameChar next.rest ∧
      at_.rest = s ++ next.rest := by
  have hkeyword :
      ∀ {spelling : String} {w : Value}, ¬ (keywordValue spelling w).Takes at_ v next := by
    intro spelling w ht
    obtain ⟨_, _, ht, _⟩ := takes_bind ht
    obtain ⟨_, ht, _⟩ := takes_judged ht
    obtain ⟨d, _, ht, _⟩ := takes_bind ht
    obtain ⟨hd, hrest⟩ := takes_satisfy ht
    rw [hrest] at hc
    obtain rfl := Option.some.inj hc
    exact Bool.false_ne_true (hstart.symm.trans hd)
  obtain ⟨p, hmem, hp⟩ := takes_firstOf h
  simp only [List.mem_cons, List.not_mem_nil, or_false] at hmem
  rcases hmem with rfl | rfl | rfl | rfl
  · exact absurd hp hkeyword
  · exact absurd hp hkeyword
  · exact absurd hp hkeyword
  · obtain ⟨name, middle, hname, hp⟩ := takes_bind hp
    obtain ⟨rfl, rfl⟩ := takes_pure hp
    obtain ⟨s, stop, hs, hname⟩ := takes_bind hname
    obtain ⟨rfl, rfl⟩ := takes_pure hname
    obtain ⟨_, hall, hstops, hrest⟩ := takes_run1 hs
    exact ⟨s, rfl, hall, hstops, hrest⟩

/-- A numeral that is a name has neither a sign nor a fraction. -/
theorem NumeralText.plain_of_isNameChar (hn : NumeralText n s)
    (hname : ∀ c ∈ s, isNameChar c = true) : n.negative = false ∧ n.fraction = none := by
  have hsigns : ∀ c ∈ ['-', '.'], isNameChar c = false := by decide
  simp only [List.forall_mem_cons] at hsigns
  obtain ⟨hminus, hpoint, _⟩ := hsigns
  obtain @⟨negative, whole, fraction, exponent, behind, last, _, hfraction, _⟩ := hn
  constructor
  · cases negative with
    | false => rfl
    | true => exact absurd (hname '-' List.mem_cons_self) (by rw [hminus]; decide)
  · cases hfraction with
    | none => rfl
    | some _ =>
        exact absurd (hname '.' (by cases negative <;> simp [signed])) (by rw [hpoint]; decide)

/-- A numeral of which some whole numeral is read is that one, if all of its characters are those of
a name. -/
theorem eq_of_takes_whole (hn : NumeralText n s) (hname : ∀ c ∈ s, isNameChar c = true)
    (ht : Stops isNameChar t) (hrest : at_.rest = s ++ t) (hm : numeral.Takes at_ m next)
    (hwhole : m.fraction = none ∧ m.exponent = none) : m = n ∧ n.negative = false := by
  obtain ⟨s', hs', hsplit, hbehind⟩ := takes_numeral hm
  obtain ⟨hstops, hrefuses⟩ := hbehind hwhole.1 hwhole.2
  obtain ⟨hunsigned, hnone⟩ := hn.plain_of_isNameChar hname
  obtain @⟨negative, whole, fraction, exponent, behind, last, hds, hfraction, hlast⟩ := hn
  obtain rfl : negative = false := hunsigned
  obtain rfl : fraction = none := hnone
  cases hfraction
  obtain @⟨negative', whole', fraction', exponent', behind', last', hds', hfraction', hlast'⟩ := hs'
  obtain ⟨rfl, rfl⟩ := hwhole
  cases hfraction'
  cases hlast'
  obtain rfl : negative' = false := by
    refine (Bool.not_eq_true _).mp fun h => ?_
    subst h
    obtain ⟨c, more, rfl⟩ := List.exists_cons_of_ne_nil hds.1
    have hhead := (List.cons.inj (hsplit.symm.trans hrest)).1
    exact absurd (hhead ▸ hds.2 c List.mem_cons_self) (by decide)
  have htail : Stops isDigit (last ++ t) := by
    refine stops_before (s := last) (Q := (· = t)) (fun c hc => ?_) (fun _ text htext => ?_)
      ⟨t, rfl, rfl⟩
    · exact (isExponentMark_spec (hlast.head c hc)).2.1
    · exact htext ▸ ht.weaken fun _ => isNameChar_of_isDigit
  have hboth : whole' ++ next.rest = whole ++ (last ++ t) := by
    have h := hsplit.symm.trans hrest
    simpa [signed] using h
  have hfirst := takeWhile_of_stops hds'.2 hstops
  have hsecond := takeWhile_of_stops hds.2 htail
  rw [hboth] at hfirst
  obtain rfl : whole = whole' := hsecond.1.symm.trans hfirst.1
  have hnext : next.rest = last ++ t := hfirst.2.symm.trans hsecond.2
  -- An exponent would have been read.
  have hexponent :=
    reads_exponent hlast (Q := (· = t)) (fun _ h => h ▸ ht.weaken fun _ => isNameChar_of_isDigit)
    (fun _ h => h ▸ ht.weaken fun _ hmark => (isExponentMark_spec hmark).1) next ⟨t, hnext, rfl⟩
  obtain ⟨stop, hexponent, _⟩ := hexponent
  rcases takes_optional hexponent with ⟨_, _, htakes⟩ | ⟨rfl, _, _⟩
  · cases hrefuses.symm.trans htakes
  · exact ⟨rfl, rfl⟩

theorem isWhole_of_value?_eq_none (h : n.value? = none) :
    n.fraction = none ∧ n.exponent = none := by
  unfold Numeral.value? at h
  split at h
  · exact ⟨‹_›, ‹_›⟩
  · cases h

/-- From a text that begins as a numeral does a value is read as a number. If there is none, it is a
word. -/
theorem number_or_word {v : Value} {depth : Nat} (hhead : c ∈ at_.rest.head?)
    (hc : (isDigit c || c == '-') = true) (hsolid : isSolid c = true)
    (h : (firstOf [variableUse, textValue, number, word, listOf (valueWithin depth),
      objectOf (valueWithin depth)]).Takes at_ v next) :
    number.Takes at_ v next ∨ (number at_).result = none ∧ word.Takes at_ v next := by
  have hother : ∀ d ∈ ['$', '"', '\'', '[', '\x7b'], c ≠ d := by
    have hall : ∀ d ∈ ['$', '"', '\'', '[', '\x7b'], (isDigit d || d == '-') = false := by decide
    rintro d hd rfl
    exact Bool.false_ne_true ((hall c hd).symm.trans hc)
  simp only [List.forall_mem_cons] at hother
  obtain ⟨hreference, hdouble, hsingle, hlist, hobject, _⟩ := hother
  have hstops : ∀ {accept : Char → Bool}, accept c = false → Stops accept at_.rest := by
    intro accept haccept d hd
    obtain rfl := Option.some.inj (hhead.symm.trans hd)
    exact haccept
  have hbefore : ∀ p ∈ [variableUse, textValue], (p at_).result = none := by
    simp only [List.forall_mem_cons]
    exact ⟨refuses_reference at_ (hstops (by simp [hreference])),
      refuses_textValue at_ (hstops (by simp [hdouble, hsingle])), List.forall_mem_nil _⟩
  refine (takes_either (takes_firstOf_append hbefore h)).imp id fun ⟨hnone, hlater⟩ => ⟨hnone, ?_⟩
  obtain ⟨p, hmem, hp⟩ := takes_firstOf hlater
  simp only [List.mem_cons, List.not_mem_nil, or_false] at hmem
  rcases hmem with rfl | rfl | rfl
  · exact hp
  · obtain ⟨_, _, hp, _⟩ := takes_bind hp
    exact absurd hp (not_takes_between hhead hsolid hlist)
  · obtain ⟨_, _, hp, _⟩ := takes_bind hp
    exact absurd hp (not_takes_between hhead hsolid hobject)

/-- A value that is written as a numeral is the value of the numeral. If there is none, it is a
text, and the numeral has no sign. -/
theorem value_of_written {v : Value} {after : List Char} (hread : IsReadFrom v text after)
    (hn : NumeralText n s) (hs : Written s text after) :
    n.value? = some v ∨ n.value? = none ∧ n.negative = false ∧ v = .text (String.ofList s) := by
  obtain ⟨depth, at_, next, ht, rfl, rfl⟩ := hread
  obtain ⟨gap, gap', hgap, hgap', htext⟩ := hs
  obtain ⟨c, more, hcons, hc⟩ := hn.exists_cons
  have hsolid : isSolid c = true := hn.isSolid c (hcons ▸ List.mem_cons_self)
  cases depth with
  | zero => cases ht
  | succ depth =>
      obtain ⟨stop, hinner, hnext⟩ := takes_padded ht
      obtain ⟨behind, hbehind, hstops⟩ := exists_gap stop.offset stop.rest
      rw [← hnext] at hbehind
      have hstart : (skipSpace false at_.offset at_.rest).rest = s ++ (gap' ++ next.rest) := by
        rw [htext, skipSpace_gap hgap, hcons, List.cons_append, skipSpace_solid hsolid]
      generalize skipSpace false at_.offset at_.rest = start at hinner hstart
      have hhead : c ∈ start.rest.head? := by rw [hstart, hcons]; rfl
      -- Whatever was read of solid characters is the whole numeral.
      have hwhole : ∀ {w}, (∀ c ∈ w, isSolid c = true) → start.rest = w ++ stop.rest → w = s := by
        intro w hw hrest
        have hboth : (w ++ behind) ++ next.rest = (s ++ gap') ++ next.rest := by
          rw [List.append_assoc, List.append_assoc, ← hbehind, ← hrest, hstart]
        exact eq_of_append_gap hw hn.isSolid hstops hgap'.stops_isSolid
          (List.append_cancel_right hboth)
      rcases number_or_word hhead hc hsolid hinner with hnumber | ⟨hnone, hword⟩
      · obtain ⟨m, hm, hvalue⟩ := takes_judged hnumber
        obtain ⟨w, hw, hrest, _⟩ := takes_numeral hm
        obtain rfl := hwhole hw.isSolid hrest
        exact .inl (hn.unique hw ▸ hvalue)
      · obtain ⟨m, stop', hm⟩ := exists_takes_numeral hn hstart
        have hvalue : m.value? = none := eq_none_of_judged hnone hm
        obtain ⟨w, rfl, hname, hnameStops, hrest⟩ :=
          takes_word hword hhead (isIdentifierStart_of_isDigit hc)
        obtain rfl := hwhole (fun c hc => isSolid_of_isNameChar (hname c hc)) hrest
        obtain ⟨rfl, hunsigned⟩ :=
          eq_of_takes_whole hn hname hnameStops hrest hm (isWhole_of_value?_eq_none hvalue)
        exact .inr ⟨hvalue, hunsigned, rfl⟩

end Numerals

namespace Numeral
variable {n : Numeral} {v : Value}

/-- A numeral without a fraction and without an exponent. -/
def IsWhole (n : Numeral) : Prop := n.fraction = none ∧ n.exponent = none

def digits (n : Numeral) : List Char := n.whole ++ n.fraction.getD []

/-- The power of ten that the last digit counts. -/
def power (n : Numeral) : Int :=
  (match n.exponent with
    | none => 0
    | some (negative, digits) =>
        if negative then -(digitsValue digits : Int) else digitsValue digits) -
    (n.fraction.getD []).length

def magnitude (n : Numeral) : ℚ := digitsValue n.digits * 10 ^ n.power

/-- The number that a numeral writes. -/
def rational (n : Numeral) : ℚ := signedRat n.negative n.magnitude

/-- There is an integer of 64 bits for a whole numeral, and for the others a floating-point number
that is near. -/
def InRange (n : Numeral) : Prop :=
  (n.IsWhole → leastInt64 ≤ n.rational ∧ n.rational ≤ greatestInt64) ∧
    (¬ n.IsWhole → n.magnitude < overflow)

/-- A value is the number of a numeral, and it stands for this number in JSON: the number itself if
it is whole, else the nearest floating-point number. -/
inductive IsNumber (n : Numeral) : Value → Json → Prop
  | int {i : Int} : n.IsWhole → (i : ℚ) = n.rational → n.IsNumber (.int i) (.int i)
  | float {s e} : ¬ n.IsWhole → IsNearest n.rational n.negative s e →
      n.IsNumber (.float (.finite n.negative s e)) (.float (.finite n.negative s e))

theorem value?_of_not_isWhole (h : ¬ n.IsWhole) :
    n.value? = some (.float (.ofDecimal n.negative (digitsValue n.digits) n.power)) := by
  obtain ⟨negative, whole, fraction, exponent⟩ := n
  cases fraction with
  | some _ => cases exponent <;> rfl
  | none =>
      cases exponent with
      | some _ => rfl
      | none => exact absurd ⟨rfl, rfl⟩ h

theorem value?_of_isWhole (h : n.IsWhole) :
    ∃ i : Int, (i : ℚ) = n.rational ∧ n.value? = if fitsInt64 i then some (.int i) else none := by
  obtain ⟨negative, whole, fraction, exponent⟩ := n
  obtain ⟨rfl, rfl⟩ : fraction = none ∧ exponent = none := h
  refine ⟨if negative then -(digitsValue whole : Int) else digitsValue whole, ?_, rfl⟩
  have hmagnitude : magnitude ⟨negative, whole, none, none⟩ = digitsValue whole := by
    simp [magnitude, digits, power]
  rw [rational, hmagnitude]
  cases negative <;> simp [signedRat]

theorem inRange_of_isWhole (h : n.IsWhole) {i : Int} (hi : (i : ℚ) = n.rational) :
    n.InRange ↔ fitsInt64 i = true := by
  have hbounds : (leastInt64 ≤ n.rational ∧ n.rational ≤ greatestInt64) ↔ fitsInt64 i = true := by
    rw [← hi, fitsInt64, Bool.and_eq_true, decide_eq_true_eq, decide_eq_true_eq]
    exact_mod_cast Iff.rfl
  exact ⟨fun hrange => hbounds.mp (hrange.1 h), fun hfits =>
    ⟨fun _ => hbounds.mpr hfits, fun hnot => absurd h hnot⟩⟩

theorem inRange_of_not_isWhole (h : ¬ n.IsWhole) : n.InRange ↔ n.magnitude < overflow :=
  ⟨fun hrange => hrange.2 h, fun hless => ⟨fun hwhole => absurd hwhole h, fun _ => hless⟩⟩

/-- The value of a numeral in range is its number. -/
theorem isNumber_of_value? (hrange : n.InRange) (h : n.value? = some v) :
    ∃ number, n.IsNumber v number ∧ ∀ vars, v.resolve vars = some number := by
  by_cases hwhole : n.IsWhole
  · obtain ⟨i, hi, hvalue⟩ := value?_of_isWhole hwhole
    rw [h, if_pos ((inRange_of_isWhole hwhole hi).mp hrange)] at hvalue
    obtain rfl := Option.some.inj hvalue
    exact ⟨_, .int hwhole hi, fun _ => rfl⟩
  · obtain ⟨s, e, hfinite, hnear⟩ := (ofDecimal_nearest n.negative (digitsValue n.digits) n.power).1
      ((inRange_of_not_isWhole hwhole).mp hrange)
    rw [value?_of_not_isWhole hwhole, hfinite] at h
    obtain rfl := Option.some.inj h
    exact ⟨_, .float hwhole hnear, fun _ => rfl⟩

end Numeral

/-- The scalars of a document are read from its text one after another. One that is written as a
numeral is the number of the numeral just if the numeral is in range. Beyond the integers of 64 bits
it is the text of the digits, and beyond the floating-point numbers it stands for null. -/
theorem written_number_iff {text : String} {d : Document} (h : Document.read text = .ok d) :
    Located d.scalars text.toList [] ∧
      ∀ {v place after}, IsReadFrom v place after → ∀ {n s}, NumeralText n s →
      Written s place after →
        (n.InRange ↔ ∃ number, n.IsNumber v number ∧ ∀ vars, v.resolve vars = some number) ∧
          (¬ n.InRange → n.IsWhole → n.negative = false ∧ v = .text (String.ofList s)) ∧
          (¬ n.InRange → ¬ n.IsWhole → ∀ vars, v.resolve vars = some .null) := by
  refine ⟨located_scalars h, fun {v _ _} hread {n s} hn hs => ?_⟩
  have hvalue := value_of_written hread hn hs
  have hwhole : ¬ n.InRange → n.IsWhole → n.negative = false ∧ v = .text (String.ofList s) := by
    intro hrange hwhole
    obtain ⟨i, hi, hcases⟩ := Numeral.value?_of_isWhole hwhole
    rw [if_neg (mt (Numeral.inRange_of_isWhole hwhole hi).mpr hrange)] at hcases
    exact (hvalue.resolve_left (by rw [hcases]; exact Option.some_ne_none v ∘ Eq.symm)).2
  have hinfinite : ¬ n.InRange → ¬ n.IsWhole → ∀ vars, v.resolve vars = some .null := by
    intro hrange hwhole vars
    have hover := not_lt.mp (mt (Numeral.inRange_of_not_isWhole hwhole).mpr hrange)
    have hcases := Numeral.value?_of_not_isWhole hwhole
    rw [(ofDecimal_nearest _ _ _).2 hover] at hcases
    rw [hcases] at hvalue
    rcases hvalue with hv | ⟨hv, _⟩
    · cases hv
      rfl
    · cases hv
  refine ⟨⟨fun hrange => ?_, fun ⟨number, hnumber, hresolve⟩ => ?_⟩, hwhole, hinfinite⟩
  · refine Numeral.isNumber_of_value? hrange (hvalue.resolve_right fun ⟨hnone, _⟩ => ?_)
    have hiswhole : n.IsWhole := isWhole_of_value?_eq_none hnone
    obtain ⟨i, hi, hcases⟩ := Numeral.value?_of_isWhole hiswhole
    rw [hnone, if_pos ((Numeral.inRange_of_isWhole hiswhole hi).mp hrange)] at hcases
    cases hcases
  · by_contra hrange
    cases hnumber with
    | int hiswhole _ => cases (hwhole hrange hiswhole).2
    | float hnot _ => cases (hresolve []).symm.trans (hinfinite hrange hnot [])

theorem written_number_iff_fraction :
    let place := " 25e-1) \x7b id \x7d \x7d".toList
    let after := ") \x7b id \x7d \x7d".toList
    let v : Value := .float (.ofDecimal false 25 (-1))
    let n : Numeral := ⟨false, ['2', '5'], none, some (true, ['1'])⟩
    ∃ d, Document.read "{ users(limit: 25e-1) { id } }" = .ok d ∧ IsReadFrom v place after ∧
      NumeralText n "25e-1".toList ∧ Written "25e-1".toList place after ∧
        ∃ number, n.IsNumber v number ∧ ∀ vars, v.resolve vars = some number := by
  intro place after v n
  obtain ⟨d, hd⟩ : ∃ d, Document.read "{ users(limit: 25e-1) { id } }" = .ok d :=
    exists_eq_ok (by decide +kernel)
  have hresult : (valueWithin 1 ⟨14, place⟩).result = some (v, ⟨20, after⟩) := rfl
  have hread : IsReadFrom v place after := ⟨1, ⟨14, place⟩, ⟨20, after⟩, hresult, rfl, rfl⟩
  have hdigits : IsDigits ['2', '5'] ∧ IsDigits ['1'] := by
    unfold IsDigits
    decide
  have htext : NumeralText n (signed false (['2', '5'] ++ ([] ++ ['e', '-', '1']))) :=
    .mk hdigits.1 .none (.minus (.inl rfl) hdigits.2)
  have hwritten : Written "25e-1".toList place after :=
    ⟨[' '], [], .blank rfl .nil, .nil, by decide⟩
  have hrange : n.InRange := by
    have hnot : ¬ n.IsWhole := fun hwhole => by cases hwhole.2
    refine (Numeral.inRange_of_not_isWhole hnot).mpr (lt_of_lt_of_le ?_ overflow_bounds.1)
    have hfour : (2 : ℚ) ^ (2 : Int) ≤ 2 ^ (1023 : Int) :=
      zpow_le_zpow_right₀ (by norm_num) (by decide)
    refine lt_of_lt_of_le ?_ hfour
    have hvalue : digitsValue n.digits = 25 ∧ n.power = -1 := by decide
    rw [Numeral.magnitude, hvalue.1, hvalue.2]
    norm_num
  exact ⟨d, hd, hread, htext, hwritten,
    ((written_number_iff hd).2 hread htext hwritten).1.mp hrange⟩

/-- Whether values are a text and behind it a floating-point number. -/
def areTextAndFloat (s : String) (x : Binary64) : List Value → Bool
  | [.text s', .float x'] => s' == s && x' == x
  | _ => false

theorem eq_of_areTextAndFloat {s : String} {x : Binary64} {values : List Value}
    (h : areTextAndFloat s x values = true) : values = [.text s, .float x] := by
  unfold areTextAndFloat at h
  split at h
  · obtain ⟨rfl, rfl⟩ := (Bool.and_eq_true_iff.mp h).imp eq_of_beq eq_of_beq
    rfl
  · cases h

/-- A number with too many digits is read as a text, and one with too great an exponent stands for
null. -/
theorem great_numerals_are_no_numbers :
    ∃ d, Document.read "{ users(where: {id: 99999999999999999999, rank: 1e400}) { id } }" = .ok d ∧
      d.scalars = [.text "99999999999999999999", .float (.infinite false)] ∧
        ∀ vars, resolveItems vars d.scalars = [.text "99999999999999999999", .null] := by
  obtain ⟨d, hd⟩ :
      ∃ d, Document.read "{ users(where: {id: 99999999999999999999, rank: 1e400}) { id } }" =
        .ok d :=
    exists_eq_ok (by decide +kernel)
  have hshape := part_eq hd (b := true)
    (g := fun d => areTextAndFloat "99999999999999999999" (.infinite false) d.scalars)
    (by decide +kernel)
  have hscalars := eq_of_areTextAndFloat hshape
  exact ⟨d, hd, hscalars, fun vars => hscalars ▸ rfl⟩

end SqlGateway.Request
