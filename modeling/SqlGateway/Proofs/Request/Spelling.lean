import SqlGateway.Proofs.Name
import SqlGateway.Proofs.Number.Written
import SqlGateway.Proofs.Request.Reading
import SqlGateway.Request.Grammar

/-!
# Tokens and their spellings

A request document is written token by token. Any blanks and comments may stand in the gaps between
tokens, and where two words would run together there must be some.

The tokens that request documents are written with have one relation for each phrase of the grammar,
and in it one constructor for each way of writing the phrase.
-/
namespace SqlGateway.Request

open Number Text

inductive Token where
  | mark (c : Char)
  | name (s : String)
  | reference (name : String)
  | directive (name : String)
  | type (name : String)
  | text (s : String)
  | int (n : Int)
  | float (x : Binary64)
  deriving Repr

def marks : List Char := ['(', ')', '[', ']', '\x7b', '\x7d', ':', ',', '=']

def IsName (s : String) : Prop := s.toList ≠ [] ∧ ∀ c ∈ s.toList, isNameChar c = true

def IsTypeName (s : String) : Prop := s.toList ≠ [] ∧ ∀ c ∈ s.toList, isTypeChar c = true

/-- The characters of a string, a quote or a backslash among them behind a backslash. -/
def escaped (quote : Char) (s : List Char) : List Char :=
  s.flatMap fun c => if c = quote ∨ c = '\\' then ['\\', c] else [c]

def quoted (quote : Char) (s : List Char) : List Char := quote :: (escaped quote s ++ [quote])

def IsDigits (ds : List Char) : Prop := ds ≠ [] ∧ ∀ c ∈ ds, isDigit c = true

inductive FractionText : Option (List Char) → List Char → Prop
  | none : FractionText none []
  | some {ds} : IsDigits ds → FractionText (some ds) ('.' :: ds)

inductive ExponentText : Option (Bool × List Char) → List Char → Prop
  | none : ExponentText none []
  | plain {e ds} : e = 'e' ∨ e = 'E' → IsDigits ds → ExponentText (some (false, ds)) (e :: ds)
  | plus {e ds} : e = 'e' ∨ e = 'E' → IsDigits ds → ExponentText (some (false, ds)) (e :: '+' :: ds)
  | minus {e ds} : e = 'e' ∨ e = 'E' → IsDigits ds → ExponentText (some (true, ds)) (e :: '-' :: ds)

/-- A text with the sign, the digits and the exponent of a numeral. -/
inductive NumeralText : Numeral → List Char → Prop
  | mk {negative whole fraction exponent behind last} :
      IsDigits whole → FractionText fraction behind → ExponentText exponent last →
      NumeralText ⟨negative, whole, fraction, exponent⟩
        (signed negative (whole ++ (behind ++ last)))

/-- How a token is written: a string in quotes of either kind, a floating-point number as any
numeral with a fraction or an exponent that it is the nearest number to. -/
inductive Spells : Token → List Char → Prop
  | mark {c} : c ∈ marks → Spells (.mark c) [c]
  | name {s} : IsName s → Spells (.name s) s.toList
  | reference {s} : IsName s → Spells (.reference s) ('$' :: s.toList)
  | directive {s} : IsName s → Spells (.directive s) ('@' :: s.toList)
  | type {s} : IsTypeName s → Spells (.type s) s.toList
  | text {s quote} : quote = '"' ∨ quote = '\'' → Spells (.text s) (quoted quote s.toList)
  | int {n} : fitsInt64 n = true → Spells (.int n) (toString n).toList
  | float {x n text} : NumeralText n text → n.value? = some (.float x) → Spells (.float x) text

/-- Blanks, and comments with the line ends that they go to. -/
inductive Gap : List Char → Prop
  | nil : Gap []
  | blank {c rest} : isBlank c = true → Gap rest → Gap (c :: rest)
  | comment {body rest} : '\n' ∉ body → Gap rest → Gap ('#' :: (body ++ '\n' :: rest))

namespace Token

/-- Tokens that begin as a word does. -/
def isWord : Token → Bool
  | .name _ | .type _ | .int _ | .float _ => true
  | _ => false

/-- Tokens that end as a word does, so that a word behind them would go on with them. -/
def endsWord : Token → Bool
  | .mark _ | .text _ => false
  | _ => true

/-- Whether a token may begin with a character. -/
def begins : Token → Char → Bool
  | .mark c, d => c == d
  | .name _, d => isNameChar d
  | .reference _, d => d == '$'
  | .directive _, d => d == '@'
  | .type _, d => isTypeChar d
  | .text _, d => d == '"' || d == '\''
  | .int _, d | .float _, d => isDigit d || d == '-'

end Token

/-- A text with given tokens, and with gaps in front of them and at its end. `afterWord` tells
whether the text stands directly behind a word. -/
inductive Spaced : (afterWord : Bool) → List Token → List Char → Prop
  | nil {afterWord gap} : Gap gap → Spaced afterWord [] gap
  | cons {afterWord gap t spelling ts text} : Gap gap →
      (afterWord = true → t.isWord = true → gap ≠ []) → Spells t spelling →
      Spaced t.endsWord ts text → Spaced afterWord (t :: ts) (gap ++ (spelling ++ text))

/-- A text with given tokens and no gap in front of them. -/
def Facing : List Token → List Char → Prop
  | [], text => text = []
  | t :: ts, text =>
      ∃ spelling, Spells t spelling ∧ Parser.Before spelling (Spaced t.endsWord ts) text

/-- The first token does not begin with a character. -/
def Avoids (c : Char) (ts : List Token) : Prop := ∀ t ∈ ts.head?, t.begins c = false

section Characters
variable {c : Char} {accept : Char → Bool}

/-- Where the blanks stand among the characters. -/
def blankRanges : List (Nat × Nat) :=
  [(0x9, 0xd), (0x20, 0x20), (0x85, 0x85), (0xa0, 0xa0), (0x1680, 0x1680), (0x2000, 0x200a),
    (0x2028, 0x2029), (0x202f, 0x202f), (0x205f, 0x205f), (0x3000, 0x3000)]

theorem exists_blankRange (h : isBlank c = true) :
    ∃ range ∈ blankRanges, range.1 ≤ c.toNat ∧ c.toNat ≤ range.2 := by
  simp only [isBlank, Bool.or_eq_true, Bool.and_eq_true, decide_eq_true_eq, beq_iff_eq] at h
  simp only [blankRanges, List.exists_mem_cons_iff, List.not_mem_nil, false_and,
    exists_false, or_false]
  omega

theorem isIdentifierPart_of_lt (h : c.toNat < 0x80) : isIdentifierPart c = isNameChar c := if_pos h

/-- Ranges with no character in common with a given one. -/
def apart (ranges : Ranges) (blank : Nat × Nat) : Bool :=
  ranges.toList.all fun range => Nat.blt range.2 blank.1 || Nat.blt blank.2 range.1

theorem contains_of_apart {ranges : Ranges} {blank : Nat × Nat} (hapart : apart ranges blank = true)
    (hblank : blank.1 ≤ c.toNat ∧ c.toNat ≤ blank.2) : ranges.contains c = false := by
  rw [Ranges.contains, ← Array.any_toList, List.any_eq_false]
  intro range hrange hinside
  have hrange := List.all_eq_true.mp hapart range hrange
  simp only [Bool.or_eq_true, Nat.blt_eq] at hrange
  simp only [Bool.and_eq_true, decide_eq_true_eq] at hinside
  omega

def IsVisible (c : Char) : Prop := 0x20 < c.toNat ∧ c.toNat < 0x80

instance (c : Char) : Decidable (IsVisible c) := inferInstanceAs (Decidable (_ ∧ _))

theorem IsVisible.isBlank_eq_false (h : IsVisible c) : isBlank c = false := by
  obtain ⟨hleast, hgreatest⟩ := h
  refine (Bool.not_eq_true _).mp fun hblank => ?_
  obtain ⟨blank, hblank, hinside⟩ := exists_blankRange hblank
  have hall : ∀ blank ∈ blankRanges, blank.2 ≤ 0x20 ∨ 0x80 ≤ blank.1 := by decide
  have := hall blank hblank
  omega

theorem isVisible_of_isNameChar (h : isNameChar c = true) : IsVisible c := by
  have htail : Name.isTailChar c = true := Bool.or_eq_true_iff.mpr (.inl h)
  obtain ⟨hleast, hgreatest⟩ := Name.visible_of_isTailChar htail
  rw [Char.le_def, UInt32.le_iff_toNat_le] at hleast hgreatest
  exact ⟨hleast, Nat.lt_succ_of_le (Nat.le_succ_of_le hgreatest)⟩

theorem isNameChar_of_isBlank (h : isBlank c = true) : isNameChar c = false := by
  refine (Bool.not_eq_true _).mp fun hname => ?_
  rw [(isVisible_of_isNameChar hname).isBlank_eq_false] at h
  cases h

theorem isIdentifierPart_of_isBlank (h : isBlank c = true) : isIdentifierPart c = false := by
  by_cases hc : c.toNat < 0x80
  · rw [isIdentifierPart_of_lt hc, isNameChar_of_isBlank h]
  · obtain ⟨blank, hblank, hinside⟩ := exists_blankRange h
    have hall : ∀ blank ∈ blankRanges, blank.2 < 0x80 ∨
        (apart identifierStartRanges blank = true ∧ apart identifierInnerRanges blank = true) := by
      decide +kernel
    obtain ⟨hstart, hinner⟩ := (hall blank hblank).resolve_left (by omega)
    rw [isIdentifierPart, if_neg hc, contains_of_apart hstart hinside,
      contains_of_apart hinner hinside]
    rfl

theorem isNameChar_of_isDigit (h : isDigit c = true) : isNameChar c = true := by
  have hdigit : c.isDigit = true := by simpa [isDigit, Char.isDigit, Char.le_def] using h
  simp [isNameChar, Char.isAlphanum, hdigit]

end Characters

/-- The characters that the tokens other than words begin with. -/
def openings : List Char := ['$', '@', '"', '\''] ++ marks

/-- What is known of the first character of a token. -/
structure Token.OpensWith (t : Token) (c : Char) : Prop where
  begins : t.begins c = true
  visible : IsVisible c
  plain : c ≠ '#'
  opening : t.isWord = false → c ∈ openings

section FirstCharacters
variable {t : Token} {ts : List Token} {s text : List Char} {c : Char} {accept : Char → Bool}
  {afterWord : Bool}

theorem opensWith_of_mem (hc : c ∈ openings) (hbegins : t.begins c = true) : t.OpensWith c := by
  have hall : ∀ c ∈ openings, IsVisible c ∧ c ≠ '#' := by decide
  obtain ⟨hvisible, hplain⟩ := hall c hc
  exact ⟨hbegins, hvisible, hplain, fun _ => hc⟩

theorem opensWith_of_isTypeChar (hc : isTypeChar c = true) (hbegins : t.begins c = true)
    (hword : t.isWord = true) : t.OpensWith c := by
  refine ⟨hbegins, ?_, ?_, fun h => absurd hword (by rw [h]; decide)⟩
  · rw [isTypeChar, Bool.or_eq_true, Bool.or_eq_true, Bool.or_eq_true] at hc
    rcases hc with ((hname | hopen) | hclose) | hbang
    · exact isVisible_of_isNameChar hname
    · rw [beq_iff_eq.mp hopen]; decide
    · rw [beq_iff_eq.mp hclose]; decide
    · rw [beq_iff_eq.mp hbang]; decide
  · rintro rfl
    exact absurd hc (by decide)

theorem isTypeChar_of_isNameChar (h : isNameChar c = true) : isTypeChar c = true := by
  simp [isTypeChar, h]

theorem exists_cons_signed {negative : Bool} {ds rest : List Char} (h : IsDigits ds)
    (hbegins : ∀ c, (isDigit c || c == '-') = true → t.begins c = true) (hword : t.isWord = true) :
    ∃ c more, signed negative (ds ++ rest) = c :: more ∧ t.OpensWith c := by
  cases negative with
  | true =>
      refine ⟨'-', ds ++ rest, rfl, hbegins '-' rfl, by decide, by decide, fun h => ?_⟩
      rw [hword] at h
      cases h
  | false =>
      obtain ⟨hne, hall⟩ := h
      obtain ⟨c, more, rfl⟩ := List.exists_cons_of_ne_nil hne
      have hdigit : isDigit c = true := hall c List.mem_cons_self
      refine ⟨c, more ++ rest, rfl, opensWith_of_isTypeChar ?_ (hbegins c (by simp [hdigit])) hword⟩
      exact isTypeChar_of_isNameChar (isNameChar_of_isDigit hdigit)

theorem isDigits_decimalDigits (n : Nat) : IsDigits (decimalDigits n) :=
  ⟨Nat.toDigits_ne_nil, fun _ hc => isDigit_of_mem_decimalDigits hc⟩

/-- Every spelling has a first character, one that its token may begin with. -/
theorem Spells.exists_cons (h : Spells t s) : ∃ c rest, s = c :: rest ∧ t.OpensWith c := by
  cases h with
  | @mark c hc =>
      exact ⟨c, [], rfl, opensWith_of_mem (List.mem_append_right _ hc) (beq_self_eq_true c)⟩
  | @name s hs =>
      obtain ⟨hne, hall⟩ := hs
      obtain ⟨c, rest, hcons⟩ := List.exists_cons_of_ne_nil hne
      have hc : isNameChar c = true := hall c (hcons ▸ List.mem_cons_self)
      exact ⟨c, rest, hcons, opensWith_of_isTypeChar (isTypeChar_of_isNameChar hc) hc rfl⟩
  | reference => exact ⟨'$', _, rfl, opensWith_of_mem (by decide) rfl⟩
  | directive => exact ⟨'@', _, rfl, opensWith_of_mem (by decide) rfl⟩
  | @type s hs =>
      obtain ⟨hne, hall⟩ := hs
      obtain ⟨c, rest, hcons⟩ := List.exists_cons_of_ne_nil hne
      have hc : isTypeChar c = true := hall c (hcons ▸ List.mem_cons_self)
      exact ⟨c, rest, hcons, opensWith_of_isTypeChar hc hc rfl⟩
  | text hquote =>
      rcases hquote with rfl | rfl
      · exact ⟨'"', _, rfl, opensWith_of_mem (by decide) rfl⟩
      · exact ⟨'\'', _, rfl, opensWith_of_mem (by decide) rfl⟩
  | @int n _ =>
      have hsigned : ∃ c more, signed (decide (n < 0)) (decimalDigits n.natAbs ++ []) = c :: more ∧
          (Token.int n).OpensWith c :=
        exists_cons_signed (isDigits_decimalDigits n.natAbs) (fun _ h => h) rfl
      obtain ⟨c, rest, hcons, hopens⟩ := hsigned
      rw [List.append_nil] at hcons
      exact ⟨c, rest, (toList_toString n).trans hcons, hopens⟩
  | @float x n text htext _ =>
      obtain ⟨hwhole, _, _⟩ := htext
      exact exists_cons_signed hwhole (fun _ h => h) rfl

theorem Gap.head {gap : List Char} (h : Gap gap) {c : Char} (hc : c ∈ gap.head?) :
    isBlank c = true ∨ c = '#' := by
  cases h with
  | nil => cases hc
  | blank hblank _ => exact .inl (Option.some.inj hc ▸ hblank)
  | comment _ _ => exact .inr (Option.some.inj hc).symm

/-- What a text begins with: a gap, or its first token. -/
theorem Spaced.head (h : Spaced afterWord ts text) (hc : c ∈ text.head?) :
    isBlank c = true ∨ c = '#' ∨
      ∃ t ∈ ts.head?, t.OpensWith c ∧ (afterWord = true → t.isWord = false) := by
  cases h with
  | nil hgap => exact (hgap.head hc).imp_right .inl
  | @cons _ gap t spelling ts text hgap hapart hspells _ =>
      cases gap with
      | cons d gap => exact (hgap.head hc).imp_right .inl
      | nil =>
          obtain ⟨d, rest, rfl, hopens⟩ := hspells.exists_cons
          obtain rfl : d = c := Option.some.inj hc
          refine .inr (.inr ⟨t, rfl, hopens, fun hafter => ?_⟩)
          exact (Bool.not_eq_true _).mp fun hword => hapart hafter hword rfl

/-- What stands behind a word does not go on with it. -/
theorem Spaced.stops (h : Spaced true ts text) (hblank : ∀ c, isBlank c = true → accept c = false)
    (hopen : ∀ c ∈ '#' :: openings, accept c = false) : Parser.Stops accept text := by
  intro c hc
  rcases h.head hc with hspace | rfl | ⟨t, _, hopens, hword⟩
  · exact hblank c hspace
  · exact hopen _ List.mem_cons_self
  · exact hopen c (List.mem_cons_of_mem _ (hopens.opening (hword rfl)))

theorem Spaced.stops_isNameChar (h : Spaced true ts text) : Parser.Stops isNameChar text :=
  h.stops (fun _ => isNameChar_of_isBlank) (by decide)

theorem Spaced.stops_isIdentifierPart (h : Spaced true ts text) :
    Parser.Stops isIdentifierPart text :=
  h.stops (fun _ => isIdentifierPart_of_isBlank) (by decide)

/-- Behind a type a bracket would go on with it. -/
theorem Spaced.stops_isTypeChar (h : Spaced true ts text) (hbegin : Avoids '[' ts)
    (hend : Avoids ']' ts) : Parser.Stops isTypeChar text := by
  intro c hc
  refine (Bool.not_eq_true _).mp fun htype => ?_
  have hname : isNameChar c = false := h.stops_isNameChar c hc
  rw [isTypeChar, hname, Bool.false_or, Bool.or_eq_true, Bool.or_eq_true, beq_iff_eq, beq_iff_eq,
    beq_iff_eq] at htype
  rcases h.head hc with hspace | rfl | ⟨t, ht, hopens, hword⟩
  · rcases htype with (rfl | rfl) | rfl <;> exact absurd hspace (by decide)
  · rcases htype with (htype | htype) | htype <;> exact absurd htype (by decide)
  · rcases htype with (rfl | rfl) | rfl
    · exact absurd hopens.begins (by rw [hbegin t ht]; decide)
    · exact absurd hopens.begins (by rw [hend t ht]; decide)
    · exact absurd (hopens.opening (hword rfl)) (by decide)

theorem Spaced.relax (h : Spaced afterWord ts text) : Spaced false ts text := by
  cases h with
  | nil hgap => exact .nil hgap
  | cons hgap _ hspells hafter => exact .cons hgap (fun h => by cases h) hspells hafter

theorem Facing.spaced (h : Facing ts text) : Spaced false ts text := by
  cases ts with
  | nil =>
      obtain rfl : text = [] := h
      exact .nil .nil
  | cons t ts =>
      obtain ⟨spelling, hspells, rest, rfl, hafter⟩ := h
      have hspaced : Spaced false (t :: ts) ([] ++ (spelling ++ rest)) :=
        .cons .nil (fun h => by cases h) hspells hafter
      exact hspaced

theorem Facing.head (h : Facing ts text) (hc : c ∈ text.head?) : ∃ t ∈ ts.head?, t.OpensWith c := by
  cases ts with
  | nil =>
      obtain rfl : text = [] := h
      cases hc
  | cons t ts =>
      obtain ⟨spelling, hspells, rest, rfl, _⟩ := h
      obtain ⟨d, more, rfl, hopens⟩ := hspells.exists_cons
      obtain rfl : d = c := Option.some.inj hc
      exact ⟨t, rfl, hopens⟩

theorem Facing.stops (h : Facing ts text)
    (haccept : ∀ t ∈ ts.head?, ∀ c, t.begins c = true → accept c = false) :
    Parser.Stops accept text := by
  intro c hc
  obtain ⟨t, ht, hopens⟩ := h.head hc
  exact haccept t ht c hopens.begins

theorem skipSpace_gap {gap : List Char} (h : Gap gap) (offset : Nat) (text : List Char) :
    skipSpace false offset (gap ++ text) = skipSpace false (offset + gap.length) text := by
  induction h generalizing offset with
  | nil => rfl
  | @blank c rest hc _ ih =>
      rw [List.cons_append, skipSpace, if_pos hc, ih, List.length_cons, Nat.add_assoc,
        Nat.add_comm 1]
  | @comment body rest hbody _ ih =>
      -- The comment ends at its line end, whatever characters stand in it.
      have hcomment : ∀ offset, skipSpace true offset (body ++ '\n' :: (rest ++ text)) =
          skipSpace false (offset + body.length + 1) (rest ++ text) := by
        induction body with
        | nil => exact fun offset => rfl
        | cons c body ihbody =>
            obtain ⟨hc, hbody⟩ := List.ne_and_not_mem_of_not_mem_cons hbody
            intro offset
            have hne : (c != '\n') = true := bne_iff_ne.mpr (Ne.symm hc)
            rw [List.cons_append, skipSpace, hne, ihbody hbody, List.length_cons]
            congr 1
            omega
      have hsplit :
        '#' :: (body ++ '\n' :: rest) ++ text = '#' :: (body ++ '\n' :: (rest ++ text)) := by simp
      rw [hsplit, skipSpace, if_neg (by decide), if_pos (by decide), hcomment, ih]
      congr 1
      simp only [List.length_cons, List.length_append]
      omega

theorem skipSpace_facing (h : Facing ts text) (offset : Nat) :
    skipSpace false offset text = ⟨offset, text⟩ := by
  cases text with
  | nil => rfl
  | cons c rest =>
      obtain ⟨t, _, hopens⟩ := h.head (c := c) rfl
      rw [skipSpace, if_neg (by rw [hopens.visible.isBlank_eq_false]; decide),
        if_neg (fun h => hopens.plain (beq_iff_eq.mp h))]

theorem Spaced.facing (h : Spaced afterWord ts text) (offset : Nat) :
    Facing ts (skipSpace false offset text).rest := by
  cases h with
  | nil hgap =>
      have hskip := skipSpace_gap hgap offset []
      rw [List.append_nil] at hskip
      rw [hskip]
      rfl
  | @cons _ gap t spelling ts text hgap _ hspells hafter =>
      have hfacing : Facing (t :: ts) (spelling ++ text) := ⟨spelling, hspells, text, rfl, hafter⟩
      rw [skipSpace_gap hgap, skipSpace_facing hfacing]
      exact hfacing

theorem reads_space : space.Reads (Spaced afterWord ts) () (Facing ts) :=
  fun at_ h => ⟨skipSpace false at_.offset at_.rest, rfl, h.facing at_.offset⟩

/-- A padded parser reads from the first token on. -/
theorem Parser.Reads.padded {α : Type} {p : Parser α} {a : α} {ts' : List Token}
    (h : p.Reads (Facing ts) a (Spaced false ts')) :
    (padded p).Reads (Spaced false ts) a (Spaced false ts') :=
  reads_space.bind (h.bind (reads_space.bind ((Parser.reads_pure a _).weaken (fun _ h => h)
    fun _ => Facing.spaced)))

theorem Parser.Refuses.padded {α : Type} {p : Parser α} (h : p.Refuses (Facing ts)) :
    (padded p).Refuses (Spaced false ts) :=
  reads_space.refuses_bind h.bind

end FirstCharacters

end SqlGateway.Request

namespace SqlGateway.Request

section Lists
variable {α : Type}

/-- Phrases with a comma between any two, and perhaps one more behind the last. -/
inductive Listed (written : α → List Token → Prop) : List α → List Token → Prop
  | nil : Listed written [] []
  | last {a ts} : written a ts → Listed written [a] ts
  | cons {a ts rest us} : written a ts → Listed written rest us →
      Listed written (a :: rest) (ts ++ .mark ',' :: us)

/-- Phrases one behind another. -/
inductive Sequence (written : α → List Token → Prop) : List α → List Token → Prop
  | nil : Sequence written [] []
  | cons {a ts rest us} : written a ts → Sequence written rest us →
      Sequence written (a :: rest) (ts ++ us)

/-- A group in brackets, which may be left out when nothing is in it. -/
inductive Group (left right : Char) (written : List α → List Token → Prop) :
    List α → List Token → Prop
  | absent : Group left right written [] []
  | present {as ts} :
      written as ts → Group left right written as (.mark left :: (ts ++ [.mark right]))

end Lists

mutual

inductive ValueTokens : Value → List Token → Prop
  | null : ValueTokens .null [.name "null"]
  | true : ValueTokens (.bool true) [.name "true"]
  | false : ValueTokens (.bool false) [.name "false"]
  | int {n} : ValueTokens (.int n) [.int n]
  | float {x} : ValueTokens (.float x) [.float x]
  | text {s} : ValueTokens (.text s) [.text s]
  | reference {name} : ValueTokens (.variable name) [.reference name]
  | list {items ts} : Listed ValueTokens items ts →
      ValueTokens (.list items) (.mark '[' :: (ts ++ [.mark ']']))
  | object {fields ts} : Listed EntryTokens fields ts →
      ValueTokens (.object fields) (.mark '\x7b' :: (ts ++ [.mark '\x7d']))

inductive EntryTokens : String × Value → List Token → Prop
  | mk {key value ts} :
      ValueTokens value ts → EntryTokens (key, value) (.text key :: .mark ':' :: ts)

end

inductive ArgumentTokens : Argument → List Token → Prop
  | mk {key value ts} :
      ValueTokens value ts → ArgumentTokens ⟨key, value⟩ (.name key :: .mark ':' :: ts)

inductive DirectiveTokens : Directive → List Token → Prop
  | mk {key arguments ts} : Group '(' ')' (Listed ArgumentTokens) arguments ts →
      DirectiveTokens ⟨key, arguments⟩ (.directive key :: ts)

def labelTokens : Option String → List Token
  | none => []
  | some label => [.name label, .mark ':']

inductive FieldTokens : Field → List Token → Prop
  | mk {label key arguments directives selection args dirs sel comma} :
      Group '(' ')' (Listed ArgumentTokens) arguments args →
      Sequence DirectiveTokens directives dirs →
      Group '\x7b' '\x7d' (Sequence FieldTokens) selection sel → comma = [] ∨ comma = [.mark ','] →
      FieldTokens ⟨label, key, arguments, directives, selection⟩
        (labelTokens label ++ .name key :: (args ++ (dirs ++ (sel ++ comma))))

inductive DefinitionTokens : VariableDefinition → List Token → Prop
  | plain {key type} : DefinitionTokens ⟨key, type, none⟩ [.reference key, .mark ':', .type type]
  | default {key type value ts} : ValueTokens value ts →
      DefinitionTokens ⟨key, type, some value⟩
        (.reference key :: .mark ':' :: .type type :: .mark '=' :: ts)

/-- At least one field in braces. -/
inductive SelectionTokens : List Field → List Token → Prop
  | mk {f rest ts} : Sequence FieldTokens (f :: rest) ts →
      SelectionTokens (f :: rest) (.mark '\x7b' :: (ts ++ [.mark '\x7d']))

def OperationKind.word : OperationKind → String
  | .query => "query"
  | .mutation => "mutation"

def nameTokens : Option String → List Token
  | none => []
  | some name => [.name name]

/-- An operation after its kind, or a selection alone for a query without anything else. -/
inductive OperationTokens : Operation → List Token → Prop
  | named {kind label definitions directives selection defs dirs sel} :
      Group '(' ')' (Listed DefinitionTokens) definitions defs →
      Sequence DirectiveTokens directives dirs → SelectionTokens selection sel →
      OperationTokens ⟨kind, label, definitions, directives, selection⟩
        (.name kind.word :: (nameTokens label ++ (defs ++ (dirs ++ sel))))
  | shorthand {selection sel} : SelectionTokens selection sel →
      OperationTokens ⟨.query, none, [], [], selection⟩ sel

/-- A text is a document printed in the grammar. -/
def Document.IsPrintedAs (d : Document) (text : String) : Prop :=
  d.operations ≠ [] ∧ ∃ ts, Sequence OperationTokens d.operations ts ∧ Spaced false ts text.toList

end SqlGateway.Request
