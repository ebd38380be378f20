import SqlGateway.Proofs.Request.Lexing
import SqlGateway.Proofs.Request.Spelling

/-!
# Reading what was printed

The grammar reads every printed document back, whatever gaps are left between its tokens.
-/
namespace SqlGateway.Request

open SqlGateway.Request.Parser

section Lists
variable {α : Type} {p : Parser α} {a : α} {as : List α} {written : α → List Token → Prop}
  {toks ts : List Token} {text : List Char} {afterWord : Bool}

theorem Spaced.length_le (h : Spaced afterWord ts text) : ts.length ≤ text.length := by
  induction h with
  | nil => exact Nat.zero_le _
  | cons _ _ hspells _ ih =>
      obtain ⟨c, rest, rfl, _⟩ := hspells.exists_cons
      simp only [List.length_cons, List.length_append]
      omega

theorem Facing.stops_mark {c : Char} {accept : Char → Bool} (hc : accept c = false)
    (h : Facing (.mark c :: ts) text) : Stops accept text := by
  refine h.stops fun t ht d hd => ?_
  obtain rfl := Option.some.inj ht
  exact beq_iff_eq.mp hd ▸ hc

theorem reads_between (left right : Char)
    (hp : p.Reads (Spaced false (toks ++ .mark right :: ts)) a (Spaced false (.mark right :: ts))) :
    (between left right p).Reads (Spaced false (.mark left :: (toks ++ [.mark right]) ++ ts)) a
      (Spaced false ts) := by
  rw [List.cons_append, List.append_assoc, List.singleton_append]
  exact Reads.bind (reads_symbol left)
    (Reads.bind hp (Reads.bind (reads_symbol right) (reads_pure a _)))

theorem refuses_between {left right : Char} (h : Avoids left ts) :
    (between left right p).Refuses (Spaced false ts) :=
  Refuses.bind (refuses_symbol h)

/-- A group is read as its items, and one that is left out as none. -/
theorem reads_group (ts : List Token) {q : Parser (List α)} {left right : Char}
    {writtenAll : List α → List Token → Prop}
    (h : Group left right writtenAll as toks) (hleft : Avoids left ts)
    (hq : ∀ inner, writtenAll as inner → inner.length ≤ toks.length →
      q.Reads (Spaced false (inner ++ .mark right :: ts)) as (Spaced false (.mark right :: ts))) :
    ∃ group, (optional (between left right q)).Reads (Spaced false (toks ++ ts))
      group (Spaced false ts) ∧ group.getD [] = as := by
  cases h with
  | absent => exact ⟨none, (refuses_between hleft).optional, rfl⟩
  | @present _ inner hinner =>
      have hlength : inner.length ≤ (Token.mark left :: (inner ++ [.mark right])).length := by
        simp only [List.length_cons, List.length_append]
        omega
      exact ⟨some as, (reads_between left right (hq inner hinner hlength)).optional, rfl⟩

/-- Phrases of at most a given number of tokens. -/
def Within (n : Nat) (written : α → List Token → Prop) (a : α) (ts : List Token) : Prop :=
  written a ts ∧ ts.length ≤ n

theorem Listed.within (h : Listed written as toks) {n : Nat} (hn : toks.length ≤ n) :
    Listed (Within n written) as toks := by
  induction h with
  | nil => exact .nil
  | last ha => exact .last ⟨ha, hn⟩
  | cons ha _ ih =>
      rw [List.length_append, List.length_cons] at hn
      exact .cons ⟨ha, by omega⟩ (ih (by omega))

theorem Sequence.within (h : Sequence written as toks) {n : Nat} (hn : toks.length ≤ n) :
    Sequence (Within n written) as toks := by
  induction h with
  | nil => exact .nil
  | cons ha _ ih =>
      rw [List.length_append] at hn
      exact .cons ⟨ha, by omega⟩ (ih (by omega))

theorem Listed.length_le (h : Listed written as toks) : as.length ≤ toks.length + 1 := by
  induction h with
  | nil => exact Nat.zero_le _
  | last => exact Nat.le_add_left 1 _
  | cons _ _ ih =>
      simp only [List.length_append, List.length_cons]
      omega

theorem Sequence.length_le (hne : ∀ a ts, written a ts → ts ≠ []) (h : Sequence written as toks) :
    as.length ≤ toks.length := by
  induction h with
  | nil => exact Nat.zero_le _
  | cons ha _ ih =>
      have := List.length_pos_iff.mpr (hne _ _ ha)
      simp only [List.length_append, List.length_cons]
      omega

theorem reads_separatedUpTo (ends : List Token → Prop) (h : Listed written as toks) {count : Nat}
    (hcount : as.length ≤ count) (hends : ends ts) (hmore : ∀ ts, ends (.mark ',' :: ts))
    (hread : ∀ a toks ts, written a toks → ends ts →
      p.Reads (Spaced false (toks ++ ts)) a (Spaced false ts))
    (hcomma : Avoids ',' ts) (hstop : p.Refuses (Spaced false ts)) :
    (separatedUpTo p (symbol ',') count).Reads (Spaced false (toks ++ ts))
      as (Spaced false ts) := by
  induction h generalizing count with
  | nil =>
      cases count with
      | zero => exact reads_pure [] _
      | succ count => exact Reads.either_right (Refuses.bind hstop) (reads_pure [] _)
  | @last a toks ha =>
      cases count with
      | zero => cases hcount
      | succ count =>
          refine Reads.either_left (Reads.bind (hread a toks ts ha hends) ?_)
          exact Reads.bind (refuses_symbol hcomma).optional (reads_pure [a] _)
  | @cons a toks rest us ha _ ih =>
      cases count with
      | zero => cases hcount
      | succ count =>
          rw [List.append_assoc, List.cons_append]
          refine Reads.either_left (Reads.bind (hread a toks _ ha (hmore _)) ?_)
          refine Reads.bind (reads_symbol ',').optional ?_
          exact Reads.bind (ih (Nat.le_of_succ_le_succ hcount)) (reads_pure (a :: rest) _)

/-- A list is read if its items are, each before what may end it: a comma, or what stands behind the
list. -/
theorem reads_separated (ends : List Token → Prop) (h : Listed written as toks) (hends : ends ts)
    (hmore : ∀ ts, ends (.mark ',' :: ts))
    (hread : ∀ a toks ts, written a toks → ends ts →
      p.Reads (Spaced false (toks ++ ts)) a (Spaced false ts))
    (hcomma : Avoids ',' ts) (hstop : p.Refuses (Spaced false ts)) :
    (separated p (symbol ',')).Reads (Spaced false (toks ++ ts)) as (Spaced false ts) := by
  intro at_ hat
  refine reads_separatedUpTo ends h ?_ hends hmore hread hcomma hstop at_ hat
  have hlist := h.length_le
  have htext := hat.length_le
  rw [List.length_append] at htext
  omega

theorem reads_upTo (ends : List Token → Prop) (h : Sequence written as toks) {count : Nat}
    (hcount : as.length ≤ count)
    (hends : ends ts) (hbegin : ∀ a toks ts, written a toks → ends (toks ++ ts))
    (hread : ∀ a toks ts, written a toks → ends ts →
      p.Reads (Spaced false (toks ++ ts)) a (Spaced false ts))
    (hstop : p.Refuses (Spaced false ts)) :
    (upTo p count).Reads (Spaced false (toks ++ ts)) as (Spaced false ts) := by
  induction h generalizing count with
  | nil =>
      cases count with
      | zero => exact reads_pure [] _
      | succ count => exact Reads.either_right (Refuses.bind hstop) (reads_pure [] _)
  | @cons a toks rest us ha hrest ih =>
      cases count with
      | zero => cases hcount
      | succ count =>
          have hafter : ends (us ++ ts) := by
            cases hrest with
            | nil => exact hends
            | cons hb _ =>
                rw [List.append_assoc]
                exact hbegin _ _ _ hb
          rw [List.append_assoc]
          refine Reads.either_left (Reads.bind (hread a toks _ ha hafter) ?_)
          exact Reads.bind (ih (Nat.le_of_succ_le_succ hcount)) (reads_pure (a :: rest) _)

/-- A sequence is read if its phrases are, each before what may end it: the next phrase, or what
stands behind the sequence. -/
theorem reads_many (ends : List Token → Prop) (h : Sequence written as toks)
    (hne : ∀ a ts, written a ts → ts ≠ []) (hends : ends ts)
    (hbegin : ∀ a toks ts, written a toks → ends (toks ++ ts))
    (hread : ∀ a toks ts, written a toks → ends ts →
      p.Reads (Spaced false (toks ++ ts)) a (Spaced false ts))
    (hstop : p.Refuses (Spaced false ts)) :
    (many p).Reads (Spaced false (toks ++ ts)) as (Spaced false ts) := by
  intro at_ hat
  refine reads_upTo ends h ?_ hends hbegin hread hstop at_ hat
  have hlist := h.length_le hne
  have htext := hat.length_le
  rw [List.length_append] at htext
  omega

end Lists

section Values
variable {ts : List Token} {text : List Char} {depth : Nat}

def listOf (p : Parser Value) : Parser Value := do
  return Value.list (← between '[' ']' (separated p (symbol ',')))

def entryOf (p : Parser Value) : Parser (String × Value) := do
  let key ← objectKey
  symbol ':'
  return (key, ← p)

def objectOf (p : Parser Value) : Parser Value := do
  return Value.object (← between '\x7b' '\x7d' (separated (entryOf p) (symbol ',')))

def textValue : Parser Value := do return .text (← quotedText)

theorem refuses_word : word.Refuses (Stops Text.isIdentifierPart) := by
  have hstart : ∀ text, Stops Text.isIdentifierPart text → Stops Text.isIdentifierStart text :=
    fun _ h => Stops.weaken h fun c hc => by
      rw [Text.isIdentifierStart] at hc
      rw [Text.isIdentifierPart]
      split_ifs at hc ⊢ with hascii
      · rcases Bool.or_eq_true_iff.mp hc with h | h <;> simp [Char.isAlphanum, h]
      · simp [hc]
  have hkeyword : ∀ spelling, (keyword spelling).Refuses (Stops Text.isIdentifierPart) :=
    fun spelling => (refuses_keyword_of_stops spelling).weaken hstart
  have hname : (do return Value.text (← name)).Refuses (Stops Text.isIdentifierPart) := by
    refine Refuses.bind (Refuses.bind ((refuses_run1 isNameChar).weaken fun _ h => ?_))
    exact Stops.weaken h fun _ => isIdentifierPart_of_isNameChar
  refine Refuses.firstOf ?_
  simp only [List.forall_mem_cons]
  exact ⟨(hkeyword _).bind, (hkeyword _).bind, (hkeyword _).bind, hname, List.forall_mem_nil _⟩

theorem Facing.stops_name {s : String} {accept : Char → Bool}
    (hs : ∀ c ∈ s.toList.head?, accept c = false) (h : Facing (.name s :: ts) text) :
    Stops accept text := by
  obtain ⟨⟨hne, _⟩, hbefore⟩ := h.before_name
  exact stops_before hs (fun h => absurd h hne) hbefore

theorem refuses_textValue : textValue.Refuses (Stops fun c => c == '"' || c == '\'') :=
  refuses_quotedText.bind

/-- A word is tried after references, strings and numbers. -/
theorem reads_wordValue {s : String} {v : Value}
    (hs : ∀ c ∈ s.toList.head?, Text.isIdentifierStart c = true ∧ (c == '$') = false ∧
      (c == '"' || c == '\'') = false ∧ (Number.isDigit c || c == '-') = false)
    (h : word.Reads (Facing (.name s :: ts)) v (Spaced false ts)) :
    (valueWithin (depth + 1)).Reads (Spaced false (.name s :: ts)) v (Spaced false ts) := by
  refine Reads.padded (Reads.firstOf (l := [variableUse, textValue, number]) ?_ h)
  simp only [List.forall_mem_cons]
  refine ⟨refuses_reference.weaken fun _ => ?_, refuses_textValue.weaken fun _ => ?_,
    refuses_number.weaken fun _ => ?_, List.forall_mem_nil _⟩
  · exact Facing.stops_name fun c hc => (hs c hc).2.1
  · exact Facing.stops_name fun c hc => (hs c hc).2.2.1
  · exact Facing.stops_name fun c hc => (hs c hc).2.2.2

def keywordValue {α : Type} (s : String) (v : α) : Parser α := do
  keyword s
  return v

theorem reads_keywordValue {α : Type} {s : String} (v : α)
    (hstart : ∀ c ∈ s.toList.head?, Text.isIdentifierStart c = true) :
    (keywordValue s v).Reads (Facing (.name s :: ts)) v (Spaced false ts) :=
  Reads.bind (reads_keyword hstart) (reads_pure v _)

theorem refuses_keywordValue {α : Type} {s spelling : String} (v : α)
    (hstart : ∀ c ∈ s.toList.head?, Text.isIdentifierStart c = true) (hne : s ≠ spelling) :
    (keywordValue spelling v).Refuses (Facing (.name s :: ts)) :=
  Refuses.bind (refuses_keyword hstart hne)

theorem reads_null :
    (valueWithin (depth + 1)).Reads (Spaced false (.name "null" :: ts))
      .null (Spaced false ts) := by
  refine reads_wordValue (by rintro c ⟨⟩; decide) ?_
  refine Reads.firstOf (l := [keywordValue "true" (.bool true), keywordValue "false" (.bool false)])
    ?_ (reads_keywordValue (s := "null") Value.null (by rintro c ⟨⟩; decide))
  simp only [List.forall_mem_cons]
  exact ⟨refuses_keywordValue _ (by rintro c ⟨⟩; decide) (by decide),
    refuses_keywordValue _ (by rintro c ⟨⟩; decide) (by decide), List.forall_mem_nil _⟩

theorem reads_true :
    (valueWithin (depth + 1)).Reads (Spaced false (.name "true" :: ts)) (.bool true)
    (Spaced false ts) :=
  reads_wordValue (by rintro c ⟨⟩; decide) (Reads.firstOf (l := []) (List.forall_mem_nil _)
    (reads_keywordValue (s := "true") (Value.bool true) (by rintro c ⟨⟩; decide)))

theorem reads_false :
    (valueWithin (depth + 1)).Reads (Spaced false (.name "false" :: ts)) (.bool false)
    (Spaced false ts) := by
  refine reads_wordValue (by rintro c ⟨⟩; decide) ?_
  refine Reads.firstOf (l := [keywordValue "true" (.bool true)]) ?_
    (reads_keywordValue (s := "false") (Value.bool false) (by rintro c ⟨⟩; decide))
  exact List.forall_mem_singleton.mpr (refuses_keywordValue _ (by rintro c ⟨⟩; decide) (by decide))

theorem avoids_cons {t : Token} {c : Char} (h : t.begins c = false) : Avoids c (t :: ts) := by
  intro other hother
  obtain rfl := Option.some.inj hother
  exact h

theorem refuses_char_of_avoids {c : Char} (h : Avoids c ts) : (char c).Refuses (Facing ts) :=
  (refuses_char c).weaken fun _ => h.stops

theorem refuses_textValue_of_avoids (hdouble : Avoids '"' ts) (hsingle : Avoids '\'' ts) :
    textValue.Refuses (Facing ts) := by
  refine refuses_textValue.weaken fun text h c hc => ?_
  exact Bool.or_eq_false_iff.mpr ⟨hdouble.stops h c hc, hsingle.stops h c hc⟩

theorem reads_numberValue {t : Token} {v : Value} (hreference : t.begins '$' = false)
    (hdouble : t.begins '"' = false) (hsingle : t.begins '\'' = false)
    (h : number.Reads (Facing (t :: ts)) v (Spaced false ts)) :
    (valueWithin (depth + 1)).Reads (Spaced false (t :: ts)) v (Spaced false ts) := by
  refine Reads.padded (Reads.firstOf (l := [variableUse, textValue]) ?_ h)
  simp only [List.forall_mem_cons]
  exact ⟨(refuses_char_of_avoids (avoids_cons hreference)).bind,
    refuses_textValue_of_avoids (avoids_cons hdouble) (avoids_cons hsingle),
    List.forall_mem_nil _⟩

/-- What is tried before lists refuses every mark. -/
theorem refuses_mark {c : Char} (hc : c ∈ marks) :
    ∀ p ∈ [variableUse, textValue, number, word], p.Refuses (Facing (.mark c :: ts)) := by
  have hmarks : ∀ c ∈ marks, (c == '$') = false ∧ (c == '"' || c == '\'') = false ∧
      (Number.isDigit c || c == '-') = false ∧ Text.isIdentifierPart c = false := by decide
  obtain ⟨hreference, htext, hnumber, hword⟩ := hmarks c hc
  simp only [List.forall_mem_cons]
  exact ⟨refuses_reference.weaken fun _ => Facing.stops_mark hreference,
    refuses_textValue.weaken fun _ => Facing.stops_mark htext,
    refuses_number.weaken fun _ => Facing.stops_mark hnumber,
    refuses_word.weaken fun _ => Facing.stops_mark hword, List.forall_mem_nil _⟩

theorem refuses_listOf {p : Parser Value} {t : Token} (h : t.begins '[' = false) :
    (listOf p).Refuses (Facing (t :: ts)) :=
  ((refuses_between (avoids_cons h)).weaken fun _ => Facing.spaced).bind

/-- A value refuses the marks that lists end with. -/
theorem refuses_valueWithin {c : Char} (hc : c ∈ marks) (hlist : (Token.mark c).begins '[' = false)
    (hobject : (Token.mark c).begins '\x7b' = false) :
    (valueWithin depth).Refuses (Spaced false (.mark c :: ts)) := by
  cases depth with
  | zero => exact fun _ _ => rfl
  | succ depth =>
      refine Refuses.padded (Refuses.firstOf (List.forall_mem_append.mpr ⟨refuses_mark hc, ?_⟩))
      simp only [List.forall_mem_cons]
      exact ⟨refuses_listOf hlist, ((refuses_between (avoids_cons hobject)).weaken fun _ =>
        Facing.spaced).bind, List.forall_mem_nil _⟩

theorem refuses_objectKey : objectKey.Refuses (Spaced false (.mark '\x7d' :: ts)) := by
  refine Refuses.padded
    (Refuses.either (refuses_quotedText.weaken fun _ => Facing.stops_mark rfl) ?_)
  refine Reads.refuses_bind
    (Refuses.optional ((refuses_char '$').weaken fun _ => Facing.stops_mark rfl)) ?_
  exact Refuses.bind ((refuses_run1 _).weaken fun _ => Facing.stops_mark rfl)

variable {inner : List Token} {p : Parser Value}

theorem reads_listOf {items : List Value} {written : Value → List Token → Prop}
    (h : Listed written items inner) (hread : ∀ v toks ts, written v toks →
      p.Reads (Spaced false (toks ++ ts)) v (Spaced false ts))
    (hstop : p.Refuses (Spaced false (.mark ']' :: ts))) :
    (listOf p).Reads (Facing (.mark '[' :: (inner ++ [.mark ']']) ++ ts)) (.list items)
    (Spaced false ts) := by
  have hitems :=
    reads_separated (fun _ => True) h trivial (fun _ => trivial)
      (fun _ _ ts hv _ => hread _ _ ts hv)
    (avoids_cons rfl) hstop
  exact Reads.bind ((reads_between '[' ']' hitems).weaken (fun _ => Facing.spaced) fun _ h => h)
    (reads_pure _ _)

theorem reads_objectOf {fields : List (String × Value)}
    {written : String × Value → List Token → Prop} (h : Listed written fields inner)
    (hread : ∀ entry toks ts, written entry toks →
      (entryOf p).Reads (Spaced false (toks ++ ts)) entry (Spaced false ts)) :
    (objectOf p).Reads (Facing (.mark '\x7b' :: (inner ++ [.mark '\x7d']) ++ ts)) (.object fields)
      (Spaced false ts) := by
  have hfields :
    (separated (entryOf p) (symbol ',')).Reads (Spaced false (inner ++ .mark '\x7d' :: ts)) fields
      (Spaced false (.mark '\x7d' :: ts)) :=
    reads_separated (fun _ => True) h trivial (fun _ => trivial)
      (fun _ _ ts hentry _ => hread _ _ ts hentry) (avoids_cons rfl) refuses_objectKey.bind
  exact Reads.bind ((reads_between '\x7b' '\x7d' hfields).weaken (fun _ => Facing.spaced)
    fun _ h => h) (reads_pure _ _)

/-- A value is read within as many levels as it has tokens. -/
theorem reads_valueWithin {v : Value} {toks : List Token} (h : ValueTokens v toks)
    (hdepth : toks.length ≤ depth) :
    (valueWithin depth).Reads (Spaced false (toks ++ ts)) v (Spaced false ts) := by
  induction depth generalizing v toks ts with
  | zero => cases h <;> cases hdepth
  | succ depth ih =>
      have hlength {c d : Char} {inner : List Token}
          (h : (Token.mark c :: (inner ++ [Token.mark d])).length ≤ depth + 1) :
          inner.length ≤ depth := by
        simp only [List.length_cons, List.length_append] at h
        omega
      cases h with
      | null => exact reads_null
      | true => exact reads_true
      | false => exact reads_false
      | int => exact reads_numberValue rfl rfl rfl (reads_number_int _)
      | float => exact reads_numberValue rfl rfl rfl (reads_number_float _)
      | @text s =>
          refine Reads.padded (Reads.firstOf (l := [variableUse]) ?_
            (Reads.bind (reads_quotedText s) (reads_pure _ _)))
          exact List.forall_mem_singleton.mpr (refuses_char_of_avoids (avoids_cons rfl)).bind
      | reference =>
          exact Reads.padded (Reads.firstOf (l := []) (List.forall_mem_nil _) (reads_reference _))
      | list hitems =>
          refine Reads.padded (Reads.firstOf (refuses_mark (by decide))
            (reads_listOf (hitems.within (hlength hdepth)) ?_ ?_))
          · exact fun v toks ts hv => ih hv.1 hv.2
          · exact refuses_valueWithin (by decide) rfl rfl
      | object hfields =>
          refine Reads.padded
            (Reads.firstOf (l := [variableUse, textValue, number, word, listOf (valueWithin depth)])
            (List.forall_mem_append.mpr ⟨refuses_mark (by decide), ?_⟩)
            (reads_objectOf (hfields.within (hlength hdepth)) ?_))
          · exact List.forall_mem_singleton.mpr (refuses_listOf rfl)
          · rintro ⟨key, value⟩ toks ts ⟨hentry, hlength⟩
            cases hentry with
            | mk hvalue =>
                have hvalue :
                    (valueWithin depth).Reads (Spaced false (_ ++ ts)) value (Spaced false ts) :=
                  ih hvalue (Nat.le_of_succ_le (Nat.le_of_succ_le hlength))
                exact Reads.bind (reads_objectKey key)
                  (Reads.bind (reads_symbol ':') (Reads.bind hvalue (reads_pure _ _)))

theorem reads_value {v : Value} {toks : List Token} (h : ValueTokens v toks) :
    value.Reads (Spaced false (toks ++ ts)) v (Spaced false ts) := by
  intro at_ hat
  refine reads_valueWithin h ?_ at_ hat
  have hlength := hat.length_le
  rw [List.length_append] at hlength
  omega

end Values

section Directives
variable {ts toks : List Token} {text : List Char}

theorem forall_head?_append {P : Token → Prop} (h : ∀ t ∈ toks.head?, P t)
    (hts : ∀ t ∈ ts.head?, P t) : ∀ t ∈ (toks ++ ts).head?, P t := by
  cases toks with
  | nil => exact hts
  | cons t toks => exact h

theorem Avoids.append {c : Char} (h : Avoids c toks) (hts : Avoids c ts) : Avoids c (toks ++ ts) :=
  forall_head?_append h hts

theorem Group.head {α : Type} {as : List α} {left right : Char}
    {writtenAll : List α → List Token → Prop} (h : Group left right writtenAll as toks) :
    ∀ t ∈ toks.head?, t = .mark left := by
  cases h with
  | absent => exact fun t ht => by cases ht
  | present => exact fun t ht => (Option.some.inj ht).symm

theorem Group.avoids {α : Type} {as : List α} {left right c : Char}
    {writtenAll : List α → List Token → Prop} (h : Group left right writtenAll as toks)
    (hc : (left == c) = false) : Avoids c toks :=
  fun t ht => h.head t ht ▸ hc

/-- Where no word begins, no name does. -/
theorem refuses_paddedName (h : ∀ t ∈ ts.head?, t.isWord = false) :
    (padded name).Refuses (Spaced false ts) := by
  have hall : ∀ c ∈ openings, isNameChar c = false := by decide
  refine Refuses.padded
    (Refuses.bind ((refuses_run1 isNameChar).weaken fun text hfacing c hc => ?_))
  obtain ⟨t, ht, hopens⟩ := hfacing.head hc
  exact hall c (hopens.opening (h t ht))

theorem reads_paddedName (s : String) :
    (padded name).Reads (Spaced false (.name s :: ts)) s (Spaced false ts) := (reads_name s).padded

theorem reads_argument {a : Argument} (h : ArgumentTokens a toks) :
    argument.Reads (Spaced false (toks ++ ts)) a (Spaced false ts) := by
  cases h with
  | mk hvalue =>
      exact Reads.bind (reads_paddedName _)
        (Reads.bind (reads_symbol ':') (Reads.bind (reads_value hvalue) (reads_pure _ _)))

theorem reads_arguments (ts : List Token) {arguments : List Argument}
    (h : Group '(' ')' (Listed ArgumentTokens) arguments toks) (hts : Avoids '(' ts) :
    ∃ group, (optional argumentList).Reads (Spaced false (toks ++ ts)) group (Spaced false ts) ∧
      group.getD [] = arguments := by
  refine reads_group ts h hts fun inner hinner _ => ?_
  refine reads_separated (fun _ => True) hinner trivial (fun _ => trivial)
    (fun _ _ _ ha _ => reads_argument ha) (avoids_cons rfl) ?_
  exact Refuses.bind (refuses_paddedName (by rintro t ⟨⟩; rfl))

theorem reads_directive {d : Directive} (h : DirectiveTokens d toks) (hts : Avoids '(' ts) :
    directive.Reads (Spaced false (toks ++ ts)) d (Spaced false ts) := by
  cases h with
  | @mk key arguments toks harguments =>
      obtain ⟨group, hread, rfl⟩ := reads_arguments ts harguments hts
      refine Reads.padded fun at_ hat => ?_
      obtain ⟨_, hspells, hbefore⟩ := hat
      cases hspells with
      | directive hkey =>
          refine Reads.bind (reads_char '@') ?_ at_ (before_append (s := ['@']) hbefore)
          exact Reads.bind (reads_word hkey) (Reads.bind hread (reads_pure _ _))

theorem refuses_directive (h : Avoids '@' ts) : directive.Refuses (Spaced false ts) :=
  Refuses.padded (refuses_char_of_avoids h).bind

theorem DirectiveTokens.head {d : Directive} (h : DirectiveTokens d toks) :
    ∀ t ∈ (toks ++ ts).head?, ∃ key, t = .directive key := by
  cases h with
  | mk => exact fun t ht => ⟨_, (Option.some.inj ht).symm⟩

theorem Sequence.head_directives {directives : List Directive}
    (h : Sequence DirectiveTokens directives toks) :
    ∀ t ∈ toks.head?, ∃ key, t = .directive key := by
  cases h with
  | nil => exact fun t ht => by cases ht
  | cons hd _ => exact hd.head

theorem avoids_of_directive {c : Char} (h : ∀ t ∈ ts.head?, ∃ key, t = .directive key)
    (hc : (c == '@') = false) : Avoids c ts := by
  intro t ht
  obtain ⟨key, rfl⟩ := h t ht
  exact hc

theorem reads_directives (ts : List Token) {directives : List Directive}
    (h : Sequence DirectiveTokens directives toks) (harguments : Avoids '(' ts)
    (hdirective : Avoids '@' ts) :
    (many directive).Reads (Spaced false (toks ++ ts)) directives (Spaced false ts) := by
  refine reads_many (Avoids '(') h ?_ harguments (fun _ _ _ hd => avoids_of_directive hd.head rfl)
    (fun _ _ _ hd hts => reads_directive hd hts) (refuses_directive hdirective)
  rintro d toks ⟨⟩
  exact List.cons_ne_nil _ _

end Directives

section Fields
variable {ts toks : List Token} {depth : Nat} {f : Field}

/-- What may stand behind a field: nothing that would go on with it. -/
def EndsField (ts : List Token) : Prop := ∀ c ∈ [':', '(', '@', '\x7b', ','], Avoids c ts

theorem endsField_mark : EndsField (.mark '\x7d' :: ts) := by
  refine fun c hc => avoids_cons ?_
  revert c
  decide

theorem endsField_name (s : String) : EndsField (.name s :: ts) := by
  have hnone : ∀ c ∈ [':', '(', '@', '\x7b', ','], isNameChar c = false := by decide
  exact fun c hc => avoids_cons (hnone c hc)

theorem FieldTokens.endsField (h : FieldTokens f toks) : EndsField (toks ++ ts) := by
  cases h with
  | @mk label =>
      cases label with
      | none => exact endsField_name _
      | some label => exact endsField_name label

theorem FieldTokens.ne_nil (h : FieldTokens f toks) : toks ≠ [] := by
  cases h
  simp

theorem reads_aliasAndName (ts : List Token) (label : Option String) (key : String)
    (hts : Avoids ':' ts) :
    aliasAndName.Reads (Spaced false (labelTokens label ++ .name key :: ts)) (label, key)
      (Spaced false ts) := by
  cases label with
  | none =>
      refine Reads.bind (reads_paddedName key) (Reads.bind (Refuses.optional ?_) (reads_pure _ _))
      exact Refuses.bind (refuses_symbol hts)
  | some label =>
      refine Reads.bind (reads_paddedName label) (Reads.bind (Reads.optional ?_) (reads_pure _ _))
      exact Reads.bind (reads_symbol ':') (reads_paddedName key)

theorem refuses_fieldWithin (h : ∀ t ∈ ts.head?, t.isWord = false) :
    (fieldWithin depth).Refuses (Spaced false ts) := by
  cases depth with
  | zero => exact fun _ _ => rfl
  | succ depth => exact Refuses.bind (Refuses.bind (refuses_paddedName h))

/-- A field is read within as many levels as it has tokens. -/
theorem reads_fieldWithin (h : FieldTokens f toks) (hdepth : toks.length ≤ depth)
    (hts : EndsField ts) :
    (fieldWithin depth).Reads (Spaced false (toks ++ ts)) f (Spaced false ts) := by
  induction depth generalizing f toks ts with
  | zero => exact absurd (List.length_eq_zero_iff.mp (Nat.le_zero.mp hdepth)) h.ne_nil
  | succ depth ih =>
      cases h with
      | @mk label key arguments directives selection args dirs sel comma hargs hdirs hsel hcomma =>
          obtain ⟨hcolon, hparen, hat, hbrace, hmore⟩ :
            Avoids ':' ts ∧ Avoids '(' ts ∧ Avoids '@' ts ∧
              Avoids '\x7b' ts ∧ Avoids ',' ts := by simpa [EndsField] using hts
          have hcommas {c : Char} (hc : (',' == c) = false) : Avoids c comma := by
            rcases hcomma with rfl | rfl
            · exact fun t ht => by cases ht
            · exact avoids_cons hc
          obtain ⟨selected, hreadSel, rfl⟩ := reads_group (comma ++ ts) hsel
            ((hcommas rfl).append hbrace) fun inner hinner hlength => by
              have hwithin : inner.length ≤ depth := by
                simp only [List.length_append, List.length_cons] at hdepth
                omega
              exact reads_many EndsField (hinner.within hwithin) (fun _ _ hf => hf.1.ne_nil)
                endsField_mark (fun _ _ _ hf => hf.1.endsField)
                  (fun _ _ _ hf hts => ih hf.1 hf.2 hts)
                (refuses_fieldWithin (by rintro t ⟨⟩; rfl))
          have hreadDirs := reads_directives (sel ++ (comma ++ ts)) hdirs
            ((hsel.avoids rfl).append ((hcommas rfl).append hparen))
            ((hsel.avoids rfl).append ((hcommas rfl).append hat))
          obtain ⟨given, hreadArgs, rfl⟩ := reads_arguments (dirs ++ (sel ++ (comma ++ ts))) hargs
            ((avoids_of_directive hdirs.head_directives rfl).append
              ((hsel.avoids rfl).append ((hcommas rfl).append hparen)))
          have hreadLabel := reads_aliasAndName (args ++ (dirs ++ (sel ++ (comma ++ ts)))) label key
            ((hargs.avoids rfl).append ((avoids_of_directive hdirs.head_directives rfl).append
              ((hsel.avoids rfl).append ((hcommas rfl).append hcolon))))
          have hreadComma : ∃ last, (optional (symbol ',')).Reads (Spaced false (comma ++ ts)) last
              (Spaced false ts) := by
            rcases hcomma with rfl | rfl
            · exact ⟨none, (refuses_symbol hmore).optional⟩
            · exact ⟨some (), (reads_symbol ',').optional⟩
          obtain ⟨last, hreadLast⟩ := hreadComma
          simp only [List.append_assoc, List.cons_append]
          exact Reads.bind hreadLabel
            (Reads.bind hreadArgs (Reads.bind hreadDirs (Reads.bind hreadSel
            (Reads.bind hreadLast (reads_pure _ _)))))

theorem reads_field (h : FieldTokens f toks) (hts : EndsField ts) :
    field.Reads (Spaced false (toks ++ ts)) f (Spaced false ts) := by
  intro at_ hat
  refine reads_fieldWithin h ?_ hts at_ hat
  have hlength := hat.length_le
  rw [List.length_append] at hlength
  omega

theorem reads_selection (ts : List Token) {selection : List Field}
    (h : SelectionTokens selection toks) :
    selectionSet.Reads (Spaced false (toks ++ ts)) selection (Spaced false ts) := by
  cases h with
  | @mk f rest inner hinner =>
      cases hinner with
      | @cons _ first _ others hf hrest =>
          refine reads_between '\x7b' '\x7d' ?_
          have hends : EndsField (others ++ .mark '\x7d' :: ts) := by
            cases hrest with
            | nil => exact endsField_mark
            | cons hg _ =>
                rw [List.append_assoc]
                exact hg.endsField
          have hreadRest : (many field).Reads (Spaced false (others ++ .mark '\x7d' :: ts)) rest
              (Spaced false (.mark '\x7d' :: ts)) :=
            reads_many EndsField hrest (fun _ _ hg => hg.ne_nil) endsField_mark
              (fun _ _ _ hg => hg.endsField) (fun _ _ _ hg hts => reads_field hg hts)
              fun at_ => refuses_fieldWithin (by rintro t ⟨⟩; rfl) at_
          rw [List.append_assoc]
          exact Reads.bind (reads_field hf hends) (Reads.bind hreadRest (reads_pure _ _))

theorem refuses_selection (h : Avoids '\x7b' ts) : selectionSet.Refuses (Spaced false ts) :=
  refuses_between h

end Fields

section Operations
variable {ts toks : List Token}

/-- What may stand behind the definition of a variable. -/
def EndsDefinition (ts : List Token) : Prop := Avoids '=' ts ∧ Avoids '[' ts ∧ Avoids ']' ts

theorem reads_definition {d : VariableDefinition} (h : DefinitionTokens d toks)
    (hts : EndsDefinition ts) :
    variableDefinition.Reads (Spaced false (toks ++ ts)) d (Spaced false ts) := by
  have hkey (key : String) (ts : List Token) : (padded do char '$'; name).Reads
      (Spaced false (.reference key :: ts)) key (Spaced false ts) := by
    refine Reads.padded fun at_ hat => ?_
    obtain ⟨_, hspells, hbefore⟩ := hat
    cases hspells with
    | reference hs =>
        exact Reads.bind (reads_char '$') (reads_word hs) at_ (before_append (s := ['$']) hbefore)
  have htype (s : String) (ts : List Token) (hbegin : Avoids '[' ts) (hend : Avoids ']' ts) :
      (padded (run1 isTypeChar)).Reads (Spaced false (.type s :: ts)) s.toList (Spaced false ts) :=
    (reads_type hbegin hend).padded
  obtain ⟨hequals, hbegin, hend⟩ := hts
  cases h with
  | @plain key type =>
      have hnone :
          (optional (do symbol '='; value)).Reads (Spaced false ts) none (Spaced false ts) :=
        Refuses.optional (refuses_symbol hequals).bind
      have hdefinition :
        variableDefinition.Reads (Spaced false ([.reference key, .mark ':', .type type] ++ ts))
          ⟨key, String.ofList type.toList, none⟩ (Spaced false ts) :=
        Reads.bind (hkey key _)
          (Reads.bind (reads_symbol ':') (Reads.bind (htype type ts hbegin hend)
          (Reads.bind hnone (reads_pure _ _))))
      rwa [String.ofList_toList] at hdefinition
  | @default key type v toks hv =>
      have hsome :
        (optional (do symbol '='; value)).Reads (Spaced false (.mark '=' :: (toks ++ ts))) (some v)
          (Spaced false ts) :=
        Reads.optional (Reads.bind (reads_symbol '=') (reads_value hv))
      have hdefinition : variableDefinition.Reads
          (Spaced false (.reference key :: .mark ':' :: .type type :: .mark '=' :: toks ++ ts))
          ⟨key, String.ofList type.toList, some v⟩ (Spaced false ts) :=
        Reads.bind (hkey key _) (Reads.bind (reads_symbol ':') (Reads.bind
          (htype type _ (avoids_cons rfl) (avoids_cons rfl)) (Reads.bind hsome (reads_pure _ _))))
      rwa [String.ofList_toList] at hdefinition

theorem reads_definitions (ts : List Token) {definitions : List VariableDefinition}
    (h : Group '(' ')' (Listed DefinitionTokens) definitions toks) (hts : Avoids '(' ts) :
    ∃ group, (optional variableDefinitions).Reads (Spaced false (toks ++ ts))
      group (Spaced false ts) ∧ group.getD [] = definitions := by
  refine reads_group ts h hts fun inner hinner _ => ?_
  refine reads_separated EndsDefinition hinner ?_ (fun _ => ?_)
    (fun _ _ _ hd hts => reads_definition hd hts) (avoids_cons rfl) ?_
  · exact ⟨avoids_cons rfl, avoids_cons rfl, avoids_cons rfl⟩
  · exact ⟨avoids_cons rfl, avoids_cons rfl, avoids_cons rfl⟩
  · exact Refuses.bind (Refuses.padded (refuses_char_of_avoids (avoids_cons rfl)).bind)

theorem reads_operationKind (kind : OperationKind) :
    operationKind.Reads (Spaced false (.name kind.word :: ts)) kind (Spaced false ts) := by
  cases kind with
  | query =>
      exact Reads.padded
        (reads_keywordValue OperationKind.query (by rintro c ⟨⟩; decide)).either_left
  | mutation =>
      exact Reads.padded (Reads.either_right
        (refuses_keywordValue OperationKind.query (by rintro c ⟨⟩; decide) (by decide))
        (reads_keywordValue OperationKind.mutation (by rintro c ⟨⟩; decide)))

theorem refuses_operationKind (h : ∀ text, Facing ts text → Stops Text.isIdentifierStart text) :
    operationKind.Refuses (Spaced false ts) :=
  Refuses.padded (Refuses.either ((refuses_keyword_of_stops _).weaken h).bind
    ((refuses_keyword_of_stops _).weaken h).bind)

theorem SelectionTokens.exists_cons {selection : List Field} (h : SelectionTokens selection toks) :
    ∃ inner, toks = .mark '\x7b' :: inner := by
  cases h
  exact ⟨_, rfl⟩

theorem reads_operation (ts : List Token) {op : Operation} (h : OperationTokens op toks) :
    operation.Reads (Spaced false (toks ++ ts)) op (Spaced false ts) := by
  cases h with
  | @named kind label definitions directives selection defs dirs sel hdefs hdirs hsel =>
      have hreadSel := reads_selection ts hsel
      obtain ⟨inner, rfl⟩ := hsel.exists_cons
      have hbrace {c : Char} (hc : ('\x7b' == c) = false) :
          Avoids c (.mark '\x7b' :: inner ++ ts) := avoids_cons hc
      have hreadDirs := reads_directives _ hdirs (hbrace rfl) (hbrace rfl)
      obtain ⟨defined, hreadDefs, rfl⟩ := reads_definitions _ hdefs
        ((avoids_of_directive hdirs.head_directives rfl).append (hbrace rfl))
      have hreadLabel : (optional (padded name)).Reads
          (Spaced false (nameTokens label ++ (defs ++ (dirs ++ (.mark '\x7b' :: inner ++ ts)))))
            label
          (Spaced false (defs ++ (dirs ++ (.mark '\x7b' :: inner ++ ts)))) := by
        cases label with
        | some label => exact (reads_paddedName label).optional
        | none =>
            rw [nameTokens, List.nil_append]
            refine Refuses.optional
              (refuses_paddedName (forall_head?_append ?_ (forall_head?_append ?_ ?_)))
            · exact fun t ht => hdefs.head t ht ▸ rfl
            · intro t ht
              obtain ⟨key, rfl⟩ := hdirs.head_directives t ht
              rfl
            · rintro t ⟨⟩
              rfl
      simp only [List.append_assoc, List.cons_append]
      refine Reads.either_left ?_
      exact Reads.bind (reads_operationKind kind) (Reads.bind hreadLabel (Reads.bind hreadDefs
        (Reads.bind hreadDirs (Reads.bind hreadSel (reads_pure _ _)))))
  | @shorthand selection _ hsel =>
      have hread := reads_selection ts hsel
      obtain ⟨inner, rfl⟩ := hsel.exists_cons
      refine Reads.either_right ?_ (Reads.bind hread (reads_pure _ _))
      exact Refuses.bind (refuses_operationKind fun _ => Facing.stops_mark (by decide))

theorem OperationTokens.ne_nil {op : Operation} (h : OperationTokens op toks) : toks ≠ [] := by
  cases h with
  | named => exact List.cons_ne_nil _ _
  | shorthand hsel =>
      obtain ⟨inner, rfl⟩ := hsel.exists_cons
      exact List.cons_ne_nil _ _

theorem refuses_operation : operation.Refuses (Spaced false []) := by
  have hend : ∀ text, Facing [] text → Stops Text.isIdentifierStart text := by
    rintro _ rfl c ⟨⟩
  refine Refuses.either (refuses_operationKind hend).bind (refuses_selection ?_).bind
  rintro t ⟨⟩

theorem reads_document {d : Document} {toks : List Token} (hne : d.operations ≠ [])
    (h : Sequence OperationTokens d.operations toks) :
    document.Reads (Spaced false toks) d (Facing []) := by
  obtain ⟨operations⟩ := d
  cases h with
  | nil => exact absurd rfl hne
  | @cons op first rest others hop hrest =>
      have hreadRest : (many operation).Reads (Spaced false others) rest (Spaced false []) := by
        have hmany : (many operation).Reads (Spaced false (others ++ [])) rest (Spaced false []) :=
          reads_many (fun _ => True) hrest (fun _ _ h => h.ne_nil) trivial (fun _ _ _ _ => trivial)
            (fun _ _ ts hop _ => reads_operation ts hop) refuses_operation
        rwa [List.append_nil] at hmany
      have hend : endOfText.Reads (Facing []) () (Facing []) := by
        rintro ⟨offset, _⟩ rfl
        exact ⟨⟨offset, []⟩, rfl, rfl⟩
      have hreadFirst := (reads_operation others hop).weaken (fun _ => Facing.spaced) fun _ h => h
      exact Reads.bind reads_space (Reads.bind hreadFirst (Reads.bind hreadRest
        (Reads.bind reads_space (Reads.bind hend (reads_pure _ _)))))

end Operations

/-- A text reads as a document just if the grammar takes one from its start. -/
theorem read_eq_ok_iff {text : String} {d : Document} :
    Document.read text = .ok d ↔ ∃ next, document.Takes (.start text.toList) d next := by
  -- Deriving the equation of `read`, which `rw` and `unfold` need, takes half a minute.
  delta Document.read Takes
  dsimp only
  rcases document (.start text.toList) with ⟨furthest, _ | ⟨d', next⟩⟩
  · exact ⟨nofun, fun ⟨_, h⟩ => nomatch h⟩
  · simp

end SqlGateway.Request
