import SqlGateway.Json.Token
import SqlGateway.Proofs.Json.Object
import SqlGateway.Proofs.Number.Written

/-!
# Cutting compact texts

A compact text ends where its value ends: a reader that only counts brackets and minds strings finds
the place, whatever follows, and a key is read back from its quotes. So the text of an object
determines its keys and the text of every field, which is what comparing objects by their text
relies on.
-/
namespace SqlGateway.Json

open Number

/-- What the reader of a text is inside of. -/
inductive Inside where
  | value
  | string
  | escape

/-- A character that neither opens, closes nor separates anything. -/
def isOrdinary (c : Char) : Bool :=
  c != '"' && c != '[' && c != ']' && c != '\x7b' && c != '\x7d' && c != ','

/-- Cuts a text after the value that it begins with, of which `depth` brackets are open. -/
def cut : (depth : Nat) → Inside → List Char → List Char × List Char
  | _, _, [] => ([], [])
  | depth, .escape, c :: rest => ((cut depth .string rest).map (c :: ·) id)
  | depth, .string, c :: rest =>
    let next := if c = '\\' then .escape else if c = '"' then .value else .string
    (cut depth next rest).map (c :: ·) id
  | depth, .value, c :: rest =>
    if isOrdinary c then (cut depth .value rest).map (c :: ·) id
    else if c = '"' then (cut depth .string rest).map (c :: ·) id
    else if c = '[' || c = '\x7b' then (cut (depth + 1) .value rest).map (c :: ·) id
    else
      match depth with
      | 0 => ([], c :: rest)
      | outer + 1 =>
        if c = ',' then (cut (outer + 1) .value rest).map (c :: ·) id
        else (cut outer .value rest).map (c :: ·) id

/-- The reader takes a text in and is then inside of what is given. -/
def Takes (depth : Nat) (inside : Inside) (cs : List Char) (depth' : Nat) (inside' : Inside) :
    Prop :=
  ∀ rest, cut depth inside (cs ++ rest) = (cut depth' inside' rest).map (cs ++ ·) id

section Taking
variable {depth depth' depth'' : Nat} {inside inside' inside'' : Inside} {cs ds : List Char}

theorem Takes.nil : Takes depth inside [] depth inside := fun _ => rfl

theorem Takes.append (h : Takes depth inside cs depth' inside')
    (k : Takes depth' inside' ds depth'' inside'') :
    Takes depth inside (cs ++ ds) depth'' inside'' := by
  intro rest
  rw [List.append_assoc, h, k]
  simp [Prod.map]

theorem takes_ordinary (h : ∀ c ∈ cs, isOrdinary c = true) :
    Takes depth .value cs depth .value := by
  induction cs with
  | nil => exact .nil
  | cons c rest ih =>
      intro after
      have := ih (fun d hd => h d (by simp [hd])) after
      simp [cut, h c (by simp), this, Prod.map]

theorem takes_quote : Takes depth .value ['"'] depth .string := fun _ => rfl

theorem takes_endQuote : Takes depth .string ['"'] depth .value := fun _ => rfl

theorem takes_open {c : Char} (h : c = '[' ∨ c = '\x7b') :
    Takes depth .value [c] (depth + 1) .value := by
  intro rest
  obtain rfl | rfl := h <;> rfl

theorem takes_close {c : Char} (h : c = ']' ∨ c = '\x7d') :
    Takes (depth + 1) .value [c] depth .value := by
  intro rest
  obtain rfl | rfl := h <;> rfl

theorem takes_comma : Takes (depth + 1) .value [','] (depth + 1) .value := fun _ => rfl

theorem takes_colon : Takes depth .value [':'] depth .value := fun _ => rfl

end Taking

theorem isOrdinary_of_isNumeric {c : Char} (h : isNumeric c = true) : isOrdinary c = true := by
  by_contra hc
  simp only [isOrdinary, Bool.and_eq_true, bne_iff_ne, ne_eq, not_and_or, not_not] at hc
  obtain ((((rfl | rfl) | rfl) | rfl) | rfl) | rfl := hc <;> exact absurd h (by decide)

theorem takes_numeric {depth : Nat} {cs : List Char} (h : AllNumeric cs) :
    Takes depth .value cs depth .value :=
  takes_ordinary fun c hc => isOrdinary_of_isNumeric (h c hc)

theorem takes_plain {depth : Nat} {cs : List Char} (h : ∀ c ∈ cs, c ≠ '"' ∧ c ≠ '\\') :
    Takes depth .string cs depth .string := by
  induction cs with
  | nil => exact .nil
  | cons c rest ih =>
      intro after
      obtain ⟨hc, hrest⟩ := List.forall_mem_cons.mp h
      simp [cut, hc.1, hc.2, ih hrest after, Prod.map]

theorem plain_hexDigits4 (n : Nat) : ∀ c ∈ hexDigits4 n, c ≠ '"' ∧ c ≠ '\\' := by
  have digit : ∀ d < 16, Nat.digitChar d ≠ '"' ∧ Nat.digitChar d ≠ '\\' := by decide
  intro c hc
  simp only [hexDigits4, List.mem_cons, List.not_mem_nil, or_false] at hc
  obtain rfl | rfl | rfl | rfl := hc <;> exact digit _ (Nat.mod_lt _ (by decide))

theorem takes_escapedChar (depth : Nat) (c : Char) :
    Takes depth .string (escapedChar c) depth .string := by
  unfold escapedChar
  split_ifs with hquote hbackslash
  · exact fun _ => rfl
  · exact fun _ => rfl
  · exact takes_plain (by simp [hquote, hbackslash])
  · exact fun _ => rfl
  · exact fun _ => rfl
  · exact fun _ => rfl
  · exact fun _ => rfl
  · exact fun _ => rfl
  · have hu : Takes depth .string ['\\', 'u'] depth .string := fun _ => rfl
    exact hu.append (takes_plain (plain_hexDigits4 _))

theorem takes_escaped (depth : Nat) (cs : List Char) :
    Takes depth .string (escaped cs) depth .string := by
  induction cs with
  | nil => exact .nil
  | cons c rest ih => exact (takes_escapedChar depth c).append ih

theorem takes_quoted (depth : Nat) (s : String) :
    Takes depth .value (quoted s).toList depth .value := by
  rw [quoted, String.toList_ofList]
  exact (takes_quote.append (takes_escaped depth _)).append takes_endQuote

theorem takes_scalarText (depth : Nat) (v : Json) :
    Takes depth .value v.scalarText.toList depth .value := by
  have null : Takes depth .value "null".toList depth .value :=
    takes_ordinary (List.all_eq_true.mp rfl)
  cases v with
  | null => exact null
  | bool b => cases b <;> exact takes_ordinary (List.all_eq_true.mp rfl)
  | int n => exact takes_numeric (numeric_toString n)
  | float x =>
      simp only [scalarText]
      split_ifs with hx
      · cases x with
        | finite negative significand exponent =>
            rw [Layout.write, String.toList_ofList]
            exact takes_numeric (numeric_finiteText _ negative significand exponent)
        | infinite negative => exact absurd hx (by simp [Binary64.isFinite])
        | nan => exact absurd hx (by simp [Binary64.isFinite])
      · exact null
  | text s => exact takes_quoted depth s
  | list items => exact null
  | object fields => exact null

mutual

/-- A text of a value is taken in from its start to its end, at any depth. -/
theorem takes_compact (depth : Nat) : (v : Json) → Takes depth .value v.compact.toList depth .value
  | .null => takes_scalarText depth .null
  | .bool b => takes_scalarText depth (.bool b)
  | .int n => takes_scalarText depth (.int n)
  | .float x => takes_scalarText depth (.float x)
  | .text s => takes_scalarText depth (.text s)
  | .list items => by
      simp only [compact, String.toList_append]
      exact ((takes_open (.inl rfl)).append (takes_compactItems depth items)).append
        (takes_close (.inl rfl))
  | .object fields => by
      simp only [compact, String.toList_append]
      exact ((takes_open (.inr rfl)).append (takes_compactFields depth fields)).append
        (takes_close (.inr rfl))

theorem takes_compactItems (depth : Nat) :
    (items : List Json) → Takes (depth + 1) .value (compactItems items).toList (depth + 1) .value
  | [] => .nil
  | [item] => takes_compact (depth + 1) item
  | item :: next :: rest => by
      simp only [compactItems, String.toList_append]
      exact ((takes_compact (depth + 1) item).append takes_comma).append
        (takes_compactItems depth (next :: rest))

theorem takes_compactFields (depth : Nat) :
    (fields : Object) → Takes (depth + 1) .value (compactFields fields).toList (depth + 1) .value
  | [] => .nil
  | [(key, value)] => by
      simp only [compactFields, String.toList_append]
      exact ((takes_quoted (depth + 1) key).append takes_colon).append
        (takes_compact (depth + 1) value)
  | (key, value) :: next :: rest => by
      simp only [compactFields, String.toList_append]
      exact ((((takes_quoted (depth + 1) key).append takes_colon).append
        (takes_compact (depth + 1) value)).append takes_comma).append
        (takes_compactFields depth (next :: rest))

end

/-- Nothing follows a value, or a comma does. -/
def Ends : List Char → Prop
  | [] => True
  | c :: _ => c = ','

theorem cut_compact {v : Json} {rest : List Char} (h : Ends rest) :
    cut 0 .value (v.compact.toList ++ rest) = (v.compact.toList, rest) := by
  have hrest : cut 0 .value rest = ([], rest) := by
    cases rest with
    | nil => rfl
    | cons c rest =>
        obtain rfl : c = ',' := h
        rfl
  rw [takes_compact 0 v rest, hrest]
  simp [Prod.map]

/-- What stands before and after the end of a value is determined by the whole text. -/
theorem compact_append_inj {v w : Json} {rest rest' : List Char} (hr : Ends rest) (hr' : Ends rest')
    (h : v.compact.toList ++ rest = w.compact.toList ++ rest') :
    v.compact = w.compact ∧ rest = rest' := by
  have := congrArg (cut 0 .value) h
  rw [cut_compact hr, cut_compact hr'] at this
  obtain ⟨htext, hrest⟩ := Prod.mk.inj this
  exact ⟨String.toList_injective htext, hrest⟩

/-- What follows the first value in the text of fields. -/
def afterFirst (rest : Object) : List Char :=
  if rest.isEmpty then [] else ',' :: (compactFields rest).toList

theorem ends_afterFirst (rest : Object) : Ends (afterFirst rest) := by
  cases rest with
  | nil => exact trivial
  | cons field rest => rfl

theorem compactFields_cons (key : String) (v : Json) (rest : Object) :
    (compactFields ((key, v) :: rest)).toList =
      (quoted key ++ ":").toList ++ (v.compact.toList ++ afterFirst rest) := by
  cases rest with
  | nil => simp [compactFields, afterFirst]
  | cons field rest => simp [compactFields, afterFirst]

theorem compactFields_of_afterFirst {rest rest' : Object} (h : afterFirst rest = afterFirst rest') :
    (compactFields rest).toList = (compactFields rest').toList := by
  cases rest <;> cases rest' <;> simp_all [afterFirst]

theorem hexUnit?_hexDigits4 {n : Nat} (h : n < 0x10000) (rest : List Char) :
    hexUnit? (hexDigits4 n ++ rest) = some (n, rest) := by
  have digit : ∀ d < 16, hexValue? (Nat.digitChar d) = some d := by decide
  have value : ∀ m, hexValue? (Nat.digitChar (m % 16)) = some (m % 16) :=
    fun m => digit _ (Nat.mod_lt m (by decide))
  simp only [hexDigits4, List.cons_append, List.nil_append, hexUnit?, value]
  congr 2
  omega

theorem stringBody_escape {cs after : List Char} {c : Char} (h : escape? cs = some (c, after)) :
    stringBody ('\\' :: cs) = (stringBody after).map fun (s, rest) => (c :: s, rest) := by
  rw [stringBody, if_pos rfl]
  · split
    · next hnone => rw [h] at hnone; cases hnone
    · next decoded rest hsome =>
        obtain ⟨rfl, rfl⟩ := Prod.mk.inj (Option.some.inj (h.symm.trans hsome))
        rfl
  · simp

/-- An escaped character is read back. -/
theorem stringBody_escapedChar (c : Char) (cs : List Char) :
    stringBody (escapedChar c ++ cs) = (stringBody cs).map fun (s, rest) => (c :: s, rest) := by
  have named {d : Char} (h : escape? (d :: cs) = some (c, cs)) :
      stringBody (['\\', d] ++ cs) = (stringBody cs).map fun (s, rest) => (c :: s, rest) :=
    stringBody_escape h
  have code {n : Nat} {d : Char} (h : c.toNat = n) (hd : d.toNat = n) : c = d :=
    Char.toNat_inj.mp (h.trans hd.symm)
  unfold escapedChar
  split_ifs with hquote hbackslash hplain hnewline hreturn htab hback hfeed
  · exact named (by rw [hquote]; rfl)
  · exact named (by rw [hbackslash]; rfl)
  · rw [List.singleton_append, stringBody, if_neg hbackslash, if_neg (Nat.not_lt.mpr hplain)]
    exact hquote
  · exact named (hnewline ▸ rfl)
  · exact named (hreturn ▸ rfl)
  · exact named (htab ▸ rfl)
  · exact named (code hback (d := '\x08') rfl ▸ rfl)
  · exact named (code hfeed (d := '\x0c') rfl ▸ rfl)
  · have hunit := hexUnit?_hexDigits4 (n := c.toNat) (by omega) cs
    refine stringBody_escape ?_
    change unicodeEscape? (hexDigits4 c.toNat ++ cs) = _
    have hsmall : (decide (c.toNat < 0xd800) || decide (0xe000 ≤ c.toNat)) = true := by
      rw [Bool.or_eq_true]
      exact .inl (decide_eq_true (by omega))
    simp only [unicodeEscape?, hunit, hsmall, if_true, Char.ofNat_toNat]

/-- An escaped string is read back up to its closing quote. -/
theorem stringBody_escaped (s rest : List Char) :
    stringBody (escaped s ++ '"' :: rest) = some (s, rest) := by
  induction s with
  | nil => rw [escaped, List.flatMap_nil, List.nil_append, stringBody]
  | cons c s ih =>
      have hwritten :
          escaped (c :: s) ++ '"' :: rest = escapedChar c ++ (escaped s ++ '"' :: rest) := by
        rw [escaped, List.flatMap_cons, List.append_assoc, escaped]
      rw [hwritten, stringBody_escapedChar, ih, Option.map_some]

/-- A quoted string and what follows it are determined by the text. -/
theorem quoted_append_inj {s t : String} {rest rest' : List Char}
    (h : (quoted s).toList ++ rest = (quoted t).toList ++ rest') : s = t ∧ rest = rest' := by
  have body (s : String) (rest : List Char) :
      (quoted s).toList ++ rest = '"' :: (escaped s.toList ++ '"' :: rest) := by
    rw [quoted, String.toList_ofList, List.cons_append, List.append_assoc, List.singleton_append]
  rw [body, body] at h
  have hread := congrArg stringBody (List.cons.inj h).2
  rw [stringBody_escaped, stringBody_escaped] at hread
  obtain ⟨hs, hrest⟩ := Prod.mk.inj (Option.some.inj hread)
  exact ⟨String.toList_injective hs, hrest⟩

/-- Fields with the same keys in the same order, and under them values of the same text. -/
def SameTexts (a b : Object) : Prop :=
  List.Forall₂ (fun field other => field.1 = other.1 ∧ field.2.compact = other.2.compact) a b

theorem SameTexts.get? {a b : Object} (h : SameTexts a b) (key : String) :
    (a.get? key).map compact = (b.get? key).map compact := by
  induction h with
  | nil => rfl
  | @cons field other _ _ hfirst _ ih =>
      obtain ⟨k, v⟩ := field
      obtain ⟨k', w⟩ := other
      obtain ⟨rfl, htext⟩ : k = k' ∧ v.compact = w.compact := hfirst
      by_cases hk : k = key
      · simp [Object.get?, hk, htext]
      · simpa [Object.get?, hk] using ih

theorem sameTexts_of_compactFields {a b : Object}
    (htext : (compactFields a).toList = (compactFields b).toList) : SameTexts a b := by
  have nonempty (field : String × Json) (rest : Object) :
      (compactFields (field :: rest)).toList ≠ [] := by
    obtain ⟨key, value⟩ := field
    rw [compactFields_cons]
    simp
  induction a generalizing b with
  | nil =>
      cases b with
      | nil => exact .nil
      | cons other rest' => exact absurd htext.symm (nonempty other rest')
  | cons field rest ih =>
      cases b with
      | nil => exact absurd htext (nonempty field rest)
      | cons other rest' =>
          obtain ⟨k, v⟩ := field
          obtain ⟨k', w⟩ := other
          rw [compactFields_cons, compactFields_cons] at htext
          simp only [String.toList_append, List.append_assoc] at htext
          -- The keys are read back, and the first values are cut at the same place.
          obtain ⟨rfl, hvalues⟩ := quoted_append_inj htext
          obtain ⟨hv, hrest⟩ := compact_append_inj (ends_afterFirst rest) (ends_afterFirst rest')
            (List.append_cancel_left hvalues)
          exact .cons ⟨rfl, hv⟩ (ih (compactFields_of_afterFirst hrest))

/-- Objects of the same text have the same keys, in the same order, and values of the same text. -/
theorem sameTexts_of_compact {a b : Object}
    (htext : (Json.object a).compact = (Json.object b).compact) : SameTexts a b := by
  have htext := congrArg String.toList htext
  simp only [compact, String.toList_append, List.append_assoc, List.append_cancel_left_eq,
    List.append_cancel_right_eq] at htext
  exact sameTexts_of_compactFields htext

end SqlGateway.Json
