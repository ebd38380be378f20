import SqlGateway.Proofs.Query.Wording
import SqlGateway.Proofs.Text.Search

/-!
# Words of statements

The words that begin and divide the clauses of a statement are none of the words inside the clauses.
No word or name in a statement ends it, and none begins a comment.
-/
namespace SqlGateway.Query

open Number Text

/-- The words around the clauses of a statement. -/
def clauseWords : List String :=
  ["SELECT", "TOP", "FROM", "INNER", "LEFT", "RIGHT", "JOIN", "ON", "WHERE", "GROUP", "ORDER", "BY",
    "LIMIT", "OFFSET", "ROWS", "FETCH", "NEXT", "ONLY"]

/-- A word around clauses, in letters of either case. -/
def Reserved (w : String) : Prop := uppered w ∈ clauseWords

instance (w : String) : Decidable (Reserved w) := by
  unfold Reserved
  infer_instance

/-- A text that neither ends a statement nor begins a comment. -/
structure Quiet (cs : List Char) : Prop where
  semicolon : ';' ∉ cs
  dashes : occurs ['-', '-'] cs = false
  slash : occurs ['/', '*'] cs = false

theorem quiet_iff {cs : List Char} : Quiet cs ↔
    ';' ∉ cs ∧ occurs ['-', '-'] cs = false ∧ occurs ['/', '*'] cs = false :=
  ⟨fun h => ⟨h.semicolon, h.dashes, h.slash⟩, fun ⟨hs, hd, hc⟩ => ⟨hs, hd, hc⟩⟩

instance (cs : List Char) : Decidable (Quiet cs) := decidable_of_iff' _ quiet_iff

section Dashes
variable {cs ds : List Char}

/-- A dash before no other dash. -/
theorem occurs_dashes_cons (h : cs.head? ≠ some '-') :
    occurs ['-', '-'] ('-' :: cs) = occurs ['-', '-'] cs := by
  have hstart : startsWith ['-', '-'] ('-' :: cs) = false := by
    cases cs with
    | nil => rfl
    | cons c rest =>
        have hc : '-' ≠ c := fun heq => h (by rw [heq, List.head?_cons])
        simp [startsWith, dropFront?, hc]
  rw [occurs, hstart, Bool.false_or]

theorem not_mem_digits (h : cs.all isDigit = true) : '-' ∉ cs := by
  intro hmem
  exact absurd (List.all_eq_true.mp h _ hmem) (by decide)

theorem dashes_natural? {n : Nat} (h : natural? cs = some n) : '-' ∉ cs := by
  unfold natural? at h
  split_ifs at h with hall
  exact not_mem_digits (Bool.and_eq_true_iff.mp hall).2

theorem dashes_of_splitSign (hrest : occurs ['-', '-'] (splitSign cs).2 = false)
    (hhead : (splitSign cs).2.head? ≠ some '-') : occurs ['-', '-'] cs = false := by
  unfold splitSign at hrest hhead
  split at hrest
  · rename_i rest
    have hhead : rest.head? ≠ some '-' := hhead
    rw [occurs_dashes_cons hhead]
    exact hrest
  · rename_i rest
    have hplus : '-' ∉ ['+'] := by decide
    have happend : occurs ['-', '-'] (['+'] ++ rest) = occurs ['-', '-'] rest :=
      occurs_append_of_not_mem hplus
    rw [List.singleton_append] at happend
    rw [happend]
    exact hrest
  · exact hrest

theorem dashes_splitSign (h : '-' ∉ (splitSign cs).2) : occurs ['-', '-'] cs = false :=
  dashes_of_splitSign (occurs_eq_false_of_not_mem h) fun hhead => h (List.mem_of_mem_head? hhead)

theorem dashes_exponentPart {n : Int} (h : exponentPart cs = some n) :
    occurs ['-', '-'] cs = false := by
  unfold exponentPart at h
  split at h
  · rfl
  · rename_i c rest
    split_ifs at h with hmark
    obtain ⟨_, hvalue, -⟩ := Option.map_eq_some_iff.mp h
    obtain ⟨m, hdigits, -⟩ := Option.bind_eq_some_iff.mp hvalue
    have hc : '-' ∉ [c] := by
      rcases Bool.or_eq_true_iff.mp hmark with he | he
      · rw [beq_iff_eq.mp he]
        decide
      · rw [beq_iff_eq.mp he]
        decide
    have happend : occurs ['-', '-'] ([c] ++ rest) = occurs ['-', '-'] rest :=
      occurs_append_of_not_mem hc
    rw [List.singleton_append] at happend
    rw [happend]
    exact dashes_splitSign (dashes_natural? hdigits)

theorem dashes_decimalNumeral {negative : Bool} {x : Binary64}
    (h : decimalNumeral negative cs = some x) :
    occurs ['-', '-'] cs = false ∧ cs.head? ≠ some '-' := by
  constructor
  · have hwhole : '-' ∉ cs.takeWhile isDigit := not_mem_digits List.all_takeWhile
    rw [← List.takeWhile_append_dropWhile (p := isDigit) (l := cs), occurs_append_of_not_mem hwhole]
    unfold decimalNumeral at h
    extract_lets whole at h
    split at h
    rename_i fraction rest hafter
    extract_lets digits at h
    split_ifs at h
    obtain ⟨n, hn, -⟩ := Option.map_eq_some_iff.mp h
    split at hafter
    · rename_i after hpoint
      obtain ⟨rfl, rfl⟩ := Prod.mk.inj hafter
      have hfraction : '-' ∉ '.' :: after.takeWhile isDigit := by
        simpa using not_mem_digits List.all_takeWhile
      rw [hpoint, ← List.takeWhile_append_dropWhile (p := isDigit) (l := after), ← List.cons_append,
        occurs_append_of_not_mem hfraction]
      exact dashes_exponentPart hn
    · obtain ⟨rfl, rfl⟩ := Prod.mk.inj hafter
      exact dashes_exponentPart hn
  · intro hhead
    obtain ⟨rest, rfl⟩ : ∃ rest, cs = '-' :: rest := List.head?_eq_some_iff.mp hhead
    cases h

/-- A numeral has no two dashes in a row. -/
theorem dashes_float? {x : Binary64} (h : float? cs = some x) : occurs ['-', '-'] cs = false := by
  unfold float? at h
  split at h
  rename_i negative rest hsplit
  extract_lets word at h
  have hrest : (splitSign cs).2 = rest := by rw [hsplit]
  have hword : ∀ letters : List Char, '-' ∉ letters → (word == letters) = true →
      occurs ['-', '-'] cs = false := by
    intro letters hletters heq
    refine dashes_splitSign (hrest ▸ fun hmem => hletters ?_)
    rw [← beq_iff_eq.mp heq]
    exact List.mem_map_of_mem (f := asciiLower) hmem
  split_ifs at h with hinf hnan
  · rcases Bool.or_eq_true_iff.mp hinf with hw | hw
    · exact hword _ (by decide) hw
    · exact hword _ (by decide) hw
  · exact hword _ (by decide) hnan
  · obtain ⟨hdashes, hhead⟩ := dashes_decimalNumeral h
    exact dashes_of_splitSign (hrest ▸ hdashes) (hrest ▸ hhead)

end Dashes

section Words
variable {s w : String}

/-- A class of characters without semicolons, dashes and slashes gives quiet texts. -/
theorem quiet_of_class {p : Char → Bool} {cs : List Char} (hp : [';', '-', '/'].any p = false)
    (h : ∀ c ∈ cs, p c = true) : Quiet cs := by
  have hmem : ∀ c ∈ [';', '-', '/'], c ∉ cs := by
    intro c hc hcs
    exact List.any_eq_false.mp hp c hc (h c hcs)
  simp only [List.mem_cons, List.not_mem_nil, or_false, forall_eq_or_imp, forall_eq] at hmem
  obtain ⟨hsemicolon, hdash, hslash⟩ := hmem
  exact ⟨hsemicolon, occurs_eq_false_of_not_mem hdash, occurs_eq_false_of_not_mem hslash⟩

theorem quiet_of_isSafe (h : Name.isSafe s = true) : Quiet s.toList := by
  refine quiet_of_class (p := fun c => c == '.' || Name.isTailChar c) (by decide) fun c hc => ?_
  by_cases hdot : c = '.'
  · simp [hdot]
  · simp [Name.isTailChar_of_isSafe h hc hdot]

theorem quiet_of_readable (h : Readable s.toList) : Quiet s.toList := by
  obtain ⟨x, hx⟩ := Option.isSome_iff_exists.mp h
  have hne : ∀ c ∈ s.toList, c ≠ ';' ∧ c ≠ '/' := by
    intro c hc
    have hnumeral := isNumeralChar_of_float? hx c hc
    constructor
    · rintro rfl
      exact absurd hnumeral (by decide)
    · rintro rfl
      exact absurd hnumeral (by decide)
  exact ⟨fun hmem => (hne _ hmem).1 rfl, dashes_float? hx,
    occurs_eq_false_of_not_mem fun hmem => (hne _ hmem).2 rfl⟩

/-- The characters of labels. -/
def isLabelChar (c : Char) : Bool := Name.isTailChar c || ['.', '~', '*'].contains c

theorem isLabelChar_of_mem_encode {a : Alias} (h : Name.isSafe a.name = true) :
    ∀ c ∈ a.encode.toList, isLabelChar c = true := by
  have hdigits : ∀ n, ∀ c ∈ decimalDigits n, isLabelChar c = true := by
    intro n c hc
    have hdigit := Nat.isDigit_of_mem_toDigits (by decide) (by decide) hc
    simp [isLabelChar, Name.isTailChar, Char.isAlphanum, hdigit]
  have hname : ∀ c ∈ a.name.toList, isLabelChar c = true := by
    intro c hc
    by_cases hdot : c = '.'
    · simp [isLabelChar, hdot]
    · simp [isLabelChar, Name.isTailChar_of_isSafe h hc hdot]
  simp only [Alias.encode, Alias.encodeChars, String.toList_ofList, List.forall_mem_append]
  exact ⟨⟨⟨⟨⟨by decide, hdigits a.level⟩, by decide⟩, hdigits a.slot⟩, by decide⟩, hname⟩

theorem isUnmarked_of_isLabelChar {c : Char} (h : isLabelChar c = true) : isUnmarked c = true := by
  rcases Bool.or_eq_true_iff.mp h with htail | hmark
  · exact isUnmarked_of_class (fun _ => Name.visible_of_isTailChar) (by decide) htail
  · have hall : ∀ c ∈ ['.', '~', '*'], isUnmarked c = true := by decide
    exact hall c (List.contains_iff_mem.mp hmark)

/-- A word inside a clause is one of a fixed vocabulary, a numeral, or the dotted name of a
column. -/
theorem inner_word_cases (h : (Lexeme.word w).Inner) :
    w ∈ fixedWords ++ innerWords ∨ Readable w.toList ∨ (Name.isSafe w = true ∧ '.' ∈ w.toList) := by
  generalize hx : Lexeme.word w = x at h
  cases h with
  | operand hwritten =>
      cases hwritten with
      | fixed hw =>
          obtain rfl := Lexeme.word.inj hx
          exact .inl (List.mem_append_left _ hw)
      | numeral hread =>
          obtain rfl := Lexeme.word.inj hx
          exact .inr (.inl hread)
      | column hsafe hdot =>
          obtain rfl := Lexeme.word.inj hx
          exact .inr (.inr ⟨hsafe, hdot⟩)
      | quoted s => cases hx
  | keyword hw =>
      obtain rfl := Lexeme.word.inj hx
      exact .inl (List.mem_append_right _ hw)
  | label hsafe => cases hx
  | opening => cases hx
  | closing => cases hx
  | comma => cases hx

theorem inner_name_cases (h : (Lexeme.name w).Inner) :
    ∃ a : Alias, w = a.encode ∧ Name.isSafe a.name = true := by
  generalize hx : Lexeme.name w = x at h
  cases h with
  | operand hwritten => cases hwritten <;> cases hx
  | label hsafe => exact ⟨_, Lexeme.name.inj hx, hsafe⟩
  | keyword hw => cases hx
  | opening => cases hx
  | closing => cases hx
  | comma => cases hx

theorem toLower_toUpper (c : Char) : c.toUpper.toLower = c.toLower := by
  by_cases hlower : 'a'.val ≤ c.val ∧ c.val ≤ 'z'.val
  · simp only [UInt32.le_iff_toNat_le] at hlower
    have hletter : c.toNat ∈ List.range' 97 26 :=
      List.mem_range'_1.mpr ⟨hlower.1, Nat.lt_succ_of_le hlower.2⟩
    have hall : ∀ n ∈ List.range' 97 26,
        (Char.ofNat n).toUpper.toLower = (Char.ofNat n).toLower := by decide
    have hsame := hall c.toNat hletter
    rwa [Char.ofNat_toNat] at hsame
  · have hsame : c.toUpper = c := dif_neg hlower
    rw [hsame]

/-- A word inside a clause is none of the words around it. -/
theorem not_reserved_of_inner (h : (Lexeme.word w).Inner) : ¬Reserved w := by
  intro hreserved
  rcases inner_word_cases h with hfixed | hread | ⟨_, hdot⟩
  · have hall : ∀ w ∈ fixedWords ++ innerWords, ¬Reserved w := by decide
    exact hall w hfixed hreserved
  · obtain ⟨x, hx⟩ := Option.isSome_iff_exists.mp hread
    have hall : ∀ r ∈ clauseWords, r.toList.any (!isNumeralChar ·) = true := by decide
    obtain ⟨d, hd, hnot⟩ := List.any_eq_true.mp (hall _ hreserved)
    obtain ⟨c, hc, rfl⟩ : ∃ c ∈ w.toList, c.toUpper = d := by simpa [uppered, upper] using hd
    have hnumeral := isNumeralChar_of_float? hx c hc
    rw [isNumeralChar, ← toLower_toUpper, ← isNumeralChar] at hnumeral
    simp [hnumeral] at hnot
  · have hall : ∀ r ∈ clauseWords, '.' ∉ r.toList := by decide
    refine hall _ hreserved ?_
    simpa [uppered, upper] using List.mem_map_of_mem (f := Char.toUpper) hdot

theorem quiet_of_inner_word (h : (Lexeme.word w).Inner) : Quiet w.toList := by
  rcases inner_word_cases h with hfixed | hread | ⟨hsafe, _⟩
  · have hall : ∀ w ∈ fixedWords ++ innerWords, Quiet w.toList := by decide
    exact hall w hfixed
  · exact quiet_of_readable hread
  · exact quiet_of_isSafe hsafe

/-- A word inside a clause begins no comment of MySQL either. -/
theorem hash_not_mem_of_inner_word (h : (Lexeme.word w).Inner) : '#' ∉ w.toList := by
  rcases inner_word_cases h with hfixed | hread | ⟨hsafe, _⟩
  · have hall : ∀ w ∈ fixedWords ++ innerWords, '#' ∉ w.toList := by decide
    exact hall w hfixed
  · obtain ⟨x, hx⟩ := Option.isSome_iff_exists.mp hread
    intro hmem
    exact absurd (isNumeralChar_of_float? hx _ hmem) (by decide)
  · intro hmem
    exact absurd (Name.isTailChar_of_isSafe hsafe hmem (by decide)) (by decide)

theorem quiet_of_inner_name (h : (Lexeme.name w).Inner) : Quiet w.toList := by
  obtain ⟨a, rfl, hsafe⟩ := inner_name_cases h
  exact quiet_of_class (by decide) (isLabelChar_of_mem_encode hsafe)

end Words

end SqlGateway.Query
