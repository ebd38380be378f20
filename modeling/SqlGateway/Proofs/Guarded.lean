import SqlGateway.Proofs.Mutation.Layout
import SqlGateway.Proofs.Shop
import SqlGateway.Proofs.Text.Search

/-!
# Screened requests

The words of statements stand in no string and in no key of what a request compiles or plans,
wherever the string or the key is nested. The guard looks at a string in its written form; that form
has the same letters, and a word that ends in the string ends in it as well.
-/
namespace SqlGateway

open Request (Argument Field Variables)

/-- The strings and the keys of a value, however deep they stand. -/
inductive Json.Mentions : Json → String → Prop
  | text {s : String} : Mentions (.text s) s
  | item {items : List Json} {item : Json} {s : String} :
      item ∈ items → Mentions item s → Mentions (.list items) s
  | key {fields : Object} {field : String × Json} :
      field ∈ fields → Mentions (.object fields) field.1
  | value {fields : Object} {field : String × Json} {s : String} :
      field ∈ fields → Mentions field.2 s → Mentions (.object fields) s

/-- A field and the fields of its selections, however deep they stand. -/
inductive Request.Field.Covers : Field → Field → Prop
  | self {f : Field} : Covers f f
  | deeper {f g h : Field} : g ∈ f.selection → Covers g h → Covers f h

namespace Guard

open Text

/-- The keywords that are a single word. -/
def statementWords : List String :=
  ["select", "insert", "update", "create", "drop", "alter", "truncate", "rename", "grant",
    "revoke", "commit", "rollback", "savepoint"]

/-- A word stands somewhere in a text, each letter in either case, and ends there: the text ends
too, or what follows is no word character. -/
def Bears (cs : List Char) (w : String) : Prop :=
  ∃ before written after, cs = before ++ (written ++ after) ∧ lower written = w.toList ∧
    ∀ c ∈ after.head?, isWordChar c = false

/-- No string and no key of a value bears a word of a statement. -/
def IsClean (v : Json) : Prop :=
  ∀ s, v.Mentions s → ∀ w ∈ statementWords, ¬ Bears s.toList w

section Words
variable {cs : List Char} {w : String}

theorem keyword_of_mem (h : w ∈ statementWords) : word w ++ [.wordEnd] ∈ keywords := by
  have hall : ∀ w ∈ statementWords, word w ++ [.wordEnd] ∈ keywords := by decide
  exact hall w h

theorem matchesHere_letters {letters written : List Char} (h : lower written = letters)
    (rest : Phrase) (after : List Char) :
    matchesHere (letters.map .letter ++ rest) (written ++ after) = matchesHere rest after := by
  subst h
  induction written with
  | nil => rfl
  | cons c written ih =>
      have hfolds : folds c.toLower c = true := by simp [folds]
      change (folds c.toLower c && matchesHere ((lower written).map .letter ++ rest)
        (written ++ after)) = _
      rw [hfolds, Bool.true_and, ih]

theorem isBlockedChars_append {phrase : Phrase} (hphrase : phrase ∈ phrases)
    (hmatches : matchesHere phrase cs = true) (before : List Char) :
    isBlockedChars (before ++ cs) = true := by
  have hany : phrases.any (matchesHere · cs) = true :=
    List.any_eq_true.mpr ⟨phrase, hphrase, hmatches⟩
  induction before with
  | nil =>
      cases cs with
      | nil => exact hany
      | cons c rest => rw [List.nil_append, isBlockedChars, hany, Bool.true_or]
  | cons c before ih => rw [List.cons_append, isBlockedChars, ih, Bool.or_true]

theorem isBlockedChars_of_bears (hw : w ∈ statementWords) (h : Bears cs w) :
    isBlockedChars cs = true := by
  obtain ⟨before, written, after, rfl, hwritten, hafter⟩ := h
  refine isBlockedChars_append (List.mem_append_left _ (keyword_of_mem hw)) ?_ before
  rw [word, matchesHere_letters hwritten]
  have hend : (after.head?.any isWordChar) = false := by
    cases after with
    | nil => rfl
    | cons c rest => exact hafter c rfl
  simp [matchesHere, hend]

/-- A character whose lower case is no letter is the same in lower case. -/
theorem toLower_eq_self {c : Char} (h : c.toLower.toNat < 'a'.toNat) : c.toLower = c := by
  refine dif_neg fun hupper => ?_
  have hfirst : 'A'.toNat ≤ c.toNat := UInt32.le_iff_toNat_le.mp hupper.1
  have hlast : c.toNat ≤ 'Z'.toNat := UInt32.le_iff_toNat_le.mp hupper.2
  have hval : c.toLower.val = c.val + ('a'.val - 'A'.val) := by
    unfold Char.toLower
    rw [dif_pos hupper]
  have hsum : c.toLower.toNat = (c.toNat + 32) % 2 ^ 32 := by
    rw [Char.toNat, hval]
    exact UInt32.toNat_add _ _
  simp only [Char.reduceToNat] at h hfirst hlast
  omega

/-- A text that does not bear the word holds no `drop table`, in whichever case: a blank ends the
word. -/
theorem occurs_drop_table (h : ¬ Bears cs "drop") :
    occurs "drop table".toList (lower cs) = false := by
  refine (Bool.not_eq_true _).mp fun hoccurs => h ?_
  obtain ⟨before, after, hlower⟩ := exists_of_occurs hoccurs
  obtain ⟨before', rest, rfl, -, hrest⟩ := List.map_eq_append_iff.mp hlower
  have hsplit : lower rest = "drop".toList ++ (" table".toList ++ after) := hrest
  obtain ⟨written, after', rfl, hwritten, hafter⟩ := List.map_eq_append_iff.mp hsplit
  refine ⟨before', written, after', rfl, hwritten, fun c hc => ?_⟩
  obtain ⟨more, rfl⟩ := List.head?_eq_some_iff.mp hc
  have hblank : c.toLower = ' ' := (List.cons.inj hafter).1
  have hsame : c.toLower = c := toLower_eq_self (by rw [hblank]; decide)
  obtain rfl : c = ' ' := hsame.symm.trans hblank
  decide

theorem escapedChar_of_toLower {c : Char} (hspace : 0x20 ≤ c.toLower.toNat)
    (hquote : c.toLower ≠ '"') (hslash : c.toLower ≠ '\\') : Json.escapedChar c = [c] := by
  have hc : 0x20 ≤ c.toNat := by
    by_contra hlow
    have hsame : c.toLower = c := by
      refine dif_neg fun hupper => hlow ?_
      have hle : 'A'.toNat ≤ c.toNat := UInt32.le_iff_toNat_le.mp hupper.1
      exact Nat.le_trans (by decide) hle
    exact hlow (hsame ▸ hspace)
  rw [Json.escapedChar, if_neg (by rintro rfl; exact hquote rfl),
    if_neg (by rintro rfl; exact hslash rfl), if_pos hc]

theorem escaped_of_lower {written : List Char} (hw : w ∈ statementWords)
    (h : lower written = w.toList) : Json.escaped written = written := by
  have hall : ∀ w ∈ statementWords, ∀ c ∈ w.toList, 0x20 ≤ c.toNat ∧ c ≠ '"' ∧ c ≠ '\\' := by decide
  have hplain : ∀ c ∈ written, Json.escapedChar c = [c] := by
    intro c hc
    obtain ⟨hspace, hquote, hslash⟩ := hall w hw c.toLower (h ▸ List.mem_map_of_mem hc)
    exact escapedChar_of_toLower hspace hquote hslash
  rw [Json.escaped, List.flatMap_congr hplain, List.flatMap_singleton']

/-- A character is written as itself or with a backslash in front, and a backslash is in no word. -/
theorem isWordChar_of_head_escapedChar {c d : Char} (hc : isWordChar c = false)
    (hd : d ∈ (Json.escapedChar c).head?) : isWordChar d = false := by
  unfold Json.escapedChar at hd
  have hslash : isWordChar '\\' = false := by decide
  split_ifs at hd <;> obtain rfl := Option.some.inj hd <;> assumption

theorem escapedChar_ne_nil (c : Char) : Json.escapedChar c ≠ [] := by
  unfold Json.escapedChar
  split_ifs <;> exact List.cons_ne_nil _ _

/-- What is written after a word begins with no word character: what was there does not, and a quote
does not. -/
theorem isWordChar_of_head_written {after : List Char} (h : ∀ c ∈ after.head?, isWordChar c = false)
    {d : Char} (hd : d ∈ (Json.escaped after ++ ['"']).head?) : isWordChar d = false := by
  cases after with
  | nil =>
      obtain rfl := Option.some.inj hd
      decide
  | cons c rest =>
      have hwritten : Json.escaped (c :: rest) ++ ['"'] = Json.escapedChar c ++
          (Json.escaped rest ++ ['"']) := by
        rw [Json.escaped, List.flatMap_cons, List.append_assoc]
        rfl
      rw [hwritten, List.head?_append_of_ne_nil _ (escapedChar_ne_nil c)] at hd
      exact isWordChar_of_head_escapedChar (h c rfl) hd

/-- A word that a text bears is borne by its written form. -/
theorem bears_quoted {s : String} (hw : w ∈ statementWords) (h : Bears s.toList w) :
    Bears (Json.quoted s).toList w := by
  obtain ⟨before, written, after, hs, hwritten, hafter⟩ := h
  refine ⟨'"' :: Json.escaped before, written, Json.escaped after ++ ['"'], ?_, hwritten,
    fun d hd => isWordChar_of_head_written hafter hd⟩
  have hescaped :
      Json.escaped s.toList = Json.escaped before ++ (written ++ Json.escaped after) := by
    rw [hs, Json.escaped, List.flatMap_append, List.flatMap_append]
    change Json.escaped before ++ (Json.escaped written ++ Json.escaped after) = _
    rw [escaped_of_lower hw hwritten]
  rw [Json.quoted, String.toList_ofList, hescaped]
  simp

end Words

section Screened
variable {key : String} {v : Json} {s : String} {items : List Json} {fields : Object}

theorem isBlocked_of_bears {w : String} (hw : w ∈ statementWords) (h : Bears s.toList w) :
    isBlocked s = true :=
  isBlockedChars_of_bears hw h

theorem checkItems_eq_ok :
    checkItems key items = .ok () ↔ ∀ item ∈ items, check key item = .ok () := by
  induction items with
  | nil => exact ⟨fun _ => List.forall_mem_nil _, fun _ => rfl⟩
  | cons first rest ih =>
      rw [checkItems, bind_eq_ok, List.forall_mem_cons, ← ih]
      exact ⟨fun ⟨_, hfirst, hrest⟩ => ⟨hfirst, hrest⟩, fun ⟨hfirst, hrest⟩ => ⟨_, hfirst, hrest⟩⟩

theorem checkFields_eq_ok :
    checkFields key fields = .ok () ↔
      ∀ field ∈ fields, isBlocked field.1 = false ∧ check field.1 field.2 = .ok () := by
  induction fields with
  | nil => exact ⟨fun _ => List.forall_mem_nil _, fun _ => rfl⟩
  | cons first rest ih =>
      rw [checkFields, List.forall_mem_cons, ← ih]
      split_ifs with hkey
      · exact ⟨nofun, fun h => absurd (hkey.symm.trans h.1.1) (by decide)⟩
      · rw [Bool.not_eq_true] at hkey
        exact bind_eq_ok.trans ⟨fun ⟨_, hfirst, hrest⟩ => ⟨⟨hkey, hfirst⟩, hrest⟩,
          fun ⟨⟨_, hfirst⟩, hrest⟩ => ⟨_, hfirst, hrest⟩⟩

/-- A value that is let through is clean. -/
theorem isClean_of_check (h : check key v = .ok ()) : IsClean v := by
  intro s hs w hw hbears
  induction hs generalizing key with
  | text =>
      rw [check] at h
      rw [if_pos (isBlocked_of_bears hw (bears_quoted hw hbears))] at h
      cases h
  | item hitem _ ih => exact ih (checkItems_eq_ok.mp h _ hitem) hbears
  | key hfield =>
      have hkey := (checkFields_eq_ok.mp h _ hfield).1
      rw [isBlocked_of_bears hw hbears] at hkey
      cases hkey
  | value hfield _ ih => exact ih (checkFields_eq_ok.mp h _ hfield).2 hbears

end Screened

end Guard

open Guard (IsClean)

namespace Query

variable {vars : Variables} {f g : Field}

theorem screened_selection {selection : List Field} (h : screenSelection vars selection = .ok ()) :
    ∀ g ∈ selection, screenArguments vars g = .ok () := by
  induction selection with
  | nil => exact List.forall_mem_nil _
  | cons first rest ih =>
      obtain ⟨_, hfirst, hrest⟩ := bind_eq_ok.mp h
      exact List.forall_mem_cons.mpr ⟨hfirst, ih hrest⟩

theorem screened_parts (h : screenArguments vars f = .ok ()) :
    (∀ a ∈ f.arguments, ∀ v, a.value.resolve vars = some v → IsClean v) ∧
      ∀ g ∈ f.selection, screenArguments vars g = .ok () := by
  cases f
  rw [screenArguments] at h
  obtain ⟨_, harguments, hselection⟩ := bind_eq_ok.mp h
  refine ⟨fun a ha v hv => ?_, screened_selection hselection⟩
  have hcheck := forM_eq_ok harguments a ha
  rw [hv] at hcheck
  exact Guard.isClean_of_check hcheck

/-- The arguments of a screened field are clean, and those of the fields below it. -/
theorem isClean_of_screenArguments (h : screenArguments vars f = .ok ()) (hg : f.Covers g) :
    ∀ a ∈ g.arguments, ∀ v, a.value.resolve vars = some v → IsClean v := by
  induction hg with
  | self => exact (screened_parts h).1
  | deeper hg _ ih => exact ih ((screened_parts h).2 _ hg)

theorem screened_of_compileWith {c : Compiler} {limited : Bool} {q : CompiledQuery}
    (h : c.compileWith limited vars f = .ok q) : screenArguments vars f = .ok () := by
  obtain ⟨_, _, h⟩ := bind_eq_ok.mp h
  obtain ⟨_, _, h⟩ := bind_eq_ok.mp h
  obtain ⟨_, hscreened, _⟩ := bind_eq_ok.mp h
  exact hscreened

end Query

namespace Mutation

variable {p : Planner} {vars : Variables} {table : String} {docs : Json} {plan : Plan}
  {projection : Projection} {content : Object}

theorem isClean_of_split {split : SplitDocument} (h : p.split vars table content = .ok split) :
    IsClean (.object content) := by
  obtain ⟨_, hscreened, _⟩ := bind_eq_ok.mp h
  have hfields := forM_eq_ok hscreened
  intro s hs
  cases hs with
  | key hfield =>
      obtain ⟨_, hkey, _⟩ := bind_eq_ok.mp (hfields _ hfield)
      exact Guard.isClean_of_check hkey _ .text
  | value hfield hs =>
      obtain ⟨_, _, hvalue⟩ := bind_eq_ok.mp (hfields _ hfield)
      exact Guard.isClean_of_check hvalue _ hs

theorem isClean_of_planInsert (h : p.planInsert vars table docs projection = .ok plan) :
    IsClean docs := by
  obtain ⟨contents, hcontents, h⟩ := bind_eq_ok.mp h
  obtain ⟨_, _, h⟩ := bind_eq_ok.mp h
  obtain ⟨splits, hsplits, _⟩ := bind_eq_ok.mp h
  have hclean : ∀ content ∈ contents, IsClean (.object content) := by
    intro content hcontent
    have hok : (contents.mapM (p.split vars table)).isOk = true := by rw [hsplits]; rfl
    obtain ⟨split, hsplit⟩ := exists_eq_ok (isOk_mapM.mp hok content hcontent)
    exact isClean_of_split hsplit
  obtain ⟨content, rfl, rfl⟩ | rfl := insertDocuments_ok hcontents
  · exact hclean content List.mem_cons_self
  · intro s hs
    cases hs with
    | item hitem hs =>
        obtain ⟨content, hcontent, rfl⟩ := List.mem_map.mp hitem
        exact hclean content hcontent s hs

theorem isClean_of_writeFilter {kind : Kind} {filter : Option Json} {condition : Option String}
    (h : p.writeFilter vars kind table filter = .ok condition) : ∀ tree ∈ filter, IsClean tree := by
  rintro tree rfl
  obtain ⟨_, hown, _⟩ := bind_eq_ok.mp h
  obtain ⟨_, hcompiled, _⟩ := bind_eq_ok.mp hown
  obtain ⟨_, hscreened, _⟩ := bind_eq_ok.mp hcompiled
  exact Guard.isClean_of_check hscreened

theorem isClean_of_planUpdate {filter : Option Json}
    (h : p.planUpdate vars table docs filter projection = .ok plan) :
    IsClean docs ∧ ∀ tree ∈ filter, IsClean tree := by
  obtain ⟨content, hcontent, h⟩ := bind_eq_ok.mp h
  obtain ⟨_, hfilter, h⟩ := bind_eq_ok.mp h
  obtain ⟨_, hsplit, _⟩ := bind_eq_ok.mp h
  obtain rfl := updateDocument_ok hcontent
  exact ⟨isClean_of_split hsplit, isClean_of_writeFilter hfilter⟩

end Mutation

/-- Where a field is compiled or planned, the values that the guard has to see are clean: of a query
those of the arguments of the field and of every field below it, of an insert and an update the
documents, and of an update and a delete the filter. A clean value holds no `drop table`. -/
theorem statement_words_are_caught (vars : Variables) (f : Field) :
    (∀ (c : Query.Compiler) limited q, c.compileWith limited vars f = .ok q → ∀ g, f.Covers g →
      ∀ a ∈ g.arguments, ∀ v, a.value.resolve vars = some v → IsClean v) ∧
    (∀ (p : Mutation.Planner) plan kind table, p.plan vars f = .ok plan →
      p.target f = .ok (kind, table) →
      (kind = .insert ∨ kind = .update → ∃ docs, f.resolved vars "docs" = some docs ∧
        IsClean docs) ∧
      (kind = .update ∨ kind = .delete → ∀ tree ∈ f.resolved vars "where", IsClean tree)) ∧
    ∀ v, IsClean v → ∀ s, v.Mentions s →
    Text.occurs "drop table".toList (Text.lower s.toList) = false := by
  refine ⟨fun c limited q h g hg =>
    Query.isClean_of_screenArguments (Query.screened_of_compileWith h) hg, ?_,
    fun v hv s hs => Guard.occurs_drop_table (hv s hs "drop" (by decide))⟩
  intro p plan kind table h htarget
  obtain ⟨target, htarget', h⟩ := bind_eq_ok.mp h
  obtain rfl := Except.ok.inj (htarget.symm.trans htarget')
  cases kind with
  | insert =>
      obtain ⟨docs, hdocs, h⟩ := bind_eq_ok.mp h
      have hclean := Mutation.isClean_of_planInsert h
      exact ⟨fun _ => ⟨docs, Mutation.resolved_of_requiredDocuments hdocs, hclean⟩, nofun⟩
  | update =>
      obtain ⟨docs, hdocs, h⟩ := bind_eq_ok.mp h
      obtain ⟨hclean, hfilter⟩ := Mutation.isClean_of_planUpdate h
      exact ⟨fun _ => ⟨docs, Mutation.resolved_of_requiredDocuments hdocs, hclean⟩,
        fun _ => hfilter⟩
  | delete =>
      obtain ⟨_, hfilter, _⟩ := bind_eq_ok.mp h
      exact ⟨nofun, fun _ => Mutation.isClean_of_writeFilter hfilter⟩
  | insertSelect => cases h

/-- The users whose name has a date in it, with their orders above a total that a variable gives. -/
def datedUsers : Field where
  label := none
  name := "users"
  arguments := [⟨"where", .object [("name", .object [("$like", .text "created_at %")])]⟩]
  directives := []
  selection := [Shop.leaf "name",
    { Shop.nested "orders" [Shop.leaf "total"] with
      arguments := [⟨"where", .object [("total", .object [("$gt", .variable "least")])]⟩] }]

/-- A user gets a name that begins like a word of a statement. -/
def selectedUser : Field where
  label := none
  name := "update_users"
  arguments :=
    [⟨"docs", .object [("name", .text "selection")]⟩, ⟨"where", .object [("id", .int 7)]⟩]
  directives := []
  selection := []

theorem statement_words_are_caught_shop :
    (∃ q, Shop.compiler.compileWith true [("least", .int 5)] datedUsers = .ok q ∧
      IsClean (.object [("name", .object [("$like", .text "created_at %")])]) ∧
      IsClean (.object [("total", .object [("$gt", .int 5)])])) ∧
    ∃ plan, (⟨Shop.registry, .postgres, .passThrough⟩ : Mutation.Planner).plan [] selectedUser =
      .ok plan ∧
      IsClean (.object [("name", .text "selection")]) ∧ IsClean (.object [("id", .int 7)]) := by
  let p : Mutation.Planner := ⟨Shop.registry, .postgres, .passThrough⟩
  obtain ⟨q, hq⟩ :=
    exists_eq_ok (x := Shop.compiler.compileWith true [("least", .int 5)] datedUsers)
    (by decide +kernel)
  obtain ⟨plan, hplan⟩ := exists_eq_ok (x := p.plan [] selectedUser) (by decide +kernel)
  have hquery :=
    (statement_words_are_caught [("least", .int 5)] datedUsers).1 Shop.compiler true q hq
  have htarget : p.target selectedUser = .ok (.update, "users") :=
    eq_ok_of_toOption (by decide +kernel)
  obtain ⟨hdocs, hfilter⟩ :=
    (statement_words_are_caught [] selectedUser).2.1 p plan .update "users" hplan htarget
  obtain ⟨docs, hresolved, hclean⟩ := hdocs (.inr rfl)
  obtain rfl := Option.some.inj hresolved
  have horders : datedUsers.Covers datedUsers.selection[1] := .deeper (List.getElem_mem _) .self
  exact ⟨⟨q, hq, hquery datedUsers .self _ List.mem_cons_self _ rfl,
    hquery _ horders _ List.mem_cons_self _ rfl⟩, plan, hplan, hclean, hfilter (.inl rfl) _ rfl⟩

/-- A variable may not bring in what the request may not say. -/
example :
    (Shop.compiler.compile [("least", .list [.object [("a", .text "x; DrOp TaBlE users")]])]
      datedUsers).isOk =
    false := by decide +kernel

end SqlGateway
