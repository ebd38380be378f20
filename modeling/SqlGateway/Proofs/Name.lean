import Mathlib.Data.List.Chain
import Mathlib.Data.Set.Function
import SqlGateway.Name
import SqlGateway.Text.Character

/-!
# Characters and separators of names

A name that may stand in a statement has only letters, digits, underscores, dollar signs and dots.
The segments of a name are the parts between its dots.

In requests a double underscore stands for a dot. Double underscores are found from left to right,
so a text with dots for them has no two underscores in a row and no underscore in front of a dot.
Such texts, and no others, come back when double underscores are written for their dots and these
are read again; and every text without a dot comes back from the text with dots. So the names of
requests are in one-to-one correspondence with just these tables.
-/
namespace SqlGateway.Name

theorem mem_segments {separator c : Char} {cs : List Char} (h : c ∈ cs) (hc : c ≠ separator) :
    ∃ segment ∈ segments separator cs, c ∈ segment := by
  induction cs with
  | nil => cases h
  | cons d rest ih =>
      by_cases hd : d = separator
      · have hrest : c ∈ rest := (List.mem_cons.mp h).resolve_left (hd ▸ hc)
        obtain ⟨segment, hsegment, hmem⟩ := ih hrest
        exact ⟨segment, by simp [segments, hd, hsegment], hmem⟩
      · cases hsegments : segments separator rest with
        | nil =>
            refine ⟨[d], by simp [segments, hd, hsegments], ?_⟩
            rcases List.mem_cons.mp h with rfl | hrest
            · simp
            · simpa [hsegments] using ih hrest
        | cons first others =>
            have hcons : segments separator (d :: rest) = (d :: first) :: others := by
              simp [segments, hd, hsegments]
            rw [hcons]
            rcases List.mem_cons.mp h with rfl | hrest
            · exact ⟨c :: first, by simp, by simp⟩
            · obtain ⟨segment, hsegment, hmem⟩ := ih hrest
              rcases List.mem_cons.mp (hsegments ▸ hsegment) with rfl | hother
              · exact ⟨d :: segment, by simp, by simp [hmem]⟩
              · exact ⟨segment, by simp [hother], hmem⟩

theorem isTailChar_of_isSafeSegment {segment : List Char} (h : isSafeSegment segment = true) :
    ∀ c ∈ segment, isTailChar c = true := by
  cases segment with
  | nil => simp
  | cons first rest =>
      obtain ⟨hfirst, hrest⟩ := Bool.and_eq_true_iff.mp h
      refine List.forall_mem_cons.mpr ⟨?_, List.all_eq_true.mp hrest⟩
      rcases Bool.or_eq_true_iff.mp hfirst with ha | hu
      · simp [isTailChar, Char.isAlphanum, ha]
      · simp [isTailChar, hu]

theorem isTailChar_of_isSafe {name : String} (h : isSafe name = true) {c : Char}
    (hc : c ∈ name.toList) (hdot : c ≠ '.') : isTailChar c = true := by
  obtain ⟨segment, hsegment, hmem⟩ := mem_segments hc hdot
  exact isTailChar_of_isSafeSegment (List.all_eq_true.mp h segment hsegment) c hmem

theorem visible_of_isTailChar {c : Char} (h : isTailChar c = true) : '!' ≤ c ∧ c ≤ '~' := by
  rw [isTailChar] at h
  delta Char.isAlphanum Char.isAlpha Char.isUpper Char.isLower Char.isDigit at h
  simp only [Bool.or_eq_true, Bool.and_eq_true, decide_eq_true_eq, beq_iff_eq,
    UInt32.le_iff_toNat_le, ge_iff_le] at h
  simp only [Char.le_def, UInt32.le_iff_toNat_le]
  rcases h with (((hupper | hlower) | hdigit) | rfl) | rfl
  · exact ⟨Nat.le_trans (by decide) hupper.1, Nat.le_trans hupper.2 (by decide)⟩
  · exact ⟨Nat.le_trans (by decide) hlower.1, Nat.le_trans hlower.2 (by decide)⟩
  · exact ⟨Nat.le_trans (by decide) hdigit.1, Nat.le_trans hdigit.2 (by decide)⟩
  · decide
  · decide

theorem not_mem_of_isSafe {name : String} (h : isSafe name = true) : ' ' ∉ name.toList := by
  intro hblank
  exact absurd (isTailChar_of_isSafe h hblank (by decide)) (by decide)

theorem segments_ne_nil (separator : Char) (cs : List Char) : segments separator cs ≠ [] := by
  cases cs with
  | nil => simp [segments]
  | cons c rest =>
      rw [segments]
      split
      · simp
      · split <;> simp

theorem segments_append_cons (separator : Char) (before after : List Char) :
    segments separator (before ++ separator :: after) =
      segments separator before ++ segments separator after := by
  induction before with
  | nil => simp [segments]
  | cons c rest ih =>
      rw [List.cons_append, segments, segments, ih]
      split
      · rfl
      · cases hrest : segments separator rest with
        | nil => exact absurd hrest (segments_ne_nil separator rest)
        | cons first others => rfl

section Segments
variable {separator : Char} {cs segment : List Char}

theorem segments_of_not_mem (h : separator ∉ cs) : segments separator cs = [cs] := by
  induction cs with
  | nil => rfl
  | cons c rest ih =>
      obtain ⟨hc, hrest⟩ := not_or.mp (mt List.mem_cons.mpr h)
      rw [segments, if_neg (Ne.symm hc), ih hrest]

/-- The first segment begins the text, and the others stand in it. -/
theorem segments_placed (separator : Char) (cs : List Char) :
    ∃ first others, segments separator cs = first :: others ∧ first <+: cs ∧
    ∀ s ∈ others, s <:+: cs := by
  induction cs with
  | nil => exact ⟨[], [], rfl, List.prefix_refl _, List.forall_mem_nil _⟩
  | cons c rest ih =>
      obtain ⟨first, others, hrest, hfirst, hothers⟩ := ih
      have hlater : ∀ s ∈ others, s <:+: c :: rest := fun s hs => List.infix_cons (hothers s hs)
      by_cases hc : c = separator
      · refine ⟨[], first :: others, by rw [segments, if_pos hc, hrest], List.nil_prefix, ?_⟩
        exact List.forall_mem_cons.mpr ⟨List.infix_cons hfirst.isInfix, hlater⟩
      · refine ⟨c :: first, others, by rw [segments, if_neg hc, hrest], ?_, hlater⟩
        exact (List.prefix_cons_inj c).mpr hfirst

theorem isInfix_of_mem_segments (h : segment ∈ segments separator cs) : segment <:+: cs := by
  obtain ⟨first, others, hcs, hfirst, hothers⟩ := segments_placed separator cs
  rcases List.mem_cons.mp (hcs ▸ h) with rfl | h
  · exact hfirst.isInfix
  · exact hothers segment h

theorem not_mem_of_mem_segments (h : segment ∈ segments separator cs) : separator ∉ segment := by
  induction cs generalizing segment with
  | nil =>
      obtain rfl := List.mem_singleton.mp h
      exact List.not_mem_nil
  | cons c rest ih =>
      rw [segments] at h
      split at h
      · rcases List.mem_cons.mp h with rfl | h
        · exact List.not_mem_nil
        · exact ih h
      · rename_i hc
        split at h
        · obtain rfl := List.mem_singleton.mp h
          exact fun hmem => hc (List.mem_singleton.mp hmem).symm
        · rename_i first others hrest
          rcases List.mem_cons.mp h with rfl | h
          · have hfirst := ih (hrest ▸ List.mem_cons_self)
            exact fun hmem => (List.mem_cons.mp hmem).elim (fun heq => hc heq.symm) hfirst
          · exact ih (hrest ▸ List.mem_cons_of_mem _ h)

/-- Two names with a dot are the same just if they are so before and after their last dot. -/
theorem eq_of_append_dot {a b a' b' : List Char} (hb : separator ∉ b) (hb' : separator ∉ b')
    (h : a ++ separator :: b = a' ++ separator :: b') : b = b' := by
  have hsegments := congrArg (segments separator) h
  rw [segments_append_cons, segments_append_cons, segments_of_not_mem hb,
    segments_of_not_mem hb'] at hsegments
  exact List.singleton_inj.mp (List.append_inj_right' hsegments rfl)

end Segments

/-- A dotted name is safe just if both its parts are. -/
theorem isSafe_dotted (a b : String) : isSafe (a ++ "." ++ b) = (isSafe a && isSafe b) := by
  have hchars : (a ++ "." ++ b).toList = a.toList ++ '.' :: b.toList := by simp
  rw [isSafe, hchars, isSafeChars, segments_append_cons, List.all_append]
  rfl

theorem dot_mem_qualify (table column : String) : '.' ∈ (qualify table column).toList := by
  unfold qualify
  split <;> simp

section Separators
variable {cs before after : List Char} {c : Char}

/-- A text has no two underscores in a row. -/
def NoDouble (cs : List Char) : Prop := ∀ before after, cs ≠ before ++ '_' :: '_' :: after

theorem NoDouble.cons (h : NoDouble cs) (hc : c = '_' → cs.head? ≠ some '_') :
    NoDouble (c :: cs) := by
  rintro (_ | ⟨d, before⟩) after heq
  · obtain ⟨rfl, hrest⟩ := List.cons.inj heq
    exact hc rfl (by rw [hrest]; rfl)
  · exact h before after (List.cons.inj heq).2

theorem NoDouble.of_isInfix {part : List Char} (h : NoDouble cs) (hpart : part <:+: cs) :
    NoDouble part := by
  obtain ⟨front, back, rfl⟩ := hpart
  rintro before after rfl
  exact h (front ++ before) (after ++ back) (by simp)

theorem dotted_cons (h : c = '_' → cs.head? ≠ some '_') : dotted (c :: cs) = c :: dotted cs := by
  cases cs with
  | nil => rfl
  | cons d rest => rw [dotted, if_neg fun hdouble => h hdouble.1 (congrArg some hdouble.2)]

theorem dotted_cons_of_ne (h : c ≠ '_') (cs : List Char) : dotted (c :: cs) = c :: dotted cs :=
  dotted_cons fun hc => absurd hc h

theorem head?_dotted (hc : c ≠ '_') : (dotted (c :: cs)).head? = some c := by
  rw [dotted_cons_of_ne hc, List.head?_cons]

theorem dotted_append_dot (before after : List Char) :
    dotted (before ++ '.' :: after) = dotted before ++ '.' :: dotted after := by
  fun_induction dotted before with
  | case1 => exact dotted_cons_of_ne (by decide) after
  | case2 c =>
      have hdot : ¬ (c = '_' ∧ '.' = '_') := fun h => absurd h.2 (by decide)
      rw [List.singleton_append, dotted, if_neg hdot, dotted_cons_of_ne (by decide)]
      rfl
  | case3 c d rest hdouble ih =>
      rw [List.cons_append, List.cons_append, dotted, if_pos hdouble, ih]
      rfl
  | case4 c d rest hdouble ih =>
      rw [List.cons_append, List.cons_append, dotted, if_neg hdouble, List.cons_append, ← ih]
      rfl

/-- Writing dots for double underscores leaves no double underscore. -/
theorem noDouble_dotted (cs : List Char) : NoDouble (dotted cs) := by
  fun_induction dotted cs with
  | case1 => exact fun before after heq => by simp at heq
  | case2 c => exact NoDouble.cons (fun before after heq => by simp at heq) fun _ => by simp
  | case3 c d rest _ ih => exact ih.cons fun hdot => absurd hdot (by decide)
  | case4 c d rest hdouble ih =>
      refine ih.cons fun hc => ?_
      have hd : d ≠ '_' := fun hd => hdouble ⟨hc, hd⟩
      rw [head?_dotted hd]
      exact fun h => hd (Option.some.inj h)

theorem noDouble_internal (name : String) : NoDouble (internal name).toList := by
  rw [internal, String.toList_ofList]
  exact noDouble_dotted _

theorem dotted_of_noDouble (h : NoDouble cs) : dotted cs = cs := by
  fun_induction dotted cs with
  | case1 => rfl
  | case2 c => rfl
  | case3 c d rest hdouble _ =>
      obtain ⟨rfl, rfl⟩ := hdouble
      exact absurd rfl (h [] rest)
  | case4 c d rest _ ih => rw [ih (h.of_isInfix (List.suffix_cons c _).isInfix)]

theorem dot_mem_dotted (h : ¬ NoDouble cs) : '.' ∈ dotted cs := by
  fun_induction dotted cs with
  | case1 => exact absurd (fun before after heq => by simp at heq) h
  | case2 c =>
      exact absurd (NoDouble.cons (fun before after heq => by simp at heq) fun _ => by simp) h
  | case3 c d rest _ _ => exact List.mem_cons_self
  | case4 c d rest hdouble ih =>
      refine List.mem_cons_of_mem _ (ih fun hrest => h (hrest.cons fun hc hd => hdouble ⟨hc, ?_⟩))
      exact Option.some.inj hd

theorem noDouble_iff : NoDouble cs ↔ dotted cs = cs :=
  ⟨dotted_of_noDouble, fun h => h ▸ noDouble_dotted cs⟩

instance (cs : List Char) : Decidable (NoDouble cs) := decidable_of_iff _ noDouble_iff.symm

theorem underscored_of_not_mem (h : '.' ∉ cs) : underscored cs = cs := by
  induction cs with
  | nil => rfl
  | cons c rest ih =>
      obtain ⟨hc, hrest⟩ := not_or.mp (mt List.mem_cons.mpr h)
      rw [underscored, if_neg (Ne.symm hc), ih hrest]

theorem mem_underscored_iff (hc : c ≠ '_') : c ∈ underscored cs ↔ c ∈ cs ∧ c ≠ '.' := by
  induction cs with
  | nil => simp [underscored]
  | cons d rest ih =>
      rw [underscored]
      split_ifs with hd
      · rw [hd]
        rcases eq_or_ne c '.' with rfl | hdot
        · simpa using ih
        · simp [hc, hdot, ih]
      · by_cases hcd : c = d
        · simp [hcd, hd]
        · simp [hcd, ih]

theorem dot_not_mem_underscored (cs : List Char) : '.' ∉ underscored cs := fun h =>
  ((mem_underscored_iff (by decide)).mp h).2 rfl

theorem underscored_eq_nil_iff : underscored cs = [] ↔ cs = [] := by
  cases cs with
  | nil => rfl
  | cons c rest =>
      rw [underscored]
      split_ifs <;> simp

theorem head?_underscored_ne (h : ∀ c ∈ cs.head?, c ≠ '_' ∧ c ≠ '.') :
    (underscored cs).head? ≠ some '_' := by
  cases cs with
  | nil => exact nofun
  | cons c rest =>
      obtain ⟨hunderscore, hdot⟩ := h c rfl
      rw [underscored, if_neg hdot, List.head?_cons]
      exact fun heq => hunderscore (Option.some.inj heq)

/-- A text without a dot comes back from its text with dots. -/
theorem underscored_dotted (h : '.' ∉ cs) : underscored (dotted cs) = cs := by
  fun_induction dotted cs with
  | case1 => rfl
  | case2 c => exact underscored_of_not_mem h
  | case3 c d rest hdouble ih =>
      obtain ⟨rfl, rfl⟩ := hdouble
      rw [underscored, if_pos rfl, ih (by simpa using h)]
  | case4 c d rest _ ih =>
      obtain ⟨hc, hrest⟩ := not_or.mp (mt List.mem_cons.mpr h)
      rw [underscored, if_neg (Ne.symm hc), ih hrest]

/-- No underscore of a text stands in front of another one or of a dot. -/
def IsSpellable (cs : List Char) : Prop := cs.IsChain fun c d => c = '_' → d ≠ '_' ∧ d ≠ '.'

instance (cs : List Char) : Decidable (IsSpellable cs) :=
  inferInstanceAs (Decidable (List.IsChain _ cs))

theorem isSpellable_dotted (h : '.' ∉ cs) : IsSpellable (dotted cs) := by
  fun_induction dotted cs with
  | case1 => exact .nil
  | case2 c => exact .singleton c
  | case3 c d rest _ ih =>
      exact List.isChain_cons.mpr ⟨fun _ _ hdot => absurd hdot (by decide), ih (by simp_all)⟩
  | case4 c d rest hdouble ih =>
      have hrest : '.' ∉ d :: rest := fun hmem => h (List.mem_cons_of_mem c hmem)
      refine List.isChain_cons.mpr ⟨fun e he hc => ?_, ih hrest⟩
      have hd : d ≠ '_' := fun hd => hdouble ⟨hc, hd⟩
      obtain rfl : d = e := Option.some.inj ((head?_dotted hd).symm.trans he)
      exact ⟨hd, fun hdot => hrest (hdot ▸ List.mem_cons_self)⟩

theorem dotted_underscored (h : IsSpellable cs) : dotted (underscored cs) = cs := by
  induction cs with
  | nil => rfl
  | cons c rest ih =>
      obtain ⟨hnext, hrest⟩ := List.isChain_cons.mp h
      rw [underscored]
      split_ifs with hdot
      · rw [dotted, if_pos ⟨rfl, rfl⟩, ih hrest, hdot]
      · rw [dotted_cons fun hc => head?_underscored_ne fun d hd => hnext d hd hc, ih hrest]

theorem dotted_underscored_iff : dotted (underscored cs) = cs ↔ IsSpellable cs :=
  ⟨fun h => h ▸ isSpellable_dotted (dot_not_mem_underscored cs), dotted_underscored⟩

theorem isSpellable_append_dot : IsSpellable (before ++ '.' :: after) ↔
    IsSpellable before ∧ before.getLast? ≠ some '_' ∧ IsSpellable after := by
  have hmiddle : (∀ c ∈ before.getLast?, c = '_' → ('.' : Char) ≠ '_' ∧ ('.' : Char) ≠ '.') ↔
      before.getLast? ≠ some '_' := by
    constructor
    · exact fun h hlast => (h '_' hlast rfl).2 rfl
    · rintro h c hlast rfl
      exact absurd hlast h
  have hdot : ∀ c ∈ after.head?, ('.' : Char) = '_' → c ≠ '_' ∧ c ≠ '.' := fun _ _ heq =>
    absurd heq (by decide)
  rw [IsSpellable, List.isChain_append, List.isChain_cons]
  simp only [List.head?_cons, Option.mem_some_iff, forall_eq', hmiddle,
    iff_true_intro hdot, true_and]
  rw [and_comm (a := List.IsChain _ after)]
  rfl

section Correspondence
variable {name table : String}

theorem external_internal (h : '.' ∉ name.toList) : external (internal name) = name := by
  rw [external, internal, String.toList_ofList, underscored_dotted h, String.ofList_toList]

theorem internal_external_iff : internal (external table) = table ↔ IsSpellable table.toList := by
  rw [← dotted_underscored_iff, ← String.toList_inj, internal, external, String.toList_ofList,
    String.toList_ofList]

theorem isSpellable_internal (h : '.' ∉ name.toList) : IsSpellable (internal name).toList := by
  rw [internal, String.toList_ofList]
  exact isSpellable_dotted h

theorem dot_not_mem_external (table : String) : '.' ∉ (external table).toList := by
  rw [external, String.toList_ofList]
  exact dot_not_mem_underscored _

/-- Of all tables for which a name is written, the name means the one that can be spelled. -/
theorem external_eq_and_isSpellable_iff {other : String} :
    external other = external table ∧ IsSpellable other.toList ↔
    other = internal (external table) := by
  constructor
  · rintro ⟨hsame, hother⟩
    rw [← hsame, internal_external_iff.mpr hother]
  · rintro rfl
    have hdot := dot_not_mem_external table
    exact ⟨external_internal hdot, isSpellable_internal hdot⟩

/-- Names without dots mean the tables that can be spelled, each another one, and all of them. -/
theorem bijOn_internal :
    Set.BijOn internal {name | '.' ∉ name.toList} {table | IsSpellable table.toList} := by
  have hback :
      Set.InvOn external internal {name | '.' ∉ name.toList} {table | IsSpellable table.toList} :=
    ⟨fun name => external_internal, fun table => internal_external_iff.mpr⟩
  exact hback.bijOn (fun name => isSpellable_internal) fun table _ => dot_not_mem_external table

end Correspondence

end Separators

end SqlGateway.Name
