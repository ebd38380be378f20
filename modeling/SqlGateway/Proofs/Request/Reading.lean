import Mathlib.Data.List.TakeWhile
import SqlGateway.Request.Parser

/-!
# Rules for parsers

What a parser does with all texts of a kind: it reads a value and leaves a text of another kind, or
it refuses them. There is one rule for each way of putting parsers together. Where a failure is
reported has no part in any of them.
-/
namespace SqlGateway.Request.Parser

variable {α β : Type} {p q : Parser α} {f : α → Parser β} {a : α} {b : β} {P Q R : List Char → Prop}

/-- A parser reads a value from every text of a kind, and leaves a text of another kind. -/
def Reads (p : Parser α) (P : List Char → Prop) (a : α) (Q : List Char → Prop) : Prop :=
  ∀ at_ : Cursor, P at_.rest → ∃ next, (p at_).result = some (a, next) ∧ Q next.rest

/-- A parser fails on every text of a kind. -/
def Refuses (p : Parser α) (P : List Char → Prop) : Prop :=
  ∀ at_ : Cursor, P at_.rest → (p at_).result = none

/-- The texts that have a text of a kind behind given characters. -/
def Before (s : List Char) (Q : List Char → Prop) (text : List Char) : Prop :=
  ∃ rest, text = s ++ rest ∧ Q rest

/-- The texts that do not begin with an accepted character. -/
def Stops (accept : Char → Bool) (text : List Char) : Prop := ∀ c ∈ text.head?, accept c = false

theorem result_andThen (p : Parser α) (f : α → Parser β) (at_ : Cursor) :
    (andThen p f at_).result = (p at_).result.bind fun (a, next) => (f a next).result := by
  rw [andThen]
  rcases p at_ with ⟨_, _ | ⟨a, next⟩⟩
  · rfl
  · rfl

theorem result_either (p q : Parser α) (at_ : Cursor) :
    (either p q at_).result = (p at_).result.or (q at_).result := by
  rw [either]
  rcases p at_ with ⟨_, _ | r⟩
  · rfl
  · rfl

theorem Reads.weaken {P' Q' : List Char → Prop} (h : p.Reads P a Q) (hP : ∀ text, P' text → P text)
    (hQ : ∀ text, Q text → Q' text) : p.Reads P' a Q' := by
  intro at_ hbefore
  obtain ⟨next, hresult, hafter⟩ := h at_ (hP _ hbefore)
  exact ⟨next, hresult, hQ _ hafter⟩

theorem Refuses.weaken {P' : List Char → Prop} (h : p.Refuses P) (hP : ∀ text, P' text → P text) :
    p.Refuses P' :=
  fun at_ hbefore => h at_ (hP _ hbefore)

theorem reads_pure (a : α) (P : List Char → Prop) : Reads (pure a) P a P :=
  fun at_ hbefore => ⟨at_, rfl, hbefore⟩

theorem Reads.bind (hp : p.Reads P a Q) (hf : (f a).Reads Q b R) : (p >>= f).Reads P b R := by
  intro at_ hbefore
  obtain ⟨middle, hfirst, hmiddle⟩ := hp at_ hbefore
  obtain ⟨next, hsecond, hafter⟩ := hf middle hmiddle
  refine ⟨next, ?_, hafter⟩
  exact (result_andThen p f at_).trans (hfirst ▸ hsecond)

theorem Refuses.bind (hp : p.Refuses P) : (p >>= f).Refuses P :=
  fun at_ hbefore => (result_andThen p f at_).trans (hp at_ hbefore ▸ rfl)

theorem Reads.refuses_bind (hp : p.Reads P a Q) (hf : (f a).Refuses Q) : (p >>= f).Refuses P := by
  intro at_ hbefore
  obtain ⟨middle, hfirst, hmiddle⟩ := hp at_ hbefore
  exact (result_andThen p f at_).trans (hfirst ▸ hf middle hmiddle)

theorem Reads.either_left (hp : p.Reads P a Q) : (either p q).Reads P a Q := by
  intro at_ hbefore
  obtain ⟨next, hresult, hafter⟩ := hp at_ hbefore
  exact ⟨next, (result_either p q at_).trans (by rw [hresult]; rfl), hafter⟩

theorem Reads.either_right (hp : p.Refuses P) (hq : q.Reads P a Q) : (either p q).Reads P a Q := by
  intro at_ hbefore
  obtain ⟨next, hresult, hafter⟩ := hq at_ hbefore
  exact ⟨next, (result_either p q at_).trans (by rw [hp at_ hbefore, hresult]; rfl), hafter⟩

theorem Refuses.either (hp : p.Refuses P) (hq : q.Refuses P) : (either p q).Refuses P :=
  fun at_ hbefore => (result_either p q at_).trans (by rw [hp at_ hbefore, hq at_ hbefore]; rfl)

theorem Refuses.firstOf {ps : List (Parser α)} (h : ∀ p ∈ ps, p.Refuses P) :
    (firstOf ps).Refuses P := by
  induction ps with
  | nil => exact fun _ _ => rfl
  | cons p rest ih =>
      obtain ⟨hp, hrest⟩ := List.forall_mem_cons.mp h
      cases rest with
      | nil => exact hp
      | cons q rest => exact Refuses.either hp (ih hrest)

/-- The first parser of a list that does not refuse reads. -/
theorem Reads.firstOf {l m : List (Parser α)} (hl : ∀ p ∈ l, p.Refuses P) (hq : q.Reads P a Q) :
    (firstOf (l ++ q :: m)).Reads P a Q := by
  induction l with
  | nil =>
      cases m with
      | nil => exact hq
      | cons _ _ => exact hq.either_left
  | cons p rest ih =>
      obtain ⟨hp, hrest⟩ := List.forall_mem_cons.mp hl
      obtain ⟨r, others, hothers⟩ := List.exists_cons_of_ne_nil
        (List.append_ne_nil_of_right_ne_nil rest (List.cons_ne_nil q m))
      have hread := ih hrest
      rw [hothers] at hread
      rw [List.cons_append, hothers]
      exact Reads.either_right hp hread

theorem Reads.optional (hp : p.Reads P a Q) : (optional p).Reads P (some a) Q :=
  Reads.either_left (Reads.bind hp (reads_pure (some a) Q))

theorem Refuses.optional (hp : p.Refuses P) : (optional p).Reads P none P :=
  Reads.either_right (Refuses.bind hp) (reads_pure none P)

section Characters
variable {accept : Char → Bool} {c : Char} {s : List Char}

theorem reads_satisfy (hc : accept c = true) : (satisfy accept).Reads (Before [c] Q) c Q := by
  rintro ⟨offset, _⟩ ⟨rest, rfl, hafter⟩
  exact ⟨⟨offset + 1, rest⟩, by simp [satisfy, hc], hafter⟩

theorem refuses_satisfy (accept : Char → Bool) : (satisfy accept).Refuses (Stops accept) := by
  rintro ⟨offset, text⟩ hstops
  cases text with
  | nil => rfl
  | cons c rest => simp [satisfy, hstops c rfl]

theorem reads_char (c : Char) : (char c).Reads (Before [c] Q) () Q :=
  Reads.bind (reads_satisfy (beq_self_eq_true c)) (reads_pure () Q)

theorem refuses_char (c : Char) : (char c).Refuses (Stops (· == c)) :=
  Refuses.bind (refuses_satisfy _)

theorem takeWhile_of_stops (hs : ∀ c ∈ s, accept c = true) {rest : List Char}
    (hrest : Stops accept rest) :
    (s ++ rest).takeWhile accept = s ∧ (s ++ rest).dropWhile accept = rest := by
  have hnone : rest.takeWhile accept = [] := by
    cases rest with
    | nil => rfl
    | cons c rest => simp [hrest c rfl]
  have hall : rest.dropWhile accept = rest := by
    cases rest with
    | nil => rfl
    | cons c rest => simp [hrest c rfl]
  rw [List.takeWhile_append_of_pos hs, List.dropWhile_append_of_pos hs, hnone, hall,
    List.append_nil]
  exact ⟨rfl, rfl⟩

theorem reads_run (hs : ∀ c ∈ s, accept c = true) (hQ : ∀ text, Q text → Stops accept text) :
    (run accept).Reads (Before s Q) s Q := by
  rintro ⟨offset, _⟩ ⟨rest, rfl, hafter⟩
  obtain ⟨htaken, hleft⟩ := takeWhile_of_stops hs (hQ rest hafter)
  exact ⟨⟨offset + s.length, rest⟩, by simp [run, htaken, hleft], hafter⟩

theorem result_run1 (accept : Char → Bool) (at_ : Cursor) :
    (run1 accept at_).result = ((run accept at_).result).filter (·.1 ≠ []) := by
  rcases hreply : run accept at_ with ⟨furthest, _ | ⟨_ | ⟨c, taken⟩, next⟩⟩ <;>
    simp [run1, hreply, Option.filter]

theorem reads_run1 (hne : s ≠ []) (hs : ∀ c ∈ s, accept c = true)
    (hQ : ∀ text, Q text → Stops accept text) : (run1 accept).Reads (Before s Q) s Q := by
  intro at_ hbefore
  obtain ⟨next, hresult, hafter⟩ := reads_run hs hQ at_ hbefore
  refine ⟨next, ?_, hafter⟩
  rw [result_run1, hresult]
  simp [hne]

theorem refuses_run1 (accept : Char → Bool) : (run1 accept).Refuses (Stops accept) := by
  rintro at_ hstops
  obtain ⟨htaken, _⟩ := takeWhile_of_stops (List.forall_mem_nil _) hstops
  rw [result_run1, run]
  simpa using htaken

end Characters

variable {judge : α → Option β}

theorem Reads.judged (hp : p.Reads P a Q) (hjudge : judge a = some b) :
    (Parser.judged p judge).Reads P b Q := by
  intro at_ hbefore
  obtain ⟨next, hresult, hafter⟩ := hp at_ hbefore
  refine ⟨next, ?_, hafter⟩
  rw [Parser.judged]
  rcases hreply : p at_ with ⟨furthest, result⟩
  obtain rfl : result = some (a, next) := by rw [← hresult, hreply]
  simp [hjudge]

theorem Reads.refuses_judged (hp : p.Reads P a Q) (hjudge : judge a = none) :
    (Parser.judged p judge).Refuses P := by
  intro at_ hbefore
  obtain ⟨next, hresult, _⟩ := hp at_ hbefore
  rw [Parser.judged]
  rcases hreply : p at_ with ⟨furthest, result⟩
  obtain rfl : result = some (a, next) := by rw [← hresult, hreply]
  simp [hjudge]

theorem Refuses.judged (hp : p.Refuses P) : (Parser.judged p judge).Refuses P := by
  intro at_ hbefore
  have hresult := hp at_ hbefore
  rw [Parser.judged]
  rcases hreply : p at_ with ⟨furthest, result⟩
  obtain rfl : result = none := by rw [← hresult, hreply]
  rfl

section Successes
variable {at_ next : Cursor}

/-- A parser reads a value between two places. -/
def Takes (p : Parser α) (at_ : Cursor) (a : α) (next : Cursor) : Prop :=
  (p at_).result = some (a, next)

theorem takes_pure {c : α} (h : Takes (pure a) at_ c next) : c = a ∧ next = at_ := by
  cases h
  exact ⟨rfl, rfl⟩

theorem takes_bind (h : (p >>= f).Takes at_ b next) :
    ∃ a middle, p.Takes at_ a middle ∧ (f a).Takes middle b next := by
  obtain ⟨⟨a, middle⟩, hp, hf⟩ := Option.bind_eq_some_iff.mp ((result_andThen p f at_).symm.trans h)
  exact ⟨a, middle, hp, hf⟩

theorem takes_either (h : (either p q).Takes at_ a next) :
    p.Takes at_ a next ∨ (p at_).result = none ∧ q.Takes at_ a next := by
  have h := (result_either p q at_).symm.trans h
  cases hp : (p at_).result with
  | none => exact .inr ⟨rfl, by rwa [hp] at h⟩
  | some r => exact .inl (by rw [Takes, hp, ← h, hp]; rfl)

theorem takes_firstOf {ps : List (Parser α)} (h : (firstOf ps).Takes at_ a next) :
    ∃ p ∈ ps, p.Takes at_ a next := by
  induction ps with
  | nil => cases h
  | cons p rest ih =>
      cases rest with
      | nil => exact ⟨p, List.mem_cons_self, h⟩
      | cons q rest =>
          rcases takes_either h with hp | ⟨_, hrest⟩
          · exact ⟨p, List.mem_cons_self, hp⟩
          · obtain ⟨p, hmem, hp⟩ := ih hrest
            exact ⟨p, List.mem_cons_of_mem _ hmem, hp⟩

theorem takes_optional {o : Option α} (h : (optional p).Takes at_ o next) :
    (∃ a, o = some a ∧ p.Takes at_ a next) ∨ o = none ∧ next = at_ ∧ (p at_).result = none := by
  rcases takes_either h with hsome | ⟨hnone, hpure⟩
  · obtain ⟨a, middle, hp, hpure⟩ := takes_bind (p := p) hsome
    obtain ⟨rfl, rfl⟩ := takes_pure hpure
    exact .inl ⟨a, rfl, hp⟩
  · obtain ⟨rfl, rfl⟩ := takes_pure hpure
    refine .inr ⟨rfl, rfl, ?_⟩
    cases hp : (p next).result with
    | none => rfl
    | some r =>
        rw [result_andThen, hp] at hnone
        cases hnone

theorem takes_judged {judge : α → Option β} (h : (judged p judge).Takes at_ b next) :
    ∃ a, p.Takes at_ a next ∧ judge a = some b := by
  unfold Takes judged at h
  rcases hp : p at_ with ⟨furthest, _ | ⟨a, middle⟩⟩
  · rw [hp] at h
    cases h
  · rw [hp] at h
    cases hjudge : judge a with
    | none => simp [hjudge] at h
    | some c =>
        simp only [hjudge, Option.some.injEq, Prod.mk.injEq] at h
        obtain ⟨rfl, rfl⟩ := h
        exact ⟨a, by rw [Takes, hp], hjudge⟩

theorem eq_none_of_judged {judge : α → Option β} (hnone : (judged p judge at_).result = none)
    (h : p.Takes at_ a next) : judge a = none := by
  unfold judged at hnone
  rcases hp : p at_ with ⟨furthest, result⟩
  obtain rfl : result = some (a, next) := by rw [← h, hp]
  rw [hp] at hnone
  cases hjudge : judge a with
  | none => rfl
  | some b => simp [hjudge] at hnone

theorem takes_satisfy {accept : Char → Bool} {c : Char} (h : (satisfy accept).Takes at_ c next) :
    accept c = true ∧ at_.rest = c :: next.rest := by
  unfold Takes satisfy at h
  cases hrest : at_.rest with
  | nil => simp [hrest] at h
  | cons d rest =>
      rw [hrest] at h
      dsimp only at h
      split_ifs at h with hd
      cases h
      exact ⟨hd, rfl⟩

theorem takes_char {c : Char} {u : Unit} (h : (char c).Takes at_ u next) :
    at_.rest = c :: next.rest := by
  obtain ⟨d, middle, hd, hpure⟩ := takes_bind (p := satisfy (· == c)) h
  obtain ⟨_, rfl⟩ := takes_pure hpure
  obtain ⟨hd, hrest⟩ := takes_satisfy hd
  rwa [beq_iff_eq.mp hd] at hrest

theorem takes_run {accept : Char → Bool} {s : List Char} (h : (run accept).Takes at_ s next) :
    (∀ c ∈ s, accept c = true) ∧ Stops accept next.rest ∧ at_.rest = s ++ next.rest := by
  cases h
  refine ⟨fun c hc => List.mem_takeWhile_imp hc, fun c hc => ?_,
    List.takeWhile_append_dropWhile.symm⟩
  have hstop := List.head?_dropWhile_not accept at_.rest
  rw [Option.mem_def.mp hc] at hstop
  exact hstop

theorem takes_run1 {accept : Char → Bool} {s : List Char} (h : (run1 accept).Takes at_ s next) :
    s ≠ [] ∧ (∀ c ∈ s, accept c = true) ∧ Stops accept next.rest ∧ at_.rest = s ++ next.rest := by
  obtain ⟨hrun, hne⟩ := Option.filter_eq_some_iff.mp ((result_run1 accept at_).symm.trans h)
  exact ⟨of_decide_eq_true hne, takes_run hrun⟩

theorem Takes.bind {middle : Cursor} (hp : p.Takes at_ a middle) (hf : (f a).Takes middle b next) :
    (p >>= f).Takes at_ b next :=
  (result_andThen p f at_).trans (Option.bind_eq_some_iff.mpr ⟨(a, middle), hp, hf⟩)

theorem exists_takes_optional (p : Parser α) (at_ : Cursor) :
    ∃ o next, (optional p).Takes at_ o next := by
  cases hp : (p at_).result with
  | none => exact ⟨none, at_, (result_either _ _ at_).trans (by rw [result_andThen, hp]; rfl)⟩
  | some r => exact ⟨some r.1, r.2, (result_either _ _ at_).trans (by rw [result_andThen, hp]; rfl)⟩

theorem exists_takes_run1 {accept : Char → Bool} (hstart : ∃ c ∈ at_.rest.head?, accept c = true) :
    ∃ s next, (run1 accept).Takes at_ s next := by
  obtain ⟨c, hc, haccept⟩ := hstart
  obtain ⟨rest, hrest⟩ := List.head?_eq_some_iff.mp hc
  refine ⟨_, _, (result_run1 accept at_).trans (Option.filter_eq_some_iff.mpr ⟨rfl, ?_⟩)⟩
  simp [hrest, haccept]

theorem takes_firstOf_append {l m : List (Parser α)} (hl : ∀ p ∈ l, (p at_).result = none)
    (h : (firstOf (l ++ m)).Takes at_ a next) : (firstOf m).Takes at_ a next := by
  induction l with
  | nil => exact h
  | cons p rest ih =>
      obtain ⟨hp, hrest⟩ := List.forall_mem_cons.mp hl
      cases hothers : rest ++ m with
      | nil =>
          rw [List.cons_append, hothers] at h
          cases hp.symm.trans h
      | cons q others =>
          rw [List.cons_append, hothers] at h
          rcases takes_either h with hfirst | ⟨_, hlater⟩
          · cases hp.symm.trans hfirst
          · exact ih hrest (hothers ▸ hlater)

end Successes

section Kinds
variable {A : α → Prop} {B : β → Prop}

def Yields (p : Parser α) (A : α → Prop) : Prop := ∀ at_ a next, p.Takes at_ a next → A a

theorem yields_any (p : Parser α) : p.Yields fun _ => True := fun _ _ _ _ => trivial

theorem yields_pure (ha : A a) : Yields (pure a) A := fun _ _ _ ht => (takes_pure ht).1 ▸ ha

theorem Yields.bind (hp : p.Yields A) (hf : ∀ a, A a → (f a).Yields B) : (p >>= f).Yields B := by
  intro at_ b next ht
  obtain ⟨a, middle, hpt, hft⟩ := takes_bind ht
  exact hf a (hp _ _ _ hpt) _ _ _ hft

theorem Yields.either (hp : p.Yields A) (hq : q.Yields A) : (either p q).Yields A := by
  intro at_ a next ht
  rcases takes_either ht with hpt | ⟨_, hqt⟩
  · exact hp _ _ _ hpt
  · exact hq _ _ _ hqt

theorem Yields.optional (hp : p.Yields A) : (optional p).Yields fun o => ∀ a ∈ o, A a := by
  refine Yields.either (hp.bind fun a ha => yields_pure ?_) (yields_pure nofun)
  rintro _ ⟨⟩
  exact ha

theorem Yields.many (hp : p.Yields A) : (many p).Yields fun as => ∀ a ∈ as, A a := by
  have hall (count : Nat) : (upTo p count).Yields fun as => ∀ a ∈ as, A a := by
    induction count with
    | zero => exact yields_pure (List.forall_mem_nil _)
    | succ count ih =>
        refine Yields.either ?_ (yields_pure (List.forall_mem_nil _))
        exact hp.bind fun a ha => ih.bind fun rest hrest =>
          yields_pure (List.forall_mem_cons.mpr ⟨ha, hrest⟩)
  exact fun at_ => hall at_.rest.length at_

end Kinds

end SqlGateway.Request.Parser
