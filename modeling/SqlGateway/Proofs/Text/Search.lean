import Mathlib.Data.List.Basic
import Mathlib.Data.List.TakeWhile
import SqlGateway.Text.Search

/-!
# Places in texts

Where a text occurs in another one, and the words of a text. Words are the pieces without blanks
that reach from one blank, or an end of the text, to the next, so they are found again in the text
that has one blank between each two of them.
-/
namespace SqlGateway.Text

variable {cs ds w : List Char} {c : Char}

/-- A text does not occur where its first character does not. -/
theorem occurs_append_of_not_mem {first : Char} {part : List Char} (h : first ∉ cs) :
    occurs (first :: part) (cs ++ ds) = occurs (first :: part) ds := by
  induction cs with
  | nil => rfl
  | cons c rest ih =>
      obtain ⟨hc, hrest⟩ := not_or.mp (mt List.mem_cons.mpr h)
      have hstart : startsWith (first :: part) (c :: (rest ++ ds)) = false := by
        simp [startsWith, dropFront?, hc]
      rw [List.cons_append, occurs, hstart, ih hrest, Bool.false_or]

theorem occurs_eq_false_of_not_mem {first : Char} {part : List Char} (h : first ∉ cs) :
    occurs (first :: part) cs = false := by
  have happend : occurs (first :: part) (cs ++ []) = occurs (first :: part) [] :=
    occurs_append_of_not_mem h
  rwa [List.append_nil] at happend

theorem startsWith_append (part cs : List Char) : startsWith part (part ++ cs) = true := by
  simp [startsWith]

theorem exists_of_startsWith {part : List Char} (h : startsWith part cs = true) :
    ∃ after, cs = part ++ after := by
  induction part generalizing cs with
  | nil => exact ⟨cs, rfl⟩
  | cons p part ih =>
      cases cs with
      | nil => cases h
      | cons c rest =>
          by_cases hc : p = c
          · subst hc
            obtain ⟨after, rfl⟩ := ih (by simpa [startsWith, dropFront?] using h)
            exact ⟨after, rfl⟩
          · simp [startsWith, dropFront?, hc] at h

theorem occurs_append (before part after : List Char) :
    occurs part (before ++ (part ++ after)) = true := by
  induction before with
  | nil =>
      have hstart := startsWith_append part after
      rw [List.nil_append]
      cases hpart : part ++ after with
      | nil =>
          obtain ⟨rfl, rfl⟩ := List.append_eq_nil_iff.mp hpart
          rfl
      | cons c rest => rw [occurs, ← hpart, hstart, Bool.true_or]
  | cons c rest ih => rw [List.cons_append, occurs, ih, Bool.or_true]

theorem exists_of_occurs {part : List Char} (h : occurs part cs = true) :
    ∃ before after, cs = before ++ (part ++ after) := by
  induction cs with
  | nil =>
      obtain rfl : part = [] := by simpa [occurs] using h
      exact ⟨[], [], rfl⟩
  | cons c rest ih =>
      rcases Bool.or_eq_true_iff.mp h with hstart | hrest
      · obtain ⟨after, hafter⟩ := exists_of_startsWith hstart
        exact ⟨[], after, hafter⟩
      · obtain ⟨before, after, rfl⟩ := ih hrest
        exact ⟨c :: before, after, rfl⟩

/-- The equation of `words` for a character, whose own derivation would take seconds. -/
theorem words_cons_eq (c : Char) (rest : List Char) : words (c :: rest) =
    if isBlank c then words rest
    else
      match rest, words rest with
      | [], _ => [[c]]
      | d :: _, others =>
        if isBlank d then [c] :: others
        else
          match others with
          | [] => [[c]]
          | first :: more => (c :: first) :: more := rfl

theorem words_nil : words [] = [] := rfl

theorem words_cons_of_blank (hc : isBlank c = true) : words (c :: cs) = words cs := by
  rw [words_cons_eq, if_pos hc]

/-- The first word goes on to the first blank. -/
theorem words_cons (hc : isBlank c = false) :
    words (c :: cs) = (c :: cs.takeWhile (!isBlank ·)) :: words (cs.dropWhile (!isBlank ·)) := by
  induction cs generalizing c with
  | nil => simp [words_cons_eq, words_nil, hc]
  | cons d rest ih =>
      rw [words_cons_eq]
      cases hd : isBlank d with
      | true => simp [hc, hd]
      | false => simp [hc, hd, ih hd]

theorem words_ne_nil (hc : isBlank c = false) : words (c :: cs) ≠ [] := by
  rw [words_cons hc]
  exact List.cons_ne_nil _ _

theorem words_of_forall (hne : w ≠ []) (hw : ∀ c ∈ w, isBlank c = false) : words w = [w] := by
  obtain ⟨c, rest, rfl⟩ := List.exists_cons_of_ne_nil hne
  obtain ⟨hc, hrest⟩ := List.forall_mem_cons.mp hw
  have hall : ∀ d ∈ rest, (!isBlank d) = true := by simpa using hrest
  rw [words_cons hc, List.takeWhile_eq_self_iff.mpr hall, List.dropWhile_eq_nil_iff.mpr hall,
    words_nil]

theorem words_append_blank (hc : isBlank c = true) (cs ds : List Char) :
    words (cs ++ c :: ds) = words cs ++ words ds := by
  induction cs with
  | nil => rw [List.nil_append, words_cons_of_blank hc, words_nil, List.nil_append]
  | cons d rest ih =>
      cases hd : isBlank d with
      | true => rw [List.cons_append, words_cons_of_blank hd, words_cons_of_blank hd, ih]
      | false =>
          cases rest with
          | nil => simp [words_cons_eq, hc, hd]
          | cons e more =>
              rw [List.cons_append, List.cons_append, words_cons_eq d, ← List.cons_append, ih,
                words_cons_eq d]
              cases he : isBlank e with
              | true => simp [hd, he]
              | false =>
                  obtain ⟨first, others, hfirst⟩ := List.exists_cons_of_ne_nil
                    (words_ne_nil he : words (e :: more) ≠ [])
                  simp [hd, he, hfirst]

theorem isBlank_of_mem_head?_dropWhile {d : Char} (hd : d ∈ (cs.dropWhile (!isBlank ·)).head?) :
    isBlank d = true := by
  have hhead := List.head?_dropWhile_not (!isBlank ·) cs
  rw [Option.mem_def.mp hd] at hhead
  simpa using hhead

theorem length_dropWhile_lt (c : Char) (rest : List Char) :
    (rest.dropWhile (!isBlank ·)).length < (c :: rest).length := by
  have hle := (List.dropWhile_sublist (!isBlank ·) (l := rest)).length_le
  simp only [List.length_cons]
  omega

/-- Words are not empty and have no blanks. -/
theorem not_blank_of_mem_words :
    (cs : List Char) → w ∈ words cs → w ≠ [] ∧ ∀ c ∈ w, isBlank c = false
  | [], h => by cases h
  | c :: rest, h => by
      cases hc : isBlank c with
      | true =>
          rw [words_cons_of_blank hc] at h
          exact not_blank_of_mem_words rest h
      | false =>
          rw [words_cons hc] at h
          rcases List.mem_cons.mp h with rfl | h
          · refine ⟨List.cons_ne_nil _ _, List.forall_mem_cons.mpr ⟨hc, fun d hd => ?_⟩⟩
            simpa using List.all_eq_true.mp List.all_takeWhile d hd
          · exact not_blank_of_mem_words _ h
termination_by cs => cs.length
decreasing_by
  · exact length_dropWhile_lt c rest
  · simp

/-- A text with blanks in place of some characters. -/
def cleared (p : Char → Bool) (cs : List Char) : List Char := cs.map fun c => if p c then ' ' else c

/-- What is cleared in a text is cleared in its words, each by itself. -/
theorem words_cleared (p : Char → Bool) : (cs : List Char) →
    words (cleared p cs) = (words cs).flatMap fun w => words (cleared p w)
  | [] => rfl
  | c :: rest => by
      cases hc : isBlank c with
      | true =>
          have hclear : isBlank (if p c then ' ' else c) = true := by
            split_ifs
            · rfl
            · exact hc
          rw [words_cons_of_blank hc, cleared, List.map_cons, words_cons_of_blank hclear]
          exact words_cleared p rest
      | false =>
          have hcut :
              c :: rest = (c :: rest.takeWhile (!isBlank ·)) ++ rest.dropWhile (!isBlank ·) := by
            rw [List.cons_append, List.takeWhile_append_dropWhile]
          rw [words_cons hc, List.flatMap_cons, ← words_cleared p (rest.dropWhile (!isBlank ·)),
            hcut, cleared, List.map_append, ← cleared, ← cleared]
          generalize hlater : rest.dropWhile (!isBlank ·) = later
          cases later with
          | nil => simp [cleared, words_nil]
          | cons d more =>
              have hd : isBlank d = true :=
                isBlank_of_mem_head?_dropWhile (by rw [hlater]; exact rfl)
              have hclear : isBlank (if p d then ' ' else d) = true := by
                split_ifs
                · rfl
                · exact hd
              have hblank :
                cleared p (d :: more) = (if p d then ' ' else d) :: cleared p more := rfl
              rw [hblank, words_append_blank hclear, words_cons_of_blank hclear]
termination_by cs => cs.length
decreasing_by
  · exact length_dropWhile_lt c rest
  · simp

/-- Words with a blank between each two of them are the words of that text. -/
theorem words_intercalate {ws : List (List Char)}
    (h : ∀ w ∈ ws, w ≠ [] ∧ ∀ c ∈ w, isBlank c = false) : words ([' '].intercalate ws) = ws := by
  induction ws with
  | nil => rfl
  | cons w rest ih =>
      obtain ⟨⟨hne, hw⟩, hrest⟩ := List.forall_mem_cons.mp h
      cases rest with
      | nil => simpa using words_of_forall hne hw
      | cons next more =>
          rw [List.intercalate_cons_cons, List.append_assoc, List.singleton_append,
            words_append_blank (by decide), words_of_forall hne hw, ih hrest]
          rfl

end SqlGateway.Text
