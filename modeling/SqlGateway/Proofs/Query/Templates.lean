import Mathlib.Data.List.Forall2
import Mathlib.Data.List.TakeWhile
import SqlGateway.Proofs.Except
import SqlGateway.Query.Template

/-!
# Bound templates

How a template is read, said without the scan that reads it, and what binding makes of a reading:
the same text with a marker for each variable, and the values of the variables in the order of the
markers. The scan finds the only reading there is, so the names written back give the template.
-/
namespace SqlGateway.Query

open Request (Variables)

namespace Template

/-- A letter or underscore, then letters, digits and underscores. -/
def IsName (name : List Char) : Prop :=
  name.head?.any startsName = true ∧ ∀ c ∈ name, continuesName c = true

instance (name : List Char) : Decidable (IsName name) := inferInstanceAs (Decidable (_ ∧ _))

/-- A reading of a text from left to right, that begins inside single quotes or not. Every single
quote changes the side; outside, a dollar sign with a name behind it is a variable, whose name goes
on as long as it can. -/
inductive Reads : (quoted : Bool) → List Char → List TemplatePart → Prop
  | nil {quoted : Bool} : Reads quoted [] []
  | quote {quoted : Bool} {rest : List Char} {ps : List TemplatePart} :
      Reads (!quoted) rest ps → Reads quoted ('\'' :: rest) (.kept '\'' :: ps)
  | token {name rest : List Char} {ps : List TemplatePart} :
      IsName name → (∀ c ∈ rest.head?, continuesName c = false) → Reads false rest ps →
      Reads false ('$' :: (name ++ rest)) (.variable (String.ofList name) :: ps)
  | kept {quoted : Bool} {c : Char} {rest : List Char} {ps : List TemplatePart} :
      c ≠ '\'' → ¬ (c = '$' ∧ quoted = false ∧ rest.head?.any startsName = true) →
      Reads quoted rest ps → Reads quoted (c :: rest) (.kept c :: ps)

/-- The names of the variables, in order. -/
def names : List TemplatePart → List String
  | [] => []
  | .kept _ :: rest => names rest
  | .variable name :: rest => name :: names rest

/-- The text of parts of which `count` variables came before; `token` writes a variable by its
number and name. -/
def written (token : Nat → String → List Char) (count : Nat) : List TemplatePart → List Char
  | [] => []
  | .kept c :: rest => c :: written token count rest
  | .variable name :: rest => token (count + 1) name ++ written token (count + 1) rest

/-- A variable as it stands in a template. -/
def asNamed (_ : Nat) (name : String) : List Char := '$' :: name.toList

/-- A variable as the marker of its parameter. -/
def asMarked (d : Dialect) (number : Nat) (_ : String) : List Char := (d.marker number).toList

section Reading
variable {quoted : Bool} {cs name rest : List Char} {ps : List TemplatePart}

theorem continuesName_of_startsName {c : Char} (h : startsName c = true) :
    continuesName c = true := by
  rcases Bool.or_eq_true_iff.mp h with halpha | hunderscore
  · simp [continuesName, Char.isAlphanum, halpha]
  · simp [continuesName, hunderscore]

theorem isName_takeWhile (h : rest.head?.any startsName = true) :
    IsName (rest.takeWhile continuesName) := by
  refine ⟨?_, fun c hc => List.mem_takeWhile_imp hc⟩
  cases rest with
  | nil => cases h
  | cons c rest =>
      have hc : startsName c = true := h
      rw [List.takeWhile_cons_of_pos (continuesName_of_startsName hc)]
      exact hc

theorem head?_dropWhile : ∀ c ∈ (rest.dropWhile continuesName).head?, continuesName c = false := by
  intro c hc
  have hnot := List.head?_dropWhile_not continuesName rest
  rw [Option.mem_def.mp hc] at hnot
  simpa using hnot

theorem takeWhile_name (hname : IsName name) (hend : ∀ c ∈ rest.head?, continuesName c = false) :
    (name ++ rest).takeWhile continuesName = name ∧
    (name ++ rest).dropWhile continuesName = rest := by
  rw [List.takeWhile_append_of_pos hname.2, List.dropWhile_append_of_pos hname.2]
  cases rest with
  | nil => exact ⟨List.append_nil name, rfl⟩
  | cons c rest =>
      have hc : continuesName c = false := hend c rfl
      simp [hc]

theorem head?_name (hname : IsName name) : (name ++ rest).head?.any startsName = true := by
  cases name with
  | nil => cases hname.1
  | cons c name => exact hname.1

/-- The scan finds a reading. -/
theorem reads_parts (quoted : Bool) (cs : List Char) : Reads quoted cs (parts quoted cs) := by
  fun_induction parts quoted cs with
  | case1 => exact .nil
  | case2 quoted rest ih => exact .quote ih
  | case3 quoted c rest _ htoken ih =>
      obtain ⟨rfl, rfl, hstart⟩ := htoken
      have hread := Reads.token (isName_takeWhile hstart) head?_dropWhile ih
      rwa [List.takeWhile_append_dropWhile] at hread
  | case4 quoted c rest hquote hkept ih => exact .kept hquote hkept ih

/-- There is no other reading. -/
theorem Reads.eq_parts (h : Reads quoted cs ps) : ps = parts quoted cs := by
  induction h with
  | nil => rw [parts]
  | quote _ ih => rw [parts, if_pos rfl, ih]
  | @token name rest ps hname hend _ ih =>
      obtain ⟨htake, hdrop⟩ := takeWhile_name hname hend
      rw [parts, if_neg (by decide), if_pos ⟨rfl, rfl, head?_name hname⟩, htake, hdrop, ih]
  | kept hquote hkept _ ih => rw [parts, if_neg hquote, if_neg hkept, ih]

theorem reads_iff : Reads quoted cs ps ↔ ps = parts quoted cs :=
  ⟨Reads.eq_parts, fun h => h ▸ reads_parts quoted cs⟩

/-- The names written back give the text that was read. -/
theorem Reads.written_asNamed (h : Reads quoted cs ps) (count : Nat) :
    written asNamed count ps = cs := by
  induction h generalizing count with
  | nil => rfl
  | quote _ ih => rw [written, ih]
  | token _ _ _ ih => rw [written, ih, asNamed, String.toList_ofList, List.cons_append]
  | kept _ _ _ ih => rw [written, ih]

end Reading

/-- A variable has a value and the value passes the guard. -/
def Admits (vars : Variables) (name : String) (value : Json) : Prop :=
  vars.get? name = some value ∧ Guard.check name value = .ok ()

/-- What is wrong with a variable: it is not known, or its value does not pass the guard. -/
inductive Refuses (vars : Variables) (name : String) : Error → Prop
  | unknown : vars.get? name = none → Refuses vars name (.invalid s!"unknown variable `${name}`")
  | screened {value : Json} {e : Error} :
      vars.get? name = some value → Guard.check name value = .error e → Refuses vars name e

section Binding
variable {d : Dialect} {vars : Variables} {name : String} {value : Json} {e : Error} {count : Nat}
  {ps : List TemplatePart} {values : List Json} {text : List Char}

theorem bindParts_kept (c : Char) (h : bindParts d vars count ps = .ok (text, values)) :
    bindParts d vars count (.kept c :: ps) = .ok (c :: text, values) := by
  rw [bindParts, h]
  rfl

theorem bindParts_variable (hname : Admits vars name value)
    (h : bindParts d vars (count + 1) ps = .ok (text, values)) :
    bindParts d vars count (.variable name :: ps) =
      .ok ((d.marker (count + 1)).toList ++ text, value :: values) := by
  obtain ⟨hvalue, hguard⟩ := hname
  simp only [bindParts, hvalue, hguard, h]
  rfl

theorem bindParts_refused (h : Refuses vars name e) :
    bindParts d vars count (.variable name :: ps) = .error e := by
  cases h with
  | unknown hnone => simp only [bindParts, hnone]; rfl
  | screened hvalue hguard => simp only [bindParts, hvalue, hguard]; rfl

/-- What goes wrong further on is what goes wrong. -/
theorem bindParts_variable_error (hname : Admits vars name value)
    (h : bindParts d vars (count + 1) ps = .error e) :
    bindParts d vars count (.variable name :: ps) = .error e := by
  obtain ⟨hvalue, hguard⟩ := hname
  simp only [bindParts, hvalue, hguard, h]
  rfl

/-- With every variable admitted, each stands as the marker of its number. -/
theorem bindParts_admitted (h : List.Forall₂ (Admits vars) (names ps) values) :
    bindParts d vars count ps = .ok (written (asMarked d) count ps, values) := by
  induction ps generalizing count values with
  | nil =>
      cases h
      rfl
  | cons p ps ih =>
      rcases p with c | name
      · exact bindParts_kept c (ih h)
      · cases h with
        | cons hname hrest => exact bindParts_variable hname (ih hrest)

/-- The first variable that is refused decides. -/
theorem bindParts_first_refused {before after : List String}
    (hnames : names ps = before ++ name :: after) (hbefore : ∀ n ∈ before, ∃ v, Admits vars n v)
    (h : Refuses vars name e) : bindParts d vars count ps = .error e := by
  induction ps generalizing count before with
  | nil => cases before <;> cases hnames
  | cons p ps ih =>
      rcases p with c | n
      · rw [bindParts, ih hnames hbefore]
        rfl
      · cases before with
        | nil =>
            obtain ⟨rfl, -⟩ := List.cons.inj hnames
            exact bindParts_refused h
        | cons first before =>
            obtain ⟨rfl, hrest⟩ := List.cons.inj hnames
            obtain ⟨⟨v, hv⟩, hothers⟩ := List.forall_mem_cons.mp hbefore
            exact bindParts_variable_error hv (ih hrest hothers)

theorem bind_of_bindParts {sql : String}
    (h : bindParts d vars 0 (parts false sql.toList) = .ok (text, values)) :
    Template.bind d vars sql = .ok (String.ofList text, values) := by
  rw [Template.bind, h]
  rfl

theorem admits_unique : Relator.RightUnique (Admits vars) :=
  fun _ _ _ h h' => Option.some.inj (h.1.symm.trans h'.1)

theorem exists_refused (h : ¬ ∃ v, Admits vars name v) : ∃ e, Refuses vars name e := by
  cases hvalue : vars.get? name with
  | none => exact ⟨_, .unknown hvalue⟩
  | some value =>
      cases hguard : Guard.check name value with
      | error e => exact ⟨e, .screened hvalue hguard⟩
      | ok => exact absurd ⟨value, hvalue, hguard⟩ h

theorem exists_admitted {xs : List String} (h : ∀ name ∈ xs, ∃ v, Admits vars name v) :
    ∃ values, List.Forall₂ (Admits vars) xs values := by
  induction xs with
  | nil => exact ⟨[], .nil⟩
  | cons name xs ih =>
      obtain ⟨⟨v, hv⟩, hrest⟩ := List.forall_mem_cons.mp h
      obtain ⟨values, hvalues⟩ := ih hrest
      exact ⟨v :: values, .cons hv hvalues⟩

end Binding

end Template

open Template

/-- A template has one reading, and the names written back into it give the template. If every
variable of the reading is admitted, binding succeeds: its statement is the template with the marker
of its number in place of each variable and nothing else changed, and its parameters are the values
of the variables in the order of the markers, as many as these. Else it fails for the first variable
that is not admitted. -/
theorem template_is_bound_faithfully (d : Dialect) (vars : Variables) (sql : String) :
    ∃ ps, (∀ qs, Reads false sql.toList qs ↔ qs = ps) ∧ written asNamed 0 ps = sql.toList ∧
      ((∀ name ∈ names ps, ∃ v, Admits vars name v) →
        ∃ values, Template.bind d vars sql =
          .ok (String.ofList (written (asMarked d) 0 ps), values) ∧
          List.Forall₂ (Admits vars) (names ps) values ∧ values.length = (names ps).length) ∧
      ∀ before name after, names ps = before ++ name :: after →
      (∀ n ∈ before, ∃ v, Admits vars n v) →
        (¬ ∃ v, Admits vars name v) → ∃ e, Refuses vars name e ∧ Template.bind d vars sql =
          .error e := by
  refine ⟨parts false sql.toList, fun _ => reads_iff, (reads_parts _ _).written_asNamed 0, ?_, ?_⟩
  · intro hall
    obtain ⟨values, hvalues⟩ := exists_admitted hall
    exact ⟨values, bind_of_bindParts (bindParts_admitted hvalues), hvalues, hvalues.length_eq.symm⟩
  · intro before name after hnames hbefore hname
    obtain ⟨e, hrefused⟩ := exists_refused hname
    refine ⟨e, hrefused, ?_⟩
    rw [Template.bind, bindParts_first_refused hnames hbefore hrefused]
    rfl

/-- Someone's age and name. -/
def ann : Variables := [("age", .int 7), ("name", .text "ann")]

/-- A quoted dollar sign, a marker of the template's own, variables without a gap, one of them
twice, and a dollar sign at the end; and a variable that no one knows after one that is known. -/
theorem template_is_bound_faithfully_ann :
    Template.bind .postgres ann "select '$age', $1 from é where a = $age and b = $name$age -- $" =
        .ok ("select '$age', $1 from é where a = $1 and b = $2$3 -- $",
          [.int 7, .text "ann", .int 7]) ∧
      Template.bind .mysql ann "select $age, $size, $none" =
        .error (.invalid "unknown variable `$size`") := by
  have hage : Admits ann "age" (.int 7) := ⟨rfl, rfl⟩
  have hname : Admits ann "name" (.text "ann") := ⟨rfl, eq_ok_of_toOption (by decide +kernel)⟩
  constructor
  · obtain ⟨ps, hreads, -, hbind, -⟩ := template_is_bound_faithfully .postgres ann
      "select '$age', $1 from é where a = $age and b = $name$age -- $"
    obtain rfl := (hreads _).mp (reads_parts _ _)
    have hnames : names (parts false
        "select '$age', $1 from é where a = $age and b = $name$age -- $".toList) =
          ["age", "name", "age"] := by
      decide +kernel
    rw [hnames] at hbind
    obtain ⟨values, hbound, hvalues, -⟩ := hbind (by
      simp only [List.forall_mem_cons, List.not_mem_nil, false_imp_iff, implies_true, and_true]
      exact ⟨⟨_, hage⟩, ⟨_, hname⟩, ⟨_, hage⟩⟩)
    obtain rfl :=
      List.right_unique_forall₂' admits_unique hvalues (.cons hage (.cons hname (.cons hage .nil)))
    rw [hbound]
    congr 2
    decide +kernel
  · obtain ⟨ps, hreads, -, -, hrefused⟩ :=
      template_is_bound_faithfully .mysql ann "select $age, $size, $none"
    obtain rfl := (hreads _).mp (reads_parts _ _)
    have hnames :
        names (parts false "select $age, $size, $none".toList) = ["age", "size", "none"] := by
      decide +kernel
    have hunknown : ¬ ∃ v, Admits ann "size" v := by
      rintro ⟨_, hvalue, -⟩
      cases hvalue
    obtain ⟨e, hsize, hbound⟩ := hrefused ["age"] "size" ["none"] hnames
      (List.forall_mem_singleton.mpr ⟨_, hage⟩) hunknown
    cases hsize with
    | unknown => exact hbound
    | screened hvalue => cases hvalue

end SqlGateway.Query
