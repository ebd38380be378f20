import Mathlib.Data.List.Forall2

/-!
# Results that succeed

How a success is taken apart: a sequence of steps succeeds only if each of them does, and a fold
only through a chain of states. And how steps that work on a state are run one after another.
-/
namespace SqlGateway

variable {ε α β σ : Type}

theorem bind_eq_ok {x : Except ε α} {f : α → Except ε β} {b : β} :
    (x >>= f) = .ok b ↔ ∃ a, x = .ok a ∧ f a = .ok b := by
  cases x with
  | error e =>
      constructor
      · intro h
        cases h
      · rintro ⟨_, h, _⟩
        cases h
  | ok a =>
      constructor
      · intro h
        exact ⟨a, rfl, h⟩
      · rintro ⟨_, h, hb⟩
        cases h
        exact hb

theorem pure_eq_ok {a b : α} : (pure a : Except ε α) = .ok b ↔ a = b := by
  constructor
  · intro h
    cases h
    rfl
  · rintro rfl
    rfl

theorem exists_eq_ok {x : Except ε α} (h : x.isOk = true) : ∃ a, x = .ok a := by
  cases x with
  | error e => cases h
  | ok a => exact ⟨a, rfl⟩

theorem eq_ok_of_toOption {x : Except ε α} {a : α} (h : x.toOption = some a) : x = .ok a := by
  cases x with
  | error e => cases h
  | ok b =>
      obtain rfl := Option.some.inj h
      rfl

/-- A part of a success is read off the computed result. -/
theorem part_eq {x : Except ε α} {a : α} (h : x = .ok a) {g : α → β} {b : β}
    (hb : x.toOption.map g = some b) : g a = b := by
  subst h
  exact Option.some.inj hb

/-- Steps over a list succeed only if each of them does. -/
theorem forM_eq_ok {f : α → Except ε Unit} {xs : List α} (h : xs.forM f = .ok ()) :
    ∀ x ∈ xs, f x = .ok () := by
  induction xs with
  | nil => exact List.forall_mem_nil _
  | cons first rest ih =>
      obtain ⟨_, hfirst, hrest⟩ := bind_eq_ok.mp h
      exact List.forall_mem_cons.mpr ⟨hfirst, ih hrest⟩

/-- What every successful step preserves holds at the end of a fold. -/
theorem foldlM_ok {motive : σ → Prop} {f : σ → α → Except ε σ} {xs : List α} {s t : σ}
    (step : ∀ s t x, x ∈ xs → motive s → f s x = .ok t → motive t)
    (h : xs.foldlM f s = .ok t) (hs : motive s) : motive t := by
  induction xs generalizing s with
  | nil =>
      obtain rfl := pure_eq_ok.mp h
      exact hs
  | cons x rest ih =>
      obtain ⟨u, hu, hrest⟩ := bind_eq_ok.mp h
      exact ih (fun s t y hy => step s t y (List.mem_cons_of_mem x hy)) hrest
        (step s u x (by simp) hs hu)

/-- A fold that succeeds does so with any step that goes on wherever its own does. -/
theorem foldlM_mono {f g : σ → α → Except ε σ} {xs : List α} {s t : σ}
    (step : ∀ s t x, f s x = .ok t → g s x = .ok t) (h : xs.foldlM f s = .ok t) :
    xs.foldlM g s = .ok t := by
  induction xs generalizing s with
  | nil => exact h
  | cons x rest ih =>
      obtain ⟨u, hu, hrest⟩ := bind_eq_ok.mp h
      exact bind_eq_ok.mpr ⟨u, step s u x hu, ih hrest⟩

theorem forall₂_of_mapM {f : α → Except ε β} {xs : List α} {ys : List β} (h : xs.mapM f = .ok ys) :
    List.Forall₂ (fun x y => f x = .ok y) xs ys := by
  induction xs generalizing ys with
  | nil =>
      obtain rfl := pure_eq_ok.mp (List.mapM_nil (f := f) ▸ h)
      exact .nil
  | cons x rest ih =>
      rw [List.mapM_cons] at h
      obtain ⟨first, hfirst, h⟩ := bind_eq_ok.mp h
      obtain ⟨others, hothers, h⟩ := bind_eq_ok.mp h
      obtain rfl := pure_eq_ok.mp h
      exact .cons hfirst (ih hothers)

theorem isOk_mapM {f : α → Except ε β} {xs : List α} :
    (xs.mapM f).isOk = true ↔ ∀ x ∈ xs, (f x).isOk = true := by
  induction xs with
  | nil => exact ⟨fun _ => List.forall_mem_nil _, fun _ => rfl⟩
  | cons x rest ih =>
      rw [List.forall_mem_cons, ← ih, List.mapM_cons]
      cases f x with
      | error e => exact ⟨nofun, fun h => nomatch h.1⟩
      | ok y =>
          cases rest.mapM f with
          | error e => exact ⟨nofun, fun h => nomatch h.2⟩
          | ok ys => exact ⟨fun _ => ⟨rfl, rfl⟩, fun _ => rfl⟩

theorem exists_of_mem_mapM {f : α → Except ε β} {xs : List α} {ys : List β}
    (h : xs.mapM f = .ok ys) {y : β} (hy : y ∈ ys) : ∃ x ∈ xs, f x = .ok y := by
  obtain ⟨i, hi, rfl⟩ := List.mem_iff_getElem.mp hy
  obtain ⟨hlength, hall⟩ := List.forall₂_iff_get.mp (forall₂_of_mapM h)
  exact ⟨xs[i], List.getElem_mem _, hall i (hlength ▸ hi) hi⟩

theorem run_bind (m : ExceptT ε (StateM σ) α) (f : α → ExceptT ε (StateM σ) β) (s : σ) :
    (m >>= f) s = match m s with
      | (.ok a, s') => f a s'
      | (.error e, s') => (.error e, s') := by
  have hbind : (m >>= f) s = ExceptT.bindCont f (m s).1 (m s).2 := rfl
  rw [hbind]
  obtain ⟨result, s'⟩ := m s
  cases result <;> rfl

theorem run_discard (m : ExceptT ε (StateM σ) α) (s : σ) :
    (discard m : ExceptT ε (StateM σ) Unit) s = match m s with
      | (.ok _, s') => (.ok (), s')
      | (.error e, s') => (.error e, s') := by
  have hdiscard : (discard m : ExceptT ε (StateM σ) Unit) s = (fun r : Except ε α × σ =>
      (match r.1 with
        | .ok _ => (pure (.ok ()) : StateM σ (Except ε Unit))
        | .error e => pure (.error e)) r.2) (m s) := rfl
  rw [hdiscard]
  obtain ⟨result, s'⟩ := m s
  cases result <;> rfl

theorem run_tryCatch (m : ExceptT ε (StateM σ) α) (handle : ε → ExceptT ε (StateM σ) α) (s : σ) :
    (tryCatch m handle) s = match m s with
      | (.ok a, s') => (.ok a, s')
      | (.error e, s') => handle e s' := by
  simp only [tryCatch, tryCatchThe, MonadExceptOf.tryCatch, ExceptT.tryCatch, ExceptT.mk, bind,
    StateT.bind]
  obtain ⟨result, s'⟩ := m s
  cases result <;> rfl

end SqlGateway
