import SqlGateway.Proofs.Dictionary
import SqlGateway.Proofs.Engine.Sessions

/-!
# The catalog while a request runs

A request changes nothing in the catalog but the pools of the sources that it goes to. So what a
field comes to is the same at every moment of the request; and a session that ends leaves its mark
on the source that it was held on, and on no other.
-/
namespace SqlGateway

namespace Engine

open Connection (Dealing Pool Session)
open Request (Document Variables)

variable {σ : Type} {e e' e'' : Engine σ} {document : Document} {supplied : Variables}

/-- The source of a name. -/
def source? (e : Engine σ) (name : String) : Option (DataSource σ) := e.catalog.sources.get? name

/-- What is on record of the pool of a source. -/
def dealings (e : Engine σ) (name : String) : List Dealing :=
  ((e.source? name).map (·.pool.dealings)).getD []

/-- Every source is stored under its own name. -/
def Named (e : Engine σ) : Prop := ∀ name source, e.source? name = some source → source.name = name

/-- In a catalog of one source there is no other. -/
theorem of_source?_only {only source : DataSource σ} {place name : String}
    (he : e.catalog = (Catalog.empty place).add only) (h : e.source? name = some source) :
    source = only ∧ name = only.name := by
  have hsources : e.catalog.sources = [(only.name, only)] := by rw [he]; rfl
  rw [source?, hsources, Dictionary.get?] at h
  split at h
  next hname => exact ⟨(Option.some.inj h).symm, hname.symm⟩
  · cases h

/-- An engine as it is in the course of a request: its sources have other pools, of the same
drivers. -/
structure Restocked (e e' : Engine σ) : Prop where
  settings : e' = { e with catalog := e'.catalog }
  unknown : ∀ name, e.source? name = none → e'.source? name = none
  known : ∀ name source, e.source? name = some source → ∃ pool, pool.driver = source.pool.driver ∧
    e'.source? name = some { source with pool }

theorem Restocked.refl (e : Engine σ) : Restocked e e :=
  ⟨rfl, fun _ h => h, fun _ source h => ⟨source.pool, rfl, h⟩⟩

theorem Restocked.exists_source (h : Restocked e e') {name : String} {source : DataSource σ}
    (hsource : e'.source? name = some source) : ∃ before pool, e.source? name = some before ∧
      source = { before with pool } ∧ pool.driver = before.pool.driver := by
  cases hbefore : e.source? name with
  | none =>
      rw [h.unknown name hbefore] at hsource
      cases hsource
  | some before =>
      obtain ⟨pool, hdriver, hknown⟩ := h.known name before hbefore
      exact ⟨before, pool, rfl, Option.some.inj (hsource.symm.trans hknown), hdriver⟩

theorem Restocked.named (h : Restocked e e') (he : e.Named) : e'.Named := by
  intro name source hsource
  obtain ⟨before, pool, hbefore, rfl, -⟩ := h.exists_source hsource
  exact he name before hbefore

/-- The engine with another pool behind a source. -/
def withPool (e : Engine σ) (source : DataSource σ) (pool : Pool σ) : Engine σ :=
  { e with catalog := e.catalog.add { source with pool } }

theorem source?_withPool_self (e : Engine σ) (source : DataSource σ) (pool : Pool σ) :
    (e.withPool source pool).source? source.name = some { source with pool } :=
  Dictionary.get?_insert_self ..

theorem source?_withPool_of_ne (e : Engine σ) (source : DataSource σ) (pool : Pool σ)
    {name : String} (h : name ≠ source.name) :
    (e.withPool source pool).source? name = e.source? name :=
  Dictionary.get?_insert_of_ne _ _ h

theorem Named.withPool (he : e.Named) (source : DataSource σ) (pool : Pool σ) :
    (e.withPool source pool).Named := by
  intro name known hknown
  by_cases hname : name = source.name
  · subst hname
    rw [source?_withPool_self] at hknown
    cases hknown
    rfl
  · rw [source?_withPool_of_ne _ _ _ hname] at hknown
    exact he name known hknown

theorem Restocked.withPool (h : Restocked e e') {source : DataSource σ} {pool : Pool σ}
    (hsource : e'.source? source.name = some source) (hdriver : pool.driver = source.pool.driver) :
    Restocked e (e'.withPool source pool) where
  settings := by
    rw [Engine.withPool, h.settings]
  unknown name hname := by
    have hne : name ≠ source.name := by
      rintro rfl
      rw [h.unknown _ hname] at hsource
      cases hsource
    rw [source?_withPool_of_ne _ _ _ hne]
    exact h.unknown name hname
  known name before hbefore := by
    by_cases hname : name = source.name
    · subst hname
      obtain ⟨other, was, hother, rfl, hwas⟩ := h.exists_source hsource
      obtain rfl := Option.some.inj (hbefore.symm.trans hother)
      exact ⟨pool, hdriver.trans hwas, source?_withPool_self ..⟩
    · rw [source?_withPool_of_ne _ _ _ hname]
      exact h.known name before hbefore

/-- The engine with a source as it stands. -/
def withSource (e : Engine σ) (source : DataSource σ) : Engine σ :=
  { e with catalog := e.catalog.add source }

theorem source?_withSource_self (e : Engine σ) (source : DataSource σ) :
    (e.withSource source).source? source.name = some source := Dictionary.get?_insert_self ..

theorem source?_withSource_of_ne (e : Engine σ) (source : DataSource σ) {name : String}
    (h : name ≠ source.name) : (e.withSource source).source? name = e.source? name :=
  Dictionary.get?_insert_of_ne _ _ h

theorem Named.withSource (he : e.Named) (source : DataSource σ) : (e.withSource source).Named :=
  he.withPool source source.pool

theorem prepareTask_of_unknown {t : Task} (h : e.source? t.source = none) :
    e.prepareTask document supplied t = .error (.schemaNotFound s!"data source `{t.source}`") := by
  rw [source?] at h
  rw [Engine.prepareTask, Catalog.source, h]
  rfl

theorem prepareTask_eq_ok {t : Task} {source : DataSource σ} {prepared : Prepared} :
    e.prepareTask document supplied t = .ok (source, prepared) ↔
      e.source? t.source = some source ∧
        prepare (e.compilerFor source) document supplied t = .ok prepared := by
  cases hsource : e.source? t.source with
  | none => simp [prepareTask_of_unknown hsource]
  | some known =>
      rw [prepareTask_eq hsource]
      cases hprepared : prepare (e.compilerFor known) document supplied t with
      | error error =>
          constructor
          · intro h
            cases h
          · rintro ⟨⟨⟩, h⟩
            rw [hprepared] at h
            cases h
      | ok other =>
          constructor
          · rintro ⟨⟩
            exact ⟨rfl, hprepared⟩
          · rintro ⟨⟨⟩, h⟩
            rw [hprepared] at h
            cases h
            rfl

theorem Restocked.compilerFor (h : Restocked e e') {source : DataSource σ} {pool : Pool σ}
    (hdriver : pool.driver = source.pool.driver) :
    e'.compilerFor { source with pool } = e.compilerFor source := by
  rw [h.settings]
  simp only [Engine.compilerFor, DataSource.dialect, hdriver]

/-- What a field comes to does not change in the course of a request. -/
theorem Restocked.prepareTask (h : Restocked e e') {t : Task} {source : DataSource σ}
    {prepared : Prepared} (hprepare : e.prepareTask document supplied t = .ok (source, prepared)) :
    ∃ pool, pool.driver = source.pool.driver ∧ e'.source? t.source = some { source with pool } ∧
      e'.prepareTask document supplied t = .ok ({ source with pool }, prepared) := by
  obtain ⟨hsource, hprepared⟩ := prepareTask_eq_ok.mp hprepare
  obtain ⟨pool, hdriver, hknown⟩ := h.known t.source source hsource
  refine ⟨pool, hdriver, hknown, prepareTask_eq_ok.mpr ⟨hknown, ?_⟩⟩
  rw [h.compilerFor hdriver]
  exact hprepared

theorem Restocked.symm (h : Restocked e e') : Restocked e' e where
  settings := by rw [h.settings]
  unknown name hname := by
    cases hsource : e.source? name with
    | none => rfl
    | some source =>
        obtain ⟨pool, -, hknown⟩ := h.known name source hsource
        cases hname.symm.trans hknown
  known name source hsource := by
    obtain ⟨before, pool, hbefore, rfl, hdriver⟩ := h.exists_source hsource
    exact ⟨before.pool, hdriver.symm, hbefore⟩

theorem Restocked.trans (h : Restocked e e') (k : Restocked e' e'') : Restocked e e'' where
  settings := by rw [k.settings, h.settings]
  unknown name hname := k.unknown name (h.unknown name hname)
  known name source hsource := by
    obtain ⟨pool, hdriver, hknown⟩ := h.known name source hsource
    obtain ⟨last, hlast, hknown⟩ := k.known name _ hknown
    exact ⟨last, hlast.trans hdriver, hknown⟩

theorem Restocked.prepared (h : Restocked e e') {t : Task} {source : DataSource σ}
    {prepared : Prepared} (hprepare : e'.prepareTask document supplied t = .ok (source, prepared)) :
    ∃ before, e.prepareTask document supplied t = .ok (before, prepared) := by
  obtain ⟨pool, -, -, hbefore⟩ := h.symm.prepareTask hprepare
  exact ⟨_, hbefore⟩

/-- What cannot be prepared at one moment of a request cannot be prepared at another. -/
theorem Restocked.refused (h : Restocked e e') {error : Error}
    (hprepare : e.prepareTask document supplied t = .error error) :
    e'.prepareTask document supplied t = .error error := by
  cases hsource : e.source? t.source with
  | none =>
      rw [prepareTask_of_unknown hsource] at hprepare
      rw [prepareTask_of_unknown (h.unknown t.source hsource)]
      exact hprepare
  | some source =>
      obtain ⟨pool, hdriver, hknown⟩ := h.known t.source source hsource
      rw [prepareTask_eq hsource] at hprepare
      rw [prepareTask_eq hknown, h.compilerFor hdriver]
      cases hprepared : prepare (e.compilerFor source) document supplied t with
      | error _ =>
          rw [hprepared] at hprepare
          cases hprepare
          rfl
      | ok prepared =>
          rw [hprepared] at hprepare
          cases hprepare

theorem source?_withFinished (he : e.Named) {sessions : Sessions σ}
    (hsessions : sessions.keys.Nodup) (name : String) :
    (e.withFinished sessions).source? name = (e.source? name).map fun source =>
      match sessions.get? name with
      | some session => { source with pool := session.finish source.pool }
      | none => source := by
  induction sessions generalizing e with
  | nil => simp [withFinished, Dictionary.get?, source?]
  | cons held rest ih =>
      obtain ⟨first, session⟩ := held
      obtain ⟨hfirst, hrest⟩ := List.nodup_cons.mp hsessions
      have hnone : Dictionary.get? first rest = none := Dictionary.get?_eq_none_iff.mpr hfirst
      cases hsource : e.source? first with
      | none =>
          have hsame : e.withFinished ((first, session) :: rest) = e.withFinished rest := by
            rw [source?] at hsource
            rw [withFinished, List.foldl_cons, finishSession, hsource, withFinished]
          rw [hsame, ih he hrest]
          by_cases hname : first = name
          · subst hname
            simp [hsource]
          · simp [Dictionary.get?, hname]
      | some source =>
          have hnamed : source.name = first := he first source hsource
          have hfinished : e.withFinished ((first, session) :: rest) =
              (e.withPool source (session.finish source.pool)).withFinished rest := by
            rw [source?] at hsource
            rw [withFinished, List.foldl_cons, finishSession, hsource, withFinished,
              Engine.withPool]
          rw [hfinished, ih (he.withPool source _) hrest]
          by_cases hname : first = name
          · subst hname
            subst hnamed
            rw [source?_withPool_self, hsource, hnone]
            simp [Dictionary.get?]
          · have hother : name ≠ source.name := fun h => hname (hnamed.symm.trans h.symm)
            rw [source?_withPool_of_ne _ _ _ hother]
            simp [Dictionary.get?, hname]

end Engine

end SqlGateway
