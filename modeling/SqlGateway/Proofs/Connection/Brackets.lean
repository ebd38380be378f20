import SqlGateway.Proofs.Connection.Journal

/-!
# Brackets

What a session may send around a transaction, told by stages: nothing yet, an open transaction in
which all is well, one in which a statement has failed, and the ends. A failed statement leaves only
the rollback. What was sent on the way from the first stage to one without an open transaction is
nothing, a failed opening, or an opening and a closing with data statements between them.
-/
namespace SqlGateway.Connection

/-- Where a session is with its transaction. -/
inductive Stage where
  | unopened
  /-- The opening statement failed. -/
  | refused
  | running
  /-- A data statement failed and the transaction is open. -/
  | failing
  /-- The commit failed and the transaction is open. -/
  | doomed
  | kept
  | undone
  /-- Rolled back after the commit had failed. -/
  | lost
  deriving DecidableEq, Repr

namespace Stage

def isOpen : Stage → Bool
  | running | failing | doomed => true
  | unopened | refused | kept | undone | lost => false

/-- The commit has been sent. -/
def commits : Stage → Bool
  | doomed | kept | lost => true
  | unopened | refused | running | failing | undone => false

/-- The stage after a rollback, which does nothing where no transaction is open. -/
def rolledBack : Stage → Stage
  | running | failing => undone
  | doomed => lost
  | a => a

theorem rolledBack_isOpen (a : Stage) : a.rolledBack.isOpen = false := by cases a <;> rfl

theorem rolledBack_commits (a : Stage) : a.rolledBack.commits = a.commits := by cases a <;> rfl

theorem rolledBack_of_closed {a : Stage} (h : a.isOpen = false) : a.rolledBack = a := by
  cases a with
  | running | failing | doomed => cases h
  | _ => rfl

theorem rolledBack_past {a : Stage} (h : a.isOpen = true) :
    a.rolledBack ≠ .unopened ∧ a.rolledBack ≠ .running := by
  cases a with
  | running | failing | doomed => exact ⟨nofun, nofun⟩
  | _ => cases h

variable {dialect : Dialect} {timeout : Duration} {a b c : Stage} {e : Entry}
  {sent more : List Entry}

/-- What a statement may do at a stage. -/
inductive Step (dialect : Dialect) (timeout : Duration) : Stage → Entry → Stage → Prop
  | opened {e : Entry} : e.statement = .batch dialect.beginStatement → e.Succeeded timeout →
      Step dialect timeout unopened e running
  | refused {e : Entry} : e.statement = .batch dialect.beginStatement → ¬ e.Succeeded timeout →
      Step dialect timeout unopened e refused
  | sent {e : Entry} :
      e.isData = true → e.Succeeded timeout → Step dialect timeout running e running
  | failed {e : Entry} :
      e.isData = true → ¬ e.Succeeded timeout → Step dialect timeout running e failing
  | kept {e : Entry} : e.statement = .batch dialect.commitStatement → e.Succeeded timeout →
      Step dialect timeout running e kept
  | doomed {e : Entry} : e.statement = .batch dialect.commitStatement → ¬ e.Succeeded timeout →
      Step dialect timeout running e doomed
  | undone {a : Stage} {e : Entry} : a.isOpen = true →
      e.statement = .batch dialect.rollbackStatement → Step dialect timeout a e a.rolledBack

/-- The statements that lead from one stage to another. -/
inductive Steps (dialect : Dialect) (timeout : Duration) : Stage → List Entry → Stage → Prop
  | nil {a : Stage} : Steps dialect timeout a [] a
  | cons {a b c : Stage} {e : Entry} {rest : List Entry} : Step dialect timeout a e b →
      Steps dialect timeout b rest c → Steps dialect timeout a (e :: rest) c

theorem Step.steps (h : Step dialect timeout a e b) : Steps dialect timeout a [e] b := .cons h .nil

theorem Steps.trans (h : Steps dialect timeout a sent b) (k : Steps dialect timeout b more c) :
    Steps dialect timeout a (sent ++ more) c := by
  induction h with
  | nil => exact k
  | cons step _ ih => exact .cons step (ih k)

theorem Step.isOpen_or_unopened (h : Step dialect timeout a e b) :
    a.isOpen = true ∨ a = .unopened := by
  cases h with
  | opened | refused => exact .inr rfl
  | undone hopen _ => exact .inl hopen
  | _ => exact .inl rfl

/-- Nothing is sent after the end. -/
theorem Steps.of_ended (h : Steps dialect timeout a sent b) (ha : a.isOpen = false)
    (hne : a ≠ .unopened) : sent = [] ∧ b = a := by
  cases h with
  | nil => exact ⟨rfl, rfl⟩
  | cons step _ =>
      rcases step.isOpen_or_unopened with hopen | hstart
      · exact absurd (hopen.symm.trans ha) nofun
      · exact absurd hstart hne

/-- After a failure all that is sent is the rollback. -/
theorem Steps.of_failed (h : Steps dialect timeout a sent b) (ha : a = .failing ∨ a = .doomed)
    (hb : b.isOpen = false) :
    ∃ r, sent = [r] ∧ r.statement = .batch dialect.rollbackStatement ∧ b = a.rolledBack := by
  cases h with
  | nil => rcases ha with rfl | rfl <;> cases hb
  | cons step rest =>
      cases step with
      | undone hopen hrollback =>
          obtain ⟨rfl, rfl⟩ := rest.of_ended (rolledBack_isOpen a) (rolledBack_past hopen).1
          exact ⟨_, rfl, hrollback, rfl⟩
      | _ => rcases ha with ha | ha <;> cases ha

/-- Past the running transaction only the rollback can be sent. -/
theorem Step.of_past (h : Step dialect timeout a e b) (ha : a ≠ .unopened ∧ a ≠ .running) :
    e.statement = .batch dialect.rollbackStatement ∧ b ≠ .unopened ∧ b ≠ .running := by
  cases h with
  | undone hopen hrollback => exact ⟨hrollback, rolledBack_past hopen⟩
  | opened | refused => exact absurd rfl ha.1
  | _ => exact absurd rfl ha.2

theorem Steps.of_past (h : Steps dialect timeout a sent b) (ha : a ≠ .unopened ∧ a ≠ .running) :
    ∀ w ∈ sent, w.statement = .batch dialect.rollbackStatement := by
  induction h with
  | nil => exact List.forall_mem_nil _
  | cons step _ ih =>
      obtain ⟨hrollback, hb⟩ := step.of_past ha
      exact List.forall_mem_cons.mpr ⟨hrollback, ih hb⟩

theorem Step.past_of_failed (h : Step dialect timeout a e b) (he : ¬ e.Succeeded timeout) :
    b ≠ .unopened ∧ b ≠ .running := by
  cases h with
  | opened _ hok | sent _ hok | kept _ hok => exact absurd hok he
  | undone hopen _ => exact rolledBack_past hopen
  | _ => exact ⟨nofun, nofun⟩

/-- After a statement that did not succeed only the rollback is sent. -/
theorem Steps.pairwise (h : Steps dialect timeout a sent b) : sent.Pairwise fun w v =>
    ¬ w.Succeeded timeout → v.statement = .batch dialect.rollbackStatement := by
  induction h with
  | nil => exact .nil
  | cons step rest ih =>
      refine .cons (fun v hv hfailed => ?_) ih
      exact rest.of_past (step.past_of_failed hfailed) v hv

theorem Step.commits (h : Step dialect timeout a e b) (ha : a.commits = true) :
    b.commits = true := by
  cases h with
  | undone => exact (rolledBack_commits a).trans ha
  | _ => cases ha

theorem Steps.commits (h : Steps dialect timeout a sent b) (ha : a.commits = true) :
    b.commits = true := by
  induction h with
  | nil => exact ha
  | cons step _ ih => exact ih (step.commits ha)

theorem Step.commits_of_commit (h : Step dialect timeout a e b)
    (he : e.statement = .batch dialect.commitStatement) : b.commits = true := by
  cases h with
  | kept | doomed => rfl
  | opened ho _ | refused ho _ =>
      rw [ho] at he
      cases dialect <;> simp [Dialect.beginStatement, Dialect.commitStatement] at he
  | sent hdata _ | failed hdata _ =>
      rw [Entry.isData_eq_false he] at hdata
      cases hdata
  | undone _ hrollback =>
      rw [hrollback] at he
      simp [Dialect.rollbackStatement, Dialect.commitStatement] at he

/-- A transaction that has come out before its commit has sent none. -/
theorem Steps.no_commit (h : Steps dialect timeout a sent b) (hb : b.commits = false) :
    ∀ w ∈ sent, w.statement ≠ .batch dialect.commitStatement := by
  induction h with
  | nil => exact List.forall_mem_nil _
  | cons step rest ih =>
      refine List.forall_mem_cons.mpr ⟨fun hcommit => ?_, ih hb⟩
      exact absurd ((rest.commits (step.commits_of_commit hcommit)).symm.trans hb) nofun

end Stage

open Stage in
/-- All that a session sends around a transaction, and how the transaction came out. -/
inductive Bracketed (dialect : Dialect) (timeout : Duration) : Stage → List Entry → Prop
  | unopened : Bracketed dialect timeout unopened []
  | refused {o : Entry} : o.statement = .batch dialect.beginStatement → ¬ o.Succeeded timeout →
      Bracketed dialect timeout refused [o]
  | kept {o c : Entry} (data : List Entry) :
      o.statement = .batch dialect.beginStatement → o.Succeeded timeout →
      (∀ w ∈ data, w.isData = true ∧ w.Succeeded timeout) →
      c.statement = .batch dialect.commitStatement → c.Succeeded timeout →
      Bracketed dialect timeout kept (o :: (data ++ [c]))
  /-- Only the last data statement may have failed. -/
  | undone {o r : Entry} (data : List Entry) :
      o.statement = .batch dialect.beginStatement → o.Succeeded timeout →
      (∀ w ∈ data, w.isData = true) → data.Pairwise (fun w _ => w.Succeeded timeout) →
      r.statement = .batch dialect.rollbackStatement →
      Bracketed dialect timeout undone (o :: (data ++ [r]))
  | lost {o c r : Entry} (data : List Entry) :
      o.statement = .batch dialect.beginStatement → o.Succeeded timeout →
      (∀ w ∈ data, w.isData = true ∧ w.Succeeded timeout) →
      c.statement = .batch dialect.commitStatement → ¬ c.Succeeded timeout →
      r.statement = .batch dialect.rollbackStatement →
      Bracketed dialect timeout lost (o :: (data ++ [c, r]))

section Bracketed
open Stage
variable {dialect : Dialect} {timeout : Duration} {a b : Stage} {o w : Entry} {sent : List Entry}

theorem Bracketed.opening (h : Bracketed dialect timeout b (o :: sent)) :
    o.statement = .batch dialect.beginStatement := by
  cases h <;> assumption

/-- One more data statement right after the opening. -/
theorem Bracketed.insert (h : Bracketed dialect timeout b (o :: sent)) (hb : b ≠ .refused)
    (hdata : w.isData = true) (hw : w.Succeeded timeout) :
    Bracketed dialect timeout b (o :: w :: sent) := by
  cases h with
  | refused => exact absurd rfl hb
  | kept data ho hok hall hc hcok =>
      refine .kept (w :: data) ho hok ?_ hc hcok
      exact List.forall_mem_cons.mpr ⟨⟨hdata, hw⟩, hall⟩
  | undone data ho hok hall hpairs hr =>
      refine .undone (w :: data) ho hok (List.forall_mem_cons.mpr ⟨hdata, hall⟩) ?_ hr
      exact List.pairwise_cons.mpr ⟨fun _ _ => hw, hpairs⟩
  | lost data ho hok hall hc hcok hr =>
      refine .lost (w :: data) ho hok ?_ hc hcok hr
      exact List.forall_mem_cons.mpr ⟨⟨hdata, hw⟩, hall⟩

theorem bracketed_of_running (ho : o.statement = .batch dialect.beginStatement)
    (hok : o.Succeeded timeout) (h : Steps dialect timeout a sent b) (ha : a = .running)
    (hb : b.isOpen = false) : Bracketed dialect timeout b (o :: sent) ∧ b ≠ .refused := by
  induction h with
  | nil =>
      subst ha
      cases hb
  | cons step rest ih =>
      subst ha
      cases step with
      | sent hdata hw =>
          obtain ⟨hrest, hne⟩ := ih rfl hb
          exact ⟨hrest.insert hne hdata hw, hne⟩
      | failed hdata hw =>
          obtain ⟨r, rfl, hr, rfl⟩ := rest.of_failed (.inl rfl) hb
          refine ⟨.undone [_] ho hok ?_ (List.pairwise_singleton _ _) hr, nofun⟩
          exact List.forall_mem_singleton.mpr hdata
      | kept hc hcok =>
          obtain ⟨rfl, rfl⟩ := rest.of_ended rfl nofun
          exact ⟨.kept [] ho hok (List.forall_mem_nil _) hc hcok, nofun⟩
      | doomed hc hcok =>
          obtain ⟨r, rfl, hr, rfl⟩ := rest.of_failed (.inr rfl) hb
          exact ⟨.lost [] ho hok (List.forall_mem_nil _) hc hcok hr, nofun⟩
      | undone _ hr =>
          obtain ⟨rfl, rfl⟩ := rest.of_ended rfl nofun
          exact ⟨.undone [] ho hok (List.forall_mem_nil _) .nil hr, nofun⟩

/-- What leads from the first stage to one without an open transaction is bracketed. -/
theorem bracketed_of_steps (h : Steps dialect timeout .unopened sent b) (hb : b.isOpen = false) :
    Bracketed dialect timeout b sent := by
  cases h with
  | nil => exact .unopened
  | cons step rest =>
      cases step with
      | opened ho hok => exact (bracketed_of_running ho hok rest rfl hb).1
      | refused ho hok =>
          obtain ⟨rfl, rfl⟩ := rest.of_ended rfl nofun
          exact .refused ho hok
      | undone hopen _ => cases hopen

end Bracketed

end SqlGateway.Connection
