import SqlGateway.Proofs.Connection.Dealings
import SqlGateway.Proofs.Engine.Requests

/-!
# Visits to a source

Steps on a data source that have a session of their own hold one connection of its pool while they
last, and have given it back at the end. As long as the pool has a connection to give, it is all the
same to them whether it has one or many. A refresh looks for a sign of life in one session and reads
the tables in another, one after the other.
-/
namespace SqlGateway

namespace DataSource

open Connection (Dealing Pool Session SessionM)

variable {σ α β : Type} {s s' : DataSource σ} {timeout : Duration}

/-- A source that is the same but for how many connections its pool has to give, and for the
record. -/
def Like (s s' : DataSource σ) : Prop := ∃ pool, s' = { s with pool } ∧ s.pool.Like pool

/-- Steps that hold at most one connection of their source at a time. If there is one to give, it
does not matter to them whether there are more. -/
structure Modest (m : SourceM σ α) : Prop where
  name : ∀ s : DataSource σ, (m s).2.name = s.name
  deals : ∀ s : DataSource σ, ∃ ds, s.pool.Deals ds (m s).2.pool
  alike : ∀ s s' : DataSource σ, s.Like s' → s.pool.available ≠ 0 → s'.pool.available ≠ 0 →
    (m s').1 = (m s).1 ∧ (m s).2.Like (m s').2

theorem modest_liftExcept (r : Except Error α) : Modest (liftExcept r : SourceM σ α) := by
  have hrun (s : DataSource σ) : (liftExcept r : SourceM σ α) s = (r, s) := by cases r <;> rfl
  refine ⟨fun s => congrArg (·.2.name) (hrun s), fun s => ⟨[], ?_⟩, fun s s' hlike _ _ => ?_⟩
  · rw [hrun]
    exact .refl s.pool
  · rw [hrun, hrun]
    exact ⟨rfl, hlike⟩

/-- A change of anything but the pool. -/
theorem modest_modify {f : DataSource σ → DataSource σ} (hname : ∀ s, (f s).name = s.name)
    (hf : ∀ s pool, f { s with pool } = { f s with pool }) :
    Modest (modify f : SourceM σ Unit) := by
  have hpool (s : DataSource σ) : (f s).pool = s.pool := by
    have hsame := congrArg DataSource.pool (hf s s.pool)
    exact hsame
  refine ⟨hname, fun s => ⟨[], ?_⟩, fun s s' hlike _ _ => ⟨rfl, ?_⟩⟩
  · have hsame := Pool.Deals.refl s.pool
    nth_rewrite 2 [← hpool s] at hsame
    exact hsame
  · obtain ⟨pool, rfl, hlike⟩ := hlike
    exact ⟨pool, hf s pool, (hpool s).symm ▸ hlike⟩

theorem modest_throw (e : Error) : Modest (throw e : SourceM σ α) where
  name _ := rfl
  deals s := ⟨[], .refl s.pool⟩
  alike _ _ h _ _ := ⟨rfl, h⟩

/-- What is looked up does not tell how many connections there are to give. -/
theorem modest_get {f : DataSource σ → SourceM σ α} (hf : ∀ s, Modest (f s))
    (hsame : ∀ s s', s.Like s' → f s' = f s) : Modest (get >>= f) where
  name s := (hf s).name s
  deals s := (hf s).deals s
  alike s s' h hs hs' := by
    have hrun (s : DataSource σ) : (get >>= f) s = f s s := rfl
    rw [hrun, hrun, hsame s s' h]
    exact (hf s).alike s s' h hs hs'

theorem Modest.available {m : SourceM σ α} (hm : Modest m) (s : DataSource σ) :
    (m s).2.pool.available = s.pool.available := by
  obtain ⟨_, hdeals⟩ := hm.deals s
  exact hdeals.available

theorem Modest.bind {m : SourceM σ α} {f : α → SourceM σ β} (hm : Modest m)
    (hf : ∀ a, Modest (f a)) : Modest (m >>= f) where
  name s := by
    have hfirst := hm.name s
    rw [run_bind]
    rcases hrun : m s with ⟨_ | a, next⟩
    · rwa [hrun] at hfirst
    · rw [hrun] at hfirst
      exact ((hf a).name next).trans hfirst
  deals s := by
    obtain ⟨ds, hdeals⟩ := hm.deals s
    rw [run_bind]
    rcases hrun : m s with ⟨_ | a, next⟩
    · rw [hrun] at hdeals
      exact ⟨ds, hdeals⟩
    · rw [hrun] at hdeals
      obtain ⟨more, hmore⟩ := (hf a).deals next
      exact ⟨ds ++ more, hdeals.trans hmore⟩
  alike s s' h hs hs' := by
    obtain ⟨hresult, hlike⟩ := hm.alike s s' h hs hs'
    rw [← hm.available] at hs hs'
    rw [run_bind, run_bind]
    rcases hrun : m s with ⟨result, next⟩
    rcases hrun' : m s' with ⟨result', next'⟩
    rw [hrun] at hresult hlike hs
    rw [hrun'] at hresult hlike hs'
    obtain rfl : result' = result := hresult
    cases result' with
    | error e => exact ⟨rfl, hlike⟩
    | ok a => exact (hf a).alike next next' hlike hs hs'

theorem Modest.tryCatch {m : SourceM σ α} {handle : Error → SourceM σ α} (hm : Modest m)
    (hhandle : ∀ e, Modest (handle e)) : Modest (tryCatch m handle) where
  name s := by
    have hfirst := hm.name s
    rw [run_tryCatch]
    rcases hrun : m s with ⟨e | a, next⟩
    · rw [hrun] at hfirst
      exact ((hhandle e).name next).trans hfirst
    · rwa [hrun] at hfirst
  deals s := by
    obtain ⟨ds, hdeals⟩ := hm.deals s
    rw [run_tryCatch]
    rcases hrun : m s with ⟨e | a, next⟩
    · rw [hrun] at hdeals
      obtain ⟨more, hmore⟩ := (hhandle e).deals next
      exact ⟨ds ++ more, hdeals.trans hmore⟩
    · rw [hrun] at hdeals
      exact ⟨ds, hdeals⟩
  alike s s' h hs hs' := by
    obtain ⟨hresult, hlike⟩ := hm.alike s s' h hs hs'
    rw [← hm.available] at hs hs'
    rw [run_tryCatch, run_tryCatch]
    rcases hrun : m s with ⟨result, next⟩
    rcases hrun' : m s' with ⟨result', next'⟩
    rw [hrun] at hresult hlike hs
    rw [hrun'] at hresult hlike hs'
    obtain rfl : result' = result := hresult
    cases result' with
    | ok a => exact ⟨rfl, hlike⟩
    | error e => exact (hhandle e).alike next next' hlike hs hs'

/-- Whatever is done in a session of its own, the session is all that is asked of the pool. -/
theorem modest_inSession (timeout : Duration) (steps : SessionM σ α) :
    Modest (inSession timeout steps) where
  name s := by
    obtain ⟨pool, -, hpool⟩ := Engine.inSession_source timeout steps s
    rw [hpool]
  deals s := by
    have hrun := Engine.inSession_run timeout steps s
    change inSession timeout steps s = _ at hrun
    rw [hrun]
    cases hstart : (Session.start timeout s.pool).1 with
    | error e =>
        rw [← Prod.eta (Session.start timeout s.pool), hstart]
        obtain ⟨d, hdeals⟩ := Pool.deals_refused hstart
        exact ⟨[d], hdeals⟩
    | ok session =>
        rw [← Prod.eta (Session.start timeout s.pool), hstart]
        exact ⟨_, Pool.deals_visit hstart (steps session).2⟩
  alike s s' h hs hs' := by
    obtain ⟨pool, rfl, hlike⟩ := h
    obtain ⟨hstart, hlent⟩ := Pool.start_like timeout hlike hs hs'
    have hrun := Engine.inSession_run timeout steps s
    have hrun' := Engine.inSession_run timeout steps { s with pool }
    change inSession timeout steps s = _ at hrun
    change inSession timeout steps { s with pool } = _ at hrun'
    rw [← Prod.eta (Session.start timeout s.pool)] at hrun
    rw [← Prod.eta (Session.start timeout pool), hstart] at hrun'
    rw [hrun, hrun']
    cases (Session.start timeout s.pool).1 with
    | error e => exact ⟨rfl, _, rfl, hlent⟩
    | ok session => exact ⟨rfl, _, rfl, Pool.finish_like _ hlent⟩

theorem modest_setConnected (b : Bool) : Modest (setConnected b : SourceM σ Unit) :=
  modest_modify (fun _ => rfl) fun _ _ => rfl

theorem Modest.andDiscard {m : SourceM σ α} (hm : Modest m) : Modest (discard m) := by
  have hbind : discard m = m >>= fun _ => (pure () : SourceM σ Unit) := by
    funext s
    rw [run_bind, run_discard]
    rcases m s with ⟨_ | _, next⟩ <;> rfl
  rw [hbind]
  exact hm.bind fun _ => modest_liftExcept (.ok ())

theorem modest_ping (timeout : Duration) : Modest (ping timeout : SourceM σ Unit) := by
  refine ((modest_inSession timeout _).andDiscard.bind fun _ => modest_setConnected true).tryCatch
    fun e => ?_
  exact (modest_setConnected false).bind fun _ => modest_throw _

theorem modest_refresh (timeout : Duration) : Modest (refresh timeout : SourceM σ Unit) := by
  refine (modest_ping timeout).bind fun _ =>
    (modest_inSession timeout introspect).bind fun (_, metadata) => ?_
  refine modest_get (fun s => ?_) fun s s' hlike => ?_
  · refine (modest_liftExcept _).bind fun columns => (modest_liftExcept _).bind fun schema => ?_
    exact modest_modify (fun _ => rfl) fun _ _ => rfl
  · obtain ⟨pool, rfl, _, _, rfl⟩ := hlike
    rfl

end DataSource

end SqlGateway
