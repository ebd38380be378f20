import SqlGateway.Connection.Pool
import SqlGateway.Sqlite.Driver
import Mathlib.Data.List.Perm.Subperm
import Mathlib.Data.List.TakeWhile
import Mathlib.Logic.Relation

/-!
# Clients of one pool

Several clients use one pool at a time. What `Pool.acquire` and `Pool.release` do in one go is taken
apart into steps between which the other clients may act: to get a permit, to look through the kept
connections, to connect, to put the connection back, to give up the permit. Connections are told
apart by numbers, in the order in which they were opened, and for each the moment of its opening is
on record.

Nothing ever counts the connections that are open. That they are bounded is due to the order of the
steps: a client connects only with a permit, and only after it has found no connection to reuse.
-/
namespace SqlGateway.Connection

/-- A connection, known by its number, and the moment at which it was opened. -/
structure Handle where
  number : Nat
  opened : Duration

/-- How far a client is with its connection. -/
inductive Client where
  | away
  /-- With a permit, about to look for a connection. -/
  | permitted
  | connecting
  | holding (number : Nat) (lease : Lease)
  /-- Without its connection, which was put back or closed, but still with the permit. -/
  | leaving

namespace Client

def hasPermit : Client → Bool
  | away => false
  | _ => true

/-- Whether a connection is out, or about to be, because of the client. -/
def isLive : Client → Bool
  | connecting => true
  | holding _ _ => true
  | _ => false

def handle? : Client → Option Handle
  | holding n l => some ⟨n, l.opened⟩
  | _ => none

theorem hasPermit_of_isLive {c : Client} (h : c.isLive = true) : c.hasPermit = true := by
  cases c <;> first | rfl | cases h

end Client

/-- A pool together with what it does not record itself: which connections the kept ones are, and
when every connection so far was opened, by number. -/
structure Shared (σ : Type) where
  pool : Pool σ
  kept : List Handle
  births : List Duration

variable {σ : Type}

namespace Shared

def withAvailable (s : Shared σ) (n : Nat) : Shared σ :=
  { s with pool := { s.pool with available := n } }

def keeping (s : Shared σ) (kept : List Handle) : Shared σ :=
  { s with pool := { s.pool with idle := kept.map (·.opened) }, kept }

def afterWaiting (s : Shared σ) (d : Duration) : Shared σ :=
  { s with pool := s.pool.afterWaiting d }

def serving (s : Shared σ) (server : σ) : Shared σ := { s with pool := { s.pool with server } }

def noting (s : Shared σ) (d : Dealing) : Shared σ := { s with pool := s.pool.noting d }

/-- The kept connections from the first one on that may still be used. -/
def reusable (s : Shared σ) : List Handle := s.kept.dropWhile (!s.pool.isFresh ·.opened)

def keeps (s : Shared σ) (l : Lease) : Bool :=
  !(l.broken || !s.pool.isFresh l.opened || s.pool.limits.maxIdle ≤ s.pool.idle.length)

end Shared

/-- What one client does at once, with the pool that it shares. -/
inductive Acts : Shared σ → Client → Shared σ → Client → Prop where
  | permit {s : Shared σ} :
      0 < s.pool.available → Acts s .away (s.withAvailable (s.pool.available - 1)) .permitted
  /-- The wait for a permit was in vain. -/
  | refused {s : Shared σ} : Acts s .away (s.noting .exhausted) .away
  | reuse {s : Shared σ} {k : Handle} {rest : List Handle} : s.reusable = k :: rest →
      Acts s .permitted ((s.keeping rest).noting .given) (.holding k.number ⟨k.opened, false⟩)
  | miss {s : Shared σ} : s.reusable = [] → Acts s .permitted (s.keeping []) .connecting
  | connected {s : Shared σ} :
      Acts s .connecting { s.noting .given with births := s.births ++ [s.pool.clock] }
        (.holding s.births.length ⟨s.pool.clock, false⟩)
  /-- The driver could not connect, or not in time. -/
  | failed {s : Shared σ} :
      Acts s .connecting ((s.withAvailable (s.pool.available + 1)).noting .unopened) .away
  | spoil {s : Shared σ} {n : Nat} {l : Lease} : Acts s (.holding n l) s (.holding n l.asBroken)
  | putBack {s : Shared σ} {n : Nat} {l : Lease} : s.keeps l = true →
      Acts s (.holding n l) (s.keeping (s.kept ++ [⟨n, l.opened⟩])) .leaving
  | close {s : Shared σ} {n : Nat} {l : Lease} :
      s.keeps l = false → Acts s (.holding n l) s .leaving
  | leave {s : Shared σ} :
      Acts s .leaving ((s.withAvailable (s.pool.available + 1)).noting .returned) .away

structure System (σ : Type) where
  shared : Shared σ
  clients : List Client

/-- One client acts, time passes, or the database changes. -/
inductive Step : System σ → System σ → Prop where
  | act {s s' : Shared σ} {c c' : Client} {before after : List Client} : Acts s c s' c' →
      Step ⟨s, before ++ c :: after⟩ ⟨s', before ++ c' :: after⟩
  | elapse {s : Shared σ} {clients : List Client} (d : Duration) :
      Step ⟨s, clients⟩ ⟨s.afterWaiting d, clients⟩
  | serve {s : Shared σ} {clients : List Client} (server : σ) :
      Step ⟨s, clients⟩ ⟨s.serving server, clients⟩

abbrev Steps : System σ → System σ → Prop := Relation.ReflTransGen Step

namespace System

/-- A new pool with clients that have not asked for a connection yet. -/
def start (driver : Driver σ) (limits : PoolLimits) (server : σ) (clients : Nat) : System σ :=
  ⟨⟨.new driver limits server, [], []⟩, List.replicate clients .away⟩

/-- The connections that are kept or held, once for each place. -/
def handles (s : System σ) : List Handle := s.shared.kept ++ s.clients.filterMap (·.handle?)

/-- What holds between any two steps. -/
structure Orderly (limits : PoolLimits) (s : System σ) : Prop where
  bounds : s.shared.pool.limits = limits
  mirrored : s.shared.pool.idle = s.shared.kept.map (·.opened)
  permits : s.shared.pool.available + s.clients.countP (·.hasPermit) = max limits.maxOpen 1
  live : s.clients.countP (·.isLive) + s.shared.kept.length ≤ max limits.maxOpen 1
  idle : s.shared.kept.length ≤ limits.maxIdle
  single : (s.handles.map (·.number)).Nodup
  born : ∀ k ∈ s.handles, s.shared.births[k.number]? = some k.opened

end System

theorem Shared.sublist_of_reusable {s : Shared σ} {k : Handle} {rest : List Handle}
    (h : s.reusable = k :: rest) : (k :: rest).Sublist s.kept := by
  rw [← h]
  exact List.dropWhile_sublist _

namespace Acts

variable {s s' : Shared σ} {c c' : Client}

theorem bounds (h : Acts s c s' c') : s'.pool.limits = s.pool.limits := by
  cases h <;> rfl

theorem mirrored (h : Acts s c s' c') (hs : s.pool.idle = s.kept.map (·.opened)) :
    s'.pool.idle = s'.kept.map (·.opened) := by
  cases h <;> first | exact hs | rfl

/-- A permit is only moved between the pool and the client. -/
theorem permits (h : Acts s c s' c') :
    s'.pool.available + c'.hasPermit.toNat = s.pool.available + c.hasPermit.toNat := by
  cases h with
  | permit hfree => exact Nat.sub_add_cancel hfree
  | _ => rfl

/-- A connection is only moved, unless the client has found none to reuse. -/
theorem live (h : Acts s c s' c') :
    c'.isLive.toNat + s'.kept.length ≤ c.isLive.toNat + s.kept.length ∨
      c.hasPermit = true ∧ c.isLive = false ∧ s'.kept = [] := by
  cases h with
  | reuse hreusable =>
      have hlength := (Shared.sublist_of_reusable hreusable).length_le
      rw [List.length_cons] at hlength
      simp only [Client.isLive, Bool.toNat_true, Bool.toNat_false, Shared.noting, Shared.keeping]
      omega
  | miss _ => exact .inr ⟨rfl, rfl, rfl⟩
  | putBack _ =>
      simp only [Client.isLive, Bool.toNat_true, Bool.toNat_false, Shared.keeping,
        List.length_append, List.length_singleton]
      omega
  | close _ => exact .inl (Nat.add_le_add_right (Nat.zero_le 1) _)
  | failed => exact .inl (Nat.add_le_add_right (Nat.zero_le 1) _)
  | _ => exact .inl (Nat.le_refl _)

theorem idle (h : Acts s c s' c') (hs : s.pool.idle = s.kept.map (·.opened))
    (hidle : s.kept.length ≤ s.pool.limits.maxIdle) : s'.kept.length ≤ s.pool.limits.maxIdle := by
  cases h with
  | reuse hreusable =>
      have hlength := (Shared.sublist_of_reusable hreusable).length_le
      rw [List.length_cons] at hlength
      simp only [Shared.noting, Shared.keeping]
      omega
  | miss _ => exact Nat.zero_le _
  | putBack hkeeps =>
      have hroom : s.pool.idle.length < s.pool.limits.maxIdle := by
        simp only [Shared.keeps, Bool.not_or, Bool.and_eq_true, Bool.not_eq_true',
          decide_eq_false_iff_not, Nat.not_le] at hkeeps
        exact hkeeps.2
      rw [hs, List.length_map] at hroom
      rw [Shared.keeping, List.length_append, List.length_singleton]
      exact hroom
  | _ => exact hidle

/-- The connections of the pool and of one client. -/
def own (s : Shared σ) (c : Client) : List Handle := s.kept ++ c.handle?.toList

/-- No act makes a second connection out of one; a new one gets the next number. -/
theorem own_subperm (h : Acts s c s' c') :
    (own s' c').Subperm (own s c) ∧ s'.births = s.births ∨
      ∃ opened, own s' c' = own s c ++ [⟨s.births.length, opened⟩] ∧
        s'.births = s.births ++ [opened] := by
  cases h with
  | @reuse k rest hreusable =>
      have hperm : (rest ++ [k]).Perm (k :: rest) := List.perm_append_singleton k rest
      have hsub : (k :: rest).Sublist (own s .permitted) :=
        (Shared.sublist_of_reusable hreusable).trans (List.sublist_append_left _ _)
      exact .inl ⟨hperm.subperm.trans hsub.subperm, rfl⟩
  | miss _ => exact .inl ⟨List.nil_subperm, rfl⟩
  | connected => exact .inr ⟨s.pool.clock, by simp [own, Client.handle?, Shared.noting], rfl⟩
  | putBack _ => exact .inl ⟨by simp [own, Client.handle?, Shared.keeping, List.Subperm.refl], rfl⟩
  | close _ =>
      exact .inl ⟨by simp [own, Client.handle?, (List.sublist_append_left _ _).subperm], rfl⟩
  | _ => exact .inl ⟨List.Subperm.refl _, rfl⟩

end Acts

namespace System

variable {limits : PoolLimits} {s s' : System σ}

theorem countP_clients (p : Client → Bool) (before after : List Client) (c : Client) :
    (before ++ c :: after).countP p = (before ++ after).countP p + (p c).toNat := by
  rw [List.countP_append, List.countP_append, List.countP_cons, Nat.add_assoc]
  cases p c <;> rfl

/-- Every connection is the acting client's, or the pool's, or another client's. -/
theorem handles_perm (s : Shared σ) (before after : List Client) (c : Client) :
    (handles ⟨s, before ++ c :: after⟩).Perm
      (Acts.own s c ++ (before ++ after).filterMap (·.handle?)) := by
  rw [handles, Acts.own, List.append_assoc]
  apply List.Perm.append_left
  rw [List.filterMap_append, List.filterMap_append, List.filterMap_cons]
  cases c.handle? with
  | none => exact .refl _
  | some k => exact List.perm_middle

theorem Orderly.live_act {s s' : Shared σ} {c c' : Client} {before after : List Client}
    (h : Orderly limits ⟨s, before ++ c :: after⟩) (hact : Acts s c s' c') :
    (before ++ c' :: after).countP (·.isLive) + s'.kept.length ≤ max limits.maxOpen 1 := by
  have hlive :
    (before ++ c :: after).countP (·.isLive) + s.kept.length ≤ max limits.maxOpen 1 := h.live
  have hpermits : s.pool.available + (before ++ c :: after).countP (·.hasPermit) =
    max limits.maxOpen 1 := h.permits
  rw [countP_clients] at hlive hpermits ⊢
  rcases hact.live with hmoved | ⟨hpermit, hidle, hnone⟩
  · omega
  · -- a client that is about to connect holds a permit and no connection, and every other
    -- client that has a connection holds a permit as well
    have hothers : (before ++ after).countP (·.isLive) ≤ (before ++ after).countP (·.hasPermit) :=
      List.countP_mono_left fun _ _ => Client.hasPermit_of_isLive
    have hone := Bool.toNat_le c'.isLive
    rw [hpermit, Bool.toNat_true] at hpermits
    rw [hnone, List.length_nil]
    omega

theorem Orderly.handles_act {s s' : Shared σ} {c c' : Client} {before after : List Client}
    (h : Orderly limits ⟨s, before ++ c :: after⟩) (hact : Acts s c s' c') :
    ((handles ⟨s', before ++ c' :: after⟩).map (·.number)).Nodup ∧
      ∀ k ∈ handles ⟨s', before ++ c' :: after⟩, s'.births[k.number]? = some k.opened := by
  have hperm := handles_perm s before after c
  have hperm' := handles_perm s' before after c'
  generalize hothers : (before ++ after).filterMap (·.handle?) = others at hperm hperm'
  have hsingle := ((hperm.map (·.number)).nodup_iff).mp h.single
  have hborn : ∀ k ∈ Acts.own s c ++ others, s.births[k.number]? = some k.opened :=
    fun k hk => h.born k (hperm.mem_iff.mpr hk)
  rw [(hperm'.map (·.number)).nodup_iff]
  rcases hact.own_subperm with ⟨hsub, hbirths⟩ | ⟨opened, hown, hbirths⟩
  · have hall : (Acts.own s' c' ++ others).Subperm (Acts.own s c ++ others) :=
      (List.subperm_append_right others).mpr hsub
    refine ⟨?_, fun k hk => ?_⟩
    · obtain ⟨l, hl, hsublist⟩ := hall
      exact ((hl.map (·.number)).nodup_iff).mp (hsingle.sublist (hsublist.map _))
    · rw [hbirths]
      exact hborn k (hall.subset (hperm'.mem_iff.mp hk))
  · have hnew : (Acts.own s' c' ++ others).Perm
        (⟨s.births.length, opened⟩ :: (Acts.own s c ++ others)) := by
      rw [hown, List.append_assoc]
      exact List.perm_middle
    have hfresh : s.births.length ∉ (Acts.own s c ++ others).map (·.number) := by
      intro hmem
      obtain ⟨k, hk, hnumber⟩ := List.mem_map.mp hmem
      have hlt := (List.getElem?_eq_some_iff.mp (hborn k hk)).1
      omega
    refine ⟨?_, fun k hk => ?_⟩
    · rw [(hnew.map (·.number)).nodup_iff]
      exact List.nodup_cons.mpr ⟨hfresh, hsingle⟩
    · rw [hbirths]
      rcases List.mem_cons.mp (hnew.mem_iff.mp (hperm'.mem_iff.mp hk)) with rfl | hold
      · exact List.getElem?_concat_length
      · have hlt := (List.getElem?_eq_some_iff.mp (hborn k hold)).1
        rw [List.getElem?_append_left hlt]
        exact hborn k hold

theorem Orderly.step (h : Orderly limits s) (hstep : Step s s') : Orderly limits s' := by
  cases hstep with
  | elapse d => exact { h with }
  | serve server => exact { h with }
  | @act s s' c c' before after hact =>
      obtain ⟨hsingle, hborn⟩ := h.handles_act hact
      refine ⟨hact.bounds.trans h.bounds, hact.mirrored h.mirrored, ?_, h.live_act hact, ?_,
        hsingle, hborn⟩
      · have hpermits : s.pool.available + (before ++ c :: after).countP (·.hasPermit) =
          max limits.maxOpen 1 := h.permits
        have hmoved := hact.permits
        rw [countP_clients] at hpermits ⊢
        dsimp only
        omega
      · rw [← h.bounds]
        apply hact.idle h.mirrored
        rw [h.bounds]
        exact h.idle

theorem orderly_start (driver : Driver σ) (limits : PoolLimits) (server : σ) (clients : Nat) :
    Orderly limits (start driver limits server clients) where
  bounds := rfl
  mirrored := rfl
  permits := by simp [start, Pool.new, List.countP_replicate, Client.hasPermit]
  live := by simp [start, List.countP_replicate, Client.isLive]
  idle := Nat.zero_le _
  single := by simp [handles, start, Client.handle?]
  born := by simp [handles, start, Client.handle?]

theorem Orderly.steps (h : Orderly limits s) (hsteps : Steps s s') : Orderly limits s' := by
  induction hsteps with
  | refl => exact h
  | tail _ hstep ih => exact ih.step hstep

/-- A connection that is held is in no other place. -/
theorem Orderly.alone {s : Shared σ} {before after : List Client} {n : Nat} {l : Lease}
    (h : Orderly limits ⟨s, before ++ .holding n l :: after⟩) :
    n ∉ s.kept.map (·.number) ∧ ∀ l', .holding n l' ∉ before ++ after := by
  have hsingle :=
    (((handles_perm s before after (.holding n l)).map (·.number)).nodup_iff).mp h.single
  rw [Acts.own, List.map_append, List.map_append] at hsingle
  obtain ⟨hown, -, hothers⟩ := List.nodup_append.mp hsingle
  refine ⟨fun hkept => (List.nodup_append.mp hown).2.2 n hkept n (List.mem_singleton_self n)
    rfl, ?_⟩
  intro l' hl'
  have hother : ⟨n, l'.opened⟩ ∈ (before ++ after).filterMap (·.handle?) :=
    List.mem_filterMap.mpr ⟨_, hl', rfl⟩
  have hheld : n ∈ s.kept.map (·.number) ++ (Client.holding n l).handle?.toList.map (·.number) :=
    List.mem_append_right _ (List.mem_singleton_self n)
  exact hothers n hheld n (List.mem_map_of_mem hother) rfl

theorem Orderly.not_kept_of_held (h : Orderly limits s) {n : Nat} {l : Lease}
    (hheld : .holding n l ∈ s.clients) : n ∉ s.shared.kept.map (·.number) := by
  obtain ⟨shared, clients⟩ := s
  obtain ⟨before, after, rfl⟩ := List.append_of_mem hheld
  exact h.alone.1

/-- A connection of the past that is not kept, and broken wherever it is held. -/
structure Discarded (n : Nat) (s : System σ) : Prop where
  older : n < s.shared.births.length
  unkept : n ∉ s.shared.kept.map (·.number)
  broken : ∀ l, .holding n l ∈ s.clients → l.broken = true

theorem Orderly.discarded (h : Orderly limits s) {n : Nat} {l : Lease}
    (hheld : .holding n l ∈ s.clients) (hbroken : l.broken = true) : Discarded n s := by
  have hbirth := h.born ⟨n, l.opened⟩
    (List.mem_append_right _ (List.mem_filterMap.mpr ⟨_, hheld, rfl⟩))
  refine ⟨(List.getElem?_eq_some_iff.mp hbirth).1, h.not_kept_of_held hheld, fun l' hl' => ?_⟩
  obtain ⟨shared, clients⟩ := s
  obtain ⟨before, after, rfl⟩ := List.append_of_mem hheld
  rcases List.perm_middle.mem_iff.mp hl' with _ | ⟨_, hother⟩
  · exact hbroken
  · exact absurd hother (h.alone.2 l')

theorem Discarded.act {s s' : Shared σ} {c c' : Client} {before after : List Client} {n : Nat}
    (h : Discarded n ⟨s, before ++ c :: after⟩) (hact : Acts s c s' c') :
    Discarded n ⟨s', before ++ c' :: after⟩ := by
  have hothers : ∀ l, .holding n l ∈ before ++ after → l.broken = true :=
    fun l hl => h.broken l (List.perm_middle.mem_iff.mpr (List.mem_cons_of_mem _ hl))
  have hown : ∀ l, c = .holding n l → l.broken = true := by
    rintro l rfl
    exact h.broken l (List.mem_append_right _ List.mem_cons_self)
  have holder : n < s.births.length := h.older
  have hunkept : n ∉ s.kept.map (·.number) := h.unkept
  suffices hnew : n < s'.births.length ∧ n ∉ s'.kept.map (·.number) ∧
      ∀ l, c' = .holding n l → l.broken = true by
    refine ⟨hnew.1, hnew.2.1, fun l hl => ?_⟩
    rcases List.mem_cons.mp (List.perm_middle.mem_iff.mp hl) with hsame | hother
    · exact hnew.2.2 l hsame.symm
    · exact hothers l hother
  cases hact with
  | reuse hreusable =>
      have hsub := (Shared.sublist_of_reusable hreusable).map (·.number)
      refine ⟨holder, fun hkept => hunkept (hsub.subset (List.mem_cons_of_mem _ hkept)), ?_⟩
      rintro l hl
      cases hl
      exact absurd (hsub.subset List.mem_cons_self) hunkept
  | miss _ => exact ⟨holder, List.not_mem_nil, nofun⟩
  | connected =>
      refine ⟨by simpa using Nat.lt_succ_of_lt holder, hunkept, ?_⟩
      rintro l hl
      cases hl
      exact absurd holder (Nat.lt_irrefl _)
  | spoil =>
      refine ⟨holder, hunkept, ?_⟩
      rintro l hl
      cases hl
      rfl
  | @putBack m l hkeeps =>
      refine ⟨holder, fun hkept => ?_, nofun⟩
      rw [Shared.keeping, List.map_append] at hkept
      rcases List.mem_append.mp hkept with hold | hnew
      · exact hunkept hold
      · have hnumber : n = m := List.mem_singleton.mp hnew
        simp [Shared.keeps, hown l (by rw [hnumber])] at hkeeps
  | _ => exact ⟨holder, hunkept, nofun⟩

theorem Discarded.steps {n : Nat} (h : Discarded n s) (hsteps : Steps s s') : Discarded n s' := by
  induction hsteps with
  | refl => exact h
  | tail _ hstep ih =>
      cases hstep with
      | elapse d => exact { ih with }
      | serve server => exact { ih with }
      | act hact => exact ih.act hact

theorem isFresh_of_reusable {s : Shared σ} {k : Handle} {rest : List Handle}
    (h : s.reusable = k :: rest) : s.pool.isFresh k.opened = true := by
  have hhead := List.head?_dropWhile_not (!s.pool.isFresh ·.opened) s.kept
  rw [← Shared.reusable, h] at hhead
  simpa using hhead

/-- A connection that comes from the pool to a client is fresh. -/
theorem Orderly.fresh (h : Orderly limits s) (hstep : Step s s') {n : Nat} {l : Lease}
    (hkept : n ∈ s.shared.kept.map (·.number)) (hheld : .holding n l ∈ s'.clients) :
    s.shared.pool.isFresh l.opened = true := by
  cases hstep with
  | elapse d => exact absurd hkept (h.not_kept_of_held hheld)
  | serve server => exact absurd hkept (h.not_kept_of_held hheld)
  | @act s s' c c' before after hact =>
      rcases List.mem_cons.mp (List.perm_middle.mem_iff.mp hheld) with rfl | hother
      · cases hact with
        | reuse hreusable => exact isFresh_of_reusable hreusable
        | connected =>
            obtain ⟨k, hk, hnumber⟩ := List.mem_map.mp hkept
            have hbirth := h.born k (List.mem_append_left _ hk)
            rw [hnumber] at hbirth
            exact absurd (List.getElem?_eq_some_iff.mp hbirth).1 (Nat.lt_irrefl _)
        | spoil =>
            exact absurd hkept (h.not_kept_of_held (List.mem_append_right _ List.mem_cons_self))
      · have hold := List.perm_middle.mem_iff.mpr (List.mem_cons_of_mem c hother)
        exact absurd hkept (h.not_kept_of_held hold)

section Calls
variable {s : Shared σ} (before after : List Client)

theorem map_reusable (hs : s.pool.idle = s.kept.map (·.opened)) :
    s.pool.idle.dropWhile (!s.pool.isFresh ·) = s.reusable.map (·.opened) := by
  rw [hs, Shared.reusable, List.dropWhile_map]
  rfl

theorem open_steps (havailable : 0 < s.pool.available) (hreusable : s.reusable = []) :
    ∃ s' c, Steps ⟨s, before ++ .away :: after⟩ ⟨s', before ++ c :: after⟩ ∧
      s'.pool = s.pool.open_.2 ∧
      match s.pool.open_.1 with
      | .ok l => ∃ n, c = .holding n l
      | .error _ => c = .away := by
  have hasked : Steps ⟨s, before ++ .away :: after⟩
      ⟨(s.withAvailable (s.pool.available - 1)).keeping [], before ++ .connecting :: after⟩ :=
    .tail (.single (.act (.permit havailable))) (.act (.miss hreusable))
  have hrestored : s.pool.available - 1 + 1 = s.pool.available := Nat.sub_add_cancel havailable
  unfold Pool.open_
  rcases s.pool.driver.connect.run s.pool.server with ⟨⟨delay, result⟩, server⟩
  dsimp only
  split
  · refine ⟨_, .away,
      (hasked.tail (.serve server)).tail (.elapse s.pool.limits.acquireTimeout) |>.tail
      (.act .failed), ?_, rfl⟩
    simp [Shared.withAvailable, Shared.keeping, Shared.afterWaiting, Shared.serving, Shared.noting,
      Pool.afterWaiting, Pool.noting, hrestored]
  · have hwaited := (hasked.tail (.serve server)).tail (.elapse delay)
    cases result with
    | ok _ => exact ⟨_, _, hwaited.tail (.act .connected), rfl, _, rfl⟩
    | error e =>
        refine ⟨_, .away, hwaited.tail (.act .failed), ?_, rfl⟩
        simp [Shared.withAvailable, Shared.keeping, Shared.afterWaiting, Shared.serving,
          Shared.noting, Pool.afterWaiting, Pool.noting, hrestored]

/-- Without anybody between its steps a client comes to a connection, or stays without one, the way
the pool's own call does. -/
theorem acquire_steps (hs : s.pool.idle = s.kept.map (·.opened)) :
    ∃ s' c, Steps ⟨s, before ++ .away :: after⟩ ⟨s', before ++ c :: after⟩ ∧
      s'.pool = s.pool.acquire.2 ∧
      match s.pool.acquire.1 with
      | .ok l => ∃ n, c = .holding n l
      | .error _ => c = .away := by
  unfold Pool.acquire
  split
  · exact ⟨_, .away, .tail (.single (.elapse s.pool.limits.acquireTimeout)) (.act .refused),
      rfl, rfl⟩
  · have havailable : 0 < s.pool.available := Nat.pos_of_ne_zero ‹_›
    rw [map_reusable hs]
    cases hreusable : s.reusable with
    | nil => exact open_steps before after havailable hreusable
    | cons k rest =>
        have hpermitted : (s.withAvailable (s.pool.available - 1)).reusable = k :: rest := hreusable
        exact ⟨_, _, .tail (.single (.act (.permit havailable))) (.act (.reuse hpermitted)),
          rfl, _, rfl⟩

theorem release_eq (l : Lease) : s.pool.release l =
    { s.pool.noting .returned with
      available := s.pool.available + 1
      idle := if s.keeps l then s.pool.idle ++ [l.opened] else s.pool.idle } := by
  have hrelease : s.pool.release l =
      if !s.keeps l then { s.pool.noting .returned with available := s.pool.available + 1 }
      else { s.pool.noting .returned with
        available := s.pool.available + 1
        idle := s.pool.idle ++ [l.opened] } := by
    rw [Shared.keeps, Bool.not_not]
    rfl
  rw [hrelease]
  cases s.keeps l <;> rfl

/-- And it gives its connection back the way the pool's own call does. -/
theorem release_steps (hs : s.pool.idle = s.kept.map (·.opened)) (n : Nat) (l : Lease) :
    ∃ s', Steps ⟨s, before ++ .holding n l :: after⟩ ⟨s', before ++ .away :: after⟩ ∧
      s'.pool = s.pool.release l := by
  rw [release_eq]
  cases hkeeps : s.keeps l with
  | true =>
      refine ⟨_, .tail (.single (.act (.putBack hkeeps))) (.act .leave), ?_⟩
      simp [Shared.withAvailable, Shared.keeping, Shared.noting, Pool.noting, hs]
  | false => exact ⟨_, .tail (.single (.act (.close hkeeps))) (.act .leave), rfl⟩

end Calls

/-- The bounds of a pool, in a state that its clients have brought it to. -/
structure Bounded (limits : PoolLimits) (s : System σ) : Prop where
  permits : s.shared.pool.available + s.clients.countP (·.hasPermit) = max limits.maxOpen 1
  /-- Connections that are out, being opened or kept. -/
  live : s.clients.countP (·.isLive) + s.shared.pool.idle.length ≤ max limits.maxOpen 1
  idle : s.shared.pool.idle.length ≤ limits.maxIdle
  /-- No connection is in two places. -/
  single : (s.handles.map (·.number)).Nodup
  /-- The kept connections are those that the pool has on record, and every connection in a place is
  on record with the moment at which it was opened. -/
  recorded : s.shared.pool.idle = s.shared.kept.map (·.opened) ∧
    ∀ k ∈ s.handles, s.shared.births[k.number]? = some k.opened
  /-- A broken connection is never kept, now or later. -/
  discarded : ∀ n l, .holding n l ∈ s.clients → l.broken = true →
    ∀ s', Steps s s' → n ∉ s'.shared.kept.map (·.number)
  /-- A kept connection that is given out is younger than the greatest age. -/
  fresh : ∀ s', Step s s' → ∀ n l, n ∈ s.shared.kept.map (·.number) → .holding n l ∈ s'.clients →
    s.shared.pool.clock.nanoseconds - l.opened.nanoseconds < limits.maxLifetime.nanoseconds
  /-- A client that comes away without a connection leaves its permit. -/
  returned : ∀ c ∈ s.clients, ∀ s', Acts s.shared c s' .away →
    s'.pool.available = s.shared.pool.available + c.hasPermit.toNat

/-- The pool never exceeds its bounds: whatever a number of clients do with it, in whatever order
their steps come. -/
theorem bounded_of_steps {driver : Driver σ} {server : σ} {clients : Nat}
    (h : Steps (start driver limits server clients) s) : Bounded limits s := by
  have hs := (orderly_start driver limits server clients).steps h
  have hlength : s.shared.pool.idle.length = s.shared.kept.length := by
    rw [hs.mirrored, List.length_map]
  refine ⟨hs.permits, ?_, ?_, hs.single, ⟨hs.mirrored, hs.born⟩, ?_, ?_, ?_⟩
  · rw [hlength]
    exact hs.live
  · rw [hlength]
    exact hs.idle
  · intro n l hheld hbroken s' hsteps
    exact ((hs.discarded hheld hbroken).steps hsteps).unkept
  · intro s' hstep n l hkept hheld
    have hfresh := hs.fresh hstep hkept hheld
    rw [Pool.isFresh, hs.bounds] at hfresh
    exact of_decide_eq_true hfresh
  · intro c _ s' hact
    have hmoved := hact.permits
    rw [Client.hasPermit, Bool.toNat_false] at hmoved
    exact hmoved

section Run

def smallLimits : PoolLimits := ⟨1, 1, .ofSeconds 60, .ofSeconds 1⟩

/-- Two clients of a pool with one permit: the first has opened a connection and put it back, the
second has got it and spoiled it. -/
def spoiled : System Unit where
  shared := ⟨{ Pool.new (Sqlite.driver "") smallLimits () with
    available := 0
    dealings := [.given, .returned, .given] }, [], [⟨0⟩]⟩
  clients := [.away, .holding 0 ⟨⟨0⟩, true⟩]

theorem bounded_spoiled :
    Steps (start (Sqlite.driver "") smallLimits () 2) spoiled ∧ Bounded smallLimits spoiled := by
  have first {s s' : Shared Unit} {c c' : Client} (h : Acts s c s' c') :
      Step ⟨s, [c, .away]⟩ ⟨s', [c', .away]⟩ := @Step.act _ s s' c c' [] [.away] h
  have second {s s' : Shared Unit} {c c' : Client} (h : Acts s c s' c') :
      Step ⟨s, [.away, c]⟩ ⟨s', [.away, c']⟩ := @Step.act _ s s' c c' [.away] [] h
  have hpermitted : Steps (start (Sqlite.driver "") smallLimits () 2) ⟨_, [.permitted, .away]⟩ :=
    .single (first (.permit (by decide)))
  have hconnected := (hpermitted.tail (first (.miss rfl))).tail (first .connected)
  have hreturned := (hconnected.tail (first (.putBack rfl))).tail (first .leave)
  have hreused := (hreturned.tail (second (.permit (by decide)))).tail (second (.reuse rfl))
  have hspoiled := hreused.tail (second .spoil)
  exact ⟨hspoiled, bounded_of_steps hspoiled⟩

end Run

end System

end SqlGateway.Connection
