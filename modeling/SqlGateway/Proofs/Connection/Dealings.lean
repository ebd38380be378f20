import SqlGateway.Connection.Session

/-!
# Dealings with a pool

The record of a pool tells whether its users ever held more than one connection at a time, and
whether one of them asked for a connection while it held one. A session that is started and finished
adds a connection given and a connection returned, whatever is done on it; one that is refused adds
why. How many connections a pool has to give decides about nothing but whether it has one.
-/
namespace SqlGateway.Connection

/-- The connections that were given out and have not come back. -/
def heldAfter (dealings : List Dealing) : Int := dealings.count .given - dealings.count .returned

theorem heldAfter_append (ds more : List Dealing) :
    heldAfter (ds ++ more) = heldAfter ds + heldAfter more := by
  simp only [heldAfter, List.count_append]
  omega

/-- Dealings of one who never has more than one connection, asks for one only while there is none,
and has none at the end. -/
structure OneByOne (ds : List Dealing) : Prop where
  holds : ∀ before after, ds = before ++ after → heldAfter before = 0 ∨ heldAfter before = 1
  asks : ∀ before d after, ds = before ++ d :: after → d ≠ .returned → heldAfter before = 0
  returns : heldAfter ds = 0

section OneByOne
variable {ds more : List Dealing}

theorem oneByOne_nil : OneByOne [] where
  holds before after h := .inl (by rw [(List.nil_eq_append_iff.mp h).1]; rfl)
  asks before d after h := by simp at h
  returns := rfl

theorem oneByOne_visit : OneByOne [.given, .returned] where
  holds before after h := by
    rcases before with _ | ⟨first, _ | ⟨second, rest⟩⟩
    · exact .inl rfl
    · obtain ⟨rfl, -⟩ := List.cons.inj h
      exact .inr rfl
    · obtain ⟨rfl, hsecond⟩ := List.cons.inj h
      obtain ⟨rfl, hrest⟩ := List.cons.inj hsecond
      obtain ⟨rfl, -⟩ := List.nil_eq_append_iff.mp hrest
      exact .inl rfl
  asks before d after h hd := by
    rcases before with _ | ⟨_, _ | ⟨_, _ | _⟩⟩ <;> simp_all [heldAfter]
  returns := rfl

theorem oneByOne_refused {d : Dealing} (hd : d = .unopened ∨ d = .exhausted) : OneByOne [d] where
  holds before after h := by
    rcases List.eq_nil_or_concat after with rfl | ⟨_, _, rfl⟩
    · rw [List.append_nil] at h
      subst h
      rcases hd with rfl | rfl <;> exact .inl rfl
    · have hlength := congrArg List.length h
      simp only [List.length_singleton, List.concat_eq_append, List.length_append] at hlength
      obtain rfl := List.eq_nil_of_length_eq_zero (l := before) (by omega)
      exact .inl rfl
  asks before d' after h _ := by
    rcases before with _ | ⟨_, _ | _⟩ <;> simp_all [heldAfter]
  returns := by rcases hd with rfl | rfl <;> rfl

/-- Of one who has no connection in between it does not matter what comes first. -/
theorem OneByOne.append (h : OneByOne ds) (k : OneByOne more) : OneByOne (ds ++ more) where
  holds before after hsplit := by
    rcases List.append_eq_append_iff.mp hsplit with ⟨rest, rfl, hrest⟩ | ⟨rest, hrest, -⟩
    · rw [heldAfter_append, h.returns, Int.zero_add]
      exact k.holds rest after hrest
    · exact h.holds before rest hrest
  asks before d after hsplit hd := by
    rcases List.append_eq_append_iff.mp hsplit with ⟨rest, rfl, hrest⟩ | ⟨rest, hrest, hafter⟩
    · rw [heldAfter_append, h.returns, Int.zero_add]
      exact k.asks rest d after hrest hd
    · cases rest with
      | nil =>
          rw [List.append_nil] at hrest
          rw [← hrest]
          exact h.returns
      | cons first rest =>
          obtain rfl : d = first := (List.cons.inj hafter).1
          exact h.asks before d rest hrest hd
  returns := by rw [heldAfter_append, h.returns, k.returns]; rfl

end OneByOne

namespace Pool

variable {σ : Type} {p p' p'' : Pool σ} {timeout : Duration}

/-- A pool has come from one state to another by dealings in which never more than one connection
was out. -/
structure Deals (p : Pool σ) (ds : List Dealing) (p' : Pool σ) : Prop where
  recorded : p'.dealings = p.dealings ++ ds
  oneByOne : OneByOne ds
  available : p'.available = p.available
  /-- If there is a connection to give at the beginning, nobody waits for one in vain. -/
  finds : p.available ≠ 0 → .exhausted ∉ ds

theorem Deals.refl (p : Pool σ) : p.Deals [] p :=
  ⟨(List.append_nil _).symm, oneByOne_nil, rfl, fun _ => List.not_mem_nil⟩

theorem Deals.trans {ds more : List Dealing} (h : p.Deals ds p') (k : p'.Deals more p'') :
    p.Deals (ds ++ more) p'' where
  recorded := by rw [k.recorded, h.recorded, List.append_assoc]
  oneByOne := h.oneByOne.append k.oneByOne
  available := k.available.trans h.available
  finds hp hmem := by
    rcases List.mem_append.mp hmem with hfirst | hlater
    · exact h.finds hp hfirst
    · exact k.finds (h.available ▸ hp) hlater

/-- What becomes of a pool that is asked for a connection, by the answer. -/
def Answers (p : Pool σ) (answer : Except Error Lease) (p' : Pool σ) : Prop :=
  match answer with
  | .ok _ => p'.dealings = p.dealings ++ [.given] ∧ p'.available + 1 = p.available
  | .error _ => p'.available = p.available ∧
      ∃ d, p'.dealings = p.dealings ++ [d] ∧ (d = .unopened ∨ d = .exhausted ∧ p.available = 0)

theorem open_answers (h : p.available ≠ 0) : p.Answers p.open_.1 p.open_.2 := by
  have hgiven : p.available - 1 + 1 = p.available := Nat.sub_add_cancel (Nat.pos_of_ne_zero h)
  unfold Pool.open_
  rcases p.driver.connect.run p.server with ⟨⟨delay, result⟩, server⟩
  dsimp only
  split
  · exact ⟨rfl, .unopened, rfl, .inl rfl⟩
  · cases result with
    | ok _ => exact ⟨rfl, hgiven⟩
    | error e => exact ⟨rfl, .unopened, rfl, .inl rfl⟩

theorem acquire_answers (p : Pool σ) : p.Answers p.acquire.1 p.acquire.2 := by
  unfold Pool.acquire
  split
  next hnone => exact ⟨rfl, .exhausted, rfl, .inr ⟨rfl, hnone⟩⟩
  next hsome =>
    cases p.idle.dropWhile (!p.isFresh ·) with
    | cons opened rest => exact ⟨rfl, Nat.sub_add_cancel (Nat.pos_of_ne_zero hsome)⟩
    | nil => exact open_answers hsome

theorem release_dealt (l : Lease) (p : Pool σ) :
    (p.release l).dealings = p.dealings ++ [.returned] ∧
    (p.release l).available = p.available + 1 := by
  unfold Pool.release
  dsimp only
  split <;> exact ⟨rfl, rfl⟩

/-- A session that is started is given a connection and gives it back. -/
theorem deals_visit {s : Session σ} (h : (Session.start timeout p).1 = .ok s) (s' : Session σ) :
    p.Deals [.given, .returned] (s'.finish (Session.start timeout p).2) := by
  have hanswers := p.acquire_answers
  unfold Session.start at h ⊢
  rcases hacquire : p.acquire with ⟨lease | lease, lent⟩
  · rw [hacquire] at h
    cases h
  · rw [hacquire] at hanswers
    obtain ⟨hgiven, havailable⟩ := hanswers
    obtain ⟨hreturned, hback⟩ := release_dealt
      (if s'.inTransaction then s'.lease.asBroken else s'.lease)
      { lent with clock := s'.clock, server := s'.server }
    refine ⟨?_, oneByOne_visit, hback.trans havailable, fun _ => by simp⟩
    rw [Session.finish, hreturned, hgiven, List.append_assoc]
    rfl

theorem deals_refused {e : Error} (h : (Session.start timeout p).1 = .error e) :
    ∃ d, p.Deals [d] (Session.start timeout p).2 := by
  have hanswers := p.acquire_answers
  unfold Session.start at h ⊢
  rcases hacquire : p.acquire with ⟨error | lease, left⟩
  · rw [hacquire] at hanswers
    obtain ⟨havailable, d, hnoted, hd⟩ := hanswers
    refine ⟨d, hnoted, oneByOne_refused (hd.imp_right And.left), havailable, fun hp hmem => ?_⟩
    obtain rfl := List.mem_singleton.mp hmem
    exact hd.elim nofun fun hnone => hp hnone.2
  · rw [hacquire] at h
    cases h

/-- A pool that is the same but for how many connections it has to give, and for its record. -/
def Like (p p' : Pool σ) : Prop := ∃ available dealings, p' = { p with available, dealings }

theorem open_like (h : p.Like p') : p'.open_.1 = p.open_.1 ∧ p.open_.2.Like p'.open_.2 := by
  obtain ⟨available, dealings, rfl⟩ := h
  unfold Pool.open_
  dsimp only
  rcases p.driver.connect.run p.server with ⟨⟨delay, result⟩, server⟩
  dsimp only
  split
  · exact ⟨rfl, _, _, rfl⟩
  · cases result <;> exact ⟨rfl, _, _, rfl⟩

/-- Pools that have a connection to give, be it one or more of them, give the same session. -/
theorem start_like (timeout : Duration) (h : p.Like p') (hp : p.available ≠ 0)
    (hp' : p'.available ≠ 0) : (Session.start timeout p').1 = (Session.start timeout p).1 ∧
      (Session.start timeout p).2.Like (Session.start timeout p').2 := by
  have hacquire : p'.acquire.1 = p.acquire.1 ∧ p.acquire.2.Like p'.acquire.2 := by
    have hopen := open_like h
    unfold Pool.acquire
    rw [if_neg hp, if_neg hp']
    obtain ⟨available, dealings, rfl⟩ := h
    have hidle : ({ p with available, dealings } : Pool σ).idle.dropWhile
        (!Pool.isFresh { p with available, dealings } ·) = p.idle.dropWhile (!p.isFresh ·) := rfl
    rw [hidle]
    cases p.idle.dropWhile (!p.isFresh ·) with
    | cons opened rest => exact ⟨rfl, _, _, rfl⟩
    | nil => exact hopen
  obtain ⟨hlease, hlike⟩ := hacquire
  unfold Session.start
  rcases hfirst : p.acquire with ⟨lease, lent⟩
  rcases hsecond : p'.acquire with ⟨lease', lent'⟩
  rw [hfirst, hsecond] at hlease hlike
  obtain rfl : lease' = lease := hlease
  cases lease' with
  | error e => exact ⟨rfl, hlike⟩
  | ok l =>
      obtain ⟨available, dealings, rfl⟩ := hlike
      exact ⟨rfl, available, dealings, rfl⟩

theorem release_like (l : Lease) (h : p.Like p') : (p.release l).Like (p'.release l) := by
  obtain ⟨available, dealings, rfl⟩ := h
  have hrelease (q : Pool σ) : q.release l =
      if l.broken || !q.isFresh l.opened || q.limits.maxIdle ≤ q.idle.length then
        { q.noting .returned with available := q.available + 1 }
      else { q.noting .returned with
        available := q.available + 1
        idle := q.idle ++ [l.opened] } := rfl
  rw [hrelease, hrelease]
  cases hdrop : (l.broken || !p.isFresh l.opened || decide (p.limits.maxIdle ≤ p.idle.length)) with
  | true => exact ⟨_, _, if_pos hdrop⟩
  | false => exact ⟨_, _, if_neg (Bool.eq_false_iff.mp hdrop)⟩

theorem finish_like (s : Session σ) (h : p.Like p') : (s.finish p).Like (s.finish p') := by
  obtain ⟨available, dealings, rfl⟩ := h
  exact release_like _ ⟨available, dealings, rfl⟩

end Pool

end SqlGateway.Connection
