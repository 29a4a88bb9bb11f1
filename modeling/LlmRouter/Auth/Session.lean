import LlmRouter.Lib.Pool
import LlmRouter.Lib.Redis

/-!
# LlmRouter — web sessions and logout

`session.Store` keeps sessions in Redis with a time to live that `Renew` extends. `Renew` reads
and writes back in two commands, so a `SET` after a `DEL` brings a session back; `logout_final`
says that nothing else does.
-/

namespace LlmRouter.Sessions

open Lib Lib.Redis

/-- `session.Session`. Times are nanoseconds since the epoch. -/
structure Session where
  id : String
  userID : String
  provider : String
  createdAt : Int
  expiresAt : Int
  deriving DecidableEq, Repr

def defaultTTL : Int := 24 * 3600 * 1000000000

def renewThreshold : Int := 3600 * 1000000000

def Session.needsRenewal (s : Session) (now : Int) : Bool :=
  decide (s.expiresAt - now < renewThreshold)

abbrev SessionDB := String → Option (Keyed Session)

def redisKey (id : String) : String := "session:" ++ id

theorem redisKey_injective : Function.Injective redisKey := by
  intro a b h
  simpa [redisKey] using h

/-- `SET` with a time to live; without one if it is not positive. -/
def SessionDB.set (db : SessionDB) (id : String) (sess : Session) (now ttl : Int) : SessionDB :=
  Function.update db (redisKey id)
    (some { val := sess, expireAt := if 0 < ttl then some (now + ttl) else none })

def SessionDB.del (db : SessionDB) (id : String) : SessionDB :=
  Function.update db (redisKey id) none

/-- `session.Store` without its Redis client. -/
structure Store where
  ttl : Int

def newStore (ttl : Int) : Store := { ttl := if ttl = 0 then defaultTTL else ttl }

def get (db : SessionDB) (now : Int) (id : String) : Option Session :=
  (live now (db (redisKey id))).map Keyed.val

/-- The session that `Renew` writes back. -/
def Store.extended (st : Store) (sess : Session) (now : Int) : Session :=
  { sess with expiresAt := now + st.ttl }

def Store.renew (st : Store) (db : SessionDB) (now : Int) (id : String) :
    SessionDB × Option Session :=
  match get db now id with
  | none => (db, none)
  | some sess =>
    if !sess.needsRenewal now then (db, some sess)
    else (db.set id (st.extended sess now) now st.ttl, some (st.extended sess now))

/-! ### Calls as threads -/

/-- The calls on a session. `Logout` is a `Delete`, `SessionMiddleware` a `Get`
and possibly a `Renew`. -/
inductive Call where
  | get (id : String)
  | renew (id : String)
  | delete (id : String)
  deriving DecidableEq, Repr

def Call.id : Call → String
  | .get id | .renew id | .delete id => id

inductive Point where
  | first (c : Call)
  | renewSet (id : String) (sess : Session)
  | done (c : Call) (result : Except String (Option Session))

def Point.returned : Point → Option Session
  | .done _ (.ok r) => r
  | _ => none

def Point.id : Point → String
  | .first c => c.id
  | .renewSet id _ => id
  | .done c _ => c.id

/-- Redis. The ids that have been deleted are kept for the statements. -/
structure Shared where
  db : SessionDB
  deleted : List String := []

/-- What a command meets: the clock, and an error of Redis. -/
structure Input where
  now : Int
  err : Option String := none

def Store.next (st : Store) (s : Shared) (x : Input) : Point → Option (Shared × Point)
  | .first (.get id) =>
    match x.err with
    | some e => some (s, .done (.get id) (.error ("get session: " ++ e)))
    | none => some (s, .done (.get id) (.ok (get s.db x.now id)))
  | .first (.renew id) =>
    match x.err with
    | some e => some (s, .done (.renew id) (.error ("get session: " ++ e)))
    | none =>
      match get s.db x.now id with
      | none => some (s, .done (.renew id) (.ok none))
      | some sess =>
        if !sess.needsRenewal x.now then some (s, .done (.renew id) (.ok (some sess)))
        else some (s, .renewSet id sess)
  | .renewSet id sess =>
    match x.err with
    | some e => some (s, .done (.renew id) (.error e))
    | none =>
      some ({ s with db := s.db.set id (st.extended sess x.now) x.now st.ttl },
        .done (.renew id) (.ok (some (st.extended sess x.now))))
  | .first (.delete id) =>
    match x.err with
    | some e => some (s, .done (.delete id) (.error e))
    | none =>
      some ({ db := s.db.del id, deleted := id :: s.deleted }, .done (.delete id) (.ok none))
  | .done _ _ => none

def Store.code (st : Store) : Code Shared Call Point Input where
  start := .first
  next := st.next

theorem get_alone (st : Store) (s : Shared) (id : String) (now : Int) :
    st.code.alone s (.first (.get id)) [{ now := now }] =
      some (s, .done (.get id) (.ok (get s.db now id))) := rfl

theorem renew_alone (st : Store) (s : Shared) (id : String) (now : Int) :
    ∃ xs, st.code.alone s (.first (.renew id)) xs =
      some ({ s with db := (st.renew s.db now id).1 },
        .done (.renew id) (.ok (st.renew s.db now id).2)) := by
  unfold Store.renew
  cases hget : get s.db now id with
  | none => exact ⟨[{ now := now }], by simp [Code.alone, Store.code, Store.next, hget]⟩
  | some sess =>
    by_cases hneeds : sess.needsRenewal now
    · exact ⟨[{ now := now }, { now := now }],
        by simp [Code.alone, Store.code, Store.next, hget, hneeds]⟩
    · exact ⟨[{ now := now }], by simp [Code.alone, Store.code, Store.next, hget, hneeds]⟩

/-! ### What one command does -/

def Point.holds : Point → Option Session
  | .done _ (.ok r) => r
  | .renewSet _ sess => some sess
  | _ => none

variable {st : Store} {s s' : Shared} {x : Input} {t t' : Point} {id : String}

/-- A command reads only or fails, is the `SET` of a `Renew`, or a `DEL`; a session that a call
holds was found there. -/
theorem next_cases (h : st.next s x t = some (s', t')) :
    (s' = s ∧ t'.id = t.id ∧ (∀ id r, t' ≠ .done (.delete id) (.ok r)) ∧
        ∀ sess, t'.holds = some sess → get s.db x.now t.id = some sess) ∨
      (∃ id sess, t = .renewSet id sess ∧
        t' = .done (.renew id) (.ok (some (st.extended sess x.now))) ∧
        s' = { s with db := s.db.set id (st.extended sess x.now) x.now st.ttl }) ∨
      (∃ id, t = .first (.delete id) ∧ t' = .done (.delete id) (.ok none) ∧
        s' = { db := s.db.del id, deleted := id :: s.deleted }) := by
  revert h
  fun_cases Store.next st s x t with
  | case2 => rintro ⟨⟩; exact .inl ⟨rfl, rfl, nofun, fun _ h => h⟩
  | case5 _ _ sess hget | case6 _ _ sess hget =>
    rintro ⟨⟩; exact .inl ⟨rfl, rfl, nofun, fun _ h => hget.trans h⟩
  | case8 id sess => rintro ⟨⟩; exact .inr (.inl ⟨id, sess, rfl, rfl, rfl⟩)
  | case10 id => rintro ⟨⟩; exact .inr (.inr ⟨id, rfl, rfl, rfl⟩)
  | case11 => rintro ⟨⟩
  | _ => rintro ⟨⟩; exact .inl ⟨rfl, rfl, nofun, nofun⟩

theorem get_eq_none {db : SessionDB} (h : db (redisKey id) = none) (now : Int) :
    get db now id = none := by
  rw [get, h]
  rfl

theorem del_eq_none {db : SessionDB} (h : db (redisKey id) = none) (id' : String) :
    db.del id' (redisKey id) = none := by
  by_cases hid : redisKey id = redisKey id'
  · rw [SessionDB.del, hid, Function.update_self]
  · rw [SessionDB.del, Function.update_of_ne hid, h]

/-! ### Logout -/

/-- The condition on a command: the `SET` of a `Renew` comes before every `DEL`
of its session. -/
def RenewOk (s : Shared) (_ : Input) : Point → Prop
  | .renewSet id _ => id ∉ s.deleted
  | _ => True

instance (s : Shared) (x : Input) : ∀ t, Decidable (RenewOk s x t)
  | .renewSet id _ => inferInstanceAs (Decidable (id ∉ s.deleted))
  | .first _ | .done _ _ => isTrue trivial

def Shared.Gone (s : Shared) : Prop := ∀ id ∈ s.deleted, s.db (redisKey id) = none

theorem gone_next (hs : s.Gone) (hok : RenewOk s x t) (h : st.next s x t = some (s', t')) :
    s'.Gone := by
  rcases next_cases h with ⟨rfl, -, -⟩ | ⟨id, sess, rfl, -, rfl⟩ | ⟨id, rfl, -, rfl⟩
  · exact hs
  · intro id' hid'
    have hne : redisKey id' ≠ redisKey id := fun heq => hok (redisKey_injective heq ▸ hid')
    show s.db.set id _ _ _ (redisKey id') = none
    rw [SessionDB.set, Function.update_of_ne hne]
    exact hs id' hid'
  · intro id' hid'
    rcases List.mem_cons.mp hid' with rfl | hid'
    · exact Function.update_self ..
    · exact del_eq_none (hs id' hid') id

theorem deleted_next (hid : id ∈ s.deleted) (h : st.next s x t = some (s', t')) :
    id ∈ s'.deleted := by
  rcases next_cases h with ⟨rfl, -, -⟩ | ⟨id', sess, rfl, -, rfl⟩ | ⟨id', rfl, -, rfl⟩
  · exact hid
  · exact hid
  · exact List.mem_cons_of_mem _ hid

def Deletes (_ : Nat) (s : Shared) (t : Point) : Prop :=
  ∀ id r, t = .done (.delete id) (.ok r) → id ∈ s.deleted

theorem deletes_outline (st : Store) : Outline st.code RenewOk 0 Shared.Gone Deletes where
  start _ _ _ _ _ := nofun
  inv _ _ _ _ _ _ hs _ hok h := gone_next hs hok h
  self i s x t s' t' _ _ _ h := by
    intro id r ht'
    rcases next_cases h with ⟨-, -, hnot, -⟩ | ⟨id', sess, -, rfl, -⟩ | ⟨id', -, rfl, rfl⟩
    · exact absurd ht' (hnot id r)
    · cases ht'
    · cases ht'
      exact List.mem_cons_self
  frame _ _ _ _ _ _ _ _ _ _ _ h hu id r hdone := deleted_next (hu id r hdone) h

def Empty (id : String) (n i : Nat) (_ : Shared) (t : Point) : Prop :=
  n ≤ i → t.id = id → t.holds = none

theorem empty_outline (st : Store) (id : String) (n : Nat) :
    Outline st.code RenewOk n (fun s => s.Gone ∧ id ∈ s.deleted) (Empty id n) where
  start _ _ _ _ _ _ _ := rfl
  inv _ _ _ _ _ _ hs _ hok h := ⟨gone_next hs.1 hok h, deleted_next hs.2 h⟩
  self i s x t s' t' hs ht hok h := by
    intro hi hid
    rcases next_cases h with ⟨-, hsame, -, hread⟩ | ⟨id', sess, rfl, rfl, -⟩ | ⟨id', -, rfl, -⟩
    · -- whatever it holds it has found in Redis, where nothing is
      have hnone : get s.db x.now t.id = none := by
        rw [← hsame, hid]
        exact get_eq_none (hs.1 id hs.2) _
      refine Option.eq_none_iff_forall_ne_some.mpr fun sess hsess => ?_
      rw [hread sess hsess] at hnone
      cases hnone
    · -- the call held a session before its `SET`
      cases ht hi hid
    · rfl
  frame _ _ _ _ _ _ _ _ _ _ _ _ hu := hu

theorem returned_of_holds (h : t.holds = none) : t.returned = none := by
  cases t with
  | first c => rfl
  | renewSet id sess => rfl
  | done c r =>
    cases r with
    | error e => rfl
    | ok r => exact h

/-- **Logout is final.** If every `SET` of a `Renew` comes before the first `DEL` of its session, no
call that starts after a `Delete` has returned gets the session. -/
theorem logout_final {st : Store} {db : SessionDB} {ms₁ ms₂ : List (Move Call Input)}
    {p₁ p₂ : Pool Shared Point} {d : Nat} {id : String} {r : Option Session}
    (hok₁ : AlongFrom (Pool.step st.code) (Pool.Ok RenewOk) (Pool.init { db := db }) ms₁)
    (hrun₁ : runFrom (Pool.step st.code) (Pool.init { db := db }) ms₁ = some p₁)
    (hdel : p₁.threads[d]? = some (.done (.delete id) (.ok r)))
    (hok₂ : AlongFrom (Pool.step st.code) (Pool.Ok RenewOk) p₁ ms₂)
    (hrun₂ : runFrom (Pool.step st.code) p₁ ms₂ = some p₂) :
    ∀ i t, p₁.threads.length ≤ i → p₂.threads[i]? = some t → t.id = id → t.returned = none := by
  have h₁ := (deletes_outline st).run_init (s := { db := db }) nofun hok₁ hrun₁
  have hmem : id ∈ p₁.shared.deleted := h₁.thread d _ hdel id r rfl
  have hstart : p₁.Holds p₁.threads.length (fun s => s.Gone ∧ id ∈ s.deleted)
      (Empty id p₁.threads.length) :=
    h₁.late ⟨h₁.inv, hmem⟩ fun i t hlt _ hn => absurd hlt (by omega)
  have h₂ := (empty_outline st id p₁.threads.length).run hstart hok₂ hrun₂
  intro i t hi ht hid
  exact returned_of_holds (h₂.thread i t ht hi hid)

def lateSession : Session :=
  { id := "s1", userID := "u1", provider := "google", createdAt := 0,
    expiresAt := 600 * 1000000000 }

def lateDB : SessionDB := Function.update (fun _ => none) (redisKey "s1")
  (some { val := lateSession, expireAt := some (600 * 1000000000) })

def loggedOut : Pool Shared Point where
  shared :=
    { db := (lateDB.set "s1" ((newStore 0).extended lateSession 2) 2 defaultTTL).del "s1"
      deleted := ["s1"] }
  threads := [.done (.renew "s1") (.ok (some ((newStore 0).extended lateSession 2))),
    .done (.delete "s1") (.ok none)]

theorem logout_final_after_renew :
    runFrom (Pool.step (newStore 0).code) (Pool.init { db := lateDB })
        [.start (.renew "s1"), .start (.delete "s1"), .advance 0 { now := 1 },
          .advance 0 { now := 2 }, .advance 1 { now := 3 }] = some loggedOut ∧
      ∃ p, runFrom (Pool.step (newStore 0).code) loggedOut
          [.start (.get "s1"), .advance 2 { now := 4 }] = some p ∧
        p.threads.length = 3 ∧ ∀ t, p.threads[2]? = some t → t.id = "s1" → t.returned = none := by
  refine ⟨?hrun, ?p, ?hrest, ?hthree, fun t ht hid =>
    logout_final (d := 1) ?hok₁ ?hrun rfl ?hok₂ ?hrest 2 t le_rfl ht hid⟩
  case hrun | hrest | hthree => rfl
  case hok₁ | hok₂ => decide

theorem renew_revives_session :
    ((runFrom (Pool.step (newStore 0).code) (Pool.init { db := lateDB })
      [.start (.renew "s1"), .advance 0 { now := 1 }, .start (.delete "s1"),
        .advance 1 { now := 2 }, .advance 0 { now := 3 }, .start (.get "s1"),
        .advance 2 { now := 4 }]).map fun p => p.threads.map Point.returned) =
      some [some ((newStore 0).extended lateSession 3), none,
        some ((newStore 0).extended lateSession 3)] := by
  decide

end LlmRouter.Sessions
