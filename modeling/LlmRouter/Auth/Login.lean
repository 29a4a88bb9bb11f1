import LlmRouter.Auth.Roles
import LlmRouter.Auth.Session
import LlmRouter.Gateway.Provider

/-!
# LlmRouter — logging in with OAuth

`AuthHandler.Login` stores a random state in Redis for ten minutes. `Callback` takes it out with
one `GETDEL`, exchanges the code for a profile, finds or creates the user and stores a session.
Both are threads over Redis and the tables, one command at a time.
-/

namespace LlmRouter.Login

open Lib Lib.Redis List
open Sessions (Session SessionDB Store)
open Rbac (RoleRecord Assignment getRoleByName)
open Gateway (goQuote)

structure User where
  id : String
  email : String
  deriving DecidableEq, Repr

/-- Redis, and the tables `users` and `user_roles`. -/
structure Shared where
  states : String → Option (Keyed String) := fun _ => none
  sessions : SessionDB := fun _ => none
  users : List User := []
  userRoles : List Assignment := []

def stateKey (state : String) : String := "oauth:state:" ++ state

theorem stateKey_injective : Function.Injective stateKey := by
  intro a b h
  simpa [stateKey] using h

def stateTTL : Int := 10 * 60 * 1000000000

def Shared.setState (s : Shared) (state : String) (v : Option (Keyed String)) : Shared :=
  { s with states := Function.update s.states (stateKey state) v }

@[simp] theorem setState_self (s : Shared) (state : String) (v : Option (Keyed String)) :
    (s.setState state v).states (stateKey state) = v :=
  Function.update_self ..

theorem setState_of_ne (s : Shared) (v : Option (Keyed String)) {st state : String}
    (hne : state ≠ st) : (s.setState state v).states (stateKey st) = s.states (stateKey st) :=
  Function.update_of_ne (fun h => hne (stateKey_injective h).symm) ..

def storeState (s : Shared) (now : Int) (state provider : String) : Shared :=
  s.setState state (some { val := provider, expireAt := some (now + stateTTL) })

/-- The `GETDEL` of `Store.VerifyState`. -/
def verifyState (s : Shared) (now : Int) (state : String) : Option String × Shared :=
  ((live now (s.states (stateKey state))).map Keyed.val, s.setState state none)

/-- `OrgStore.CreateUser`: the columns `id` and `email` are unique. -/
def createUser (s : Shared) (id email : String) : Option Shared :=
  if s.users.any fun u => decide (u.id = id ∨ u.email = email) then none
  else some { s with users := s.users ++ [{ id := id, email := email }] }

theorem createUser_some {s s' : Shared} {id email : String} (h : createUser s id email = some s') :
    (∀ u ∈ s.users, u.id ≠ id ∧ u.email ≠ email) ∧
      s' = { s with users := s.users ++ [{ id := id, email := email }] } := by
  unfold createUser at h
  split at h
  case isTrue => cases h
  case isFalse hany =>
    refine ⟨fun u hu => ?_, (Option.some.inj h).symm⟩
    have hnot := mt (any_eq_true.mpr ⟨u, hu, ·⟩) hany
    rw [decide_eq_true_eq] at hnot
    exact not_or.mp hnot

def newSession (st : Store) (now : Int) (id userID provider : String) : Session :=
  { id := id, userID := userID, provider := provider, createdAt := now, expiresAt := now + st.ttl }

/-! ### Calls as threads -/

inductive Call where
  | login (provider : String)
  | callback (state code provider : String)
  deriving DecidableEq, Repr

/-- A callback whose state was found: the state, the provider stored with it, the one it goes on
with, and when. -/
structure Verified where
  state : String
  stored : String
  provider : String
  time : Int
  deriving DecidableEq, Repr

/-- Where a request stands: before one of its commands, or answered. -/
inductive Point where
  | first (c : Call)
  | redirected (state provider : String) (time : Int)
  | exchange (v : Verified)
  | getUserByEmail (v : Verified) (email : String)
  | createUser (v : Verified) (email : String)
  | getRoleByName (v : Verified) (email : String) (user : User)
  | assignRole (v : Verified) (email : String) (user : User) (role : RoleRecord)
  | create (v : Verified) (email : String) (user : User)
  | loggedIn (v : Verified) (email : String) (sess : Session)
  | failed (v : Option Verified) (status : Nat) (body : String)
  deriving DecidableEq, Repr

/-- What a command meets: the clock, a random text, whether it fails, and the email of the profile. -/
structure Input where
  now : Int
  random : String := ""
  fails : Bool := false
  profile : Option String := none

/-- `AuthHandler`, with the names of its providers and the table of roles. -/
structure Handler where
  providers : List String
  store : Store
  roles : List RoleRecord := []

/-- What `http.Error` writes, with its line break. -/
def errorBody (text : String) : String := "\x7b\"error\":\"" ++ text ++ "\"\x7d\n"

def provisioningFailed (v : Verified) : Point :=
  .failed (some v) 500 (errorBody "user provisioning failed")

/-- The next command of a request: `Login`, `Callback` and `findOrCreateUser`. -/
def Handler.next (h : Handler) (s : Shared) (x : Input) : Point → Option (Shared × Point)
  | .first (.login param) =>
    let provider := if param = "" then "google" else param
    if provider ∉ h.providers then
      some (s, .failed none 400 (errorBody ("unknown provider " ++ goQuote provider)))
    else if x.fails then some (s, .failed none 500 (errorBody "internal error"))
    else some (storeState s x.now x.random provider, .redirected x.random provider x.now)
  | .first (.callback state code param) =>
    if state = "" ∨ code = "" then
      some (s, .failed none 400 (errorBody "missing state or code"))
    else if x.fails then some (s, .failed none 400 (errorBody "invalid oauth state"))
    else
      match verifyState s x.now state with
      | (none, s') => some (s', .failed none 400 (errorBody "invalid oauth state"))
      | (some stored, s') =>
        let provider := if param = "" then stored else param
        let v : Verified :=
          { state := state, stored := stored, provider := provider, time := x.now }
        if provider ∈ h.providers then some (s', .exchange v)
        else some (s', .failed (some v) 400 (errorBody "unknown provider"))
  | .exchange v =>
    match x.profile with
    | none => some (s, .failed (some v) 401 (errorBody "authentication failed"))
    | some email => some (s, .getUserByEmail v email)
  | .getUserByEmail v email =>
    if x.fails then some (s, provisioningFailed v)
    else
      match s.users.find? fun u => decide (u.email = email) with
      | some user => some (s, .create v email user)
      | none => some (s, .createUser v email)
  | .createUser v email =>
    match if x.fails then none else createUser s x.random email with
    | none => some (s, provisioningFailed v)
    | some s' => some (s', .getRoleByName v email { id := x.random, email := email })
  | .getRoleByName v email user =>
    match if x.fails then none else getRoleByName h.roles "developer" none with
    | none => some (s, .create v email user)
    | some role => some (s, .assignRole v email user role)
  | .assignRole v email user role =>
    -- the call names no organization, and its error is dropped
    match if x.fails then none else Rbac.assignRole s.userRoles user.id role.id none none with
    | none => some (s, .create v email user)
    | some userRoles => some ({ s with userRoles := userRoles }, .create v email user)
  | .create v email user =>
    if x.fails then some (s, .failed (some v) 500 (errorBody "session creation failed"))
    else
      let sess := newSession h.store x.now x.random user.id v.provider
      some ({ s with sessions := s.sessions.set sess.id sess x.now h.store.ttl },
        .loggedIn v email sess)
  | .redirected .. | .loggedIn .. | .failed .. => none

def Handler.code (h : Handler) : Code Shared Call Point Input where
  start := .first
  next := h.next

def Point.verified : Point → Option Verified
  | .exchange v | .getUserByEmail v _ | .createUser v _ | .getRoleByName v _ _
  | .assignRole v _ _ _ | .create v _ _ | .loggedIn v _ _ => some v
  | .failed v _ _ => v
  | .first _ | .redirected .. => none

/-- The user that a callback has found or created, and the email it looked for. -/
def Point.user : Point → Option (String × User)
  | .getRoleByName _ email user | .assignRole _ email user _ | .create _ email user =>
    some (email, user)
  | _ => none

/-- What a callback that has not been answered yet has verified. -/
def Point.pending : Point → Option Verified
  | .failed .. | .loggedIn .. => none
  | t => t.verified

/-- The callback has got through with the state. -/
def Point.uses (state : String) (t : Point) : Bool := t.verified.any fun v => v.state == state

/-- The `Login` has issued the state. -/
def Point.issues (state : String) : Point → Bool
  | .redirected st _ _ => st == state
  | _ => false

/-! ### What one command does -/

variable {h : Handler} {s s' : Shared} {x : Input} {t t' : Point} {ts : List Point} {i : Nat}

inductive Effect (h : Handler) (s : Shared) (x : Input) (t : Point) (s' : Shared) (t' : Point) :
    Prop
  | stored (c : Call) (state provider : String) (ht : t = .first c)
      (ht' : t' = .redirected state provider x.now) (hs : s' = storeState s x.now state provider)
  | taken (c : Call) (v : Verified) (ht : t = .first c) (ht' : t'.verified = some v)
      (hs : verifyState s x.now v.state = (some v.stored, s')) (htime : v.time = x.now)
      (hdone : t' = .exchange v ∧ v.provider ∈ h.providers ∨ ∃ body, t' = .failed (some v) 400 body)
  | dropped (c : Call) (state body : String) (ht : t = .first c) (ht' : t' = .failed none 400 body)
      (hs : s' = s.setState state none)
  | created (v : Verified) (user : User) (ht : t = .createUser v user.email)
      (ht' : t' = .getRoleByName v user.email user)
      (hfresh : ∀ u ∈ s.users, u.id ≠ user.id ∧ u.email ≠ user.email)
      (hs : s' = { s with users := s.users ++ [user] })
  | session (v : Verified) (email : String) (user : User) (sess : Session)
      (ht : t = .create v email user) (ht' : t' = .loggedIn v email sess)
      (hsess : sess.userID = user.id ∧ sess.provider = v.provider)
      (hs : s' = { s with sessions := s.sessions.set sess.id sess x.now h.store.ttl })
  | same (hs : s' = s) (hverified : t'.verified = t.verified)
      (hissues : ∀ st, t'.issues st = t.issues st)
      (hpending : ∀ v, t'.pending = some v → t.pending = some v)
      (huser : ∀ email u, t'.user = some (email, u) →
        t.user = some (email, u) ∨ u ∈ s.users ∧ u.email = email)
      (hnew : ∀ v email sess, t' ≠ .loggedIn v email sess)

theorem next_effect (hnext : h.next s x t = some (s', t')) : Effect h s x t s' t' := by
  revert hnext
  fun_cases Handler.next h s x t with
  | case3 => rintro ⟨⟩; exact .stored _ _ _ rfl rfl rfl
  | case6 state code param _ _ s₁ hget =>
    rintro ⟨⟩
    exact .dropped _ state _ rfl rfl (Prod.mk.inj hget).2.symm
  | case7 _ _ _ _ _ _ _ _ _ _ hprov =>
    rintro ⟨⟩; exact .taken _ _ rfl rfl ‹_› rfl (.inl ⟨rfl, hprov⟩)
  | case8 => rintro ⟨⟩; exact .taken _ _ rfl rfl ‹_› rfl (.inr ⟨_, rfl⟩)
  | case12 v email _ user hfind =>
    rintro ⟨⟩
    have hemail : user.email = email := by simpa using find?_some hfind
    refine .same rfl rfl (fun _ => rfl) (fun _ h => h) (fun e u hu => .inr ?_) nofun
    cases hu
    exact ⟨mem_of_find?_eq_some hfind, hemail⟩
  | case15 v email s₁ hcreate =>
    rintro ⟨⟩
    split at hcreate
    · cases hcreate
    · obtain ⟨hfresh, rfl⟩ := createUser_some hcreate
      exact .created v _ rfl rfl hfresh rfl
  | case19 v email user role roles hassign =>
    -- without an organization there is nothing to insert
    split at hassign <;> cases hassign
  | case21 => rintro ⟨⟩; exact .session _ _ _ _ rfl rfl ⟨rfl, rfl⟩ rfl
  | case9 | case11 | case14 | case20 =>
    rintro ⟨⟩; exact .same rfl rfl (fun _ => rfl) nofun nofun nofun
  | case22 | case23 | case24 => nofun
  | _ => rintro ⟨⟩; exact .same rfl rfl (fun _ => rfl) (fun _ h => h) (fun _ _ => .inl) nofun

/-! ### The states -/

def Shared.keeps (s : Shared) (st : String) : Nat :=
  if (s.states (stateKey st)).isSome then 1 else 0

/-- A `Login` has issued the state with the provider, at a time that `late` bounds. -/
def Issued (st provider : String) (late : Int → Prop) (t : Point) : Prop :=
  ∃ time, t = .redirected st provider time ∧ late time

structure Inv (p : Pool Shared Point) : Prop where
  counted : ∀ st, p.threads.countP (Point.uses st) + p.shared.keeps st ≤
    p.threads.countP (Point.issues st)
  stored : ∀ st e, p.shared.states (stateKey st) = some e →
    p.Some (Issued st e.val fun time => e.expireAt = some (time + stateTTL))
  verified : ∀ t ∈ p.threads, ∀ v, t.verified = some v →
    p.Some (Issued v.state v.stored fun time => v.time ≤ time + stateTTL)

theorem keeps_setState_of_ne (v : Option (Keyed String)) {st state : String} (hne : state ≠ st) :
    (s.setState state v).keeps st = s.keeps st := by
  unfold Shared.keeps
  rw [setState_of_ne s v hne]

theorem keeps_setState_le (st state : String) :
    (s.setState state none).keeps st ≤ s.keeps st := by
  by_cases hst : state = st
  · subst hst
    simp [Shared.keeps]
  · rw [keeps_setState_of_ne none hst]

/-- The uses of a state and its place in Redis are paid for by the issues. -/
theorem Effect.balance (he : Effect h s x t s' t') (st : String) :
    (t'.uses st).toNat + s'.keeps st + (t.issues st).toNat ≤
      (t.uses st).toNat + s.keeps st + (t'.issues st).toNat := by
  cases he with
  | stored c state provider hfirst hdone hs =>
    subst hfirst hdone hs
    by_cases hst : state = st
    · simp [Point.uses, Point.verified, Point.issues, storeState, Shared.keeps, hst]
    · simp [Point.uses, Point.verified, Point.issues, storeState, keeps_setState_of_ne _ hst]
  | taken c v hfirst hv hs =>
    obtain ⟨hlive, rfl⟩ := Prod.mk.inj hs
    obtain ⟨e, he, -⟩ := Option.map_eq_some_iff.mp hlive
    have huses : t'.uses st = (v.state == st) := by rw [Point.uses, hv]; rfl
    have hissues : t.issues st = false := by rw [hfirst]; rfl
    rw [huses, hissues]
    by_cases hst : v.state = st
    · -- the state was there, and is not any more
      subst hst
      have hkept : s.keeps v.state = 1 := by simp [Shared.keeps, (live_eq_some.mp he).1]
      have hgone : (s.setState v.state none).keeps v.state = 0 := by simp [Shared.keeps]
      simp only [hkept, hgone, BEq.rfl, Bool.toNat_true, Bool.toNat_false]
      omega
    · rw [keeps_setState_of_ne none hst, beq_false_of_ne hst]
      simp only [Bool.toNat_false]
      omega
  | dropped c state body hfirst hdone hs =>
    subst hfirst hdone hs
    have hle := keeps_setState_le (s := s) st state
    simpa [Point.uses, Point.verified, Point.issues] using hle
  | created v user hfirst hdone hfresh hs => subst hfirst hdone hs; exact Nat.le_refl _
  | session v email user sess hfirst hdone hsess hs => subst hfirst hdone hs; exact Nat.le_refl _
  | same hs hverified hissues =>
    rw [hs, Point.uses, hverified, hissues]
    exact Nat.le_refl _

theorem counted_next (hc : ∀ st, ts.countP (Point.uses st) + s.keeps st ≤
      ts.countP (Point.issues st)) (ht : ts[i]? = some t) (he : Effect h s x t s' t')
    (st : String) :
    (ts.set i t').countP (Point.uses st) + s'.keeps st ≤
      (ts.set i t').countP (Point.issues st) := by
  have huses := countP_set_add ht t' (Point.uses st)
  have hissues := countP_set_add ht t' (Point.issues st)
  have hold := hc st
  have hstep := he.balance st
  simp only [Bool.toNat, cond_eq_ite] at hstep
  omega

theorem some_issued (ht : ts[i]? = some t) (hnext : h.next s x t = some (s', t'))
    {st provider : String} {late : Int → Prop}
    (hsome : (⟨s, ts⟩ : Pool Shared Point).Some (Issued st provider late)) :
    (⟨s', ts.set i t'⟩ : Pool Shared Point).Some (Issued st provider late) := by
  refine (Pool.some_set_iff ht).mpr (((Pool.some_iff ht).mp hsome).imp_left ?_)
  rintro ⟨time, rfl, -⟩
  -- a request that has been answered does nothing more
  cases hnext

theorem Effect.states_cases (he : Effect h s x t s' t') {st : String} {e : Keyed String}
    (hst : s'.states (stateKey st) = some e) :
    s.states (stateKey st) = some e ∨
      t' = .redirected st e.val x.now ∧ e.expireAt = some (x.now + stateTTL) := by
  have hset : ∀ state, (s.setState state none).states (stateKey st) = some e →
      s.states (stateKey st) = some e := by
    intro state hst
    by_cases heq : state = st
    · rw [heq, setState_self] at hst
      cases hst
    · rwa [setState_of_ne s none heq] at hst
  cases he with
  | stored c state provider hfirst hdone hs =>
    subst hs
    by_cases heq : state = st
    · rw [heq, storeState, setState_self] at hst
      cases hst
      exact .inr ⟨heq ▸ hdone, rfl⟩
    · rw [storeState, setState_of_ne s _ heq] at hst
      exact .inl hst
  | taken c v hfirst hv hs => exact .inl (hset v.state ((Prod.mk.inj hs).2 ▸ hst))
  | dropped c state body hfirst hdone hs => exact .inl (hset state (hs ▸ hst))
  | created v user hfirst hdone hfresh hs => subst hs; exact .inl hst
  | session v email user sess hfirst hdone hsess hs => subst hs; exact .inl hst
  | same hs => subst hs; exact .inl hst

theorem Effect.verified_cases (he : Effect h s x t s' t') {v : Verified}
    (hv : t'.verified = some v) :
    t.verified = some v ∨ ∃ e, s.states (stateKey v.state) = some e ∧ e.val = v.stored ∧
      ∀ time ∈ e.expireAt, v.time ≤ time := by
  cases he with
  | stored c state provider hfirst hdone => subst hdone; cases hv
  | taken c v' hfirst hv' hs htime =>
    obtain rfl : v' = v := Option.some.inj (hv'.symm.trans hv)
    obtain ⟨e, he, hval⟩ := Option.map_eq_some_iff.mp (Prod.mk.inj hs).1
    obtain ⟨hstate, hlive⟩ := live_eq_some.mp he
    exact .inr ⟨e, hstate, hval, htime ▸ hlive⟩
  | dropped c state body hfirst hdone => subst hdone; cases hv
  | created v user hfirst hdone => subst hfirst hdone; exact .inl hv
  | session v email user sess hfirst hdone => subst hfirst hdone; exact .inl hv
  | same hs hverified => exact .inl (hverified ▸ hv)

theorem inv_next (hp : Inv ⟨s, ts⟩) (ht : ts[i]? = some t)
    (hnext : h.next s x t = some (s', t')) : Inv ⟨s', ts.set i t'⟩ := by
  have he := next_effect hnext
  refine ⟨fun st => counted_next hp.counted ht he st, fun st e hst => ?_, fun u hu v hv => ?_⟩
  · rcases he.states_cases hst with hold | hnew
    · exact some_issued ht hnext (hp.stored st e hold)
    · exact (Pool.some_set_iff (p := ⟨s, ts⟩) ht).mpr (.inl ⟨x.now, hnew⟩)
  · -- what the request had verified before, or has just found in Redis
    refine some_issued ht hnext ?_
    rcases mem_or_eq_of_mem_set hu with hu | rfl
    · exact hp.verified u hu v hv
    · rcases he.verified_cases hv with hold | ⟨e, hstate, hval, hlive⟩
      · exact hp.verified t (mem_of_getElem? ht) v hold
      · obtain ⟨j, w, hj, time, hw, hexpire⟩ := hp.stored v.state e hstate
        exact ⟨j, w, hj, time, hval ▸ hw, hlive _ hexpire⟩

theorem inv_run {p p' : Pool Shared Point} {ms : List (Move Call Input)} (hp : Inv p)
    (hrun : runFrom (Pool.step h.code) p ms = some p') : Inv p' := by
  refine runFrom_preserves (fun q m q' hq hstep => ?_) hp hrun
  cases m with
  | start c =>
    obtain rfl : _ = q' := Option.some.inj hstep
    have hcount : ∀ f : Point → Bool, f (.first c) = false →
        (q.threads ++ [Point.first c]).countP f = q.threads.countP f := by
      intro f hf
      simp [countP_append, hf]
    refine ⟨fun st => ?_, fun st e hst => Pool.some_concat_iff.mpr (.inr (hq.stored st e hst)),
      fun u hu v hv => Pool.some_concat_iff.mpr (.inr ?_)⟩
    · show (q.threads ++ [Point.first c]).countP _ + _ ≤ (q.threads ++ [Point.first c]).countP _
      rw [hcount _ rfl, hcount _ rfl]
      exact hq.counted st
    · rcases mem_append.mp hu with hu | hu
      · exact hq.verified u hu v hv
      · cases mem_singleton.mp hu
        cases hv
  | advance i x =>
    obtain ⟨t, s', t', ht, hnext, rfl⟩ := Pool.step_advance hstep
    exact inv_next hq ht hnext

/-- **A state gets one callback through.** The callbacks that got through with a state are at most
as many as the `Login`s that issued it, each within ten minutes of such a `Login`, which had stored
the provider that it found. -/
theorem state_used_once (h : Handler) (sessions : SessionDB) (users : List User)
    (userRoles : List Assignment) {ms : List (Move Call Input)} {p : Pool Shared Point}
    (hrun : runFrom (Pool.step h.code)
      (Pool.init { sessions := sessions, users := users, userRoles := userRoles }) ms = some p) :
    (∀ st, p.threads.countP (Point.uses st) ≤ p.threads.countP (Point.issues st)) ∧
      ∀ t ∈ p.threads, ∀ v, t.verified = some v →
        ∃ time, .redirected v.state v.stored time ∈ p.threads ∧ v.time ≤ time + stateTTL := by
  have hinit : Inv (Pool.init { sessions := sessions, users := users, userRoles := userRoles }) :=
    ⟨fun _ => Nat.le_refl _, nofun, nofun⟩
  have hinv := inv_run hinit hrun
  refine ⟨fun st => (Nat.le_add_right _ _).trans (hinv.counted st), fun t ht v hv => ?_⟩
  obtain ⟨i, u, hu, time, rfl, htime⟩ := hinv.verified t ht v hv
  exact ⟨time, mem_of_getElem? hu, htime⟩

/-- A first login with google. The state is sent a second time, and refused. -/
def firstLogin : Handler × List (Move Call Input) :=
  ({ providers := ["google"], store := Sessions.newStore 0,
      roles := [{ id := "r1", name := "developer" }] },
    [.start (.login ""), .advance 0 { now := 0, random := "st" },
      .start (.callback "st" "code" ""), .start (.callback "st" "code" ""),
      .advance 1 { now := 1 }, .advance 2 { now := 2 },
      .advance 1 { now := 3, profile := some "a@b" }, .advance 1 { now := 4 },
      .advance 1 { now := 5, random := "u1" }, .advance 1 { now := 6 }, .advance 1 { now := 7 },
      .advance 1 { now := 8, random := "se" }])

theorem firstLogin_run :
    ∃ p, runFrom (Pool.step firstLogin.1.code) (Pool.init {}) firstLogin.2 = some p ∧
      p.threads = [.redirected "st" "google" 0, .loggedIn ⟨"st", "google", "google", 1⟩ "a@b"
          (newSession (Sessions.newStore 0) 8 "se" "u1" "google"),
        .failed none 400 (errorBody "invalid oauth state")] :=
  ⟨_, rfl, rfl⟩

theorem state_used_once_replayed :
    ∃ p, runFrom (Pool.step firstLogin.1.code) (Pool.init {}) firstLogin.2 = some p ∧
      p.threads.countP (Point.uses "st") ≤ 1 := by
  obtain ⟨p, hrun, hthreads⟩ := firstLogin_run
  refine ⟨p, hrun, ((state_used_once firstLogin.1 _ _ _ hrun).1 "st").trans ?_⟩
  rw [hthreads]
  decide

/-! ### Users and sessions -/

/-- The tables and the sessions, with the rows of `user_roles` from the start. -/
structure Sound (h : Handler) (rows : List Assignment) (s : Shared) : Prop where
  emails : (s.users.map User.email).Nodup
  userRoles : s.userRoles = rows
  sessions : ∀ k e, s.sessions k = some e →
    e.val.provider ∈ h.providers ∧ ∃ u ∈ s.users, u.id = e.val.userID

structure Served (h : Handler) (s : Shared) (t : Point) : Prop where
  user : ∀ email u, t.user = some (email, u) → u ∈ s.users ∧ u.email = email
  pending : ∀ v, t.pending = some v → v.provider ∈ h.providers
  session : ∀ v email sess, t = .loggedIn v email sess →
    sess.provider = v.provider ∧ ∃ u ∈ s.users, u.email = email ∧ u.id = sess.userID

theorem Effect.users_subset (he : Effect h s x t s' t') {u : User} (hu : u ∈ s.users) :
    u ∈ s'.users := by
  cases he with
  | stored c state provider hfirst hdone hs => exact hs ▸ hu
  | taken c v hfirst hv hs => exact (Prod.mk.inj hs).2 ▸ hu
  | dropped c state body hfirst hdone hs => exact hs ▸ hu
  | created v user hfirst hdone hfresh hs => exact hs ▸ mem_append_left _ hu
  | session v email user sess hfirst hdone hsess hs => exact hs ▸ hu
  | same hs => exact hs ▸ hu

theorem sound_next {rows : List Assignment} (hs : Sound h rows s) (ht : Served h s t)
    (he : Effect h s x t s' t') : Sound h rows s' := by
  cases he with
  | stored c state provider hfirst hdone hs' => exact hs' ▸ ⟨hs.emails, hs.userRoles, hs.sessions⟩
  | taken c v hfirst hv hs' =>
    exact (Prod.mk.inj hs').2 ▸ ⟨hs.emails, hs.userRoles, hs.sessions⟩
  | dropped c state body hfirst hdone hs' => exact hs' ▸ ⟨hs.emails, hs.userRoles, hs.sessions⟩
  | created v user hfirst hdone hfresh hs' =>
    subst hs'
    refine ⟨?_, hs.userRoles, fun k e hk => ?_⟩
    · rw [map_append, nodup_append]
      refine ⟨hs.emails, nodup_singleton _, fun a ha b hb => ?_⟩
      obtain ⟨u, hu, rfl⟩ := mem_map.mp ha
      obtain rfl : b = user.email := mem_singleton.mp hb
      exact (hfresh u hu).2
    · obtain ⟨hprov, u, hu, hid⟩ := hs.sessions k e hk
      exact ⟨hprov, u, mem_append_left _ hu, hid⟩
  | session v email user sess hfirst hdone hsess hs' =>
    subst hs' hfirst
    refine ⟨hs.emails, hs.userRoles, fun k e hk => ?_⟩
    dsimp only [SessionDB.set] at hk
    by_cases hkey : k = Sessions.redisKey sess.id
    · rw [hkey, Function.update_self] at hk
      cases hk
      exact ⟨hsess.2 ▸ ht.pending v rfl, user, (ht.user email user rfl).1, hsess.1.symm⟩
    · rw [Function.update_of_ne hkey] at hk
      exact hs.sessions k e hk
  | same hs' => exact hs' ▸ hs

theorem served_outline (h : Handler) (rows : List Assignment) :
    Outline h.code (fun _ _ _ => True) 0 (Sound h rows) fun _ s t => Served h s t where
  start _ _ _ _ _ := ⟨nofun, nofun, nofun⟩
  inv _ _ _ _ _ _ hs ht _ hnext := sound_next hs ht (next_effect hnext)
  self i s x t s' t' hs ht _ hnext := by
    cases next_effect hnext with
    | stored c state provider hfirst hdone hs' => subst hdone; exact ⟨nofun, nofun, nofun⟩
    | taken c v hfirst hv hs' htime hdone =>
      rcases hdone with ⟨rfl, hprov⟩ | ⟨body, rfl⟩
      · refine ⟨nofun, fun v' hv' => ?_, nofun⟩
        cases hv'
        exact hprov
      · exact ⟨nofun, nofun, nofun⟩
    | dropped c state body hfirst hdone hs' => subst hdone; exact ⟨nofun, nofun, nofun⟩
    | created v user hfirst hdone hfresh hs' =>
      subst hfirst hdone hs'
      refine ⟨fun email u hu => ?_, ht.pending, nofun⟩
      cases hu
      exact ⟨mem_append_right _ (mem_singleton_self _), rfl⟩
    | session v email user sess hfirst hdone hsess hs' =>
      subst hfirst hdone hs'
      refine ⟨nofun, nofun, fun v' email' sess' hlog => ?_⟩
      cases hlog
      obtain ⟨hmem, hemail⟩ := ht.user email user rfl
      exact ⟨hsess.2, user, hmem, hemail, hsess.1.symm⟩
    | same hs' hverified hissues hpending huser hnew =>
      subst hs'
      exact ⟨fun email u hu => (huser email u hu).elim (ht.user email u) id,
        fun v hv => ht.pending v (hpending v hv),
        fun v email sess hlog => absurd hlog (hnew v email sess)⟩
  frame i s x t s' t' j u _ _ _ hnext hu := by
    have he := next_effect hnext
    refine ⟨fun email w hw => ?_, hu.pending, fun v email sess hlog => ?_⟩
    · exact ⟨he.users_subset (hu.user email w hw).1, (hu.user email w hw).2⟩
    · obtain ⟨hprov, w, hw, hrest⟩ := hu.session v email sess hlog
      exact ⟨hprov, w, he.users_subset hw, hrest⟩

/-- **A session is the user's of the email.** In every run emails stay distinct, every session names
a user of the table and a provider of the handler, and a callback that has logged in got the session
of the user with the provider's email. The rows of `user_roles` stay as they were. -/
theorem session_of_email {h : Handler} {s : Shared} {ms : List (Move Call Input)}
    {p : Pool Shared Point} (hemails : (s.users.map User.email).Nodup)
    (hsessions : ∀ k, s.sessions k = none)
    (hrun : runFrom (Pool.step h.code) (Pool.init s) ms = some p) :
    (p.shared.users.map User.email).Nodup ∧ p.shared.userRoles = s.userRoles ∧
      (∀ k e, p.shared.sessions k = some e →
        e.val.provider ∈ h.providers ∧ ∃ u ∈ p.shared.users, u.id = e.val.userID) ∧
      ∀ v email sess, .loggedIn v email sess ∈ p.threads →
        sess.provider = v.provider ∧
          ∃ u ∈ p.shared.users, u.email = email ∧ u.id = sess.userID := by
  have hsound : Sound h s.userRoles s :=
    ⟨hemails, rfl, fun k e hk => by rw [hsessions k] at hk; cases hk⟩
  have hp := (served_outline h s.userRoles).run_init hsound (Pool.along_true ..) hrun
  refine ⟨hp.inv.emails, hp.inv.userRoles, hp.inv.sessions, fun v email sess hmem => ?_⟩
  obtain ⟨i, hi⟩ := mem_iff_getElem?.mp hmem
  exact (hp.thread i _ hi).session v email sess rfl

theorem session_of_email_first :
    ∃ p, runFrom (Pool.step firstLogin.1.code) (Pool.init {}) firstLogin.2 = some p ∧
      p.shared.userRoles = [] ∧ ∃ u ∈ p.shared.users, u.email = "a@b" ∧ u.id = "u1" := by
  obtain ⟨p, hrun, hthreads⟩ := firstLogin_run
  obtain ⟨-, hroles, -, hlogged⟩ :=
    session_of_email (s := {}) nodup_nil (fun _ => rfl) hrun
  rw [hthreads] at hlogged
  exact ⟨p, hrun, hroles, (hlogged _ _ _ (.tail _ (.head _))).2⟩

end LlmRouter.Login
