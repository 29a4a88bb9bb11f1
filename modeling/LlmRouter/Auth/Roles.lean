import LlmRouter.Lib.Pool
import LlmRouter.Lib.Redis

/-!
# LlmRouter — roles

`rbac.Authorizer` loads the roles of a user and may cache them in Redis for five minutes;
`AdminRolesHandler.AssignRole` adds a role and asks its own authorizer to drop the copy. Which
authorizer has a cache, and whether the caller's `UserInfo` is injected on the admin routes, is
the `Wiring`. Without a caller `AssignRole` is a nil dereference.
-/

namespace LlmRouter.Rbac

open Lib Lib.Redis List

/-! ### Roles and permissions -/

def permAll : String := "*"

def permManageProviders : String := "providers:manage"

def permManageSystem : String := "system:manage"

structure UserRole where
  role : String
  orgID : String := ""
  teamID : String := ""
  permissions : List String := []
  deriving DecidableEq, Repr

def UserRole.hasPermission (ur : UserRole) (p : String) : Bool :=
  ur.permissions.any fun perm => decide (perm = permAll) || decide (perm = p)

structure UserInfo where
  id : String
  email : String := ""
  roles : List UserRole := []
  deriving DecidableEq, Repr

def UserInfo.hasPermission (u : UserInfo) (p orgID teamID : String) : Bool :=
  u.roles.any fun r =>
    (decide (r.orgID = "") || decide (r.orgID = orgID)) &&
    (decide (r.teamID = "") || decide (r.teamID = teamID)) && r.hasPermission p

structure RoleRecord where
  id : String
  orgID : Option String := none
  name : String
  permissions : List String := []
  deriving DecidableEq, Repr

/-- A row of `user_roles`. Its primary key is (user, role, organization). -/
structure Assignment where
  userID : String
  roleID : String
  orgID : String
  teamID : Option String := none
  deriving DecidableEq, Repr

/-- `RoleStore.GetRoleByName`: the organization's own role before a system role. -/
def getRoleByName (roles : List RoleRecord) (name : String) (orgID : Option String) :
    Option RoleRecord :=
  (roles.find? fun r => decide (r.name = name ∧ r.orgID.isSome = true ∧ r.orgID = orgID)) <|>
    roles.find? fun r => decide (r.name = name ∧ r.orgID = none)

def joined (a : Assignment) (r : RoleRecord) : UserRole :=
  { role := r.name, orgID := a.orgID, teamID := a.teamID.getD "", permissions := r.permissions }

def getUserRoles (roles : List RoleRecord) (userRoles : List Assignment) (userID : String) :
    List UserRole :=
  (userRoles.filter fun a => decide (a.userID = userID)).flatMap fun a =>
    (roles.filter fun r => decide (r.id = a.roleID)).map (joined a)

/-- `RoleStore.AssignRole`: `none` without an organization; nothing if the key is there already. -/
def assignRole (userRoles : List Assignment) (userID roleID : String)
    (orgID teamID : Option String) : Option (List Assignment) :=
  orgID.map fun org =>
    if userRoles.any fun a => decide (a.userID = userID ∧ a.roleID = roleID ∧ a.orgID = org)
    then userRoles
    else userRoles ++ [{ userID := userID, roleID := roleID, orgID := org, teamID := teamID }]

def mayAssign (caller : UserInfo) (role : RoleRecord) : Bool :=
  caller.hasPermission permAll "" "" ||
    !role.permissions.any fun p =>
      decide (p = permAll) || decide (p = permManageSystem) || decide (p = permManageProviders)

/-! ### Calls as threads -/

/-- Whether the two authorizers have Redis, and whether `UserInfo` is injected on the admin routes. -/
structure Wiring where
  sessionRedis : Bool
  adminRedis : Bool
  injectsCaller : Bool
  deriving DecidableEq, Repr

/-- `main.go`: Redis for sessions, none for the admin handler, `SessionMiddleware` on `/auth/me`
only. -/
def mainWiring : Wiring := { sessionRedis := true, adminRedis := false, injectsCaller := false }

structure AssignRequest where
  roleName : String
  orgID : String := ""
  teamID : String := ""

/-- A session is authorized, or an admin assigns a role; `user` is that of the admin's session. -/
inductive Call where
  | getUserInfo (userID : String)
  | assignRole (user : UserInfo) (userIDStr : String) (body : Option AssignRequest)

inductive Point where
  | first (c : Call)
  | loadRoles (userID : String)
  | toCache (userID : String) (ui : UserInfo) (seen : Nat)
  | gotten (userID : String) (ui : UserInfo)
  | assign (userID : String) (role : RoleRecord) (orgID teamID : Option String)
  | invalidate (userID : String) (role : RoleRecord)
  | assigned (userID : String) (role : RoleRecord)
  | failed (status : Nat)
  | panicked

/-- A cached `UserInfo`, and kept for the statements, how many rows `user_roles` had when it was
read. -/
structure Cached where
  ui : UserInfo
  seen : Nat
  deriving DecidableEq, Repr

structure Shared where
  userRoles : List Assignment
  redis : String → Option (Keyed Cached) := fun _ => none

def cacheKey (userID : String) : String := "rbac:user:" ++ userID

def cacheTTL : Int := 5 * 60 * 1000000000

/-- `NewAdminRolesHandler` and the session's authorizer over one role table;
`parseUUID` is `uuid.Parse`. -/
structure System where
  wiring : Wiring
  roles : List RoleRecord
  parseUUID : String → Option String

def System.startAssign (y : System) (user : UserInfo) (userIDStr : String)
    (body : Option AssignRequest) : Point :=
  match y.parseUUID userIDStr, body with
  | none, _ => .failed 400
  | some _, none => .failed 400
  | some userID, some req =>
    let orgID := if req.orgID ≠ "" then y.parseUUID req.orgID else none
    let teamID := if req.teamID ≠ "" then y.parseUUID req.teamID else none
    match getRoleByName y.roles req.roleName orgID with
    | none => .failed 404
    | some role =>
      match (if y.wiring.injectsCaller then some user else none) with
      | none => .panicked
      | some callerUI =>
        if mayAssign callerUI role then .assign userID role orgID teamID else .failed 403

def System.next (y : System) (s : Shared) (now : Int) : Point → Option (Shared × Point)
  | .first (.getUserInfo userID) =>
    if y.wiring.sessionRedis then
      match live now (s.redis (cacheKey userID)) with
      | some e => some (s, .gotten userID e.val.ui)
      | none => some (s, .loadRoles userID)
    else some (s, .loadRoles userID)
  | .loadRoles userID =>
    let ui : UserInfo := { id := userID, roles := getUserRoles y.roles s.userRoles userID }
    if y.wiring.sessionRedis then some (s, .toCache userID ui s.userRoles.length)
    else some (s, .gotten userID ui)
  | .toCache userID ui seen =>
    some ({ s with
        redis := Function.update s.redis (cacheKey ui.id)
          (some { val := ⟨ui, seen⟩, expireAt := some (now + cacheTTL) }) }, .gotten userID ui)
  | .first (.assignRole user userIDStr body) => some (s, y.startAssign user userIDStr body)
  | .assign userID role orgID teamID =>
    match assignRole s.userRoles userID role.id orgID teamID with
    | none => some (s, .failed 500)
    | some userRoles => some ({ s with userRoles := userRoles }, .invalidate userID role)
  | .invalidate userID role =>
    if y.wiring.adminRedis then
      some ({ s with redis := Function.update s.redis (cacheKey userID) none },
        .assigned userID role)
    else some (s, .assigned userID role)
  | .gotten _ _ | .assigned _ _ | .failed _ | .panicked => none

def System.code (y : System) : Code Shared Call Point Int where
  start := .first
  next := y.next

/-! ### What one operation keeps -/

/-- The store has the role for the user. -/
def System.Has (y : System) (s : Shared) (userID : String) (role : RoleRecord) : Prop :=
  ∃ ur ∈ getUserRoles y.roles s.userRoles userID, ur.role = role.name

variable {orgID : Option String} {role : RoleRecord} {userRoles : List Assignment} {userID : String}
  {s : Shared}

theorem mem_of_getRoleByName {roles : List RoleRecord} {name : String}
    (h : getRoleByName roles name orgID = some role) : role ∈ roles := by
  unfold getRoleByName at h
  cases hown : roles.find? fun r =>
      decide (r.name = name ∧ r.orgID.isSome = true ∧ r.orgID = orgID) with
  | some r =>
    rw [hown] at h
    cases h
    exact mem_of_find?_eq_some hown
  | none =>
    rw [hown] at h
    exact mem_of_find?_eq_some h

theorem assignRole_grows {userRoles' : List Assignment} {roleID : String} {teamID : Option String}
    (h : assignRole userRoles userID roleID orgID teamID = some userRoles') :
    userRoles <+: userRoles' := by
  obtain ⟨org, -, rfl⟩ := Option.map_eq_some_iff.mp h
  split
  · exact prefix_refl _
  · exact prefix_append _ _

theorem getUserRoles_of_mem {roles : List RoleRecord} {a : Assignment} (ha : a ∈ userRoles)
    (hrole : role ∈ roles) (hid : role.id = a.roleID) :
    joined a role ∈ getUserRoles roles userRoles a.userID := by
  refine mem_flatMap.mpr ⟨a, mem_filter.mpr ⟨ha, by simp⟩, ?_⟩
  exact mem_map.mpr ⟨role, mem_filter.mpr ⟨hrole, by simpa using hid⟩, rfl⟩

variable {y : System}

theorem has_assignRole {teamID : Option String} {userRoles' : List Assignment}
    (hrole : role ∈ y.roles)
    (h : assignRole s.userRoles userID role.id orgID teamID = some userRoles') :
    y.Has { s with userRoles := userRoles' } userID role := by
  obtain ⟨org, -, rfl⟩ := Option.map_eq_some_iff.mp h
  suffices ∃ a ∈ (if s.userRoles.any fun a =>
      decide (a.userID = userID ∧ a.roleID = role.id ∧ a.orgID = org) then s.userRoles
      else s.userRoles ++ [{ userID := userID, roleID := role.id, orgID := org, teamID := teamID }]),
      a.userID = userID ∧ a.roleID = role.id by
    obtain ⟨a, hmem, rfl, hrid⟩ := this
    exact ⟨joined a role, getUserRoles_of_mem hmem hrole hrid.symm, rfl⟩
  split
  case isTrue hany =>
    obtain ⟨a, hmem, ha⟩ := any_eq_true.mp hany
    have ha' := of_decide_eq_true ha
    exact ⟨a, hmem, ha'.1, ha'.2.1⟩
  case isFalse => exact ⟨_, mem_append_right _ mem_cons_self, rfl, rfl⟩

theorem System.Has.mono {s' : Shared} (hpre : s.userRoles <+: s'.userRoles)
    (h : y.Has s userID role) : y.Has s' userID role := by
  obtain ⟨ur, hmem, hname⟩ := h
  obtain ⟨a, ha, hur⟩ := mem_flatMap.mp hmem
  have hfilter := mem_filter.mp ha
  exact ⟨ur, mem_flatMap.mpr
    ⟨a, mem_filter.mpr ⟨hpre.subset hfilter.1, hfilter.2⟩, hur⟩, hname⟩

/-- Rows of `user_roles` are only ever added, at the end. -/
theorem userRoles_next {s' : Shared} {now : Int} {t t' : Point}
    (h : y.next s now t = some (s', t')) : s.userRoles <+: s'.userRoles := by
  revert h
  fun_cases System.next y s now t with
  | case9 u r orgID teamID userRoles' hassign => rintro ⟨⟩; exact assignRole_grows hassign
  | case12 | case13 | case14 | case15 => rintro ⟨⟩
  | _ => rintro ⟨⟩; exact prefix_refl _

/-! ### Cached copies -/

/-- The roles of the user as the first `seen` rows of the store give them. -/
def System.ReadAt (y : System) (s : Shared) (userID : String) (c : Cached) : Prop :=
  c.seen ≤ s.userRoles.length ∧
    c.ui.roles = getUserRoles y.roles (s.userRoles.take c.seen) userID

theorem System.ReadAt.mono {s' : Shared} {c : Cached}
    (hpre : s.userRoles <+: s'.userRoles) (h : y.ReadAt s userID c) : y.ReadAt s' userID c := by
  obtain ⟨rest, hrest⟩ := hpre
  refine ⟨h.1.trans ?_, ?_⟩
  · simp [← hrest]
  · rw [h.2, ← hrest, take_append_of_le_length h.1]

/-- The condition on an operation: a copy that is found was read after the last row that was
added for the user. -/
def HitOk (s : Shared) (now : Int) : Point → Prop
  | .first (.getUserInfo userID) =>
    ∀ e ∈ live now (s.redis (cacheKey userID)), ∀ a ∈ s.userRoles.drop e.val.seen,
      a.userID ≠ userID
  | _ => True

instance (s : Shared) (now : Int) : ∀ t, Decidable (HitOk s now t)
  | .first (.getUserInfo _) => inferInstanceAs (Decidable (∀ _ ∈ _, _))
  | .first (.assignRole _ _ _) | .loadRoles _ | .toCache _ _ _ | .gotten _ _ | .assign _ _ _ _
  | .invalidate _ _ | .assigned _ _ | .failed _ | .panicked => isTrue trivial

/-- Such a copy has the roles that the store has now. -/
theorem System.ReadAt.current {c : Cached} (h : y.ReadAt s userID c)
    (hnew : ∀ a ∈ s.userRoles.drop c.seen, a.userID ≠ userID) :
    c.ui.roles = getUserRoles y.roles s.userRoles userID := by
  have hnone : (s.userRoles.drop c.seen).filter (fun a => decide (a.userID = userID)) = [] :=
    filter_eq_nil_iff.mpr fun a ha => by simpa using hnew a ha
  have hsplit := congrArg (filter fun a => decide (a.userID = userID))
    (take_append_drop c.seen s.userRoles)
  rw [filter_append, hnone, append_nil] at hsplit
  rw [h.2, getUserRoles, getUserRoles, hsplit]

section Late

variable (y : System) (userID : String) (role : RoleRecord) (late : Nat → Prop)

/-- What is known of a call where it stands. A `late` authorization of the user
has the role. -/
def Reads (i : Nat) (s : Shared) : Point → Prop
  | .assign _ r _ _ => r ∈ y.roles
  | .invalidate u r => y.Has s u r
  | .assigned u r => y.Has s u r
  | .toCache u ui seen => ui.id = u ∧ y.ReadAt s u ⟨ui, seen⟩ ∧
    (late i → u = userID → ∃ ur ∈ ui.roles, ur.role = role.name)
  | .gotten u ui => late i → u = userID → ∃ ur ∈ ui.roles, ur.role = role.name
  | _ => True

structure Inv (s : Shared) : Prop where
  cached : ∀ u e, s.redis (cacheKey u) = some e → y.ReadAt s u e.val
  stored : ∀ i, late i → y.Has s userID role

theorem cacheKey_injective : Function.Injective cacheKey := by
  intro u u' h
  simpa [cacheKey, String.ext_iff] using h

theorem reads_startAssign (user : UserInfo) (userIDStr : String) (body : Option AssignRequest)
    (i : Nat) (s : Shared) :
    Reads y userID role late i s (y.startAssign user userIDStr body) := by
  fun_cases System.startAssign y user userIDStr body with
  | case5 _ _ _ _ _ r hr => exact mem_of_getRoleByName hr
  | _ => trivial

variable {y userID role late} {i : Nat} {s s' : Shared} {now : Int} {t t' : Point}

theorem Reads.mono (hpre : s.userRoles <+: s'.userRoles) (h : Reads y userID role late i s t) :
    Reads y userID role late i s' t := by
  cases t with
  | invalidate u r | assigned u r => exact h.mono hpre
  | toCache u ui seen => exact ⟨h.1, h.2.1.mono hpre, h.2.2⟩
  | _ => exact h

theorem Inv.cache (hs : Inv y userID role late s) {u : String} {ui : UserInfo} {seen : Nat}
    (hread : y.ReadAt s u ⟨ui, seen⟩) (expireAt : Option Int) :
    Inv y userID role late
      { s with redis := Function.update s.redis (cacheKey u) (some ⟨⟨ui, seen⟩, expireAt⟩) } := by
  refine ⟨fun u' e he => ?_, hs.stored⟩
  change Function.update s.redis (cacheKey u) _ (cacheKey u') = some e at he
  rcases eq_or_ne u' u with rfl | hne
  · rw [Function.update_self] at he
    obtain rfl := Option.some.inj he
    exact hread
  · rw [Function.update_of_ne (cacheKey_injective.ne hne)] at he
    exact hs.cached u' e he

theorem inv_next (hs : Inv y userID role late s) (ht : Reads y userID role late i s t)
    (h : y.next s now t = some (s', t')) : Inv y userID role late s' := by
  have hpre := userRoles_next h
  revert h
  fun_cases System.next y s now t with
  | case6 u ui seen =>
    rintro ⟨⟩
    obtain ⟨rfl, hread, -⟩ := ht
    exact hs.cache hread _
  | case9 u r orgID teamID userRoles' hassign =>
    rintro ⟨⟩
    exact ⟨fun u e he => (hs.cached u e he).mono (assignRole_grows hassign),
      fun i hi => (hs.stored i hi).mono (assignRole_grows hassign)⟩
  | case10 u r =>
    rintro ⟨⟩
    refine ⟨fun u' e he => ?_, hs.stored⟩
    change Function.update s.redis (cacheKey u) none (cacheKey u') = some e at he
    rcases eq_or_ne u' u with rfl | hne
    · rw [Function.update_self] at he
      cases he
    · rw [Function.update_of_ne (cacheKey_injective.ne hne)] at he
      exact hs.cached u' e he
  | case12 | case13 | case14 | case15 => rintro ⟨⟩
  | _ => rintro ⟨⟩; exact hs

theorem reads_next (hs : Inv y userID role late s) (ht : Reads y userID role late i s t)
    (hok : late i → HitOk s now t) (h : y.next s now t = some (s', t')) :
    Reads y userID role late i s' t' := by
  revert h
  fun_cases System.next y s now t with
  | case1 u _ e he =>
    rintro ⟨⟩
    rintro hi rfl
    -- a hit: nothing was added for the user since the copy was read
    have hread := hs.cached u e (live_eq_some.mp he).1
    rw [hread.current (hok hi e he)]
    exact hs.stored i hi
  | case2 | case3 | case8 => rintro ⟨⟩; trivial
  | case4 u =>
    rintro ⟨⟩
    refine ⟨rfl, ⟨le_rfl, by rw [take_length]⟩, ?_⟩
    rintro hi rfl
    exact hs.stored i hi
  | case5 u =>
    rintro ⟨⟩
    rintro hi rfl
    exact hs.stored i hi
  | case6 u ui seen => rintro ⟨⟩; exact ht.2.2
  | case7 => rintro ⟨⟩; exact reads_startAssign y userID role late _ _ _ _ _
  | case9 u r orgID teamID userRoles' hassign => rintro ⟨⟩; exact has_assignRole ht hassign
  | case10 | case11 => rintro ⟨⟩; exact ht
  | case12 | case13 | case14 | case15 => rintro ⟨⟩

/-- The outline of the calls: late ones read the role. -/
theorem reads_outline (y : System) (userID : String) (role : RoleRecord) (late : Nat → Prop)
    {ok : Shared → Int → Point → Prop}
    (hok : ∀ i, late i → ∀ s now t, ok s now t → HitOk s now t) (n : Nat) :
    Outline y.code ok n (Inv y userID role late) (Reads y userID role late) where
  start _ _ _ _ _ := trivial
  inv _ _ _ _ _ _ hs ht _ h := inv_next hs ht h
  self i _ _ _ _ _ hs ht hstep h := reads_next hs ht (fun hi => hok i hi _ _ _ hstep) h
  frame _ _ _ _ _ _ _ _ _ _ _ h hu := hu.mono (userRoles_next h)

end Late

/-! ### When role changes are visible -/

/-- **Role changes are visible.** Once `AssignRole` has returned 200, every later `GetUserInfo`
includes the role, as long as no authorization finds a copy that was read before a row was added for
its user. -/
theorem roles_visible {y : System} {ms₁ ms₂ : List (Move Call Int)} {p₁ p₂ : Pool Shared Point}
    {d : Nat} (hrun₁ : runFrom (Pool.step y.code) (Pool.init { userRoles := userRoles }) ms₁ = some p₁)
    (hd : p₁.threads[d]? = some (.assigned userID role))
    (hok : AlongFrom (Pool.step y.code) (Pool.Ok HitOk) p₁ ms₂)
    (hrun₂ : runFrom (Pool.step y.code) p₁ ms₂ = some p₂) :
    ∀ i ui, p₁.threads.length ≤ i → p₂.threads[i]? = some (.gotten userID ui) →
      ∃ ur ∈ ui.roles, ur.role = role.name := by
  have h₁ := (reads_outline y userID role (fun _ => False) nofun 0).run_init ⟨fun _ _ h => (by cases h), nofun⟩ (Pool.along_true _ _ _) hrun₁
  have hstart : p₁.Holds p₁.threads.length (Inv y userID role (p₁.threads.length ≤ ·))
      (Reads y userID role (p₁.threads.length ≤ ·)) := by
    refine h₁.late ⟨h₁.inv.cached, fun _ _ => h₁.thread d _ hd⟩ fun j t hlt ht => ?_
    -- a call that has started before is not late
    cases t with
    | gotten u ui => exact fun hl => absurd hl (by omega)
    | toCache u ui seen => exact ⟨ht.1, ht.2.1, fun hl => absurd hl (by omega)⟩
    | _ => exact ht
  have h₂ := (reads_outline y userID role (p₁.threads.length ≤ ·) (fun _ _ _ _ _ h => h) _).run hstart hok hrun₂
  exact fun i ui hi hgot => h₂.thread i _ hgot hi rfl

def user1 : String := "00000000-0000-0000-0000-000000000001"

def org1 : String := "00000000-0000-0000-0000-000000000002"

def developer : RoleRecord :=
  { id := "00000000-0000-0000-0000-00000000000d", name := "developer",
    permissions := ["keys:read", "usage:read"] }

def admin : UserInfo := { id := "00000000-0000-0000-0000-00000000000a" }

/-- The parts of `main.go`, with the caller in the context. `uuid.Parse` takes texts of 36
characters. -/
def callerSystem : System where
  wiring := { mainWiring with injectsCaller := true }
  roles := [developer, { id := "00000000-0000-0000-0000-000000000009", name := "modeller",
                         permissions := ["models:manage"] }]
  parseUUID := fun text => if text.toList.length = 36 then some text else none

def assignDeveloper (i : Nat) : List (Move Call Int) :=
  [.start (.assignRole admin user1 (some { roleName := "developer", orgID := org1 })),
    .advance i 3, .advance i 4, .advance i 5]

/-- The user is authorized after the assignment and once more, from the cached copy. -/
theorem roles_visible_twice :
    ∃ p₁ p₂, runFrom (Pool.step callerSystem.code) (Pool.init { userRoles := [] })
        (assignDeveloper 0) = some p₁ ∧
      p₁.threads[0]? = some (.assigned user1 developer) ∧
      runFrom (Pool.step callerSystem.code) p₁
        [.start (.getUserInfo user1), .advance 1 6, .advance 1 7, .advance 1 8,
          .start (.getUserInfo user1), .advance 2 9] = some p₂ ∧
      ∃ ui, p₂.threads[2]? = some (.gotten user1 ui) ∧ ∃ ur ∈ ui.roles, ur.role = developer.name := by
  refine ⟨?p₁, ?p₂, ?hrun₁, ?hd, ?hrun₂, ?ui, ?hgot,
    roles_visible (d := 0) ?hrun₁ ?hd ?hok ?hrun₂ 2 ?ui ?hlate ?hgot⟩
  case hrun₁ | hd | hrun₂ | hgot => rfl
  case hok | hlate => decide

/-- The role is assigned after an authorization: for five minutes the copy without it is found. -/
theorem cached_roles_hide_assignment :
    ∃ p₁ p₂, runFrom (Pool.step callerSystem.code) (Pool.init { userRoles := [] })
        ([.start (.getUserInfo user1), .advance 0 0, .advance 0 1, .advance 0 2] ++
          assignDeveloper 1) = some p₁ ∧
      p₁.threads[1]? = some (.assigned user1 developer) ∧
      runFrom (Pool.step callerSystem.code) p₁
        [.start (.getUserInfo user1), .advance 2 6] = some p₂ ∧
      ∃ ui, p₂.threads[2]? = some (.gotten user1 ui) ∧ ¬ ∃ ur ∈ ui.roles, ur.role = developer.name :=
  ⟨_, _, rfl, rfl, rfl, _, rfl, by decide⟩

/-! ### What an assignment grants -/

def permManageModels : String := "models:manage"

def superAdminOnly : List String :=
  [permManageProviders, permManageModels, permManageSystem, permAll]

def System.Names (y : System) (text : String) (scope : Option String) : Prop :=
  (text = "" ∧ scope = none) ∨ (text ≠ "" ∧ ∃ id, y.parseUUID text = some id ∧ scope = some id)

structure System.Assigned (y : System) (caller : UserInfo) (req : AssignRequest) (userID : String)
    (role : RoleRecord) (userRoles : List Assignment) : Prop where
  stored : ∃ a ∈ userRoles, a.userID = userID ∧ a.roleID = role.id ∧
    y.Names req.orgID (some a.orgID)
  scope : ∀ a ∈ userRoles, a.userID = userID → a.roleID = role.id →
    y.Names req.orgID (some a.orgID) → y.Names req.teamID a.teamID
  granted : caller.hasPermission permAll "" "" = true ∨
    ∀ p ∈ superAdminOnly, p ∉ role.permissions

variable {y : System} {caller : UserInfo} {userIDStr : String} {req : AssignRequest}
  {teamID : Option String} {userRoles' : List Assignment}

theorem startAssign_eq_assign
    (h : y.startAssign caller userIDStr (some req) = .assign userID role orgID teamID) :
    orgID = (if req.orgID ≠ "" then y.parseUUID req.orgID else none) ∧
      teamID = (if req.teamID ≠ "" then y.parseUUID req.teamID else none) ∧
      mayAssign caller role = true := by
  generalize hbody : some req = body at h
  revert h
  fun_cases System.startAssign y caller userIDStr body with
  | case5 _ _ _ _ _ _ _ callerUI hcaller hmay =>
    cases hbody
    intro h
    obtain ⟨-, rfl, rfl, rfl⟩ := Point.assign.inj h
    obtain ⟨-, rfl⟩ : _ ∧ caller = callerUI := by simpa using hcaller
    exact ⟨rfl, rfl, hmay⟩
  | _ => rintro ⟨⟩

theorem assignRole_spec {org roleID : String}
    (h : assignRole userRoles userID roleID (some org) teamID = some userRoles') :
    (∃ a ∈ userRoles', a.userID = userID ∧ a.roleID = roleID ∧ a.orgID = org) ∧
      ((∀ a ∈ userRoles', a.userID = userID → a.roleID = roleID → a.orgID = org →
        a.teamID = teamID) ↔
        ∀ a ∈ userRoles, a.userID = userID → a.roleID = roleID → a.orgID = org →
          a.teamID = teamID) := by
  obtain rfl := Option.some.inj h
  dsimp only
  split
  case isTrue hany =>
    obtain ⟨a, hmem, ha⟩ := any_eq_true.mp hany
    exact ⟨⟨a, hmem, of_decide_eq_true ha⟩, Iff.rfl⟩
  case isFalse =>
    refine ⟨⟨_, mem_append_right _ mem_cons_self, rfl, rfl, rfl⟩, ?_⟩
    simp only [mem_append, mem_singleton]
    constructor
    · exact fun hall a ha => hall a (.inl ha)
    · rintro hall a (ha | rfl)
      · exact hall a ha
      · exact fun _ _ _ => rfl

theorem mayAssign_iff_granted (hmay : mayAssign caller role = true) :
    (caller.hasPermission permAll "" "" = true ∨ ∀ p ∈ superAdminOnly, p ∉ role.permissions) ↔
      caller.hasPermission permAll "" "" = true ∨ permManageModels ∉ role.permissions := by
  rcases (Bool.or_eq_true _ _).mp hmay with hall | hnone
  · exact iff_of_true (.inl hall) (.inl hall)
  · refine or_congr_right ⟨fun h => h _ (by decide), fun hmodels p hp hmem => ?_⟩
    have hguard : ¬ (p = permAll ∨ p = permManageSystem ∨ p = permManageProviders) := by
      simp only [Bool.not_eq_true', any_eq_false] at hnone
      simpa [or_assoc] using hnone p hmem
    simp only [superAdminOnly, mem_cons, not_mem_nil, or_false] at hp
    rcases hp with rfl | rfl | rfl | rfl
    · exact hguard (.inr (.inr rfl))
    · exact hmodels hmem
    · exact hguard (.inr (.inl rfl))
    · exact hguard (.inl rfl)

/-- **Role assignment.** After an `AssignRole` that succeeds, the row has the scope that was asked
for and the role grants nothing beyond the caller's rights, iff no team is named that is no UUID,
the user did not have the role for another team, and the role does not manage models beyond the
caller. -/
theorem assigned_iff
    (hstart : y.startAssign caller userIDStr (some req) = .assign userID role orgID teamID)
    (hstored : assignRole s.userRoles userID role.id orgID teamID = some userRoles') :
    y.Assigned caller req userID role userRoles' ↔
      (req.teamID = "" ∨ (y.parseUUID req.teamID).isSome) ∧
      (∀ a ∈ s.userRoles, a.userID = userID → a.roleID = role.id → some a.orgID = orgID →
        a.teamID = teamID) ∧
      (caller.hasPermission permAll "" "" = true ∨ permManageModels ∉ role.permissions) := by
  obtain ⟨horgID, hteamID, hmay⟩ := startAssign_eq_assign hstart
  -- without an organization nothing would have been stored
  obtain ⟨org, rfl⟩ : ∃ org, orgID = some org := by
    obtain ⟨org, horg, -⟩ := Option.map_eq_some_iff.mp hstored
    exact ⟨org, horg⟩
  have hnamed : ∀ id, y.Names req.orgID (some id) ↔ id = org := by
    intro id
    by_cases hempty : req.orgID = ""
    · simp [hempty] at horgID
    · rw [if_pos hempty] at horgID
      simp [System.Names, hempty, ← horgID, eq_comm]
  obtain ⟨⟨a, ha, huser, hrole, horg⟩, hscope⟩ := assignRole_spec hstored
  have hteam : (∀ a ∈ userRoles', a.userID = userID → a.roleID = role.id → a.orgID = org →
      y.Names req.teamID a.teamID) ↔ (req.teamID = "" ∨ (y.parseUUID req.teamID).isSome) ∧
        ∀ a ∈ userRoles', a.userID = userID → a.roleID = role.id → a.orgID = org →
          a.teamID = teamID := by
    by_cases hempty : req.teamID = ""
    · simp [System.Names, hempty, hteamID]
    · rw [if_pos hempty] at hteamID
      cases hparse : y.parseUUID req.teamID with
      | none =>
        refine iff_of_false (fun h => ?_) (fun h => ?_)
        · simpa [System.Names, hempty, hparse] using h a ha huser hrole horg
        · simp [hempty] at h
      | some id => simp [System.Names, hempty, hparse, hteamID]
  constructor
  · intro h
    have hall := hteam.mp fun a ha huser hrole horg =>
      h.scope a ha huser hrole ((hnamed _).mpr horg)
    refine ⟨hall.1, fun a ha huser hrole horg => ?_, (mayAssign_iff_granted hmay).mp h.granted⟩
    exact hscope.mp hall.2 a ha huser hrole (Option.some.inj horg)
  · rintro ⟨hvalid, hfree, hgranted⟩
    refine ⟨⟨a, ha, huser, hrole, (hnamed _).mpr horg⟩, fun a ha huser hrole horg => ?_,
      (mayAssign_iff_granted hmay).mpr hgranted⟩
    have hsame := hscope.mpr fun a ha huser hrole horg =>
      hfree a ha huser hrole (congrArg some horg)
    exact hteam.mpr ⟨hvalid, hsame⟩ a ha huser hrole ((hnamed _).mp horg)

theorem assigned_developer :
    callerSystem.Assigned admin { roleName := "developer", orgID := org1 } user1
      developer [{ userID := user1, roleID := developer.id, orgID := org1 }] := by
  have hstart : callerSystem.startAssign admin user1
      (some { roleName := "developer", orgID := org1 }) =
        .assign user1 developer (some org1) none := rfl
  exact (assigned_iff (s := { userRoles := [] }) hstart rfl).mpr
    ⟨.inl rfl, by simp, .inr (by decide)⟩

/-- A team that is no UUID is dropped, so the role is for the whole organization; and it may manage
models. -/
theorem scope_is_widened :
    let req : AssignRequest := { roleName := "modeller", orgID := org1, teamID := "blue" }
    ∃ role, callerSystem.startAssign admin user1 (some req) =
        .assign user1 role (some org1) none ∧
      assignRole [] user1 role.id (some org1) none =
        some [{ userID := user1, roleID := role.id, orgID := org1 }] ∧
      permManageModels ∈ role.permissions ∧
      ¬ callerSystem.Assigned admin req user1 role
        [{ userID := user1, roleID := role.id, orgID := org1 }] := by
  refine ⟨_, rfl, rfl, by decide, fun h => ?_⟩
  rcases h.granted with hcaller | hnone
  · cases hcaller
  · exact hnone permManageModels (by decide) (by decide)

end LlmRouter.Rbac
