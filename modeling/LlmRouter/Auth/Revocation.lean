import LlmRouter.Auth.KeyStore
import LlmRouter.Lib.Pool
import LlmRouter.Lib.Redis

/-!
# LlmRouter — revoking a key

Runs of `VirtualKeyMiddleware` and admin `Deactivate` calls as threads over the key table and the
key cache. A run that has read the row before the `Deactivate` and fills the cache after it puts
an active copy back; `revocation_final` says that nothing else does.
-/

namespace LlmRouter.Auth

open Gateway Lib Lib.Redis List

def cacheKey (keyHash : String) : String := "vk:auth:" ++ keyHash

theorem cacheKey_injective : Function.Injective cacheKey := by
  intro a b h
  simpa [cacheKey] using h

def cacheTTL : Int := 60 * 1000000000

abbrev KeyCache := String → Option (Keyed VirtualKey)

def KeyCache.get (c : KeyCache) (now : Int) (keyHash : String) : Option VirtualKey :=
  (live now (c (cacheKey keyHash))).map Keyed.val

def KeyCache.set (c : KeyCache) (now : Int) (keyHash : String) (key : VirtualKey) : KeyCache :=
  Function.update c (cacheKey keyHash) (some { val := key, expireAt := some (now + cacheTTL) })

def KeyCache.delete (c : KeyCache) (keyHash : String) : KeyCache :=
  Function.update c (cacheKey keyHash) none

theorem KeyCache.get_eq_some {c : KeyCache} {now : Int} {keyHash : String} {key : VirtualKey}
    (h : c.get now keyHash = some key) : ∃ e, c (cacheKey keyHash) = some e ∧ e.val = key := by
  obtain ⟨e, he, hval⟩ := Option.map_eq_some_iff.mp h
  exact ⟨e, (live_eq_some.mp he).1, hval⟩

namespace Revocation

/-! ### Calls as threads -/

/-- The table and the cache. The ids whose cached copies a `Deactivate` has
deleted are kept for the statements. -/
structure Shared where
  table : KeyTable
  cache : KeyCache := fun _ => none
  revoked : List String := []

/-- A request to authenticate, or an admin's `Deactivate` of a key. -/
inductive Call where
  | request (r : Request)
  | deactivate (id : String)

inductive Point where
  | first (c : Call)
  | lookup (r : Request)
  | cacheSet (r : Request) (key : VirtualKey)
  | check (r : Request) (key : VirtualKey)
  | answered (r : Request) (result : Except Response Request)
  | dbDeactivate (id keyHash : String)
  | cacheDelete (id keyHash : String)
  | deactivated (id : String)
  | notFound (id : String)

def validated (now : Int) (r : Request) (key : VirtualKey) : Except Response Request :=
  match key.isValid now with
  | .error .keyExpired => .error (writeAuthError "API key has expired")
  | .error _ => .error (writeAuthError "API key is inactive")
  | .ok _ => .ok { r with virtualKey := some key }

variable (sha256Hex : List Char → String)

def tokenHash (r : Request) : String := sha256Hex (bearerToken r).toList

def next (s : Shared) (now : Int) : Point → Option (Shared × Point)
  | .first (.request r) =>
    if bearerToken r = "" then
      some (s, .answered r (.error (writeAuthError "missing or malformed Authorization header")))
    else
      match s.cache.get now (tokenHash sha256Hex r) with
      | some key => some (s, .check r key)
      | none => some (s, .lookup r)
  | .lookup r =>
    match s.table.getByHash (lookupPrefix (bearerToken r)) (tokenHash sha256Hex r) with
    | .ok row => some (s, .cacheSet r row.key)
    | .error .keyNotFound => some (s, .answered r (.error (writeAuthError "invalid API key")))
    | .error (.other _) => some (s, .answered r (.error (writeAuthError "authentication error")))
  | .cacheSet r key =>
    some ({ s with cache := s.cache.set now (tokenHash sha256Hex r) key }, .check r key)
  | .check r key => some (s, .answered r (validated now r key))
  | .first (.deactivate id) =>
    match s.table.getByID id with
    | .ok row => some (s, .dbDeactivate id row.keyHash)
    | .error _ => some (s, .notFound id)
  | .dbDeactivate id keyHash =>
    some ({ s with table := s.table.deactivate id }, .cacheDelete id keyHash)
  | .cacheDelete id keyHash =>
    some ({ s with cache := s.cache.delete keyHash, revoked := id :: s.revoked },
      .deactivated id)
  | .answered _ _ | .deactivated _ | .notFound _ => none

/-- The calls of `VirtualKeyMiddleware` and `AdminKeysHandler.Deactivate`. -/
def code : Code Shared Call Point Int where
  start := .first
  next := next sha256Hex

def Shared.middleware (s : Shared) (now : Int) : VirtualKeyMiddleware where
  sha256Hex := sha256Hex
  cacheGet h := .ok (s.cache.get now h)
  getByHash p h := (s.table.getByHash p h).map KeyRow.key

variable {r : Request} {s s' : Shared} {now : Int} {key : VirtualKey} {t t' : Point}

theorem authenticate_eq (m : VirtualKeyMiddleware) (now : Int) (htoken : bearerToken r ≠ "") :
    m.authenticate now r = (m.findKey (bearerToken r)).bind (validated now r) := by
  unfold VirtualKeyMiddleware.authenticate
  simp only [htoken, if_false]
  cases m.findKey (bearerToken r) with
  | error resp => rfl
  | ok key => rfl

theorem findKey_hit (h : s.cache.get now (tokenHash sha256Hex r) = some key) :
    (s.middleware sha256Hex now).findKey (bearerToken r) = .ok key := by
  have hcache : (s.middleware sha256Hex now).cacheGet
      ((s.middleware sha256Hex now).hashKey (bearerToken r)) = .ok (some key) :=
    congrArg Except.ok h
  rw [VirtualKeyMiddleware.findKey, hcache]

theorem findKey_miss (h : s.cache.get now (tokenHash sha256Hex r) = none) :
    (s.middleware sha256Hex now).findKey (bearerToken r) =
      match s.table.getByHash (lookupPrefix (bearerToken r)) (tokenHash sha256Hex r) with
      | .ok row => .ok row.key
      | .error .keyNotFound => .error (writeAuthError "invalid API key")
      | .error (.other _) => .error (writeAuthError "authentication error") := by
  have hcache : (s.middleware sha256Hex now).cacheGet
      ((s.middleware sha256Hex now).hashKey (bearerToken r)) = .ok none :=
    congrArg Except.ok h
  have hstore : ∀ p h, (s.middleware sha256Hex now).getByHash p h =
      (s.table.getByHash p h).map KeyRow.key := fun _ _ => rfl
  have hhash : (s.middleware sha256Hex now).hashKey (bearerToken r) = tokenHash sha256Hex r := rfl
  rw [VirtualKeyMiddleware.findKey, hcache]
  simp only [hstore, hhash]
  cases s.table.getByHash _ (tokenHash sha256Hex r) with
  | ok row => rfl
  | error e => cases e <;> rfl

/-- Without others in between, the operations make up `authenticate`. -/
theorem request_alone (s : Shared) (r : Request) (now : Int) :
    ∃ n s', (code sha256Hex).alone s (.first (.request r)) (replicate n now) =
      some (s', .answered r ((s.middleware sha256Hex now).authenticate now r)) := by
  by_cases htoken : bearerToken r = ""
  · refine ⟨1, s, ?_⟩
    simp [Code.alone, code, next, VirtualKeyMiddleware.authenticate, htoken, throw, throwThe,
      MonadExceptOf.throw, bind, Except.bind]
  rw [authenticate_eq _ _ htoken]
  cases hget : s.cache.get now (tokenHash sha256Hex r) with
  | some key =>
    -- a hit: one read, then the check
    refine ⟨2, s, ?_⟩
    rw [findKey_hit sha256Hex hget]
    simp [Code.alone, code, next, htoken, hget, replicate, Except.bind]
  | none =>
    rw [findKey_miss sha256Hex hget]
    cases hrow : s.table.getByHash (lookupPrefix (bearerToken r)) (tokenHash sha256Hex r) with
    | ok row =>
      -- a miss: read, lookup, fill, check
      refine ⟨4, { s with cache := s.cache.set now (tokenHash sha256Hex r) row.key }, ?_⟩
      simp [Code.alone, code, next, htoken, hget, hrow, replicate, Except.bind]
    | error e =>
      refine ⟨2, s, ?_⟩
      cases e <;> simp [Code.alone, code, next, htoken, hget, hrow, replicate, Except.bind]

/-! ### What one operation keeps -/

def Shared.Owns (s : Shared) (id keyHash : String) : Prop :=
  ∃ row, s.table.getByID id = .ok row ∧ row.keyHash = keyHash

def Shared.Inactive (s : Shared) (id : String) : Prop :=
  ∀ row, s.table.getByID id = .ok row → row.key.isActive = false

theorem Shared.Owns.unique {id h h' : String} (hown : s.Owns id h) (hown' : s.Owns id h') :
    h = h' := by
  obtain ⟨row, hrow, rfl⟩ := hown
  obtain ⟨row', hrow', rfl⟩ := hown'
  rw [hrow] at hrow'
  cases hrow'
  rfl

structure Shared.Le (s s' : Shared) : Prop where
  owns : ∀ {id h}, s.Owns id h → s'.Owns id h
  inactive : ∀ {id}, s.Inactive id → s'.Inactive id
  revoked : ∀ {id}, id ∈ s.revoked → id ∈ s'.revoked

/-- A `Deactivate` makes no key active and gives it to nobody else. -/
theorem le_deactivate (s : Shared) (id : String) :
    s.Le { s with table := s.table.deactivate id } where
  owns := by
    rintro id' h ⟨row, hrow, rfl⟩
    refine ⟨_, KeyTable.getByID_modify_of_ok _ hrow, ?_⟩
    split <;> rfl
  inactive := by
    intro id' hid' row' hrow'
    obtain ⟨row, hrow, rfl⟩ := KeyTable.getByID_modify hrow'
    split
    · rfl
    · exact hid' row hrow
  revoked h := h

theorem inactive_deactivate (s : Shared) (id : String) :
    ({ s with table := s.table.deactivate id } : Shared).Inactive id := by
  intro row' hrow'
  obtain ⟨row, -, rfl⟩ := KeyTable.getByID_modify hrow'
  rw [if_pos rfl]
  rfl

theorem next_le (h : next sha256Hex s now t = some (s', t')) : s.Le s' := by
  revert h
  fun_cases next sha256Hex s now t with
  | case11 id' hash => rintro ⟨⟩; exact le_deactivate s id'
  | case12 id' hash => rintro ⟨⟩; exact ⟨id, id, mem_cons_of_mem _⟩
  | case13 | case14 | case15 => rintro ⟨⟩
  | _ => rintro ⟨⟩; exact ⟨id, id, id⟩

structure Shared.Coherent (s : Shared) : Prop where
  cached : ∀ h e, s.cache (cacheKey h) = some e → s.Owns e.val.id h
  inactive : ∀ id ∈ s.revoked, s.Inactive id
  copies : ∀ id ∈ s.revoked, ∀ h e, s.cache (cacheKey h) = some e → e.val.id = id →
    e.val.isActive = false

/-- An active key is put into the cache before any `Deactivate` of it has deleted the copy. -/
def FillOk (s : Shared) (_ : Int) : Point → Prop
  | .cacheSet _ key => key.isActive = true → key.id ∉ s.revoked
  | _ => True

instance (s : Shared) (now : Int) : ∀ t, Decidable (FillOk s now t)
  | .cacheSet _ key => inferInstanceAs (Decidable (key.isActive = true → key.id ∉ s.revoked))
  | .first _ | .lookup _ | .check _ _ | .answered _ _ | .dbDeactivate _ _ | .cacheDelete _ _
  | .deactivated _ | .notFound _ => isTrue trivial

/-- What is known of a call where it stands. A `late` call has not seen the key
`id` active. -/
def At (id : String) (late : Nat → Prop) (i : Nat) (s : Shared) : Point → Prop
  | .cacheSet r key =>
    s.Owns key.id (tokenHash sha256Hex r) ∧ (late i → key.id = id → key.isActive = false)
  | .check _ key => late i → key.id = id → key.isActive = false
  | .answered _ (.ok r) => late i → ∀ key, r.virtualKey = some key → key.id ≠ id
  | .dbDeactivate id' h => s.Owns id' h
  | .cacheDelete id' h => s.Owns id' h ∧ s.Inactive id'
  | .deactivated id' => id' ∈ s.revoked
  | _ => True

variable {id : String} {late : Nat → Prop} {i : Nat}

theorem At.mono {s s' : Shared} (hle : s.Le s') :
    ∀ t, At sha256Hex id late i s t → At sha256Hex id late i s' t
  | .cacheSet _ _, h => ⟨hle.owns h.1, h.2⟩
  | .check _ _, h => h
  | .answered _ (.ok _), h => h
  | .answered _ (.error _), _ => trivial
  | .dbDeactivate _ _, h => hle.owns h
  | .cacheDelete _ _, h => ⟨hle.owns h.1, hle.inactive h.2⟩
  | .deactivated _, h => hle.revoked h
  | .first _, _ | .lookup _, _ | .notFound _, _ => trivial

theorem At.early {id : String} {late late' : Nat → Prop} {i : Nat} {s : Shared}
    (hi : ¬ late' i) : ∀ t, At sha256Hex id late i s t → At sha256Hex id late' i s t
  | .cacheSet _ _, h => ⟨h.1, fun hl => absurd hl hi⟩
  | .check _ _, _ | .answered _ (.ok _), _ => fun hl => absurd hl hi
  | .answered _ (.error _), _ => trivial
  | .dbDeactivate _ _, h => h
  | .cacheDelete _ _, h => h
  | .deactivated _, h => h
  | .first _, _ | .lookup _, _ | .notFound _, _ => trivial

theorem coherent_set (hs : s.Coherent) {h : String} (now : Int) (hown : s.Owns key.id h)
    (hok : key.isActive = true → key.id ∉ s.revoked) :
    ({ s with cache := s.cache.set now h key } : Shared).Coherent := by
  have hcases : ∀ h' e, s.cache.set now h key (cacheKey h') = some e →
      (h' = h ∧ e.val = key) ∨ s.cache (cacheKey h') = some e := by
    intro h' e he
    by_cases heq : h' = h
    · subst heq
      rw [KeyCache.set, Function.update_self] at he
      cases he
      exact .inl ⟨rfl, rfl⟩
    · rw [KeyCache.set, Function.update_of_ne fun h => heq (cacheKey_injective h)] at he
      exact .inr he
  refine ⟨fun h' e he => ?_, hs.inactive, fun id hid h' e he heid => ?_⟩
  · rcases hcases h' e he with ⟨rfl, rfl⟩ | he
    · exact hown
    · exact hs.cached h' e he
  · rcases hcases h' e he with ⟨rfl, rfl⟩ | he
    · exact Bool.eq_false_iff.mpr fun hactive => hok hactive (heid ▸ hid)
    · exact hs.copies id hid h' e he heid

theorem coherent_delete (hs : s.Coherent) {id h : String} (hown : s.Owns id h)
    (hinactive : s.Inactive id) :
    ({ s with cache := s.cache.delete h, revoked := id :: s.revoked } : Shared).Coherent := by
  have hcases : ∀ h' e, s.cache.delete h (cacheKey h') = some e →
      h' ≠ h ∧ s.cache (cacheKey h') = some e := by
    intro h' e he
    by_cases heq : h' = h
    · rw [KeyCache.delete, heq, Function.update_self] at he
      cases he
    · rw [KeyCache.delete, Function.update_of_ne fun h => heq (cacheKey_injective h)] at he
      exact ⟨heq, he⟩
  refine ⟨fun h' e he => ?_, fun id' hid' => ?_, fun id' hid' h' e he heid => ?_⟩
  · exact hs.cached h' e (hcases h' e he).2
  · rcases mem_cons.mp hid' with rfl | hid'
    · exact hinactive
    · exact hs.inactive id' hid'
  · obtain ⟨hne, hold⟩ := hcases h' e he
    rcases mem_cons.mp hid' with rfl | hid'
    · -- a copy of this key can only be under its own hash, where it has been deleted
      exact absurd ((heid ▸ hs.cached h' e hold).unique hown) hne
    · exact hs.copies id' hid' h' e hold heid

theorem coherent_next (hs : s.Coherent) (ht : At sha256Hex id late i s t) (hok : FillOk s now t)
    (h : next sha256Hex s now t = some (s', t')) : s'.Coherent := by
  revert h
  fun_cases next sha256Hex s now t with
  | case7 r key => rintro ⟨⟩; exact coherent_set hs now ht.1 hok
  | case11 id' hash =>
    rintro ⟨⟩
    have hle := le_deactivate s id'
    exact ⟨fun h' e he => hle.owns (hs.cached h' e he),
      fun id' hid' => hle.inactive (hs.inactive id' hid'), hs.copies⟩
  | case12 id' hash => rintro ⟨⟩; exact coherent_delete hs ht.1 ht.2
  | case13 | case14 | case15 => rintro ⟨⟩
  | _ => rintro ⟨⟩; exact hs

theorem validated_eq_ok {r' : Request} (h : validated now r key = .ok r') :
    key.isActive = true ∧ r' = { r with virtualKey := some key } := by
  unfold validated VirtualKey.isValid at h
  cases hactive : key.isActive with
  | false => simp [hactive] at h
  | true =>
    refine ⟨rfl, ?_⟩
    simp only [hactive, Bool.not_true, Bool.false_eq_true, if_false] at h
    split at h
    · cases h
    · cases h
    · cases h; rfl

theorem at_next (hs : s.Coherent)
    (hlate : late i → id ∈ s.revoked) (ht : At sha256Hex id late i s t)
    (h : next sha256Hex s now t = some (s', t')) : At sha256Hex id late i s' t' := by
  revert h
  fun_cases next sha256Hex s now t with
  | case2 r _ key hget =>
    rintro ⟨⟩
    obtain ⟨e, he, rfl⟩ := KeyCache.get_eq_some hget
    exact fun hi hid => hs.copies id (hlate hi) _ e he hid
  | case4 r row hrow =>
    rintro ⟨⟩
    obtain ⟨hid, hhash⟩ := KeyTable.getByHash_eq_ok hrow
    exact ⟨⟨row, hid, hhash⟩, fun hi heq => hs.inactive id (hlate hi) row (heq ▸ hid)⟩
  | case7 r key => rintro ⟨⟩; exact ht.2
  | case8 r key =>
    rintro ⟨⟩
    cases hv : validated now r key with
    | error resp => trivial
    | ok r' =>
      intro hi key' hkey' hid
      obtain ⟨hactive, rfl⟩ := validated_eq_ok hv
      cases hkey'
      rw [ht hi hid] at hactive
      cases hactive
  | case9 id' row hrow => rintro ⟨⟩; exact ⟨row, hrow, rfl⟩
  | case11 id' hash => rintro ⟨⟩; exact ⟨(le_deactivate s id').owns ht, inactive_deactivate s id'⟩
  | case12 id' hash => rintro ⟨⟩; exact mem_cons_self
  | case13 | case14 | case15 => rintro ⟨⟩
  | _ => rintro ⟨⟩; trivial

theorem outline (id : String) (late : Nat → Prop) (n : Nat) :
    Outline (code sha256Hex) FillOk n
      (fun s => s.Coherent ∧ ∀ i, late i → id ∈ s.revoked) (At sha256Hex id late) where
  start _ _ _ _ _ := trivial
  inv _ s now t s' t' hs ht hok h := by
    have hnext : next sha256Hex s now t = some (s', t') := h
    exact ⟨coherent_next sha256Hex hs.1 ht hok hnext,
      fun i hi => (next_le sha256Hex hnext).revoked (hs.2 i hi)⟩
  self i s now t s' t' hs ht _ h := by
    have hnext : next sha256Hex s now t = some (s', t') := h
    exact at_next sha256Hex hs.1 (hs.2 i) ht hnext
  frame _ s now t s' t' _ u _ _ _ h hu := by
    have hnext : next sha256Hex s now t = some (s', t') := h
    exact At.mono sha256Hex (next_le sha256Hex hnext) u hu

/-! ### Revocation -/

def Point.admitted : Point → Option VirtualKey
  | .answered _ (.ok r) => r.virtualKey
  | _ => none

/-- **Revocation is final.** If every active key is put into the cache before a `Deactivate` of it
has deleted the copy, no request that starts after a `Deactivate` has returned is admitted with the
key. -/
theorem revocation_final {table : KeyTable} {ms₁ ms₂ : List (Move Call Int)}
    {p₁ p₂ : Pool Shared Point} {d : Nat} {id : String}
    (hok₁ : AlongFrom (Pool.step (code sha256Hex)) (Pool.Ok FillOk)
      (Pool.init { table := table }) ms₁)
    (hrun₁ : runFrom (Pool.step (code sha256Hex)) (Pool.init { table := table }) ms₁ = some p₁)
    (hdone : p₁.threads[d]? = some (.deactivated id))
    (hok₂ : AlongFrom (Pool.step (code sha256Hex)) (Pool.Ok FillOk) p₁ ms₂)
    (hrun₂ : runFrom (Pool.step (code sha256Hex)) p₁ ms₂ = some p₂) :
    ∀ i t key, p₁.threads.length ≤ i → p₂.threads[i]? = some t → t.admitted = some key →
      key.id ≠ id := by
  have hinit : ({ table := table } : Shared).Coherent :=
    ⟨fun _ _ he => (by cases he), fun _ hid => (by cases hid), fun _ hid => (by cases hid)⟩
  have h₁ := (outline sha256Hex id (fun _ => False) 0).run_init ⟨hinit, nofun⟩ hok₁ hrun₁
  have hmem : id ∈ p₁.shared.revoked := h₁.thread d _ hdone
  have hstart : p₁.Holds p₁.threads.length
      (fun s => s.Coherent ∧ ∀ i, p₁.threads.length ≤ i → id ∈ s.revoked)
      (At sha256Hex id (p₁.threads.length ≤ ·)) :=
    -- a call that started before is not late: what is known of it stays
    h₁.late ⟨h₁.inv.1, fun _ _ => hmem⟩ fun i t hlt ht => At.early sha256Hex (by omega) t ht
  have h₂ := (outline sha256Hex id (p₁.threads.length ≤ ·) _).run hstart hok₂ hrun₂
  intro i t key hi ht hkey
  have hat := h₂.thread i t ht
  unfold Point.admitted at hkey
  split at hkey
  · exact hat hi key hkey
  · cases hkey

def digest (token : List Char) : String :=
  if token = "sk-1".toList then
    "0f2c10bf3d128c719c6bfa4ecbae94b7fceebaea6e4438fef38a90e5acc326f3"
  else ""

def oneKey : KeyTable where
  rows := [{ keyHash := digest "sk-1".toList, keyPrefix := "sk-1", key := { id := "k1" } }]
  ids_nodup := nodup_singleton _
  hashes_nodup := nodup_singleton _

def tokenRequest : Request where
  headers := [("Authorization", "Bearer sk-1")]
  body := .ok ""

def deactivatedKey : Pool Shared Point where
  shared :=
    { table := oneKey.deactivate "k1"
      cache := KeyCache.delete (KeyCache.set (fun _ => none) 3 (digest "sk-1".toList) { id := "k1" })
        (digest "sk-1".toList)
      revoked := ["k1"] }
  threads := [.answered tokenRequest (.ok { tokenRequest with virtualKey := some { id := "k1" } }),
    .deactivated "k1"]

theorem revocation_final_one_key :
    runFrom (Pool.step (code digest)) (Pool.init { table := oneKey })
        [.start (.request tokenRequest), .advance 0 1, .advance 0 2, .advance 0 3, .advance 0 4,
          .start (.deactivate "k1"), .advance 1 5, .advance 1 6, .advance 1 7] =
        some deactivatedKey ∧
      (runFrom (Pool.step (code digest)) deactivatedKey
        [.start (.request tokenRequest), .advance 2 8, .advance 2 9, .advance 2 10,
          .advance 2 11]).isSome = true ∧
      ∀ p t key, runFrom (Pool.step (code digest)) deactivatedKey
          [.start (.request tokenRequest), .advance 2 8, .advance 2 9, .advance 2 10,
            .advance 2 11] = some p →
        p.threads[2]? = some t → t.admitted = some key → key.id ≠ "k1" := by
  refine ⟨?hrun, by decide, fun p t key hp ht hkey => ?_⟩
  · rfl
  · exact revocation_final digest (d := 1) (by decide) ?hrun rfl (by decide) hp 2 t key le_rfl ht
      hkey

/-- A request reads the key, the key is deactivated, the request fills the
cache: the next request is admitted. -/
theorem deactivated_key_is_admitted :
    ∃ p₁ p₂, runFrom (Pool.step (code digest)) (Pool.init { table := oneKey })
        [.start (.request tokenRequest), .advance 0 1, .advance 0 2,
          .start (.deactivate "k1"), .advance 1 3, .advance 1 4, .advance 1 5] = some p₁ ∧
      p₁.threads.length = 2 ∧ p₁.threads[1]? = some (.deactivated "k1") ∧
      runFrom (Pool.step (code digest)) p₁
        [.advance 0 6, .start (.request tokenRequest), .advance 2 7, .advance 2 8] = some p₂ ∧
      (p₂.threads[2]?.bind Point.admitted).map VirtualKey.id = some "k1" :=
  ⟨_, _, rfl, rfl, rfl, rfl, by decide⟩

end Revocation

end LlmRouter.Auth
