import LlmRouter.Gateway.Provider
import LlmRouter.Lib.Pool
import Mathlib.Data.List.Sort

/-!
# LlmRouter — provider keys and their rotation

`provider.KeyManager` selects an API key from its cache, from the active rows of `provider_keys`,
or from the configuration. The admin handlers `Rotate` and `Delete` change a row and then clear
the cache of its provider. All are threads over table and cache; the table's earlier contents are
kept, and the moment at which a list was read goes with the list. A reload may put an old list
into the cache (`old_secret_returns`).
-/

namespace LlmRouter.Keys

open Lib Gateway List

/-! ### The key manager -/

structure ProviderKeyRecord where
  id : String
  provider : String
  keyAlias : String
  encryptedKey : String
  groupName : String := ""
  weight : Int := 100
  isActive : Bool := true
  deriving DecidableEq, Repr

structure ProviderKey where
  id : String
  keyAlias : String
  decryptedKey : String
  groupName : String
  weight : Int
  deriving DecidableEq, Repr

/-- `KeyManager` without its cache; `db` says that it has a store and a cipher. -/
structure KeyManager where
  db : Bool := true
  decrypt : String → Except String String
  fallback : List (String × String) := []

def ProviderKey.share (k : ProviderKey) : Int := if k.weight ≤ 0 then 1 else k.weight

/-- The loop of `weightedRandom`. The weights are of an INTEGER column, so the sums fit into an
`int`. -/
def cumulativePick (pick : Int) : Int → List ProviderKey → Option ProviderKey
  | _, [] => none
  | cumulative, k :: ks =>
    if pick < cumulative + k.share then some k else cumulativePick pick (cumulative + k.share) ks

def weightedRandom (keys : List ProviderKey) (rand : Except String Nat) :
    Except String ProviderKey :=
  match keys with
  | [] => .error "no keys to select from"
  | [k] => .ok k
  | k :: ks =>
    match rand with
    | .error e => .error ("random selection: " ++ e)
    | .ok n =>
      let totalWeight := ((k :: ks).map ProviderKey.share).sum
      .ok ((cumulativePick (n % totalWeight) 0 (k :: ks)).getD ((k :: ks).getLast (by simp)))

theorem mem_of_cumulativePick {pick c : Int} {ks : List ProviderKey} {k : ProviderKey}
    (h : cumulativePick pick c ks = some k) : k ∈ ks := by
  fun_induction cumulativePick pick c ks with
  | case1 => cases h
  | case2 =>
    cases h
    exact mem_cons_self
  | case3 _ _ _ _ ih => exact mem_cons_of_mem _ (ih h)

theorem mem_of_weightedRandom {keys : List ProviderKey} {rand : Except String Nat}
    {k : ProviderKey} (h : weightedRandom keys rand = .ok k) : k ∈ keys := by
  unfold weightedRandom at h
  split at h
  · cases h
  · cases h
    exact mem_cons_self
  case h_3 x xs _ =>
    split at h
    · cases h
    case h_2 n =>
      obtain rfl := Except.ok.inj h
      cases hpick : cumulativePick (n % ((x :: xs).map ProviderKey.share).sum) 0 (x :: xs) with
      | some k => simpa [hpick] using mem_of_cumulativePick hpick
      | none => exact getLast_mem _

namespace KeyManager

variable (m : KeyManager)

def decryptRecord (rec : ProviderKeyRecord) : Except String ProviderKey :=
  match m.decrypt rec.encryptedKey with
  | .error e => .error ("decrypt key " ++ goQuote rec.keyAlias ++ ": " ++ e)
  | .ok decrypted =>
    .ok { id := rec.id, keyAlias := rec.keyAlias, decryptedKey := decrypted,
          groupName := rec.groupName, weight := rec.weight }

/-- The loop of `reloadCache`: the first record that does not decrypt ends it. -/
def decryptAll : List ProviderKeyRecord → Except String (List ProviderKey)
  | [] => .ok []
  | rec :: recs => do
    let key ← m.decryptRecord rec
    let keys ← decryptAll recs
    return key :: keys

/-- The end of `SelectKey`: the key of the configuration. -/
def fallbackKey (providerName : String) : Except String String :=
  match m.fallback.lookup providerName with
  | some key =>
    if key ≠ "" then .ok key
    else .error ("no active API key for provider " ++ goQuote providerName)
  | none => .error ("no active API key for provider " ++ goQuote providerName)

def choose (providerName : String) (keys : List ProviderKey) (rand : Except String Nat) :
    Except String String :=
  if 0 < keys.length then (weightedRandom keys rand).map ProviderKey.decryptedKey
  else m.fallbackKey providerName

variable {m}

/-- Every decrypted key is that of a record, and there is one for each. -/
theorem mem_decryptAll {recs : List ProviderKeyRecord} {keys : List ProviderKey}
    (h : m.decryptAll recs = .ok keys) :
    (∀ k ∈ keys, ∃ rec ∈ recs, m.decrypt rec.encryptedKey = .ok k.decryptedKey) ∧
      keys.length = recs.length := by
  induction recs generalizing keys with
  | nil =>
    cases h
    exact ⟨nofun, rfl⟩
  | cons rec recs ih =>
    unfold decryptAll at h
    cases hrec : m.decryptRecord rec with
    | error e => rw [hrec] at h; cases h
    | ok key =>
      cases hrecs : m.decryptAll recs with
      | error e => rw [hrec, hrecs] at h; cases h
      | ok keys' =>
        rw [hrec, hrecs] at h
        obtain rfl := Except.ok.inj h
        obtain ⟨hmem, hlen⟩ := ih hrecs
        refine ⟨fun k hk => ?_, congrArg (· + 1) hlen⟩
        rcases mem_cons.mp hk with rfl | hk
        · refine ⟨rec, mem_cons_self, ?_⟩
          unfold decryptRecord at hrec
          split at hrec
          · cases hrec
          case h_2 decrypted hdec =>
            cases hrec
            exact hdec
        · obtain ⟨rec', hrec', hdec⟩ := hmem k hk
          exact ⟨rec', mem_cons_of_mem _ hrec', hdec⟩

/-- A key of the list, or that of the configuration if the list is empty. -/
theorem choose_eq_ok {providerName secret : String} {keys : List ProviderKey}
    {rand : Except String Nat} (h : m.choose providerName keys rand = .ok secret) :
    (∃ k ∈ keys, k.decryptedKey = secret) ∨
      (keys = [] ∧ m.fallback.lookup providerName = some secret) := by
  unfold choose at h
  split at h
  · cases hdraw : weightedRandom keys rand with
    | error e => rw [hdraw] at h; cases h
    | ok k =>
      rw [hdraw] at h
      exact .inl ⟨k, mem_of_weightedRandom hdraw, Except.ok.inj h⟩
  case isFalse hempty =>
    unfold fallbackKey at h
    split at h
    case h_1 key hkey =>
      split at h
      · cases h
        exact .inr ⟨eq_nil_of_length_eq_zero (by omega), hkey⟩
      · cases h
    case h_2 => cases h

end KeyManager

/-! ### The table and the cache -/

abbrev Table := List ProviderKeyRecord

def Table.getByID (tb : Table) (id : String) : Option ProviderKeyRecord :=
  tb.find? fun r => decide (r.id = id)

/-- `ProviderKeyStore.ListActive`: heaviest first; every group if none is given. -/
def Table.listActive (tb : Table) (providerName groupName : String) : List ProviderKeyRecord :=
  (tb.filter fun r => decide (r.provider = providerName) &&
    (decide (groupName = "") || decide (r.groupName = groupName)) && r.isActive).insertionSort
    fun a b => b.weight ≤ a.weight

def Table.rotateKey (tb : Table) (id encryptedKey : String) : Table :=
  tb.map fun r => if r.id = id then { r with encryptedKey := encryptedKey } else r

def Table.delete (tb : Table) (id : String) : Table := tb.filter fun r => decide (r.id ≠ id)

def cacheKey (providerName group : String) : String := providerName ++ "/" ++ group

/-- The parts of a cache key, if no provider has a slash in its name. -/
theorem cacheKey_inj {p p' g g' : String} (hp : '/' ∉ p.toList) (hp' : '/' ∉ p'.toList)
    (h : cacheKey p g = cacheKey p' g') : p = p' ∧ g = g' := by
  have htext := congrArg String.toList h
  simp only [cacheKey, String.toList_append, append_assoc] at htext
  obtain ⟨hp, hg⟩ := Text.append_cons_inj hp hp' htext
  exact ⟨String.toList_inj.mp hp, String.toList_inj.mp hg⟩

def clears (providerName k : String) : Bool := providerName.toList.isPrefixOf k.toList

theorem clears_cacheKey (providerName group : String) :
    clears providerName (cacheKey providerName group) = true := by
  simp [clears, cacheKey]

def cacheTTL : Int := 5 * 60 * 1000000000

/-- A cache entry: the keys, when they were stored, and the moment of the table
that they were read at. -/
structure CacheEntry where
  keys : List ProviderKey
  cacheTime : Int
  seen : Nat

/-- The table and the cache; kept for the statements are the table's earlier contents, newest first,
and for each cache key the last change whose invalidation has cleared it. A moment is the number of
changes before it. -/
structure Shared where
  table : Table
  cache : String → Option CacheEntry := fun _ => none
  past : List Table := []
  cleared : String → Nat := fun _ => 0

def Shared.change (s : Shared) (tb : Table) : Shared :=
  { s with table := tb, past := s.table :: s.past }

def Shared.invalidateCache (s : Shared) (providerName : String) (at_ : Nat) : Shared :=
  { s with
    cache := fun k => if clears providerName k then none else s.cache k
    cleared := fun k => if clears providerName k then max (s.cleared k) at_ else s.cleared k }

/-! ### Calls as threads -/

inductive Call where
  | selectKey (providerName group : String)
  | rotate (id encryptedKey : String)
  | delete (id : String)
  deriving DecidableEq, Repr

/-- Where a call stands: the operation that it does next, or what it has
returned. -/
inductive Point where
  | first (c : Call)
  | listActive (providerName group : String)
  | store (providerName group : String) (recs : List ProviderKeyRecord) (seen : Nat)
  | choose (providerName group : String) (keys : List ProviderKey) (seen : Nat)
  | selected (providerName group : String) (result : Except String String)
  | getRotated (id : String) (at_ : Nat)
  | deleteRow (id providerName : String)
  | invalidate (providerName : String) (at_ : Nat)
  | invalidated (providerName : String) (at_ : Nat)
  | failed (status : Nat)

/-- What an operation meets: the clock, an error of the store, a random number. -/
structure Input where
  now : Int := 0
  err : Option String := none
  rand : Except String Nat := .ok 0

def KeyManager.next (m : KeyManager) (s : Shared) (x : Input) : Point → Option (Shared × Point)
  | .first (.selectKey p g) =>
    if m.db then
      match s.cache (cacheKey p g) with
      | some e =>
        if x.now - e.cacheTime < cacheTTL then some (s, .choose p g e.keys e.seen)
        else some (s, .listActive p g)
      | none => some (s, .listActive p g)
    else some (s, .selected p g (m.fallbackKey p))
  | .listActive p g =>
    match x.err with
    | some e =>
      some (s, .selected p g
        (.error ("load active provider keys for " ++ goQuote p ++ ": " ++ e)))
    | none => some (s, .store p g (s.table.listActive p g) s.past.length)
  | .store p g recs seen =>
    match m.decryptAll recs with
    | .error e => some (s, .selected p g (.error e))
    | .ok keys =>
      some ({ s with
          cache := Function.update s.cache (cacheKey p g)
            (some { keys := keys, cacheTime := x.now, seen := seen }) },
        .choose p g keys seen)
  | .choose p g keys _ => some (s, .selected p g (m.choose p keys x.rand))
  | .first (.rotate id encryptedKey) =>
    match x.err, s.table.getByID id with
    | some _, _ => some (s, .failed 500)
    | none, none => some (s, .failed 404)
    | none, some _ =>
      some (s.change (s.table.rotateKey id encryptedKey), .getRotated id (s.past.length + 1))
  | .getRotated id at_ =>
    match x.err, s.table.getByID id with
    | none, some rec => some (s, .invalidate rec.provider at_)
    | _, _ => some (s, .failed 500)
  | .first (.delete id) =>
    match x.err, s.table.getByID id with
    | some _, _ => some (s, .failed 500)
    | none, none => some (s, .failed 404)
    | none, some rec => some (s, .deleteRow id rec.provider)
  | .deleteRow id p =>
    match x.err, s.table.getByID id with
    | none, some _ => some (s.change (s.table.delete id), .invalidate p (s.past.length + 1))
    | _, _ => some (s, .failed 500)
  | .invalidate p at_ => some (s.invalidateCache p at_, .invalidated p at_)
  | .selected _ _ _ | .invalidated _ _ | .failed _ => none

def KeyManager.code (m : KeyManager) : Code Shared Call Point Input where
  start := .first
  next := m.next

/-! ### What one operation keeps -/

def Shared.since (s : Shared) (n : Nat) : List Table :=
  (s.table :: s.past).take (s.past.length + 1 - n)

/-- A secret that an active row of the provider and group has held at moment `n` or later. -/
def ActiveSince (m : KeyManager) (s : Shared) (n : Nat) (providerName group secret : String) :
    Prop :=
  ∃ tb ∈ s.since n, ∃ r ∈ tb.listActive providerName group,
    m.decrypt r.encryptedKey = .ok secret

variable {s : Shared}

theorem mem_since_of_le {n n' : Nat} {tb : Table} (hle : n ≤ n') (h : tb ∈ s.since n') :
    tb ∈ s.since n :=
  take_subset_take_left _ (by omega) h

theorem table_mem_since (s : Shared) : s.table ∈ s.since s.past.length := by
  rw [Shared.since, show s.past.length + 1 - s.past.length = 1 by omega]
  exact mem_cons_self

theorem mem_since_change {n : Nat} {tb : Table} (tb' : Table) (h : tb ∈ s.since n) :
    tb ∈ (s.change tb').since n := by
  unfold Shared.since Shared.change at *
  rcases Nat.lt_or_ge (s.past.length + 1) n with hlt | hge
  · rw [show s.past.length + 1 - n = 0 by omega] at h
    cases h
  · rw [length_cons, show s.past.length + 1 + 1 - n = (s.past.length + 1 - n) + 1 by omega,
      take_succ_cons]
    exact mem_cons_of_mem _ h

structure Shared.Le (s s' : Shared) : Prop where
  moment : s.past.length ≤ s'.past.length
  since : ∀ {n tb}, tb ∈ s.since n → tb ∈ s'.since n
  cleared : ∀ k, s.cleared k ≤ s'.cleared k

theorem Shared.Le.refl (s : Shared) : s.Le s := ⟨le_rfl, id, fun _ => le_rfl⟩

theorem Shared.le_change (s : Shared) (tb : Table) : s.Le (s.change tb) :=
  ⟨Nat.le_succ _, mem_since_change tb, fun _ => le_rfl⟩

theorem Shared.le_invalidateCache (s : Shared) (p : String) (at_ : Nat) :
    s.Le (s.invalidateCache p at_) where
  moment := le_rfl
  since := id
  cleared k := by
    show s.cleared k ≤ if clears p k then max (s.cleared k) at_ else s.cleared k
    split
    · exact le_max_left _ _
    · exact le_rfl

theorem next_le {m : KeyManager} {s' : Shared} {x : Input} {t t' : Point}
    (h : m.next s x t = some (s', t')) : s.Le s' := by
  revert h
  fun_cases KeyManager.next m s x t with
  | case8 => rintro ⟨⟩; exact ⟨le_rfl, id, fun _ => le_rfl⟩
  | case12 | case18 => rintro ⟨⟩; exact s.le_change _
  | case20 p at_ => rintro ⟨⟩; exact s.le_invalidateCache p at_
  | case21 | case22 | case23 => rintro ⟨⟩
  | _ => rintro ⟨⟩; exact .refl s

/-- The keys are of a list that was read at moment `n` or later, and one of them is chosen. -/
structure Listed (m : KeyManager) (s : Shared) (n : Nat) (providerName group : String)
    (keys : List ProviderKey) : Prop where
  active : ∃ tb ∈ s.since n, m.decryptAll (tb.listActive providerName group) = .ok keys
  chosen : keys ≠ [] ∨ m.fallback.lookup providerName = none

theorem Listed.mono {m : KeyManager} {s' : Shared} {n : Nat} {p g : String}
    {keys : List ProviderKey} (hle : s.Le s') (h : Listed m s n p g keys) :
    Listed m s' n p g keys :=
  ⟨h.active.imp fun _ htb => ⟨hle.since htb.1, htb.2⟩, h.chosen⟩

/-- What is chosen from a list has been active since any moment before it was read. -/
theorem Listed.activeSince {m : KeyManager} {n n' : Nat} {p g secret : String}
    {keys : List ProviderKey} {rand : Except String Nat} (h : Listed m s n' p g keys)
    (hle : n ≤ n') (hchoose : m.choose p keys rand = .ok secret) : ActiveSince m s n p g secret := by
  obtain ⟨tb, htb, hall⟩ := h.active
  rcases KeyManager.choose_eq_ok hchoose with ⟨k, hk, rfl⟩ | ⟨hempty, hconf⟩
  · obtain ⟨r, hr, hdec⟩ := (KeyManager.mem_decryptAll hall).1 k hk
    exact ⟨tb, mem_since_of_le hle htb, r, hr, hdec⟩
  · rcases h.chosen with hne | hnone
    · exact absurd hempty hne
    · rw [hnone] at hconf
      cases hconf

structure Coherent (m : KeyManager) (s : Shared) : Prop where
  fresh : ∀ k e, s.cache k = some e → s.cleared k ≤ e.seen
  listed : ∀ p g e, '/' ∉ p.toList → s.cache (cacheKey p g) = some e →
    Listed m s e.seen p g e.keys

/-- A reload stores a list that has been read after every change whose invalidation has cleared the
entry. Where the configuration has a key, the manager has a store and every list that is read has a
key, and no name has a slash. -/
def StepOk (m : KeyManager) (s : Shared) (_ : Input) : Point → Prop
  | .first (.selectKey p _) => '/' ∉ p.toList ∧ (m.db = true ∨ m.fallback.lookup p = none)
  | .listActive p g => s.table.listActive p g ≠ [] ∨ m.fallback.lookup p = none
  | .store p g _ seen => s.cleared (cacheKey p g) ≤ seen
  | _ => True

instance (m : KeyManager) (s : Shared) (x : Input) : ∀ t, Decidable (StepOk m s x t)
  | .first (.selectKey _ _) => inferInstanceAs (Decidable (_ ∧ _))
  | .listActive _ _ => inferInstanceAs (Decidable (_ ∨ _))
  | .store _ _ _ _ => inferInstanceAs (Decidable (_ ≤ _))
  | .first (.rotate _ _) | .first (.delete _) | .choose _ _ _ _ | .selected _ _ _
  | .getRotated _ _ | .deleteRow _ _ | .invalidate _ _ | .invalidated _ _ | .failed _ =>
    isTrue trivial

section Late

variable (m : KeyManager) (providerName : String) (at_ : Nat) (late : Nat → Prop)

def At (i : Nat) (s : Shared) : Point → Prop
  | .listActive p _ => '/' ∉ p.toList
  | .store p g recs seen =>
    '/' ∉ p.toList ∧ (∃ tb ∈ s.since seen, tb.listActive p g = recs) ∧
      (recs ≠ [] ∨ m.fallback.lookup p = none) ∧ (late i → p = providerName → at_ ≤ seen)
  | .choose p g keys seen =>
    Listed m s seen p g keys ∧ (late i → p = providerName → at_ ≤ seen)
  | .selected p g (.ok secret) => late i → p = providerName → ActiveSince m s at_ p g secret
  | .getRotated _ n => n ≤ s.past.length
  | .invalidate _ n => n ≤ s.past.length
  | .invalidated p n => n ≤ s.past.length ∧ ∀ k, clears p k = true → n ≤ s.cleared k
  | _ => True

structure Inv (s : Shared) : Prop where
  coherent : Coherent m s
  moment : ∀ i, late i → at_ ≤ s.past.length
  cleared : ∀ i, late i → ∀ k, clears providerName k = true → at_ ≤ s.cleared k

variable {m providerName at_ late}

theorem At.mono {i : Nat} {s s' : Shared} (hle : s.Le s') :
    ∀ t, At m providerName at_ late i s t → At m providerName at_ late i s' t
  | .store _ _ _ _, ⟨hp, hread, h⟩ =>
    ⟨hp, hread.imp fun _ htb => ⟨hle.since htb.1, htb.2⟩, h⟩
  | .choose _ _ _ _, h => ⟨h.1.mono hle, h.2⟩
  | .selected _ _ (.ok _), h => fun hi hp => (h hi hp).imp fun _ htb => ⟨hle.since htb.1, htb.2⟩
  | .selected _ _ (.error _), _ => trivial
  | .listActive _ _, h => h
  | .getRotated _ _, h | .invalidate _ _, h => le_trans h hle.moment
  | .invalidated _ _, h =>
    ⟨le_trans h.1 hle.moment, fun k hk => le_trans (h.2 k hk) (hle.cleared k)⟩
  | .first _, _ | .deleteRow _ _, _ | .failed _, _ => trivial

theorem At.early {late' : Nat → Prop} {i : Nat} {s : Shared} (hi : ¬ late' i) {p' : String}
    {n' : Nat} : ∀ t, At m providerName at_ late i s t → At m p' n' late' i s t
  | .store _ _ _ _, h => ⟨h.1, h.2.1, h.2.2.1, fun hl => absurd hl hi⟩
  | .choose _ _ _ _, h => ⟨h.1, fun hl => absurd hl hi⟩
  | .selected _ _ (.ok _), _ => fun hl => absurd hl hi
  | .selected _ _ (.error _), _ => trivial
  | .listActive _ _, h => h
  | .getRotated _ _, h => h
  | .invalidate _ _, h => h
  | .invalidated _ _, h => h
  | .first _, _ | .deleteRow _ _, _ | .failed _, _ => trivial

variable {s : Shared}

theorem coherent_change (hs : Coherent m s) (tb : Table) : Coherent m (s.change tb) :=
  ⟨hs.fresh, fun p g e hp he => (hs.listed p g e hp he).mono (s.le_change tb)⟩

theorem coherent_invalidateCache (hs : Coherent m s) (p : String) (n : Nat) :
    Coherent m (s.invalidateCache p n) := by
  have hcases : ∀ k e, (s.invalidateCache p n).cache k = some e →
      s.cache k = some e ∧ (s.invalidateCache p n).cleared k = s.cleared k := by
    intro k e he
    replace he : (if clears p k then none else s.cache k) = some e := he
    by_cases hk : clears p k = true
    · rw [if_pos hk] at he
      cases he
    · rw [if_neg hk] at he
      exact ⟨he, if_neg hk⟩
  refine ⟨fun k e he => ?_, fun p' g e hp he => ?_⟩
  · obtain ⟨hold, hsame⟩ := hcases k e he
    rw [hsame]
    exact hs.fresh k e hold
  · exact (hs.listed p' g e hp (hcases _ e he).1).mono (s.le_invalidateCache p n)

theorem listed_decryptAll {p g : String} {recs : List ProviderKeyRecord} {seen : Nat}
    {keys : List ProviderKey} (hread : ∃ tb ∈ s.since seen, tb.listActive p g = recs)
    (hrecs : recs ≠ [] ∨ m.fallback.lookup p = none) (h : m.decryptAll recs = .ok keys) :
    Listed m s seen p g keys := by
  obtain ⟨tb, htb, rfl⟩ := hread
  refine ⟨⟨tb, htb, h⟩, hrecs.imp_left fun hne hempty => hne ?_⟩
  have hlen := (KeyManager.mem_decryptAll h).2
  rw [hempty] at hlen
  exact eq_nil_of_length_eq_zero hlen.symm

theorem coherent_store (hs : Coherent m s) {p g : String} {e : CacheEntry} (hp : '/' ∉ p.toList)
    (hfresh : s.cleared (cacheKey p g) ≤ e.seen) (hlisted : Listed m s e.seen p g e.keys) :
    Coherent m { s with cache := Function.update s.cache (cacheKey p g) (some e) } := by
  have hcases : ∀ k' e', Function.update s.cache (cacheKey p g) (some e) k' = some e' →
      (k' = cacheKey p g ∧ e' = e) ∨ s.cache k' = some e' := by
    intro k' e' he'
    by_cases hk : k' = cacheKey p g
    · rw [hk, Function.update_self] at he'
      exact .inl ⟨hk, (Option.some.inj he').symm⟩
    · rw [Function.update_of_ne hk] at he'
      exact .inr he'
  have hle : s.Le { s with cache := Function.update s.cache (cacheKey p g) (some e) } :=
    ⟨le_rfl, id, fun _ => le_rfl⟩
  refine ⟨fun k' e' he' => ?_, fun p' g' e' hp' he' => ?_⟩
  · rcases hcases k' e' he' with ⟨rfl, rfl⟩ | he'
    · exact hfresh
    · exact hs.fresh k' e' he'
  · rcases hcases _ e' he' with ⟨hkey, rfl⟩ | he'
    · obtain ⟨rfl, rfl⟩ := cacheKey_inj hp' hp hkey
      exact hlisted.mono hle
    · exact (hs.listed p' g' e' hp' he').mono hle

/-- An allowed operation keeps cached lists newer than their invalidation. -/
theorem coherent_next {i : Nat} {s' : Shared} {x : Input} {t t' : Point} (hs : Coherent m s)
    (ht : At m providerName at_ late i s t) (hok : StepOk m s x t) (h : m.next s x t = some (s', t')) :
    Coherent m s' := by
  revert h
  fun_cases KeyManager.next m s x t with
  | case8 p g recs seen keys hkeys =>
    rintro ⟨⟩
    exact coherent_store hs ht.1 hok (listed_decryptAll ht.2.1 ht.2.2.1 hkeys)
  | case12 | case18 => rintro ⟨⟩; exact coherent_change hs _
  | case20 p n => rintro ⟨⟩; exact coherent_invalidateCache hs p n
  | case21 | case22 | case23 => rintro ⟨⟩
  | _ => rintro ⟨⟩; exact hs

theorem at_next {i : Nat} {s' : Shared} {x : Input} {t t' : Point}
    (hs : Inv m providerName at_ late s) (ht : At m providerName at_ late i s t)
    (hok : StepOk m s x t) (h : m.next s x t = some (s', t')) : At m providerName at_ late i s' t' := by
  revert h
  fun_cases KeyManager.next m s x t with
  | case1 p g _ e he =>
    -- a hit: the entry is not older than what has cleared it
    rintro ⟨⟩
    refine ⟨hs.coherent.listed p g e hok.1 he, ?_⟩
    rintro hi rfl
    exact le_trans (hs.cleared i hi _ (clears_cacheKey p g)) (hs.coherent.fresh _ e he)
  | case2 | case3 => rintro ⟨⟩; exact hok.1
  | case4 p g hdb =>
    -- no store, and no key in the configuration either
    rintro ⟨⟩
    rw [KeyManager.fallbackKey, hok.2.resolve_left hdb]
    trivial
  | case6 p g =>
    -- the list is read now
    rintro ⟨⟩
    exact ⟨ht, ⟨s.table, table_mem_since s, rfl⟩, hok, fun hi _ => hs.moment i hi⟩
  | case8 p g recs seen keys hkeys =>
    rintro ⟨⟩
    exact ⟨listed_decryptAll ht.2.1 ht.2.2.1 hkeys, ht.2.2.2⟩
  | case9 p g keys seen =>
    rintro ⟨⟩
    cases hchoose : m.choose p keys x.rand with
    | error e => trivial
    | ok secret => exact fun hi hp => ht.1.activeSince (ht.2 hi hp) hchoose
  | case12 | case18 => rintro ⟨⟩; exact le_rfl
  | case13 => rintro ⟨⟩; exact ht
  | case20 p n =>
    rintro ⟨⟩
    refine ⟨ht, fun k hk => ?_⟩
    show n ≤ if clears p k then max (s.cleared k) n else s.cleared k
    rw [if_pos hk]
    exact le_max_right _ _
  | case21 | case22 | case23 => rintro ⟨⟩
  | _ => rintro ⟨⟩; trivial

theorem outline (m : KeyManager) (providerName : String) (at_ : Nat) (late : Nat → Prop) (n : Nat) :
    Outline m.code (StepOk m) n (Inv m providerName at_ late) (At m providerName at_ late) where
  start _ _ _ _ _ := trivial
  inv _ _ _ _ _ _ hs ht hok h :=
    have hle := next_le h
    ⟨coherent_next hs.coherent ht hok h, fun i hi => le_trans (hs.moment i hi) hle.moment,
      fun i hi k hk => le_trans (hs.cleared i hi k hk) (hle.cleared k)⟩
  self _ _ _ _ _ _ hs ht hok h := at_next hs ht hok h
  frame _ _ _ _ _ _ _ u _ _ _ h hu := At.mono (next_le h) u hu

end Late

/-! ### Rotation -/

/-- **Rotation takes effect.** A `SelectKey` that starts after the invalidation of a rotation or
deletion has returned yields, if any, a key that an active row of its provider and group has held
since then. -/
theorem rotation_takes_effect {m : KeyManager} {table : Table} {ms₁ ms₂ : List (Move Call Input)}
    {p₁ p₂ : Pool Shared Point} {d n : Nat} {providerName : String}
    (hok₁ : AlongFrom (Pool.step m.code) (Pool.Ok (StepOk m)) (Pool.init { table := table }) ms₁)
    (hrun₁ : runFrom (Pool.step m.code) (Pool.init { table := table }) ms₁ = some p₁)
    (hdone : p₁.threads[d]? = some (.invalidated providerName n))
    (hok₂ : AlongFrom (Pool.step m.code) (Pool.Ok (StepOk m)) p₁ ms₂)
    (hrun₂ : runFrom (Pool.step m.code) p₁ ms₂ = some p₂) :
    ∀ i group secret, p₁.threads.length ≤ i →
      p₂.threads[i]? = some (.selected providerName group (.ok secret)) →
      ActiveSince m p₂.shared n providerName group secret := by
  have hinit : Inv m providerName n (fun _ => False) { table := table } :=
    ⟨⟨nofun, nofun⟩, nofun, nofun⟩
  have h₁ := (outline m providerName n (fun _ => False) 0).run_init hinit hok₁ hrun₁
  obtain ⟨hmoment, hcleared⟩ := h₁.thread d _ hdone
  have hstart : p₁.Holds p₁.threads.length (Inv m providerName n (p₁.threads.length ≤ ·))
      (At m providerName n (p₁.threads.length ≤ ·)) :=
    h₁.late ⟨h₁.inv.coherent, fun _ _ => hmoment, fun _ _ => hcleared⟩
      fun i t hlt ht => At.early (by omega) t ht
  have h₂ := (outline m providerName n (p₁.threads.length ≤ ·) _).run hstart hok₂ hrun₂
  intro i group secret hi hsel
  exact h₂.thread i _ hsel hi rfl

/-- `sk-old` and `sk-new` under the key `01 02 … 20`, as the cipher stores them. -/
def oldCipher : String := "AAAAAAAAAAAAAAAB36PH08lkj/v+adHODXqDzOXTQBua+A=="

@[inherit_doc oldCipher]
def newCipher : String := "AAAAAAAAAAAAAAACG0A7XwrGlB68J0vpSlTIwnryTcSyYQ=="

def manager : KeyManager where
  decrypt data :=
    if data = oldCipher then .ok "sk-old" else if data = newCipher then .ok "sk-new"
    else .error "decrypt: cipher: message authentication failed"
  fallback := [("openai", "sk-config")]

def oneRow : Table :=
  [{ id := "p1", provider := "openai", keyAlias := "main", encryptedKey := oldCipher }]

def rotated : Pool Shared Point where
  shared :=
    { table := oneRow.rotateKey "p1" newCipher
      cache := fun k => if clears "openai" k then none
        else Function.update (fun _ => none) (cacheKey "openai" "") (some
          { keys := [{ id := "p1", keyAlias := "main", decryptedKey := "sk-old", groupName := "",
                       weight := 100 }]
            cacheTime := 0, seen := 0 }) k
      past := [oneRow]
      cleared := fun k => if clears "openai" k then 1 else 0 }
  threads := [.selected "openai" "" (.ok "sk-old"), .invalidated "openai" 1]

theorem rotation_takes_effect_one_key :
    runFrom (Pool.step manager.code) (Pool.init { table := oneRow })
        [.start (.selectKey "openai" ""), .advance 0 {}, .advance 0 {}, .advance 0 {},
          .advance 0 {}, .start (.rotate "p1" newCipher), .advance 1 {}, .advance 1 {},
          .advance 1 {}] = some rotated ∧
      ∃ p, runFrom (Pool.step manager.code) rotated
          [.start (.selectKey "openai" ""), .advance 2 {}, .advance 2 {}, .advance 2 {},
            .advance 2 {}] = some p ∧
        p.threads[2]? = some (.selected "openai" "" (.ok "sk-new")) ∧
        ActiveSince manager p.shared 1 "openai" "" "sk-new" := by
  refine ⟨?hrun, ?p, ?hrest, ?hsel,
    rotation_takes_effect (d := 1) ?hok₁ ?hrun rfl ?hok₂ ?hrest 2 "" "sk-new" le_rfl ?hsel⟩
  case hrun | hrest | hsel => rfl
  case hok₁ | hok₂ => decide

/-- A reload lists before a rotation and stores after its invalidation: the old secret is selected
again. -/
theorem old_secret_returns :
    ∃ p₁ p₂, runFrom (Pool.step manager.code) (Pool.init { table := oneRow })
        [.start (.selectKey "openai" ""), .advance 0 {}, .advance 0 {},
          .start (.rotate "p1" newCipher), .advance 1 {}, .advance 1 {}, .advance 1 {}] = some p₁ ∧
      p₁.threads[1]? = some (.invalidated "openai" 1) ∧
      runFrom (Pool.step manager.code) p₁
        [.advance 0 {}, .start (.selectKey "openai" ""), .advance 2 {}, .advance 2 {}] = some p₂ ∧
      p₂.threads[2]? = some (.selected "openai" "" (.ok "sk-old")) ∧
      ¬ ActiveSince manager p₂.shared 1 "openai" "" "sk-old" := by
  refine ⟨_, _, rfl, rfl, rfl, rfl, ?_⟩
  rintro ⟨tb, htb, r, hr, hdec⟩
  have htables : tb ∈ [oneRow.rotateKey "p1" newCipher] := htb
  rw [mem_singleton.mp htables] at hr
  have hrow : r ∈ oneRow.rotateKey "p1" newCipher := hr
  rw [mem_singleton.mp hrow] at hdec
  exact absurd (Except.ok.inj hdec) (by decide)

end LlmRouter.Keys
