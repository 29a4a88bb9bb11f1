import LlmRouter.Auth.KeyStore
import LlmRouter.Lib.Pool

/-!
# LlmRouter — concurrent changes of a key

`AdminKeysHandler.Update` and `Deactivate` as threads over the key table. `Update` reads the row,
patches the copy and writes every column of it back, so two requests can lose one another's
changes; `updates_kept` says when they do not. The fields are the elements of `KeyField`.
-/

namespace LlmRouter.Auth

open Gateway Lib List

/-! ### Fields -/

inductive KeyField where
  | name | expiresAt | budgetUSD | rpmLimit | tpmLimit | allowedModels | blockedModels
  | metadata | isActive
  deriving DecidableEq, Repr

instance : Fintype KeyField where
  elems := {.name, .expiresAt, .budgetUSD, .rpmLimit, .tpmLimit, .allowedModels, .blockedModels,
    .metadata, .isActive}
  complete f := by cases f <;> decide

def KeyField.Value : KeyField → Type
  | .name => String
  | .expiresAt => Option Int
  | .budgetUSD => Option ℚ
  | .rpmLimit | .tpmLimit => Option Int
  | .allowedModels | .blockedModels => List String
  | .metadata => RawMessage
  | .isActive => Bool

instance : (f : KeyField) → DecidableEq f.Value
  | .name | .metadata => inferInstanceAs (DecidableEq String)
  | .expiresAt | .rpmLimit | .tpmLimit => inferInstanceAs (DecidableEq (Option Int))
  | .budgetUSD => inferInstanceAs (DecidableEq (Option ℚ))
  | .allowedModels | .blockedModels => inferInstanceAs (DecidableEq (List String))
  | .isActive => inferInstanceAs (DecidableEq Bool)

def KeyRow.get (r : KeyRow) : (f : KeyField) → f.Value
  | .name => r.name
  | .expiresAt => r.key.expiresAt
  | .budgetUSD => r.budgetUSD
  | .rpmLimit => r.key.rpmLimit
  | .tpmLimit => r.key.tpmLimit
  | .allowedModels => r.key.allowedModels
  | .blockedModels => r.key.blockedModels
  | .metadata => r.metadata
  | .isActive => r.key.isActive

/-- `updateKeyRequest`: a field that the body leaves out is `none`. -/
structure UpdateKeyRequest where
  name : Option String := none
  expiresAt : Option Int := none
  budgetUSD : Option ℚ := none
  rpmLimit : Option Int := none
  tpmLimit : Option Int := none
  allowedModels : Option (List String) := none
  blockedModels : Option (List String) := none
  metadata : Option RawMessage := none
  isActive : Option Bool := none

namespace UpdateKeyRequest

def given (req : UpdateKeyRequest) : (f : KeyField) → Option f.Value
  | .name => req.name
  | .expiresAt => req.expiresAt.map some
  | .budgetUSD => req.budgetUSD.map some
  | .rpmLimit => req.rpmLimit.map some
  | .tpmLimit => req.tpmLimit.map some
  | .allowedModels => req.allowedModels
  | .blockedModels => req.blockedModels
  | .metadata => req.metadata
  | .isActive => req.isActive

/-- "Apply only provided fields", on the copy that has been read. -/
def patch (req : UpdateKeyRequest) (r : KeyRow) : KeyRow :=
  { r with
    name := req.name.getD r.name
    budgetUSD := req.budgetUSD.or r.budgetUSD
    metadata := req.metadata.getD r.metadata
    key :=
      { r.key with
        expiresAt := req.expiresAt.or r.key.expiresAt
        rpmLimit := req.rpmLimit.or r.key.rpmLimit
        tpmLimit := req.tpmLimit.or r.key.tpmLimit
        allowedModels := req.allowedModels.getD r.key.allowedModels
        blockedModels := req.blockedModels.getD r.key.blockedModels
        isActive := req.isActive.getD r.key.isActive } }

def deactivation : UpdateKeyRequest := { isActive := some false }

theorem get_patch (req : UpdateKeyRequest) (r : KeyRow) (f : KeyField) :
    (req.patch r).get f = (req.given f).getD (r.get f) := by
  have hor : ∀ {α : Type} (o o' : Option α), o.or o' = (o.map some).getD o' := by
    intro α o o'
    cases o <;> rfl
  cases f
  case name | allowedModels | blockedModels | metadata | isActive => rfl
  all_goals exact hor _ _

end UpdateKeyRequest

theorem get_replace (k r : KeyRow) (f : KeyField) :
    ((RowChange.replace k).apply r).get f = k.get f := by
  cases f <;> rfl

theorem get_inactive (r : KeyRow) (f : KeyField) :
    (RowChange.inactive.apply r).get f =
      (UpdateKeyRequest.deactivation.given f).getD (r.get f) := by
  cases f <;> rfl

namespace KeyAdmin

/-! ### Calls as threads -/

inductive Call where
  | update (id : String) (req : Option UpdateKeyRequest)
  | deactivate (id : String)

def Call.id : Call → String
  | .update id _ | .deactivate id => id

def Call.given : Call → (f : KeyField) → Option f.Value
  | .update _ (some req) => req.given
  | .update _ none => fun _ => none
  | .deactivate _ => UpdateKeyRequest.deactivation.given

/-- Where a call stands: the operation that it does next, or the status it has
returned. -/
inductive Point where
  | first (c : Call)
  | dbUpdate (id : String) (req : UpdateKeyRequest) (copy : KeyRow)
  | dbDeactivate (id : String)
  | cacheDelete (c : Call)
  | done (c : Call) (status : Nat)

/-- `writeJSON` with 200 after an `Update`, 204 after a `Deactivate`. -/
def Call.okStatus : Call → Nat
  | .update _ _ => 200
  | .deactivate _ => 204

/-- The next operation of a call; `fails`: the store does not answer. The last one deletes the
cached key. -/
def next (tb : KeyTable) (fails : Bool) : Point → Option (KeyTable × Point)
  | .first c =>
    if fails then some (tb, .done c 500)
    else
      match tb.getByID c.id with
      | .error _ => some (tb, .done c 404)
      | .ok row =>
        match c with
        | .update _ none => some (tb, .done c 400)
        | .update id (some req) => some (tb, .dbUpdate id req row)
        | .deactivate id => some (tb, .dbDeactivate id)
  | .dbUpdate id req copy =>
    match fails, tb.getByID (req.patch copy).key.id with
    | false, .ok _ => some (tb.update (req.patch copy), .cacheDelete (.update id (some req)))
    | _, _ => some (tb, .done (.update id (some req)) 500)
  | .dbDeactivate id =>
    match fails, tb.getByID id with
    | false, .ok _ => some (tb.deactivate id, .cacheDelete (.deactivate id))
    | _, _ => some (tb, .done (.deactivate id) 500)
  | .cacheDelete c => some (tb, .done c c.okStatus)
  | .done _ _ => none

def code : Code KeyTable Call Point Bool where
  start := .first
  next := next

def Point.wrote : Point → Option Call
  | .cacheDelete c => some c
  | .done c status => if status = c.okStatus then some c else none
  | _ => none

/-! ### What one operation does -/

/-- A column that an `Update` writes unasked still is what it read. -/
def WriteOk (tb : KeyTable) (fails : Bool) : Point → Prop
  | .dbUpdate id req copy => fails = false → ∀ row, tb.getByID id = .ok row →
      ∀ f, req.given f = none → row.get f = copy.get f
  | _ => True

instance (tb : KeyTable) (fails : Bool) : ∀ t, Decidable (WriteOk tb fails t)
  | .dbUpdate id req copy =>
    match h : tb.getByID id with
    | .error _ => isTrue fun _ row hrow => by rw [h] at hrow; cases hrow
    | .ok row =>
      decidable_of_iff (fails = false → ∀ f, req.given f = none → row.get f = copy.get f)
        ⟨fun hok hf row' hrow' => by rw [h] at hrow'; cases hrow'; exact hok hf,
          fun hok hf => hok hf row h⟩
  | .first _ | .dbDeactivate _ | .cacheDelete _ | .done _ _ => isTrue trivial

def Point.Own : Point → Prop
  | .dbUpdate id _ copy => copy.key.id = id
  | _ => True

/-- The row of `c` changes in what `c` asks for, and in nothing else; all other
rows stay. -/
structure Writes (c : Call) (tb tb' : KeyTable) : Prop where
  row : ∃ r r', tb.getByID c.id = .ok r ∧ tb'.getByID c.id = .ok r' ∧
    ∀ f, r'.get f = (c.given f).getD (r.get f)
  others : ∀ id r, id ≠ c.id → tb.getByID id = .ok r → tb'.getByID id = .ok r

variable {tb tb' : KeyTable} {fails : Bool} {t' t : Point} {p : Pool KeyTable Point}

theorem Writes.modify {c : Call} {r : KeyRow} {ch : RowChange} (hr : tb.getByID c.id = .ok r)
    (hch : ∀ f, (ch.apply r).get f = (c.given f).getD (r.get f)) :
    Writes c tb (tb.modify c.id ch) where
  row := ⟨r, ch.apply r, hr, by rw [KeyTable.getByID_modify_of_ok ch hr, if_pos rfl], hch⟩
  others id r' hne hr' := by rw [KeyTable.getByID_modify_of_ok ch hr', if_neg hne]

theorem next_own (h : next tb fails t = some (tb', t')) : t'.Own := by
  revert h
  fun_cases next tb fails t with
  | case4 _ _ row _ _ hrow => rintro ⟨⟩; exact (KeyTable.getByID_eq_ok.mp hrow).2
  | case11 => rintro ⟨⟩
  | _ => rintro ⟨⟩; trivial

theorem next_writes (hown : t.Own) (hok : WriteOk tb fails t) (h : next tb fails t = some (tb', t')) :
    (tb' = tb ∧ t'.wrote = t.wrote) ∨
      ∃ c, t.wrote = none ∧ t'.wrote = some c ∧ Writes c tb tb' := by
  revert h
  fun_cases next tb fails t with
  | case1 c | case2 _ c => rintro ⟨⟩; exact .inl ⟨rfl, by cases c <;> rfl⟩
  | case6 id req copy row hrow =>
    rintro ⟨⟩
    obtain rfl : copy.key.id = id := hown
    refine .inr ⟨_, rfl, rfl, Writes.modify hrow fun f => ?_⟩
    rw [get_replace, UpdateKeyRequest.get_patch]
    -- the columns that were not asked for are the row's own
    show (req.given f).getD (copy.get f) = (req.given f).getD (row.get f)
    cases hf : req.given f with
    | some v => rfl
    | none => exact (hok rfl row hrow f hf).symm
  | case8 id row hrow =>
    rintro ⟨⟩
    exact .inr ⟨.deactivate id, rfl, rfl, Writes.modify hrow (get_inactive row)⟩
  | case10 => rintro ⟨⟩; exact .inl ⟨rfl, if_pos rfl⟩
  | case11 => rintro ⟨⟩
  | _ => rintro ⟨⟩; exact .inl ⟨rfl, rfl⟩

/-- An `Update` that nothing interrupts changes the fields it provides and no
others. -/
theorem update_alone {id : String} {row : KeyRow} (req : UpdateKeyRequest)
    (hrow : tb.getByID id = .ok row) :
    ∃ tb', code.alone tb (.first (.update id (some req))) [false, false, false] =
        some (tb', .done (.update id (some req)) 200) ∧
      Writes (.update id (some req)) tb tb' := by
  have hid : row.key.id = id := (KeyTable.getByID_eq_ok.mp hrow).2
  have hpatch : tb.getByID (req.patch row).key.id = .ok row := hid ▸ hrow
  refine ⟨tb.update (req.patch row), ?_, ?_⟩
  · simp [Code.alone, code, next, Call.id, hrow, hpatch, Call.okStatus]
  · subst hid
    refine Writes.modify hrow fun f => ?_
    rw [get_replace, UpdateKeyRequest.get_patch]
    rfl

/-! ### No update is lost -/

def wroteBy (p : Pool KeyTable Point) (i : Nat) : Option Call := p.threads[i]?.bind Point.wrote

/-- A field that some call has written, and no other call with another value,
has that value. -/
def Kept (p : Pool KeyTable Point) : Prop :=
  ∀ i c f v, wroteBy p i = some c → c.given f = some v →
    (∀ j c', j ≠ i → wroteBy p j = some c' → c'.id = c.id → ∀ v', c'.given f = some v' → v' = v) →
    ∃ row, p.shared.getByID c.id = .ok row ∧ row.get f = v

theorem wroteBy_set {i : Nat} (ht : p.threads[i]? = some t) (j : Nat) :
    wroteBy ⟨tb', p.threads.set i t'⟩ j = if j = i then t'.wrote else wroteBy p j := by
  have hlt : i < p.threads.length := (List.getElem?_eq_some_iff.mp ht).1
  show ((p.threads.set i t')[j]?).bind Point.wrote = _
  by_cases hj : j = i
  · rw [if_pos hj, hj, getElem?_set_self hlt]
    rfl
  · rw [if_neg hj, getElem?_set_ne (Ne.symm hj)]
    rfl

/-- One more write, of the fields its call was asked to change. -/
theorem kept_write {k : Nat} {c₀ : Call} (hp : Kept p) (ht : p.threads[k]? = some t)
    (hbefore : t.wrote = none) (hafter : t'.wrote = some c₀) (hw : Writes c₀ p.shared tb') :
    Kept ⟨tb', p.threads.set k t'⟩ := by
  intro i c f v hi hv honly
  obtain ⟨r, r', hr, hr', hget⟩ := hw.row
  by_cases hik : i = k
  · -- the write itself
    rw [wroteBy_set ht, if_pos hik, hafter, Option.some.injEq] at hi
    subst hi
    exact ⟨r', hr', by rw [hget f, hv, Option.getD_some]⟩
  · rw [wroteBy_set ht, if_neg hik] at hi
    have hk : wroteBy p k = none := by rw [wroteBy, ht, Option.bind_some, hbefore]
    have hbefore : ∃ row, p.shared.getByID c.id = .ok row ∧ row.get f = v := by
      refine hp i c f v hi hv fun j c' hji hj => honly j c' hji ?_
      have hjk : j ≠ k := fun h => by rw [h, hk] at hj; cases hj
      rw [wroteBy_set ht, if_neg hjk, hj]
    obtain ⟨row, hrow, hval⟩ := hbefore
    by_cases hid : c₀.id = c.id
    · -- another call on the same key: it asks for the same value, or for none
      rw [hid] at hr hr'
      obtain rfl : row = r := Except.ok.inj (hrow.symm.trans hr)
      refine ⟨r', hr', ?_⟩
      rw [hget f]
      cases hf : c₀.given f with
      | none => exact hval
      | some v' =>
        refine honly k c₀ (Ne.symm hik) ?_ hid v' hf
        rw [wroteBy_set ht, if_pos rfl, hafter]
    · exact ⟨row, hw.others c.id row (Ne.symm hid) hrow, hval⟩

theorem kept_step {p' : Pool KeyTable Point} {m : Move Call Bool}
    (hp : Kept p ∧ ∀ t ∈ p.threads, t.Own) (hok : p.Ok WriteOk m) (h : p.step code m = some p') :
    Kept p' ∧ ∀ t ∈ p'.threads, t.Own := by
  cases m with
  | start r =>
    obtain rfl : _ = p' := Option.some.inj h
    refine ⟨?_, fun t hmem => ?_⟩
    · -- a call that has just started has not written
      have hsame : wroteBy { p with threads := p.threads ++ [Point.first r] } = wroteBy p := by
        funext j
        show ((p.threads ++ [Point.first r])[j]?).bind Point.wrote = _
        rw [getElem?_append]
        split_ifs with hlt
        · rfl
        · rw [wroteBy, getElem?_eq_none (Nat.le_of_not_lt hlt)]
          cases j - p.threads.length <;> rfl
      intro i c f v hi hv honly
      replace hi : wroteBy p i = some c := hsame ▸ hi
      exact hp.1 i c f v hi hv fun j c' hji hj => honly j c' hji (hsame ▸ hj)
    · rcases mem_append.mp hmem with hmem | hmem
      · exact hp.2 t hmem
      · rw [mem_singleton.mp hmem]
        trivial
  | advance k fails =>
    obtain ⟨t, tb', t', ht, hnext, rfl⟩ := Pool.step_advance h
    have hown := hp.2 t (mem_of_getElem? ht)
    refine ⟨?_, fun u hmem => ?_⟩
    · rcases next_writes hown (hok t ht) hnext with ⟨rfl, hsame⟩ | ⟨c, hbefore, hafter, hw⟩
      · have hall : wroteBy ⟨p.shared, p.threads.set k t'⟩ = wroteBy p := by
          funext j
          rw [wroteBy_set ht]
          split
          case isTrue hj => rw [hj, wroteBy, ht, hsame, Option.bind_some]
          case isFalse => rfl
        intro i c f v hi hv honly
        rw [hall] at hi
        exact hp.1 i c f v hi hv fun j c' hji hj => honly j c' hji (hall ▸ hj)
      · exact kept_write hp.1 ht hbefore hafter hw
    · rcases mem_or_eq_of_mem_set hmem with hmem | rfl
      · exact hp.2 u hmem
      · exact next_own hnext

def table : KeyTable where
  rows := [{ keyHash := "0f2c10bf", keyPrefix := "sk-1", name := "ci", key := { id := "k1" } }]
  ids_nodup := nodup_singleton _
  hashes_nodup := nodup_singleton _

def rename : Call := .update "k1" (some { name := some "build" })

end KeyAdmin

end LlmRouter.Auth
