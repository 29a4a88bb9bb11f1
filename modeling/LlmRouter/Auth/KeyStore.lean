import LlmRouter.Auth.Access

/-!
# LlmRouter — the virtual key store

The `virtual_keys` table behind `postgres.VirtualKeyStore`, with the columns that requests and
admin calls use. The primary key and the UNIQUE hash are fields of the table, so every statement
keeps them. `getByID`, `getByHash_eq_ok` and `getByID_modify` are the interface.
-/

namespace LlmRouter.Auth

open Gateway Lib List

structure KeyRow where
  keyHash : String
  keyPrefix : String
  name : String := ""
  budgetUSD : Option ℚ := none
  metadata : RawMessage := "\x7b\x7d"
  key : VirtualKey
  deriving DecidableEq

structure KeyTable where
  rows : List KeyRow
  ids_nodup : (rows.map fun r => r.key.id).Nodup
  hashes_nodup : (rows.map KeyRow.keyHash).Nodup

structure RowChange where
  apply : KeyRow → KeyRow
  id_eq : ∀ r, (apply r).key.id = r.key.id
  keyHash_eq : ∀ r, (apply r).keyHash = r.keyHash

def KeyTable.modify (tb : KeyTable) (id : String) (c : RowChange) : KeyTable where
  rows := tb.rows.map fun r => if r.key.id = id then c.apply r else r
  ids_nodup := by
    have h : (fun r : KeyRow => (if r.key.id = id then c.apply r else r).key.id) =
        fun r => r.key.id := by
      funext r
      split <;> simp [c.id_eq]
    rw [map_map, Function.comp_def, h]
    exact tb.ids_nodup
  hashes_nodup := by
    have h : (fun r : KeyRow => (if r.key.id = id then c.apply r else r).keyHash) =
        KeyRow.keyHash := by
      funext r
      split <;> simp [c.keyHash_eq]
    rw [map_map, Function.comp_def, h]
    exact tb.hashes_nodup

def RowChange.inactive : RowChange where
  apply r := { r with key := { r.key with isActive := false } }
  id_eq _ := rfl
  keyHash_eq _ := rfl

/-- The columns that `Update` sets: all that can change, from `k`. -/
def RowChange.replace (k : KeyRow) : RowChange where
  apply r :=
    { r with
      name := k.name
      budgetUSD := k.budgetUSD
      metadata := k.metadata
      key :=
        { r.key with
          expiresAt := k.key.expiresAt
          rpmLimit := k.key.rpmLimit
          tpmLimit := k.key.tpmLimit
          allowedModels := k.key.allowedModels
          blockedModels := k.key.blockedModels
          isActive := k.key.isActive } }
  id_eq _ := rfl
  keyHash_eq _ := rfl

namespace KeyTable

variable (tb : KeyTable)

def getByID (id : String) : Except LookupError KeyRow :=
  match tb.rows.find? fun r => decide (r.key.id = id) with
  | some r => .ok r
  | none => .error .keyNotFound

/-- The database refuses a prefix that is no UTF-8. -/
def getByHash (keyPrefix : Bytes) (keyHash : String) : Except LookupError KeyRow :=
  if Utf8.encode (Utf8.decode keyPrefix) ≠ keyPrefix then
    .error (.other "invalid byte sequence for encoding \"UTF8\"")
  else
    match tb.rows.find? fun r =>
        decide (Utf8.bytes r.keyPrefix = keyPrefix ∧ r.keyHash = keyHash) with
    | some r => .ok r
    | none => .error .keyNotFound

def deactivate (id : String) : KeyTable := tb.modify id .inactive

def update (k : KeyRow) : KeyTable := tb.modify k.key.id (.replace k)

variable {tb}

variable {id : String} {r : KeyRow}

theorem getByID_eq_ok : tb.getByID id = .ok r ↔ r ∈ tb.rows ∧ r.key.id = id := by
  unfold getByID
  constructor
  · intro h
    split at h
    case h_1 r' hfind =>
      cases h
      exact ⟨mem_of_find?_eq_some hfind, by simpa using find?_some hfind⟩
    case h_2 => cases h
  · rintro ⟨hmem, hid⟩
    split
    case h_1 r' hfind =>
      have hid' : r'.key.id = id := by simpa using find?_some hfind
      have hsame : r' = r :=
        inj_on_of_nodup_map tb.ids_nodup (mem_of_find?_eq_some hfind) hmem
          (hid'.trans hid.symm)
      rw [hsame]
    case h_2 hnone => exact absurd hid (by simpa using find?_eq_none.mp hnone r hmem)

theorem getByHash_eq_ok {keyPrefix : Bytes} {keyHash : String}
    (h : tb.getByHash keyPrefix keyHash = .ok r) :
    tb.getByID r.key.id = .ok r ∧ r.keyHash = keyHash := by
  unfold getByHash at h
  split_ifs at h
  split at h
  case h_1 r' hfind =>
    cases h
    have hboth : Utf8.bytes r.keyPrefix = keyPrefix ∧ r.keyHash = keyHash := by
      simpa using find?_some hfind
    exact ⟨getByID_eq_ok.mpr ⟨mem_of_find?_eq_some hfind, rfl⟩, hboth.2⟩
  case h_2 => cases h

/-- An `UPDATE` changes its row and no other. -/
theorem getByID_modify {id' : String} {c : RowChange} {r' : KeyRow}
    (h : (tb.modify id c).getByID id' = .ok r') :
    ∃ r, tb.getByID id' = .ok r ∧ r' = if id' = id then c.apply r else r := by
  obtain ⟨hmem, hid⟩ := getByID_eq_ok.mp h
  obtain ⟨r, hr, rfl⟩ := mem_map.mp hmem
  have hrid : r.key.id = id' := by
    rw [← hid]
    split <;> simp [c.id_eq]
  exact ⟨r, getByID_eq_ok.mpr ⟨hr, hrid⟩, by rw [hrid]⟩

theorem getByID_modify_of_ok {id' : String} (c : RowChange) (h : tb.getByID id' = .ok r) :
    (tb.modify id c).getByID id' = .ok (if id' = id then c.apply r else r) := by
  obtain ⟨hmem, hid⟩ := getByID_eq_ok.mp h
  refine getByID_eq_ok.mpr ⟨mem_map.mpr ⟨r, hmem, by rw [hid]⟩, ?_⟩
  split
  · rw [c.id_eq, hid]
  · exact hid

end KeyTable

end LlmRouter.Auth
