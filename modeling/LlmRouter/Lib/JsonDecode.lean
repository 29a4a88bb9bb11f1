import LlmRouter.Lib.JsonScan
import Mathlib.Data.String.Basic

/-!
# Decoding JSON into typed values

The rules of Go's `encoding/json`. A value is decoded into a variable that may already hold
something (`Into`): `null` clears a pointer, a slice or a map and leaves others; an array is
decoded into the elements that are there, also those left in the backing array; an object adds to
a map.

A struct is decoded field by field: `field` decodes, in order, all values whose keys match the
field's name up to case. In a map the last value of a repeated key counts (`member`).
-/

namespace LlmRouter.Lib.Json

open List

/-! ## Keys -/

/-- The value of a key: the last one, if the key is repeated. -/
def member (key : String) : List (String × Json) → Option Json
  | [] => none
  | (k, v) :: fs =>
    match member key fs with
    | some w => some w
    | none => if k = key then some v else none

/-- A letter up to its case. Only the long s and the Kelvin sign fold to ASCII from outside. -/
def foldChar (c : Char) : Char :=
  if 'a' ≤ c ∧ c ≤ 'z' then Char.ofNat (c.toNat - 32)
  else if c.toNat = 0x17F then 'S'
  else if c.toNat = 0x212A then 'K'
  else c

def foldName (s : String) : List Char := s.toList.map foldChar

def fieldValues (name : String) (fs : List (String × Json)) : List Json :=
  (fs.filter fun kv => foldName kv.1 == foldName name).map Prod.snd

theorem member_cons (key k : String) (v : Json) (fs : List (String × Json)) :
    member key ((k, v) :: fs) = (member key fs).or (if k = key then some v else none) := by
  rw [member]
  cases member key fs <;> rfl

theorem member_append (key : String) (fs gs : List (String × Json)) :
    member key (fs ++ gs) = (member key gs).or (member key fs) := by
  induction fs with
  | nil => rw [nil_append, member, Option.or_none]
  | cons kv fs ih =>
    obtain ⟨k, v⟩ := kv
    rw [cons_append, member_cons, member_cons, ih, Option.or_assoc]

variable {key name : String} {fs : List (String × Json)} {α : Type}

theorem member_eq_none_iff : member key fs = none ↔ ∀ kv ∈ fs, kv.1 ≠ key := by
  induction fs with
  | nil => simp [member]
  | cons kv fs ih =>
    obtain ⟨k, v⟩ := kv
    rw [member_cons, Option.or_eq_none_iff, ih, forall_mem_cons, and_comm]
    by_cases hk : k = key <;> simp [hk]

theorem member_eq_none_of_not_mem (h : key ∉ fs.map Prod.fst) : member key fs = none := by
  rw [member_eq_none_iff]
  rintro kv hkv rfl
  exact h (mem_map_of_mem hkv)

theorem fieldValues_cons {k : String} {v : Json} (hk : foldName k = foldName name → k = name) :
    fieldValues name ((k, v) :: fs) =
      if k = name then v :: fieldValues name fs else fieldValues name fs := by
  by_cases hname : k = name
  · rw [fieldValues, filter_cons_of_pos (by simp [hname]), if_pos hname]
    rfl
  · have hfold : ¬ foldName k = foldName name := fun h => hname (hk h)
    rw [fieldValues, filter_cons_of_neg (by simpa using hfold), if_neg hname]
    rfl

/-- Without keys that differ in case only, a field is its member. -/
theorem fieldValues_eq_member (hexact : ∀ kv ∈ fs, foldName kv.1 = foldName name → kv.1 = name)
    (hnodup : (fs.map Prod.fst).Nodup) : fieldValues name fs = (member name fs).toList := by
  induction fs with
  | nil => rfl
  | cons kv fs ih =>
    obtain ⟨k, v⟩ := kv
    rw [map_cons, nodup_cons] at hnodup
    obtain ⟨hk, hrest⟩ := forall_mem_cons.mp hexact
    rw [member_cons, fieldValues_cons hk, ih hrest hnodup.2]
    by_cases hname : k = name
    · subst hname
      simp [member_eq_none_of_not_mem hnodup.1]
    · rw [if_neg hname, if_neg hname, Option.or_none]

/-! ## Decoders -/

/-- Decoding a value into a variable; `none` is an error. -/
abbrev Into (α : Type) := Json → α → Option α

def intoString : Into String
  | .str s, _ => some s
  | .null, old => some old
  | _, _ => none

def intoBool : Into Bool
  | .bool b, _ => some b
  | .null, old => some old
  | _, _ => none

/-- `strconv.ParseInt(text, 10, 64)` of a number literal. -/
def intLit (n : NumLit) : Option Int :=
  let neg := n.text.head? = some '-'
  let digits := if neg then n.text.tail else n.text
  let magnitude : Int := Nat.ofDigitChars 10 digits 0
  let i := if neg then -magnitude else magnitude
  if digits.all Char.isDigit && decide (-2 ^ 63 ≤ i ∧ i < 2 ^ 63) then some i else none

def intoInt : Into Int
  | .num n, _ => intLit n
  | .null, old => some old
  | _, _ => none

def intoFloat (parseFloat : NumLit → Option Decimal) : Into Decimal
  | .num n, _ => parseFloat n
  | .null, old => some old
  | _, _ => none

/-- The text of a `json.RawMessage` as an encoder writes it, `null` included. Go brings the bytes
into this form when it encodes; here that is done at once, so the blanks and escapes that the client
sent are not in the model. -/
def rawText (v : Json) : String := String.ofList v.render

def intoRaw : Into String := fun v _ => some (rawText v)

section

variable {α : Type} (into : Into α) (zero : α)

def intoPtr : Into (Option α)
  | .null, _ => some none
  | v, old => (into v (old.getD zero)).map some

def intoElems : List Json → List α → Option (List α)
  | [], _ => some []
  | v :: vs, buf => do
    let a ← into v (buf.head?.getD zero)
    let as ← intoElems vs buf.tail
    return a :: as

/-- A slice that is not nil: its elements, and those of the backing array behind
them. -/
structure Slice (α : Type) where
  elems : List α
  stale : List α := []

def intoSlice : Into (Option (Slice α))
  | .null, _ => some none
  | .arr [], _ => some (some { elems := [] })
  | .arr vs, old =>
    let buf := old.elim [] fun s => s.elems ++ s.stale
    (intoElems into zero vs buf).map fun es => some { elems := es, stale := buf.drop es.length }
  | _, _ => none

/-- An entry of a map, whose entries are kept in the order of their keys. -/
def insertKey (key : String) (a : α) : List (String × α) → List (String × α)
  | [] => [(key, a)]
  | (k, b) :: m =>
    if key = k then (key, a) :: m
    else if key < k then (key, a) :: (k, b) :: m
    else (k, b) :: insertKey key a m

def intoEntries : List (String × Json) → List (String × α) → Option (List (String × α))
  | [], m => some m
  | (k, v) :: fs, m => (into v zero).bind fun a => intoEntries fs (insertKey k a m)

/-- Into a map with strings as keys; nil and the empty map are not told apart. -/
def intoMap : Into (List (String × α))
  | .null, _ => some []
  | .obj fs, old => intoEntries into zero fs old
  | _, _ => none

def intoAll : List Json → α → Option α
  | [], a => some a
  | v :: vs, a => (into v a).bind (intoAll vs)

def field (old : α) (name : String) (fs : List (String × Json)) : Option α :=
  intoAll into (fieldValues name fs) old

end

/-! ## What the decoders give -/

def IsInt64 (i : Int) : Prop := -2 ^ 63 ≤ i ∧ i < 2 ^ 63

theorem isInt64_zero : IsInt64 0 := ⟨by decide, by decide⟩

theorem isInt64_of_intLit {n : NumLit} {i : Int} (h : intLit n = some i) : IsInt64 i := by
  simp only [intLit, Option.ite_none_right_eq_some, Bool.and_eq_true, decide_eq_true_eq,
    Option.some.injEq] at h
  obtain ⟨⟨-, hrange⟩, rfl⟩ := h
  exact hrange

theorem intoInt_ofInt {i : Int} (hi : IsInt64 i) (old : Int) : intoInt (.ofInt i) old = some i := by
  have hall : ∀ n : Nat, (Nat.toDigits 10 n).all Char.isDigit = true := fun n =>
    all_eq_true.mpr fun c hc => Text.isDigit_of_mem_toDigits hc
  rw [ofInt, intoInt, intLit]
  cases i with
  | ofNat n =>
    have htext : (toString (Int.ofNat n)).toList = Nat.toDigits 10 n := Text.toList_toString_nat n
    have hhead : (Nat.toDigits 10 n).head? ≠ some '-' := by
      intro h
      exact Decimal.not_mem_toDigits (by decide) n (mem_of_mem_head? h)
    simp only [htext, hhead, if_false, hall, Nat.ofDigitChars_ten_toDigits, Bool.true_and]
    exact if_pos (decide_eq_true (p := -2 ^ 63 ≤ (n : Int) ∧ (n : Int) < 2 ^ 63) hi)
  | negSucc n =>
    simp only [toList_toString_negSucc, Text.toList_toString_nat, head?_cons, if_true,
      tail_cons, hall, Nat.ofDigitChars_ten_toDigits, Bool.true_and]
    have hneg : -((n + 1 : Nat) : Int) = Int.negSucc n := rfl
    rw [hneg]
    exact if_pos (decide_eq_true (p := -2 ^ 63 ≤ Int.negSucc n ∧ Int.negSucc n < 2 ^ 63) hi)

theorem intoElems_intoRaw (vs : List Json) (buf : List String) :
    intoElems intoRaw "" vs buf = some (vs.map rawText) := by
  induction vs generalizing buf with
  | nil => rfl
  | cons v vs ih => simp [intoElems, intoRaw, ih]

def SortedKeys {α : Type} (m : List (String × α)) : Prop := m.Pairwise fun a b => a.1 < b.1

section Maps

variable {α : Type} {m : List (String × α)}

variable {key : String} {into : Into α} {zero : α}

theorem mem_insertKey {a : α} {kv : String × α} (h : kv ∈ insertKey key a m) :
    kv = (key, a) ∨ kv ∈ m := by
  induction m with
  | nil => exact .inl (mem_singleton.mp h)
  | cons kb m ih =>
    obtain ⟨k, b⟩ := kb
    rw [insertKey] at h
    split_ifs at h with heq hlt
    · rcases mem_cons.mp h with h | h
      · exact .inl h
      · exact .inr (mem_cons_of_mem _ h)
    · rcases mem_cons.mp h with h | h
      · exact .inl h
      · exact .inr h
    · rcases mem_cons.mp h with h | h
      · exact .inr (h ▸ mem_cons_self)
      · exact (ih h).imp_right (mem_cons_of_mem _)

theorem sortedKeys_insertKey (hm : SortedKeys m) (key : String) (a : α) :
    SortedKeys (insertKey key a m) := by
  induction m with
  | nil => exact pairwise_singleton _ _
  | cons kb m ih =>
    obtain ⟨k, b⟩ := kb
    obtain ⟨hfirst, hrest⟩ := pairwise_cons.mp hm
    rw [insertKey]
    split_ifs with heq hlt
    · subst heq
      exact pairwise_cons.mpr ⟨hfirst, hrest⟩
    · refine pairwise_cons.mpr ⟨?_, hm⟩
      intro kv hkv
      rcases mem_cons.mp hkv with rfl | hkv
      · exact hlt
      · exact hlt.trans (hfirst kv hkv)
    · have hgt : k < key := lt_of_le_of_ne (not_lt.mp hlt) (Ne.symm heq)
      refine pairwise_cons.mpr ⟨?_, ih hrest⟩
      intro kv hkv
      rcases mem_insertKey hkv with rfl | hkv
      · exact hgt
      · exact hfirst kv hkv

theorem sortedKeys_of_intoMap {v : Json} {m' : List (String × α)} (hm : SortedKeys m)
    (h : intoMap into zero v m = some m') : SortedKeys m' := by
  cases v with
  | null =>
    obtain ⟨⟩ := h
    exact Pairwise.nil
  | obj fs =>
    replace h : intoEntries into zero fs m = some m' := h
    induction fs generalizing m with
    | nil =>
      obtain ⟨⟩ := h
      exact hm
    | cons kv fs ih =>
      obtain ⟨k, v⟩ := kv
      obtain ⟨a, -, hrest⟩ := Option.bind_eq_some_iff.mp h
      exact ih (sortedKeys_insertKey hm k a) hrest
  | _ => cases h

theorem insertKey_of_lt {a : α} (h : ∀ kv ∈ m, kv.1 < key) :
    insertKey key a m = m ++ [(key, a)] := by
  induction m with
  | nil => rfl
  | cons kb m ih =>
    obtain ⟨k, b⟩ := kb
    obtain ⟨hk, hrest⟩ := forall_mem_cons.mp h
    have hne : key ≠ k := (show k < key from hk).ne'
    rw [insertKey, if_neg hne, if_neg (lt_asymm hk), ih hrest, cons_append]

def entries (fs : List (String × Json)) (m : List (String × Json)) : List (String × Json) :=
  fs.foldl (fun m kv => insertKey kv.1 kv.2 m) m

theorem sortedKeys_entries {m : List (String × Json)} (hm : SortedKeys m)
    (fs : List (String × Json)) : SortedKeys (entries fs m) := by
  induction fs generalizing m with
  | nil => exact hm
  | cons kv fs ih => exact ih (sortedKeys_insertKey hm kv.1 kv.2)

theorem member_insertKey {m : List (String × Json)} (hm : SortedKeys m) (key k : String)
    (v : Json) : member key (insertKey k v m) = if k = key then some v else member key m := by
  induction m with
  | nil => exact member_cons ..
  | cons kb m ih =>
    obtain ⟨k', w⟩ := kb
    obtain ⟨hfirst, hrest⟩ := pairwise_cons.mp hm
    have hnone : ∀ k'', k'' ≤ k' → member k'' m = none := by
      intro k'' hle
      refine member_eq_none_iff.mpr fun kv hkv heq => ?_
      exact absurd (hfirst kv hkv) (not_lt.mpr (heq ▸ hle))
    rw [insertKey]
    by_cases hkey : k = key
    · subst hkey
      rw [if_pos rfl]
      split_ifs with heq hlt
      · rw [member_cons, if_pos rfl, hnone k heq.le]
        rfl
      · rw [member_cons, member_cons, hnone k hlt.le, if_neg (Ne.symm heq), if_pos rfl]
        rfl
      · rw [member_cons, ih hrest, if_pos rfl]
        rfl
    · rw [if_neg hkey]
      split_ifs with heq hlt
      · rw [member_cons, member_cons, if_neg hkey, if_neg (heq ▸ hkey)]
      · rw [member_cons, if_neg hkey, Option.or_none]
      · rw [member_cons, member_cons, ih hrest, if_neg hkey]

/-- In a map the last value of a key counts. -/
theorem member_entries {m : List (String × Json)} (hm : SortedKeys m) (key : String)
    (fs : List (String × Json)) :
    member key (entries fs m) = (member key fs).or (member key m) := by
  induction fs generalizing m with
  | nil => rfl
  | cons kv fs ih =>
    obtain ⟨k, v⟩ := kv
    show member key (entries fs (insertKey k v m)) = _
    rw [ih (sortedKeys_insertKey hm k v), member_insertKey hm, member_cons, Option.or_assoc]
    by_cases hk : k = key
    · rw [if_pos hk, if_pos hk]
      rfl
    · rw [if_neg hk, if_neg hk]
      rfl

theorem validFields_entries {m : List (String × Json)} (hm : ValidFields m)
    {fs : List (String × Json)} (hfs : ValidFields fs) : ValidFields (entries fs m) := by
  induction fs generalizing m with
  | nil => exact hm
  | cons kv fs ih =>
    obtain ⟨k, v⟩ := kv
    rw [ValidFields] at hfs
    refine ih ?_ hfs.2
    rw [validFields_iff] at hm ⊢
    intro kv hkv
    rcases mem_insertKey hkv with rfl | hkv
    · exact hfs.1
    · exact hm kv hkv

theorem member_filter {p : String × Json → Bool} (hp : ∀ v, p (key, v) = true)
    (fs : List (String × Json)) : member key (fs.filter p) = member key fs := by
  induction fs with
  | nil => rfl
  | cons kv fs ih =>
    obtain ⟨k, v⟩ := kv
    rw [member_cons]
    by_cases hkv : p (k, v) = true
    · rw [filter_cons_of_pos hkv, member_cons, ih]
    · have hk : k ≠ key := by
        rintro rfl
        exact hkv (hp v)
      rw [filter_cons_of_neg hkv, ih, if_neg hk, Option.or_none]

def ofMap (toJson : α → Json) (m : List (String × α)) : Json :=
  .obj (m.map fun kv => (kv.1, toJson kv.2))

/-- A map is read back from its JSON. -/
theorem intoMap_ofMap {toJson : α → Json} (hinto : ∀ a, into (toJson a) zero = some a)
    (hm : SortedKeys m) : intoMap into zero (ofMap toJson m) [] = some m := by
  have hgo : ∀ m acc : List (String × α), SortedKeys (acc ++ m) →
      intoEntries into zero (m.map fun kv => (kv.1, toJson kv.2)) acc = some (acc ++ m) := by
    intro m
    induction m with
    | nil =>
      intro acc _
      rw [append_nil]
      rfl
    | cons kb m ih =>
      intro acc hsorted
      obtain ⟨k, b⟩ := kb
      have hlt : ∀ kv ∈ acc, kv.1 < k := fun kv hkv =>
        (pairwise_append.mp hsorted).2.2 kv hkv (k, b) mem_cons_self
      rw [map_cons, intoEntries, hinto, Option.bind_some, insertKey_of_lt hlt,
        ih (acc ++ [(k, b)]) (by rwa [append_assoc]), append_assoc]
      rfl
  exact hgo m [] hm

end Maps

theorem intoAll_toList (into : Into α) (old : α) (v : Option Json) :
    intoAll into v.toList old = v.elim (some old) (into · old) := by
  cases v with
  | none => rfl
  | some v => exact Option.bind_fun_some _

theorem field_eq_member (into : Into α) (old : α)
    (hexact : ∀ kv ∈ fs, foldName kv.1 = foldName name → kv.1 = name)
    (hnodup : (fs.map Prod.fst).Nodup) :
    field into old name fs = (member name fs).elim (some old) (into · old) := by
  rw [field, fieldValues_eq_member hexact hnodup, intoAll_toList]

/-- What every value of a field keeps, the field keeps. -/
theorem intoAll_induction {into : Into α} {P : α → Prop} {vs : List Json} {old new : α}
    (hinto : ∀ v ∈ vs, ∀ a a', P a → into v a = some a' → P a') (hold : P old)
    (h : intoAll into vs old = some new) : P new := by
  induction vs generalizing old with
  | nil =>
    obtain ⟨⟩ := h
    exact hold
  | cons v vs ih =>
    obtain ⟨a, ha, hrest⟩ := Option.bind_eq_some_iff.mp h
    obtain ⟨hv, hvs⟩ := forall_mem_cons.mp hinto
    exact ih hvs (hv old a hold ha) hrest

def Keeps (P : α → Prop) (into : Into α) : Prop := ∀ v a a', P a → into v a = some a' → P a'

section Keeps

variable {into : Into α} {P : α → Prop} {zero old new : α}

theorem Keeps.field (h : Keeps P into) (hold : P old) (hread : field into old name fs = some new) :
    P new :=
  intoAll_induction (fun v _ => h v) hold hread

theorem keeps_intoInt : Keeps IsInt64 intoInt := by
  intro v a a' ha h
  cases v with
  | null => exact Option.some.inj h ▸ ha
  | num n => exact isInt64_of_intLit h
  | _ => cases h

theorem Keeps.ptr (h : Keeps P into) (hzero : P zero) :
    Keeps (fun o => ∀ a ∈ o, P a) (intoPtr into zero) := by
  intro v old new hold hread a ha
  have hstart : P (old.getD zero) := by
    cases old with
    | none => exact hzero
    | some b => exact hold b rfl
  cases v with
  | null => cases hread; cases ha
  | _ =>
    obtain ⟨b, hb, rfl⟩ := Option.map_eq_some_iff.mp hread
    cases ha
    exact h _ _ _ hstart hb

theorem Keeps.elems (h : Keeps P into) (hzero : P zero) {vs : List Json} {buf as : List α}
    (hbuf : ∀ a ∈ buf, P a) (hread : intoElems into zero vs buf = some as) : ∀ a ∈ as, P a := by
  induction vs generalizing buf as with
  | nil =>
    cases hread
    exact fun a ha => absurd ha not_mem_nil
  | cons v vs ih =>
    obtain ⟨a, ha, hrest⟩ := Option.bind_eq_some_iff.mp hread
    obtain ⟨more, hmore, heq⟩ := Option.bind_eq_some_iff.mp hrest
    cases heq
    have hstart : P (buf.head?.getD zero) := by
      cases buf with
      | nil => exact hzero
      | cons b buf => exact hbuf b mem_cons_self
    exact forall_mem_cons.mpr
      ⟨h v _ a hstart ha, ih (fun b hb => hbuf b (mem_of_mem_tail hb)) hmore⟩

theorem Keeps.slice (h : Keeps P into) (hzero : P zero) :
    Keeps (fun s => ∀ x ∈ s, ∀ a ∈ Slice.elems x ++ x.stale, P a) (intoSlice into zero) := by
  intro v old new hold hread
  have hbuf : ∀ a ∈ old.elim [] fun s => s.elems ++ s.stale, P a := by
    cases old with
    | none => exact fun a ha => absurd ha not_mem_nil
    | some s => exact hold s rfl
  cases v with
  | null => cases hread; simp
  | arr vs =>
    cases vs with
    | nil => cases hread; simp
    | cons v vs =>
      obtain ⟨as, has, rfl⟩ := Option.map_eq_some_iff.mp hread
      rintro _ ⟨⟩ a ha
      rcases mem_append.mp ha with ha | ha
      · exact h.elems hzero hbuf has a ha
      · exact hbuf a (mem_of_mem_drop ha)
  | _ => cases hread

end Keeps

/-! ## Encoding a struct -/

/-- The fields that are written, of all the fields of a struct. -/
def present (parts : List (String × Option Json)) : List (String × Json) :=
  parts.filterMap fun p => p.2.map (p.1, ·)

def Distinct (names : List String) : Prop := (names.map foldName).Nodup

instance (names : List String) : Decidable (Distinct names) :=
  inferInstanceAs (Decidable (names.map foldName).Nodup)

section Structs

variable {parts : List (String × Option Json)}

theorem present_cons (p : String × Option Json) (parts : List (String × Option Json)) :
    present (p :: parts) = (p.2.map (p.1, ·)).toList ++ present parts := by
  rw [present, filterMap_cons]
  cases p.2 <;> rfl

theorem keys_present_sublist (parts : List (String × Option Json)) :
    ((present parts).map Prod.fst).Sublist (parts.map Prod.fst) := by
  induction parts with
  | nil => exact Sublist.refl _
  | cons p parts ih =>
    obtain ⟨name, o⟩ := p
    rw [present_cons]
    cases o with
    | none => exact ih.cons _
    | some v => exact ih.cons_cons _

theorem mem_names_of_mem_present {kv : String × Json} (h : kv ∈ present parts) :
    kv.1 ∈ parts.map Prod.fst :=
  (keys_present_sublist parts).subset (mem_map_of_mem h)

theorem Distinct.eq_of_foldName {names : List String} (h : Distinct names) {a b : String}
    (ha : a ∈ names) (hb : b ∈ names) (hab : foldName a = foldName b) : a = b :=
  inj_on_of_nodup_map h ha hb hab

theorem member_present (parts : List (String × Option Json)) (hnames : (parts.map Prod.fst).Nodup)
    (name : String) : member name (present parts) = (parts.lookup name).getD none := by
  induction parts with
  | nil => rfl
  | cons p parts ih =>
    obtain ⟨k, o⟩ := p
    rw [map_cons, nodup_cons] at hnames
    have hfirst : member name ((o.map (k, ·)).toList) = if k = name then o else none := by
      cases o with
      | none => rw [ite_self]; rfl
      | some v => rfl
    rw [present_cons, member_append, ih hnames.2, hfirst, lookup_cons]
    by_cases hk : k = name
    · subst hk
      have hnone : parts.lookup k = none := by
        rw [lookup_eq_none_iff]
        intro p hp
        rw [bne_iff_ne, ne_eq]
        rintro rfl
        have hmem : p.1 ∈ parts.map Prod.fst := mem_map_of_mem hp
        exact hnames.1 hmem
      rw [hnone, if_pos rfl, beq_self_eq_true]
      rfl
    · rw [if_neg hk, Option.or_none, beq_eq_false_iff_ne.mpr (Ne.symm hk)]

/-- A field of a marshalled struct is read from its own part. -/
theorem field_present (parts : List (String × Option Json)) {α : Type} (into : Into α) (old : α)
    (hnames : Distinct (parts.map Prod.fst)) {name : String} (hname : name ∈ parts.map Prod.fst) :
    field into old name (present parts) =
      ((parts.lookup name).getD none).elim (some old) (into · old) := by
  have hnodup : (parts.map Prod.fst).Nodup := Nodup.of_map _ hnames
  rw [field_eq_member into old
    (fun kv hkv => hnames.eq_of_foldName (mem_names_of_mem_present hkv) hname)
    (hnodup.sublist (keys_present_sublist parts)), member_present parts hnodup]

theorem field_of_lookup (name : String) {into : Into α} {old a : α} {v : Json}
    (hnames : Distinct (parts.map Prod.fst)) (hpart : parts.lookup name = some (some v))
    (hinto : into v old = some a) : field into old name (present parts) = some a := by
  have hname : name ∈ parts.map Prod.fst := by
    by_contra hnot
    have hnone : parts.lookup name = none := by
      rw [lookup_eq_none_iff]
      intro p hp
      rw [bne_iff_ne, ne_eq]
      rintro rfl
      exact hnot (mem_map_of_mem hp)
    rw [hnone] at hpart
    cases hpart
  rw [field_present parts into old hnames hname, hpart]
  exact hinto

theorem validFields_present (h : ∀ p ∈ parts, ∀ v ∈ p.2, v.Valid) :
    ValidFields (present parts) := by
  rw [validFields_iff]
  intro kv hkv
  obtain ⟨⟨name, o⟩, hmem, ho⟩ := mem_filterMap.mp hkv
  obtain ⟨v, rfl, rfl⟩ := Option.map_eq_some_iff.mp ho
  exact h (name, some v) hmem v rfl

end Structs

end LlmRouter.Lib.Json
