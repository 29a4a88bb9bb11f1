import Mathlib.Data.Char
import Mathlib.Data.List.Basic

/-!
# Texts as bytes

UTF-8 as Go's conversions have it: decoding never fails, a byte that does not start an encoded
character reads as U+FFFD. Bytes below 128 never occur inside the encoding of another character,
so a text can be cut at any of them.
-/

namespace LlmRouter.Lib

open List

abbrev Bytes := List UInt8

namespace Utf8

def encode (cs : List Char) : Bytes := cs.flatMap String.utf8EncodeChar

/-- The characters of a text, when `skip` bytes still belong to the last one. -/
def decodeFrom : (skip : Nat) → Bytes → List Char
  | _, [] => []
  | 0, b :: bs =>
    if b.toNat < 128 then Char.ofNat b.toNat :: decodeFrom 0 bs
    else
      match ((b :: bs).take 4).toByteArray.utf8DecodeChar? 0 with
      | some c => c :: decodeFrom (c.utf8Size - 1) bs
      | none => Char.ofNat 0xFFFD :: decodeFrom 0 bs
  | skip + 1, _ :: bs => decodeFrom skip bs

def decode (bs : Bytes) : List Char := decodeFrom 0 bs

def bytes (s : String) : Bytes := encode s.toList

/-- The characters with the Unicode property `White_Space`. -/
def whiteSpace : List Char :=
  [9, 10, 11, 12, 13, 32, 0x85, 0xA0, 0x1680, 0x2000, 0x2001, 0x2002, 0x2003, 0x2004, 0x2005,
    0x2006, 0x2007, 0x2008, 0x2009, 0x200A, 0x2028, 0x2029, 0x202F, 0x205F, 0x3000].map Char.ofNat

/-! ### The bytes of one character -/

variable {c : Char} {b : UInt8}

theorem utf8EncodeChar_ascii (h : c.toNat < 128) :
    String.utf8EncodeChar c = [UInt8.ofNat c.toNat] :=
  if_pos (show c.val.toNat ≤ 0x7f from Nat.le_of_lt_succ h)

theorem utf8EncodeChar_ne_nil (c : Char) : String.utf8EncodeChar c ≠ [] := by
  have hpos := c.utf8Size_pos
  rw [← String.length_utf8EncodeChar] at hpos
  exact ne_nil_of_length_pos hpos

theorem le_of_mem_utf8EncodeChar (h : 128 ≤ c.toNat) (hb : b ∈ String.utf8EncodeChar c) :
    128 ≤ b.toNat := by
  have hlead : ∀ x m n : Nat, 0 < m → m + n ≤ 256 → 128 ≤ n →
      128 ≤ (UInt8.ofNat (x % m + n)).toNat := by
    intro x m n hm hmn hn
    have hlt := Nat.mod_lt x hm
    rw [UInt8.toNat_ofNat', Nat.mod_eq_of_lt (by omega)]
    omega
  have hbig : ¬ c.val.toNat ≤ 0x7f := Nat.not_le.mpr h
  unfold String.utf8EncodeChar at hb
  rw [if_neg hbig] at hb
  split_ifs at hb <;> simp only [mem_cons, not_mem_nil, or_false] at hb
  · rcases hb with rfl | rfl <;> exact hlead _ _ _ (by omega) (by omega) (by omega)
  · rcases hb with rfl | rfl | rfl <;> exact hlead _ _ _ (by omega) (by omega) (by omega)
  · rcases hb with rfl | rfl | rfl | rfl <;> exact hlead _ _ _ (by omega) (by omega) (by omega)

theorem toNat_ofNat_ascii (h : c.toNat < 128) : (UInt8.ofNat c.toNat).toNat = c.toNat := by
  rw [UInt8.toNat_ofNat', Nat.mod_eq_of_lt (by omega)]

theorem mem_of_mem_encode {cs : List Char} (hb : b.toNat < 128) (h : b ∈ encode cs) :
    Char.ofNat b.toNat ∈ cs := by
  obtain ⟨c, hc, hbc⟩ := mem_flatMap.mp h
  have hascii : c.toNat < 128 := by
    by_contra hbig
    have := le_of_mem_utf8EncodeChar (Nat.le_of_not_lt hbig) hbc
    omega
  rw [utf8EncodeChar_ascii hascii, mem_singleton] at hbc
  rw [hbc, toNat_ofNat_ascii hascii, Char.ofNat_toNat]
  exact hc

@[simp] theorem encode_cons (c : Char) (cs : List Char) :
    encode (c :: cs) = String.utf8EncodeChar c ++ encode cs := rfl

@[simp] theorem encode_append (cs ds : List Char) : encode (cs ++ ds) = encode cs ++ encode ds :=
  flatMap_append

/-! ### Reading -/

theorem decodeFrom_append (a bs : Bytes) : decodeFrom a.length (a ++ bs) = decode bs := by
  induction a with
  | nil => rfl
  | cons b a ih => exact ih

@[simp] theorem decode_nil : decode [] = [] := rfl

theorem decode_ascii (h : b.toNat < 128) (bs : Bytes) :
    decode (b :: bs) = Char.ofNat b.toNat :: decode bs := by
  show (if _ then _ else _ : List Char) = _
  rw [if_pos h]
  rfl

theorem utf8DecodeChar?_take (c : Char) (bs : Bytes) :
    ((String.utf8EncodeChar c ++ bs).take 4).toByteArray.utf8DecodeChar? 0 = some c := by
  have hlen : (String.utf8EncodeChar c).length ≤ 4 := by
    rw [String.length_utf8EncodeChar]
    exact c.utf8Size_le_four
  rw [take_append, take_of_length_le hlen, toByteArray_append]
  exact ByteArray.utf8DecodeChar?_utf8EncodeChar_append

theorem decode_utf8EncodeChar_append (c : Char) (bs : Bytes) :
    decode (String.utf8EncodeChar c ++ bs) = c :: decode bs := by
  by_cases hc : c.toNat < 128
  · rw [utf8EncodeChar_ascii hc, singleton_append,
      decode_ascii (by rw [toNat_ofNat_ascii hc]; exact hc), toNat_ofNat_ascii hc, Char.ofNat_toNat]
  · cases henc : String.utf8EncodeChar c with
    | nil => exact absurd henc (utf8EncodeChar_ne_nil c)
    | cons b a =>
      have hb : ¬ b.toNat < 128 := Nat.not_lt.mpr
        (le_of_mem_utf8EncodeChar (Nat.le_of_not_lt hc) (by rw [henc]; exact mem_cons_self))
      have hread := utf8DecodeChar?_take c bs
      rw [henc] at hread
      have hsize : c.utf8Size - 1 = a.length := by
        rw [← String.length_utf8EncodeChar, henc]
        rfl
      show (if _ then _ else _ : List Char) = _
      rw [if_neg hb]
      change (match ((b :: a ++ bs).take 4).toByteArray.utf8DecodeChar? 0 with
        | some c => c :: decodeFrom (c.utf8Size - 1) (a ++ bs)
        | none => Char.ofNat 0xFFFD :: decodeFrom 0 (a ++ bs)) = _
      rw [hread]
      show c :: decodeFrom (c.utf8Size - 1) (a ++ bs) = _
      rw [hsize, decodeFrom_append]

theorem decode_encode_append (cs : List Char) (bs : Bytes) :
    decode (encode cs ++ bs) = cs ++ decode bs := by
  induction cs with
  | nil => rfl
  | cons c cs ih =>
    rw [encode_cons, append_assoc, decode_utf8EncodeChar_append, ih]
    rfl

theorem decode_encode (cs : List Char) : decode (encode cs) = cs := by
  have h := decode_encode_append cs []
  rwa [append_nil, decode_nil, append_nil] at h

theorem eq_append_of_utf8DecodeChar? {bs : Bytes}
    (h : (bs.take 4).toByteArray.utf8DecodeChar? 0 = some c) :
    ∃ rest, bs = String.utf8EncodeChar c ++ rest := by
  obtain ⟨l, hl⟩ := ByteArray.exists_of_utf8DecodeChar?_eq_some h
  have hlist : bs.take 4 = String.utf8EncodeChar c ++ l.data.toList := by
    have := congrArg (fun b : ByteArray => b.data.toList) hl
    simpa using this
  exact ⟨l.data.toList ++ bs.drop 4, by rw [← append_assoc, ← hlist, take_append_drop]⟩

theorem prefix_of_append_cons {α : Type*} {p rest l more : List α} {x : α} (hx : x ∉ p)
    (h : p ++ rest = l ++ x :: more) : p <+: l := by
  rcases append_eq_append_iff.mp h with ⟨t, ht, -⟩ | ⟨t, ht, hrest⟩
  · exact ⟨t, ht.symm⟩
  · cases t with
    | nil => exact ⟨[], by rw [ht, append_nil, append_nil]⟩
    | cons y t =>
      obtain ⟨rfl, -⟩ := cons.inj hrest
      exact absurd (by rw [ht]; simp) hx

/-- What is read where no byte of ASCII stands: a character outside ASCII, for
one byte or more, all outside ASCII. -/
theorem decode_other (hb : 128 ≤ b.toNat) (bs : Bytes) :
    ∃ c a rest, 128 ≤ c.toNat ∧ bs = a ++ rest ∧ (∀ x ∈ a, 128 ≤ x.toNat) ∧
      decode (b :: bs) = c :: decode rest ∧
      ∀ x more, x.toNat < 128 →
        decode (b :: bs ++ x :: more) = c :: decode (rest ++ x :: more) := by
  have hnot : ¬ b.toNat < 128 := Nat.not_lt.mpr hb
  -- a character that starts with this byte
  have hchar : ∀ {c : Char} {l rest : Bytes}, b :: l = String.utf8EncodeChar c ++ rest →
      128 ≤ c.toNat := by
    intro c l rest heq
    by_contra hc
    rw [utf8EncodeChar_ascii (Nat.lt_of_not_le hc)] at heq
    have hhead := (cons.inj heq).1
    rw [hhead, toNat_ofNat_ascii (Nat.lt_of_not_le hc)] at hb
    omega
  cases hread : ((b :: bs).take 4).toByteArray.utf8DecodeChar? 0 with
  | some c =>
    obtain ⟨rest, hrest⟩ := eq_append_of_utf8DecodeChar? hread
    have hc := hchar hrest
    cases henc : String.utf8EncodeChar c with
    | nil => exact absurd henc (utf8EncodeChar_ne_nil c)
    | cons b' a =>
      have hbs : bs = a ++ rest := by
        rw [henc, cons_append] at hrest
        exact (cons.inj hrest).2
      refine ⟨c, a, rest, hc, hbs, fun x hx => ?_, ?_, fun x more _ => ?_⟩
      · exact le_of_mem_utf8EncodeChar hc (by rw [henc]; exact mem_cons_of_mem _ hx)
      · rw [hrest, decode_utf8EncodeChar_append]
      · rw [hrest, append_assoc, decode_utf8EncodeChar_append]
  | none =>
    refine ⟨Char.ofNat 0xFFFD, [], bs, by decide, rfl, by simp, ?_, fun x more hx => ?_⟩
    · show (if _ then _ else _ : List Char) = _
      rw [if_neg hnot, hread]
      rfl
    · -- the byte of ASCII does not complete a character
      have hnone : ((b :: (bs ++ x :: more)).take 4).toByteArray.utf8DecodeChar? 0 = none := by
        cases hread' : ((b :: (bs ++ x :: more)).take 4).toByteArray.utf8DecodeChar? 0 with
        | none => rfl
        | some c =>
          obtain ⟨rest, hrest⟩ := eq_append_of_utf8DecodeChar? hread'
          have hc := hchar hrest
          have hprefix : String.utf8EncodeChar c <+: b :: bs := by
            have hx' : x ∉ String.utf8EncodeChar c := fun hmem => by
              have := le_of_mem_utf8EncodeChar hc hmem
              omega
            exact prefix_of_append_cons hx' hrest.symm
          obtain ⟨t, ht⟩ := hprefix
          rw [← ht, utf8DecodeChar?_take] at hread
          cases hread
      show (if _ then _ else _ : List Char) = _
      rw [if_neg hnot]
      change (match ((b :: (bs ++ x :: more)).take 4).toByteArray.utf8DecodeChar? 0 with
        | some c => c :: decodeFrom (c.utf8Size - 1) (bs ++ x :: more)
        | none => Char.ofNat 0xFFFD :: decodeFrom 0 (bs ++ x :: more)) = _
      rw [hnone]
      rfl

theorem decode_append_ascii (bs : Bytes) {x : UInt8} (hx : x.toNat < 128) (more : Bytes) :
    decode (bs ++ x :: more) = decode bs ++ decode (x :: more) := by
  induction hn : bs.length using Nat.strongRecOn generalizing bs with
  | ind n ih =>
    cases bs with
    | nil => rfl
    | cons b bs =>
      subst hn
      by_cases hb : b.toNat < 128
      · rw [cons_append, decode_ascii hb, decode_ascii hb,
          ih bs.length (Nat.lt_succ_self _) bs rfl, cons_append]
      · obtain ⟨c, a, rest, -, rfl, -, hread, hread'⟩ := decode_other (Nat.le_of_not_lt hb) bs
        have hlt : rest.length < (b :: (a ++ rest)).length := by
          simp only [length_cons, length_append]
          omega
        rw [hread' x more hx, hread, ih rest.length hlt rest rfl, cons_append]

theorem getLast?_decode_other {bs : Bytes} (hlast : bs.getLast? = some b) (hb : 128 ≤ b.toNat) :
    ∃ c, (decode bs).getLast? = some c ∧ 128 ≤ c.toNat := by
  -- what is read first does not matter, unless it is all
  have hcons : ∀ {d : Char} {rest : Bytes},
      (∃ c, (decode rest).getLast? = some c ∧ 128 ≤ c.toNat) →
        ∃ c, (d :: decode rest).getLast? = some c ∧ 128 ≤ c.toNat := by
    rintro d rest ⟨c, hc, hother⟩
    exact ⟨c, by rw [getLast?_cons, hc]; rfl, hother⟩
  induction hn : bs.length using Nat.strongRecOn generalizing bs with
  | ind n ih =>
    subst hn
    cases bs with
    | nil => cases hlast
    | cons x bs =>
      have hrest : ∀ {rest : Bytes}, rest <:+ bs → rest ≠ [] →
          ∃ c, (decode rest).getLast? = some c ∧ 128 ≤ c.toNat := by
        rintro rest ⟨a, rfl⟩ hne
        have hlast' : rest.getLast? = some b := by
          rw [getLast?_cons, getLast?_append_of_ne_nil _ hne] at hlast
          rw [getLast?_eq_some_getLast hne] at hlast ⊢
          exact hlast
        refine ih rest.length ?_ hlast' rfl
        simp only [length_cons, length_append]
        omega
      by_cases hx : x.toNat < 128
      · rw [decode_ascii hx]
        refine hcons (hrest (suffix_refl bs) ?_)
        rintro rfl
        obtain rfl : x = b := Option.some.inj hlast
        omega
      · obtain ⟨c, a, rest, hc, rfl, -, hread, -⟩ := decode_other (Nat.le_of_not_lt hx) bs
        rw [hread]
        by_cases hne : rest = []
        · exact ⟨c, by rw [hne]; rfl, hc⟩
        · exact hcons (hrest (suffix_append a rest) hne)

example : decode (bytes "né (") = ['n', 'é', ' ', '('] := by decide

example : decode [0xC3, 0x28, 0xFF] = [Char.ofNat 0xFFFD, '(', Char.ofNat 0xFFFD] := by decide

end Utf8

end LlmRouter.Lib
