import Mathlib.Data.List.Basic
import Mathlib.Data.Nat.Digits.Defs

/-!
# Text built from fields and separators

Keys and members are written as fields joined by a separator. Reading them
back is unambiguous as long as the separator cannot occur in the field before
it; decimal numerals never contain anything but digits.
-/

namespace LlmRouter.Lib.Text

open List

variable {α : Type*}

/-- Texts without the separator are recovered from their join. -/
theorem append_cons_inj {sep : α} {a a' b b' : List α} (ha : sep ∉ a) (ha' : sep ∉ a')
    (h : a ++ sep :: b = a' ++ sep :: b') : a = a' ∧ b = b' := by
  induction a generalizing a' with
  | nil =>
    cases a' with
    | nil => simpa using h
    | cons x a' =>
      simp only [nil_append, cons_append, cons.injEq] at h
      exact absurd (h.1 ▸ mem_cons_self) ha'
  | cons x a ih =>
    cases a' with
    | nil =>
      simp only [nil_append, cons_append, cons.injEq] at h
      exact absurd (h.1 ▸ mem_cons_self) ha
    | cons y a' =>
      simp only [cons_append, cons.injEq] at h
      obtain ⟨rfl, rfl⟩ :=
        ih (not_mem_of_not_mem_cons ha) (not_mem_of_not_mem_cons ha') h.2
      exact ⟨by rw [h.1], rfl⟩

theorem isDigit_of_mem_toDigits {c : Char} {n : Nat} (h : c ∈ Nat.toDigits 10 n) :
    c.isDigit = true :=
  Nat.isDigit_of_mem_toDigits (by omega) (by omega) h

theorem toList_toString_nat (n : Nat) : (toString n).toList = Nat.toDigits 10 n := by
  simp [toString, Nat.repr]

theorem not_mem_toString_nat {c : Char} (hc : c.isDigit = false) (n : Nat) :
    c ∉ (toString n).toList := by
  rw [toList_toString_nat]
  intro hmem
  rw [isDigit_of_mem_toDigits hmem] at hc
  cases hc

theorem toDigits_injective : Function.Injective (Nat.toDigits 10) := by
  intro m n h
  have hm : Nat.ofDigitChars 10 (Nat.toDigits 10 m) 0 = m :=
    Nat.ofDigitChars_toDigits (by omega) (by omega)
  rw [← hm, h]
  exact Nat.ofDigitChars_toDigits (by omega) (by omega)

theorem toString_nat_injective : Function.Injective (fun n : Nat => (toString n).toList) := by
  simp only [toList_toString_nat]
  exact toDigits_injective

/-! ## Zero-padded numerals -/

def pad (k n : Nat) : List Char :=
  replicate (k - (Nat.toDigits 10 n).length) '0' ++ Nat.toDigits 10 n

theorem ofDigitChars_pad (k n : Nat) : Nat.ofDigitChars 10 (pad k n) 0 = n := by
  rw [pad, Nat.ofDigitChars_append, Nat.ofDigitChars_replicate_zero, Nat.mul_zero]
  exact Nat.ofDigitChars_ten_toDigits

theorem pad_injective (k : Nat) : Function.Injective (pad k) := by
  intro m n h
  rw [← ofDigitChars_pad k m, h, ofDigitChars_pad]

theorem length_pad {k n : Nat} (hk : 0 < k) (hn : n < 10 ^ k) : (pad k n).length = k := by
  have hlen := (Nat.length_toDigits_le_iff (b := 10) (by omega) hk).mpr hn
  simp only [pad, length_append, length_replicate]
  omega

theorem isDigit_of_mem_pad {c : Char} {k n : Nat} (h : c ∈ pad k n) : c.isDigit = true := by
  rcases mem_append.mp h with h | h
  · rw [eq_of_mem_replicate h]
    decide
  · exact isDigit_of_mem_toDigits h

def InOrder {α : Type*} : List (List α) → List α → Prop
  | [], _ => True
  | t :: ts, s => ∃ pre rest, s = pre ++ (t ++ rest) ∧ InOrder ts rest

theorem InOrder.length_le {ts : List (List α)} {s : List α} (h : InOrder ts s) :
    (ts.map length).sum ≤ s.length := by
  induction ts generalizing s with
  | nil => exact Nat.zero_le _
  | cons t ts ih =>
    obtain ⟨pre, rest, rfl, hrest⟩ := h
    have hle := ih hrest
    simp only [map_cons, sum_cons, length_append]
    omega

theorem inOrder_flatten (ts : List (List α)) : InOrder ts ts.flatten := by
  induction ts with
  | nil => trivial
  | cons t ts ih => exact ⟨[], ts.flatten, rfl, ih⟩

/-- The last text holds them all in order iff the others are empty. -/
theorem inOrder_getLast_iff (ts : List (List α)) :
    InOrder ts (ts.getLast?.getD []) ↔ ∀ t ∈ ts.dropLast, t = [] := by
  rcases eq_nil_or_concat ts with rfl | ⟨init, last, rfl⟩
  · simp [InOrder]
  · rw [concat_eq_append, getLast?_concat, Option.getD_some, dropLast_concat]
    constructor
    · intro h t ht
      have hle := h.length_le
      rw [map_append, sum_append, map_singleton, sum_singleton] at hle
      have hzero : (init.map length).sum = 0 := by omega
      exact List.length_eq_zero_iff.mp
        (List.sum_eq_zero_iff_forall_eq_nat.mp hzero _ (List.mem_map_of_mem ht))
    · intro h
      induction init with
      | nil => exact ⟨[], [], by simp, trivial⟩
      | cons t init ih =>
        obtain ⟨rfl, hinit⟩ := forall_mem_cons.mp h
        exact ⟨[], last, rfl, ih hinit⟩

end LlmRouter.Lib.Text
