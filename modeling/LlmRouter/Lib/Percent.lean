import Mathlib.Data.List.GetD
import LlmRouter.Lib.Utf8

/-!
# Percent-encoding

A byte outside a set `keep` is written as `%` and two upper-case hexadecimal digits. Which
bytes are kept differs from one part of a URL to the next, so the set is a parameter.
-/

namespace LlmRouter.Lib.Percent

open List

open Utf8 (bytes)

def upperhex : Bytes := bytes "0123456789ABCDEF"

def hexDigit (n : UInt8) : UInt8 := upperhex.getD n.toNat 48

def unhex (b : UInt8) : Option UInt8 :=
  if 48 ≤ b ∧ b ≤ 57 then some (b - 48)
  else if 97 ≤ b ∧ b ≤ 102 then some (b - 87)
  else if 65 ≤ b ∧ b ≤ 70 then some (b - 55)
  else none

def encodeByte (keep : UInt8 → Bool) (b : UInt8) : Bytes :=
  if keep b then [b] else [37, hexDigit (b / 16), hexDigit (b % 16)]

def encode (keep : UInt8 → Bool) (bs : Bytes) : Bytes := bs.flatMap (encodeByte keep)

/-- Every escape is replaced by its byte; fails on a `%` without two digits after it. -/
def decode : Bytes → Option Bytes
  | [] => some []
  | b :: bs =>
    if b = 37 then
      match bs with
      | x :: y :: rest => do
        let hi ← unhex x
        let lo ← unhex y
        let decoded ← decode rest
        return (hi * 16 + lo) :: decoded
      | _ => none
    else (decode bs).map (b :: ·)

variable {keep : UInt8 → Bool} {b : UInt8} {bs : Bytes}

theorem hexDigit_mem (n : UInt8) : hexDigit n ∈ upperhex := by
  rw [hexDigit]
  rcases Nat.lt_or_ge n.toNat upperhex.length with hn | hn
  · rw [getD_eq_getElem _ _ hn]
    exact getElem_mem hn
  · rw [getD_eq_default _ _ hn]
    decide

theorem mem_of_mem_encode (h : b ∈ encode keep bs) : keep b = true ∨ b ∈ 37 :: upperhex := by
  obtain ⟨c, -, hc⟩ := mem_flatMap.mp h
  rw [encodeByte] at hc
  split_ifs at hc with hkeep
  · rw [mem_singleton.mp hc]
    exact .inl hkeep
  · right
    simp only [mem_cons, not_mem_nil, or_false] at hc
    rcases hc with rfl | rfl | rfl
    · exact mem_cons_self
    · exact mem_cons_of_mem _ (hexDigit_mem _)
    · exact mem_cons_of_mem _ (hexDigit_mem _)

theorem length_le_encode (keep : UInt8 → Bool) (bs : Bytes) :
    bs.length ≤ (encode keep bs).length := by
  rw [encode, length_flatMap]
  induction bs with
  | nil => exact Nat.zero_le _
  | cons b bs ih =>
    have hpos : 1 ≤ (encodeByte keep b).length := by
      rw [encodeByte]
      split_ifs <;> simp
    rw [map_cons, sum_cons, length_cons]
    omega

/-- A text is left as it is iff it has nothing to escape. -/
theorem encode_eq_self_iff : encode keep bs = bs ↔ ∀ b ∈ bs, keep b = true := by
  induction bs with
  | nil => simp [encode]
  | cons b bs ih =>
    rw [forall_mem_cons, ← ih]
    have hcons : encode keep (b :: bs) = encodeByte keep b ++ encode keep bs := rfl
    rw [hcons, encodeByte]
    by_cases hkeep : keep b = true
    · simp [hkeep]
    · rw [if_neg hkeep]
      refine iff_of_false (fun h => ?_) fun h => hkeep h.1
      -- the escape makes the text longer
      have hlen := congrArg length h
      have hle := length_le_encode keep bs
      simp only [cons_append, nil_append, length_cons] at hlen
      omega

end LlmRouter.Lib.Percent
