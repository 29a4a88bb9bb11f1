import Mathlib.Algebra.Order.Ring.Int
import Mathlib.Order.Interval.Finset.Nat

/-!
# Weighted choice

Entries with natural weights share the numbers below the sum of the weights: each takes as
many as its weight, one behind the other. `pick` finds the entry that a number belongs to.
Programs add up weights in machine integers, which `wrap`.
-/

namespace LlmRouter.Lib.Weighted

open List

/-- A number as a signed integer of 64 bits. -/
def wrap (n : Int) : Int := n.bmod (2 ^ 64)

def IsInt (n : Int) : Prop := -2 ^ 63 ≤ n ∧ n < 2 ^ 63

instance (n : Int) : Decidable (IsInt n) := inferInstanceAs (Decidable (_ ∧ _))

theorem wrap_eq {n : Int} (h : IsInt n) : wrap n = n := by
  obtain ⟨hge, hlt⟩ := h
  unfold wrap
  rw [Int.bmod_eq_of_le] <;> omega

theorem wrap_overflow {n : Int} (hge : 2 ^ 63 ≤ n) (hlt : n < 2 ^ 64) : wrap n < 0 := by
  rw [wrap, Int.bmod_def]
  omega

variable {ws : List Nat} {d i : Nat}

/-- The entry that the number `d` belongs to; `none` from the sum of the weights on. -/
def pick : List Nat → Nat → Option Nat
  | [], _ => none
  | w :: ws, d => if d < w then some 0 else (pick ws (d - w)).map (· + 1)

theorem pick_eq_some_iff :
    pick ws d = some i ↔
      i < ws.length ∧ (ws.take i).sum ≤ d ∧ d < (ws.take (i + 1)).sum := by
  induction ws generalizing d i with
  | nil => simp [pick]
  | cons w ws ih =>
    rw [pick]
    by_cases hlt : d < w
    · rw [if_pos hlt]
      cases i with
      | zero => simp [hlt]
      | succ i =>
        simp only [Option.some.injEq, take_succ_cons, sum_cons]
        omega
    · rw [if_neg hlt]
      cases i with
      | zero => simp [hlt]
      | succ i =>
        simp only [Option.map_eq_some_iff, Nat.add_right_cancel_iff, exists_eq_right, ih,
          length_cons, take_succ_cons, sum_cons]
        omega

theorem pick_isSome (h : d < ws.sum) : ∃ i, pick ws d = some i := by
  induction ws generalizing d with
  | nil => exact absurd h (Nat.not_lt_zero d)
  | cons w ws ih =>
    rw [pick]
    by_cases hlt : d < w
    · exact ⟨0, if_pos hlt⟩
    · obtain ⟨i, hi⟩ := ih (d := d - w) (by rw [sum_cons] at h; omega)
      exact ⟨i + 1, by rw [if_neg hlt, hi]; rfl⟩

theorem pick_getD (h : d < ws.sum) : pick ws d = some ((pick ws d).getD 0) := by
  obtain ⟨i, hi⟩ := pick_isSome h
  rw [hi, Option.getD_some]

/-- **Each entry has as many numbers as its weight.** -/
theorem card_pick (h : i < ws.length) :
    ((Finset.range ws.sum).filter fun d => pick ws d = some i).card = ws[i] := by
  have hsucc : (ws.take (i + 1)).sum = (ws.take i).sum + ws[i] := sum_take_succ ws i h
  have hle : (ws.take (i + 1)).sum ≤ ws.sum := by
    rw [← sum_take_add_sum_drop ws (i + 1)]
    omega
  have hinterval : ((Finset.range ws.sum).filter fun d => pick ws d = some i) =
      Finset.Ico (ws.take i).sum (ws.take (i + 1)).sum := by
    ext d
    simp only [Finset.mem_filter, Finset.mem_range, pick_eq_some_iff, Finset.mem_Ico]
    omega
  rw [hinterval, Nat.card_Ico]
  omega

theorem sum_toNat {α : Type*} {weight : α → Int} {entries : List α}
    (h : ∀ a ∈ entries, 0 ≤ weight a) :
    ((entries.map fun a => (weight a).toNat).sum : Int) = (entries.map weight).sum := by
  induction entries with
  | nil => rfl
  | cons a rest ih =>
    have ha := h a mem_cons_self
    have hrest := ih fun b hb => h b (mem_cons_of_mem a hb)
    simp only [map_cons, sum_cons] at hrest ⊢
    omega

end LlmRouter.Lib.Weighted
