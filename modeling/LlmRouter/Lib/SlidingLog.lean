import Mathlib.Algebra.Order.BigOperators.Group.List
import Mathlib.Algebra.Order.Ring.Int

/-!
# Sliding logs

A log lists admitted entries `(time, weight)`, oldest first, each of which fits into the window
that ends with it. Then *every* window stays within the limit: `Fitted.total_inside_le`.
-/

namespace LlmRouter.Lib.SlidingLog

open List

def recent (w now : Nat) (log : List (Nat × Int)) : List (Nat × Int) :=
  log.filter fun e => decide (now < e.1 + w)

def inside (w t : Nat) (log : List (Nat × Int)) : List (Nat × Int) :=
  log.filter fun e => decide (t < e.1 + w ∧ e.1 ≤ t)

def total (log : List (Nat × Int)) : Int := (log.map Prod.snd).sum

@[simp] theorem total_nil : total [] = 0 := rfl

@[simp] theorem total_append (a b : List (Nat × Int)) : total (a ++ b) = total a + total b := by
  simp [total]

@[simp] theorem total_singleton (e : Nat × Int) : total [e] = e.2 := by
  simp [total]

theorem total_eq_length {log : List (Nat × Int)} (h : ∀ e ∈ log, e.2 = 1) :
    total log = log.length := by
  induction log with
  | nil => rfl
  | cons e log ih =>
    have htail := ih fun e' he' => h e' (mem_cons_of_mem _ he')
    simp only [total, map_cons, sum_cons, length_cons] at htail ⊢
    rw [htail, h e mem_cons_self]
    omega

theorem total_le_of_sublist {a b : List (Nat × Int)} (h : a.Sublist b)
    (hb : ∀ e ∈ b, 0 ≤ e.2) : total a ≤ total b := by
  refine List.Sublist.sum_le_sum (h.map Prod.snd) ?_
  intro x hx
  obtain ⟨e, he, rfl⟩ := mem_map.mp hx
  exact hb e he

theorem inside_append (w t : Nat) (a b : List (Nat × Int)) :
    inside w t (a ++ b) = inside w t a ++ inside w t b := filter_append ..

theorem total_inside_cons (w t : Nat) (e : Nat × Int) (log : List (Nat × Int)) :
    total (inside w t (e :: log)) =
      (if t < e.1 + w ∧ e.1 ≤ t then e.2 else 0) + total (inside w t log) := by
  simp only [inside, total, filter_cons, decide_eq_true_eq]
  split_ifs
  · rw [map_cons, sum_cons]
  · rw [zero_add]

/-- A log whose entries each fitted at the moment they were appended, at
nondecreasing times. -/
inductive Fitted (limit : Int) (w : Nat) : List (Nat × Int) → Prop
  | nil : Fitted limit w []
  | snoc {log : List (Nat × Int)} {t : Nat} {c : Int} :
      Fitted limit w log → (∀ e ∈ log, e.1 ≤ t) → 0 ≤ c →
      total (recent w t log) + c ≤ limit → Fitted limit w (log ++ [(t, c)])

variable {limit : Int} {w : Nat} {log : List (Nat × Int)}

theorem Fitted.weight_nonneg (h : Fitted limit w log) : ∀ e ∈ log, 0 ≤ e.2 := by
  induction h with
  | nil => simp
  | snoc _ _ hc _ ih =>
    intro e he
    rcases mem_append.mp he with he | he
    · exact ih e he
    · rw [mem_singleton.mp he]
      exact hc

/-- **No window overflows** if every entry fitted when it was appended. -/
theorem Fitted.total_inside_le (h : Fitted limit w log) (hlimit : 0 ≤ limit) (t : Nat) :
    total (inside w t log) ≤ limit := by
  induction h with
  | nil => exact hlimit
  | @snoc log s c hlog hs hc hfit ih =>
    rw [inside_append, total_append]
    by_cases hin : t < s + w ∧ s ≤ t
    · -- whatever shares a window with the new entry was still recent when it came
      have hsub : (inside w t log).Sublist (recent w s log) := by
        refine monotone_filter_right log ?_
        intro e he
        simp only [decide_eq_true_eq] at he ⊢
        omega
      have hle := total_le_of_sublist hsub fun e he =>
        hlog.weight_nonneg e (mem_of_mem_filter he)
      have hone : inside w t [(s, c)] = [(s, c)] := by
        simp [inside, hin]
      rw [hone, total_singleton]
      omega
    · have hnone : inside w t [(s, c)] = [] := by
        simp only [inside, filter_cons, filter_nil, decide_eq_true_eq, hin, if_false]
      rw [hnone, total_nil]
      omega

end LlmRouter.Lib.SlidingLog
