import Mathlib.Data.List.Sort
import Mathlib.Data.List.Perm.Basic
import Mathlib.Data.Prod.Lex

/-!
# Sorting that need not be stable

A sorting function by what it promises: the elements are the same, and no element
stands before one that is less. Equal elements may come in any order.
-/

namespace LlmRouter.Lib

variable {α : Type*}

structure SliceSort (less : α → α → Bool) where
  sort : List α → List α
  perm : ∀ l, (sort l).Perm l
  ordered : ∀ l, (sort l).Pairwise fun a b => less b a = false

namespace SliceSort

variable {less : α → α → Bool}

theorem mem_sort (s : SliceSort less) {l : List α} {a : α} : a ∈ s.sort l ↔ a ∈ l :=
  (s.perm l).mem_iff

theorem sort_ne_nil (s : SliceSort less) {l : List α} (h : l ≠ []) : s.sort l ≠ [] := by
  intro hnil
  have hperm := s.perm l
  rw [hnil] at hperm
  exact h hperm.nil_eq.symm

def byKey {κ : Type*} [LinearOrder κ] (key : α → κ)
    (hless : ∀ a b, less a b = decide (key a < key b)) : SliceSort less where
  sort l := l.insertionSort fun a b => key a ≤ key b
  perm l := l.perm_insertionSort _
  ordered l := by
    have : Std.Total fun a b : α => key a ≤ key b := ⟨fun a b => le_total (key a) (key b)⟩
    have : IsTrans α fun a b => key a ≤ key b := ⟨fun _ _ _ => le_trans⟩
    refine (l.pairwise_insertionSort fun a b => key a ≤ key b).imp fun h => ?_
    simpa [hless] using h

section Preferring

variable {κ : Type*} [LinearOrder κ] (key : α → κ) (preferred : α → Bool)

def preference (a : α) : κ ×ₗ Bool := toLex (key a, !preferred a)

theorem pairwise_preference (l : List α) :
    (l.insertionSort fun a b => preference key preferred a ≤ preference key preferred b).Pairwise
      fun a b => preference key preferred a ≤ preference key preferred b := by
  have : Std.Total fun a b : α => preference key preferred a ≤ preference key preferred b :=
    ⟨fun a b => le_total _ _⟩
  have : IsTrans α fun a b => preference key preferred a ≤ preference key preferred b :=
    ⟨fun _ _ _ => le_trans⟩
  exact l.pairwise_insertionSort _

/-- A sort for a `less` that compares keys, with a choice among elements of one key. -/
def preferring (hless : ∀ a b, less a b = decide (key a < key b)) : SliceSort less where
  sort l := l.insertionSort fun a b => preference key preferred a ≤ preference key preferred b
  perm l := l.perm_insertionSort _
  ordered l := by
    refine (pairwise_preference key preferred l).imp fun {a b} h => ?_
    rw [hless, decide_eq_false_iff_not, not_lt]
    rcases Prod.Lex.toLex_le_toLex.mp h with hlt | heq
    · exact hlt.le
    · exact heq.1.le

/-- Some sort puts the preferred ones first among equals. -/
theorem preferring_first (hless : ∀ a b, less a b = decide (key a < key b)) (l : List α) :
    ((preferring key preferred hless).sort l).Pairwise fun a b =>
      key a = key b → preferred b = true → preferred a = true := by
  refine (pairwise_preference key preferred l).imp fun {a b} h hkey hb => ?_
  rcases Prod.Lex.toLex_le_toLex.mp h with hlt | heq
  · exact absurd hkey hlt.ne
  · have hle : (!preferred a) ≤ !preferred b := heq.2
    rw [hb] at hle
    cases hpa : preferred a with
    | true => rfl
    | false =>
      rw [hpa] at hle
      exact absurd hle (by decide)

end Preferring

end SliceSort

end LlmRouter.Lib
