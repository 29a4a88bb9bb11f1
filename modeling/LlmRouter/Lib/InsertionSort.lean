import Mathlib.Data.List.Sort

/-!
# Insertion sort in place

The loop that swaps an element with its left neighbour until it stands right. It leaves the
elements from the largest key to the smallest, and those of one key in their order
(`sortDescending_perm`, `sortDescending_pairwise`, `sortDescending_filter`).
-/

namespace LlmRouter.Lib

open List

variable {α κ : Type*} [LinearOrder κ] (key : α → κ)

def moveLeft : Nat → List α → List α
  | 0, l => l
  | j + 1, l =>
    match l[j]?, l[j + 1]? with
    | some a, some b => if key a < key b then moveLeft j ((l.set j b).set (j + 1) a) else l
    | _, _ => l

def sortDescending (l : List α) : List α :=
  (List.range' 1 (l.length - 1)).foldl (fun l i => moveLeft key i l) l

abbrev Below (a b : α) : Prop := key a ≤ key b

theorem moveLeft_eq (q : List α) (x : α) (rest : List α) :
    moveLeft key q.length (q.reverse ++ x :: rest) =
      (q.orderedInsert (Below key) x).reverse ++ rest := by
  induction q generalizing rest with
  | nil => rfl
  | cons a q ih =>
    have hlist : (a :: q).reverse ++ x :: rest = q.reverse ++ a :: x :: rest := by simp
    have ha : (q.reverse ++ a :: x :: rest)[q.length]? = some a := by simp
    have hx : (q.reverse ++ a :: x :: rest)[q.length + 1]? = some x := by simp
    have hswap : ((q.reverse ++ a :: x :: rest).set q.length x).set (q.length + 1) a =
        q.reverse ++ x :: a :: rest := by
      simp
    rw [hlist, length_cons, moveLeft, ha, hx]
    dsimp only
    rw [hswap, orderedInsert_cons]
    by_cases hlt : key a < key x
    · rw [if_pos hlt, if_neg (not_le.mpr hlt), ih]
      simp
    · rw [if_neg hlt, if_pos (not_lt.mp hlt)]
      simp

theorem foldl_moveLeft (q rest : List α) :
    (List.range' q.length rest.length).foldl (fun l i => moveLeft key i l) (q.reverse ++ rest) =
      (rest.foldl (fun q x => q.orderedInsert (Below key) x) q).reverse := by
  induction rest generalizing q with
  | nil => simp
  | cons x rest ih =>
    have hlen := orderedInsert_length (Below key) q x
    rw [length_cons, range'_succ, foldl_cons, foldl_cons, moveLeft_eq, ← hlen, ih]

/-- The loop is Mathlib's insertion sort, from the other end. -/
theorem sortDescending_eq (l : List α) :
    sortDescending key l = (l.reverse.insertionSort (Below key)).reverse := by
  rw [insertionSort, foldr_reverse]
  cases l with
  | nil => rfl
  | cons x l => exact foldl_moveLeft key [x] l

theorem sortDescending_perm (l : List α) : (sortDescending key l).Perm l := by
  rw [sortDescending_eq]
  exact (reverse_perm _).trans ((perm_insertionSort _ _).trans (reverse_perm l))

instance : Std.Total (Below key) := ⟨fun a b => le_total (key a) (key b)⟩

instance : IsTrans α (Below key) := ⟨fun _ _ _ => le_trans⟩

theorem sortDescending_pairwise (l : List α) :
    (sortDescending key l).Pairwise fun a b => key b ≤ key a := by
  rw [sortDescending_eq, pairwise_reverse]
  exact pairwise_insertionSort (Below key) l.reverse

/-- The sort is stable. -/
theorem sortDescending_filter (l : List α) (k : κ) :
    ((sortDescending key l).filter fun a => key a = k) = l.filter fun a => key a = k := by
  -- those of one key are in order wherever they stand, so sorting keeps them as a sublist
  have hsub : ((l.reverse.filter fun a => key a = k)) <+ l.reverse.insertionSort (Below key) := by
    refine sublist_insertionSort (pairwise_of_forall_mem_list ?_) filter_sublist
    intro a ha b hb
    simp only [mem_filter, decide_eq_true_eq] at ha hb
    exact (ha.2.trans hb.2.symm).le
  have hsub' := hsub.filter fun a => decide (key a = k)
  rw [filter_filter] at hsub'
  simp only [Bool.and_self] at hsub'
  have heq := hsub'.eq_of_length
    ((perm_insertionSort (Below key) l.reverse).filter fun a => decide (key a = k)).length_eq.symm
  rw [sortDescending_eq, filter_reverse, ← heq, filter_reverse, reverse_reverse]

end LlmRouter.Lib
