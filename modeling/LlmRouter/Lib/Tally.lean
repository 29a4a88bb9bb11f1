import Mathlib.Algebra.BigOperators.Group.List.Basic
import Mathlib.Tactic.Abel

/-!
# Tables of totals

Rows with a key, some data and an amount. `upsert` adds an amount to the row of its key, or a new
row, as a map or `INSERT ... ON CONFLICT ... DO UPDATE` does. A total over the keys does not see
how the amounts were grouped (`total_upserts`).
-/

namespace LlmRouter.Lib.Tally

structure Row (κ δ M : Type*) where
  key : κ
  data : δ
  amount : M

variable {κ δ M : Type*} [DecidableEq κ] [AddCommMonoid M]

def upsert (r : Row κ δ M) : List (Row κ δ M) → List (Row κ δ M)
  | [] => [r]
  | q :: rows =>
    if q.key = r.key then { q with amount := q.amount + r.amount } :: rows
    else q :: upsert r rows

def upserts (table rows : List (Row κ δ M)) : List (Row κ δ M) :=
  rows.foldl (fun t r => upsert r t) table

def total (p : Row κ δ M → Bool) (rows : List (Row κ δ M)) : M :=
  ((rows.filter p).map Row.amount).sum

omit [DecidableEq κ] in
theorem total_cons (p : Row κ δ M → Bool) (r : Row κ δ M) (rows : List (Row κ δ M)) :
    total p (r :: rows) = (if p r then r.amount else 0) + total p rows := by
  unfold total
  rw [List.filter_cons]
  split
  · rw [List.map_cons, List.sum_cons]
  · rw [zero_add]

omit [DecidableEq κ] in
theorem total_congr {rows : List (Row κ δ M)} {p q : Row κ δ M → Bool}
    (h : ∀ r ∈ rows, p r = q r) : total p rows = total q rows := by
  rw [total, total, List.filter_congr h]

variable (g : κ → Bool) (table rows : List (Row κ δ M))

theorem total_upsert (r : Row κ δ M) :
    total (fun q => g q.key) (upsert r rows) =
      total (fun q => g q.key) rows + if g r.key then r.amount else 0 := by
  induction rows with
  | nil => rw [upsert, total_cons, add_comm]
  | cons q rows ih =>
    unfold upsert
    split
    case isTrue hkey =>
      simp only [total_cons, ← hkey]
      split <;> abel
    case isFalse => rw [total_cons, total_cons, ih, add_assoc]

/-- An upsert of rows adds their total to that of the table. -/
theorem total_upserts :
    total (fun q => g q.key) (upserts table rows) =
      total (fun q => g q.key) table + total (fun q => g q.key) rows := by
  unfold upserts
  induction rows generalizing table with
  | nil => exact (add_zero _).symm
  | cons r rows ih => rw [List.foldl_cons, ih, total_upsert, total_cons, add_assoc]

omit [DecidableEq κ] in
theorem total_perm {rows rows' : List (Row κ δ M)} (p : Row κ δ M → Bool) (h : rows.Perm rows') :
    total p rows = total p rows' :=
  ((h.filter p).map Row.amount).sum_eq

variable {table rows}

theorem forall_upsert {Q : κ → δ → Prop} {r : Row κ δ M} (hr : Q r.key r.data)
    (hrows : ∀ q ∈ rows, Q q.key q.data) : ∀ q ∈ upsert r rows, Q q.key q.data := by
  induction rows with
  | nil => simpa [upsert] using hr
  | cons q rows ih =>
    obtain ⟨hq, hrows⟩ := List.forall_mem_cons.mp hrows
    unfold upsert
    split
    · exact List.forall_mem_cons.mpr ⟨hq, hrows⟩
    · exact List.forall_mem_cons.mpr ⟨hq, ih hrows⟩

theorem forall_upserts {Q : κ → δ → Prop} (htable : ∀ q ∈ table, Q q.key q.data)
    (hrows : ∀ q ∈ rows, Q q.key q.data) : ∀ q ∈ upserts table rows, Q q.key q.data := by
  unfold upserts
  induction rows generalizing table with
  | nil => exact htable
  | cons r rows ih =>
    obtain ⟨hr, hrows⟩ := List.forall_mem_cons.mp hrows
    exact ih (forall_upsert hr htable) hrows

end LlmRouter.Lib.Tally
