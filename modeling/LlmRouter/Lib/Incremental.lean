import Mathlib.Data.List.Basic

/-!
# Incremental readers

A reader that gets its input in pieces keeps what it could not use yet. What it does with a buffer
is a loop: cut an item off the front, or wait for more (`Cutter`). If a cut can be taken before or
after more input arrives (`Resumes`), the result does not depend on the pieces (`readAll_eq`).
-/

namespace LlmRouter.Lib

open List

variable {β α : Type*}

/-- Some output and the rest of a buffer, or nothing before more input arrives, with what is kept of
it. -/
inductive Cut (β α : Type*) where
  | wait (keep : List β)
  | item (out : List α) (rest : List β)

/-- One turn of a reader's loop. Every turn that goes on consumes something. -/
structure Cutter (β α : Type*) where
  cut : List β → Cut β α
  shrinks : ∀ {buf out rest}, cut buf = .item out rest → rest.length < buf.length

namespace Cutter

variable (c : Cutter β α)

def loop : (fuel : Nat) → List β → List α × List β
  | 0, buf => ([], buf)
  | fuel + 1, buf =>
    match c.cut buf with
    | .wait keep => ([], keep)
    | .item out rest => (out ++ (loop fuel rest).1, (loop fuel rest).2)

def parse (buf : List β) : List α × List β := c.loop (buf.length + 1) buf

/-- The output for an input that arrives in pieces; an empty piece is no call. -/
def readAll : (leftover : List β) → (pieces : List (List β)) → List α
  | _, [] => []
  | leftover, piece :: pieces =>
    if piece.isEmpty then readAll leftover pieces
    else (c.parse (leftover ++ piece)).1 ++ readAll (c.parse (leftover ++ piece)).2 pieces

variable {c} {buf rest keep : List β} {out : List α}

theorem loop_fuel {m n : Nat} (hm : buf.length < m) (hn : buf.length < n) :
    c.loop m buf = c.loop n buf := by
  induction m generalizing n buf with
  | zero => omega
  | succ m ih =>
    obtain ⟨n, rfl⟩ : ∃ k, n = k + 1 := ⟨n - 1, by omega⟩
    unfold loop
    cases hcut : c.cut buf with
    | wait keep => rfl
    | item out rest =>
      have hlt := c.shrinks hcut
      dsimp only
      rw [ih (n := n) (by omega) (by omega)]

theorem parse_item (h : c.cut buf = .item out rest) :
    c.parse buf = (out ++ (c.parse rest).1, (c.parse rest).2) := by
  have hlt := c.shrinks h
  have hrest : c.loop buf.length rest = c.parse rest := loop_fuel hlt (Nat.lt_succ_self _)
  rw [parse, loop, h]
  dsimp only
  rw [hrest]

theorem parse_wait (h : c.cut buf = .wait keep) : c.parse buf = ([], keep) := by
  rw [parse, loop, h]

theorem parse_induction {P : List β → Prop}
    (hwait : ∀ buf keep, c.cut buf = .wait keep → P buf)
    (hitem : ∀ buf out rest, c.cut buf = .item out rest → P rest → P buf) (buf : List β) :
    P buf := by
  induction hn : buf.length using Nat.strongRecOn generalizing buf with
  | ind n ih =>
    cases hcut : c.cut buf with
    | wait keep => exact hwait buf keep hcut
    | item out rest =>
      have hlt := c.shrinks hcut
      exact hitem buf out rest hcut (ih rest.length (hn ▸ hlt) rest rfl)

variable (c) in
/-- A turn can be taken before or after more input arrives. -/
structure Resumes : Prop where
  item : ∀ {buf out rest}, c.cut buf = .item out rest → ∀ more,
    (c.parse (buf ++ more)).1 = out ++ (c.parse (rest ++ more)).1
  wait : ∀ {buf keep}, c.cut buf = .wait keep → ∀ more,
    (c.parse (buf ++ more)).1 = (c.parse (keep ++ more)).1

/-- Cuts that do not change when more input is appended, and a wait that keeps
the buffer. -/
theorem resumes_of_stable
    (hitem : ∀ {buf out rest}, c.cut buf = .item out rest → ∀ more,
      c.cut (buf ++ more) = .item out (rest ++ more))
    (hwait : ∀ {buf keep}, c.cut buf = .wait keep → keep = buf) : c.Resumes where
  item h more := by rw [parse_item (hitem h more)]
  wait h more := by rw [hwait h]

/-- What a buffer gives is what a beginning of it gives, and then what is kept
gives with the rest. -/
theorem Resumes.parse_append (h : c.Resumes) (a b : List β) :
    (c.parse (a ++ b)).1 = (c.parse a).1 ++ (c.parse ((c.parse a).2 ++ b)).1 := by
  induction a using parse_induction (c := c) with
  | hwait a keep hcut => rw [h.wait hcut b, parse_wait hcut, nil_append]
  | hitem a out rest hcut ih => rw [h.item hcut b, ih, parse_item hcut, append_assoc]

theorem Resumes.parse_kept (h : c.Resumes) (a : List β) : (c.parse (c.parse a).2).1 = [] := by
  have happend := h.parse_append a []
  rw [append_nil, append_nil] at happend
  exact self_eq_append_right.mp happend

theorem Resumes.readAll_eq (h : c.Resumes) {leftover : List β} (hidle : (c.parse leftover).1 = [])
    (pieces : List (List β)) :
    c.readAll leftover pieces = (c.parse (leftover ++ pieces.flatten)).1 := by
  induction pieces generalizing leftover with
  | nil => rw [readAll, flatten_nil, append_nil, hidle]
  | cons piece pieces ih =>
    rw [readAll, flatten_cons]
    split
    case isTrue hempty => rw [isEmpty_iff.mp hempty, ih hidle, nil_append]
    case isFalse =>
      rw [ih (h.parse_kept _), ← h.parse_append, append_assoc]

end Cutter

/-! ### Cutting at a separator -/

def cutAt [DecidableEq β] (sep : β) : List β → Option (List β × List β)
  | [] => none
  | b :: bs => if b = sep then some ([], bs) else (cutAt sep bs).map fun r => (b :: r.1, r.2)

section CutAt

variable [DecidableEq β] {sep : β} {l a r : List β}

theorem cutAt_append (ha : sep ∉ a) (r : List β) : cutAt sep (a ++ sep :: r) = some (a, r) := by
  induction a with
  | nil => exact if_pos rfl
  | cons b a ih =>
    rw [mem_cons, not_or] at ha
    rw [cons_append, cutAt, if_neg (Ne.symm ha.1), ih ha.2]
    rfl

theorem cutAt_eq_some (h : cutAt sep l = some (a, r)) : l = a ++ sep :: r ∧ sep ∉ a := by
  induction l generalizing a with
  | nil => cases h
  | cons b l ih =>
    rw [cutAt] at h
    split at h
    case isTrue hb =>
      obtain ⟨rfl, rfl⟩ := Prod.mk.inj (Option.some.inj h)
      exact ⟨by rw [hb]; rfl, not_mem_nil⟩
    case isFalse hb =>
      obtain ⟨⟨a', r'⟩, hcut, heq⟩ := Option.map_eq_some_iff.mp h
      obtain ⟨rfl, rfl⟩ := Prod.mk.inj heq
      obtain ⟨rfl, hnot⟩ := ih hcut
      refine ⟨rfl, ?_⟩
      rw [mem_cons, not_or]
      exact ⟨Ne.symm hb, hnot⟩

end CutAt

namespace Cutter

variable [DecidableEq β]

def lines (sep : β) (emit : List β → List α) : Cutter β α where
  cut buf :=
    match cutAt sep buf with
    | none => .wait buf
    | some (line, rest) => .item (emit line) rest
  shrinks {buf out rest} h := by
    cases hcut : cutAt sep buf with
    | none => simp only [hcut] at h; cases h
    | some r =>
      obtain ⟨hbuf, -⟩ := cutAt_eq_some hcut
      simp only [hcut] at h
      obtain ⟨-, rfl⟩ := Cut.item.inj h
      rw [hbuf, length_append, length_cons]
      omega

variable {sep : β} {emit : List β → List α}

theorem lines_cut_line {line : List β} (hline : sep ∉ line) (rest : List β) :
    (lines sep emit).cut (line ++ sep :: rest) = .item (emit line) rest := by
  simp only [lines, cutAt_append hline]

theorem lines_parse_line {line : List β} (hline : sep ∉ line) (rest : List β) :
    ((lines sep emit).parse (line ++ sep :: rest)).1 =
      emit line ++ ((lines sep emit).parse rest).1 := by
  rw [parse_item (lines_cut_line hline rest)]

theorem lines_parse_nil : ((lines sep emit).parse []).1 = [] := rfl

theorem lines_resumes (sep : β) (emit : List β → List α) : (lines sep emit).Resumes := by
  refine resumes_of_stable ?_ ?_
  · intro buf out rest h more
    cases hcut : cutAt sep buf with
    | none => simp only [lines, hcut] at h; cases h
    | some r =>
      obtain ⟨hbuf, hnot⟩ := cutAt_eq_some hcut
      simp only [lines, hcut] at h
      obtain ⟨rfl, rfl⟩ := Cut.item.inj h
      rw [hbuf, append_assoc, cons_append, lines_cut_line hnot]
  · intro buf keep h
    cases hcut : cutAt sep buf with
    | none =>
      simp only [lines, hcut] at h
      exact (Cut.wait.inj h).symm
    | some r => simp only [lines, hcut] at h; cases h

end Cutter

end LlmRouter.Lib
