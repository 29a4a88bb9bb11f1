import LlmRouter.Budget.Manager

/-!
# LlmRouter — whole budget calls

What `CheckBudget`, `RecordSpend` and `ResetExpired` do from start to end, one specification for
each loop, and what they leave alone.
-/

namespace LlmRouter.Budgets

open Lib.Redis List

variable {w : World} {e : Entity} {b : Budget} {now : Int} {p : Period} {bs : List Budget}

theorem World.ListShaped.congr {w' : World} (h : w.ListShaped e)
    (hrows : ∀ p, (w'.rows e p).isSome = (w.rows e p).isSome)
    (hlist : w'.listCache e = w.listCache e) : w'.ListShaped e := by
  intro c hc
  rw [hlist] at hc
  refine Lists.congr ?_ (h c hc)
  simp only [World.periods, hrows]

/-! ## CheckBudget -/

theorem checkBudget_eq (w : World) (e : Entity) (now : Int) :
    w.checkBudget e now = (w.cachedList e now).1.checkLoop now (w.cachedList e now).2 := rfl

variable {v : ℚ}

def World.Readable (w : World) (bs : List Budget) (e : Entity) (p : Period) (now : Int) (v : ℚ) :
    Prop :=
  w.getSpend e p now = some v ∨
    w.getSpend e p now = none ∧ ∃ b ∈ bs, b.entity = e ∧ b.period = p ∧ v = b.currentSpend

theorem World.Readable.cons (h : w.Readable bs e p now v) (b : Budget) :
    w.Readable (b :: bs) e p now v := by
  refine h.imp_right ?_
  rintro ⟨hnone, b', hb', hrest⟩
  exact ⟨hnone, b', mem_cons_of_mem _ hb', hrest⟩

section Read

variable {w' : World} {spend : ℚ} (h : w.currentSpend b now = (w', spend))

include h

theorem currentSpend_frame : w'.rows = w.rows ∧ w'.listCache = w.listCache := by
  unfold World.currentSpend at h
  split at h <;> cases h <;> exact ⟨rfl, rfl⟩

theorem readable_currentSpend (bs : List Budget) :
    w.Readable (b :: bs) b.entity b.period now spend ∧
      ∀ e p v, w'.Readable bs e p now v → w.Readable (b :: bs) e p now v := by
  unfold World.currentSpend at h
  cases hget : w.getSpend b.entity b.period now with
  | some u =>
    rw [hget] at h
    cases h
    exact ⟨.inl hget, fun e p v hv => hv.cons b⟩
  | none =>
    rw [hget] at h
    cases h
    refine ⟨.inr ⟨hget, b, mem_cons_self, rfl, rfl, rfl⟩, fun e p v hv => ?_⟩
    by_cases hsame : e = b.entity ∧ p = b.period
    · -- the counter was missing
      obtain ⟨rfl, rfl⟩ := hsame
      refine .inr ⟨hget, ?_⟩
      rcases hv with hv | ⟨-, b', hb', hrest⟩
      · exact ⟨b, mem_cons_self, rfl, rfl, getSpend_setSpend_self _ _ _ _ _ hv⟩
      · exact ⟨b', mem_cons_of_mem _ hb', hrest⟩
    · rw [World.Readable, getSpend_setSpend_of_ne _ _ _ hsame] at hv
      exact World.Readable.cons hv b

end Read

theorem checkLoop_frame (w : World) (now : Int) (bs : List Budget) :
    (w.checkLoop now bs).1.rows = w.rows ∧ (w.checkLoop now bs).1.listCache = w.listCache := by
  fun_induction World.checkLoop w now bs with
  | case1 => exact ⟨rfl, rfl⟩
  | case2 w b rest _ ih => exact ih
  | case3 w b rest limit _ w' spend hread => exact currentSpend_frame hread
  | case4 w b rest limit _ w' spend hread _ w'' r hrest ih =>
    rw [hrest] at ih
    obtain ⟨hrows, hlist⟩ := currentSpend_frame hread
    exact ⟨ih.1.trans hrows, ih.2.trans hlist⟩

theorem checkLoop_getSpend (h : (w.checkLoop now bs).1.getSpend e p now = some v) :
    w.Readable bs e p now v := by
  fun_induction World.checkLoop w now bs with
  | case1 => exact .inl h
  | case2 w b rest _ ih => exact (ih h).cons b
  | case3 w b rest limit _ w' spend hread => exact (readable_currentSpend hread rest).2 e p v (.inl h)
  | case4 w b rest limit _ w' spend hread _ w'' r hrest ih =>
    rw [hrest] at ih
    exact (readable_currentSpend hread rest).2 e p v (ih h)

theorem checkLoop_compared {spend : ℚ} (h : (b, spend) ∈ (w.checkLoop now bs).2.compared) :
    b ∈ bs ∧ w.Readable bs b.entity b.period now spend := by
  fun_induction World.checkLoop w now bs with
  | case1 => cases h
  | case2 w b₀ rest _ ih => exact ⟨mem_cons_of_mem _ (ih h).1, (ih h).2.cons b₀⟩
  | case3 w b₀ rest limit _ w' spend₀ hread =>
    obtain ⟨rfl, rfl⟩ := Prod.mk.inj (mem_singleton.mp h)
    exact ⟨mem_cons_self, (readable_currentSpend hread rest).1⟩
  | case4 w b₀ rest limit _ w' spend₀ hread _ w'' r hrest ih =>
    rw [hrest] at ih
    rcases mem_cons.mp h with h | h
    · obtain ⟨rfl, rfl⟩ := Prod.mk.inj h
      exact ⟨mem_cons_self, (readable_currentSpend hread rest).1⟩
    · exact ⟨mem_cons_of_mem _ (ih h).1,
        (readable_currentSpend hread rest).2 _ _ _ (ih h).2⟩

/-- A refusal names a budget whose limit the spend compared has reached. -/
theorem checkLoop_exceeded {err : BudgetExceeded} (h : (w.checkLoop now bs).2.exceeded = some err) :
    ∃ b, (b, err.current) ∈ (w.checkLoop now bs).2.compared ∧ b.period = err.period ∧
      b.hardLimitUSD = some err.limit ∧ err.limit ≤ err.current := by
  fun_induction World.checkLoop w now bs with
  | case1 => cases h
  | case2 w b rest _ ih => exact ih h
  | case3 w b rest limit hlimit w' spend _ hle =>
    cases h
    exact ⟨b, mem_singleton.mpr rfl, rfl, hlimit, hle⟩
  | case4 w b rest limit _ w' spend _ _ w'' r hrest ih =>
    rw [hrest] at ih
    obtain ⟨b', hmem, hb'⟩ := ih h
    exact ⟨b', mem_cons_of_mem _ hmem, hb'⟩

/-- A check that passes has compared every hard limit. -/
theorem checkLoop_passed (h : (w.checkLoop now bs).2.exceeded = none) (hb : b ∈ bs) {limit : ℚ}
    (hlimit : b.hardLimitUSD = some limit) :
    ∃ spend, (b, spend) ∈ (w.checkLoop now bs).2.compared ∧ ¬ limit ≤ spend := by
  fun_induction World.checkLoop w now bs with
  | case1 => cases hb
  | case2 w b₀ rest hnone ih =>
    rcases mem_cons.mp hb with rfl | hb
    · cases hnone.symm.trans hlimit
    · exact ih h hb
  | case3 => cases h
  | case4 w b₀ rest limit₀ hlimit₀ w' spend _ hlt w'' r hrest ih =>
    rw [hrest] at ih
    rcases mem_cons.mp hb with rfl | hb
    · cases hlimit₀.symm.trans hlimit
      exact ⟨_, mem_cons_self, hlt⟩
    · obtain ⟨spend', hmem, hlt'⟩ := ih h hb
      exact ⟨spend', mem_cons_of_mem _ hmem, hlt'⟩

theorem checkBudget_rows (w : World) (e : Entity) (now : Int) :
    (w.checkBudget e now).1.rows = w.rows := by
  rw [checkBudget_eq, (checkLoop_frame _ _ _).1, cachedList_rows]

theorem checkBudget_listShaped (h : w.ListShaped e) (e' : Entity) (now : Int) :
    (w.checkBudget e' now).1.ListShaped e := by
  refine (cachedList_listShaped h e' now).congr (fun p => ?_) ?_
  · rw [checkBudget_rows, cachedList_rows]
  · rw [checkBudget_eq, (checkLoop_frame _ _ _).2]

/-- What a check compares is the counter, or a listed amount if there is none. -/
theorem checkBudget_compared (hshaped : w.ListShaped e) {spend : ℚ}
    (h : (b, spend) ∈ (w.checkBudget e now).2.compared) :
    b ∈ (w.cachedList e now).2 ∧ (w.getSpend e b.period now = some spend ∨
      w.getSpend e b.period now = none ∧
        ∃ b' ∈ (w.cachedList e now).2, b'.period = b.period ∧ spend = b'.currentSpend) := by
  rw [checkBudget_eq] at h
  obtain ⟨hb, hcase⟩ := checkLoop_compared h
  rw [World.Readable, (cachedList_lists hshaped now).2 b hb, getSpend_cachedList] at hcase
  refine ⟨hb, hcase.imp_right ?_⟩
  rintro ⟨hnone, b', hb', -, hp, hval⟩
  exact ⟨hnone, b', hb', hp, hval⟩

theorem checkBudget_getSpend {e' : Entity} (hshaped : w.ListShaped e')
    (h : (w.checkBudget e' now).1.getSpend e p now = some v) :
    w.getSpend e p now = some v ∨
      e' = e ∧ w.getSpend e p now = none ∧
        ∃ b ∈ (w.cachedList e' now).2, b.period = p ∧ v = b.currentSpend := by
  rw [checkBudget_eq] at h
  rcases checkLoop_getSpend h with hold | ⟨hnone, b, hb, he, hp, hval⟩
  · rw [getSpend_cachedList] at hold
    exact .inl hold
  · rw [getSpend_cachedList] at hnone
    have hsame : e' = e := ((cachedList_lists hshaped now).2 b hb).symm.trans he
    exact .inr ⟨hsame, hnone, b, hb, hp, hval⟩

/-! ## RecordSpend -/

theorem recordSpend_eq (w : World) (e : Entity) {c : ℚ} (hc : c ≠ 0) (now : Int) :
    w.recordSpend e c now =
      (w.cachedList e now).1.recordLoop e c now (w.cachedList e now).2 := if_neg hc

theorem recordSpend_zero (w : World) (e : Entity) (now : Int) : w.recordSpend e 0 now = w :=
  if_pos rfl

def World.recordOne (w : World) (e : Entity) (c : ℚ) (now : Int) (p : Period) : World :=
  (w.incrSpend e p c now).addSpend e p c

theorem recordLoop_cons (w : World) (e : Entity) (c : ℚ) (now : Int) (b : Budget)
    (rest : List Budget) :
    w.recordLoop e c now (b :: rest) =
      (w.recordOne e c now b.period).recordLoop e c now rest := rfl

section RecordOne

variable {w : World} {e : Entity} {c : ℚ} {now : Int} {p : Period}

theorem recordOne_rows {e' : Entity} {p' : Period} (hne : ¬ (e' = e ∧ p' = p)) :
    (w.recordOne e c now p).rows e' p' = w.rows e' p' := by
  rw [World.recordOne, addSpend_rows, if_neg hne, incrSpend_rows]

theorem recordOne_rows_self :
    (w.recordOne e c now p).rows e p = (w.rows e p).map fun r =>
      { r with currentSpend := numeric8 (r.currentSpend + c) } := by
  rw [World.recordOne, addSpend_rows, if_pos ⟨rfl, rfl⟩, incrSpend_rows]

theorem recordOne_getSpend {e' : Entity} {p' : Period} (hne : ¬ (e' = e ∧ p' = p)) (now' : Int) :
    (w.recordOne e c now p).getSpend e' p' now' = w.getSpend e' p' now' := by
  rw [World.recordOne, getSpend_addSpend, getSpend_incrSpend_of_ne _ _ _ hne]

theorem recordOne_getSpend_self {now' : Int} {v : ℚ}
    (h : (w.recordOne e c now p).getSpend e p now' = some v) :
    v = (w.getSpend e p now).getD 0 + c := by
  rw [World.recordOne, getSpend_addSpend] at h
  exact getSpend_incrSpend_self _ _ _ _ _ h

end RecordOne

theorem recordLoop_frame {w : World} {e : Entity} {c : ℚ} {now : Int} {bs : List Budget}
    {e' : Entity} {p' : Period} (hne : ¬ (e' = e ∧ p' ∈ bs.map Budget.period)) :
    (w.recordLoop e c now bs).rows e' p' = w.rows e' p' ∧
      (∀ now', (w.recordLoop e c now bs).getSpend e' p' now' = w.getSpend e' p' now') := by
  induction bs generalizing w with
  | nil => exact ⟨rfl, fun _ => rfl⟩
  | cons b rest ih =>
    have hb : ¬ (e' = e ∧ p' = b.period) := fun h => hne ⟨h.1, by simp [h.2]⟩
    have hrest : ¬ (e' = e ∧ p' ∈ rest.map Budget.period) :=
      fun h => hne ⟨h.1, mem_cons_of_mem _ h.2⟩
    obtain ⟨hrows, hget⟩ := ih (w := w.recordOne e c now b.period) hrest
    rw [recordLoop_cons]
    exact ⟨hrows.trans (recordOne_rows hb),
      fun now' => (hget now').trans (recordOne_getSpend hb now')⟩

theorem recordLoop_listCache (w : World) (e : Entity) (c : ℚ) (now : Int) (bs : List Budget) :
    (w.recordLoop e c now bs).listCache = w.listCache := by
  induction bs generalizing w with
  | nil => rfl
  | cons b rest ih => exact ih _

/-- Each listed period is charged once, in the row and in the counter. -/
theorem recordLoop_charges {w : World} {e : Entity} {c : ℚ} {now : Int} {bs : List Budget}
    (hnodup : (bs.map Budget.period).Nodup) {p : Period} (hp : p ∈ bs.map Budget.period) :
    (w.recordLoop e c now bs).rows e p = ((w.rows e p).map fun r =>
        { r with currentSpend := numeric8 (r.currentSpend + c) }) ∧
      ∀ now' v, (w.recordLoop e c now bs).getSpend e p now' = some v →
        v = (w.getSpend e p now).getD 0 + c := by
  induction bs generalizing w with
  | nil => cases hp
  | cons b rest ih =>
    obtain ⟨hfresh, hnodup'⟩ := nodup_cons.mp hnodup
    rw [recordLoop_cons]
    by_cases hb : p = b.period
    · -- charged now, and not again by the rest
      have hne : ¬ (e = e ∧ p ∈ rest.map Budget.period) := by
        rw [hb]
        exact fun h => hfresh h.2
      obtain ⟨hrows, hget⟩ :=
        @recordLoop_frame (w.recordOne e c now b.period) e c now rest e p hne
      subst hb
      refine ⟨hrows.trans recordOne_rows_self, fun now' v hv => ?_⟩
      rw [hget now'] at hv
      exact recordOne_getSpend_self hv
    · -- charged by the rest
      have hne : ¬ (e = e ∧ p = b.period) := fun h => hb h.2
      obtain ⟨hrows, hget⟩ := ih (w := w.recordOne e c now b.period) hnodup'
        ((mem_cons.mp hp).resolve_left hb)
      rw [recordOne_rows hne] at hrows
      rw [recordOne_getSpend hne] at hget
      exact ⟨hrows, hget⟩

theorem recordSpend_frame {w : World} {e : Entity} {c : ℚ} {now : Int} {e' : Entity}
    (hne : e' ≠ e) (p : Period) :
    (w.recordSpend e c now).rows e' p = w.rows e' p ∧
      ∀ now', (w.recordSpend e c now).getSpend e' p now' = w.getSpend e' p now' := by
  by_cases hc : c = 0
  · rw [hc, recordSpend_zero]
    exact ⟨rfl, fun _ => rfl⟩
  · obtain ⟨hrows, hget⟩ := @recordLoop_frame (w.cachedList e now).1 e c now
      (w.cachedList e now).2 e' p fun h => hne h.1
    rw [cachedList_rows] at hrows
    rw [recordSpend_eq w e hc]
    exact ⟨hrows, fun now' => (hget now').trans (getSpend_cachedList ..)⟩

/-- Every budget of the entity is charged. -/
theorem recordSpend_charges (hshaped : w.ListShaped e) {c : ℚ} (hc : c ≠ 0) (now : Int) {r : Row}
    (hr : w.rows e p = some r) :
    (w.recordSpend e c now).rows e p =
        some { r with currentSpend := numeric8 (r.currentSpend + c) } ∧
      ∀ now' v, (w.recordSpend e c now).getSpend e p now' = some v →
        v = (w.getSpend e p now).getD 0 + c := by
  obtain ⟨hperiods, -⟩ := cachedList_lists hshaped now
  have hmem : p ∈ (w.cachedList e now).2.map Budget.period := by
    rw [hperiods, mem_periods, hr]
    rfl
  obtain ⟨hrows, hget⟩ := @recordLoop_charges (w.cachedList e now).1 e c now
    (w.cachedList e now).2 (hperiods ▸ periods_nodup w e) p hmem
  rw [cachedList_rows, hr] at hrows
  rw [getSpend_cachedList] at hget
  rw [recordSpend_eq w e hc]
  exact ⟨hrows, hget⟩

theorem recordSpend_isSome (hshaped : w.ListShaped e) (c : ℚ) (now : Int) (e' : Entity) (p : Period) :
    ((w.recordSpend e c now).rows e' p).isSome = (w.rows e' p).isSome := by
  by_cases hc : c = 0
  · rw [hc, recordSpend_zero]
  by_cases he : e' = e
  · subst he
    cases hr : w.rows e' p with
    | some r =>
      rw [(recordSpend_charges hshaped hc now hr).1]
      rfl
    | none =>
      -- no row, so not listed
      have hnot : ¬ (e' = e' ∧ p ∈ (w.cachedList e' now).2.map Budget.period) := by
        rw [(cachedList_lists hshaped now).1, mem_periods, hr]
        simp
      have hframe := (@recordLoop_frame (w.cachedList e' now).1 e' c now _ e' p hnot).1
      rw [recordSpend_eq w e' hc, hframe, cachedList_rows, hr]
  · rw [(recordSpend_frame he p).1]

theorem recordSpend_listShaped (h : ∀ e, w.ListShaped e) (c : ℚ) (now : Int) (e' : Entity) :
    (w.recordSpend e c now).ListShaped e' := by
  by_cases hc : c = 0
  · rw [hc, recordSpend_zero]
    exact h e'
  · refine (cachedList_listShaped (h e') e now).congr (fun p => ?_) ?_
    · rw [recordSpend_isSome (h e) c now, cachedList_rows]
    · rw [recordSpend_eq w e hc]
      exact congrFun (recordLoop_listCache _ _ _ _ _) e'

end LlmRouter.Budgets
