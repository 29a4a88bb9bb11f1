import LlmRouter.Budget.Manager
import LlmRouter.Lib.Run

/-!
# LlmRouter — the budget ledger in SQL

`BudgetStore.Upsert` as `Create` calls it, `AddSpend` and `ResetExpired` on one row. `Upsert`
moves the period and keeps the spend, `ResetExpired` also clears what was spent in the new period,
and the column rounds each sum; `ledger_iff` says when none of this shows.
-/

namespace LlmRouter.Budgets

open Lib

/-! ## Runs -/

/-- What a `DECIMAL(12,4)` column stores of a limit. -/
def numeric4 (x : ℚ) : ℚ := roundHalfAway (x * 10000) / 10000

variable (w : World) (e : Entity) (p : Period)

/-- `BudgetStore.Upsert`: a new row starts at 0, an existing one keeps its spend. -/
def World.upsert (hardLimitUSD : Option ℚ) (start stop : Int) : World :=
  w.setRow e p (some
    { hardLimitUSD := hardLimitUSD.map numeric4
      currentSpend := ((w.rows e p).map Row.currentSpend).getD 0
      periodStart := start
      periodEnd := stop })

def World.invalidateListCache (w : World) (e : Entity) : World :=
  { w with listCache := Function.update w.listCache e none }

/-- `AdminBudgetsHandler.Create`, on a valid request. -/
def World.create (hardLimitUSD : Option ℚ) (now : Int) : World :=
  (w.upsert e p hardLimitUSD (periodStart p now) (periodEnd p now)).invalidateListCache e

inductive Statement where
  | create (hardLimitUSD : Option ℚ) (now : Int)
  | addSpend (amountUSD : ℚ) (now : Int)
  | resetExpired (now : Int)

def Statement.time : Statement → Int
  | .create _ now => now
  | .addSpend _ now => now
  | .resetExpired now => now

structure Ledger where
  world : World
  clock : Int
  log : List (Int × ℚ)
  drift : ℚ

def roundingOf (r : Row) (amountUSD : ℚ) : ℚ :=
  numeric8 (r.currentSpend + amountUSD) - (r.currentSpend + amountUSD)

def Ledger.step (e : Entity) (p : Period) (s : Ledger) : Statement → Ledger
  | .create hardLimitUSD now =>
    { s with world := s.world.create e p hardLimitUSD now, clock := now, drift := 0 }
  | .addSpend amountUSD now =>
    { world := s.world.addSpend e p amountUSD
      clock := now
      log := (now, amountUSD) :: s.log
      drift := s.drift + ((s.world.rows e p).map (roundingOf · amountUSD)).getD 0 }
  | .resetExpired now =>
    { s with
      world := s.world.resetExpired now
      clock := now
      drift := if (s.world.rows e p).any (fun r => decide (r.expired p now)) then 0
        else s.drift }

def Ledger.InOrder (s : Ledger) (st : Statement) : Prop := s.clock ≤ st.time

instance (s : Ledger) (st : Statement) : Decidable (s.InOrder st) :=
  inferInstanceAs (Decidable (_ ≤ _))

/-! ## What was spent -/

def spentSince (log : List (Int × ℚ)) (start : Int) : ℚ :=
  ((log.filter fun x => decide (start ≤ x.1)).map Prod.snd).sum

def spentIn (log : List (Int × ℚ)) (start stop : Int) : ℚ :=
  ((log.filter fun x => decide (start ≤ x.1 ∧ x.1 < stop)).map Prod.snd).sum

theorem spentSince_cons {x : Int × ℚ} {start : Int} (h : start ≤ x.1) (log : List (Int × ℚ)) :
    spentSince (x :: log) start = x.2 + spentSince log start := by
  simp [spentSince, h]

theorem spentIn_eq_since {log : List (Int × ℚ)} {stop : Int} (h : ∀ x ∈ log, x.1 < stop)
    (start : Int) : spentIn log start stop = spentSince log start := by
  have hsame : log.filter (fun x => decide (start ≤ x.1 ∧ x.1 < stop)) =
      log.filter fun x => decide (start ≤ x.1) :=
    List.filter_congr fun x hx => by simp [h x hx]
  rw [spentIn, spentSince, hsame]

theorem spentSince_split {start mid : Int} (hle : start ≤ mid) (log : List (Int × ℚ)) :
    spentSince log start = spentIn log start mid + spentSince log mid := by
  induction log with
  | nil => simp [spentSince, spentIn]
  | cons x log ih =>
    simp only [spentSince, spentIn, List.filter_cons] at ih ⊢
    rcases Int.lt_or_le x.1 start with hbefore | hsince
    · have h1 : ¬ start ≤ x.1 := by omega
      have h2 : ¬ mid ≤ x.1 := by omega
      simpa [h1, h2] using ih
    · rcases Int.lt_or_le x.1 mid with hin | hafter
      · have h2 : ¬ mid ≤ x.1 := by omega
        simp only [hsince, hin, h2, decide_true, decide_false, and_self, if_true, List.map_cons,
          List.sum_cons, Bool.false_eq_true, if_false, ih, add_assoc]
      · have h2 : ¬ x.1 < mid := by omega
        simp only [hsince, hafter, h2, decide_true, decide_false, and_false, if_true,
          List.map_cons, List.sum_cons, Bool.false_eq_true, if_false, ih]
        ring

/-! ## The law of a run and its condition -/

def Ledger.Shows (e : Entity) (p : Period) (s : Ledger) (now : Int) : Prop :=
  ∀ r, s.world.rows e p = some r →
    (r.periodStart ≤ now ∧ now < r.periodEnd) ∧
      r.currentSpend = spentIn s.log r.periodStart r.periodEnd

def Ledger.Sound (e : Entity) (p : Period) (s : Ledger) : Statement → Prop
  | .addSpend _ _ => True
  | .create hardLimitUSD now => (s.step e p (.create hardLimitUSD now)).Shows e p now
  | .resetExpired now => (s.step e p (.resetExpired now)).Shows e p now

/-- A first `Create` finds nothing spent in its period, a later one nothing between the row's period
and its own, up to rounding, and a reset nothing in the new period; where it resets nothing,
rounding has changed nothing. -/
def Ledger.Settled (e : Entity) (p : Period) (s : Ledger) : Statement → Prop
  | .addSpend _ _ => True
  | .create _ now =>
    match s.world.rows e p with
    | none => spentSince s.log (periodStart p now) = 0
    | some r => spentIn s.log r.periodStart (periodStart p now) + s.drift = 0
  | .resetExpired now =>
    match s.world.rows e p with
    | none => True
    | some r => if r.expired p now then spentSince s.log (periodStart p now) = 0 else s.drift = 0

instance (e : Entity) (p : Period) (s : Ledger) (st : Statement) :
    Decidable (s.Settled e p st) := by
  unfold Ledger.Settled
  split
  · infer_instance
  · split <;> infer_instance
  · split <;> infer_instance

structure Ledger.Balanced (e : Entity) (p : Period) (s : Ledger) : Prop where
  past : ∀ x ∈ s.log, x.1 ≤ s.clock
  row : ∀ r, s.world.rows e p = some r → ∃ t ≤ s.clock,
    r.periodStart = periodStart p t ∧ r.periodEnd = periodEnd p t ∧
      r.currentSpend = spentSince s.log r.periodStart + s.drift

theorem create_rows (hardLimitUSD : Option ℚ) (now : Int) :
    (w.create e p hardLimitUSD now).rows e p = some
      { hardLimitUSD := hardLimitUSD.map numeric4
        currentSpend := ((w.rows e p).map Row.currentSpend).getD 0
        periodStart := periodStart p now
        periodEnd := periodEnd p now } := by
  simp [World.create, World.upsert, World.invalidateListCache, World.setRow]

theorem resetExpired_rows_of_not {w : World} {e : Entity} {p : Period} {r : Row} {now : Int}
    (hr : w.rows e p = some r) (hexp : ¬ r.expired p now) :
    (w.resetExpired now).rows e p = some r := by
  simp [World.resetExpired, hr, hexp]

theorem resetExpired_rows_of_expired {w : World} {e : Entity} {p : Period} {r : Row} {now : Int}
    (hr : w.rows e p = some r) (hexp : r.expired p now) :
    (w.resetExpired now).rows e p = some
      { r with
        currentSpend := 0
        periodStart := periodStart p now
        periodEnd := periodEnd p now } := by
  simp [World.resetExpired, hr, hexp]

section Steps

variable {e : Entity} {p : Period} {s : Ledger} {now : Int}

section Ordered

variable (h : s.Balanced e p) (hp : p ≠ .lifetime) (horder : s.clock ≤ now)

include h hp horder

theorem Ledger.Balanced.spentIn_period :
    spentIn s.log (periodStart p now) (periodEnd p now) =
      spentSince s.log (periodStart p now) := by
  refine spentIn_eq_since (fun x hx => ?_) _
  have := h.past x hx
  have := (mem_period hp now).2
  omega

theorem Ledger.Balanced.shows_create (hardLimitUSD : Option ℚ) :
    (s.step e p (.create hardLimitUSD now)).Shows e p now ↔
      ((s.world.rows e p).map Row.currentSpend).getD 0 =
        spentSince s.log (periodStart p now) := by
  have hrow := create_rows s.world e p hardLimitUSD now
  constructor
  · intro hshows
    rw [← h.spentIn_period hp horder]
    exact (hshows _ hrow).2
  · intro hspend r hr
    rw [show (s.step e p (.create hardLimitUSD now)).world.rows e p = _ from hrow,
      Option.some.injEq] at hr
    subst hr
    refine ⟨mem_period hp now, ?_⟩
    rw [show (s.step e p (.create hardLimitUSD now)).log = s.log from rfl, hspend]
    exact (h.spentIn_period hp horder).symm

theorem Ledger.Balanced.create_iff (hardLimitUSD : Option ℚ) :
    s.Sound e p (.create hardLimitUSD now) ↔ s.Settled e p (.create hardLimitUSD now) := by
  rw [Ledger.Sound, h.shows_create hp horder]
  cases hr : s.world.rows e p with
  | none =>
    simp only [Ledger.Settled, hr, Option.map_none, Option.getD_none]
    exact eq_comm
  | some r =>
    obtain ⟨t, ht, hstart, -, hspend⟩ := h.row r hr
    have hle : r.periodStart ≤ periodStart p now := hstart ▸ periodStart_mono hp (ht.trans horder)
    have hsplit := spentSince_split hle s.log
    simp only [Ledger.Settled, hr, Option.map_some, Option.getD_some]
    constructor
    · intro hsame
      linarith
    · intro hsettled
      linarith

theorem Ledger.Balanced.shows_present {r : Row} (hr : s.world.rows e p = some r)
    (hexp : ¬ r.expired p now) :
    (s.step e p (.resetExpired now)).Shows e p now ↔ s.drift = 0 := by
  obtain ⟨t, ht, hstart, -, hspend⟩ := h.row r hr
  have hrow := resetExpired_rows_of_not hr hexp
  have hbegun : r.periodStart ≤ now := by
    have := (mem_period hp t).1
    omega
  have hends : now < r.periodEnd := by
    by_contra hle
    exact hexp ⟨hp, by omega⟩
  have hin : spentIn s.log r.periodStart r.periodEnd = spentSince s.log r.periodStart := by
    refine spentIn_eq_since (fun x hx => ?_) _
    have := h.past x hx
    omega
  constructor
  · intro hshows
    have : r.currentSpend = spentIn s.log r.periodStart r.periodEnd := (hshows r hrow).2
    linarith
  · intro hdrift r' hr'
    rw [show (s.step e p (.resetExpired now)).world.rows e p = _ from hrow,
      Option.some.injEq] at hr'
    subst hr'
    refine ⟨⟨hbegun, hends⟩, ?_⟩
    show r.currentSpend = spentIn s.log r.periodStart r.periodEnd
    linarith

theorem Ledger.Balanced.shows_expired {r : Row} (hr : s.world.rows e p = some r)
    (hexp : r.expired p now) :
    (s.step e p (.resetExpired now)).Shows e p now ↔
      spentSince s.log (periodStart p now) = 0 := by
  have hrow := resetExpired_rows_of_expired hr hexp
  rw [← h.spentIn_period hp horder]
  constructor
  · intro hshows
    exact (hshows _ hrow).2.symm
  · intro hnone r' hr'
    rw [show (s.step e p (.resetExpired now)).world.rows e p = _ from hrow,
      Option.some.injEq] at hr'
    subst hr'
    exact ⟨mem_period hp now, hnone.symm⟩

theorem Ledger.Balanced.resetExpired_iff :
    s.Sound e p (.resetExpired now) ↔ s.Settled e p (.resetExpired now) := by
  rw [Ledger.Sound]
  cases hr : s.world.rows e p with
  | none =>
    have hrow : (s.step e p (.resetExpired now)).world.rows e p = none := by
      simp [Ledger.step, World.resetExpired, hr]
    simp [Ledger.Settled, Ledger.Shows, hr, hrow]
  | some r =>
    by_cases hexp : r.expired p now
    · simp only [Ledger.Settled, hr, if_pos hexp, h.shows_expired hp horder hr hexp]
    · simp only [Ledger.Settled, hr, if_neg hexp, h.shows_present hp horder hr hexp]

end Ordered

theorem Ledger.Balanced.sound_iff (h : s.Balanced e p) (hp : p ≠ .lifetime) {st : Statement}
    (horder : s.InOrder st) : s.Sound e p st ↔ s.Settled e p st := by
  cases st with
  | create hardLimitUSD now => exact h.create_iff hp horder hardLimitUSD
  | addSpend amountUSD now => exact Iff.rfl
  | resetExpired now => exact h.resetExpired_iff hp horder

/-! ### The balance is kept -/

theorem Ledger.Balanced.create (h : s.Balanced e p) (hp : p ≠ .lifetime)
    (horder : s.clock ≤ now) {hardLimitUSD : Option ℚ}
    (hset : s.Settled e p (.create hardLimitUSD now)) :
    (s.step e p (.create hardLimitUSD now)).Balanced e p := by
  refine ⟨fun x hx => (h.past x hx).trans horder, fun r hr => ?_⟩
  have hspend := (h.shows_create hp horder hardLimitUSD).mp
    ((h.create_iff hp horder hardLimitUSD).mpr hset)
  rw [show (s.step e p (.create hardLimitUSD now)).world.rows e p = _ from
    create_rows s.world e p hardLimitUSD now, Option.some.injEq] at hr
  subst hr
  refine ⟨now, le_refl _, rfl, rfl, ?_⟩
  rw [hspend, show (s.step e p (.create hardLimitUSD now)).drift = 0 from rfl, add_zero]
  rfl

theorem Ledger.Balanced.addSpend (h : s.Balanced e p) (hp : p ≠ .lifetime)
    (horder : s.clock ≤ now) (amountUSD : ℚ) :
    (s.step e p (.addSpend amountUSD now)).Balanced e p := by
  refine ⟨?_, fun r hr => ?_⟩
  · intro x hx
    rcases List.mem_cons.mp hx with rfl | hx
    · exact le_refl _
    · exact (h.past x hx).trans horder
  · have hrow : (s.world.addSpend e p amountUSD).rows e p = some r := hr
    rw [addSpend_rows, if_pos ⟨rfl, rfl⟩] at hrow
    obtain ⟨r₀, hr₀, rfl⟩ := Option.map_eq_some_iff.mp hrow
    obtain ⟨t, ht, hstart, hend, hspend⟩ := h.row r₀ hr₀
    have hbegun : r₀.periodStart ≤ now := by
      have := (mem_period hp t).1
      omega
    refine ⟨t, ht.trans horder, hstart, hend, ?_⟩
    have hlog : spentSince (s.step e p (.addSpend amountUSD now)).log r₀.periodStart =
        amountUSD + spentSince s.log r₀.periodStart := spentSince_cons hbegun s.log
    have hdrift : (s.step e p (.addSpend amountUSD now)).drift =
        s.drift + roundingOf r₀ amountUSD := by
      simp [Ledger.step, hr₀]
    rw [hlog, hdrift, roundingOf, hspend]
    ring

theorem Ledger.Balanced.resetExpired (h : s.Balanced e p) (horder : s.clock ≤ now)
    (hset : s.Settled e p (.resetExpired now)) :
    (s.step e p (.resetExpired now)).Balanced e p := by
  refine ⟨fun x hx => (h.past x hx).trans horder, fun r hr => ?_⟩
  have hr : (s.world.resetExpired now).rows e p = some r := hr
  obtain ⟨r₀, hr₀, -⟩ := Option.map_eq_some_iff.mp hr
  by_cases hexp : r₀.expired p now
  · rw [resetExpired_rows_of_expired hr₀ hexp, Option.some.injEq] at hr
    subst hr
    have hnone : spentSince s.log (periodStart p now) = 0 := by
      simpa only [Ledger.Settled, hr₀, if_pos hexp] using hset
    have hdrift : (s.step e p (.resetExpired now)).drift = 0 := by
      simp [Ledger.step, hr₀, hexp]
    refine ⟨now, le_refl _, rfl, rfl, ?_⟩
    rw [hdrift, add_zero]
    exact hnone.symm
  · rw [resetExpired_rows_of_not hr₀ hexp, Option.some.injEq] at hr
    subst hr
    obtain ⟨t, ht, hstart, hend, hspend⟩ := h.row r₀ hr₀
    have hdrift : (s.step e p (.resetExpired now)).drift = s.drift := by
      simp [Ledger.step, hr₀, hexp]
    refine ⟨t, ht.trans horder, hstart, hend, ?_⟩
    rw [hdrift, hspend]
    rfl

theorem Ledger.Balanced.step (h : s.Balanced e p) (hp : p ≠ .lifetime) {st : Statement}
    (horder : s.InOrder st) (hset : s.Settled e p st) : (s.step e p st).Balanced e p := by
  cases st with
  | create hardLimitUSD now => exact h.create hp horder hset
  | addSpend amountUSD now => exact h.addSpend hp horder amountUSD
  | resetExpired now => exact h.resetExpired horder hset

end Steps

/-! ## The law -/

def Ledger.start (w : World) (clock : Int) : Ledger where
  world := w
  clock := clock
  log := []
  drift := 0

/-- **The ledger shows the spend of the period.** In every run on one row, the row is of the present
period and shows what was added in it after every `Create` and reset, iff no `Create` carries spend
over, no reset drops spend of the new period, and rounding adds nothing. -/
theorem ledger_iff {e : Entity} {p : Period} (hp : p ≠ .lifetime) {w : World}
    (hw : w.rows e p = none) {clock : Int} {sts : List Statement}
    (horder : Along (Ledger.step e p) Ledger.InOrder (Ledger.start w clock) sts) :
    Along (Ledger.step e p) (Ledger.Sound e p) (Ledger.start w clock) sts ↔
      Along (Ledger.step e p) (Ledger.Settled e p) (Ledger.start w clock) sts := by
  refine along_iff (P := Ledger.Balanced e p) (fun _ _ h horder => h.sound_iff hp horder)
    (fun _ _ h horder hset => h.step hp horder hset) ⟨?_, ?_⟩ horder
  · intro x hx
    cases hx
  · intro r hr
    rw [show (Ledger.start w clock).world.rows e p = none from hw] at hr
    cases hr

theorem ledger_of_one_hour :
    Along (Ledger.step ⟨.key, "k1"⟩ .hourly) (Ledger.Sound ⟨.key, "k1"⟩ .hourly)
      (Ledger.start noBudgets 0)
      [.create (some 10) 1, .addSpend 3 2, .create (some 20) 3, .resetExpired 4,
        .resetExpired hour] := by
  refine (ledger_iff (by decide) rfl ?_).mpr ?_
  · decide +kernel
  · decide +kernel

/-- A limit changed in the second hour keeps the $5 of the first. -/
theorem changed_limit_carries_spend :
    ((([Statement.create (some 10) 1, .addSpend 5 2, .create (some 20) hour].foldl
      (Ledger.step ⟨.key, "k1"⟩ .hourly) (Ledger.start noBudgets 0)).world.rows
        ⟨.key, "k1"⟩ .hourly).map fun r => (r.periodStart, r.periodEnd, r.currentSpend)) =
      some (hour, 2 * hour, 5) ∧
    ¬ Along (Ledger.step ⟨.key, "k1"⟩ .hourly) (Ledger.Sound ⟨.key, "k1"⟩ .hourly)
      (Ledger.start noBudgets 0)
      [.create (some 10) 1, .addSpend 5 2, .create (some 20) hour] := by
  refine ⟨by decide +kernel, ?_⟩
  rintro ⟨-, -, hsound, -⟩
  have hspend := (hsound _ (create_rows _ _ _ _ _)).2
  revert hspend
  decide +kernel

-- $5 spent in the second hour before its reset are gone after it
example : (([Statement.create (some 10) 1, .addSpend 5 hour, .resetExpired (hour + 1)].foldl
    (Ledger.step ⟨.key, "k1"⟩ .hourly) (Ledger.start noBudgets 0)).world.rows
      ⟨.key, "k1"⟩ .hourly).map (fun r => (r.periodStart, r.periodEnd, r.currentSpend)) =
    some (hour, 2 * hour, 0) := by
  decide +kernel

end LlmRouter.Budgets
