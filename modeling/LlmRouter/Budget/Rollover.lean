import LlmRouter.Budget.Calls
import LlmRouter.Lib.Run

/-!
# LlmRouter — period rollover

Runs of `RecordSpend`, `CheckBudget` and scheduler ticks. `Scheduler.tick` resets the expired rows
only: the Redis counter and the cached list keep the old spend. `rollover` says when a reset
budget starts at 0 all the same.
-/

namespace LlmRouter.Budgets

open Lib Lib.Redis

inductive Event where
  | record (e : Entity) (costUSD : ℚ) (now : Int)
  | check (e : Entity) (now : Int)
  | tick (now : Int)

def Event.time : Event → Int
  | .record _ _ now => now
  | .check _ now => now
  | .tick now => now

structure Timeline where
  world : World
  clock : Int
  since : Option ℚ

/-- `Scheduler.tick` resets this budget. -/
def resets (w : World) (e : Entity) (p : Period) (now : Int) : Bool :=
  (w.rows e p).any fun r => decide (r.expired p now)

theorem resets_iff {w : World} {e : Entity} {p : Period} {now : Int} :
    resets w e p now = true ↔ ∃ r, w.rows e p = some r ∧ r.expired p now := by
  unfold resets
  cases w.rows e p with
  | none => simp
  | some r => simp

def Timeline.step (e₀ : Entity) (p₀ : Period) (s : Timeline) : Event → Timeline
  | .record e c now =>
    { world := s.world.recordSpend e c now
      clock := now
      since := if e = e₀ then s.since.map (· + c) else s.since }
  | .check e now => { s with world := (s.world.checkBudget e now).1, clock := now }
  | .tick now =>
    { world := s.world.resetExpired now
      clock := now
      since := if resets s.world e₀ p₀ now then some 0 else s.since }

def RolloverOk (e₀ : Entity) (p₀ : Period) (s : Timeline) : Event → Prop
  | .record e c now =>
    e = e₀ → c ≠ 0 → Scaled c ∧
      ((s.world.getSpend e₀ p₀ now).isSome ∨ s.world.spent e₀ p₀ = 0)
  | .check e now =>
    e = e₀ → s.world.getSpend e₀ p₀ now = none →
      ∀ b ∈ (s.world.cachedList e₀ now).2, b.period = p₀ → b.currentSpend = s.world.spent e₀ p₀
  | .tick now => resets s.world e₀ p₀ now = true → s.world.getSpend e₀ p₀ now = none

def Timeline.InOrder (s : Timeline) (ev : Event) : Prop := s.clock ≤ ev.time

/-! ## The invariant -/

structure Rolled (e₀ : Entity) (p₀ : Period) (s : Timeline) : Prop where
  shaped : ∀ e, s.world.ListShaped e
  exact : ∀ r, s.world.rows e₀ p₀ = some r → Scaled r.currentSpend
  row : ∀ x, s.since = some x → ∃ r, s.world.rows e₀ p₀ = some r ∧ r.currentSpend = x
  counter : ∀ x, s.since = some x → ∀ v, s.world.getSpend e₀ p₀ s.clock = some v → v = x

section Steps

variable {e₀ : Entity} {p₀ : Period} {s : Timeline}

variable {e : Entity} {now : Int}

theorem Rolled.check (h : Rolled e₀ p₀ s) (horder : s.clock ≤ now)
    (hok : RolloverOk e₀ p₀ s (.check e now)) : Rolled e₀ p₀ (s.step e₀ p₀ (.check e now)) := by
  have hrows : (s.step e₀ p₀ (.check e now)).world.rows = s.world.rows :=
    checkBudget_rows s.world e now
  refine ⟨fun e' => checkBudget_listShaped (h.shaped e') e now, ?_, ?_, ?_⟩
  · rw [hrows]
    exact h.exact
  · rw [hrows]
    exact h.row
  · intro x hx v hv
    obtain ⟨r, hr, hspend⟩ := h.row x hx
    rcases checkBudget_getSpend (h.shaped e) hv with hold | ⟨rfl, hnone, b, hb, hp, hval⟩
    · exact h.counter x hx v (getSpend_of_le _ _ _ horder hold)
    · rw [hval, hok rfl hnone b hb hp, spent_of_row hr, hspend]

theorem Rolled.record_other (h : Rolled e₀ p₀ s) {c : ℚ} (horder : s.clock ≤ now) (he : e ≠ e₀) :
    Rolled e₀ p₀ (s.step e₀ p₀ (.record e c now)) := by
  obtain ⟨hrows, hget⟩ := @recordSpend_frame s.world e c now e₀ (Ne.symm he) p₀
  have hsince : (s.step e₀ p₀ (.record e c now)).since = s.since := if_neg he
  refine ⟨recordSpend_listShaped h.shaped c now, fun r hr => h.exact r (hrows ▸ hr), ?_, ?_⟩
  · rw [hsince]
    show ∀ x, _ → ∃ r, (s.world.recordSpend e c now).rows e₀ p₀ = some r ∧ _
    rw [hrows]
    exact h.row
  · rw [hsince]
    intro x hx v hv
    have hv : (s.world.recordSpend e c now).getSpend e₀ p₀ now = some v := hv
    rw [hget] at hv
    exact h.counter x hx v (getSpend_of_le _ _ _ horder hv)

theorem Rolled.record_zero (h : Rolled e₀ p₀ s) (horder : s.clock ≤ now) :
    Rolled e₀ p₀ (s.step e₀ p₀ (.record e₀ 0 now)) := by
  have hsame : s.step e₀ p₀ (.record e₀ 0 now) =
      { s with clock := now, since := s.since.map (· + 0) } := by
    simp [Timeline.step, recordSpend_zero]
  rw [hsame]
  simp only [add_zero, Option.map_id_fun', id]
  exact { h with
    counter := fun x hx v hv => h.counter x hx v (getSpend_of_le _ _ _ horder hv) }

theorem Rolled.counter_before (h : Rolled e₀ p₀ s) (horder : s.clock ≤ now)
    (hfound : (s.world.getSpend e₀ p₀ now).isSome ∨ s.world.spent e₀ p₀ = 0) {r : Row}
    (hr : s.world.rows e₀ p₀ = some r) (hsince : s.since = some r.currentSpend) :
    (s.world.getSpend e₀ p₀ now).getD 0 = r.currentSpend := by
  cases hu : s.world.getSpend e₀ p₀ now with
  | some u => exact h.counter _ hsince u (getSpend_of_le _ _ _ horder hu)
  | none =>
    rw [hu, spent_of_row hr] at hfound
    simp only [Option.isSome_none, Bool.false_eq_true, false_or] at hfound
    exact hfound.symm

theorem Rolled.record_charge (h : Rolled e₀ p₀ s) {c : ℚ} (horder : s.clock ≤ now) (hc : c ≠ 0)
    (hscaled : Scaled c) (hfound : (s.world.getSpend e₀ p₀ now).isSome ∨ s.world.spent e₀ p₀ = 0) :
    Rolled e₀ p₀ (s.step e₀ p₀ (.record e₀ c now)) := by
  have hcharges := fun r (hr : s.world.rows e₀ p₀ = some r) =>
    recordSpend_charges (h.shaped e₀) hc now hr
  have hsince : ∀ x, (s.step e₀ p₀ (.record e₀ c now)).since = some x →
      ∃ x₀, s.since = some x₀ ∧ x = x₀ + c := by
    intro x hx
    simp only [Timeline.step, if_true] at hx
    obtain ⟨x₀, hx₀, rfl⟩ := Option.map_eq_some_iff.mp hx
    exact ⟨x₀, hx₀, rfl⟩
  refine ⟨recordSpend_listShaped h.shaped c now, ?_, ?_, ?_⟩
  · intro r hr
    have hr : (s.world.recordSpend e₀ c now).rows e₀ p₀ = some r := hr
    have hsome := recordSpend_isSome (h.shaped e₀) c now e₀ p₀
    rw [hr] at hsome
    obtain ⟨r₀, hr₀⟩ := Option.isSome_iff_exists.mp hsome.symm
    rw [(hcharges r₀ hr₀).1, Option.some.injEq] at hr
    rw [← hr]
    exact scaled_numeric8 _
  · intro x hx
    obtain ⟨x₀, hx₀, rfl⟩ := hsince x hx
    obtain ⟨r₀, hr₀, rfl⟩ := h.row x₀ hx₀
    exact ⟨_, (hcharges r₀ hr₀).1, numeric8_of_scaled ((h.exact r₀ hr₀).add hscaled)⟩
  · intro x hx v hv
    obtain ⟨x₀, hx₀, rfl⟩ := hsince x hx
    obtain ⟨r₀, hr₀, rfl⟩ := h.row x₀ hx₀
    have hv : (s.world.recordSpend e₀ c now).getSpend e₀ p₀ now = some v := hv
    rw [(hcharges r₀ hr₀).2 now v hv, h.counter_before horder hfound hr₀ hx₀]

theorem Rolled.record (h : Rolled e₀ p₀ s) {c : ℚ} (horder : s.clock ≤ now)
    (hok : RolloverOk e₀ p₀ s (.record e c now)) :
    Rolled e₀ p₀ (s.step e₀ p₀ (.record e c now)) := by
  by_cases he : e = e₀
  · subst he
    by_cases hc : c = 0
    · subst hc
      exact h.record_zero horder
    · obtain ⟨hscaled, hfound⟩ := hok rfl hc
      exact h.record_charge horder hc hscaled hfound
  · exact h.record_other horder he

theorem Rolled.tick (h : Rolled e₀ p₀ s) (horder : s.clock ≤ now)
    (hok : RolloverOk e₀ p₀ s (.tick now)) : Rolled e₀ p₀ (s.step e₀ p₀ (.tick now)) := by
  have hrows : ∀ e p, ((s.world.resetExpired now).rows e p).isSome = (s.world.rows e p).isSome := by
    intro e p
    simp [World.resetExpired]
  have hshaped : ∀ e, (s.world.resetExpired now).ListShaped e :=
    fun e => (h.shaped e).congr (hrows e) rfl
  by_cases hreset : resets s.world e₀ p₀ now = true
  · obtain ⟨r₀, hr₀, hexp⟩ := resets_iff.mp hreset
    have hrow : (s.world.resetExpired now).rows e₀ p₀ = some
        { r₀ with
          currentSpend := 0
          periodStart := Budgets.periodStart p₀ now
          periodEnd := Budgets.periodEnd p₀ now } := by
      simp [World.resetExpired, hr₀, hexp]
    have hsince : (s.step e₀ p₀ (.tick now)).since = some 0 := if_pos hreset
    refine ⟨hshaped, ?_, ?_, ?_⟩
    · intro r hr
      rw [show (s.step e₀ p₀ (.tick now)).world = s.world.resetExpired now from rfl, hrow,
        Option.some.injEq] at hr
      rw [← hr]
      exact scaled_zero
    · intro x hx
      rw [hsince, Option.some.injEq] at hx
      exact ⟨_, hrow, hx⟩
    · intro x _ v hv
      have hv : s.world.getSpend e₀ p₀ now = some v := hv
      rw [hok hreset] at hv
      cases hv
  · have hrow : (s.world.resetExpired now).rows e₀ p₀ = s.world.rows e₀ p₀ := by
      cases hr : s.world.rows e₀ p₀ with
      | none => simp [World.resetExpired, hr]
      | some r =>
        have hnot : ¬ r.expired p₀ now := fun hexp => hreset (resets_iff.mpr ⟨r, hr, hexp⟩)
        simp [World.resetExpired, hr, hnot]
    have hsince : (s.step e₀ p₀ (.tick now)).since = s.since := if_neg hreset
    refine ⟨hshaped, fun r hr => h.exact r (hrow ▸ hr), ?_, ?_⟩
    · rw [hsince]
      show ∀ x, _ → ∃ r, (s.world.resetExpired now).rows e₀ p₀ = some r ∧ _
      rw [hrow]
      exact h.row
    · rw [hsince]
      intro x hx v hv
      exact h.counter x hx v (getSpend_of_le _ _ _ horder hv)

theorem Rolled.step {ev : Event} (h : Rolled e₀ p₀ s)
    (hok : s.InOrder ev ∧ RolloverOk e₀ p₀ s ev) : Rolled e₀ p₀ (s.step e₀ p₀ ev) := by
  cases ev with
  | record e c now => exact h.record hok.1 hok.2
  | check e now => exact h.check hok.1 hok.2
  | tick now => exact h.tick hok.1 hok.2

end Steps

/-! ## The law -/

structure Timeline.Start (e₀ : Entity) (p₀ : Period) (s : Timeline) : Prop where
  shaped : ∀ e, s.world.ListShaped e
  exact : ∀ r, s.world.rows e₀ p₀ = some r → Scaled r.currentSpend
  since : s.since = none

/-- **A reset budget starts at 0.** In every run whose events meet the condition, every check after
a reset compares with the hard limit exactly the costs recorded since, and an exceeded budget is
exceeded by them alone. -/
theorem rollover {e₀ : Entity} {p₀ : Period} {s₀ : Timeline} (hstart : s₀.Start e₀ p₀)
    {events : List Event} {now : Int}
    (hok : Along (Timeline.step e₀ p₀) (fun s ev => s.InOrder ev ∧ RolloverOk e₀ p₀ s ev) s₀
      (events ++ [.check e₀ now]))
    {x : ℚ} (hx : (events.foldl (Timeline.step e₀ p₀) s₀).since = some x) :
    let result := ((events.foldl (Timeline.step e₀ p₀) s₀).world.checkBudget e₀ now).2
    (∀ b spend, (b, spend) ∈ result.compared → b.period = p₀ → spend = x) ∧
      ∀ err, result.exceeded = some err → err.period = p₀ → err.current = x ∧ err.limit ≤ x := by
  intro result
  obtain ⟨hbefore, hcheck, -⟩ := along_append.mp hok
  have h : Rolled e₀ p₀ (events.foldl (Timeline.step e₀ p₀) s₀) := by
    refine foldl_invariant (fun _ _ h hok => h.step hok) ?_ hbefore
    exact ⟨hstart.shaped, hstart.exact, by simp [hstart.since], by simp [hstart.since]⟩
  set s := events.foldl (Timeline.step e₀ p₀) s₀ with hs
  obtain ⟨r, hr, hspend⟩ := h.row x hx
  -- a compared spend is the counter's, or comes from a list that shows the row's
  have hcompared : ∀ b spend, (b, spend) ∈ result.compared → b.period = p₀ → spend = x := by
    rintro b spend hmem rfl
    obtain ⟨-, hget | ⟨hnone, b', hb', hp, rfl⟩⟩ := checkBudget_compared (h.shaped e₀) hmem
    · exact h.counter x hx spend (getSpend_of_le _ _ _ hcheck.1 hget)
    · rw [hcheck.2 rfl hnone b' hb' hp, spent_of_row hr, hspend]
  refine ⟨hcompared, fun err herr hp => ?_⟩
  obtain ⟨b, hmem, hbp, -, hle⟩ := checkLoop_exceeded herr
  have hcurrent := hcompared b err.current hmem (hbp.trans hp)
  exact ⟨hcurrent, hcurrent ▸ hle⟩

def hourlyBudget : Timeline where
  world := .single ⟨.key, "k1"⟩ .hourly
    { hardLimitUSD := some 10, currentSpend := 0, periodStart := 0, periodEnd := hour }
  clock := 0
  since := none

theorem hourlyBudget_start : hourlyBudget.Start ⟨.key, "k1"⟩ .hourly where
  shaped := by
    intro e c hc
    cases hc
  exact := by
    intro r hr
    rw [show r.currentSpend = 0 from (Option.some.inj hr) ▸ rfl]
    exact scaled_zero
  since := rfl

theorem rollover_after_expiry :
    let result := (([Event.tick hour, .record ⟨.key, "k1"⟩ 3 hour].foldl
      (Timeline.step ⟨.key, "k1"⟩ .hourly) hourlyBudget).world.checkBudget
        ⟨.key, "k1"⟩ (2 * hour)).2
    result.compared.length = 1 ∧
      ∀ b spend, (b, spend) ∈ result.compared → b.period = .hourly → spend = 3 := by
  have hok : Along (Timeline.step ⟨.key, "k1"⟩ .hourly)
      (fun s ev => s.InOrder ev ∧ RolloverOk ⟨.key, "k1"⟩ .hourly s ev) hourlyBudget
      ([.tick hour, .record ⟨.key, "k1"⟩ 3 hour] ++ [.check ⟨.key, "k1"⟩ (2 * hour)]) := by
    refine ⟨⟨by unfold Timeline.InOrder; decide, fun _ => rfl⟩,
      ⟨by unfold Timeline.InOrder; decide, fun _ _ => ⟨⟨300000000, by norm_num⟩, .inr ?_⟩⟩,
      ⟨by unfold Timeline.InOrder; decide, fun _ hnone => ?_⟩, trivial⟩
    · decide +kernel
    · exact absurd hnone (by decide +kernel)
  exact ⟨by decide +kernel, (rollover hourlyBudget_start hok (by decide +kernel)).1⟩

/-- $12 recorded in the first hour still exceed the limit after the reset: the
counter outlives the period. -/
theorem old_spend_blocks_new_period :
    let s := [Event.record ⟨.key, "k1"⟩ 12 (hour / 2), .tick hour].foldl
      (Timeline.step ⟨.key, "k1"⟩ .hourly) hourlyBudget
    s.since = some 0 ∧ s.world.spent ⟨.key, "k1"⟩ .hourly = 0 ∧
      (s.world.checkBudget ⟨.key, "k1"⟩ hour).2.exceeded =
        some { current := 12, limit := 10, period := .hourly } := by
  decide +kernel

end LlmRouter.Budgets
