import LlmRouter.Lib.Calendar

/-!
# LlmRouter — budget periods

`budget.PeriodStart` and `budget.PeriodEnd`: the bounds of the hour, day, ISO week or month of an
instant in UTC, in nanoseconds since the epoch. The admin API validates period names, so they are
an enumeration.
-/

namespace LlmRouter.Budgets

open Lib.Calendar

inductive Period where
  | hourly
  | daily
  | weekly
  | monthly
  | lifetime
  deriving DecidableEq, Repr

/-- The periods in the order of their names (`ORDER BY period`). -/
def Period.byName : List Period := [.daily, .hourly, .lifetime, .monthly, .weekly]

theorem Period.mem_byName (p : Period) : p ∈ Period.byName := by
  cases p <;> decide

def hour : Int := 3600000000000

/-- `time.Date(year, month, day, hours, 0, 0, 0, time.UTC)`: values outside their range count on. -/
def timeDate (year month day hours : Int) : Int :=
  (toDays ⟨year + (month - 1) / 12, (month - 1) % 12 + 1, day⟩ * 24 + hours) * hour

def dateOf (now : Int) : Date := ofDays (now / (24 * hour))

def hourOf (now : Int) : Int := now % (24 * hour) / hour

/-- The ISO weekday of an instant, Monday being 1: day 0 was a Thursday. -/
def isoWeekday (now : Int) : Int :=
  let weekday := (now / (24 * hour) + 4) % 7
  if weekday = 0 then 7 else weekday

def addDays (d : Date) (n : Int) : Date := ofDays (toDays { d with day := d.day + n })

/-- `PeriodStart`; a lifetime budget starts at the zero time, the first of
January of year 1. -/
def periodStart (p : Period) (now : Int) : Int :=
  let d := dateOf now
  match p with
  | .hourly => timeDate d.year d.month d.day (hourOf now)
  | .daily => timeDate d.year d.month d.day 0
  | .weekly =>
    let monday := addDays d (-(isoWeekday now - 1))
    timeDate monday.year monday.month monday.day 0
  | .monthly => timeDate d.year d.month 1 0
  | .lifetime => timeDate 1 1 1 0

/-- `PeriodEnd`, exclusive; a lifetime budget ends in the far future. -/
def periodEnd (p : Period) (now : Int) : Int :=
  let d := dateOf now
  match p with
  | .hourly => timeDate d.year d.month d.day (hourOf now + 1)
  | .daily => timeDate d.year d.month (d.day + 1) 0
  | .weekly =>
    let monday := addDays d (-(isoWeekday now - 1))
    let nextMonday := addDays monday 7
    timeDate nextMonday.year nextMonday.month nextMonday.day 0
  | .monthly => timeDate d.year (d.month + 1) 1 0
  | .lifetime => timeDate 9999 12 31 23 + 59 * 60000000000 + 59 * 1000000000

/-! ## Periods follow each other -/

def Period.grid : Period → Int → Int
  | .hourly, k => k * hour
  | .daily, k => k * (24 * hour)
  | .weekly, k => (7 * k - 3) * (24 * hour)
  | .monthly, k => monthStart k * (24 * hour)
  | .lifetime, k => k

def Period.index : Period → Int → Int
  | .hourly, now => now / hour
  | .daily, now => now / (24 * hour)
  | .weekly, now => (now / (24 * hour) + 3) / 7
  | .monthly, now => (dateOf now).monthIndex
  | .lifetime, now => now

theorem timeDate_ofDays (days n hours : Int) :
    timeDate (ofDays days).year (ofDays days).month ((ofDays days).day + n) hours =
      ((days + n) * 24 + hours) * hour := by
  have hmonth := ofDays_month days
  have hdate : (⟨(ofDays days).year + ((ofDays days).month - 1) / 12,
      ((ofDays days).month - 1) % 12 + 1, (ofDays days).day + n⟩ : Date) =
      { ofDays days with day := (ofDays days).day + n } := by
    simp only [Date.mk.injEq, and_true]
    omega
  rw [timeDate, hdate, toDays_add_day, toDays_ofDays]

theorem timeDate_monthStart (d : Date) (n : Int) :
    timeDate d.year (d.month + n) 1 0 = monthStart (d.monthIndex + n) * (24 * hour) := by
  have hdate : (⟨d.year + (d.month + n - 1) / 12, (d.month + n - 1) % 12 + 1, 1⟩ : Date) =
      ⟨(d.monthIndex + n) / 12, (d.monthIndex + n) % 12 + 1, 1⟩ := by
    simp only [Date.monthIndex, Date.mk.injEq, and_true]
    omega
  rw [timeDate, hdate, ← monthStart]
  ring

theorem addDays_ofDays (days n : Int) : addDays (ofDays days) n = ofDays (days + n) := by
  rw [addDays, toDays_add_day, toDays_ofDays]

theorem monday_eq (now : Int) :
    now / (24 * hour) + -(isoWeekday now - 1) = 7 * Period.weekly.index now - 3 := by
  simp only [isoWeekday, Period.index]
  split_ifs <;> omega

variable {p : Period}

theorem periodStart_eq_grid (hp : p ≠ .lifetime) (now : Int) :
    periodStart p now = p.grid (p.index now) := by
  cases p with
  | hourly =>
    have h := timeDate_ofDays (now / (24 * hour)) 0 (hourOf now)
    simp only [add_zero] at h
    simp only [periodStart, dateOf, h]
    simp only [hourOf, Period.grid, Period.index, hour]
    omega
  | daily =>
    have h := timeDate_ofDays (now / (24 * hour)) 0 0
    simp only [add_zero] at h
    simp only [periodStart, dateOf, h]
    simp only [Period.grid, Period.index, hour]
    omega
  | weekly =>
    have h := timeDate_ofDays (7 * Period.weekly.index now - 3) 0 0
    simp only [add_zero] at h
    simp only [periodStart, dateOf, addDays_ofDays, monday_eq, h]
    simp only [Period.grid]
    ring
  | monthly =>
    have h := timeDate_monthStart (dateOf now) 0
    simp only [add_zero] at h
    exact h
  | lifetime => exact absurd rfl hp

theorem periodEnd_eq_grid (hp : p ≠ .lifetime) (now : Int) :
    periodEnd p now = p.grid (p.index now + 1) := by
  cases p with
  | hourly =>
    have h := timeDate_ofDays (now / (24 * hour)) 0 (hourOf now + 1)
    simp only [add_zero] at h
    simp only [periodEnd, dateOf, h]
    simp only [hourOf, Period.grid, Period.index, hour]
    omega
  | daily =>
    have h := timeDate_ofDays (now / (24 * hour)) 1 0
    simp only [periodEnd, dateOf, h]
    simp only [Period.grid, Period.index, hour]
    omega
  | weekly =>
    have h := timeDate_ofDays (7 * Period.weekly.index now - 3 + 7) 0 0
    simp only [add_zero] at h
    simp only [periodEnd, dateOf, addDays_ofDays, monday_eq, h]
    simp only [Period.grid]
    ring
  | monthly => exact timeDate_monthStart (dateOf now) 1
  | lifetime => exact absurd rfl hp

theorem Period.grid_lt_succ (p : Period) (k : Int) : p.grid k < p.grid (k + 1) := by
  cases p with
  | monthly =>
    have h := monthStart_lt_succ k
    simp only [Period.grid, hour]
    omega
  | _ =>
    simp only [Period.grid, hour]
    omega

theorem Period.grid_mono (p : Period) {k k' : Int} (h : k ≤ k') : p.grid k ≤ p.grid k' := by
  induction k', h using Int.leInduction with
  | base => exact Int.le_refl _
  | succ n _ ih => exact Int.le_trans ih (Int.le_of_lt (p.grid_lt_succ n))

theorem Period.grid_index (p : Period) (now : Int) :
    p.grid (p.index now) ≤ now ∧ now < p.grid (p.index now + 1) := by
  cases p with
  | monthly =>
    have h := ofDays_mem_month (now / (24 * hour))
    simp only [Period.grid, Period.index, dateOf, hour] at h ⊢
    omega
  | _ =>
    simp only [Period.grid, Period.index, hour]
    omega

/-- **A period contains the instant it is computed for.** -/
theorem mem_period (hp : p ≠ .lifetime) (now : Int) :
    periodStart p now ≤ now ∧ now < periodEnd p now := by
  rw [periodStart_eq_grid hp, periodEnd_eq_grid hp]
  exact p.grid_index now

theorem Period.index_mono (p : Period) {now now' : Int} (h : now ≤ now') :
    p.index now ≤ p.index now' := by
  by_contra hlt
  have hnext : p.index now' + 1 ≤ p.index now := by omega
  have := p.grid_mono hnext
  have := (p.grid_index now).1
  have := (p.grid_index now').2
  omega

theorem Period.index_eq {k t : Int} (h : p.grid k ≤ t) (hlt : t < p.grid (k + 1)) :
    p.index t = k := by
  have hbounds := p.grid_index t
  rcases lt_trichotomy (p.index t) k with hless | heq | hmore
  · have := p.grid_mono (show p.index t + 1 ≤ k from hless)
    omega
  · exact heq
  · have := p.grid_mono (show k + 1 ≤ p.index t from hmore)
    omega

/-- **Periods tile the time line.** Every instant is in its period, each instant of the period has
the same bounds, and the end is the start of the period that follows. -/
theorem periods_tile (hp : p ≠ .lifetime) (now : Int) :
    (periodStart p now ≤ now ∧ now < periodEnd p now) ∧
      (∀ t, periodStart p now ≤ t → t < periodEnd p now →
        periodStart p t = periodStart p now ∧ periodEnd p t = periodEnd p now) ∧
      periodStart p (periodEnd p now) = periodEnd p now := by
  refine ⟨mem_period hp now, fun t hstart hend => ?_, ?_⟩
  · rw [periodStart_eq_grid hp] at hstart
    rw [periodEnd_eq_grid hp] at hend
    simp only [periodStart_eq_grid hp, periodEnd_eq_grid hp, Period.index_eq hstart hend, and_self]
  · rw [periodEnd_eq_grid hp, periodStart_eq_grid hp, Period.index_eq le_rfl (p.grid_lt_succ _)]

theorem periods_tile_new_year :
    periodStart .weekly (timeDate 2024 12 31 0) = timeDate 2024 12 30 0 ∧
      periodStart .weekly (timeDate 2025 1 6 0) = timeDate 2025 1 6 0 := by
  have h := periods_tile (p := .weekly) (by decide) (timeDate 2024 12 31 0)
  have hend : periodEnd .weekly (timeDate 2024 12 31 0) = timeDate 2025 1 6 0 := by decide +kernel
  rw [hend] at h
  exact ⟨by decide +kernel, h.2.2⟩

/-- **The start of the period does not go back.** -/
theorem periodStart_mono (hp : p ≠ .lifetime) {now now' : Int} (h : now ≤ now') :
    periodStart p now ≤ periodStart p now' := by
  rw [periodStart_eq_grid hp, periodStart_eq_grid hp]
  exact p.grid_mono (p.index_mono h)

end LlmRouter.Budgets
