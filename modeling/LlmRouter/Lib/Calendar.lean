import LlmRouter.Lib.Text

/-!
# The proleptic Gregorian calendar

Dates from day numbers and back, by eras of 400 years that start on the first
of March, so that the leap day ends the year. Day 0 is 1970-01-01.
-/

namespace LlmRouter.Lib.Calendar

structure Date where
  year : Int
  month : Int
  day : Int
  deriving DecidableEq, Repr

def ofDays (days : Int) : Date :=
  let z := days + 719468
  let era := z / 146097
  let doe := z - era * 146097
  let yoe := (doe - doe / 1460 + doe / 36524 - doe / 146096) / 365
  let doy := doe - (365 * yoe + yoe / 4 - yoe / 100)
  let mp := (5 * doy + 2) / 153
  let month := if mp < 10 then mp + 3 else mp - 9
  { year := yoe + era * 400 + (if month ≤ 2 then 1 else 0)
    month := month
    day := doy - (153 * mp + 2) / 5 + 1 }

/-- The day number of a date; a day outside its month counts on from it. -/
def toDays (d : Date) : Int :=
  let y := if d.month ≤ 2 then d.year - 1 else d.year
  let era := y / 400
  let yoe := y - era * 400
  let doy := (153 * (if 2 < d.month then d.month - 3 else d.month + 9) + 2) / 5 + d.day - 1
  let doe := yoe * 365 + yoe / 4 - yoe / 100 + doy
  era * 146097 + doe - 719468

/-! ## Days, years and months -/

structure InEra (doe c q s r : Int) : Prop where
  century : 0 ≤ c ∧ c ≤ 3
  cycle : 0 ≤ q ∧ q ≤ 24
  year : 0 ≤ s ∧ s ≤ 3
  day : 0 ≤ r ∧ r ≤ 365
  leap : r = 365 → s = 3 ∧ (q = 24 → c = 3)
  eq : doe = 36524 * c + 1461 * q + 365 * s + r

variable {doe c q s r : Int}

theorem exists_inEra (h0 : 0 ≤ doe) (h1 : doe < 146097) : ∃ c q s r, InEra doe c q s r := by
  obtain ⟨c, hc⟩ : ∃ c, c = min (doe / 36524) 3 := ⟨_, rfl⟩
  obtain ⟨q, hq⟩ : ∃ q, q = (doe - 36524 * c) / 1461 := ⟨_, rfl⟩
  obtain ⟨s, hs⟩ : ∃ s, s = min ((doe - 36524 * c - 1461 * q) / 365) 3 := ⟨_, rfl⟩
  refine ⟨c, q, s, doe - 36524 * c - 1461 * q - 365 * s, ?_, ?_, ?_, ?_, ?_, ?_⟩ <;> omega

theorem InEra.yearOfEra (h : InEra doe c q s r) :
    (doe - doe / 1460 + doe / 36524 - doe / 146096) / 365 = 100 * c + 4 * q + s := by
  obtain ⟨hc, hq, hs, hr, hleap, hdoe⟩ := h
  have h1 : doe / 1460 = 25 * c + q ∨ doe / 1460 = 25 * c + q + 1 := by omega
  have h2 : doe / 36524 = c ∨ doe / 36524 = c + 1 ∧ c = 3 := by omega
  have h3 : doe / 146096 = 0 ∨ doe / 146096 = 1 ∧ c = 3 := by omega
  rcases h1 with h1 | h1 <;> rcases h2 with h2 | h2 <;> rcases h3 with h3 | h3 <;> omega

theorem InEra.dayOfYear (h : InEra doe c q s r) :
    doe - (365 * (100 * c + 4 * q + s) + (100 * c + 4 * q + s) / 4 -
      (100 * c + 4 * q + s) / 100) = r := by
  obtain ⟨hc, hq, hs, hr, hleap, hdoe⟩ := h
  omega

/-- The first of March of a year, the day on which its leap day counts. -/
def yearStart (y : Int) : Int :=
  let yoe := y - y / 400 * 400
  y / 400 * 146097 + (yoe * 365 + yoe / 4 - yoe / 100) - 719468

theorem yearStart_eq (h : InEra doe c q s r) (era : Int) :
    yearStart (100 * c + 4 * q + s + era * 400) + r = era * 146097 + doe - 719468 := by
  obtain ⟨hc, hq, hs, hr, hleap, hdoe⟩ := h
  have hera : (100 * c + 4 * q + s + era * 400) / 400 = era := by omega
  simp only [yearStart, hera]
  omega

theorem lt_yearStart_succ (h : InEra doe c q s r) (era : Int) :
    era * 146097 + doe - 719468 < yearStart (100 * c + 4 * q + s + era * 400 + 1) := by
  have hstart := yearStart_eq h era
  obtain ⟨hc, hq, hs, hr, hleap, hdoe⟩ := h
  have hera : (100 * c + 4 * q + s + era * 400 + 1) / 400 = era ∨
      (100 * c + 4 * q + s + era * 400 + 1) / 400 = era + 1 ∧ c = 3 ∧ q = 24 ∧ s = 3 := by
    omega
  rcases hera with hera | ⟨hera, rfl, rfl, rfl⟩
  · simp only [yearStart, hera]
    omega
  · simp only [yearStart, hera]
    omega

def marchDate (y mp day : Int) : Date where
  year := y + (if mp < 10 then 0 else 1)
  month := if mp < 10 then mp + 3 else mp - 9
  day := day

theorem toDays_marchDate {y mp : Int} (h : 0 ≤ mp ∧ mp ≤ 11) (day : Int) :
    toDays (marchDate y mp day) = yearStart y + (153 * mp + 2) / 5 + day - 1 := by
  have hyear : (if (marchDate y mp day).month ≤ 2 then (marchDate y mp day).year - 1
      else (marchDate y mp day).year) = y := by
    simp only [marchDate]
    split_ifs <;> omega
  have hmonth : (if 2 < (marchDate y mp day).month then (marchDate y mp day).month - 3
      else (marchDate y mp day).month + 9) = mp := by
    simp only [marchDate]
    split_ifs <;> omega
  have hday : (marchDate y mp day).day = day := rfl
  simp only [toDays, hyear, hmonth, hday, yearStart]
  omega

theorem ofDays_eq (days : Int) : ∃ y mp r : Int, (0 ≤ mp ∧ mp ≤ 11) ∧ mp = (5 * r + 2) / 153 ∧
    0 ≤ r ∧ days = yearStart y + r ∧ days < yearStart (y + 1) ∧
    ofDays days = marchDate y mp (r - (153 * mp + 2) / 5 + 1) := by
  obtain ⟨era, hera⟩ : ∃ era, era = (days + 719468) / 146097 := ⟨_, rfl⟩
  obtain ⟨c, q, s, r, h⟩ := exists_inEra
    (show 0 ≤ days + 719468 - era * 146097 by omega)
    (show days + 719468 - era * 146097 < 146097 by omega)
  have hstart := yearStart_eq h era
  have hnext := lt_yearStart_succ h era
  have hr := h.day
  refine ⟨100 * c + 4 * q + s + era * 400, (5 * r + 2) / 153, r, by omega, rfl, hr.1, by omega,
    by omega, ?_⟩
  simp only [ofDays, ← hera, h.yearOfEra, h.dayOfYear, marchDate, Date.mk.injEq, and_true]
  split_ifs <;> omega

theorem ofDays_month (days : Int) : 1 ≤ (ofDays days).month ∧ (ofDays days).month ≤ 12 := by
  obtain ⟨y, mp, r, hmp, -, -, -, -, heq⟩ := ofDays_eq days
  rw [heq]
  simp only [marchDate]
  split_ifs <;> omega

theorem ofDays_bounds {days : Int} (h : 0 ≤ days) :
    0 ≤ (ofDays days).year ∧ 1 ≤ (ofDays days).day ∧ (ofDays days).day ≤ 31 := by
  obtain ⟨y, mp, r, hmp, hmpr, hr, -, hnext, heq⟩ := ofDays_eq days
  have hy : 0 ≤ y := by
    by_contra hneg
    simp only [yearStart] at hnext
    omega
  rw [heq]
  simp only [marchDate]
  split_ifs <;> omega

theorem toDays_add_day (d : Date) (n : Int) :
    toDays { d with day := d.day + n } = toDays d + n := by
  simp only [toDays]
  omega

/-- The date of a day is that day's. -/
theorem toDays_ofDays (days : Int) : toDays (ofDays days) = days := by
  obtain ⟨y, mp, r, hmp, -, -, hdays, -, heq⟩ := ofDays_eq days
  rw [heq, toDays_marchDate hmp]
  omega

theorem ofDays_inj {a b : Int} (hyear : (ofDays a).year = (ofDays b).year)
    (hmonth : (ofDays a).month = (ofDays b).month) (hday : (ofDays a).day = (ofDays b).day) :
    a = b := by
  rw [← toDays_ofDays a, ← toDays_ofDays b, toDays, toDays, hyear, hmonth, hday]

def monthStart (m : Int) : Int := toDays ⟨m / 12, m % 12 + 1, 1⟩

theorem monthStart_eq {mp : Int} (h : 0 ≤ mp ∧ mp ≤ 11) (y : Int) :
    monthStart (12 * y + mp + 2) = yearStart y + (153 * mp + 2) / 5 := by
  have hdate : marchDate y mp 1 = ⟨(12 * y + mp + 2) / 12, (12 * y + mp + 2) % 12 + 1, 1⟩ := by
    simp only [marchDate, Date.mk.injEq, and_true]
    constructor
    · split_ifs <;> omega
    · split_ifs <;> omega
  rw [monthStart, ← hdate, toDays_marchDate h]
  omega

theorem yearStart_lt_succ (y : Int) : yearStart y + 365 ≤ yearStart (y + 1) := by
  have hera : (y + 1) / 400 = y / 400 ∨
      (y + 1) / 400 = y / 400 + 1 ∧ y - y / 400 * 400 = 399 := by omega
  simp only [yearStart]
  rcases hera with hera | ⟨hera, hy⟩
  · rw [hera]
    omega
  · rw [hera, hy]
    omega

theorem monthStart_lt_succ (m : Int) : monthStart m < monthStart (m + 1) := by
  obtain ⟨y, mp, hmp, rfl⟩ : ∃ y mp : Int, (0 ≤ mp ∧ mp ≤ 11) ∧ m = 12 * y + mp + 2 :=
    ⟨(m - 2) / 12, (m - 2) % 12, by omega, by omega⟩
  rw [monthStart_eq hmp]
  rcases Int.lt_or_le mp 11 with hlt | hge
  · rw [show 12 * y + mp + 2 + 1 = 12 * y + (mp + 1) + 2 by omega, monthStart_eq (by omega)]
    omega
  · have := yearStart_lt_succ y
    rw [show 12 * y + mp + 2 + 1 = 12 * (y + 1) + 0 + 2 by omega, monthStart_eq (by omega)]
    omega

def Date.monthIndex (d : Date) : Int := d.year * 12 + (d.month - 1)

/-- A day lies in the month of its date. -/
theorem ofDays_mem_month (days : Int) :
    monthStart ((ofDays days).monthIndex) ≤ days ∧
      days < monthStart ((ofDays days).monthIndex + 1) := by
  obtain ⟨y, mp, r, hmp, hmpr, hr, hdays, hnext, heq⟩ := ofDays_eq days
  have hindex : (ofDays days).monthIndex = 12 * y + mp + 2 := by
    rw [heq]
    simp only [Date.monthIndex, marchDate]
    split_ifs <;> omega
  rw [hindex, monthStart_eq hmp]
  refine ⟨by omega, ?_⟩
  rcases Int.lt_or_le mp 11 with hlt | hge
  · rw [show 12 * y + mp + 2 + 1 = 12 * y + (mp + 1) + 2 by omega, monthStart_eq (by omega)]
    omega
  · rw [show 12 * y + mp + 2 + 1 = 12 * (y + 1) + 0 + 2 by omega, monthStart_eq (by omega)]
    omega

end LlmRouter.Lib.Calendar
