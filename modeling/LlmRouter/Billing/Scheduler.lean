import LlmRouter.Billing.Chargeback
import LlmRouter.Budget.Period
import Mathlib.Data.List.Chain

/-!
# LlmRouter — the month of a billing report

`billing.Scheduler` waits for the start of the next month in UTC, and `generate` asks for the
report of the month before, as the clock of the server shows it: west of Greenwich it is still the
old month.
-/

namespace LlmRouter.Billing

open Lib.Calendar Budgets

def nextMonthStart (now : Int) : Int :=
  timeDate (dateOf now).year ((dateOf now).month + 1) 1 0

variable (zone : Int → Int) (now : Int)

/-- The date that a clock shows in a zone, which is given by its offset at each instant, in
seconds east of UTC. -/
def localDate : Date := dateOf (now + zone now * 1000000000)

def previousMonth : Int × Int :=
  let d := localDate zone now
  -- `AddDate(0, -1, 0)` of a first day is the first day of the month before
  (timeDate d.year (d.month - 1) 1 0, timeDate d.year d.month 1 0)

def generate (s : Store) (format : Int → String) (zone : Int → Int) (now : Int) :
    Except String ChargebackReport :=
  let bounds := previousMonth zone now
  s.buildReport bounds.1 bounds.2 format now

def utcMonth (k : Int) : Int := Period.monthly.grid k

def monthOf (now : Int) : Int := Period.monthly.index now

/-- One round of `run` with the clock at `now`: the bounds of the report made when the timer fires. -/
def reported : Int × Int := previousMonth zone (nextMonthStart now)

/-- A range begins where another ends, and they have no instant in common. -/
def Follows (a b : Int × Int) : Prop :=
  a.2 = b.1 ∧ ∀ t, a.1 ≤ t ∧ t < a.2 → ¬ (b.1 ≤ t ∧ t < b.2)

/-- `generate` builds the report of this range when the timer fires. -/
def Reports (range : Int × Int) : Prop :=
  ∀ (s : Store) (format : Int → String), generate s format zone (nextMonthStart now) =
    s.buildReport range.1 range.2 format (nextMonthStart now)

/-- Each report covers the month that ends when the timer fires, and begins where the one before
ends. -/
def Covers (zone : Int → Int) (readings : List Int) : Prop :=
  (∀ now ∈ readings, Reports zone now (utcMonth (monthOf now), nextMonthStart now)) ∧
    readings.IsChain fun now now' => Follows (reported zone now) (reported zone now')

/-- The server's clock shows the month that begins when the timer fires. -/
def ShowsMonth : Prop :=
  0 ≤ zone (nextMonthStart now) ∧ nextMonthStart now + zone (nextMonthStart now) * 1000000000 <
    nextMonthStart (nextMonthStart now)

theorem reports_iff {zone : Int → Int} {now : Int} {range : Int × Int} :
    Reports zone now range ↔ reported zone now = range := by
  refine ⟨fun h => ?_, fun h s format => by rw [← h]; rfl⟩
  -- a store that has the usage of this range only
  let s : Store :=
    { getMarkupConfig := fun _ => (none, none)
      getTeamUsage := fun start stop => if (start, stop) = range then .ok [] else .error ""
      getModelBreakdown := fun _ _ _ => []
      getTagBreakdown := fun _ _ _ => [] }
  by_contra hne
  have hreport := h s fun _ => ""
  simp [generate, s, Store.buildReport, show previousMonth zone (nextMonthStart now) ≠ range from hne,
    bind, Except.bind, pure, Except.pure] at hreport

theorem nextMonthStart_eq (now : Int) : nextMonthStart now = utcMonth (monthOf now + 1) :=
  timeDate_monthStart (dateOf now) 1

theorem previousMonth_eq : previousMonth zone now = (utcMonth ((localDate zone now).monthIndex - 1),
      utcMonth (localDate zone now).monthIndex) := by
  have hend := timeDate_monthStart (localDate zone now) 0
  simp only [add_zero] at hend
  exact Prod.ext (timeDate_monthStart (localDate zone now) (-1)) hend

theorem utcMonth_lt {k k' : Int} (h : k < k') : utcMonth k < utcMonth k' :=
  (Period.monthly.grid_lt_succ k).trans_le (Period.monthly.grid_mono h)

theorem monthOf_eq_iff {k now : Int} :
    monthOf now = k ↔ utcMonth k ≤ now ∧ now < utcMonth (k + 1) :=
  ⟨fun h => h ▸ Period.monthly.grid_index now, fun h => Period.index_eq h.1 h.2⟩

theorem reported_iff :
    reported zone now = (utcMonth (monthOf now), nextMonthStart now) ↔ ShowsMonth zone now := by
  have hafter : nextMonthStart (nextMonthStart now) = utcMonth (monthOf now + 1 + 1) := by
    rw [nextMonthStart_eq, nextMonthStart_eq,
      monthOf_eq_iff.mpr ⟨le_rfl, utcMonth_lt (Int.lt_add_one_iff.mpr le_rfl)⟩]
  -- the month that the clock shows, and the one that begins
  have hshown : (localDate zone (nextMonthStart now)).monthIndex = monthOf now + 1 ↔
      ShowsMonth zone now := by
    have hlocal : monthOf (nextMonthStart now + zone (nextMonthStart now) * 1000000000) =
        monthOf now + 1 ↔ _ := monthOf_eq_iff
    rw [ShowsMonth, hafter]
    refine hlocal.trans (and_congr_left fun _ => ?_)
    rw [← nextMonthStart_eq]
    omega
  rw [← hshown, reported, previousMonth_eq, Prod.mk.injEq]
  constructor
  · rintro ⟨-, hend⟩
    rw [nextMonthStart_eq] at hend ⊢
    rcases lt_trichotomy (localDate zone (utcMonth (monthOf now + 1))).monthIndex
      (monthOf now + 1) with hlt | heq | hgt
    · exact absurd hend (utcMonth_lt hlt).ne
    · exact heq
    · exact absurd hend (utcMonth_lt hgt).ne'
  · intro hmonth
    rw [hmonth, Int.add_sub_cancel, nextMonthStart_eq]
    exact ⟨rfl, rfl⟩

/-- **Monthly reports.** For every zone and all rounds of the loop, one a month, the reports cover
the months that just ended, without gaps and overlaps, iff at each firing the server's clock shows
the month that begins. -/
theorem covers_iff (zone : Int → Int) {readings : List Int}
    (hmonths : readings.IsChain fun now now' => monthOf now' = monthOf now + 1) :
    Covers zone readings ↔ ∀ now ∈ readings, ShowsMonth zone now := by
  rw [Covers, ← forall₂_congr fun now _ => reported_iff zone now]
  simp only [reports_iff]
  refine ⟨And.left, fun h => ⟨h, ?_⟩⟩
  refine List.IsChain.imp_of_mem_imp (fun now now' hmem hmem' hmonth => ?_) hmonths
  rw [h now hmem, h now' hmem', Follows, hmonth, nextMonthStart_eq]
  refine ⟨rfl, fun t ht ht' => ?_⟩
  exact absurd ht.2 (not_lt.mpr ht'.1)

theorem covers_utc : Covers (fun _ => 0) [timeDate 2026 10 15 12, timeDate 2026 11 1 0] := by
  refine (covers_iff _ ?_).mpr ?_
  · exact List.isChain_pair.mpr (by decide +kernel)
  · intro now hnow
    simp only [List.mem_cons, List.not_mem_nil, or_false] at hnow
    rcases hnow with rfl | rfl <;> exact ⟨le_rfl, by decide +kernel⟩

/-- Five hours west, the report made on 1 November covers September. -/
theorem report_a_month_late :
    reported (fun _ => -18000) (timeDate 2026 10 15 12) =
        (timeDate 2026 9 1 0, timeDate 2026 10 1 0) ∧
      ¬ Covers (fun _ => -18000) [timeDate 2026 10 15 12] := by
  have hreport : reported (fun _ => -18000) (timeDate 2026 10 15 12) =
      (timeDate 2026 9 1 0, timeDate 2026 10 1 0) := by decide +kernel
  refine ⟨hreport, fun h => ?_⟩
  have hcovers := reports_iff.mp (h.1 _ List.mem_cons_self)
  rw [hreport] at hcovers
  exact absurd hcovers (by decide +kernel)

end LlmRouter.Billing
