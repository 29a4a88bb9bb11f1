import LlmRouter.Gateway.Retry
import Mathlib.Data.Rat.Floor

/-!
# LlmRouter — how long a retry waits

`RetryPolicy.MaxDelay` is the cap on the computed delay. `calcBackoff` cuts the exponential
delay off at the cap and spreads the jitter around what is left, so a draw above one half
takes it beyond the cap again. A `Retry-After` hint is cut off as well, and has no jitter.
-/

namespace LlmRouter.Gateway.RetryPolicy

def capped (p : RetryPolicy) (attempt : Nat) : ℚ :=
  min (p.initialDelay * p.multiplier ^ attempt) p.maxDelay

/-- A policy as it is meant: no negative delay, no shrinking, a fraction as jitter. -/
structure Sound (p : RetryPolicy) : Prop where
  initialDelay : 0 ≤ p.initialDelay
  maxDelay : 0 ≤ p.maxDelay
  multiplier : 1 ≤ p.multiplier
  jitterFactor : 0 ≤ p.jitterFactor ∧ p.jitterFactor ≤ 1

variable {p : RetryPolicy} {attempt : Nat} {draw : ℚ}

theorem iterate_multiplier (m d : ℚ) (n : Nat) : (fun d => d * m)^[n] d = d * m ^ n := by
  induction n with
  | zero => simp
  | succ n ih => rw [Function.iterate_succ_apply', ih, pow_succ, mul_assoc]

theorem tdiv_num_den {x : ℚ} (hx : 0 ≤ x) : Int.tdiv x.num x.den = ⌊x⌋ := by
  rw [Int.tdiv_eq_ediv_of_nonneg (Rat.num_nonneg.mpr hx), Rat.floor_def']

namespace Sound

variable (hp : p.Sound)

include hp

theorem capped_nonneg (attempt : Nat) : 0 ≤ p.capped attempt := by
  have hinitial : (0 : ℚ) ≤ p.initialDelay := by exact_mod_cast hp.initialDelay
  have hmultiplier : 0 ≤ p.multiplier := le_trans zero_le_one hp.multiplier
  exact le_min (by positivity) (by exact_mod_cast hp.maxDelay)

theorem calcBackoff_eq (hdraw : 0 ≤ draw) :
    p.calcBackoff attempt draw =
      ⌊p.capped attempt * (1 + p.jitterFactor * (2 * draw - 1))⌋ := by
  have hcapped := hp.capped_nonneg attempt
  have hfactor : 0 ≤ 1 + p.jitterFactor * (2 * draw - 1) := by
    nlinarith [hp.jitterFactor.1, hp.jitterFactor.2]
  have hvalue := mul_nonneg hcapped hfactor
  -- the loop of the source multiplies, and the cap is applied behind it
  have hcut : (if (p.maxDelay : ℚ) < (fun d => d * p.multiplier)^[attempt] p.initialDelay then
      (p.maxDelay : ℚ) else (fun d => d * p.multiplier)^[attempt] p.initialDelay) =
        p.capped attempt := by
    rw [iterate_multiplier, capped, min_def]
    split_ifs <;> grind
  have hsum : p.capped attempt + p.capped attempt * p.jitterFactor * (2 * draw - 1) =
      p.capped attempt * (1 + p.jitterFactor * (2 * draw - 1)) := by ring
  rw [calcBackoff, hcut, hsum, tdiv_num_den hvalue,
    if_neg (not_lt.mpr (Int.floor_nonneg.mpr hvalue))]

theorem calcBackoff_le_iff (hdraw : 0 ≤ draw) :
    p.calcBackoff attempt draw ≤ p.maxDelay ↔
      p.capped attempt * (1 + p.jitterFactor * (2 * draw - 1)) < p.maxDelay + 1 := by
  rw [hp.calcBackoff_eq hdraw, ← Int.lt_add_one_iff, Int.floor_lt]
  push_cast
  rfl

theorem exists_draw_beyond (hroom : p.maxDelay + 1 < p.capped attempt * (1 + p.jitterFactor)) :
    ∃ draw : ℚ, 0 ≤ draw ∧ draw < 1 ∧
      p.capped attempt * (1 + p.jitterFactor * (2 * draw - 1)) = p.maxDelay + 1 := by
  have hmax : p.capped attempt ≤ p.maxDelay := min_le_right _ _
  have hjitter := mul_nonneg (hp.capped_nonneg attempt) hp.jitterFactor.1
  set excess := p.capped attempt * (1 + p.jitterFactor) - (p.maxDelay + 1) with hexcess
  have hpos : 0 < excess := sub_pos.mpr hroom
  have hless : excess < p.capped attempt * p.jitterFactor := by rw [hexcess]; linarith
  have hsplit : 0 < 2 * (p.capped attempt * p.jitterFactor) := by linarith
  -- the draw 1 gives the whole jitter; this much less takes the excess off
  set less := excess / (2 * (p.capped attempt * p.jitterFactor)) with hless'
  have hlow : 0 < less := div_pos hpos hsplit
  have hhigh : less < 1 := (div_lt_one hsplit).mpr (by linarith)
  have hcancel : 2 * (p.capped attempt * p.jitterFactor) * less = excess :=
    mul_div_cancel₀ excess hsplit.ne'
  exact ⟨1 - less, by linarith, by linarith, by linarith [hexcess, hcancel]⟩

theorem calcBackoff_bounds (hroom : p.capped attempt * (1 + p.jitterFactor) ≤ p.maxDelay + 1)
    (hdraw : 0 ≤ draw) (hlt : draw < 1) :
    0 ≤ p.calcBackoff attempt draw ∧ p.calcBackoff attempt draw ≤ p.maxDelay := by
  have hmax : p.capped attempt ≤ p.maxDelay := min_le_right _ _
  have hjitter := mul_nonneg (hp.capped_nonneg attempt) hp.jitterFactor.1
  refine ⟨?_, (hp.calcBackoff_le_iff hdraw).mpr ?_⟩
  · rw [calcBackoff]
    split_ifs <;> omega
  · rcases hjitter.eq_or_lt with hzero | hpos
    · linarith [congrArg (· * (2 * draw - 1)) hzero]
    · nlinarith

end Sound

/-- **Backoff and its cap.** The delay is never negative, and at most `MaxDelay` for every error and
draw iff the capped delay leaves room for the jitter, but for the nanosecond that truncation takes
off. -/
theorem delay_capped_iff (hp : p.Sound) (attempt : Nat) :
    (∀ err draw, 0 ≤ draw → draw < 1 →
      0 ≤ p.delay attempt err draw ∧ p.delay attempt err draw ≤ p.maxDelay) ↔
    p.capped attempt * (1 + p.jitterFactor) ≤ p.maxDelay + 1 := by
  constructor
  · intro h
    by_contra hroom
    obtain ⟨draw, hdraw, hlt, hlands⟩ := hp.exists_draw_beyond (not_le.mp hroom)
    have hbackoff := (hp.calcBackoff_le_iff hdraw).mp (h none draw hdraw hlt).2
    rw [hlands] at hbackoff
    exact lt_irrefl _ hbackoff
  · intro hroom err draw hdraw hlt
    have hbackoff := hp.calcBackoff_bounds hroom hdraw hlt
    unfold delay
    split
    · -- a hint is cut off at the cap and has no jitter
      split_ifs with hhint hlong
      · exact ⟨hp.maxDelay, le_refl _⟩
      · exact ⟨hhint.le, not_lt.mp hlong⟩
      · exact hbackoff
    · exact hbackoff

theorem sound_default : default.Sound where
  initialDelay := by decide
  maxDelay := by decide
  multiplier := by decide
  jitterFactor := by norm_num [default]

theorem delay_capped_first : default.Sound ∧ ∀ err draw, 0 ≤ draw → draw < 1 →
    0 ≤ default.delay 1 err draw ∧ default.delay 1 err draw ≤ default.maxDelay :=
  ⟨sound_default, (delay_capped_iff sound_default 1).mpr (by norm_num [capped, default])⟩

/-- After six doublings the default policy may wait for 33.75 seconds instead of 30. -/
theorem delay_beyond_cap : default.delay 6 none (3 / 4) = 33750000000 ∧
    default.maxDelay < default.delay 6 none (3 / 4) := by
  have hdelay : default.delay 6 none (3 / 4) = 33750000000 := by decide +kernel
  exact ⟨hdelay, by rw [hdelay]; decide⟩

end LlmRouter.Gateway.RetryPolicy
