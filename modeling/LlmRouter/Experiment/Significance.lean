import Mathlib.Analysis.Real.Sqrt
import Mathlib.Tactic.Positivity

/-!
# LlmRouter — the significance of an experiment's metrics

`abtest.Analyze` compares two arms with `tTestImprovement` and `zTestImprovement`. Numbers are
real here, and of `normalTailP` only is used that it decreases. Both tests return the p-value 1 if
the control's value is 0 (`symmetric_iff`).
-/

namespace LlmRouter.Experiments

noncomputable section

/-! ## The tests (internal/abtest/analyzer.go) -/

variable (normalTailP : ℝ → ℝ)

def tTestImprovement (controlMean treatMean : ℝ) (n1 n2 : ℕ) : ℝ × ℝ :=
  if controlMean = 0 then (1, 0)
  else
    let improvementPct := (treatMean - controlMean) / controlMean * 100
    let sd1 := max (controlMean * 0.2) 1e-9
    let sd2 := max (treatMean * 0.2) 1e-9
    let se := √(sd1 * sd1 / n1 + sd2 * sd2 / n2)
    if se = 0 then (1, improvementPct)
    else (normalTailP (|controlMean - treatMean| / se), improvementPct)

def zTestImprovement (p1 p2 : ℝ) (n1 n2 : ℕ) : ℝ × ℝ :=
  if p1 = 0 ∧ p2 = 0 then (1, 0)
  else if p1 = 0 then (1, 0)
  else
    let improvementPct := (p2 - p1) / p1 * 100
    let pPool := (p1 * n1 + p2 * n2) / (n1 + n2 : ℕ)
    if pPool ≤ 0 ∨ 1 ≤ pPool then (1, improvementPct)
    else
      let se := √(pPool * (1 - pPool) * (1 / n1 + 1 / n2))
      if se = 0 then (1, improvementPct)
      else (normalTailP (|p1 - p2| / se), improvementPct)

structure MetricSignificance where
  pValue : ℝ
  significant : Prop
  improvementPct : ℝ

def metricSignificance (confidenceLevel : ℝ) (test : ℝ × ℝ) : MetricSignificance where
  pValue := test.1
  significant := test.1 < 1 - confidenceLevel
  improvementPct := test.2

/-! ## Swapping the arms -/

def SameEvidence (a b : MetricSignificance) : Prop :=
  a.pValue = b.pValue ∧ (a.significant ↔ b.significant)

/-- The evidence on error rates and on means does not depend on which arm is the control. -/
def Symmetric (p1 p2 m1 m2 : ℝ) (n1 n2 : ℕ) : Prop :=
  ∀ normalTailP, StrictAnti normalTailP → ∀ confidenceLevel,
    SameEvidence (metricSignificance confidenceLevel (zTestImprovement normalTailP p1 p2 n1 n2))
        (metricSignificance confidenceLevel (zTestImprovement normalTailP p2 p1 n2 n1)) ∧
      SameEvidence (metricSignificance confidenceLevel (tTestImprovement normalTailP m1 m2 n1 n2))
        (metricSignificance confidenceLevel (tTestImprovement normalTailP m2 m1 n2 n1))

theorem sameEvidence_iff {confidenceLevel : ℝ} {a b : ℝ × ℝ} :
    SameEvidence (metricSignificance confidenceLevel a) (metricSignificance confidenceLevel b) ↔
      a.1 = b.1 :=
  ⟨fun h => h.1, fun h => ⟨h, by simp only [metricSignificance, h]⟩⟩

variable {normalTailP} {p1 p2 m1 m2 : ℝ} {n1 n2 : ℕ}

theorem zTest_comm (h : p1 = 0 ↔ p2 = 0) :
    (zTestImprovement normalTailP p1 p2 n1 n2).1 =
      (zTestImprovement normalTailP p2 p1 n2 n1).1 := by
  by_cases h1 : p1 = 0
  · simp [zTestImprovement, h1, h.mp h1]
  · have h2 : p2 ≠ 0 := fun h2 => h1 (h.mpr h2)
    simp only [zTestImprovement, h1, h2, false_and, if_false]
    rw [add_comm (p2 * _), add_comm n2, abs_sub_comm p2, add_comm (1 / (n2 : ℝ))]
    split_ifs <;> rfl

theorem tTest_comm (h : m1 = 0 ↔ m2 = 0) :
    (tTestImprovement normalTailP m1 m2 n1 n2).1 =
      (tTestImprovement normalTailP m2 m1 n2 n1).1 := by
  by_cases h1 : m1 = 0
  · simp [tTestImprovement, h1, h.mp h1]
  · have h2 : m2 ≠ 0 := fun h2 => h1 (h.mpr h2)
    simp only [tTestImprovement, h1, h2, if_false]
    rw [add_comm (max (m2 * 0.2) 1e-9 * _ / _), abs_sub_comm m2]
    split_ifs <;> rfl

theorem zTest_zero (hp : 0 < p1) (hp' : p1 ≤ 1) (h1 : 0 < n1) (h2 : 0 < n2) :
    ∃ z, 0 < z ∧ ∀ normalTailP, (zTestImprovement normalTailP p1 0 n1 n2).1 = normalTailP z := by
  have hn1 : (0 : ℝ) < n1 := Nat.cast_pos.mpr h1
  have hn2 : (0 : ℝ) < n2 := Nat.cast_pos.mpr h2
  have hpool : 0 < p1 * n1 / (n1 + n2) := by positivity
  have hpool' : p1 * n1 / (n1 + n2) < 1 := by
    rw [div_lt_one (by positivity)]
    nlinarith
  have hse : 0 < √(p1 * n1 / (n1 + n2) * (1 - p1 * n1 / (n1 + n2)) * (1 / n1 + 1 / n2)) := by
    have : 0 < 1 - p1 * n1 / (n1 + n2) := by linarith
    positivity
  refine ⟨|p1 - 0| / _, div_pos (abs_pos.mpr (by simpa using hp.ne')) hse, fun tail => ?_⟩
  simp only [zTestImprovement, hp.ne', false_and, if_false, zero_mul, add_zero, Nat.cast_add,
    hpool.not_ge, hpool'.not_ge, or_self, hse.ne']

theorem tTest_zero (hm : 0 < m1) (h1 : 0 < n1) (h2 : 0 < n2) :
    ∃ z, 0 < z ∧ ∀ normalTailP, (tTestImprovement normalTailP m1 0 n1 n2).1 = normalTailP z := by
  have hn1 : (0 : ℝ) < n1 := Nat.cast_pos.mpr h1
  have hn2 : (0 : ℝ) < n2 := Nat.cast_pos.mpr h2
  have hse : 0 < √(max (m1 * 0.2) 1e-9 * max (m1 * 0.2) 1e-9 / n1 +
      max (0 * 0.2) 1e-9 * max (0 * 0.2) 1e-9 / n2) := by
    have hsd : ∀ x : ℝ, 0 < max x 1e-9 := fun x => lt_max_of_lt_right (by norm_num)
    have := hsd (m1 * 0.2)
    have := hsd (0 * 0.2)
    positivity
  refine ⟨|m1 - 0| / _, div_pos (abs_pos.mpr (by simpa using hm.ne')) hse, fun tail => ?_⟩
  simp only [tTestImprovement, hm.ne', hse.ne', if_false]

theorem one_ne_tail {test : (ℝ → ℝ) → ℝ × ℝ} (h : ∃ z, 0 < z ∧ ∀ tail, (test tail).1 = tail z) :
    ∃ tail, StrictAnti tail ∧ (test tail).1 ≠ 1 := by
  obtain ⟨z, hz, htest⟩ := h
  refine ⟨fun x => -x, fun a b hab => neg_lt_neg hab, ?_⟩
  rw [htest]
  linarith

/-- **The evidence does not depend on which arm is the control** iff neither or both of the error
rates are 0, and neither or both of the means. -/
theorem symmetric_iff (hp1 : 0 ≤ p1 ∧ p1 ≤ 1) (hp2 : 0 ≤ p2 ∧ p2 ≤ 1) (hm1 : 0 ≤ m1)
    (hm2 : 0 ≤ m2) (hn1 : 30 ≤ n1) (hn2 : 30 ≤ n2) :
    Symmetric p1 p2 m1 m2 n1 n2 ↔ (p1 = 0 ↔ p2 = 0) ∧ (m1 = 0 ↔ m2 = 0) := by
  have h1 : 0 < n1 := by omega
  have h2 : 0 < n2 := by omega
  constructor
  · intro h
    have hz : ∀ tail, StrictAnti tail →
        (zTestImprovement tail p1 p2 n1 n2).1 = (zTestImprovement tail p2 p1 n2 n1).1 :=
      fun tail htail => sameEvidence_iff.mp (h tail htail 0).1
    have ht : ∀ tail, StrictAnti tail →
        (tTestImprovement tail m1 m2 n1 n2).1 = (tTestImprovement tail m2 m1 n2 n1).1 :=
      fun tail htail => sameEvidence_iff.mp (h tail htail 0).2
    refine ⟨⟨fun hzero => ?_, fun hzero => ?_⟩, ⟨fun hzero => ?_, fun hzero => ?_⟩⟩ <;>
      subst hzero <;> by_contra hne
    · obtain ⟨tail, htail, hval⟩ := one_ne_tail (zTest_zero (hp2.1.lt_of_ne' hne) hp2.2 h2 h1)
      exact hval ((hz tail htail).symm.trans (by simp [zTestImprovement]))
    · obtain ⟨tail, htail, hval⟩ := one_ne_tail (zTest_zero (hp1.1.lt_of_ne' hne) hp1.2 h1 h2)
      exact hval ((hz tail htail).trans (by simp [zTestImprovement]))
    · obtain ⟨tail, htail, hval⟩ := one_ne_tail (tTest_zero (hm2.lt_of_ne' hne) h2 h1)
      exact hval ((ht tail htail).symm.trans (by simp [tTestImprovement]))
    · obtain ⟨tail, htail, hval⟩ := one_ne_tail (tTest_zero (hm1.lt_of_ne' hne) h1 h2)
      exact hval ((ht tail htail).trans (by simp [tTestImprovement]))
  · rintro ⟨hp, hm⟩ tail htail level
    exact ⟨sameEvidence_iff.mpr (zTest_comm hp), sameEvidence_iff.mpr (tTest_comm hm)⟩

theorem symmetric_nonzero : Symmetric (1 / 10) (2 / 10) 100 120 50 60 :=
  (symmetric_iff (by norm_num) (by norm_num) (by norm_num) (by norm_num) (by norm_num)
    (by norm_num)).mpr (by norm_num)

/-- From no errors to every second request failing: not significant. The way back is. -/
theorem regression_from_zero :
    let tail : ℝ → ℝ := fun z => 1 - z
    let entry (p1 p2 : ℝ) := metricSignificance 0.95 (zTestImprovement tail p1 p2 100 100)
    StrictAnti tail ∧ (entry 0 0.5).pValue = 1 ∧ ¬ (entry 0 0.5).significant ∧
      (entry 0.5 0).significant := by
  intro tail entry
  have hregression : (zTestImprovement tail 0 0.5 100 100).1 = 1 := by simp [zTestImprovement]
  refine ⟨fun a b hab => sub_lt_sub_left hab 1, hregression, ?_, ?_⟩
  · show ¬ (zTestImprovement tail 0 0.5 100 100).1 < _
    rw [hregression]
    norm_num
  · have hse : √(3 / 800 : ℝ) < 1 / 2 := by
      rw [Real.sqrt_lt' (by norm_num)]
      norm_num
    have hpos : 0 < √(3 / 800 : ℝ) := by positivity
    have hz : 1 < (1 / 2) / √(3 / 800 : ℝ) := (one_lt_div hpos).mpr hse
    have hvalue : (zTestImprovement tail 0.5 0 100 100).1 = 1 - 1 / 2 / √(3 / 800 : ℝ) := by
      have hpool : (0.5 * (100 : ℕ) + 0 * (100 : ℕ) : ℝ) / (100 + 100 : ℕ) = 1 / 4 := by norm_num
      simp only [zTestImprovement, hpool]
      norm_num [hpos.ne', tail]
    show (zTestImprovement tail 0.5 0 100 100).1 < _
    rw [hvalue]
    linarith

end

end LlmRouter.Experiments
