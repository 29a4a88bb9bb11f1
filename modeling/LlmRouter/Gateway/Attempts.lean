import LlmRouter.Gateway.Retry

/-!
# LlmRouter — attempts against a context that is cancelled

`retry.Execute` with its waits in time. A `select` that finds both the timer and the end of the
context ready takes either, so a delay that is over does not give way to a context that was
cancelled before.
-/

namespace LlmRouter.Gateway.Retry

open List

/-- What happens around one `Execute`: the results of the calls of `fn`; for each wait the draw of
its jitter, when its timer is started and when the `select` first looks; when the context is
cancelled, and its error. -/
structure Timeline where
  results : Nat → Option GoError
  draw : Nat → ℚ
  started : Nat → Int
  polled : Nat → Int
  cancelled : Option Int
  ctxErr : GoError

namespace Timeline

variable (policy : RetryPolicy) (tl : Timeline) (picks : Nat → Bool)

def due (i : Nat) : Int :=
  tl.started i + policy.delay (i - 1) (tl.results (i - 1)) (tl.draw i)

/-- The `select` before call `i` takes the end of the context; `picks` is its choice where
both channels are ready. -/
def stops (i : Nat) (due : Int) : Bool :=
  match tl.cancelled with
  | none => false
  | some c =>
    -- it goes on at its first look, or blocks until one of both is ready
    let now := max (tl.polled i) (min c due)
    if c ≤ now ∧ due ≤ now then picks i else decide (c ≤ now)

def wait (i : Nat) (delay : Int) : Option GoError :=
  if tl.stops picks i (tl.started i + delay) then some tl.ctxErr else none

def execute : Nat × Option GoError :=
  Retry.execute policy tl.draw (tl.wait picks) (fun i => (i + 1, tl.results i)) 0

def retryable (i : Nat) : Bool := policy.shouldRetry (tl.results i)

def leading : Nat :=
  ((range policy.maxAttempts.toNat).takeWhile (tl.retryable policy)).length

structure AsDocumented (out : Nat × Option GoError) : Prop where
  nil_iff : out.2 = none ↔ 0 < out.1 ∧ tl.results (out.1 - 1) = none
  uncancelled : tl.cancelled = none →
    out.1 = min policy.maxAttempts.toNat (1 + tl.leading policy) ∧
      out.2 = tl.results (out.1 - 1)
  cancelled : ∀ c, tl.cancelled = some c → ∀ i, 0 < i → i < policy.maxAttempts.toNat →
    i ≤ out.1 → tl.retryable policy (i - 1) = true → c < tl.due policy i →
    out = (i, some tl.ctxErr)

/-- The first wait that the context ends is looked at before its delay has elapsed. -/
def InTime : Prop :=
  ∀ c, tl.cancelled = some c → ∀ i, 0 < i → i < policy.maxAttempts.toNat →
    (∀ j < i, tl.retryable policy j = true) →
    (∀ j, 0 < j → j < i → tl.due policy j ≤ c) → c < tl.due policy i →
    tl.polled i < tl.due policy i

/-! ## How the loop ends -/

def Reaches (n : Nat) : Prop :=
  ∀ i < n, tl.retryable policy i = true ∧ (0 < i → tl.stops picks i (tl.due policy i) = false)

inductive Outcome (max : Nat) : Nat × Option GoError → Prop where
  | exhausted (h : tl.Reaches policy picks max) : Outcome max (max, tl.results (max - 1))
  | stopped {k : Nat} (h : tl.Reaches policy picks k) (hpos : 0 < k) (hlt : k < max)
      (hstop : tl.stops picks k (tl.due policy k) = true) : Outcome max (k, some tl.ctxErr)
  | last {k : Nat} (h : tl.Reaches policy picks k) (hlt : k < max)
      (hgo : 0 < k → tl.stops picks k (tl.due policy k) = false)
      (hlast : tl.retryable policy k = false) : Outcome max (k + 1, tl.results k)

variable {policy tl picks}

theorem loop_outcome {left n : Nat} {lastErr : Option GoError} (h : tl.Reaches policy picks n)
    (hlast : 0 < n → lastErr = tl.results (n - 1)) (hpos : 0 < n + left) :
    Outcome policy tl picks (n + left)
      (loop policy tl.draw (tl.wait picks) (fun i => (i + 1, tl.results i)) left n lastErr n) := by
  induction left generalizing n lastErr with
  | zero =>
    rw [loop, hlast hpos]
    exact .exhausted h
  | succ left ih =>
    -- the wait before this call, if it is not the first
    have hwait : (if 0 < n then tl.wait picks n (policy.delay (n - 1) lastErr (tl.draw n))
        else none) =
        if 0 < n ∧ tl.stops picks n (tl.due policy n) then some tl.ctxErr else none := by
      by_cases hn : 0 < n
      · simp only [hn, if_true, true_and, wait, due, hlast hn]
      · simp only [hn, if_false, false_and]
    rw [loop, hwait]
    by_cases hstop : 0 < n ∧ tl.stops picks n (tl.due policy n) = true
    · rw [if_pos hstop]
      exact .stopped h hstop.1 (by omega) hstop.2
    · have hgo : 0 < n → tl.stops picks n (tl.due policy n) = false :=
        fun hn => Bool.eq_false_iff.mpr fun hs => hstop ⟨hn, hs⟩
      rw [if_neg hstop]
      dsimp only
      cases hres : tl.results n with
      | none =>
        have hend : Outcome policy tl picks (n + (left + 1)) (n + 1, tl.results n) :=
          .last h (by omega) hgo (by rw [retryable, hres]; rfl)
        rwa [hres] at hend
      | some err =>
        dsimp only
        cases hretry : policy.shouldRetry (some err) with
        | false =>
          rw [if_neg (by decide), ← hres]
          exact .last h (by omega) hgo (by rw [retryable, hres, hretry])
        | true =>
          have hreach : tl.Reaches policy picks (n + 1) := by
            intro i hi
            rcases Nat.lt_succ_iff_lt_or_eq.mp hi with hi | rfl
            · exact h i hi
            · exact ⟨by rw [retryable, hres, hretry], hgo⟩
          rw [if_pos rfl, ← hres, show n + (left + 1) = n + 1 + left by omega]
          exact ih hreach (fun _ => rfl) (by omega)

theorem execute_outcome (tl : Timeline) (picks : Nat → Bool) (hmax : 1 ≤ policy.maxAttempts) :
    Outcome policy tl picks policy.maxAttempts.toNat (tl.execute policy picks) := by
  have houtcome := @loop_outcome policy tl picks policy.maxAttempts.toNat 0 none nofun nofun
    (by omega)
  rwa [Nat.zero_add] at houtcome

/-! ## The calls -/

theorem leading_of_reaches {k : Nat} (h : tl.Reaches policy picks k)
    (hlt : k < policy.maxAttempts.toNat) (hlast : tl.retryable policy k = false) :
    tl.leading policy = k := by
  obtain ⟨m, hm⟩ : ∃ m, policy.maxAttempts.toNat = k + (m + 1) :=
    ⟨policy.maxAttempts.toNat - k - 1, by omega⟩
  rw [leading, hm, range_add, takeWhile_append_of_pos
    fun i hi => (h i (mem_range.mp hi)).1, range_succ_eq_map, map_cons,
    Nat.add_zero, takeWhile_cons_of_neg (by rw [hlast]; decide)]
  simp

theorem leading_of_exhausted (h : tl.Reaches policy picks policy.maxAttempts.toNat) :
    tl.leading policy = policy.maxAttempts.toNat := by
  have hall : ∀ i ∈ range policy.maxAttempts.toNat, tl.retryable policy i = true :=
    fun i hi => (h i (mem_range.mp hi)).1
  rw [leading, ← append_nil (range _), takeWhile_append_of_pos hall,
    takeWhile_nil, append_nil, length_range]

theorem stops_of_polled {c : Int} (hc : tl.cancelled = some c) {i : Nat} {due : Int}
    (hlt : c < due) (hpolled : tl.polled i < due) : tl.stops picks i due = true := by
  simp only [stops, hc]
  rw [if_neg (by omega)]
  exact decide_eq_true (by omega)

/-- A `select` that prefers the timer goes on if the delay is over when the context is not, or
when it first looks. -/
theorem not_stops_of_late {c : Int} (hc : tl.cancelled = some c) {i : Nat} {due : Int}
    (hlate : due ≤ c ∨ due ≤ tl.polled i) : tl.stops (fun _ => false) i due = false := by
  simp only [stops, hc]
  split_ifs with hboth
  · rfl
  · exact decide_eq_false (by omega)

theorem Reaches.mono {k n : Nat} (h : tl.Reaches policy picks n) (hkn : k ≤ n) :
    tl.Reaches policy picks k := fun i hi => h i (by omega)

theorem InTime.due_le (h : tl.InTime policy) {c : Int} (hc : tl.cancelled = some c) {j : Nat}
    (hj : 0 < j) (hmaxj : j < policy.maxAttempts.toNat) (hreach : tl.Reaches policy picks j)
    (hgo : tl.stops picks j (tl.due policy j) = false) : tl.due policy j ≤ c := by
  -- the waits before it were passed as well
  induction j using Nat.strongRecOn with
  | ind j ih =>
    by_contra hlt
    have hbefore : ∀ i, 0 < i → i < j → tl.due policy i ≤ c := fun i hi hij =>
      ih i hij hi (by omega) (hreach.mono hij.le) ((hreach i hij).2 hi)
    have hpolled := h c hc j hj hmaxj (fun i hi => (hreach i hi).1) hbefore (by omega)
    rw [stops_of_polled hc (by omega) hpolled] at hgo
    cases hgo

theorem InTime.due_le_of_lt (h : tl.InTime policy) {c : Int} (hc : tl.cancelled = some c)
    {i k : Nat} (hreach : tl.Reaches policy picks k) (hi : 0 < i) (hik : i < k)
    (hk : k ≤ policy.maxAttempts.toNat) : tl.due policy i ≤ c :=
  h.due_le hc hi (by omega) (hreach.mono hik.le) ((hreach i hik).2 hi)

theorem asDocumented_of_inTime (hmax : 1 ≤ policy.maxAttempts) (h : tl.InTime policy)
    (picks : Nat → Bool) : tl.AsDocumented policy (tl.execute policy picks) := by
  have hout := execute_outcome tl picks hmax
  generalize tl.execute policy picks = out at hout ⊢
  cases hout with
  | exhausted hreach =>
    refine ⟨⟨fun h => ⟨by omega, h⟩, And.right⟩, fun _ => ⟨?_, rfl⟩, ?_⟩
    · rw [leading_of_exhausted hreach]
      omega
    · intro c hc i hi himax _ _ hlt
      exact absurd (h.due_le_of_lt hc hreach hi himax le_rfl) (not_le.mpr hlt)
  | @stopped k hreach hpos hmaxk hstop =>
    refine ⟨⟨nofun, fun hnil => ?_⟩, fun hnone => ?_, ?_⟩
    · -- the last result was retried, so it was an error
      have hretry := (hreach (k - 1) (by omega)).1
      rw [retryable, hnil.2] at hretry
      cases hretry
    · rw [stops, hnone] at hstop
      cases hstop
    · intro c hc i hi himax hik _ hlt
      rcases Nat.lt_or_eq_of_le hik with hik | rfl
      · exact absurd (h.due_le_of_lt hc hreach hi hik hmaxk.le) (not_le.mpr hlt)
      · rfl
  | @last k hreach hmaxk hgo hlast =>
    refine ⟨⟨fun h => ⟨Nat.succ_pos k, h⟩, And.right⟩, fun _ => ⟨?_, rfl⟩, ?_⟩
    · rw [leading_of_reaches hreach hmaxk hlast]
      omega
    · intro c hc i hi himax hik hretry hlt
      rcases Nat.lt_trichotomy i k with hlt' | rfl | hgt
      · exact absurd (h.due_le_of_lt hc hreach hi hlt' hmaxk.le) (not_le.mpr hlt)
      · exact absurd (h.due_le hc hi hmaxk hreach (hgo hi)) (not_le.mpr hlt)
      · obtain rfl : i = k + 1 := by omega
        rw [Nat.add_sub_cancel, hlast] at hretry
        cases hretry

/-- **Retries.** Whatever `select` takes, `Execute` returns nil iff the last call did, makes the
documented calls, and none once the context is cancelled before the delay has elapsed, if and only
if the `select` looks at the first wait that the context is to end before its delay has elapsed. -/
theorem attempts_iff (tl : Timeline) (hmax : 1 ≤ policy.maxAttempts) :
    (∀ picks, tl.AsDocumented policy (tl.execute policy picks)) ↔ tl.InTime policy := by
  refine ⟨fun h c hc i hi himax hretry hdue hlt => ?_, asDocumented_of_inTime hmax⟩
  by_contra hlate
  -- a `select` that always takes the timer makes call `i`
  have hgo : ∀ j, 0 < j → j ≤ i → tl.stops (fun _ => false) j (tl.due policy j) = false := by
    intro j hj hji
    refine not_stops_of_late hc ?_
    rcases Nat.lt_or_eq_of_le hji with hji | rfl
    · exact .inl (hdue j hj hji)
    · exact .inr (not_lt.mp hlate)
  have hcalled : i < (tl.execute policy fun _ => false).1 := by
    have hout := execute_outcome tl (fun _ => false) hmax
    generalize tl.execute policy (fun _ => false) = out at hout ⊢
    cases hout with
    | exhausted => exact himax
    | @stopped k _ hpos _ hstop =>
      by_contra hik
      rw [hgo k hpos (not_lt.mp hik)] at hstop
      cases hstop
    | @last k _ _ _ hlast =>
      refine Nat.lt_succ_of_le (not_lt.mp fun hki => ?_)
      rw [hretry k hki] at hlast
      cases hlast
  have hend := (h fun _ => false).cancelled c hc i hi himax hcalled.le (hretry _ (by omega)) hlt
  rw [hend] at hcalled
  exact Nat.lt_irrefl i hcalled

def atOnce : RetryPolicy where
  maxAttempts := 2
  initialDelay := 0
  maxDelay := 0
  multiplier := 1
  jitterFactor := 0

/-- The first call fails and the second succeeds; the timer between them is started, and
looked at, 5 ns in. -/
def twoCalls (cancelled : Option Int) : Timeline where
  results i := if i = 0 then some (.gateway ⟨.networkError, "connection reset", 503, 0⟩) else none
  draw _ := 0
  started _ := 5
  polled _ := 5
  cancelled := cancelled
  ctxErr := .canceled

theorem attempts_uncancelled :
    (twoCalls none).AsDocumented atOnce ((twoCalls none).execute atOnce fun _ => true) :=
  (attempts_iff (twoCalls none) (by decide)).mpr (fun _ hc => nomatch hc) _

/-- Cancelled during the first call, the context may still see a second one. -/
theorem called_after_cancel :
    (twoCalls (some 1)).execute atOnce (fun _ => false) = (2, none) ∧
      ¬ ∀ picks, (twoCalls (some 1)).AsDocumented atOnce
        ((twoCalls (some 1)).execute atOnce picks) := by
  have hcalls : (twoCalls (some 1)).execute atOnce (fun _ => false) = (2, none) := by
    decide +kernel
  refine ⟨hcalls, fun h => ?_⟩
  have hend := (h fun _ => false).cancelled 1 rfl 1 (by decide) (by decide)
    (by rw [hcalls]; decide) (by decide) (by decide +kernel)
  rw [hcalls] at hend
  cases hend

end Timeline

end LlmRouter.Gateway.Retry
