import LlmRouter.Gateway.Provider

/-!
# LlmRouter — retries

`retry.Execute` calls a function until it succeeds, fails for good or has used up its attempts,
and waits between two attempts unless the context is done first. It is generic in the state that
the function acts on. Delays are exact rationals, truncated where the code converts to
`time.Duration`.
-/

namespace LlmRouter.Gateway

/-- `retry.RetryPolicy`. Durations are in nanoseconds. -/
structure RetryPolicy where
  maxAttempts : Int
  initialDelay : Int
  maxDelay : Int
  multiplier : ℚ
  jitterFactor : ℚ

namespace RetryPolicy

def default : RetryPolicy where
  maxAttempts := 3
  initialDelay := 500 * 1000000
  maxDelay := 30 * 1000000000
  multiplier := 2
  jitterFactor := 1 / 4

def shouldRetry (_ : RetryPolicy) (err : Option GoError) : Bool :=
  match err with
  | none => false
  | some err => err.asGateway.any GatewayError.isRetryable

def calcBackoff (p : RetryPolicy) (attempt : Nat) (draw : ℚ) : Int :=
  let delay : ℚ := (fun d => d * p.multiplier)^[attempt] p.initialDelay
  let delay := if (p.maxDelay : ℚ) < delay then (p.maxDelay : ℚ) else delay
  -- symmetric ± jitterFactor
  let jitter := delay * p.jitterFactor * (2 * draw - 1)
  let result := Int.tdiv (delay + jitter).num (delay + jitter).den
  if result < 0 then 0 else result

/-- `Delay`: a `Retry-After` hint wins over the backoff. -/
def delay (p : RetryPolicy) (attempt : Nat) (err : Option GoError) (draw : ℚ) : Int :=
  match err.bind GoError.asGateway with
  | some gwErr =>
    if 0 < gwErr.retryAfter then
      if p.maxDelay < gwErr.retryAfter then p.maxDelay else gwErr.retryAfter
    else p.calcBackoff attempt draw
  | none => p.calcBackoff attempt draw

end RetryPolicy

namespace Retry

variable {σ : Type*} (policy : RetryPolicy) (jitter : σ → ℚ) (ctxDone : σ → Int → Option GoError)
  (fn : σ → σ × Option GoError)

/-- The loop of `Execute`: `left` attempts remain, `attempt` have been made. -/
def loop : (left attempt : Nat) → (lastErr : Option GoError) → σ → σ × Option GoError
  | 0, _, lastErr, s => (s, lastErr)
  | left + 1, attempt, lastErr, s =>
    -- the wait before every attempt but the first
    match if 0 < attempt then ctxDone s (policy.delay (attempt - 1) lastErr (jitter s)) else none with
    | some ctxErr => (s, some ctxErr)
    | none =>
      let r := fn s
      match r.2 with
      | none => (r.1, none)
      | some err =>
        if policy.shouldRetry (some err) then loop left (attempt + 1) (some err) r.1
        else (r.1, some err)

/-- `retry.Execute`. `ctxDone s d` is the context's error if the context is
done before the timer of `d` fires. -/
def execute (s : σ) : σ × Option GoError :=
  loop policy jitter ctxDone fn policy.maxAttempts.toNat 0 none s

variable {policy jitter ctxDone fn} {R : σ → σ → Prop}

theorem loop_rel (hrefl : ∀ s, R s s) (htrans : ∀ {a b c}, R a b → R b c → R a c)
    (hfn : ∀ s, R s (fn s).1) (left attempt : Nat) (lastErr : Option GoError) (s : σ) :
    R s (loop policy jitter ctxDone fn left attempt lastErr s).1 := by
  induction left generalizing attempt lastErr s with
  | zero => exact hrefl s
  | succ left ih =>
    unfold loop
    split
    · exact hrefl s
    · dsimp only
      split
      · exact hfn s
      · split
        · exact htrans (hfn s) (ih _ _ _)
        · exact hfn s

/-- Every reflexive and transitive relation that one call keeps holds from its first result on. -/
theorem execute_first (hrefl : ∀ s, R s s) (htrans : ∀ {a b c}, R a b → R b c → R a c)
    (hfn : ∀ s, R s (fn s).1) (hmax : 0 < policy.maxAttempts) (s : σ) :
    R (fn s).1 (execute policy jitter ctxDone fn s).1 := by
  obtain ⟨left, hleft⟩ : ∃ left, policy.maxAttempts.toNat = left + 1 :=
    ⟨policy.maxAttempts.toNat - 1, by omega⟩
  rw [execute, hleft, loop, if_neg (Nat.lt_irrefl 0)]
  -- the first attempt does not wait
  dsimp only
  split
  · exact hrefl _
  · split
    · exact loop_rel hrefl htrans hfn _ _ _ _
    · exact hrefl _

theorem loop_last (hrefl : ∀ s, R s s) (htrans : ∀ {a b c}, R a b → R b c → R a c)
    (hfn : ∀ s, R s (fn s).1) (hctx : ∀ s d, ctxDone s d = none) (left attempt : Nat)
    (lastErr : Option GoError) (s : σ) :
    ∃ s₀, R s s₀ ∧ loop policy jitter ctxDone fn (left + 1) attempt lastErr s = fn s₀ := by
  induction left generalizing attempt lastErr s with
  | zero =>
    refine ⟨s, hrefl s, ?_⟩
    rw [loop, hctx, ite_self]
    dsimp only
    split
    next hok => rw [← hok]
    next err herr =>
      rw [loop, ite_self, ← herr]
  | succ left ih =>
    rw [loop, hctx, ite_self]
    dsimp only
    split
    next hok => exact ⟨s, hrefl s, by rw [← hok]⟩
    next err herr =>
      split
      · obtain ⟨s₀, hs₀, hlast⟩ := ih (attempt + 1) (some err) (fn s).1
        exact ⟨s₀, htrans (hfn s) hs₀, hlast⟩
      · exact ⟨s, hrefl s, by rw [← herr]⟩

end Retry

end LlmRouter.Gateway
