import LlmRouter.Lib.Pool

/-!
# Tokens of threads

Threads of a `Pool` that take a fresh number each, such as that of a new channel. A thread
takes its token as the next free one, and keeps it or gives it up for good (`FreshTokens`);
so no two threads have the same (`Apart`).
-/

namespace LlmRouter.Lib

variable {σ ρ τ ι : Type*}

/-- The threads of a code take their tokens from a counter that only grows. -/
structure FreshTokens (c : Code σ ρ τ ι) (token : τ → Option Nat) (bound : σ → Nat) : Prop where
  start : ∀ r, token (c.start r) = none
  step : ∀ s x t s' t', c.next s x t = some (s', t') →
    ((token t' = token t ∨ token t' = none) ∧ bound s ≤ bound s') ∨
    (token t = none ∧ token t' = some (bound s) ∧ bound s < bound s')

structure Pool.Apart (token : τ → Option Nat) (bound : σ → Nat) (p : Pool σ τ) : Prop where
  below : ∀ (i : Nat) (t : τ) (k : Nat), p.threads[i]? = some t → token t = some k →
    k < bound p.shared
  unique : ∀ (i j : Nat) (t u : τ) (k : Nat), p.threads[i]? = some t → p.threads[j]? = some u →
    token t = some k → token u = some k → i = j

namespace FreshTokens

variable {c : Code σ ρ τ ι} {token : τ → Option Nat} {bound : σ → Nat}

theorem apart_step (h : FreshTokens c token bound) {p p' : Pool σ τ} {m : Move ρ ι}
    (hp : p.Apart token bound) (hstep : p.step c m = some p') : p'.Apart token bound := by
  have hone : ∀ k, p.AtMostOne (token · = some k) := fun k i j t u => hp.unique i j t u k
  cases m with
  | start r =>
    obtain rfl : _ = p' := Option.some.inj hstep
    -- the new thread has no token
    have hnone : ∀ k, token (c.start r) ≠ some k := fun k hk => by rw [h.start r] at hk; cases hk
    refine ⟨fun i t k hi hk => ?_, fun i j t u k => (hone k).concat (hnone k) i j t u⟩
    rcases getElem?_concat_cases hi with ⟨-, rfl⟩ | hi
    · exact absurd hk (hnone k)
    · exact hp.below i t k hi hk
  | advance i x =>
    obtain ⟨t, s', t', ht, hnext, rfl⟩ := Pool.step_advance hstep
    rcases h.step _ x t s' t' hnext with ⟨hkeep, hle⟩ | ⟨-, htakes, hlt⟩
    · have hback : ∀ k, token t' = some k → token t = some k := by
        intro k hk
        rcases hkeep with hkeep | hdrop
        · rwa [← hkeep]
        · rw [hdrop] at hk
          cases hk
      refine ⟨fun j u k hj hk => ?_,
        fun j l u v k => (hone k).set ht (fun hk => .inl (hback k hk)) j l u v⟩
      refine Nat.lt_of_lt_of_le ?_ hle
      rcases getElem?_set_cases hj with ⟨-, rfl⟩ | ⟨-, hj⟩
      · exact hp.below i t k ht (hback k hk)
      · exact hp.below j u k hj hk
    · -- the new token is above all others
      have hnew : ∀ k, token t' = some k → k = bound p.shared := fun k hk =>
        (Option.some.inj (htakes.symm.trans hk)).symm
      refine ⟨fun j u k hj hk => ?_, fun j l u v k => (hone k).set ht (fun hk => .inr ?_) j l u v⟩
      · show k < bound s'
        rcases getElem?_set_cases hj with ⟨-, rfl⟩ | ⟨-, hj⟩
        · rwa [hnew k hk]
        · exact Nat.lt_trans (hp.below j u k hj hk) hlt
      · rintro ⟨l, w, hl, hw⟩
        exact absurd (hnew k hk ▸ hp.below l w k hl hw) (Nat.lt_irrefl _)

theorem apart_init (token : τ → Option Nat) (bound : σ → Nat) (s : σ) :
    (Pool.init s : Pool σ τ).Apart token bound := by
  have hnone : ∀ (i : Nat) (t : τ), (Pool.init s : Pool σ τ).threads[i]? ≠ some t := nofun
  exact ⟨fun i t _ hi => absurd hi (hnone i t), fun i _ t _ _ hi => absurd hi (hnone i t)⟩

/-- No two threads of a run have the same token. -/
theorem run (h : FreshTokens c token bound) {s : σ} {p : Pool σ τ} {ms : List (Move ρ ι)}
    (hrun : runFrom (Pool.step c) (Pool.init s) ms = some p) : p.Apart token bound :=
  runFrom_preserves (fun _ _ _ hp hstep => h.apart_step hp hstep) (apart_init token bound s) hrun

end FreshTokens

end LlmRouter.Lib
