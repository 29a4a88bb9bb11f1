import LlmRouter.Lib.Pool

/-!
# A mutex among threads

Threads of a `Pool` that share one mutex, which is not reentrant (`MutexUse`). At most one thread
holds it, and it is locked exactly while one does (`Exclusive`). A thread that waits for the mutex
it holds waits forever, and so does every other one (`MutexUse.stuck`).
-/

namespace LlmRouter.Lib

variable {σ ρ τ ι : Type*}

/-- How a code uses a mutex: `locked` is its state, `holds` says who has it, and only some points
`occur`. -/
structure MutexUse (c : Code σ ρ τ ι) (locked : σ → Prop) (holds occur : τ → Prop) : Prop where
  start : ∀ r, ¬ holds (c.start r) ∧ occur (c.start r)
  step : ∀ s x t s' t', occur t → (holds t → locked s) → c.next s x t = some (s', t') →
    occur t' ∧
    ((¬ holds t ∧ ¬ locked s ∧ holds t' ∧ locked s') ∨
      (holds t ∧ ¬ holds t' ∧ ¬ locked s') ∨
      ((holds t' ↔ holds t) ∧ (locked s' ↔ locked s)))

structure Pool.Exclusive (locked : σ → Prop) (holds occur : τ → Prop) (p : Pool σ τ) : Prop where
  occurs : ∀ (i : Nat) (t : τ), p.threads[i]? = some t → occur t
  locked_iff : locked p.shared ↔ ∃ (i : Nat) (t : τ), p.threads[i]? = some t ∧ holds t
  unique : ∀ (i j : Nat) (t u : τ), p.threads[i]? = some t → p.threads[j]? = some u → holds t →
    holds u → i = j

namespace MutexUse

variable {c : Code σ ρ τ ι} {locked : σ → Prop} {holds occur : τ → Prop}

variable {p : Pool σ τ}

theorem exclusive_step (h : MutexUse c locked holds occur) {p' : Pool σ τ} {m : Move ρ ι}
    (hp : p.Exclusive locked holds occur) (hstep : p.step c m = some p') :
    p'.Exclusive locked holds occur := by
  have hone : p.AtMostOne holds := hp.unique
  have hlocked : locked p.shared ↔ p.Some holds := hp.locked_iff
  cases m with
  | start r =>
    obtain rfl : _ = p' := Option.some.inj hstep
    obtain ⟨hnot, hoccur⟩ := h.start r
    -- the new thread holds nothing
    refine ⟨fun i t hi => ?_, ?_, hone.concat hnot⟩
    · rcases getElem?_concat_cases hi with ⟨-, rfl⟩ | hi
      · exact hoccur
      · exact hp.occurs i t hi
    · exact hlocked.trans (Pool.some_concat_iff.trans (or_iff_right hnot)).symm
  | advance i x =>
    obtain ⟨t, s', t', ht, hnext, rfl⟩ := Pool.step_advance hstep
    obtain ⟨hoccur, heffect⟩ := h.step _ x t s' t' (hp.occurs i t ht)
      (fun hold => hlocked.mpr ⟨i, t, ht, hold⟩) hnext
    refine ⟨fun j u hj => ?_, Iff.trans ?_ (Pool.some_set_iff ht).symm, hone.set ht fun hnew => ?_⟩
    · rcases getElem?_set_cases hj with ⟨-, rfl⟩ | ⟨-, hj⟩
      · exact hoccur
      · exact hp.occurs j u hj
    · rcases heffect with ⟨-, -, htakes, htaken⟩ | ⟨hholds, hgives, hfree⟩ | ⟨hsame, hstate⟩
      · exact iff_of_true htaken (.inl htakes)
      · -- its holder gave it back, and nobody else holds it
        refine iff_of_false hfree (not_or.mpr ⟨hgives, ?_⟩)
        rintro ⟨j, u, hji, hj, hu⟩
        exact hji (hone j i u t hj ht hu hholds)
      · exact hstate.trans (hlocked.trans ((Pool.some_iff ht).trans (or_congr_left hsame.symm)))
    · rcases heffect with ⟨-, hfree, -⟩ | ⟨-, hgives, -⟩ | ⟨hsame, -⟩
      · exact .inr fun hsome => hfree (hlocked.mpr hsome)
      · exact absurd hnew hgives
      · exact .inl (hsame.mp hnew)

theorem run (h : MutexUse c locked holds occur) {s : σ} (hs : ¬ locked s) {ms : List (Move ρ ι)}
    (hrun : runFrom (Pool.step c) (Pool.init s) ms = some p) : p.Exclusive locked holds occur := by
  have hinit : (Pool.init s : Pool σ τ).Exclusive locked holds occur := by
    have hnone : ∀ (i : Nat) (t : τ), (Pool.init s : Pool σ τ).threads[i]? ≠ some t := nofun
    refine ⟨fun i t hi => absurd hi (hnone i t), ⟨fun hlocked => absurd hlocked hs, ?_⟩,
      fun i _ t _ hi => absurd hi (hnone i t)⟩
    rintro ⟨i, t, hi, -⟩
    exact absurd hi (hnone i t)
  exact runFrom_preserves (fun _ _ _ hp hstep => h.exclusive_step hp hstep) hinit hrun

/-- **A thread that waits for the mutex it holds waits forever**, and the mutex stays
locked. -/
theorem stuck (h : MutexUse c locked holds occur) {p' : Pool σ τ}
    (hp : p.Exclusive locked holds occur) {i : Nat} {t : τ} (hi : p.threads[i]? = some t)
    (hholds : holds t) (hwaits : ∀ s x, locked s → c.next s x t = none) {ms : List (Move ρ ι)}
    (hrun : runFrom (Pool.step c) p ms = some p') : p'.threads[i]? = some t ∧ locked p'.shared := by
  have hinv : p'.Exclusive locked holds occur ∧ p'.threads[i]? = some t := by
    refine runFrom_preserves (P := fun q => q.Exclusive locked holds occur ∧ q.threads[i]? = some t)
      ?_ ⟨hp, hi⟩ hrun
    rintro q m q' ⟨hq, hqi⟩ hstep
    refine ⟨h.exclusive_step hq hstep, ?_⟩
    cases m with
    | start r =>
      obtain rfl : _ = q' := Option.some.inj hstep
      exact getElem?_concat hqi _
    | advance j x =>
      obtain ⟨u, s', u', hu, hnext, rfl⟩ := Pool.step_advance hstep
      have hne : j ≠ i := by
        rintro rfl
        rw [hqi] at hu
        obtain rfl := Option.some.inj hu
        rw [hwaits _ x (hq.locked_iff.mpr ⟨j, t, hqi, hholds⟩)] at hnext
        cases hnext
      show (q.threads.set j u')[i]? = some t
      rw [List.getElem?_set_ne hne, hqi]
  exact ⟨hinv.2, hinv.1.locked_iff.mpr ⟨i, t, hinv.2, hholds⟩⟩

end MutexUse

end LlmRouter.Lib
