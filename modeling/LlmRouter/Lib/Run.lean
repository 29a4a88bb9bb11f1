import Mathlib.Data.List.Basic

/-!
# Runs and what they preserve

A system is a step function, total or partial, and a run a list of events. An assumption about
every step of a run is `Along`; the invariant rules say that what each such step preserves holds
after the run. `CanReach` is for what some run leads to.

`Grows log P s s'` says that a computation only appended to a log, and only events that satisfy
`P`. A `Cell` holds what is stored, what is active and was built from it, and what the last
installation had listed.
-/

namespace LlmRouter.Lib

open List

variable {σ ε : Type*}

/-- Every event of a run meets `ok` in the state that it finds. -/
def Along (step : σ → ε → σ) (ok : σ → ε → Prop) : σ → List ε → Prop
  | _, [] => True
  | s, e :: es => ok s e ∧ Along step ok (step s e) es

instance decidableAlong (step : σ → ε → σ) (ok : σ → ε → Prop) [∀ s e, Decidable (ok s e)] :
    ∀ s es, Decidable (Along step ok s es)
  | _, [] => isTrue trivial
  | s, e :: es =>
    have := decidableAlong step ok (step s e) es
    inferInstanceAs (Decidable (ok s e ∧ Along step ok (step s e) es))

variable {step : σ → ε → Option σ} {ok : σ → ε → Prop} {s : σ} {es : List ε} {P : σ → Prop}

theorem along_append {step : σ → ε → σ} {es' : List ε} :
    Along step ok s (es ++ es') ↔ Along step ok s es ∧ Along step ok (es.foldl step s) es' := by
  induction es generalizing s with
  | nil => simp [Along]
  | cons e es ih => simp only [cons_append, Along, ih, foldl_cons, and_assoc]

theorem along_of_forall {step : σ → ε → σ} (h : ∀ s e, ok s e) (s : σ) (es : List ε) :
    Along step ok s es := by
  induction es generalizing s with
  | nil => trivial
  | cons e es ih => exact ⟨h s e, ih (step s e)⟩

theorem foldl_invariant {step : σ → ε → σ} (hstep : ∀ s e, P s → ok s e → P (step s e)) (hs : P s)
    (h : Along step ok s es) : P (es.foldl step s) := by
  induction es generalizing s with
  | nil => exact hs
  | cons e es ih => exact ih (hstep s e hs h.1) h.2

/-- What a view shows after a run depends on its own events only, if the others leave it alone. -/
theorem foldl_filter_view {β : Type*} (step : σ → ε → σ) (view : σ → β) (own : ε → Bool) {s' : σ}
    (hother : ∀ e ∈ es, own e = false → ∀ s, view (step s e) = view s)
    (hown : ∀ e ∈ es, own e = true → ∀ s s', view s = view s' → view (step s e) = view (step s' e))
    (hs : view s = view s') : view (es.foldl step s) = view ((es.filter own).foldl step s') := by
  induction es generalizing s s' with
  | nil => exact hs
  | cons e es ih =>
    obtain ⟨hskip, hother⟩ := forall_mem_cons.mp hother
    obtain ⟨hstep, hown⟩ := forall_mem_cons.mp hown
    cases he : own e with
    | false =>
      rw [filter_cons_of_neg (by simp [he])]
      exact ih hother hown ((hskip he s).trans hs)
    | true =>
      rw [filter_cons_of_pos he]
      exact ih hother hown (hstep he s s' hs)

/-- Two conditions on a run agree if they do at every state of an invariant that one of them
preserves. -/
theorem along_iff {step : σ → ε → σ} {pre ok' : σ → ε → Prop}
    (hiff : ∀ s e, P s → pre s e → (ok s e ↔ ok' s e))
    (hstep : ∀ s e, P s → pre s e → ok' s e → P (step s e)) (hs : P s) (hpre : Along step pre s es) :
    Along step ok s es ↔ Along step ok' s es := by
  induction es generalizing s with
  | nil => exact Iff.rfl
  | cons e es ih =>
    have hhead := hiff s e hs hpre.1
    constructor
    · rintro ⟨hok, hrest⟩
      have hok' := hhead.mp hok
      exact ⟨hok', (ih (hstep s e hs hpre.1 hok') hpre.2).mp hrest⟩
    · rintro ⟨hok', hrest⟩
      exact ⟨hhead.mpr hok', (ih (hstep s e hs hpre.1 hok') hpre.2).mpr hrest⟩

/-- A run of a partial step function; it fails where a step is not enabled. -/
def runFrom (step : σ → ε → Option σ) : σ → List ε → Option σ
  | s, [] => some s
  | s, e :: es => (step s e).bind fun s' => runFrom step s' es

theorem runFrom_append {es' : List ε} :
    runFrom step s (es ++ es') = (runFrom step s es).bind fun s' => runFrom step s' es' := by
  induction es generalizing s with
  | nil => rfl
  | cons e es ih => simp only [cons_append, runFrom, ih, Option.bind_assoc]

/-- Every event of a run meets `ok` in the state that it finds. -/
def AlongFrom (step : σ → ε → Option σ) (ok : σ → ε → Prop) : σ → List ε → Prop
  | _, [] => True
  | s, e :: es => ok s e ∧ ∀ s', step s e = some s' → AlongFrom step ok s' es

instance decidableAlongFrom (step : σ → ε → Option σ) (ok : σ → ε → Prop)
    [∀ s e, Decidable (ok s e)] : ∀ s es, Decidable (AlongFrom step ok s es)
  | _, [] => isTrue trivial
  | s, e :: es =>
    match h : step s e with
    | none => decidable_of_iff (ok s e)
        ⟨fun hok => ⟨hok, fun _ h' => by rw [h] at h'; cases h'⟩, fun hall => hall.1⟩
    | some s₁ =>
      have := decidableAlongFrom step ok s₁ es
      decidable_of_iff (ok s e ∧ AlongFrom step ok s₁ es)
        ⟨fun hall => ⟨hall.1, fun _ h' => by rw [h] at h'; cases h'; exact hall.2⟩,
          fun hall => ⟨hall.1, hall.2 s₁ h⟩⟩

theorem alongFrom_of_forall (h : ∀ s e, ok s e) (s : σ) (es : List ε) : AlongFrom step ok s es := by
  induction es generalizing s with
  | nil => trivial
  | cons e es ih => exact ⟨h s e, fun s' _ => ih s'⟩

theorem alongFrom_of_mem {ok : ε → Prop} (h : ∀ e ∈ es, ok e) (s : σ) :
    AlongFrom step (fun _ e => ok e) s es := by
  induction es generalizing s with
  | nil => trivial
  | cons e es ih =>
    exact ⟨h e mem_cons_self, fun s' _ => ih (fun e' he => h e' (mem_cons_of_mem e he)) s'⟩

/-- A run whose events all meet `ok`, or one with a last event that does not. -/
theorem alongFrom_or_last (step : σ → ε → Option σ) (ok : σ → ε → Prop) (s : σ) (es : List ε) :
    AlongFrom step ok s es ∨
      ∃ before e after q, es = before ++ e :: after ∧ runFrom step s before = some q ∧ ¬ ok q e ∧
        ∀ q', step q e = some q' → AlongFrom step ok q' after := by
  induction es generalizing s with
  | nil => exact .inl trivial
  | cons e es ih =>
    by_cases hlater : ∀ s', step s e = some s' → AlongFrom step ok s' es
    · by_cases hok : ok s e
      · exact .inl ⟨hok, hlater⟩
      · exact .inr ⟨[], e, es, s, rfl, rfl, hok, hlater⟩
    · obtain ⟨s', hlater⟩ := not_forall.mp hlater
      obtain ⟨hs', hnot⟩ := Classical.not_imp.mp hlater
      obtain ⟨before, e', after, q, rfl, hq, hlast⟩ := (ih s').resolve_left hnot
      exact .inr ⟨e :: before, e', after, q, rfl, by rw [runFrom, hs', Option.bind_some, hq], hlast⟩

theorem alongFrom_append {es' : List ε} {q : σ} (h : AlongFrom step ok s (es ++ es'))
    (hq : runFrom step s es = some q) : AlongFrom step ok q es' := by
  induction es generalizing s with
  | nil =>
    cases hq
    exact h
  | cons e es ih =>
    obtain ⟨s', hs', hq⟩ := Option.bind_eq_some_iff.mp hq
    exact ih (h.2 s' hs') hq

theorem alongFrom_and {ok' : σ → ε → Prop} (h : AlongFrom step ok s es)
    (h' : AlongFrom step ok' s es) : AlongFrom step (fun s e => ok s e ∧ ok' s e) s es := by
  induction es generalizing s with
  | nil => trivial
  | cons e es ih => exact ⟨⟨h.1, h'.1⟩, fun s' hs' => ih (h.2 s' hs') (h'.2 s' hs')⟩

theorem alongFrom_iff {ok' : σ → ε → Prop} (hiff : ∀ s e, P s → (ok s e ↔ ok' s e))
    (hstep : ∀ s e s', P s → ok' s e → step s e = some s' → P s') (hs : P s) (es : List ε) :
    AlongFrom step ok s es ↔ AlongFrom step ok' s es := by
  induction es generalizing s with
  | nil => exact Iff.rfl
  | cons e es ih =>
    have hhead := hiff s e hs
    constructor
    · rintro ⟨hok, hrest⟩
      have hok' := hhead.mp hok
      exact ⟨hok', fun s' h => (ih (hstep s e s' hs hok' h)).mp (hrest s' h)⟩
    · rintro ⟨hok', hrest⟩
      exact ⟨hhead.mpr hok', fun s' h => (ih (hstep s e s' hs hok' h)).mpr (hrest s' h)⟩

/-- What every allowed step preserves holds after an allowed run. -/
theorem runFrom_invariant (hstep : ∀ s e s', P s → ok s e → step s e = some s' → P s') {s' : σ}
    (hs : P s) (h : AlongFrom step ok s es) (hrun : runFrom step s es = some s') : P s' := by
  induction es generalizing s with
  | nil => exact Option.some.inj hrun ▸ hs
  | cons e es ih =>
    obtain ⟨s₁, hs₁, hrest⟩ := Option.bind_eq_some_iff.mp hrun
    exact ih (hstep s e s₁ hs h.1 hs₁) (h.2 s₁ hs₁) hrest

theorem runFrom_preserves (hstep : ∀ s e s', P s → step s e = some s' → P s') {s' : σ} (hs : P s)
    (hrun : runFrom step s es = some s') : P s' := by
  have hall : AlongFrom step (fun _ _ => True) s es := alongFrom_of_forall (fun _ _ => trivial) s es
  exact runFrom_invariant (fun s e s' hs _ h => hstep s e s' hs h) hs hall hrun

def CanReach (step : σ → ε → Option σ) (s s' : σ) : Prop := ∃ es, runFrom step s es = some s'

namespace CanReach

variable {step : σ → ε → Option σ} {s s' s'' : σ} {e : ε}

theorem refl (step : σ → ε → Option σ) (s : σ) : CanReach step s s := ⟨[], rfl⟩

theorem trans (h : CanReach step s s') (h' : CanReach step s' s'') : CanReach step s s'' := by
  obtain ⟨es, hrun⟩ := h
  obtain ⟨es', hrun'⟩ := h'
  exact ⟨es ++ es', by rw [runFrom_append, hrun]; exact hrun'⟩

theorem head (h : step s e = some s') (h' : CanReach step s' s'') : CanReach step s s'' := by
  obtain ⟨es, hrun⟩ := h'
  exact ⟨e :: es, by rw [runFrom, h]; exact hrun⟩

theorem of_step (h : step s e = some s') : CanReach step s s' := head h (refl step s')

/-- What is reached in the end: as long as it is not, some step keeps the invariant and lowers the
rank. -/
theorem of_progress {β : Type*} [WellFoundedRelation β] (rank : σ → β) {P goal : σ → Prop}
    (hprogress : ∀ s, P s →
      goal s ∨ ∃ e s', step s e = some s' ∧ P s' ∧ WellFoundedRelation.rel (rank s') (rank s))
    (hs : P s) : ∃ s', CanReach step s s' ∧ goal s' := by
  -- by induction on the rank
  induction s using (invImage rank inferInstance).wf.induction with
  | h s ih =>
    rcases hprogress s hs with hgoal | ⟨e, s₁, hstep, hs₁, hless⟩
    · exact ⟨s, refl step s, hgoal⟩
    · obtain ⟨s', hreach, hgoal⟩ := ih s₁ hless hs₁
      exact ⟨s', head hstep hreach, hgoal⟩

end CanReach

/-! ### Append-only logs -/

section Grows

variable {σ ε : Type*} {log : σ → List ε} {P Q : ε → Prop} {s s' s'' : σ}

/-- Only events that satisfy `P` were appended. -/
def Grows (log : σ → List ε) (P : ε → Prop) (s s' : σ) : Prop :=
  ∃ new, log s' = log s ++ new ∧ ∀ e ∈ new, P e

theorem Grows.of_eq (h : log s' = log s) : Grows log P s s' :=
  ⟨[], by rw [h, append_nil], by simp⟩

theorem Grows.one {e : ε} (h : log s' = log s ++ [e]) (he : P e) : Grows log P s s' := by
  refine ⟨[e], h, fun e' he' => ?_⟩
  rw [mem_singleton.mp he']
  exact he

/-- What two stretches of a run log is logged by both. -/
theorem Grows.trans (h : Grows log P s s') (h' : Grows log P s' s'') : Grows log P s s'' := by
  obtain ⟨new, hlog, hnew⟩ := h
  obtain ⟨new', hlog', hnew'⟩ := h'
  refine ⟨new ++ new', by rw [hlog', hlog, append_assoc], fun e he => ?_⟩
  rcases mem_append.mp he with he | he
  · exact hnew e he
  · exact hnew' e he

theorem Grows.mono (h : Grows log P s s') (hPQ : ∀ e, P e → Q e) : Grows log Q s s' := by
  obtain ⟨new, hlog, hnew⟩ := h
  exact ⟨new, hlog, fun e he => hPQ e (hnew e he)⟩

theorem Grows.mem (h : Grows log P s s') {e : ε} (he : e ∈ log s') : e ∈ log s ∨ P e := by
  obtain ⟨new, hlog, hnew⟩ := h
  rw [hlog] at he
  exact (mem_append.mp he).imp_right (hnew e)

theorem Grows.length_le (h : Grows log P s s') : (log s).length ≤ (log s').length := by
  obtain ⟨new, hlog, -⟩ := h
  rw [hlog, length_append]
  exact Nat.le_add_right _ _

end Grows

/-! ### Checks that may fail -/

section Checks

universe u v

variable {ε ε' : Type u} {α β : Type v} {x : Except ε α}

theorem bind_eq_ok {f : α → Except ε β} {b : β} :
    (x >>= f) = .ok b ↔ ∃ a, x = .ok a ∧ f a = .ok b := by
  cases x with
  | error e | ok a => simp [bind, Except.bind]

theorem map_eq_ok {f : α → β} {b : β} : x.map f = .ok b ↔ ∃ a, x = .ok a ∧ f a = b := by
  cases x <;> simp [Except.map]

theorem mapError_eq_ok {f : ε → ε'} {a : α} : x.mapError f = .ok a ↔ x = .ok a := by
  cases x with
  | error e => exact ⟨nofun, nofun⟩
  | ok a' =>
    constructor
    · rintro ⟨⟩
      rfl
    · rintro ⟨⟩
      rfl

theorem throw_ne_ok {e : ε} {a : α} : (throw e : Except ε α) ≠ .ok a := by
  rintro ⟨⟩

theorem pure_eq_ok {a b : α} : (pure a : Except ε α) = .ok b ↔ a = b :=
  Except.ok.injEq a b ▸ Iff.rfl

end Checks

/-! ### A store and what is built from it -/

section Cell

variable {σ δ : Type*}

structure Cell (σ δ : Type*) where
  stored : σ
  active : δ
  listed : σ

namespace Cell

variable {build : σ → Option δ} {c : Cell σ δ}

def write (c : Cell σ δ) (x : σ) : Cell σ δ := { c with stored := x }

def install (build : σ → Option δ) (c : Cell σ δ) (x : σ) : Cell σ δ :=
  match build x with
  | some d => { c with active := d, listed := x }
  | none => c

def Built (build : σ → Option δ) (c : Cell σ δ) : Prop := build c.listed = some c.active

def Current (build : σ → Option δ) (c : Cell σ δ) : Prop := build c.stored = some c.active

def Unchanged (build : σ → Option δ) (c : Cell σ δ) : Prop := build c.stored = build c.listed

theorem Built.current_iff (h : c.Built build) : c.Current build ↔ c.Unchanged build := by
  rw [Current, Unchanged, h]

theorem Built.write (h : c.Built build) (x : σ) : (c.write x).Built build := h

theorem Built.install (h : c.Built build) (x : σ) : (c.install build x).Built build := by
  unfold Cell.install
  split
  · assumption
  · exact h

theorem unchanged_install_iff {x : σ} (hbuild : (build x).isSome) :
    (c.install build x).Unchanged build ↔ build c.stored = build x := by
  obtain ⟨d, hd⟩ := Option.isSome_iff_exists.mp hbuild
  simp [Unchanged, Cell.install, hd]

end Cell

end Cell

end LlmRouter.Lib
