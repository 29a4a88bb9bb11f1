import LlmRouter.Lib.Run

/-!
# Threads over a shared state

Calls in flight as a list of threads over one shared state. `Code` says where a call starts and
what its next operation does with an input from outside; a `Pool` takes one operation of one
thread at a time, so its runs are the interleavings of the calls.

`Outline` is the proof rule: an operation keeps an invariant, leads its own thread on and disturbs
no other. Assertions see the number of the thread, so "every call that starts later" is one about
the numbers from some `n` on. `Debt` is the rule for what holds again once every call has
returned.
-/

namespace LlmRouter.Lib

open List

variable {σ ρ τ ι : Type*}

/-- The first point of a call, and the next operation at a point; `none` where the call has
returned. -/
structure Code (σ ρ τ ι : Type*) where
  start : ρ → τ
  next : σ → ι → τ → Option (σ × τ)

/-- A shared state and the calls in flight or returned. -/
structure Pool (σ τ : Type*) where
  shared : σ
  threads : List τ

/-- A call starts, or the `i`-th call does its next operation. -/
inductive Move (ρ ι : Type*) where
  | start (r : ρ)
  | advance (i : Nat) (x : ι)

def Pool.init (s : σ) : Pool σ τ := { shared := s, threads := [] }

def Pool.step (c : Code σ ρ τ ι) (p : Pool σ τ) : Move ρ ι → Option (Pool σ τ)
  | .start r => some { p with threads := p.threads ++ [c.start r] }
  | .advance i x =>
    match p.threads[i]? with
    | none => none
    | some t => (c.next p.shared x t).map fun r => ⟨r.1, p.threads.set i r.2⟩

def started : List (Move ρ ι) → List ρ
  | [] => []
  | .start r :: ms => r :: started ms
  | .advance _ _ :: ms => started ms

theorem started_append (ms ms' : List (Move ρ ι)) :
    started (ms ++ ms') = started ms ++ started ms' := by
  induction ms with
  | nil => rfl
  | cons m ms ih => cases m <;> simp [started, ih]

variable {ms : List (Move ρ ι)} {c : Code σ ρ τ ι} {p p' : Pool σ τ}

theorem mem_started {r : ρ} : r ∈ started ms ↔ .start r ∈ ms := by
  induction ms with
  | nil => simp [started]
  | cons m ms ih => cases m <;> simp [started, ih]

def Pool.Ok (ok : σ → ι → τ → Prop) (p : Pool σ τ) : Move ρ ι → Prop
  | .start _ => True
  | .advance i x => ∀ t, p.threads[i]? = some t → ok p.shared x t

instance (ok : σ → ι → τ → Prop) [∀ s x t, Decidable (ok s x t)] (p : Pool σ τ) :
    ∀ m : Move ρ ι, Decidable (p.Ok ok m)
  | .start _ => isTrue trivial
  | .advance i x =>
    match h : p.threads[i]? with
    | none => isTrue fun _ h' => by rw [h] at h'; cases h'
    | some t => decidable_of_iff (ok p.shared x t)
        ⟨fun hok _ h' => by rw [h] at h'; cases h'; exact hok, fun hall => hall t h⟩

theorem Pool.ok_true (p : Pool σ τ) (m : Move ρ ι) : p.Ok (fun _ _ _ => True) m := by
  cases m with
  | start r => trivial
  | advance i x => exact fun _ _ => trivial

theorem Pool.along_true (c : Code σ ρ τ ι) (p : Pool σ τ) (ms : List (Move ρ ι)) :
    AlongFrom (Pool.step c) (Pool.Ok fun _ _ _ => True) p ms :=
  alongFrom_of_forall Pool.ok_true p ms

/-- An operation changes the shared state and its own thread. -/
theorem Pool.step_advance {i : Nat} {x : ι} (h : p.step c (.advance i x) = some p') :
    ∃ t s' t', p.threads[i]? = some t ∧ c.next p.shared x t = some (s', t') ∧
      p' = ⟨s', p.threads.set i t'⟩ := by
  cases ht : p.threads[i]? with
  | none => simp only [Pool.step, ht] at h; cases h
  | some t =>
    simp only [Pool.step, ht] at h
    obtain ⟨⟨s', t'⟩, hnext, rfl⟩ := Option.map_eq_some_iff.mp h
    exact ⟨t, s', t', rfl, hnext, rfl⟩

theorem Pool.run_shared {I : σ → Prop}
    (hnext : ∀ s x t s' t', I s → c.next s x t = some (s', t') → I s') (hp : I p.shared)
    (hrun : runFrom (Pool.step c) p ms = some p') : I p'.shared := by
  refine runFrom_preserves (P := fun q => I q.shared) (fun q m q' hq h => ?_) hp hrun
  cases m with
  | start r =>
    obtain rfl : _ = q' := Option.some.inj h
    exact hq
  | advance i x =>
    obtain ⟨t, s', t', -, hop, rfl⟩ := Pool.step_advance h
    exact hnext _ x t s' t' hq hop

theorem Pool.run_length (hrun : runFrom (Pool.step c) p ms = some p') :
    p'.threads.length = p.threads.length + (started ms).length := by
  induction ms generalizing p with
  | nil => rw [← Option.some.inj hrun, started, length_nil, Nat.add_zero]
  | cons m ms ih =>
    obtain ⟨q, hq, hrest⟩ := Option.bind_eq_some_iff.mp hrun
    rw [ih hrest]
    cases m with
    | start r =>
      obtain rfl : _ = q := Option.some.inj hq
      simp only [started, length_append, length_cons, length_nil]
      omega
    | advance i x =>
      obtain ⟨t, s', t', -, -, rfl⟩ := Pool.step_advance hq
      simp only [started, length_set]

variable {l : List τ}

theorem getElem?_set_cases {i j : Nat} {a u : τ} (h : (l.set i a)[j]? = some u) :
    (j = i ∧ u = a) ∨ (j ≠ i ∧ l[j]? = some u) := by
  rw [getElem?_set] at h
  split at h
  case isTrue hij =>
    split at h
    · exact .inl ⟨hij.symm, (Option.some.inj h).symm⟩
    · cases h
  case isFalse hij => exact .inr ⟨fun h' => hij h'.symm, h⟩

theorem getElem?_concat_cases {j : Nat} {a u : τ} (h : (l ++ [a])[j]? = some u) :
    (j = l.length ∧ u = a) ∨ l[j]? = some u := by
  rcases Nat.lt_trichotomy j l.length with hlt | heq | hgt
  · rw [List.getElem?_append_left hlt] at h
    exact .inr h
  · rw [heq, getElem?_concat_length] at h
    exact .inl ⟨heq, (Option.some.inj h).symm⟩
  · have hlen : (l ++ [a]).length ≤ j := by
      simp only [length_append, length_singleton]
      omega
    rw [getElem?_eq_none hlen] at h
    cases h

theorem getElem?_concat {j : Nat} {u : τ} (h : l[j]? = some u) (a : τ) :
    (l ++ [a])[j]? = some u := by
  rw [List.getElem?_append_left (List.getElem?_eq_some_iff.mp h).1, h]

theorem countP_set_add {i : Nat} {t : τ} (ht : l[i]? = some t) (t' : τ) (f : τ → Bool) :
    (l.set i t').countP f + (if f t then 1 else 0) = l.countP f + (if f t' then 1 else 0) := by
  obtain ⟨hlt, rfl⟩ := List.getElem?_eq_some_iff.mp ht
  have hmem : (if f l[i] then 1 else 0) ≤ l.countP f := by
    split
    case isTrue h => exact countP_pos_iff.mpr ⟨l[i], getElem_mem hlt, h⟩
    case isFalse => exact Nat.zero_le _
  rw [countP_set hlt]
  omega

/-! ### Some thread -/

def Pool.Some (p : Pool σ τ) (Q : τ → Prop) : Prop :=
  ∃ (i : Nat) (t : τ), p.threads[i]? = some t ∧ Q t

def Pool.Other (p : Pool σ τ) (i : Nat) (Q : τ → Prop) : Prop :=
  ∃ (j : Nat) (t : τ), j ≠ i ∧ p.threads[j]? = some t ∧ Q t

def Pool.AtMostOne (p : Pool σ τ) (Q : τ → Prop) : Prop :=
  ∀ (i j : Nat) (t u : τ), p.threads[i]? = some t → p.threads[j]? = some u → Q t → Q u → i = j

section Some

variable {Q : τ → Prop} {s' : σ} {i : Nat} {t t' : τ}

theorem Pool.some_iff (ht : p.threads[i]? = some t) : p.Some Q ↔ Q t ∨ p.Other i Q := by
  constructor
  · rintro ⟨j, u, hj, hu⟩
    by_cases hji : j = i
    · subst hji
      rw [ht] at hj
      exact .inl (Option.some.inj hj ▸ hu)
    · exact .inr ⟨j, u, hji, hj, hu⟩
  · rintro (hu | ⟨j, u, -, hj, hu⟩)
    · exact ⟨i, t, ht, hu⟩
    · exact ⟨j, u, hj, hu⟩

theorem Pool.some_set_iff (ht : p.threads[i]? = some t) :
    (⟨s', p.threads.set i t'⟩ : Pool σ τ).Some Q ↔ Q t' ∨ p.Other i Q := by
  obtain ⟨hlt, -⟩ := List.getElem?_eq_some_iff.mp ht
  constructor
  · rintro ⟨j, u, hj, hu⟩
    rcases getElem?_set_cases hj with ⟨rfl, rfl⟩ | ⟨hji, hj⟩
    · exact .inl hu
    · exact .inr ⟨j, u, hji, hj, hu⟩
  · rintro (hu | ⟨j, u, hji, hj, hu⟩)
    · exact ⟨i, t', getElem?_set_self hlt, hu⟩
    · exact ⟨j, u, by rw [getElem?_set_ne (Ne.symm hji), hj], hu⟩

theorem Pool.some_concat_iff :
    (⟨p.shared, p.threads ++ [t]⟩ : Pool σ τ).Some Q ↔ Q t ∨ p.Some Q := by
  constructor
  · rintro ⟨j, u, hj, hu⟩
    rcases getElem?_concat_cases hj with ⟨-, rfl⟩ | hj
    · exact .inl hu
    · exact .inr ⟨j, u, hj, hu⟩
  · rintro (hu | ⟨j, u, hj, hu⟩)
    · exact ⟨p.threads.length, t, getElem?_concat_length, hu⟩
    · exact ⟨j, u, getElem?_concat hj t, hu⟩

theorem Pool.AtMostOne.concat (h : p.AtMostOne Q) (ht : ¬ Q t) :
    (⟨p.shared, p.threads ++ [t]⟩ : Pool σ τ).AtMostOne Q := by
  have hold : ∀ (j : Nat) (u : τ), (p.threads ++ [t])[j]? = some u → Q u →
      p.threads[j]? = some u := by
    intro j u hj hu
    rcases getElem?_concat_cases hj with ⟨-, rfl⟩ | hj
    · exact absurd hu ht
    · exact hj
  exact fun j k u v hj hk hu hv => h j k u v (hold j u hj hu) (hold k v hk hv) hu hv

theorem Pool.AtMostOne.set (h : p.AtMostOne Q) (ht : p.threads[i]? = some t)
    (hnew : Q t' → Q t ∨ ¬ p.Some Q) : (⟨s', p.threads.set i t'⟩ : Pool σ τ).AtMostOne Q := by
  have hother : ∀ (j : Nat) (u : τ), Q t' → p.threads[j]? = some u → Q u → i = j := by
    intro j u hQ hj hu
    rcases hnew hQ with hold | hnone
    · exact h i j t u ht hj hold hu
    · exact absurd ⟨j, u, hj, hu⟩ hnone
  intro j k u v hj hk hu hv
  rcases getElem?_set_cases hj with ⟨rfl, rfl⟩ | ⟨-, hj'⟩
  · rcases getElem?_set_cases hk with ⟨rfl, -⟩ | ⟨-, hk'⟩
    · rfl
    · exact hother k v hu hk' hv
  · rcases getElem?_set_cases hk with ⟨rfl, rfl⟩ | ⟨-, hk'⟩
    · exact (hother j u hv hj' hu).symm
    · exact h j k u v hj' hk' hu hv

end Some

/-! ### The proof rule -/

/-- The invariant holds of the shared state and the assertion of every thread;
`n` calls have started at least. -/
structure Pool.Holds (n : Nat) (I : σ → Prop) (T : Nat → σ → τ → Prop) (p : Pool σ τ) : Prop where
  length : n ≤ p.threads.length
  inv : I p.shared
  thread : ∀ i t, p.threads[i]? = some t → T i p.shared t

/-- What holds now, with an assertion that asks something else of the calls to come. -/
theorem Pool.Holds.late {n : Nat} {I I' : σ → Prop} {T T' : Nat → σ → τ → Prop} (hp : p.Holds n I T)
    (hI : I' p.shared) (hearly : ∀ i t, i < p.threads.length → T i p.shared t → T' i p.shared t) :
    p.Holds p.threads.length I' T' where
  length := Nat.le_refl _
  inv := hI
  thread i t hi := hearly i t (List.getElem?_eq_some_iff.mp hi).1 (hp.thread i t hi)

/-- An invariant `I` of the shared state and an assertion `T` about each thread. Every operation
that meets `ok` keeps `I`, leads its own thread from `T` to `T` and leaves `T` of any other alone. -/
structure Outline (c : Code σ ρ τ ι) (ok : σ → ι → τ → Prop) (n : Nat) (I : σ → Prop)
    (T : Nat → σ → τ → Prop) : Prop where
  start : ∀ i s r, n ≤ i → I s → T i s (c.start r)
  inv : ∀ i s x t s' t', I s → T i s t → ok s x t → c.next s x t = some (s', t') → I s'
  self : ∀ i s x t s' t', I s → T i s t → ok s x t → c.next s x t = some (s', t') → T i s' t'
  frame : ∀ i s x t s' t' j u, I s → T i s t → ok s x t → c.next s x t = some (s', t') →
    T j s u → T j s' u

namespace Outline

variable {c : Code σ ρ τ ι} {ok : σ → ι → τ → Prop} {n : Nat} {I : σ → Prop}
  {T : Nat → σ → τ → Prop}

variable {p : Pool σ τ}

theorem step (o : Outline c ok n I T) {p' : Pool σ τ} {m : Move ρ ι} (hp : p.Holds n I T)
    (hok : p.Ok ok m) (h : p.step c m = some p') : p'.Holds n I T := by
  cases m with
  | start r =>
    obtain rfl : _ = p' := Option.some.inj h
    refine ⟨?_, hp.inv, fun i t hi => ?_⟩
    · show n ≤ (p.threads ++ [c.start r]).length
      have := hp.length
      simp only [length_append]
      omega
    · rcases getElem?_concat_cases hi with ⟨rfl, rfl⟩ | hi
      · exact o.start _ _ _ hp.length hp.inv
      · exact hp.thread i t hi
  | advance i x =>
    obtain ⟨t, s', t', ht, hnext, rfl⟩ := Pool.step_advance h
    have hT := hp.thread i t ht
    have hokt := hok t ht
    refine ⟨?_, o.inv i _ x t s' t' hp.inv hT hokt hnext, fun j u hj => ?_⟩
    · show n ≤ (p.threads.set i t').length
      rw [length_set]
      exact hp.length
    · rcases getElem?_set_cases hj with ⟨rfl, rfl⟩ | ⟨-, hj⟩
      · exact o.self _ _ x t s' _ hp.inv hT hokt hnext
      · exact o.frame i _ x t s' t' j u hp.inv hT hokt hnext (hp.thread j u hj)

theorem run (o : Outline c ok n I T) {p' : Pool σ τ} {ms : List (Move ρ ι)} (hp : p.Holds n I T)
    (hok : AlongFrom (Pool.step c) (Pool.Ok ok) p ms) (hrun : runFrom (Pool.step c) p ms = some p') :
    p'.Holds n I T :=
  runFrom_invariant (fun _ _ _ hp hok h => o.step hp hok h) hp hok hrun

/-- The rule for a run from the start: the outline holds of its state and every thread. -/
theorem run_init (o : Outline c ok 0 I T) {s : σ} {ms : List (Move ρ ι)} (hs : I s)
    (hok : AlongFrom (Pool.step c) (Pool.Ok ok) (Pool.init s) ms)
    (hrun : runFrom (Pool.step c) (Pool.init s) ms = some p) : p.Holds 0 I T :=
  o.run ⟨Nat.zero_le _, hs, fun _ _ h => by cases h⟩ hok hrun

end Outline

/-! ### Debts -/

/-- An operation that spoils `paid` leaves its thread in debt, which only an operation that pays
ends. -/
structure Debt (c : Code σ ρ τ ι) (ok : σ → ι → τ → Prop) (paid : σ → Prop) (owes : τ → Prop) :
    Prop where
  step : ∀ s x t s' t', ok s x t → c.next s x t = some (s', t') →
    owes t' ∨ paid s' ∨ (¬ owes t ∧ (paid s → paid s'))

def Pool.Covered (paid : σ → Prop) (owes : τ → Prop) (p : Pool σ τ) : Prop :=
  paid p.shared ∨ ∃ (i : Nat) (t : τ), p.threads[i]? = some t ∧ owes t

namespace Debt

variable {c : Code σ ρ τ ι} {ok : σ → ι → τ → Prop} {paid : σ → Prop} {owes : τ → Prop}

theorem covered_step (d : Debt c ok paid owes) {p p' : Pool σ τ} {m : Move ρ ι}
    (hp : p.Covered paid owes) (hok : p.Ok ok m) (h : p.step c m = some p') :
    p'.Covered paid owes := by
  cases m with
  | start r =>
    obtain rfl : _ = p' := Option.some.inj h
    exact hp.imp_right fun hsome => Pool.some_concat_iff.mpr (.inr hsome)
  | advance i x =>
    obtain ⟨t, s', t', ht, hnext, rfl⟩ := Pool.step_advance h
    rcases d.step _ x t s' t' (hok t ht) hnext with howes | hpaid | ⟨hnot, hkeep⟩
    · exact .inr ((Pool.some_set_iff ht).mpr (.inl howes))
    · exact .inl hpaid
    · -- the debtor is another thread, since this one had no debt
      exact hp.imp hkeep fun hsome => (Pool.some_set_iff ht).mpr
        (.inr (((Pool.some_iff ht).mp hsome).resolve_left hnot))

theorem run (d : Debt c ok paid owes) {q p : Pool σ τ} {ms : List (Move ρ ι)}
    (hq : paid q.shared) (hok : AlongFrom (Pool.step c) (Pool.Ok ok) q ms)
    (hrun : runFrom (Pool.step c) q ms = some p)
    (hnone : ∀ t ∈ p.threads, ¬ owes t) : paid p.shared := by
  have hcovered : p.Covered paid owes :=
    runFrom_invariant (fun _ _ _ hp hok h => d.covered_step hp hok h) (.inl hq) hok hrun
  rcases hcovered with hpaid | ⟨i, t, hi, howes⟩
  · exact hpaid
  · exact absurd howes (hnone t (mem_of_getElem? hi))

end Debt

/-! ### One thread alone -/

/-- The operations of one thread with these inputs, nothing in between. -/
def Code.alone (c : Code σ ρ τ ι) : σ → τ → List ι → Option (σ × τ)
  | s, t, [] => some (s, t)
  | s, t, x :: xs => (c.next s x t).bind fun r => c.alone r.1 r.2 xs

end LlmRouter.Lib
