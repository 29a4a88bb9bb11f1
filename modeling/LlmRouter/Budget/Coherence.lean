import LlmRouter.Budget.Manager
import LlmRouter.Lib.Run

/-!
# LlmRouter — concurrent budget operations

`CheckBudget` and `RecordSpend` calls as threads of single store, Redis and list-cache operations,
while time passes and counters expire (`Sys.step`). Redis and the row may differ while a
`RecordSpend` stands between its two writes, so the invariant is about the row plus what is still
owed to it (`Coherent`).
-/

namespace LlmRouter.Budgets

open Lib Lib.Redis

/-! ## Threads -/

/-- Where a call stands: the operation that it does next. -/
inductive Thread where
  | checkList (e : Entity)
  | checkGet (b : Budget) (limit : ℚ) (rest : List Budget)
  | checkSet (b : Budget) (limit : ℚ) (rest : List Budget)
  | recordList (e : Entity) (costUSD : ℚ)
  | recordIncr (e : Entity) (p : Period) (rest : List Budget) (costUSD : ℚ)
  | recordAdd (e : Entity) (p : Period) (rest : List Budget) (costUSD : ℚ)

def checkFrom : List Budget → Option Thread
  | [] => none
  | b :: rest =>
    match b.hardLimitUSD with
    | none => checkFrom rest
    | some limit => some (.checkGet b limit rest)

def recordFrom (e : Entity) (costUSD : ℚ) : List Budget → Option Thread
  | [] => none
  | b :: rest => some (.recordIncr e b.period rest costUSD)

/-- The next operation of a call, and where the call stands then; `none` when
it has returned. -/
def Thread.step (w : World) (now : Int) : Thread → World × Option Thread
  | .checkList e => ((w.cachedList e now).1, checkFrom (w.cachedList e now).2)
  | .checkGet b limit rest =>
    match w.getSpend b.entity b.period now with
    | some spend => (w, if limit ≤ spend then none else checkFrom rest)
    | none => (w, some (.checkSet b limit rest))
  | .checkSet b limit rest =>
    (w.setSpend b.entity b.period b.currentSpend now,
      if limit ≤ b.currentSpend then none else checkFrom rest)
  | .recordList e costUSD =>
    ((w.cachedList e now).1, recordFrom e costUSD (w.cachedList e now).2)
  | .recordIncr e p rest costUSD => (w.incrSpend e p costUSD now, some (.recordAdd e p rest costUSD))
  | .recordAdd e p rest costUSD => (w.addSpend e p costUSD, recordFrom e costUSD rest)

def runAlone (now : Int) : Nat → World → Option Thread → World × Option Thread
  | 0, w, t => (w, t)
  | _, w, none => (w, none)
  | n + 1, w, some t => runAlone now n (t.step w now).1 (t.step w now).2

theorem recordFrom_alone (now : Int) (e : Entity) (c : ℚ) (bs : List Budget) (w : World) :
    ∃ n, runAlone now n w (recordFrom e c bs) = (w.recordLoop e c now bs, none) := by
  induction bs generalizing w with
  | nil => exact ⟨0, rfl⟩
  | cons b rest ih =>
    obtain ⟨n, hn⟩ := ih ((w.incrSpend e b.period c now).addSpend e b.period c)
    exact ⟨n + 2, hn⟩

/-- Without others in between, the operations make up `RecordSpend`. -/
theorem record_alone (now : Int) (e : Entity) {c : ℚ} (hc : c ≠ 0) (w : World) :
    ∃ n, runAlone now n w (some (.recordList e c)) = (w.recordSpend e c now, none) := by
  obtain ⟨n, hn⟩ := recordFrom_alone now e c (w.cachedList e now).2 (w.cachedList e now).1
  refine ⟨n + 1, ?_⟩
  rw [runAlone, World.recordSpend, if_neg hc]
  exact hn

theorem checkGet_alone {now : Int} {w w' : World} {b : Budget} {spend : ℚ}
    (h : w.currentSpend b now = (w', spend)) (limit : ℚ) (rest : List Budget) :
    ∃ k, ∀ n, runAlone now (n + k) w (some (.checkGet b limit rest)) =
      runAlone now n w' (if limit ≤ spend then none else checkFrom rest) := by
  unfold World.currentSpend at h
  cases hget : w.getSpend b.entity b.period now with
  | some u =>
    rw [hget] at h
    cases h
    exact ⟨1, fun n => by simp [runAlone, Thread.step, hget]⟩
  | none =>
    rw [hget] at h
    cases h
    exact ⟨2, fun n => by simp [runAlone, Thread.step, hget]⟩

theorem checkFrom_alone (now : Int) (bs : List Budget) (w : World) :
    ∃ n, runAlone now n w (checkFrom bs) = ((w.checkLoop now bs).1, none) := by
  fun_induction World.checkLoop w now bs with
  | case1 => exact ⟨0, rfl⟩
  | case2 w b rest hlimit ih =>
    rw [checkFrom, hlimit]
    exact ih
  | case3 w b rest limit hlimit w' spend hread hle =>
    obtain ⟨k, hk⟩ := checkGet_alone hread limit rest
    refine ⟨0 + k, ?_⟩
    rw [checkFrom, hlimit, hk, if_pos hle]
    rfl
  | case4 w b rest limit hlimit w' spend hread hlt w'' r hrest ih =>
    obtain ⟨k, hk⟩ := checkGet_alone hread limit rest
    obtain ⟨n, hn⟩ := ih
    refine ⟨n + k, ?_⟩
    rw [checkFrom, hlimit, hk, if_neg hlt, hn, hrest]

theorem check_alone (now : Int) (e : Entity) (w : World) :
    ∃ n, runAlone now n w (some (.checkList e)) = ((w.checkBudget e now).1, none) := by
  obtain ⟨n, hn⟩ := checkFrom_alone now (w.cachedList e now).2 (w.cachedList e now).1
  exact ⟨n + 1, hn⟩

/-! ## The system -/

/-- The world, the clock and the calls in flight (`none`: returned), with the total charged so far. -/
structure Sys where
  world : World
  clock : Int
  threads : List (Option Thread)
  recorded : Entity → Period → ℚ

/-- Time passes, a call starts, or the `i`-th call does its next operation. -/
inductive Act where
  | wait (now : Int)
  | check (e : Entity)
  | record (e : Entity) (costUSD : ℚ)
  | move (i : Nat)

def Thread.charges (e : Entity) (p : Period) : Thread → ℚ
  | .recordIncr e' p' _ c => if e = e' ∧ p = p' then c else 0
  | _ => 0

/-- What a thread has charged to a counter and still owes to the row. -/
def owes (e : Entity) (p : Period) : Option Thread → ℚ
  | some (.recordAdd e' p' _ c) => if e = e' ∧ p = p' then c else 0
  | _ => 0

def Sys.step (s : Sys) : Act → Option Sys
  | .wait now => if s.clock ≤ now then some { s with clock := now } else none
  | .check e => some { s with threads := s.threads ++ [some (.checkList e)] }
  | .record e c =>
    some (if c = 0 then s else { s with threads := s.threads ++ [some (.recordList e c)] })
  | .move i =>
    match s.threads[i]? with
    | some (some t) =>
      some { s with
        world := (t.step s.world s.clock).1
        threads := s.threads.set i (t.step s.world s.clock).2
        recorded := fun e p => s.recorded e p + t.charges e p }
    | _ => none

def Sys.Quiescent (s : Sys) : Prop := ∀ t ∈ s.threads, t = none

/-- What the calls in flight still owe to a row. -/
def Sys.owed (s : Sys) (e : Entity) (p : Period) : ℚ := (s.threads.map (owes e p)).sum

/-- A cost has at most eight decimal places, an `IncrSpend` finds its counter or nothing it should
have found, and a seed is the row's spend with what is owed to it. -/
def StepOk (s : Sys) : Act → Prop
  | .record _ c => Scaled c
  | .move i =>
    match s.threads[i]? with
    | some (some (.recordIncr e p _ _)) =>
      (s.world.getSpend e p s.clock).isSome ∨ s.world.spent e p + s.owed e p = 0
    | some (some (.checkSet b _ _)) =>
      b.currentSpend = s.world.spent b.entity b.period + s.owed b.entity b.period
    | _ => True
  | _ => True

/-! ## What one operation does -/

def Exact : Option Thread → Prop
  | some (.recordList _ c) => Scaled c
  | some (.recordIncr _ _ _ c) => Scaled c
  | some (.recordAdd _ _ _ c) => Scaled c
  | _ => True

def World.RowsScaled (w : World) : Prop :=
  ∀ e p r, w.rows e p = some r → Scaled r.currentSpend

theorem checkFrom_shape (bs : List Budget) :
    checkFrom bs = none ∨ ∃ b l rest, checkFrom bs = some (.checkGet b l rest) := by
  induction bs with
  | nil => exact .inl rfl
  | cons b rest ih =>
    unfold checkFrom
    cases b.hardLimitUSD with
    | none => exact ih
    | some l => exact .inr ⟨b, l, rest, rfl⟩

@[simp] theorem owes_checkFrom (e : Entity) (p : Period) (bs : List Budget) :
    owes e p (checkFrom bs) = 0 := by
  rcases checkFrom_shape bs with h | ⟨b, l, rest, h⟩ <;> rw [h] <;> rfl

theorem exact_checkFrom (bs : List Budget) : Exact (checkFrom bs) := by
  rcases checkFrom_shape bs with h | ⟨b, l, rest, h⟩ <;> rw [h] <;> trivial

@[simp] theorem owes_recordFrom (e e' : Entity) (p : Period) (c : ℚ) (bs : List Budget) :
    owes e p (recordFrom e' c bs) = 0 := by
  cases bs <;> rfl

theorem exact_recordFrom (e : Entity) {c : ℚ} (hc : Scaled c) (bs : List Budget) :
    Exact (recordFrom e c bs) := by
  cases bs with
  | nil => trivial
  | cons b rest => exact hc

theorem compared_step (limit spend : ℚ) (rest : List Budget) :
    Exact (if limit ≤ spend then none else checkFrom rest) ∧
      ∀ e p, owes e p (if limit ≤ spend then none else checkFrom rest) = 0 := by
  split_ifs
  · exact ⟨trivial, fun _ _ => rfl⟩
  · exact ⟨exact_checkFrom rest, fun e p => owes_checkFrom e p rest⟩

variable {t : Thread} {w : World} {s : Sys} {base : Entity → Period → ℚ}

theorem exact_step (h : Exact (some t)) (w : World) (now : Int) : Exact (t.step w now).2 := by
  fun_cases Thread.step w now t with
  | case1 => exact exact_checkFrom _
  | case2 | case4 => exact (compared_step ..).1
  | case3 => trivial
  | case5 e c | case7 e p rest c => exact exact_recordFrom e h _
  | case6 => exact h

theorem rows_step (t : Thread) (w : World) (now : Int) :
    (t.step w now).1.rows = w.rows ∨
      ∃ e p rest c, t = .recordAdd e p rest c ∧ (t.step w now).1 = w.addSpend e p c := by
  fun_cases Thread.step w now t with
  | case7 e p rest c => exact .inr ⟨e, p, rest, c, rfl, rfl⟩
  | _ => exact .inl (by simp)

theorem rowsScaled_step (hw : w.RowsScaled) (t : Thread) (now : Int) :
    (t.step w now).1.RowsScaled := by
  rcases rows_step t w now with h | ⟨e, p, rest, c, -, h⟩
  · intro e p r hr
    rw [h] at hr
    exact hw e p r hr
  · intro e' p' r hr
    rw [h, addSpend_rows] at hr
    split at hr
    · obtain ⟨r₀, -, rfl⟩ := Option.map_eq_some_iff.mp hr
      exact scaled_numeric8 _
    · exact hw e' p' r hr

theorem rows_isSome_step (t : Thread) (w : World) (now : Int) (e : Entity) (p : Period) :
    ((t.step w now).1.rows e p).isSome = (w.rows e p).isSome := by
  rcases rows_step t w now with h | ⟨e', p', rest, c, -, h⟩
  · rw [h]
  · rw [h, addSpend_rows]
    split
    next hsame =>
      obtain ⟨rfl, rfl⟩ := hsame
      simp
    next => rfl

theorem spent_owes_step (hw : w.RowsScaled) (ht : Exact (some t)) (now : Int) {e : Entity}
    {p : Period} (hrow : (w.rows e p).isSome) :
    (t.step w now).1.spent e p + owes e p (t.step w now).2 =
      w.spent e p + owes e p (some t) + t.charges e p := by
  fun_cases Thread.step w now t with
  | case1 | case2 | case4 | case5 =>
    simp only [spent_cachedList, spent_setSpend, owes_checkFrom, owes_recordFrom, compared_step]
    exact (add_zero _).symm
  | case3 => exact (add_zero _).symm
  | case6 e' p' rest c =>
    show w.spent e p + (if e = e' ∧ p = p' then c else 0) = w.spent e p + 0 + _
    rw [add_zero]
    rfl
  | case7 e' p' rest c =>
    show _ + owes e p (recordFrom e' c rest) = w.spent e p + (if e = e' ∧ p = p' then c else 0) + 0
    rw [owes_recordFrom, add_zero, add_zero]
    by_cases hsame : e = e' ∧ p = p'
    · obtain ⟨rfl, rfl⟩ := hsame
      obtain ⟨r, hr⟩ := Option.isSome_iff_exists.mp hrow
      rw [spent_addSpend hr (hw _ _ _ hr) ht]
    · -- some other row
      rw [World.spent, addSpend_rows, if_neg hsame, if_neg hsame, add_zero]
      rfl

theorem getSpend_step {now : Int} {e : Entity} {p : Period} {v : ℚ}
    (h : (t.step w now).1.getSpend e p now = some v) :
    (∃ u, w.getSpend e p now = some u ∧ v = u + t.charges e p) ∨
      (∃ rest c, t = .recordIncr e p rest c ∧ w.getSpend e p now = none ∧ v = c) ∨
      ∃ b l rest, t = .checkSet b l rest ∧ e = b.entity ∧ p = b.period ∧ v = b.currentSpend := by
  fun_cases Thread.step w now t with
  | case1 | case2 | case3 | case5 | case7 =>
    exact .inl ⟨v, by simpa [*, Thread.step] using h, by simp [Thread.charges]⟩
  | case4 b l rest =>
    by_cases hsame : e = b.entity ∧ p = b.period
    · obtain ⟨rfl, rfl⟩ := hsame
      exact .inr (.inr ⟨b, l, rest, rfl, rfl, rfl, getSpend_setSpend_self _ _ _ _ _ h⟩)
    · rw [Thread.step, getSpend_setSpend_of_ne _ _ _ hsame] at h
      exact .inl ⟨v, h, by simp [Thread.charges]⟩
  | case6 e' p' rest c =>
    by_cases hsame : e = e' ∧ p = p'
    · obtain ⟨rfl, rfl⟩ := hsame
      have hv := getSpend_incrSpend_self _ _ _ _ _ h
      cases hu : w.getSpend e p now with
      | none => exact .inr (.inl ⟨rest, c, rfl, rfl, by simpa [hu] using hv⟩)
      | some u => exact .inl ⟨u, rfl, by simpa [hu, Thread.charges] using hv⟩
    · rw [Thread.step, getSpend_incrSpend_of_ne _ _ _ hsame] at h
      exact .inl ⟨v, h, by simp [Thread.charges, hsame]⟩

/-! ## Runs -/

structure Coherent (base : Entity → Period → ℚ) (s : Sys) : Prop where
  rows : s.world.RowsScaled
  threads : ∀ t ∈ s.threads, Exact t
  total : ∀ e p, (s.world.rows e p).isSome →
    s.world.spent e p + s.owed e p = base e p + s.recorded e p
  counter : ∀ e p, (s.world.rows e p).isSome → ∀ v, s.world.getSpend e p s.clock = some v →
    v = s.world.spent e p + s.owed e p

theorem owed_append (s : Sys) (t : Option Thread) (e : Entity) (p : Period) :
    Sys.owed { s with threads := s.threads ++ [t] } e p = s.owed e p + owes e p t := by
  simp [Sys.owed]

theorem owed_set {i : Nat} (hi : s.threads[i]? = some (some t)) (t' : Option Thread) (e : Entity)
    (p : Period) :
    ((s.threads.set i t').map (owes e p)).sum =
      s.owed e p - owes e p (some t) + owes e p t' := by
  obtain ⟨hlt, hget⟩ := List.getElem?_eq_some_iff.mp hi
  rw [List.map_set, List.sum_set', dif_pos (by simpa using hlt), List.getElem_map, hget]
  unfold Sys.owed
  ring

theorem Coherent.spawn (h : Coherent base s) {t : Option Thread} (hexact : Exact t)
    (howes : ∀ e p, owes e p t = 0) :
    Coherent base { s with threads := s.threads ++ [t] } where
  rows := h.rows
  threads := by
    intro t' ht'
    rcases List.mem_append.mp ht' with ht' | ht'
    · exact h.threads t' ht'
    · rw [List.mem_singleton.mp ht']
      exact hexact
  total := fun e p hrow => by
    rw [owed_append, howes, add_zero]
    exact h.total e p hrow
  counter := fun e p hrow v hv => by
    rw [owed_append, howes, add_zero]
    exact h.counter e p hrow v hv

theorem Coherent.move (h : Coherent base s) {i : Nat} (hi : s.threads[i]? = some (some t))
    (hok : StepOk s (.move i)) :
    Coherent base { s with
      world := (t.step s.world s.clock).1
      threads := s.threads.set i (t.step s.world s.clock).2
      recorded := fun e p => s.recorded e p + t.charges e p } := by
  have hexact : Exact (some t) := h.threads _ (List.mem_of_getElem? hi)
  -- the row with what is owed to it grows by the charge
  have hsum : ∀ e p, (s.world.rows e p).isSome →
      (t.step s.world s.clock).1.spent e p +
        ((s.threads.set i (t.step s.world s.clock).2).map (owes e p)).sum =
      s.world.spent e p + s.owed e p + t.charges e p := by
    intro e p hrow
    have hstep := spent_owes_step h.rows hexact s.clock hrow
    rw [owed_set hi]
    linarith
  constructor
  case rows => exact rowsScaled_step h.rows t s.clock
  case threads =>
    intro t' ht'
    rcases List.mem_or_eq_of_mem_set ht' with ht' | rfl
    · exact h.threads t' ht'
    · exact exact_step hexact s.world s.clock
  case total =>
    intro e p hrow
    rw [rows_isSome_step] at hrow
    have htotal := h.total e p hrow
    have := hsum e p hrow
    simp only [Sys.owed] at htotal this ⊢
    linarith
  case counter =>
    intro e p hrow v hv
    rw [rows_isSome_step] at hrow
    refine Eq.trans ?_ (hsum e p hrow).symm
    simp only [StepOk, hi] at hok
    rcases getSpend_step hv with ⟨u, hu, rfl⟩ | ⟨rest, c, rfl, hnone, rfl⟩ | hseed
    · rw [h.counter e p hrow u hu]
    · -- a counter that starts over: there was nothing to find
      simp only [hnone, Option.isSome_none, Bool.false_eq_true, false_or] at hok
      simp [hok, Thread.charges]
    · -- a seed: it is what the row stands for
      obtain ⟨b, l, rest, rfl, rfl, rfl, rfl⟩ := hseed
      simp only [Thread.charges, add_zero]
      exact hok

/-- An allowed step keeps counters and rows together. -/
theorem Coherent.step {s' : Sys} {a : Act} (h : Coherent base s) (hok : StepOk s a)
    (hstep : s.step a = some s') : Coherent base s' := by
  cases a with
  | wait now =>
    simp only [Sys.step] at hstep
    split at hstep
    next hle =>
      cases hstep
      -- a counter that exists at the later time existed before
      exact { h with
        counter := fun e p hrow v hv => h.counter e p hrow v (getSpend_of_le _ _ _ hle hv) }
    next => cases hstep
  | check e =>
    cases hstep
    exact h.spawn trivial fun _ _ => rfl
  | record e c =>
    simp only [Sys.step, Option.some.injEq] at hstep
    subst hstep
    split
    · exact h
    · exact h.spawn hok fun _ _ => rfl
  | move i =>
    cases hi : s.threads[i]? with
    | none => simp [Sys.step, hi] at hstep
    | some ot =>
      cases ot with
      | none => simp [Sys.step, hi] at hstep
      | some t =>
        simp only [Sys.step, hi, Option.some.injEq] at hstep
        subst hstep
        exact h.move hi hok

theorem owed_of_quiescent (h : s.Quiescent) (e : Entity) (p : Period) : s.owed e p = 0 := by
  refine List.sum_eq_zero fun x hx => ?_
  obtain ⟨t, ht, rfl⟩ := List.mem_map.mp hx
  rw [h t ht]
  rfl

/-- A start: nothing in flight, exact rows, and no counter that differs from its row. -/
structure Sys.Start (s : Sys) : Prop where
  quiescent : s.Quiescent
  rows : s.world.RowsScaled
  counters : ∀ e p v, s.world.getSpend e p s.clock = some v → v = s.world.spent e p
  recorded : ∀ e p, s.recorded e p = 0

theorem Sys.Start.coherent (h : s.Start) : Coherent s.world.spent s where
  rows := h.rows
  threads := fun t ht => by
    rw [h.quiescent t ht]
    trivial
  total := fun e p _ => by rw [owed_of_quiescent h.quiescent, h.recorded]
  counter := fun e p _ v hv => by
    rw [owed_of_quiescent h.quiescent, add_zero]
    exact h.counters e p v hv

/-- **Redis and the row agree.** If no `IncrSpend` recreates a counter that should not be 0, every
seed is what the row stands for, and costs have eight decimal places: when nothing is in flight, a
counter equals its row, and both are the spend at the start plus all that was recorded. -/
theorem spend_coherent {s₀ s : Sys} (hstart : s₀.Start) {acts : List Act}
    (hok : AlongFrom Sys.step StepOk s₀ acts) (hrun : runFrom Sys.step s₀ acts = some s)
    (hquiet : s.Quiescent) {e : Entity} {p : Period} {r : Row} (hrow : s.world.rows e p = some r)
    {v : ℚ} (hv : s.world.getSpend e p s.clock = some v) :
    v = r.currentSpend ∧ v = s₀.world.spent e p + s.recorded e p := by
  have h : Coherent s₀.world.spent s :=
    runFrom_invariant (fun _ _ _ h hok hstep => h.step hok hstep) hstart.coherent hok hrun
  have hsome : (s.world.rows e p).isSome := by rw [hrow]; rfl
  have hcounter := h.counter e p hsome v hv
  have htotal := h.total e p hsome
  rw [owed_of_quiescent hquiet, add_zero] at hcounter htotal
  refine ⟨?_, hcounter.trans htotal⟩
  rw [hcounter, spent_of_row hrow]

def dailyBudget : Sys where
  world := .single ⟨.key, "k1"⟩ .daily
    { hardLimitUSD := some 100, currentSpend := 0, periodStart := 0, periodEnd := 24 * hour }
  clock := 0
  threads := []
  recorded := fun _ _ => 0

theorem dailyBudget_start : dailyBudget.Start where
  quiescent := by
    intro t ht
    cases ht
  rows := by
    intro e p r hr
    simp only [dailyBudget, World.single, Option.ite_none_right_eq_some, Option.some.injEq] at hr
    rw [← hr.2]
    exact scaled_zero
  counters := by
    intro e p v hv
    cases hv
  recorded := fun _ _ => rfl

/-- Two calls of `RecordSpend` under way at once. -/
def twoRecords : List Act :=
  [.record ⟨.key, "k1"⟩ 5, .record ⟨.key, "k1"⟩ 2, .move 0, .move 1, .move 0, .move 1, .move 1,
    .move 0]

theorem spend_coherent_two_records :
    ∃ s r, runFrom Sys.step dailyBudget twoRecords = some s ∧
      s.world.rows ⟨.key, "k1"⟩ .daily = some r ∧
      s.world.getSpend ⟨.key, "k1"⟩ .daily s.clock = some 7 ∧ (7 : ℚ) = r.currentSpend := by
  have hok : AlongFrom Sys.step StepOk dailyBudget twoRecords := by
    refine ⟨⟨500000000, by norm_num⟩, fun s₁ h₁ => ?_⟩
    cases h₁
    refine ⟨⟨200000000, by norm_num⟩, fun s₂ h₂ => ?_⟩
    cases h₂
    refine ⟨trivial, fun s₃ h₃ => ?_⟩
    cases h₃
    refine ⟨trivial, fun s₄ h₄ => ?_⟩
    cases h₄
    -- the counter does not exist, and neither does any spend
    refine ⟨.inr (by decide +kernel), fun s₅ h₅ => ?_⟩
    cases h₅
    refine ⟨.inl (by decide +kernel), fun s₆ h₆ => ?_⟩
    cases h₆
    refine ⟨trivial, fun s₇ h₇ => ?_⟩
    cases h₇
    exact ⟨trivial, fun _ _ => trivial⟩
  have hquiet : ∀ t ∈ [(none : Option Thread), none], t = none := by decide
  refine ⟨_, _, rfl, rfl, by decide +kernel, ?_⟩
  exact (spend_coherent (e := ⟨.key, "k1"⟩) (p := .daily) (v := 7) dailyBudget_start hok rfl hquiet
    rfl (by decide +kernel)).1

theorem expired_counter_starts_over :
    dailyBudget.Start ∧ ∃ s, runFrom Sys.step dailyBudget
        [.record ⟨.key, "k1"⟩ 5, .move 0, .move 0, .move 0, .wait (26 * hour),
          .record ⟨.key, "k1"⟩ 1, .move 1, .move 1, .move 1] = some s ∧
      s.Quiescent ∧ s.world.getSpend ⟨.key, "k1"⟩ .daily s.clock = some 1 ∧
      s.world.spent ⟨.key, "k1"⟩ .daily = 6 := by
  refine ⟨dailyBudget_start, _, rfl, ?_, by decide +kernel, by decide +kernel⟩
  unfold Sys.Quiescent
  decide +kernel

end LlmRouter.Budgets
