import Mathlib.Logic.Function.Basic
import Mathlib.Tactic.SplitIfs

/-!
# LlmRouter — the per-provider circuit breaker

`internal/gateway/circuitbreaker`: a map from provider names to entries, each `Closed`, `Open` or
`HalfOpen`, driven by calls at explicit instants (nanoseconds). Counters go stale in some states:
`failures` is incremented while the circuit is open, and `successes` survives a re-opening. `Inv`
says per state which counter is meaningful and what it counts, in terms of the history of calls
only.
-/

namespace LlmRouter.Circuit

inductive State where
  | stateClosed
  | stateOpen
  | stateHalfOpen
  deriving DecidableEq, Repr

structure Config where
  failureThreshold : Int
  successThreshold : Int
  openTimeout : Int
  deriving DecidableEq, Repr

def defaultConfig : Config :=
  { failureThreshold := 5, successThreshold := 2, openTimeout := 60 * 1000000000 }

/-- One provider's entry. `lastFailureAt = none` is Go's zero time. -/
structure Entry where
  state : State := .stateClosed
  failures : Int := 0
  successes : Int := 0
  lastFailureAt : Option Int := none
  deriving DecidableEq, Repr

structure CircuitBreaker where
  entries : String → Option Entry
  cfg : Config

variable (cfg : Config)

def new : CircuitBreaker := { entries := fun _ => none, cfg := cfg }

variable (cb : CircuitBreaker)

def CircuitBreaker.get (provider : String) : Entry :=
  (cb.entries provider).getD {}

def CircuitBreaker.put (provider : String) (e : Entry) : CircuitBreaker :=
  { cb with entries := Function.update cb.entries provider (some e) }

/-- `time.Since(e.lastFailureAt) >= timeout`. Against the zero time `Since` saturates. -/
def Entry.timeoutElapsed (e : Entry) (timeout now : Int) : Bool :=
  match e.lastFailureAt with
  | some t => decide (timeout ≤ now - t)
  | none => true

def CircuitBreaker.isOpen (provider : String) (now : Int) : CircuitBreaker × Bool :=
  let e := cb.get provider
  if e.state = .stateOpen then
    if e.timeoutElapsed cb.cfg.openTimeout now then
      -- allow a probe request
      (cb.put provider { e with state := .stateHalfOpen, successes := 0 }, false)
    else (cb.put provider e, true)
  else (cb.put provider e, false)

def CircuitBreaker.recordSuccess (provider : String) : CircuitBreaker :=
  let e := cb.get provider
  match e.state with
  | .stateHalfOpen =>
    if cb.cfg.successThreshold ≤ e.successes + 1 then
      cb.put provider { e with state := .stateClosed, failures := 0, successes := 0 }
    else cb.put provider { e with successes := e.successes + 1 }
  | .stateClosed => cb.put provider { e with failures := 0 }
  | .stateOpen => cb.put provider e

def CircuitBreaker.recordFailure (provider : String) (now : Int) : CircuitBreaker :=
  let e := cb.get provider
  let e := { e with failures := e.failures + 1, lastFailureAt := some now }
  match e.state with
  | .stateClosed =>
    if cb.cfg.failureThreshold ≤ e.failures then
      cb.put provider { e with state := .stateOpen }
    else cb.put provider e
  -- any failure in HalfOpen re-opens the circuit immediately
  | .stateHalfOpen => cb.put provider { e with state := .stateOpen, failures := 0 }
  | .stateOpen => cb.put provider e

def CircuitBreaker.reset (provider : String) : CircuitBreaker :=
  cb.put provider {}

/-! ## Histories of calls -/

inductive Op where
  | isOpen (provider : String)
  | recordSuccess (provider : String)
  | recordFailure (provider : String)
  | reset (provider : String)
  deriving DecidableEq, Repr

def Op.provider : Op → String
  | .isOpen p | .recordSuccess p | .recordFailure p | .reset p => p

structure Event where
  now : Int
  op : Op
  deriving DecidableEq, Repr

def CircuitBreaker.step (ev : Event) : CircuitBreaker :=
  match ev.op with
  | .isOpen p => (cb.isOpen p ev.now).1
  | .recordSuccess p => cb.recordSuccess p
  | .recordFailure p => cb.recordFailure p ev.now
  | .reset p => cb.reset p

/-- The breaker after a history of calls, listed newest first. -/
def after (cfg : Config) : List Event → CircuitBreaker
  | [] => new cfg
  | ev :: h => (after cfg h).step ev

variable (p : String)

def stateAt (h : List Event) : State :=
  ((after cfg h).get p).state

/-- Whether the newest call of the history brought `p` into state `s`. -/
def entered (s : State) : List Event → Prop
  | [] => False
  | ev :: h => stateAt cfg p (ev :: h) = s ∧ stateAt cfg p h ≠ s

instance (cfg : Config) (p : String) (s : State) :
    (h : List Event) → Decidable (entered cfg p s h)
  | [] => inferInstanceAs (Decidable False)
  | _ :: _ => inferInstanceAs (Decidable (_ ∧ _))

/-- How many calls `op` the history (newest first) holds since the call marked by `mark`. -/
def countSince (mark : List Event → Prop) [DecidablePred mark] (op : Op) :
    List Event → Nat
  | [] => 0
  | ev :: h =>
    if mark (ev :: h) then 0
    else (if ev.op = op then 1 else 0) + countSince mark op h

def restartsFailures (h : List Event) : Prop :=
  entered cfg p .stateClosed h ∨
    ∃ ev ∈ h.head?, ev.op = .recordSuccess p ∨ ev.op = .reset p

instance (cfg : Config) (p : String) : DecidablePred (restartsFailures cfg p) :=
  fun h => inferInstanceAs (Decidable (_ ∨ ∃ ev ∈ h.head?, _))

/-- `RecordFailure` calls for `p` since its last `RecordSuccess`, `Reset` or entry into `Closed`. -/
def consecutiveFailures (h : List Event) : Nat :=
  countSince (restartsFailures cfg p) (.recordFailure p) h

def sinceHalfOpen (op : Op) (h : List Event) : Nat :=
  countSince (entered cfg p .stateHalfOpen) op h

def lastFailure (p : String) : List Event → Option Int
  | [] => none
  | ev :: h => if ev.op = .recordFailure p then some ev.now else lastFailure p h

/-! ## Entries under calls -/

@[simp] theorem get_put_same (e : Entry) : (cb.put p e).get p = e := by
  simp [CircuitBreaker.get, CircuitBreaker.put]

@[simp] theorem get_put_other {cb : CircuitBreaker} {p q : String} (h : q ≠ p) (e : Entry) :
    (cb.put p e).get q = cb.get q := by
  simp [CircuitBreaker.get, CircuitBreaker.put, Function.update_of_ne h]

@[simp] theorem put_cfg (e : Entry) : (cb.put p e).cfg = cb.cfg := rfl

theorem isOpen_fst (now : Int) : (cb.isOpen p now).1 = cb.put p
      (if (cb.get p).state = .stateOpen ∧ (cb.get p).timeoutElapsed cb.cfg.openTimeout now then
        { cb.get p with state := .stateHalfOpen, successes := 0 }
      else cb.get p) := by
  unfold CircuitBreaker.isOpen
  by_cases hOpen : (cb.get p).state = .stateOpen
  · by_cases hEl : (cb.get p).timeoutElapsed cb.cfg.openTimeout now = true <;> simp [hOpen, hEl]
  · simp [hOpen]

theorem step_eq_put (ev : Event) : ∃ e, cb.step ev = cb.put ev.op.provider e := by
  cases hop : ev.op with
  | isOpen p => exact ⟨_, by simp only [CircuitBreaker.step, hop, isOpen_fst, Op.provider]; rfl⟩
  | recordSuccess p =>
    simp only [CircuitBreaker.step, hop, CircuitBreaker.recordSuccess, Op.provider]
    split
    · split <;> exact ⟨_, rfl⟩
    · exact ⟨_, rfl⟩
    · exact ⟨_, rfl⟩
  | recordFailure p =>
    simp only [CircuitBreaker.step, hop, CircuitBreaker.recordFailure, Op.provider]
    split
    · split <;> exact ⟨_, rfl⟩
    · exact ⟨_, rfl⟩
    · exact ⟨_, rfl⟩
  | reset p => exact ⟨_, by simp only [CircuitBreaker.step, hop]; rfl⟩

@[simp] theorem step_cfg (ev : Event) : (cb.step ev).cfg = cb.cfg := by
  obtain ⟨e, he⟩ := step_eq_put cb ev
  rw [he, put_cfg]

@[simp] theorem after_cfg (cfg : Config) (h : List Event) : (after cfg h).cfg = cfg := by
  induction h with
  | nil => rfl
  | cons ev h ih => rw [after, step_cfg, ih]

theorem get_step_other {cb : CircuitBreaker} {ev : Event} {p : String}
    (hp : ev.op.provider ≠ p) : (cb.step ev).get p = cb.get p := by
  obtain ⟨e, he⟩ := step_eq_put cb ev
  rw [he, get_put_other (Ne.symm hp)]

theorem get_step_isOpen (now : Int) : (cb.step ⟨now, .isOpen p⟩).get p =
      if (cb.get p).state = .stateOpen ∧ (cb.get p).timeoutElapsed cb.cfg.openTimeout now then
        { cb.get p with state := .stateHalfOpen, successes := 0 }
      else cb.get p := by
  simp only [CircuitBreaker.step, isOpen_fst, get_put_same]

theorem get_step_recordSuccess (now : Int) : (cb.step ⟨now, .recordSuccess p⟩).get p =
      match (cb.get p).state with
      | .stateHalfOpen =>
        if cb.cfg.successThreshold ≤ (cb.get p).successes + 1 then
          { cb.get p with state := .stateClosed, failures := 0, successes := 0 }
        else { cb.get p with successes := (cb.get p).successes + 1 }
      | .stateClosed => { cb.get p with failures := 0 }
      | .stateOpen => cb.get p := by
  simp only [CircuitBreaker.step, CircuitBreaker.recordSuccess]
  split
  · split <;> simp
  · simp
  · simp

theorem get_step_recordFailure (now : Int) : (cb.step ⟨now, .recordFailure p⟩).get p =
      match (cb.get p).state with
      | .stateClosed =>
        if cb.cfg.failureThreshold ≤ (cb.get p).failures + 1 then
          { cb.get p with
            failures := (cb.get p).failures + 1, lastFailureAt := some now, state := .stateOpen }
        else { cb.get p with failures := (cb.get p).failures + 1, lastFailureAt := some now }
      | .stateHalfOpen =>
        { cb.get p with failures := 0, lastFailureAt := some now, state := .stateOpen }
      | .stateOpen =>
        { cb.get p with failures := (cb.get p).failures + 1, lastFailureAt := some now } := by
  simp only [CircuitBreaker.step, CircuitBreaker.recordFailure]
  split
  · split <;> simp
  · simp
  · simp

@[simp] theorem get_step_reset (now : Int) : (cb.step ⟨now, .reset p⟩).get p = {} := by
  simp only [CircuitBreaker.step, CircuitBreaker.reset, get_put_same]

/-! ## Which counter means what, per state -/

structure Inv (cfg : Config) (p : String) (h : List Event) : Prop where
  closed : stateAt cfg p h = .stateClosed →
    ((after cfg h).get p).failures = consecutiveFailures cfg p h ∧
      ((after cfg h).get p).failures < cfg.failureThreshold
  halfOpen : stateAt cfg p h = .stateHalfOpen →
    ((after cfg h).get p).successes = sinceHalfOpen cfg p (.recordSuccess p) h ∧
      sinceHalfOpen cfg p (.recordFailure p) h = 0 ∧
      ((after cfg h).get p).successes < cfg.successThreshold
  opened : stateAt cfg p h = .stateOpen →
    ((after cfg h).get p).lastFailureAt = lastFailure p h ∧ (lastFailure p h).isSome

section Step

variable {cfg : Config} {p : String} {h : List Event}

theorem consecutiveFailures_cons (ev : Event) :
    consecutiveFailures cfg p (ev :: h) =
      if restartsFailures cfg p (ev :: h) then 0
      else (if ev.op = .recordFailure p then 1 else 0) + consecutiveFailures cfg p h := rfl

theorem sinceHalfOpen_cons (op : Op) (ev : Event) :
    sinceHalfOpen cfg p op (ev :: h) =
      if entered cfg p .stateHalfOpen (ev :: h) then 0
      else (if ev.op = op then 1 else 0) + sinceHalfOpen cfg p op h := rfl

theorem restartsFailures_cons (ev : Event) :
    restartsFailures cfg p (ev :: h) ↔
      (stateAt cfg p (ev :: h) = .stateClosed ∧ stateAt cfg p h ≠ .stateClosed) ∨
        ev.op = .recordSuccess p ∨ ev.op = .reset p := by
  simp [restartsFailures, entered]

theorem entered_cons (s : State) (ev : Event) :
    entered cfg p s (ev :: h) ↔ stateAt cfg p (ev :: h) = s ∧ stateAt cfg p h ≠ s := Iff.rfl

theorem stateAt_cons (ev : Event) :
    stateAt cfg p (ev :: h) = (((after cfg h).step ev).get p).state := rfl

theorem inv_unchanged {ev : Event} (hInv : Inv cfg p h)
    (hget : ((after cfg h).step ev).get p = (after cfg h).get p)
    (hSucc : ev.op = .recordSuccess p → stateAt cfg p h = .stateOpen)
    (hFail : ev.op ≠ .recordFailure p) (hReset : ev.op ≠ .reset p) :
    Inv cfg p (ev :: h) := by
  have hst : stateAt cfg p (ev :: h) = stateAt cfg p h := by
    rw [stateAt_cons, hget, stateAt]
  have hent : ∀ s, ¬ entered cfg p s (ev :: h) := fun s => by
    rw [entered_cons, hst]
    exact fun hc => hc.2 hc.1
  -- a success has been recorded only while open, where it counts for nothing
  have hop : stateAt cfg p h ≠ .stateOpen → ev.op ≠ .recordSuccess p :=
    fun hnot ho => hnot (hSucc ho)
  constructor
  · intro hc
    rw [hst] at hc
    have hsucc := hop (by rw [hc]; nofun)
    rw [after, hget, consecutiveFailures_cons, if_neg, if_neg hFail, Nat.zero_add]
    · exact hInv.closed hc
    · rw [restartsFailures_cons, hst]
      simp [hsucc, hReset]
  · intro hc
    rw [hst] at hc
    have hsucc := hop (by rw [hc]; nofun)
    rw [after, hget, sinceHalfOpen_cons, sinceHalfOpen_cons, if_neg (hent _), if_neg (hent _),
      if_neg hFail, if_neg hsucc, Nat.zero_add, Nat.zero_add]
    exact hInv.halfOpen hc
  · intro hc
    rw [hst] at hc
    rw [after, hget, lastFailure, if_neg hFail]
    exact hInv.opened hc

/-! In each state only one part of the invariant says something. -/

theorem inv_of_closed (hst : stateAt cfg p h = .stateClosed)
    (hcount : ((after cfg h).get p).failures = consecutiveFailures cfg p h ∧
      ((after cfg h).get p).failures < cfg.failureThreshold) : Inv cfg p h :=
  ⟨fun _ => hcount, fun hc => absurd (hst.symm.trans hc) nofun,
    fun hc => absurd (hst.symm.trans hc) nofun⟩

theorem inv_of_halfOpen (hst : stateAt cfg p h = .stateHalfOpen)
    (hcount : ((after cfg h).get p).successes = sinceHalfOpen cfg p (.recordSuccess p) h ∧
      sinceHalfOpen cfg p (.recordFailure p) h = 0 ∧
      ((after cfg h).get p).successes < cfg.successThreshold) : Inv cfg p h :=
  ⟨fun hc => absurd (hst.symm.trans hc) nofun, fun _ => hcount,
    fun hc => absurd (hst.symm.trans hc) nofun⟩

theorem inv_restart {ev : Event} (hF : 1 ≤ cfg.failureThreshold)
    (hst : (((after cfg h).step ev).get p).state = .stateClosed)
    (hzero : (((after cfg h).step ev).get p).failures = 0)
    (hRestart : restartsFailures cfg p (ev :: h)) : Inv cfg p (ev :: h) := by
  refine inv_of_closed hst ?_
  rw [after, consecutiveFailures_cons, if_pos hRestart, hzero]
  exact ⟨rfl, by omega⟩

theorem inv_isOpen (hS : 1 ≤ cfg.successThreshold) (hInv : Inv cfg p h) (now : Int) :
    Inv cfg p (⟨now, .isOpen p⟩ :: h) := by
  have hget := get_step_isOpen (after cfg h) p now
  split at hget
  · next hOpen =>
    -- the probe transition: `HalfOpen` is entered with no success counted yet
    have hst : stateAt cfg p (⟨now, .isOpen p⟩ :: h) = .stateHalfOpen := by
      rw [stateAt_cons, hget]
    have hent : entered cfg p .stateHalfOpen (⟨now, .isOpen p⟩ :: h) := by
      rw [entered_cons]
      exact ⟨hst, by rw [stateAt, hOpen.1]; decide⟩
    refine inv_of_halfOpen hst ?_
    rw [after, hget, sinceHalfOpen_cons, sinceHalfOpen_cons, if_pos hent, if_pos hent]
    exact ⟨rfl, rfl, by show (0 : Int) < cfg.successThreshold; omega⟩
  · exact inv_unchanged hInv hget (by simp) (by simp) (by simp)

theorem inv_recordSuccess (hF : 1 ≤ cfg.failureThreshold) (hInv : Inv cfg p h) (now : Int) :
    Inv cfg p (⟨now, .recordSuccess p⟩ :: h) := by
  have hget := get_step_recordSuccess (after cfg h) p now
  have hRestart : restartsFailures cfg p (⟨now, .recordSuccess p⟩ :: h) := by
    rw [restartsFailures_cons]
    exact Or.inr (Or.inl rfl)
  split at hget
  · next hHalf =>
    split at hget
    · exact inv_restart hF (by rw [hget]) (by rw [hget]) hRestart
    · next hlt =>
      rw [after_cfg] at hlt
      have hst : stateAt cfg p (⟨now, .recordSuccess p⟩ :: h) = .stateHalfOpen := by
        rw [stateAt_cons, hget]
        exact hHalf
      have hnew : ¬ entered cfg p .stateHalfOpen (⟨now, .recordSuccess p⟩ :: h) := by
        rw [entered_cons]
        exact fun hc => hc.2 hHalf
      obtain ⟨hcount, hnofail, -⟩ := hInv.halfOpen hHalf
      refine inv_of_halfOpen hst ?_
      rw [after, hget, sinceHalfOpen_cons, sinceHalfOpen_cons, if_neg hnew, if_neg hnew,
        if_pos rfl, if_neg (by simp), hnofail]
      refine ⟨?_, rfl, by simpa using hlt⟩
      simp only [hcount]
      omega
  · next hClosed =>
    exact inv_restart hF (by rw [hget]; exact hClosed) (by rw [hget]) hRestart
  · next hOpen =>
    exact inv_unchanged hInv hget (fun _ => hOpen) (by simp) (by simp)

theorem inv_failed_open {now : Int}
    (hst : (((after cfg h).step ⟨now, .recordFailure p⟩).get p).state = .stateOpen)
    (hlast : (((after cfg h).step ⟨now, .recordFailure p⟩).get p).lastFailureAt = some now) :
    Inv cfg p (⟨now, .recordFailure p⟩ :: h) := by
  refine ⟨fun hc => absurd (hst.symm.trans hc) nofun,
    fun hc => absurd (hst.symm.trans hc) nofun, fun _ => ?_⟩
  rw [after, hlast, lastFailure, if_pos rfl]
  exact ⟨rfl, rfl⟩

theorem inv_recordFailure (hInv : Inv cfg p h) (now : Int) :
    Inv cfg p (⟨now, .recordFailure p⟩ :: h) := by
  have hget := get_step_recordFailure (after cfg h) p now
  split at hget
  · next hClosed =>
    split at hget
    · exact inv_failed_open (by rw [hget]) (by rw [hget])
    · next hlt =>
      rw [after_cfg] at hlt
      have hst : stateAt cfg p (⟨now, .recordFailure p⟩ :: h) = .stateClosed := by
        rw [stateAt_cons, hget]
        exact hClosed
      have hnew : ¬ restartsFailures cfg p (⟨now, .recordFailure p⟩ :: h) := by
        rw [restartsFailures_cons]
        simp [stateAt, hClosed]
      obtain ⟨hcount, -⟩ := hInv.closed hClosed
      refine inv_of_closed hst ?_
      rw [after, hget, consecutiveFailures_cons, if_neg hnew, if_pos rfl]
      refine ⟨?_, by simpa using hlt⟩
      simp only [hcount]
      omega
  · exact inv_failed_open (by rw [hget]) (by rw [hget])
  · next hOpen => exact inv_failed_open (by rw [hget]; exact hOpen) (by rw [hget])

theorem inv_step (hF : 1 ≤ cfg.failureThreshold) (hS : 1 ≤ cfg.successThreshold)
    (hInv : Inv cfg p h) (ev : Event) : Inv cfg p (ev :: h) := by
  obtain ⟨now, op⟩ := ev
  by_cases hp : op.provider = p
  · subst hp
    cases op with
    | isOpen p => exact inv_isOpen hS hInv now
    | recordSuccess p => exact inv_recordSuccess hF hInv now
    | recordFailure p => exact inv_recordFailure hInv now
    | reset p =>
      refine inv_restart hF (by simp [Op.provider]) (by simp [Op.provider]) ?_
      rw [restartsFailures_cons]
      exact Or.inr (Or.inr rfl)
  · refine inv_unchanged hInv (get_step_other hp) ?_ ?_ ?_ <;>
      (rintro rfl; exact absurd rfl hp)

end Step

/-- State and counters of a provider are those of its history. -/
theorem inv_after {cfg : Config} (hF : 1 ≤ cfg.failureThreshold)
    (hS : 1 ≤ cfg.successThreshold) (p : String) (h : List Event) : Inv cfg p h := by
  induction h with
  | nil =>
    refine ⟨fun _ => ⟨rfl, ?_⟩, fun hc => ?_, fun hc => ?_⟩
    · show (0 : Int) < cfg.failureThreshold
      omega
    · cases hc
    · cases hc
  | cons ev h ih => exact inv_step hF hS ih ev

/-! ## The trace law -/

/-- What a history of calls on any providers says about provider `p`. -/
structure TraceLaw (cfg : Config) (p : String) (h : List Event) : Prop where
  closedCount : stateAt cfg p h = .stateClosed →
    ((after cfg h).get p).failures = consecutiveFailures cfg p h ∧
      ((after cfg h).get p).failures < cfg.failureThreshold
  opens : ∀ ev, entered cfg p .stateOpen (ev :: h) →
    ev.op = .recordFailure p ∧
      (stateAt cfg p h = .stateHalfOpen ∨
        stateAt cfg p h = .stateClosed ∧
          (consecutiveFailures cfg p (ev :: h) : Int) = cfg.failureThreshold)
  blocks : stateAt cfg p h = .stateOpen →
    ∃ t, lastFailure p h = some t ∧
      ∀ now, ((after cfg h).isOpen p now).2 = true ↔ now - t < cfg.openTimeout
  closes : ∀ ev, stateAt cfg p h = .stateHalfOpen → stateAt cfg p (ev :: h) = .stateClosed →
    ev.op = .reset p ∨
      ev.op = .recordSuccess p ∧
        (sinceHalfOpen cfg p (.recordSuccess p) (ev :: h) : Int) = cfg.successThreshold ∧
        sinceHalfOpen cfg p (.recordFailure p) (ev :: h) = 0
  frame : ∀ ev, ev.op.provider ≠ p → (after cfg (ev :: h)).get p = (after cfg h).get p

section Law

variable {cfg : Config} {p : String} {h : List Event}

theorem entered_open_cases {ev : Event} (hent : entered cfg p .stateOpen (ev :: h)) :
    ev.op = .recordFailure p ∧
      (stateAt cfg p h = .stateHalfOpen ∨
        stateAt cfg p h = .stateClosed ∧
          cfg.failureThreshold ≤ ((after cfg h).get p).failures + 1) := by
  obtain ⟨now, op⟩ := ev
  obtain ⟨hafter, hbefore⟩ := (entered_cons _ _).mp hent
  rw [stateAt_cons] at hafter
  have hp : op.provider = p := by
    by_contra hne
    rw [get_step_other hne] at hafter
    exact hbefore hafter
  subst hp
  cases op with
  | isOpen p =>
    rw [Op.provider, get_step_isOpen] at hafter
    split at hafter
    · cases hafter
    · exact absurd hafter hbefore
  | recordSuccess p =>
    rw [Op.provider, get_step_recordSuccess] at hafter
    split at hafter
    · next hHalf =>
      split at hafter
      · cases hafter
      · exact absurd (hHalf.symm.trans hafter) (by decide)
    · next hClosed => exact absurd (hClosed.symm.trans hafter) (by decide)
    · exact absurd hafter hbefore
  | recordFailure p =>
    refine ⟨rfl, ?_⟩
    rw [Op.provider, get_step_recordFailure] at hafter
    split at hafter
    · next hClosed =>
      split at hafter
      · next hle => exact Or.inr ⟨hClosed, by rw [after_cfg] at hle; exact hle⟩
      · exact absurd (hClosed.symm.trans hafter) (by decide)
    · next hHalf => exact Or.inl hHalf
    · exact absurd hafter hbefore
  | reset p =>
    rw [Op.provider, get_step_reset] at hafter
    cases hafter

theorem closed_of_halfOpen_cases {ev : Event} (hHalf : stateAt cfg p h = .stateHalfOpen)
    (hafter : stateAt cfg p (ev :: h) = .stateClosed) :
    ev.op = .reset p ∨
      ev.op = .recordSuccess p ∧
        cfg.successThreshold ≤ ((after cfg h).get p).successes + 1 := by
  obtain ⟨now, op⟩ := ev
  have hne : stateAt cfg p (⟨now, op⟩ :: h) ≠ stateAt cfg p h := by
    rw [hafter, hHalf]
    decide
  rw [stateAt_cons] at hafter hne
  rw [stateAt] at hHalf hne
  have hp : op.provider = p := by
    by_contra hother
    exact hne (by rw [get_step_other hother])
  subst hp
  cases op with
  | isOpen p =>
    rw [Op.provider, get_step_isOpen, if_neg] at hafter
    · rw [Op.provider] at hHalf
      rw [hHalf] at hafter
      cases hafter
    · rw [Op.provider] at hHalf
      rw [hHalf]
      simp
  | recordSuccess p =>
    refine Or.inr ⟨rfl, ?_⟩
    rw [Op.provider] at hHalf hafter ⊢
    simp only [get_step_recordSuccess, hHalf] at hafter
    split at hafter
    · next hle => rw [after_cfg] at hle; exact hle
    · cases hafter
  | recordFailure p =>
    rw [Op.provider] at hHalf hafter
    simp only [get_step_recordFailure, hHalf] at hafter
    cases hafter
  | reset p => exact Or.inl rfl

theorem isOpen_blocks {t : Int} (hOpen : stateAt cfg p h = .stateOpen)
    (hlast : ((after cfg h).get p).lastFailureAt = some t) (now : Int) :
    ((after cfg h).isOpen p now).2 = true ↔ now - t < cfg.openTimeout := by
  rw [stateAt] at hOpen
  simp only [CircuitBreaker.isOpen, hOpen, if_true, Entry.timeoutElapsed, hlast, after_cfg,
    decide_eq_true_eq]
  split <;> simp <;> omega

end Law

/-- **Circuit-breaker trace law.** For positive thresholds, every history of calls on any providers
obeys `TraceLaw` for every provider, even if the clock runs backwards. -/
theorem traceLaw {cfg : Config} (hF : 1 ≤ cfg.failureThreshold)
    (hS : 1 ≤ cfg.successThreshold) (p : String) (h : List Event) : TraceLaw cfg p h := by
  have hInv := inv_after hF hS p h
  refine ⟨hInv.closed, ?_, ?_, ?_, fun ev hp => get_step_other hp⟩
  · intro ev hent
    obtain ⟨hop, hcase⟩ := entered_open_cases hent
    refine ⟨hop, hcase.imp id ?_⟩
    rintro ⟨hClosed, hle⟩
    obtain ⟨hcount, hlt⟩ := hInv.closed hClosed
    refine ⟨hClosed, ?_⟩
    rw [consecutiveFailures_cons, if_neg, if_pos hop]
    · push_cast
      omega
    · rw [restartsFailures_cons, hop, hent.1]
      simp
  · intro hOpen
    obtain ⟨heq, hsome⟩ := hInv.opened hOpen
    obtain ⟨t, ht⟩ := Option.isSome_iff_exists.mp hsome
    exact ⟨t, ht, isOpen_blocks hOpen (heq.trans ht)⟩
  · intro ev hHalf hafter
    refine (closed_of_halfOpen_cases hHalf hafter).imp id ?_
    rintro ⟨hop, hle⟩
    obtain ⟨hcount, hnofail, hlt⟩ := hInv.halfOpen hHalf
    have hnew : ¬ entered cfg p .stateHalfOpen (ev :: h) := by
      rw [entered_cons, hafter]
      simp
    refine ⟨hop, ?_, ?_⟩
    · rw [sinceHalfOpen_cons, if_neg hnew, if_pos hop]
      push_cast
      omega
    · rw [sinceHalfOpen_cons, if_neg hnew, if_neg (by rw [hop]; simp), hnofail]

theorem traceLaw_recovery :
    TraceLaw defaultConfig "openai"
      ([⟨70000000000, .recordSuccess "openai"⟩, ⟨70000000000, .recordSuccess "openai"⟩,
        ⟨65000000000, .isOpen "openai"⟩] ++
        List.replicate 5 ⟨0, .recordFailure "openai"⟩) :=
  traceLaw (by decide) (by decide) _ _

example : stateAt defaultConfig "openai"
    (⟨65000000000, .isOpen "openai"⟩ :: List.replicate 5 ⟨0, .recordFailure "openai"⟩) =
      .stateHalfOpen := by decide

end LlmRouter.Circuit
