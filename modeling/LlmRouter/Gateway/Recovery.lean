import LlmRouter.Gateway.Probe

/-!
# LlmRouter — which successes close a circuit

`SuccessThreshold` is "consecutive successes in HalfOpen to close". `RecordSuccess` looks at the
state that it finds and not at the one in which the request was admitted, so a slow answer from
before the outage counts like a probe's. The runs are those of `Probe`, with the successes of
either kind counted beside the pool (`Recovery.Inv`).
-/

namespace LlmRouter.Gateway

open Lib Circuit

namespace Probe

/-! ### What one operation does to one circuit -/

/-- The half-open period in which the request to `q` was admitted whose success
the thread is about to record. -/
def Point.recording (q : String) : Point → Option (Option Nat)
  | .succeeded t probe => if t.provider = q then some probe else none
  | _ => none

inductive Turn (s s' : Shared) (t : Point) (q : String) : Prop where
  | same (ht : t.recording q = none) (h : s'.cb.get q = s.cb.get q)
      (hperiod : (s'.probes q).period = (s.probes q).period)
  | period (h : (s'.cb.get q).successes = 0)
      (hstate : (s'.cb.get q).state = .stateHalfOpen ∧ (s.cb.get q).state = .stateOpen)
      (hperiod : (s'.probes q).period = (s.probes q).period + 1)
  | success (target : Target) (probe : Option Nat) (ht : t = .succeeded target probe)
      (hq : target.provider = q) (h : s'.cb.get q = (s.cb.recordSuccess q).get q)
      (hperiod : (s'.probes q).period = (s.probes q).period)
  | failure (now : Int) (h : s'.cb.get q = (s.cb.recordFailure q now).get q)
      (hperiod : (s'.probes q).period = (s.probes q).period)

theorem count_period (s : Shared) (p q : String) (probe : Option Nat) {f : Probes → Probes}
    (hf : ∀ n, (f n).period = n.period) :
    ((s.count p probe f).probes q).period = (s.probes q).period := by
  by_cases hq : q = p
  · subst hq
    rw [count_probes_self]
    split
    · exact hf _
    · rfl
  · rw [count_probes_of_ne s hq]

theorem isOpen_turn (s : Shared) (p q : String) (now : Int) (l : Loop) :
    Turn s (s.isOpen p now) (.gate l) q := by
  by_cases hq : q = p
  · subst hq
    have hget := get_step_isOpen s.cb q now
    by_cases hopen : (s.cb.get q).state = .stateOpen ∧
        (s.cb.get q).timeoutElapsed s.cb.cfg.openTimeout now
    · rw [if_pos hopen] at hget
      change (s.isOpen q now).cb.get q = _ at hget
      rcases isOpen_cases s q now with ⟨hstate, hnew⟩ | ⟨hstate, -⟩
      · exact .period (by rw [hget]) ⟨hstate, hopen.1⟩ (by rw [hnew])
      · rw [hget, hopen.1] at hstate
        cases hstate
    · rw [if_neg hopen] at hget
      refine .same rfl hget ?_
      rcases isOpen_cases s q now with ⟨hstate, -⟩ | ⟨-, hsame⟩
      · -- the period starts only where an open circuit goes half-open
        show ((if _ then _ else _ : String → Probes) q).period = _
        rw [if_neg]
        rintro ⟨hwas, hnow⟩
        change ((s.isOpen q now).cb.get q).state = _ at hnow
        change (s.isOpen q now).cb.get q = _ at hget
        rw [hget, hwas] at hnow
        cases hnow
      · rw [hsame]
  · refine .same rfl ?_ (by rw [isOpen_probes_of_ne s hq])
    show ((s.cb.isOpen p now).1).get q = _
    rw [isOpen_fst, get_put_other hq]

variable {s s' : Shared} {t : Point} {q : String} {x : Input} {r : Router}

theorem Turn.congr {s₁ : Shared} (h : Turn s s₁ t q) (hcb : s'.cb = s₁.cb)
    (hperiod : (s'.probes q).period = (s₁.probes q).period) : Turn s s' t q := by
  cases h with
  | same ht h hp => exact .same ht (by rw [hcb, h]) (hperiod.trans hp)
  | period h hstate hp =>
    exact .period (by rw [hcb, h]) (by rw [hcb]; exact hstate) (hperiod.trans hp)
  | success target probe ht hq h hp =>
    exact .success target probe ht hq (by rw [hcb, h]) (hperiod.trans hp)
  | failure now h hp => exact .failure now (by rw [hcb, h]) (hperiod.trans hp)

theorem recordSuccess_other (cb : CircuitBreaker) {p : String} (hq : q ≠ p) :
    (cb.recordSuccess p).get q = cb.get q := by
  show (cb.step ⟨0, .recordSuccess p⟩).get q = _
  exact get_step_other (Ne.symm hq)

theorem recordFailure_other (cb : CircuitBreaker) {p : String} (hq : q ≠ p) (now : Int) :
    (cb.recordFailure p now).get q = cb.get q := by
  show (cb.step ⟨now, .recordFailure p⟩).get q = _
  exact get_step_other (Ne.symm hq)

theorem next_turn {registry : Registry} {t' : Point} (h : next registry s x t = some (s', t'))
    (q : String) : Turn s s' t q := by
  cases t with
  | gate l =>
    unfold next at h
    dsimp only at h
    split at h
    · cases h
      exact .same rfl rfl rfl
    case h_2 target ts _ =>
      have hturn := isOpen_turn s target.provider q x.now l
      split at h
      · cases h
        exact hturn
      · split at h
        · cases h
          exact hturn
        · cases h
          exact hturn.congr (count_cb ..) (count_period _ _ _ _ fun _ => rfl)
  | calling l target probe =>
    simp only [next] at h
    split at h
    · cases h
      exact .same rfl rfl rfl
    · split at h <;> cases h
      · exact .same rfl rfl rfl
      · exact .same rfl (by rw [count_cb]) (count_period _ _ _ _ fun _ => rfl)
  | succeeded target probe =>
    cases h
    have hperiod : ((Shared.count { s with cb := s.cb.recordSuccess target.provider }
        target.provider probe Probes.record).probes q).period = (s.probes q).period :=
      count_period { s with cb := s.cb.recordSuccess target.provider } _ _ _ fun _ => rfl
    by_cases hq : q = target.provider
    · exact .success target probe rfl hq.symm (by rw [count_cb, hq]) hperiod
    · exact .same (if_neg (Ne.symm hq)) (by rw [count_cb]; exact recordSuccess_other _ hq) hperiod
  | failing l target err probe =>
    cases h
    have hperiod : ((Shared.count { s with cb := s.cb.recordFailure target.provider x.now }
        target.provider probe Probes.record).probes q).period = (s.probes q).period :=
      count_period { s with cb := s.cb.recordFailure target.provider x.now } _ _ _ fun _ => rfl
    by_cases hq : q = target.provider
    · exact .failure x.now (by rw [count_cb, hq]) hperiod
    · exact .same rfl (by rw [count_cb]; exact recordFailure_other _ hq x.now) hperiod
  | done result => cases h

theorem next_cfg {registry : Registry} {t' : Point} (h : next registry s x t = some (s', t')) :
    s'.cb.cfg = s.cb.cfg := by
  cases t with
  | gate l =>
    unfold next at h
    dsimp only at h
    split at h
    · cases h
      rfl
    case h_2 target ts _ =>
      have hcfg : (s.isOpen target.provider x.now).cb.cfg = s.cb.cfg :=
        step_cfg s.cb ⟨x.now, .isOpen target.provider⟩
      split at h
      · cases h
        exact hcfg
      · split at h <;> cases h
        · exact hcfg
        · rw [count_cb, hcfg]
  | calling l target probe =>
    simp only [next] at h
    split at h
    · cases h
      rfl
    · split at h <;> cases h
      · rfl
      · rw [count_cb]
  | succeeded target probe =>
    cases h
    rw [count_cb]
    exact step_cfg s.cb ⟨x.now, .recordSuccess target.provider⟩
  | failing l target err probe =>
    cases h
    rw [count_cb]
    exact step_cfg s.cb ⟨x.now, .recordFailure target.provider⟩
  | done result => cases h

/-! ### Successes of the current period -/

structure Recovery where
  pool : Pool Shared Point
  successes : String → Nat := fun _ => 0
  earlier : String → Nat := fun _ => 0

def tally (counts : Option Nat → Bool) (s s' : Shared) (t : Point) (n : Nat) (q : String) : Nat :=
  if (s'.probes q).period = (s.probes q).period then
    n + (if (t.recording q).any counts then 1 else 0)
  else 0

def Shared.current (s : Shared) (q : String) (probe : Option Nat) : Bool :=
  decide (probe = some (s.probes q).period)

def Recovery.step (r : Router) (w : Recovery) : Move Call Input → Option Recovery
  | .start c => (w.pool.step (code r) (.start c)).map fun p => { w with pool := p }
  | .advance i x =>
    match w.pool.threads[i]? with
    | none => none
    | some t => (w.pool.step (code r) (.advance i x)).map fun p =>
      { pool := p
        successes := fun q => tally (w.pool.shared.current q) w.pool.shared p.shared t
          (w.successes q) q
        earlier := fun q => tally (fun probe => !w.pool.shared.current q probe) w.pool.shared
          p.shared t (w.earlier q) q }

def Recovery.init (cfg : Config) : Recovery := { pool := Pool.init { cb := Circuit.new cfg } }

def Recovery.state (w : Recovery) (q : String) : State := (w.pool.shared.cb.get q).state

variable {w : Recovery}

theorem Recovery.step_advance {w' : Recovery} {i : Nat} (h : w.step r (.advance i x) = some w') :
    ∃ t s' t', next r.registry w.pool.shared x t = some (s', t') ∧
      w' = { pool := ⟨s', w.pool.threads.set i t'⟩
             successes := fun q => tally (w.pool.shared.current q) w.pool.shared s' t
               (w.successes q) q
             earlier := fun q => tally (fun probe => !w.pool.shared.current q probe)
               w.pool.shared s' t (w.earlier q) q } := by
  cases ht : w.pool.threads[i]? with
  | none => simp only [Recovery.step, ht] at h; cases h
  | some t =>
    simp only [Recovery.step, ht] at h
    obtain ⟨p, hp, rfl⟩ := Option.map_eq_some_iff.mp h
    obtain ⟨u, s', t', hu, hnext, rfl⟩ := Pool.step_advance hp
    obtain rfl : u = t := Option.some.inj (hu.symm.trans ht)
    exact ⟨u, s', t', hnext, rfl⟩

/-! ### The breaker's counter -/

/-- The counts `a` and `b` account for the counter of a half-open circuit, which
is below the threshold. -/
def Accounts (s : Shared) (q : String) (a b : Nat) : Prop :=
  (s.cb.get q).state = .stateHalfOpen →
    (s.cb.get q).successes = (a + b : Nat) ∧
      (1 ≤ s.cb.cfg.successThreshold → (s.cb.get q).successes < s.cb.cfg.successThreshold)

theorem tally_idle {counts : Option Nat → Bool} {n : Nat}
    (hperiod : (s'.probes q).period = (s.probes q).period) (ht : t.recording q = none) :
    tally counts s s' t n q = n := by
  rw [tally, if_pos hperiod, ht]
  rfl

theorem tally_period {counts : Option Nat → Bool} {n : Nat}
    (hperiod : (s'.probes q).period = (s.probes q).period + 1) : tally counts s s' t n q = 0 := by
  rw [tally, if_neg (by omega)]

theorem tally_success {t : Target} (probe : Option Nat) {a b : Nat}
    (hperiod : (s'.probes t.provider).period = (s.probes t.provider).period) :
    tally (s.current t.provider) s s' (.succeeded t probe) a t.provider +
      tally (fun probe => !s.current t.provider probe) s s' (.succeeded t probe) b t.provider =
        a + b + 1 := by
  have hrec : (Point.succeeded t probe).recording t.provider = some probe := if_pos rfl
  rw [tally, tally, if_pos hperiod, if_pos hperiod, hrec]
  cases hcur : s.current t.provider probe with
  | true =>
    simp only [Option.any_some, hcur, if_true, Bool.not_true, Bool.false_eq_true, if_false]
    omega
  | false =>
    simp only [Option.any_some, hcur, Bool.not_false, if_true, Bool.false_eq_true, if_false]
    omega

theorem state_recordFailure (cb : CircuitBreaker) (q : String) (now : Int) :
    ((cb.recordFailure q now).get q).state ≠ .stateHalfOpen ∧
      ((cb.get q).state = .stateHalfOpen →
        ((cb.recordFailure q now).get q).state = .stateOpen) := by
  have hget := get_step_recordFailure cb q now
  change (cb.recordFailure q now).get q = _ at hget
  rw [hget]
  cases hstate : (cb.get q).state with
  | stateClosed => refine ⟨?_, fun h => (by cases h)⟩; dsimp only; split <;> simp [hstate]
  | stateOpen => exact ⟨by simp [hstate], fun h => by cases h⟩
  | stateHalfOpen => exact ⟨by simp, fun _ => rfl⟩

/-- One operation keeps the account of a provider; when it closes the circuit, the counts make the
threshold. -/
theorem accounts_turn {a b a' b' : Nat} (hcfg : s'.cb.cfg = s.cb.cfg) (hturn : Turn s s' t q)
    (hacc : Accounts s q a b) (ha : a' = tally (s.current q) s s' t a q)
    (hb : b' = tally (fun probe => !s.current q probe) s s' t b q) :
    Accounts s' q a' b' ∧
      ((s.cb.get q).state = .stateHalfOpen → (s'.cb.get q).state = .stateClosed →
        s.cb.cfg.successThreshold ≤ (a' + b' : Nat) ∧
          (1 ≤ s.cb.cfg.successThreshold → (a' + b' : Nat) = s.cb.cfg.successThreshold)) := by
  unfold Accounts at hacc ⊢
  rw [hcfg]
  cases hturn with
  | same ht h hperiod =>
    rw [tally_idle hperiod ht] at ha hb
    subst ha hb
    rw [h]
    refine ⟨hacc, fun hhalf hclosed => ?_⟩
    rw [hhalf] at hclosed
    cases hclosed
  | period h hstate hperiod =>
    rw [tally_period hperiod] at ha hb
    subst ha hb
    rw [h]
    refine ⟨fun _ => ⟨rfl, fun hpos => by omega⟩, fun hhalf _ => ?_⟩
    rw [hstate.2] at hhalf
    cases hhalf
  | failure now h hperiod =>
    obtain ⟨hnot, hopens⟩ := state_recordFailure s.cb q now
    rw [h]
    refine ⟨fun hhalf => absurd hhalf hnot, fun hhalf hclosed => ?_⟩
    rw [hopens hhalf] at hclosed
    cases hclosed
  | success target probe ht hq h hperiod =>
    subst ht hq
    have hsum := tally_success probe (a := a) (b := b) hperiod
    rw [← ha, ← hb] at hsum
    have hget := get_step_recordSuccess s.cb target.provider 0
    change (s.cb.recordSuccess target.provider).get target.provider = _ at hget
    rw [h, hget]
    cases hstate : (s.cb.get target.provider).state with
    | stateClosed => exact ⟨fun hhalf => by simp [hstate] at hhalf, fun hhalf => by cases hhalf⟩
    | stateOpen => exact ⟨fun hhalf => by simp [hstate] at hhalf, fun hhalf => by cases hhalf⟩
    | stateHalfOpen =>
      obtain ⟨hcount, hbelow⟩ := hacc hstate
      dsimp only
      split
      case isTrue hreached =>
        refine ⟨fun hhalf => (by cases hhalf), fun _ _ => ⟨by omega, fun hpos => ?_⟩⟩
        have := hbelow hpos
        omega
      case isFalse hmore =>
        refine ⟨fun _ => ⟨?_, fun _ => by dsimp only; omega⟩, fun _ hclosed => ?_⟩
        · show (s.cb.get target.provider).successes + 1 = _
          omega
        · rw [hstate] at hclosed
          cases hclosed

structure Recovery.Inv (cfg : Config) (w : Recovery) : Prop where
  cfg : w.pool.shared.cb.cfg = cfg
  accounts : ∀ q, Accounts w.pool.shared q (w.successes q) (w.earlier q)

theorem Recovery.inv_step {cfg : Config} {w' : Recovery} {m : Move Call Input} (hw : w.Inv cfg)
    (h : w.step r m = some w') : w'.Inv cfg := by
  cases m with
  | start c =>
    obtain rfl : _ = w' := Option.some.inj h
    exact ⟨hw.cfg, hw.accounts⟩
  | advance i x =>
    obtain ⟨t, s', t', hnext, rfl⟩ := Recovery.step_advance h
    refine ⟨(next_cfg hnext).trans hw.cfg, fun q => ?_⟩
    exact (accounts_turn (next_cfg hnext) (next_turn hnext q) (hw.accounts q) rfl rfl).1

/-- The accounts are right after every run. -/
theorem Recovery.inv_run {cfg : Config} {ms : List (Move Call Input)}
    (hrun : runFrom (Recovery.step r) (Recovery.init cfg) ms = some w) : w.Inv cfg := by
  have hinit : (Recovery.init cfg).Inv cfg := ⟨rfl, fun q hq => by cases hq⟩
  exact runFrom_preserves (fun _ _ _ hw h => Recovery.inv_step hw h) hinit hrun

/-- **Recovery is judged by probes.** When a move closes a half-open circuit, `SuccessThreshold`
successes of requests admitted since it went half-open have been recorded iff no success of an
earlier request has. (A threshold that is not positive asks for none.) -/
theorem recovery_by_probes {r : Router} {cfg : Config} {ms : List (Move Call Input)}
    {m : Move Call Input} {w w' : Recovery}
    (hrun : runFrom (Recovery.step r) (Recovery.init cfg) ms = some w)
    (hstep : w.step r m = some w') (q : String) (hhalf : w.state q = .stateHalfOpen)
    (hclosed : w'.state q = .stateClosed) :
    cfg.successThreshold ≤ (w'.successes q : Int) ↔
      w'.earlier q = 0 ∨ cfg.successThreshold ≤ 0 := by
  have hw := Recovery.inv_run hrun
  cases m with
  | start c =>
    obtain rfl : _ = w' := Option.some.inj hstep
    exact absurd (hhalf.symm.trans hclosed) (by decide)
  | advance i x =>
    obtain ⟨t, s', t', hnext, hw'⟩ := Recovery.step_advance hstep
    have hsucc := congrArg (fun w : Recovery => w.successes q) hw'
    have hearlier := congrArg (fun w : Recovery => w.earlier q) hw'
    subst hw'
    obtain ⟨hreached, hexact⟩ := (accounts_turn (next_cfg hnext) (next_turn hnext q)
      (hw.accounts q) hsucc hearlier).2 hhalf hclosed
    rw [hw.cfg] at hreached hexact
    omega

def twoProbes : List (Move Call Input) :=
  [.start (.execute openaiChain), .advance 5 { now := 60000000004 }, .advance 5 {},
    .advance 5 {}, .start (.executeStream openaiChain), .advance 6 { now := 60000000005 },
    .advance 6 {}]

theorem recovery_by_two_probes :
    ∃ w w', runFrom (Recovery.step oneProvider) (Recovery.init defaultConfig)
        (fiveFailures ++ twoProbes) = some w ∧
      w.step oneProvider (.advance 6 {}) = some w' ∧
      w.state "openai" = .stateHalfOpen ∧ w'.state "openai" = .stateClosed ∧
      w'.earlier "openai" = 0 ∧
      defaultConfig.successThreshold ≤ (w'.successes "openai" : Int) := by
  have hrun : runFrom (Recovery.step oneProvider) (Recovery.init defaultConfig)
    (fiveFailures ++ twoProbes) = some _ := rfl
  refine ⟨_, _, hrun, rfl, rfl, rfl, rfl, ?_⟩
  exact (recovery_by_probes (m := .advance 6 {}) hrun rfl "openai" rfl rfl).mpr (.inl rfl)

def slowAnswers : List (Move Call Input) :=
  [.start (.execute openaiChain), .start (.execute openaiChain), .advance 0 {}, .advance 1 {}] ++
    ((List.range 5).flatMap fun i => failedCall (i + 2) i) ++
    [.start (.execute openaiChain), .advance 7 { now := 60000000004 }, .advance 0 {},
      .advance 0 {}, .advance 1 {}]

theorem closed_by_earlier_requests :
    ∃ w w', runFrom (Recovery.step oneProvider) (Recovery.init defaultConfig) slowAnswers =
        some w ∧
      w.step oneProvider (.advance 1 {}) = some w' ∧
      w.state "openai" = .stateHalfOpen ∧ w'.state "openai" = .stateClosed ∧
      w'.successes "openai" = 0 ∧
      ¬ defaultConfig.successThreshold ≤ (w'.successes "openai" : Int) :=
  ⟨_, _, rfl, rfl, rfl, rfl, rfl, by decide⟩

end Probe

end LlmRouter.Gateway
