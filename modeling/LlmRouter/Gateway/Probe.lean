import LlmRouter.Gateway.Fallback
import LlmRouter.Lib.Pool

/-!
# LlmRouter — probes of a half-open circuit

`Router.Execute` and `Router.ExecuteStream` calls as threads over one circuit breaker. A call asks
`IsOpen`, sends its request and records the outcome in three operations; alone it does what
`execute` says (`execute_alone`). "One probe request allowed" is the comment on `StateHalfOpen`;
`single_probe` says when that is so.
-/

namespace LlmRouter.Gateway

open Lib Circuit

namespace Probe

/-! ### Calls as threads -/

structure Probes where
  period : Nat := 0
  admitted : Nat := 0
  recorded : Nat := 0
  abandoned : Nat := 0
  deriving DecidableEq, Repr

structure Shared where
  cb : CircuitBreaker
  probes : String → Probes := fun _ => {}

/-- The loop of `Execute` and `ExecuteStream`: the targets still to be tried. -/
structure Loop where
  exhausted : String
  chain : String
  targets : List Target
  tried : Nat := 0
  lastErr : Option GoError := none

def Loop.err (x : Loop) : GoError :=
  if x.tried = 0 then
    .other ("no available providers in chain " ++ goQuote x.chain ++ " (all circuits open)")
  else
    match x.lastErr with
    | some err => .wrap (x.exhausted ++ " for chain " ++ goQuote x.chain ++ ": ") err
    | none => .other ("no providers in fallback chain " ++ goQuote x.chain)

/-- `probe` is the half-open period in which the request was admitted, if there was one. -/
inductive Point where
  | gate (x : Loop)
  | calling (x : Loop) (t : Target) (probe : Option Nat)
  | succeeded (t : Target) (probe : Option Nat)
  | failing (x : Loop) (t : Target) (err : GoError) (probe : Option Nat)
  | done (result : Except (Target × GoError) Target)

/-- What an operation meets: the clock, or the provider's answer. -/
structure Input where
  now : Int := 0
  outcome : Except GoError Unit := .ok ()

variable (s : Shared) (p : String)

/-- The breaker after `IsOpen`; a new period starts when it lets the circuit go
half-open. -/
def Shared.isOpen (now : Int) : Shared where
  cb := (s.cb.isOpen p now).1
  probes :=
    if (s.cb.get p).state = .stateOpen ∧ ((s.cb.isOpen p now).1.get p).state = .stateHalfOpen then
      Function.update s.probes p { period := (s.probes p).period + 1 }
    else s.probes

def Shared.probe : Option Nat :=
  if (s.cb.get p).state = .stateHalfOpen then some (s.probes p).period else none

def Shared.count (probe : Option Nat) (f : Probes → Probes) : Shared :=
  if probe = some (s.probes p).period then
    { s with probes := Function.update s.probes p (f (s.probes p)) }
  else s

def Probes.admit (n : Probes) : Probes := { n with admitted := n.admitted + 1 }

def Probes.record (n : Probes) : Probes := { n with recorded := n.recorded + 1 }

def Probes.abandon (n : Probes) : Probes := { n with abandoned := n.abandoned + 1 }

def next (registry : Registry) (s : Shared) (x : Input) : Point → Option (Shared × Point)
  | .gate l =>
    match l.targets with
    | [] => some (s, .done (.error ({ provider := "", model := "" }, l.err)))
    | t :: ts =>
      let s' := s.isOpen t.provider x.now
      if (s.cb.isOpen t.provider x.now).2 then some (s', .gate { l with targets := ts })
      else
        match registry.get t.provider with
        | none => some (s', .gate { l with targets := ts })
        | some _ =>
          let probe := s'.probe t.provider
          some (s'.count t.provider probe Probes.admit, .calling { l with targets := ts } t probe)
  | .calling l t probe =>
    match x.outcome with
    | .ok _ => some (s, .succeeded t probe)
    | .error err =>
      if isFallbackError err then some (s, .failing l t err probe)
      else some (s.count t.provider probe Probes.abandon, .done (.error (t, err)))
  | .succeeded t probe =>
    some (({ s with cb := s.cb.recordSuccess t.provider } : Shared).count t.provider probe
      Probes.record, .done (.ok t))
  | .failing l t err probe =>
    some (({ s with cb := s.cb.recordFailure t.provider x.now } : Shared).count t.provider probe
      Probes.record, .gate { l with tried := l.tried + 1, lastErr := some err })
  | .done _ => none

inductive Call where
  | execute (chain : Chain)
  | executeStream (chain : Chain)

def code (r : Router) : Code Shared Call Point Input where
  start
    | .execute chain =>
      .gate { exhausted := "all fallbacks exhausted", chain := chain.name,
              targets := r.sorted chain }
    | .executeStream chain =>
      .gate { exhausted := "all stream fallbacks exhausted", chain := chain.name,
              targets := r.sorted chain }
  next := next r.registry

@[simp] theorem count_cb (probe : Option Nat) (f : Probes → Probes) :
    (s.count p probe f).cb = s.cb := by
  unfold Shared.count
  split <;> rfl

/-! ### A call alone -/

variable {s s' : Shared} {t t' : Point} {x : Input} {registry : Registry} {p : Pool Shared Point}
  {q : String}

theorem alone_step {r : Router} {s₁ : Shared} {t₁ : Point}
    (h : next r.registry s x t = some (s₁, t₁)) (xs : List Input) :
    (code r).alone s t (x :: xs) = (code r).alone s₁ t₁ xs := by
  show ((next r.registry s x t).bind fun r' => (code r).alone r'.1 r'.2 xs) = _
  rw [h]
  rfl

theorem next_admitted {l : Loop} {t : Target} {ts : List Target} {p : Provider}
    (hl : l.targets = t :: ts) (hopen : (s.cb.isOpen t.provider x.now).2 = false)
    (hreg : registry.get t.provider = some p) :
    next registry s x (.gate l) =
      some ((s.isOpen t.provider x.now).count t.provider
          ((s.isOpen t.provider x.now).probe t.provider) Probes.admit,
        .calling { l with targets := ts } t ((s.isOpen t.provider x.now).probe t.provider)) := by
  simp only [next, hl, hopen, hreg, Bool.false_eq_true, if_false]

theorem next_stopped {l : Loop} {t : Target} {probe : Option Nat} {err : GoError}
    (hout : x.outcome = .error err) (hstop : isFallbackError err = false) :
    next registry s x (.calling l t probe) =
      some (s.count t.provider probe Probes.abandon, .done (.error (t, err))) := by
  simp only [next, hout, hstop, Bool.false_eq_true, if_false]

theorem tryTargets_alone {α : Type} (r : Router) {env : Env}
    (hothers : ∀ n cb, env.others n cb = cb)
    {attempt : Provider → Target → Session → Session × Except GoError α}
    (hcb : ∀ p t s, (attempt p t s).1.cb = s.cb) (exhausted chain : String) (ts : List Target)
    (tried : Nat) (lastErr : Option GoError) (s : Session) (sh : Shared) (hs : sh.cb = s.cb) :
    ∃ xs sh', (code r).alone sh (.gate ⟨exhausted, chain, ts, tried, lastErr⟩) xs =
        some (sh', .done
          ((r.tryTargets env attempt exhausted chain ts tried lastErr s).2.map Prod.snd)) ∧
      sh'.cb = (r.tryTargets env attempt exhausted chain ts tried lastErr s).1.cb := by
  induction ts generalizing tried lastErr s sh with
  | nil => exact ⟨[{}], sh, rfl, hs⟩
  | cons t ts ih =>
    -- what the call's own `IsOpen` leaves
    have hgate : (sh.isOpen t.provider (env.clock s.accesses)).cb =
        (s.isOpen env t.provider).1.cb := by
      simp only [Shared.isOpen, Session.isOpen, hothers, hs]
    have hopen : (sh.cb.isOpen t.provider (env.clock s.accesses)).2 =
        (s.isOpen env t.provider).2 := by
      simp only [Session.isOpen, hothers, hs]
    unfold Router.tryTargets
    dsimp only
    by_cases hblocked : (s.isOpen env t.provider).2 = true
    · rw [if_pos hblocked]
      obtain ⟨xs, sh', halone, hcb'⟩ := ih tried lastErr _ _ hgate
      refine ⟨{ now := env.clock s.accesses } :: xs, sh', ?_, hcb'⟩
      rw [← halone]
      exact alone_step (by simp [next, hopen, hblocked]) xs
    · rw [if_neg hblocked]
      cases hreg : r.registry.get t.provider with
      | none =>
        obtain ⟨xs, sh', halone, hcb'⟩ := ih tried lastErr _ _ hgate
        refine ⟨{ now := env.clock s.accesses } :: xs, sh', ?_, hcb'⟩
        rw [← halone]
        exact alone_step (by simp [next, hopen, hblocked, hreg]) xs
      | some p =>
        dsimp only
        -- admitted: the request is in flight
        have hstep := next_admitted (s := sh)
          (x := { now := env.clock s.accesses }) (l := ⟨exhausted, chain, t :: ts, tried, lastErr⟩)
          rfl (hopen.trans (Bool.eq_false_iff.mpr hblocked)) hreg
        generalize (sh.isOpen t.provider (env.clock s.accesses)).probe t.provider = probe at hstep
        have hcb₁ := (count_cb (sh.isOpen t.provider (env.clock s.accesses)) t.provider probe
          Probes.admit).trans hgate
        generalize (sh.isOpen t.provider (env.clock s.accesses)).count t.provider probe
          Probes.admit = sh₁ at hstep hcb₁
        have hout : sh₁.cb = (attempt p t (s.isOpen env t.provider).1).1.cb := by
          rw [hcb, hcb₁]
        generalize attempt p t (s.isOpen env t.provider).1 = out at hout ⊢
        obtain ⟨s₂, res⟩ := out
        cases res with
        | ok v =>
          refine ⟨[{ now := env.clock s.accesses }, {}, {}],
            ({ sh₁ with cb := sh₁.cb.recordSuccess t.provider } : Shared).count t.provider probe
              Probes.record, ?_, ?_⟩
          · have hanswer : next r.registry sh₁ {}
                (.calling ⟨exhausted, chain, ts, tried, lastErr⟩ t probe) =
                some (sh₁, .succeeded t probe) := rfl
            rw [alone_step hstep, alone_step hanswer, alone_step rfl]
            rfl
          · simp only [count_cb, Session.recordSuccess, hothers]
            rw [hout]
        | error err =>
          by_cases hfb : isFallbackError err = true
          · simp only [hfb, if_true]
            have hrec : (({ sh₁ with
                cb := sh₁.cb.recordFailure t.provider (env.clock s₂.accesses) } : Shared).count
                t.provider probe Probes.record).cb = (s₂.recordFailure env t.provider).cb := by
              simp only [count_cb, Session.recordFailure, hothers]
              rw [hout]
            obtain ⟨xs, sh', halone, hcb'⟩ := ih (tried + 1) (some err) _ _ hrec
            refine ⟨{ now := env.clock s.accesses } :: { outcome := .error err } ::
              { now := env.clock s₂.accesses } :: xs, sh', ?_, hcb'⟩
            have hanswer : next r.registry sh₁ { outcome := .error err }
                (.calling ⟨exhausted, chain, ts, tried, lastErr⟩ t probe) =
                some (sh₁, .failing ⟨exhausted, chain, ts, tried, lastErr⟩ t err probe) := by
              simp [next, hfb]
            rw [alone_step hstep, alone_step hanswer, alone_step rfl]
            exact halone
          · simp only [hfb, Bool.false_eq_true, if_false]
            refine ⟨[{ now := env.clock s.accesses }, { outcome := .error err }],
              sh₁.count t.provider probe Probes.abandon, ?_, ?_⟩
            · rw [alone_step hstep, alone_step (next_stopped rfl (Bool.eq_false_iff.mpr hfb))]
              rfl
            · rw [count_cb, hout]

/-- Without others in between, the operations make up `Execute`. -/
theorem execute_alone (r : Router) {env : Env} (hothers : ∀ n cb, env.others n cb = cb)
    (chain : Chain) (req : ChatCompletionRequest) (rawBody : String) (s : Session) (sh : Shared)
    (hs : sh.cb = s.cb) :
    ∃ xs sh', (code r).alone sh ((code r).start (.execute chain)) xs =
        some (sh', .done ((r.execute env chain req rawBody s).2.map Prod.snd)) ∧
      sh'.cb = (r.execute env chain req rawBody s).1.cb :=
  tryTargets_alone r hothers
    (fun p t s => chatWithRetry_keeps (f := Session.cb) env req rawBody p t s fun _ => rfl)
    _ _ _ _ _ _ _ hs

theorem executeStream_alone (r : Router) {env : Env} (hothers : ∀ n cb, env.others n cb = cb)
    (chain : Chain) (req : ChatCompletionRequest) (rawBody : String) (s : Session) (sh : Shared)
    (hs : sh.cb = s.cb) :
    ∃ xs sh', (code r).alone sh ((code r).start (.executeStream chain)) xs =
        some (sh', .done ((r.executeStream env chain req rawBody s).2.map Prod.snd)) ∧
      sh'.cb = (r.executeStream env chain req rawBody s).1.cb :=
  tryTargets_alone r hothers (fun _ _ _ => rfl) _ _ _ _ _ _ _ hs

/-! ### What one operation counts -/

def Point.probing (q : String) (n : Nat) : Point → Bool
  | .calling _ t probe | .succeeded t probe | .failing _ t _ probe =>
    decide (t.provider = q ∧ probe = some n)
  | .gate _ | .done _ => false

def Point.asks : Point → Option String
  | .gate l => l.targets.head?.map Target.provider
  | _ => none

inductive Effect (cb : CircuitBreaker) (q : String) (n n' : Probes) (t t' : Point) : Prop where
  | nothing (h : n' = n) (ht : t'.probing q n.period = t.probing q n.period)
      (hpast : ∀ k, t'.probing q k = true → t.probing q k = true ∨ k ≤ n.period)
  | period (h : n' = { period := n.period + 1 }) (ht : ∀ k, t'.probing q k = false)
  | firstProbe (h : n' = { period := n.period + 1, admitted := 1 })
      (ht : ∀ k, t'.probing q k = decide (k = n.period + 1)) (ht₀ : ∀ k, t.probing q k = false)
  | admitted (hasks : t.asks = some q) (hopen : (cb.get q).state = .stateHalfOpen)
      (h : n' = n.admit)
      (ht : ∀ k, t'.probing q k = decide (k = n.period)) (ht₀ : ∀ k, t.probing q k = false)
  | recorded (h : n' = n.record) (ht : ∀ k, t'.probing q k = false)
      (ht₀ : t.probing q n.period = true)
  | abandoned (h : n' = n.abandon) (ht : ∀ k, t'.probing q k = false)
      (ht₀ : t.probing q n.period = true)

theorem state_isOpen (cb : CircuitBreaker) (p : String) (now : Int) :
    ((cb.isOpen p now).1.get p).state =
      if (cb.get p).state = .stateOpen ∧ (cb.get p).timeoutElapsed cb.cfg.openTimeout now then
        .stateHalfOpen
      else (cb.get p).state := by
  rw [isOpen_fst, get_put_same]
  split <;> rfl

theorem isOpen_cases (s : Shared) (p : String) (now : Int) :
    (((s.isOpen p now).cb.get p).state = .stateHalfOpen ∧
        (s.isOpen p now).probes p = { period := (s.probes p).period + 1 }) ∨
      (((s.isOpen p now).cb.get p).state = (s.cb.get p).state ∧
        (s.isOpen p now).probes p = s.probes p) := by
  have hstate := state_isOpen s.cb p now
  by_cases hopen : (s.cb.get p).state = .stateOpen ∧
      (s.cb.get p).timeoutElapsed s.cb.cfg.openTimeout now
  · rw [if_pos hopen] at hstate
    refine .inl ⟨hstate, ?_⟩
    show (if _ then _ else _ : String → Probes) p = _
    rw [if_pos ⟨hopen.1, hstate⟩, Function.update_self]
  · rw [if_neg hopen] at hstate
    refine .inr ⟨hstate, ?_⟩
    show (if _ then _ else _ : String → Probes) p = _
    rw [if_neg]
    rintro ⟨h₁, h₂⟩
    rw [hstate, h₁] at h₂
    cases h₂

theorem isOpen_probes_of_ne (s : Shared) {p : String} (hq : q ≠ p) (now : Int) :
    (s.isOpen p now).probes q = s.probes q := by
  show (if _ then _ else _ : String → Probes) q = _
  split
  · rw [Function.update_of_ne hq]
  · rfl

theorem count_probes_of_ne (s : Shared) {p : String} (hq : q ≠ p) (probe : Option Nat)
    (f : Probes → Probes) : (s.count p probe f).probes q = s.probes q := by
  unfold Shared.count
  split
  · exact Function.update_of_ne hq ..
  · rfl

theorem count_probes_self (s : Shared) (p : String) (probe : Option Nat) (f : Probes → Probes) :
    (s.count p probe f).probes p =
      if probe = some (s.probes p).period then f (s.probes p) else s.probes p := by
  unfold Shared.count
  split
  · exact Function.update_self ..
  · rfl

variable {cb : CircuitBreaker}

theorem Effect.idle {n n' : Probes} (h : n' = n) (ht : ∀ k, t.probing q k = false)
    (ht' : ∀ k, t'.probing q k = false) : Effect cb q n n' t t' :=
  .nothing h (by rw [ht, ht']) fun k hk => by rw [ht' k] at hk; cases hk

theorem Effect.ended {p : String} {probe : Option Nat} {f : Probes → Probes}
    (hp : ∀ k, t.probing q k = decide (p = q ∧ probe = some k)) (ht' : ∀ k, t'.probing q k = false)
    (hcount : t.probing q (s.probes q).period = true →
      Effect cb q (s.probes q) (f (s.probes q)) t t') :
    Effect cb q (s.probes q) ((s.count p probe f).probes q) t t' := by
  have hnot : t.probing q (s.probes q).period = false →
      Effect cb q (s.probes q) (s.probes q) t t' := fun h =>
    .nothing rfl (by rw [h, ht']) fun k hk => by rw [ht' k] at hk; cases hk
  by_cases hq : q = p
  · subst hq
    rw [count_probes_self]
    split
    case isTrue hprobe => exact hcount (by rw [hp]; simpa using hprobe)
    case isFalse hprobe => exact hnot (by rw [hp]; simpa using hprobe)
  · rw [count_probes_of_ne s hq]
    exact hnot (by rw [hp]; simpa using fun h => absurd h.symm hq)

theorem effect_gate {l : Loop} (h : next registry s x (.gate l) = some (s', t')) (q : String) :
    Effect s.cb q (s.probes q) (s'.probes q) (.gate l) t' := by
  unfold next at h
  dsimp only at h
  split at h
  · cases h
    exact .idle rfl (fun _ => rfl) fun _ => rfl
  case h_2 t ts hts =>
    -- `IsOpen` alone: a new period at most
    have hskip : ∀ l', Effect s.cb q (s.probes q)
        ((s.isOpen t.provider x.now).probes q) (.gate l) (.gate l') := by
      intro l'
      by_cases hq : q = t.provider
      · subst hq
        rcases isOpen_cases s t.provider x.now with ⟨-, hnew⟩ | ⟨-, hsame⟩
        · exact .period hnew fun _ => rfl
        · exact .idle hsame (fun _ => rfl) fun _ => rfl
      · exact .idle (isOpen_probes_of_ne s hq x.now) (fun _ => rfl) fun _ => rfl
    split at h
    · cases h
      exact hskip _
    · split at h
      · cases h
        exact hskip _
      · cases h
        by_cases hq : q = t.provider
        · subst hq
          rw [count_probes_self]
          have hprobing : ∀ l' probe k, (Point.calling l' t probe).probing t.provider k =
              decide (probe = some k) := by
            intro l' probe k
            simp [Point.probing]
          rcases isOpen_cases s t.provider x.now with ⟨hhalf, hnew⟩ | ⟨hstate, hsame⟩
          · -- the first request of a period
            have hprobe : (s.isOpen t.provider x.now).probe t.provider =
                some ((s.probes t.provider).period + 1) := by
              rw [Shared.probe, if_pos hhalf, hnew]
            rw [hprobe, hnew, if_pos rfl]
            refine .firstProbe rfl (fun k => ?_) fun _ => rfl
            rw [hprobing]
            simp [eq_comm]
          · by_cases hhalf : (s.cb.get t.provider).state = .stateHalfOpen
            · have hprobe : (s.isOpen t.provider x.now).probe t.provider =
                  some (s.probes t.provider).period := by
                rw [Shared.probe, if_pos (hstate.trans hhalf), hsame]
              rw [hprobe, hsame, if_pos rfl]
              refine .admitted (by rw [Point.asks, hts]; rfl) hhalf rfl (fun k => ?_) fun _ => rfl
              rw [hprobing]
              simp [eq_comm]
            · have hprobe : (s.isOpen t.provider x.now).probe t.provider = none := by
                rw [Shared.probe, hstate, if_neg hhalf]
              rw [hprobe, if_neg (by simp)]
              exact .idle hsame (fun _ => rfl) fun k => by rw [hprobing]; rfl
        · rw [count_probes_of_ne _ hq]
          refine .idle (isOpen_probes_of_ne s hq x.now) (fun _ => rfl) fun k => ?_
          simpa [Point.probing] using fun h => absurd h.symm hq

/-- What an operation does to the probes of a provider. -/
theorem next_effect (h : next registry s x t = some (s', t')) (q : String) :
    Effect s.cb q (s.probes q) (s'.probes q) t t' := by
  cases t with
  | gate l => exact effect_gate h q
  | calling l t probe =>
    simp only [next] at h
    split at h
    · cases h
      exact .nothing rfl rfl fun _ hk => .inl hk
    case h_2 err _ =>
      split at h <;> cases h
      · exact .nothing rfl rfl fun _ hk => .inl hk
      · exact .ended (fun _ => rfl) (fun _ => rfl) fun ht => .abandoned rfl (fun _ => rfl) ht
  | succeeded t probe =>
    cases h
    exact Effect.ended (s := { s with cb := s.cb.recordSuccess t.provider }) (fun _ => rfl)
      (fun _ => rfl) fun ht => .recorded rfl (fun _ => rfl) ht
  | failing l t err probe =>
    cases h
    exact Effect.ended (s := { s with cb := s.cb.recordFailure t.provider x.now }) (fun _ => rfl)
      (fun _ => rfl) fun ht => .recorded rfl (fun _ => rfl) ht
  | done result => cases h

/-! ### One probe at a time -/

def inFlight (p : Pool Shared Point) (q : String) : Nat :=
  p.threads.countP (Point.probing q (p.shared.probes q).period)

/-- When a call asks `IsOpen` of a half-open circuit, every request admitted since it went half-open
has recorded its outcome. -/
def ProbeOk (p : Pool Shared Point) : Move Call Input → Prop
  | .start _ => True
  | .advance i _ => ∀ q ∈ p.threads[i]?.bind Point.asks,
      (p.shared.cb.get q).state = .stateHalfOpen →
      inFlight p q = 0 ∧ (p.shared.probes q).abandoned = 0

instance (p : Pool Shared Point) : ∀ m, Decidable (ProbeOk p m)
  | .start _ => isTrue trivial
  | .advance i _ => inferInstanceAs (Decidable (∀ q ∈ p.threads[i]?.bind Point.asks, _ → _))

structure Inv (p : Pool Shared Point) : Prop where
  balance : ∀ q, (p.shared.probes q).admitted =
    (p.shared.probes q).recorded + inFlight p q + (p.shared.probes q).abandoned
  single : ∀ q, (p.shared.probes q).admitted ≤ (p.shared.probes q).recorded + 1
  past : ∀ t ∈ p.threads, ∀ q k, t.probing q k = true → k ≤ (p.shared.probes q).period

theorem inv_start (hp : Inv p) (r : Router) (c : Call) :
    Inv { p with threads := p.threads ++ [(code r).start c] } := by
  have hnew : ∀ q k, ((code r).start c).probing q k = false := by
    intro q k
    cases c <;> rfl
  refine ⟨fun q => ?_, hp.single, fun t ht q k hk => ?_⟩
  · have hsame : inFlight { p with threads := p.threads ++ [(code r).start c] } q =
        inFlight p q := by
      simp [inFlight, List.countP_append, hnew]
    rw [hsame]
    exact hp.balance q
  · rcases List.mem_append.mp ht with ht | ht
    · exact hp.past t ht q k hk
    · rw [List.mem_singleton.mp ht, hnew] at hk
      cases hk

structure Account (q : String) (n : Probes) (ts : List Point) : Prop where
  balance : n.admitted = n.recorded + ts.countP (Point.probing q n.period) + n.abandoned
  single : n.admitted ≤ n.recorded + 1
  past : ∀ t ∈ ts, ∀ k, t.probing q k = true → k ≤ n.period

theorem Account.effect {n n' : Probes} {ts : List Point} (hn : Account q n ts) {i : Nat}
    (ht : ts[i]? = some t) (hok : t.asks = some q → (cb.get q).state = .stateHalfOpen →
      ts.countP (Point.probing q n.period) = 0 ∧ n.abandoned = 0) (h : Effect cb q n n' t t') :
    Account q n' (ts.set i t') := by
  obtain ⟨hbalance, hsingle, hpast⟩ := hn
  have hnow := countP_set_add ht t' (Point.probing q n.period)
  have hnext := countP_set_add ht t' (Point.probing q (n.period + 1))
  -- what the other threads hold does not lie ahead
  have hset : ∀ m, n.period ≤ m → (∀ k, t'.probing q k = true → k ≤ m) →
      ∀ u ∈ ts.set i t', ∀ k, u.probing q k = true → k ≤ m := by
    intro m hm hown u hu k hk
    rcases List.mem_or_eq_of_mem_set hu with hu | rfl
    · exact (hpast u hu k hk).trans hm
    · exact hown k hk
  have hahead : ts.countP (Point.probing q (n.period + 1)) = 0 := by
    refine List.countP_eq_zero.mpr fun u hu hk => ?_
    have := hpast u hu _ hk
    omega
  cases h with
  | nothing h hflag hown =>
    rw [hflag] at hnow
    refine h ▸ ⟨by omega, hsingle, hset _ le_rfl fun k hk => ?_⟩
    rcases hown k hk with hk | hk
    · exact hpast t (List.mem_of_getElem? ht) k hk
    · exact hk
  | period h hflag =>
    simp only [hflag, hahead, Bool.false_eq_true, if_false] at hnext
    refine h ▸ ⟨?_, Nat.zero_le _, hset _ (Nat.le_succ _) fun k hk => ?_⟩
    · dsimp only
      omega
    · simp [hflag] at hk
  | firstProbe h hflag hbefore =>
    simp only [hflag, hbefore, hahead, decide_true, Bool.false_eq_true, if_false, if_true] at hnext
    refine h ▸ ⟨?_, Nat.le_refl _, hset _ (Nat.le_succ _) fun k hk => ?_⟩
    · dsimp only
      omega
    · exact (of_decide_eq_true (hflag k ▸ hk)).le
  | admitted hasks hopen h hflag hbefore =>
    obtain ⟨hnone, hzero⟩ := hok hasks hopen
    simp only [hflag, hbefore, decide_true, Bool.false_eq_true, if_false, if_true] at hnow
    -- all admitted requests have been recorded: this is the only one
    refine h ▸ ⟨?_, ?_, hset _ le_rfl fun k hk => ?_⟩
    · dsimp only [ Probes.admit]
      omega
    · dsimp only [ Probes.admit]
      omega
    · exact (of_decide_eq_true (hflag k ▸ hk)).le
  | recorded h hflag hbefore =>
    simp only [hflag, hbefore, Bool.false_eq_true, if_false, if_true] at hnow
    refine h ▸ ⟨?_, hsingle.trans (Nat.le_succ _), hset _ le_rfl fun k hk => ?_⟩
    · dsimp only [Probes.record]
      omega
    · simp [hflag] at hk
  | abandoned h hflag hbefore =>
    simp only [hflag, hbefore, Bool.false_eq_true, if_false, if_true] at hnow
    refine h ▸ ⟨?_, hsingle, hset _ le_rfl fun k hk => ?_⟩
    · dsimp only [Probes.abandon]
      omega
    · simp [hflag] at hk

theorem inv_step {r : Router} {p' : Pool Shared Point} {m : Move Call Input} (hp : Inv p)
    (hok : ProbeOk p m) (h : p.step (code r) m = some p') : Inv p' := by
  cases m with
  | start c =>
    obtain rfl : _ = p' := Option.some.inj h
    exact inv_start hp r c
  | advance i x =>
    obtain ⟨t, s', t', ht, hnext, rfl⟩ := Pool.step_advance h
    have heffect : ∀ q, Account q (s'.probes q) (p.threads.set i t') := fun q =>
      Account.effect ⟨hp.balance q, hp.single q, fun u hu => hp.past u hu q⟩ ht
        (fun hasks => hok q (Option.bind_eq_some_iff.mpr ⟨t, ht, hasks⟩)) (next_effect hnext q)
    exact ⟨fun q => (heffect q).balance, fun q => (heffect q).single,
      fun u hu q => (heffect q).past u hu⟩

/-- **Single probe in half-open.** If no call asks `IsOpen` of a half-open circuit while a request
admitted since it went half-open is without an outcome, at most one request more has been admitted
since then than outcomes have been recorded. -/
theorem single_probe {r : Router} {cfg : Config} {ms : List (Move Call Input)}
    {p : Pool Shared Point}
    (hok : AlongFrom (Pool.step (code r)) ProbeOk (Pool.init { cb := Circuit.new cfg }) ms)
    (hrun : runFrom (Pool.step (code r)) (Pool.init { cb := Circuit.new cfg }) ms = some p)
    (q : String) : (p.shared.probes q).admitted ≤ (p.shared.probes q).recorded + 1 := by
  have hinit : Inv (Pool.init { cb := Circuit.new cfg }) :=
    ⟨fun _ => rfl, fun _ => Nat.zero_le _, fun _ ht => (by cases ht)⟩
  exact (runFrom_invariant (fun _ _ _ hp hok h => inv_step hp hok h) hinit hok hrun).single q

def oneProvider : Router := { registry := Registry.empty.register { name := "openai" } }

def openaiChain : Chain := singleTarget "openai" "gpt-4o"

def failedCall (i : Nat) (now : Int) : List (Move Call Input) :=
  [.start (.execute openaiChain), .advance i { now := now },
    .advance i { outcome := .error (.other "connection refused") }, .advance i { now := now }]

def fiveFailures : List (Move Call Input) := (List.range 5).flatMap fun i => failedCall i i

theorem single_probe_in_turn :
    ∃ p, runFrom (Pool.step (code oneProvider)) (Pool.init { cb := Circuit.new defaultConfig })
        (fiveFailures ++ [.start (.execute openaiChain), .advance 5 { now := 60000000004 },
          .advance 5 {}, .advance 5 {}, .start (.executeStream openaiChain),
          .advance 6 { now := 60000000005 }]) = some p ∧
      (p.shared.cb.get "openai").state = .stateHalfOpen ∧
      (p.shared.probes "openai").admitted = 2 ∧
      (p.shared.probes "openai").admitted ≤ (p.shared.probes "openai").recorded + 1 := by
  refine ⟨?p, ?hrun, ?hhalf, ?htwo, single_probe ?hok ?hrun "openai"⟩
  case hrun => rfl
  all_goals decide

theorem two_probes :
    ∃ p, runFrom (Pool.step (code oneProvider)) (Pool.init { cb := Circuit.new defaultConfig })
        (fiveFailures ++ [.start (.execute openaiChain), .start (.execute openaiChain),
          .advance 5 { now := 60000000004 }, .advance 6 { now := 60000000005 }]) = some p ∧
      (p.shared.cb.get "openai").state = .stateHalfOpen ∧
      (p.shared.probes "openai").admitted = 2 ∧ (p.shared.probes "openai").recorded = 0 :=
  ⟨_, rfl, by decide, by decide, by decide⟩

end Probe

end LlmRouter.Gateway
