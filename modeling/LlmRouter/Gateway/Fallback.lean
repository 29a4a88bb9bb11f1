import LlmRouter.Gateway.Retry
import LlmRouter.Lib.Weighted

/-!
# LlmRouter — the fallback router

`Router.execute` and `Router.executeStream` try the targets of a chain in order and move on when a
provider fails in a way that another target may not. Both are one loop (`Router.tryTargets`). A
load balancer may reorder the targets first; it carries the proof that it only permutes them.
-/

namespace LlmRouter.Gateway

open Lib Circuit
open Lib.Weighted (wrap)

structure Target where
  provider : String
  model : String
  weight : Int := 0
  deriving DecidableEq, Repr

structure Chain where
  name : String := ""
  targets : List Target := []
  deriving DecidableEq, Repr

def Chain.primary (c : Chain) : String := (c.targets.head?.map Target.provider).getD ""

def singleTarget (providerName model : String) : Chain :=
  { name := providerName, targets := [{ provider := providerName, model := model }] }

/-! ## Load balancers -/

/-- `fallback.LoadBalancer`, as it acts on one request: what it has drawn and
counted before is fixed. -/
structure LoadBalancer where
  sort : List Target → List Target
  perm : ∀ targets, (sort targets).Perm targets

def Target.effectiveWeight (t : Target) : Int := if t.weight ≤ 0 then 1 else t.weight

/-- The first target whose cumulative weight exceeds `pick`, the first target
if there is none. -/
def chosenTarget (pick : Int) (targets : List Target) : Nat :=
  go 0 targets 0
where
  go (cumulative : Int) : List Target → Nat → Nat
    | [], _ => 0
    | t :: ts, i =>
      if pick < wrap (cumulative + t.effectiveWeight) then i
      else go (wrap (cumulative + t.effectiveWeight)) ts (i + 1)

/-- `WeightedRandom.Sort` with `rand.Intn` at `pick`. -/
def LoadBalancer.weightedRandom (pick : Int) : LoadBalancer where
  sort := fun targets =>
    if targets.length ≤ 1 then targets
    else
      (targets[chosenTarget pick targets]?).toList ++ targets.eraseIdx (chosenTarget pick targets)
  perm := by
    intro targets
    split_ifs
    · exact .refl _
    · by_cases h : chosenTarget pick targets < targets.length
      · rw [List.getElem?_eq_getElem h]
        exact List.getElem_cons_eraseIdx_perm h
      · rw [List.getElem?_eq_none (not_lt.mp h), List.eraseIdx_of_length_le (not_lt.mp h)]
        exact .refl _

/-! ## The router -/

/-- `fallback.Router`; the circuit breaker is part of the session. -/
structure Router where
  registry : Registry
  lb : Option LoadBalancer := none

def isFallbackError (err : GoError) : Bool :=
  if err.isContext then false
  else
    match err.asGateway with
    | some gwErr => gwErr.isRetryable
    | none => true

namespace Router

variable {α : Type} (r : Router) (env : Env)
  (attempt : Provider → Target → Session → Session × Except GoError α)

/-- The loop of `Execute` and `ExecuteStream`. The error carries the target returned with it. -/
def tryTargets (exhausted chain : String) :
    List Target → (tried : Nat) → (lastErr : Option GoError) → Session →
      Session × Except (Target × GoError) (α × Target)
  | [], tried, lastErr, s =>
    let err : GoError :=
      if tried = 0 then
        .other ("no available providers in chain " ++ goQuote chain ++ " (all circuits open)")
      else
        match lastErr with
        | some err => .wrap (exhausted ++ " for chain " ++ goQuote chain ++ ": ") err
        | none => .other ("no providers in fallback chain " ++ goQuote chain)
    (s, .error ({ provider := "", model := "" }, err))
  | t :: ts, tried, lastErr, s =>
    let gate := s.isOpen env t.provider
    if gate.2 then tryTargets exhausted chain ts tried lastErr gate.1
    else
      match r.registry.get t.provider with
      | none => tryTargets exhausted chain ts tried lastErr gate.1
      | some p =>
        let out := attempt p t gate.1
        match out.2 with
        | .ok v => (out.1.recordSuccess env t.provider, .ok (v, t))
        | .error err =>
          if isFallbackError err then
            tryTargets exhausted chain ts (tried + 1) (some err)
              (out.1.recordFailure env t.provider)
          else
            -- not retryable elsewhere (e.g. 400 bad request): return at once
            (out.1, .error (t, err))

def sorted (chain : Chain) : List Target :=
  match r.lb with
  | none => chain.targets
  | some lb => lb.sort chain.targets

end Router

/-- The closure of `Execute`. The pair is the session and the variable `resp`
that the closure assigns. -/
def chatAttempt (env : Env) (req : ChatCompletionRequest) (rawBody : String) (p : Provider)
    (t : Target) (st : Session × Option ChatCompletionResponse) :
    (Session × Option ChatCompletionResponse) × Option GoError :=
  let out := st.1.chatCompletion env p t.model req rawBody
  match out.2 with
  | .ok resp => ((out.1, some resp), none)
  | .error e => ((out.1, none), some e)

def chatWithRetry (env : Env) (req : ChatCompletionRequest) (rawBody : String) (p : Provider)
    (t : Target) (s : Session) : Session × Except GoError ChatCompletionResponse :=
  let out := Retry.execute RetryPolicy.default (fun st => env.jitter st.1.calls.length)
    (fun st d => env.ctxDone st.1.calls d) (chatAttempt env req rawBody p t) (s, none)
  match out.2, out.1.2 with
  | some err, _ => (out.1.1, .error err)
  | none, some resp => (out.1.1, .ok resp)
  -- no error and no response: only a policy without attempts gets here
  | none, none => (out.1.1, .error (.other "nil response"))

def Router.execute (r : Router) (env : Env) (chain : Chain) (req : ChatCompletionRequest)
    (rawBody : String) (s : Session) :
    Session × Except (Target × GoError) (ChatCompletionResponse × Target) :=
  r.tryTargets env (chatWithRetry env req rawBody) "all fallbacks exhausted" chain.name
    (r.sorted chain) 0 none s

/-- `Router.ExecuteStream`: no retries, a stream is committed once it is open. -/
def Router.executeStream (r : Router) (env : Env) (chain : Chain) (req : ChatCompletionRequest)
    (rawBody : String) (s : Session) :
    Session × Except (Target × GoError) (List StreamChunk × Target) :=
  r.tryTargets env
    (fun p t s => s.chatCompletionStream env p t.model req rawBody)
    "all stream fallbacks exhausted" chain.name (r.sorted chain) 0 none s

/-! ## Which providers are called -/

def Router.Reaches (r : Router) (ts : List Target) (c : Call) : Prop :=
  ∃ t ∈ ts, (r.registry.get t.provider).isSome ∧ c.provider = t.provider

def Target.call (t : Target) (stream : Bool) (req : ChatCompletionRequest) (rawBody : String) :
    Call :=
  if stream then .chatCompletionStream t.provider t.model req rawBody
  else .chatCompletion t.provider t.model req rawBody

@[simp] theorem Target.call_provider (t : Target) (stream : Bool) (req : ChatCompletionRequest)
    (rawBody : String) : (t.call stream req rawBody).provider = t.provider := by
  cases stream <;> rfl

def Router.Sends (r : Router) (stream : Bool) (ts : List Target) (req : ChatCompletionRequest)
    (rawBody : String) (c : Call) : Prop :=
  ∃ t ∈ ts, (r.registry.get t.provider).isSome ∧ c = t.call stream req rawBody

theorem Router.Sends.reaches {r : Router} {stream : Bool} {ts : List Target}
    {req : ChatCompletionRequest} {rawBody : String} {c : Call}
    (h : r.Sends stream ts req rawBody c) : r.Reaches ts c := by
  obtain ⟨t, ht, hreg, rfl⟩ := h
  exact ⟨t, ht, hreg, t.call_provider stream req rawBody⟩

namespace Router

variable {α : Type} {r : Router} {env : Env}
  {attempt : Provider → Target → Session → Session × Except GoError α}

theorem sorted_perm (r : Router) (chain : Chain) : (r.sorted chain).Perm chain.targets := by
  unfold sorted
  split
  · exact .refl _
  next lb _ => exact lb.perm _

theorem mem_sorted {chain : Chain} {t : Target} : t ∈ r.sorted chain ↔ t ∈ chain.targets :=
  (r.sorted_perm chain).mem_iff

theorem sends_of_sorted {chain : Chain} {t : Target} {p : Provider} {stream : Bool}
    {req : ChatCompletionRequest} {rawBody : String} {c : Call} (ht : t ∈ r.sorted chain)
    (hp : r.registry.get t.provider = some p)
    (hcall : p.name = t.provider → c = t.call stream req rawBody) :
    r.Sends stream chain.targets req rawBody c := by
  refine ⟨t, mem_sorted.mp ht, ?_, hcall (r.registry.keyed hp)⟩
  rw [hp]
  rfl

/-- The loop calls only targets of the list that are registered. -/
theorem tryTargets_grows (r : Router) (env : Env) {Q : Provider → Target → Call → Prop}
    (hattempt : ∀ p t s, Grows Session.calls (Q p t) s (attempt p t s).1)
    (exhausted chain : String) (ts : List Target) (tried : Nat) (lastErr : Option GoError)
    (s : Session) :
    Grows Session.calls (fun c => ∃ t ∈ ts, ∃ p, r.registry.get t.provider = some p ∧ Q p t c) s
      (r.tryTargets env attempt exhausted chain ts tried lastErr s).1 := by
  -- the rest of the loop stays within the rest of the targets
  have hrest : ∀ (t : Target) (ts : List Target) (c : Call),
      (∃ t ∈ ts, ∃ p, r.registry.get t.provider = some p ∧ Q p t c) →
      ∃ t' ∈ t :: ts, ∃ p, r.registry.get t'.provider = some p ∧ Q p t' c :=
    fun t ts c ⟨t', ht', hq⟩ => ⟨t', List.mem_cons_of_mem t ht', hq⟩
  have hfirst : ∀ (t : Target) (ts : List Target) (p : Provider),
      r.registry.get t.provider = some p → ∀ c, Q p t c →
      ∃ t' ∈ t :: ts, ∃ p, r.registry.get t'.provider = some p ∧ Q p t' c :=
    fun t ts p hp c hc => ⟨t, List.mem_cons_self, p, hp, hc⟩
  fun_induction tryTargets r env attempt exhausted chain ts tried lastErr s with
  | case1 => exact .of_eq rfl
  | case2 t ts _ _ _ _ _ ih | case3 t ts _ _ _ _ _ _ ih => exact ih.mono (hrest t ts)
  | case4 t ts _ _ _ gate _ p hp | case6 t ts _ _ _ gate _ p hp =>
    exact (hattempt p t gate.1).mono (hfirst t ts p hp)
  | case5 t ts _ _ _ gate _ p hp _ _ _ _ ih =>
    exact ((hattempt p t gate.1).mono (hfirst t ts p hp)).trans (ih.mono (hrest t ts))

theorem tryTargets_log (r : Router) (env : Env)
    (hattempt : ∀ p t s, (attempt p t s).1.log = s.log) (exhausted chain : String)
    (ts : List Target) (tried : Nat) (lastErr : Option GoError) (s : Session) :
    (r.tryTargets env attempt exhausted chain ts tried lastErr s).1.log = s.log := by
  fun_induction tryTargets r env attempt exhausted chain ts tried lastErr s with
  | case1 => rfl
  | case2 _ _ _ _ _ _ _ ih | case3 _ _ _ _ _ _ _ _ ih => exact ih
  | case4 t _ _ _ _ gate _ p | case6 t _ _ _ _ gate _ p => exact hattempt p t gate.1
  | case5 t _ _ _ _ gate _ p _ _ _ _ _ ih => exact ih.trans (hattempt p t gate.1)

/-- With the circuits closed, a registered target is called. -/
theorem tryTargets_called (r : Router) {Q : Provider → Target → Call → Prop}
    (hattempt : ∀ p t s, Grows Session.calls (Q p t) s (attempt p t s).1)
    (hcalls : ∀ p t s, s.calls.length < (attempt p t s).1.calls.length)
    (hclosed : ∀ (s : Session) p, (s.isOpen env p).2 = false) (exhausted chain : String)
    {ts : List Target} (hreg : ∃ t ∈ ts, (r.registry.get t.provider).isSome) (tried : Nat)
    (lastErr : Option GoError) (s : Session) :
    s.calls.length <
      (r.tryTargets env attempt exhausted chain ts tried lastErr s).1.calls.length := by
  fun_induction tryTargets r env attempt exhausted chain ts tried lastErr s with
  | case1 =>
    obtain ⟨t, ht, -⟩ := hreg
    cases ht
  | case2 t _ _ _ s _ hopen => cases (hclosed s t.provider).symm.trans hopen
  | case3 t ts _ _ s _ _ hnone ih =>
    -- an unregistered target is skipped: the registered one comes later
    obtain ⟨t', ht', hsome⟩ := hreg
    rcases List.mem_cons.mp ht' with rfl | ht'
    · rw [hnone] at hsome
      cases hsome
    · exact ih ⟨t', ht', hsome⟩
  | case4 t _ _ _ _ gate _ p | case6 t _ _ _ _ gate _ p => exact hcalls p t gate.1
  | case5 t ts tried _ _ gate _ p _ out err =>
    exact (hcalls p t gate.1).trans_le (tryTargets_grows r env hattempt exhausted chain ts
      (tried + 1) (some err) (Session.recordFailure env out.1 t.provider)).length_le

end Router

theorem chatCompletionStream_grows (env : Env) (s : Session) (p : Provider) (model : String)
    (req : ChatCompletionRequest) (rawBody : String) :
    Grows Session.calls (· = .chatCompletionStream p.name model req rawBody) s
      (s.chatCompletionStream env p model req rawBody).1 :=
  .one rfl rfl

theorem chatAttempt_calls (env : Env) (req : ChatCompletionRequest) (rawBody : String)
    (p : Provider) (t : Target) (st : Session × Option ChatCompletionResponse) :
    (chatAttempt env req rawBody p t st).1.1.calls =
      st.1.calls ++ [.chatCompletion p.name t.model req rawBody] := by
  unfold chatAttempt
  dsimp only
  split <;> rfl

theorem chatWithRetry_grows (env : Env) (req : ChatCompletionRequest) (rawBody : String)
    (p : Provider) (t : Target) (s : Session) :
    Grows Session.calls (· = .chatCompletion p.name t.model req rawBody) s
        (chatWithRetry env req rawBody p t s).1 ∧
      s.calls.length < (chatWithRetry env req rawBody p t s).1.calls.length := by
  set done := Retry.execute RetryPolicy.default (fun st => env.jitter st.1.calls.length)
    (fun st d => env.ctxDone st.1.calls d) (chatAttempt env req rawBody p t) (s, none) with hdone
  have hsession : (chatWithRetry env req rawBody p t s).1 = done.1.1 := by
    unfold chatWithRetry
    dsimp only
    split <;> rfl
  have hattempt : ∀ st, Grows Session.calls (· = .chatCompletion p.name t.model req rawBody) st.1
      (chatAttempt env req rawBody p t st).1.1 := fun st => .one (chatAttempt_calls ..) rfl
  have hfirst : Grows Session.calls (· = .chatCompletion p.name t.model req rawBody)
      (chatAttempt env req rawBody p t (s, none)).1.1 done.1.1 :=
    Retry.execute_first
      (R := fun a b => Grows Session.calls (· = .chatCompletion p.name t.model req rawBody) a.1 b.1)
      (fun _ => .of_eq rfl) Grows.trans hattempt
      (show 0 < RetryPolicy.default.maxAttempts by decide) (s, none)
  rw [hsession]
  refine ⟨(hattempt (s, none)).trans hfirst, lt_of_lt_of_le ?_ hfirst.length_le⟩
  rw [chatAttempt_calls, List.length_append]
  exact Nat.lt_succ_self _

theorem chatWithRetry_keeps {β : Type} {f : Session → β} (env : Env) (req : ChatCompletionRequest)
    (rawBody : String) (p : Provider) (t : Target) (s : Session)
    (hcall : ∀ s : Session, f (s.chatCompletion env p t.model req rawBody).1 = f s) :
    f (chatWithRetry env req rawBody p t s).1 = f s := by
  have hattempt : ∀ st, f (chatAttempt env req rawBody p t st).1.1 = f st.1 := by
    intro st
    have hst := hcall st.1
    unfold chatAttempt
    dsimp only
    split <;> exact hst
  have hloop : f (Retry.execute RetryPolicy.default (fun st => env.jitter st.1.calls.length)
      (fun st d => env.ctxDone st.1.calls d) (chatAttempt env req rawBody p t)
      (s, none)).1.1 = f s :=
    Retry.loop_rel (R := fun a b : Session × Option ChatCompletionResponse => f b.1 = f a.1)
      (fun _ => rfl) (fun hab hbc => hbc.trans hab) hattempt _ _ _ _
  unfold chatWithRetry
  dsimp only
  split <;> exact hloop

namespace Router

variable (r : Router) (env : Env) (chain : Chain) (req : ChatCompletionRequest) (rawBody : String)
  (s : Session)

/-- `Execute` sends the request to targets of the chain only. -/
theorem execute_sends :
    Grows Session.calls (r.Sends false chain.targets req rawBody) s
      (r.execute env chain req rawBody s).1 := by
  refine (tryTargets_grows r env (fun p t s => (chatWithRetry_grows env req rawBody p t s).1)
    _ _ _ _ _ s).mono fun c hc => ?_
  obtain ⟨t, ht, p, hp, rfl⟩ := hc
  refine sends_of_sorted ht hp fun hname => ?_
  rw [hname]
  rfl

theorem executeStream_sends :
    Grows Session.calls (r.Sends true chain.targets req rawBody) s
      (r.executeStream env chain req rawBody s).1 := by
  refine (tryTargets_grows r env
    (fun p t s => chatCompletionStream_grows env s p t.model req rawBody)
    _ _ _ _ _ s).mono fun c hc => ?_
  obtain ⟨t, ht, p, hp, rfl⟩ := hc
  refine sends_of_sorted ht hp fun hname => ?_
  rw [hname]
  rfl

theorem execute_log : (r.execute env chain req rawBody s).1.log = s.log :=
  r.tryTargets_log env
    (fun p t s => chatWithRetry_keeps (f := Session.log) env req rawBody p t s fun _ => rfl)
    _ _ _ _ _ s

theorem executeStream_log : (r.executeStream env chain req rawBody s).1.log = s.log :=
  r.tryTargets_log env (fun _ _ _ => rfl) _ _ _ _ _ s

variable {env chain} (hclosed : ∀ (s : Session) p, (s.isOpen env p).2 = false)
  (hreg : ∃ t ∈ chain.targets, (r.registry.get t.provider).isSome)

include hclosed hreg

theorem execute_called : s.calls.length < (r.execute env chain req rawBody s).1.calls.length := by
  obtain ⟨t, ht, hsome⟩ := hreg
  exact tryTargets_called r (fun p t s => (chatWithRetry_grows env req rawBody p t s).1)
    (fun p t s => (chatWithRetry_grows env req rawBody p t s).2) hclosed _ _
    ⟨t, mem_sorted.mpr ht, hsome⟩ _ _ s

theorem executeStream_called :
    s.calls.length < (r.executeStream env chain req rawBody s).1.calls.length := by
  obtain ⟨t, ht, hsome⟩ := hreg
  refine tryTargets_called r
    (fun p t s => chatCompletionStream_grows env s p t.model req rawBody) (fun p t s => ?_)
    hclosed _ _ ⟨t, mem_sorted.mpr ht, hsome⟩ _ _ s
  simp [Session.chatCompletionStream]

end Router

end LlmRouter.Gateway
