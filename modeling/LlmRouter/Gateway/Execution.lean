import LlmRouter.Gateway.Fallback

/-!
# LlmRouter — what executing a chain does

The loop of `Router.Execute` over the targets, told as a list of visits in the order of the chain.
`Visited` says how a visit may end and what it leaves behind, given the breaker and the providers
at that moment, `Retried` what a retried call does with the answers of the provider, and
`Execution` what the visits mean for the result.

* `Visits.breaker` — the breaker receives the operations of the visits and no others;
* `tryTargets_execution` — the loop, for any kind of attempt;
* `execute_spec` — `Router.Execute` without a load balancer.
-/

namespace LlmRouter.Gateway

open Lib Circuit List

/-! ## Visits -/

inductive Outcome (α : Type) where
  | circuitOpen
  | unregistered
  | succeeded (value : α)
  | stopped (err : GoError)
  | failed (err : GoError)

structure Visit (α : Type) where
  target : Target
  outcome : Outcome α
  calls : List Call := []

section

variable {α : Type}

def Outcome.Ends : Outcome α → Prop
  | .succeeded _ | .stopped _ => True
  | _ => False

def Outcome.Called : Outcome α → Prop
  | .circuitOpen | .unregistered => False
  | _ => True

/-- What the retried call of the target has returned. -/
def Outcome.result : Outcome α → Option (Except GoError α)
  | .circuitOpen | .unregistered => none
  | .succeeded value => some (.ok value)
  | .stopped err | .failed err => some (.error err)

def Outcome.failure : Outcome α → Option GoError
  | .failed err => some err
  | _ => none

def Outcome.records (provider : String) : Outcome α → List Op
  | .succeeded _ => [.recordSuccess provider]
  | .failed _ => [.recordFailure provider]
  | _ => []

def Visit.ops (v : Visit α) : List Op :=
  .isOpen v.target.provider :: v.outcome.records v.target.provider

def lastFailure (visits : List (Visit α)) : Option GoError :=
  (visits.filterMap fun v => v.outcome.failure).getLast?

end

/-- Such an error is returned at once: the context is done, or another target would not do
better. -/
def GoError.Stops (err : GoError) : Prop :=
  err.isContext = true ∨ ∃ gwErr, err.asGateway = some gwErr ∧ gwErr.isRetryable = false

theorem isFallbackError_eq_false_iff {err : GoError} :
    isFallbackError err = false ↔ err.Stops := by
  rw [isFallbackError, GoError.Stops]
  cases err.isContext with
  | true => simp
  | false => cases err.asGateway <;> simp

theorem not_stops_of_isFallbackError {err : GoError} (h : isFallbackError err = true) :
    ¬ err.Stops := by
  rw [← isFallbackError_eq_false_iff, h]
  exact Bool.noConfusion

/-! ## The breaker -/

def Session.breaker (s : Session) : CircuitBreaker × Nat := (s.cb, s.accesses)

/-- The breaker after operations of this request, each at its time and after what other
requests did before it. -/
def received (env : Env) (ops : List Op) (b : CircuitBreaker × Nat) : CircuitBreaker × Nat :=
  ops.foldl (fun b op => ((env.others b.2 b.1).step ⟨env.clock b.2, op⟩, b.2 + 1)) b

theorem received_append (env : Env) (ops ops' : List Op) (b : CircuitBreaker × Nat) :
    received env (ops ++ ops') b = received env ops' (received env ops b) :=
  foldl_append

variable (env : Env) (s : Session) (provider : String)

theorem breaker_isOpen :
    (s.isOpen env provider).1.breaker = received env [.isOpen provider] s.breaker := rfl

theorem breaker_recordSuccess :
    (s.recordSuccess env provider).breaker = received env [.recordSuccess provider] s.breaker :=
  rfl

theorem breaker_recordFailure :
    (s.recordFailure env provider).breaker = received env [.recordFailure provider] s.breaker :=
  rfl

/-! ## What a visit may be -/

section

variable {α : Type} (r : Router) (env : Env)
  (attempt : Provider → Target → Session → Session × Except GoError α)

inductive Visited : Session → Visit α → Session → Prop where
  | circuitOpen {s : Session} {t : Target} (hopen : (s.isOpen env t.provider).2 = true) :
    Visited s { target := t, outcome := .circuitOpen } (s.isOpen env t.provider).1
  | unregistered {s : Session} {t : Target} (hopen : (s.isOpen env t.provider).2 = false)
      (hreg : r.registry.get t.provider = none) :
    Visited s { target := t, outcome := .unregistered } (s.isOpen env t.provider).1
  | succeeded {s s₁ : Session} {t : Target} {p : Provider} {value : α} {calls : List Call}
      (hopen : (s.isOpen env t.provider).2 = false) (hreg : r.registry.get t.provider = some p)
      (hattempt : attempt p t (s.isOpen env t.provider).1 = (s₁, .ok value))
      (hcalls : s₁.calls = s.calls ++ calls) :
    Visited s { target := t, outcome := .succeeded value, calls }
      (s₁.recordSuccess env t.provider)
  | stopped {s s₁ : Session} {t : Target} {p : Provider} {err : GoError} {calls : List Call}
      (hopen : (s.isOpen env t.provider).2 = false) (hreg : r.registry.get t.provider = some p)
      (hattempt : attempt p t (s.isOpen env t.provider).1 = (s₁, .error err))
      (hcalls : s₁.calls = s.calls ++ calls) (hstops : err.Stops) :
    Visited s { target := t, outcome := .stopped err, calls } s₁
  | failed {s s₁ : Session} {t : Target} {p : Provider} {err : GoError} {calls : List Call}
      (hopen : (s.isOpen env t.provider).2 = false) (hreg : r.registry.get t.provider = some p)
      (hattempt : attempt p t (s.isOpen env t.provider).1 = (s₁, .error err))
      (hcalls : s₁.calls = s.calls ++ calls) (hstops : ¬ err.Stops) :
    Visited s { target := t, outcome := .failed err, calls } (s₁.recordFailure env t.provider)

inductive Visits : Session → List (Visit α) → Session → Prop where
  | nil (s : Session) : Visits s [] s
  | cons {s s₁ s' : Session} {v : Visit α} {vs : List (Visit α)}
      (hvisit : Visited r env attempt s v s₁) (hrest : Visits s₁ vs s') : Visits s (v :: vs) s'

variable {r env attempt}

theorem Visited.session_calls {s s' : Session} {v : Visit α} (h : Visited r env attempt s v s') :
    s'.calls = s.calls ++ v.calls := by
  cases h with
  | circuitOpen hopen | unregistered hopen hreg => exact (append_nil _).symm
  | succeeded hopen hreg hattempt hcalls | stopped hopen hreg hattempt hcalls hstops
  | failed hopen hreg hattempt hcalls hstops => exact hcalls

theorem Visits.session_calls {s s' : Session} {visits : List (Visit α)}
    (h : Visits r env attempt s visits s') :
    s'.calls = s.calls ++ visits.flatMap Visit.calls := by
  induction h with
  | nil s => simp
  | cons hvisit hrest ih => rw [ih, hvisit.session_calls, flatMap_cons, append_assoc]

/-- **What the breaker receives.** -/
theorem Visits.breaker (hkeeps : ∀ p t s, (attempt p t s).1.breaker = s.breaker)
    {s s' : Session} {visits : List (Visit α)} (h : Visits r env attempt s visits s') :
    s'.breaker = received env (visits.flatMap Visit.ops) s.breaker := by
  induction h with
  | nil s => rfl
  | @cons s s₁ s' v vs hvisit hrest ih =>
    rw [ih, flatMap_cons, received_append]
    congr 1
    -- the attempt itself leaves the breaker as the question left it
    have hattempted : ∀ {p : Provider} {t : Target} {s₁ : Session} {res : Except GoError α},
        attempt p t (s.isOpen env t.provider).1 = (s₁, res) →
          s₁.breaker = received env [.isOpen t.provider] s.breaker := by
      intro p t s₁ res hattempt
      have hkept := hkeeps p t (s.isOpen env t.provider).1
      rw [hattempt] at hkept
      exact hkept.trans (breaker_isOpen env s t.provider)
    cases hvisit with
    | circuitOpen hopen => rfl
    | unregistered hopen hreg => rfl
    | succeeded hopen hreg hattempt hcalls =>
      rw [breaker_recordSuccess, hattempted hattempt]
      rfl
    | stopped hopen hreg hattempt hcalls hstops => exact hattempted hattempt
    | failed hopen hreg hattempt hcalls hstops =>
      rw [breaker_recordFailure, hattempted hattempt]
      rfl

end

/-! ## What the visits mean -/

def noTarget : Target := { provider := "", model := "" }

def loopError (exhausted chain : String) : Option GoError → GoError
  | some err => .wrap (exhausted ++ " for chain " ++ goQuote chain ++ ": ") err
  | none => .other ("no available providers in chain " ++ goQuote chain ++ " (all circuits open)")

section

variable {α : Type} {r : Router} {env : Env}
  {attempt : Provider → Target → Session → Session × Except GoError α}
  {exhausted chain : String}

structure Execution (r : Router) (env : Env)
    (attempt : Provider → Target → Session → Session × Except GoError α)
    (exhausted chain : String) (targets : List Target) (lastErr : Option GoError) (s : Session)
    (visits : List (Visit α)) (out : Session × Except (Target × GoError) (α × Target)) :
    Prop where
  run : Visits r env attempt s visits out.1
  /-- Targets are reached in the order of the chain. -/
  order : visits.map Visit.target <+: targets
  /-- Nothing comes after a success or an error that stops. -/
  ends : ∀ v ∈ visits.dropLast, ¬ v.outcome.Ends
  /-- Otherwise every target is reached. -/
  all : (∀ v ∈ visits, ¬ v.outcome.Ends) → visits.map Visit.target = targets
  succeeded : ∀ v ∈ visits, ∀ value, v.outcome = .succeeded value → out.2 = .ok (value, v.target)
  stopped : ∀ v ∈ visits, ∀ err, v.outcome = .stopped err → out.2 = .error (v.target, err)
  exhausted : (∀ v ∈ visits, ¬ v.outcome.Ends) →
    out.2 = .error (noTarget, loopError exhausted chain ((lastFailure visits).or lastErr))

variable {lastErr : Option GoError}

theorem Execution.last {t : Target} {ts : List Target} {s : Session} {v : Visit α}
    {out : Session × Except (Target × GoError) (α × Target)} (hv : Visited r env attempt s v out.1)
    (htarget : v.target = t) (hends : v.outcome.Ends)
    (hsucceeded : ∀ value, v.outcome = .succeeded value → out.2 = .ok (value, v.target))
    (hstopped : ∀ err, v.outcome = .stopped err → out.2 = .error (v.target, err)) :
    Execution r env attempt exhausted chain (t :: ts) lastErr s [v] out where
  run := .cons hv (.nil _)
  order := by
    rw [map_singleton, htarget]
    exact prefix_append [t] ts
  ends := by simp
  all h := absurd hends (h v mem_cons_self)
  succeeded := by simpa using hsucceeded
  stopped := by simpa using hstopped
  exhausted h := absurd hends (h v mem_cons_self)

theorem lastFailure_cons (v : Visit α) (vs : List (Visit α)) (lastErr : Option GoError) :
    (lastFailure (v :: vs)).or lastErr = (lastFailure vs).or (v.outcome.failure.or lastErr) := by
  cases hv : v.outcome.failure with
  | none => simp [lastFailure, hv]
  | some err =>
    have hcons : lastFailure (v :: vs) = some ((lastFailure vs).getD err) := by
      rw [lastFailure, filterMap_cons, hv]
      exact getLast?_cons
    rw [hcons]
    cases lastFailure vs <;> rfl

theorem Execution.next {t : Target} {ts : List Target} {s s₁ : Session} {v : Visit α}
    {visits : List (Visit α)} {out : Session × Except (Target × GoError) (α × Target)}
    (hv : Visited r env attempt s v s₁) (htarget : v.target = t) (hgoes : ¬ v.outcome.Ends)
    (h : Execution r env attempt exhausted chain ts (v.outcome.failure.or lastErr) s₁ visits out) :
    Execution r env attempt exhausted chain (t :: ts) lastErr s (v :: visits) out where
  run := .cons hv h.run
  order := by
    rw [map_cons, htarget]
    exact cons_prefix_cons.mpr ⟨rfl, h.order⟩
  ends := by
    cases hvisits : visits with
    | nil => simp
    | cons w ws =>
      rw [dropLast_cons_cons, ← hvisits]
      exact forall_mem_cons.mpr ⟨hgoes, h.ends⟩
  all hall := by
    rw [map_cons, htarget, h.all fun w hw => hall w (mem_cons_of_mem v hw)]
  succeeded := by
    refine forall_mem_cons.mpr ⟨fun value hvalue => ?_, h.succeeded⟩
    rw [hvalue] at hgoes
    exact absurd trivial hgoes
  stopped := by
    refine forall_mem_cons.mpr ⟨fun err herr => ?_, h.stopped⟩
    rw [herr] at hgoes
    exact absurd trivial hgoes
  exhausted hall := by
    rw [h.exhausted fun w hw => hall w (mem_cons_of_mem v hw), lastFailure_cons]

/-- **The loop is an execution**, whatever an attempt does, as long as it only adds calls. -/
theorem tryTargets_execution (r : Router) (env : Env) (exhausted chain : String)
    (hgrows : ∀ p t s, s.calls <+: (attempt p t s).1.calls) (targets : List Target) {tried : Nat}
    (htried : tried = 0 ↔ lastErr = none) (s : Session) :
    ∃ visits, Execution r env attempt exhausted chain targets lastErr s visits
      (r.tryTargets env attempt exhausted chain targets tried lastErr s) := by
  fun_induction Router.tryTargets r env attempt exhausted chain targets tried lastErr s with
  | case1 tried lastErr s =>
    refine ⟨[], .nil s, nil_prefix, by simp, fun _ => rfl, by simp, by simp, fun _ => ?_⟩
    show Except.error (noTarget, if _ then _ else _) = _
    cases lastErr with
    | none => rw [if_pos (htried.mpr rfl)]; rfl
    | some err => rw [if_neg fun h => by cases htried.mp h]; rfl
  | case2 t ts tried lastErr s gate hopen ih =>
    obtain ⟨visits, h⟩ := ih htried
    exact ⟨_, h.next (.circuitOpen hopen) rfl id⟩
  | case3 t ts tried lastErr s gate hopen hreg ih =>
    obtain ⟨visits, h⟩ := ih htried
    exact ⟨_, h.next (.unregistered (Bool.eq_false_iff.mpr hopen) hreg) rfl id⟩
  | case4 t ts tried lastErr s gate hopen p hreg out value hout =>
    obtain ⟨calls, hcalls⟩ := hgrows p t gate.1
    refine ⟨_, .last (.succeeded (Bool.eq_false_iff.mpr hopen) hreg (Prod.ext rfl hout)
      hcalls.symm) rfl trivial ?_ ?_⟩
    · rintro _ ⟨⟩
      rfl
    · rintro _ ⟨⟩
  | case5 t ts tried lastErr s gate hopen p hreg out err hout hfallback ih =>
    obtain ⟨calls, hcalls⟩ := hgrows p t gate.1
    obtain ⟨visits, h⟩ := ih (by simp)
    exact ⟨_, h.next (.failed (Bool.eq_false_iff.mpr hopen) hreg (Prod.ext rfl hout) hcalls.symm
      (not_stops_of_isFallbackError hfallback)) rfl id⟩
  | case6 t ts tried lastErr s gate hopen p hreg out err hout hfallback =>
    obtain ⟨calls, hcalls⟩ := hgrows p t gate.1
    refine ⟨_, .last (.stopped (Bool.eq_false_iff.mpr hopen) hreg (Prod.ext rfl hout) hcalls.symm
      (isFallbackError_eq_false_iff.mp (Bool.eq_false_iff.mpr hfallback))) rfl trivial ?_ ?_⟩
    · rintro _ ⟨⟩
    · rintro _ ⟨⟩
      rfl

end

/-! ## Retried calls -/

/-- The provider gives such an error for the moment only. -/
def GoError.Retryable (err : GoError) : Prop :=
  ∃ gwErr, err.asGateway = some gwErr ∧ gwErr.isRetryable = true

/-- A retried call `c` after `n` attempts and the calls `before`: its calls, and its result. It ends
with a response, an error that is not retryable or the third attempt, or with the context between
two attempts. -/
inductive Retried (env : Env) (c : Call) :
    Nat → List Call → List Call → Except GoError ChatCompletionResponse → Prop where
  | succeeded {n : Nat} {before : List Call} {resp : ChatCompletionResponse}
      (hanswer : env.chatCompletion (before ++ [c]) = .ok resp) :
    Retried env c n before [c] (.ok resp)
  | failed {n : Nat} {before : List Call} {err : GoError}
      (hanswer : env.chatCompletion (before ++ [c]) = .error err)
      (hlast : ¬ err.Retryable ∨ n + 1 = 3) :
    Retried env c n before [c] (.error err)
  | cancelled {n : Nat} {before : List Call} {err ctxErr : GoError}
      (hanswer : env.chatCompletion (before ++ [c]) = .error err)
      (hretry : err.Retryable) (hleft : n + 1 < 3)
      (hctx : env.ctxDone (before ++ [c]) (RetryPolicy.default.delay n (some err)
        (env.jitter (before ++ [c]).length)) = some ctxErr) :
    Retried env c n before [c] (.error ctxErr)
  | again {n : Nat} {before calls : List Call} {err : GoError}
      {result : Except GoError ChatCompletionResponse}
      (hanswer : env.chatCompletion (before ++ [c]) = .error err)
      (hretry : err.Retryable) (hleft : n + 1 < 3)
      (hctx : env.ctxDone (before ++ [c]) (RetryPolicy.default.delay n (some err)
        (env.jitter (before ++ [c]).length)) = none)
      (hrest : Retried env c (n + 1) (before ++ [c]) calls result) :
    Retried env c n before (c :: calls) result

theorem shouldRetry_iff (policy : RetryPolicy) (err : GoError) :
    policy.shouldRetry (some err) = true ↔ err.Retryable := by
  simp [RetryPolicy.shouldRetry, GoError.Retryable, Option.any_eq_true]

theorem Retried.calls {env : Env} {c : Call} {n : Nat} {before calls : List Call}
    {result : Except GoError ChatCompletionResponse} (h : Retried env c n before calls result) :
    calls ≠ [] ∧ ∀ c' ∈ calls, c' = c := by
  induction h with
  | again hanswer hretry hleft hctx hrest ih =>
    exact ⟨cons_ne_nil _ _, forall_mem_cons.mpr ⟨rfl, ih.2⟩⟩
  | _ => exact ⟨cons_ne_nil _ _, by simp⟩

/-- The end of `chatWithRetry`: the error, or the response that the closure has assigned. -/
def retryResult (out : (Session × Option ChatCompletionResponse) × Option GoError) :
    Except GoError ChatCompletionResponse :=
  match out.2, out.1.2 with
  | some err, _ => .error err
  | none, some resp => .ok resp
  | none, none => .error (.other "nil response")

theorem chatAttempt_cases (env : Env) (req : ChatCompletionRequest) (rawBody : String)
    (p : Provider) (t : Target) (st : Session × Option ChatCompletionResponse) :
    ∃ s' : Session, s'.calls = st.1.calls ++ [.chatCompletion p.name t.model req rawBody] ∧
      ((∃ resp, env.chatCompletion s'.calls = .ok resp ∧
          chatAttempt env req rawBody p t st = ((s', some resp), none)) ∨
        ∃ err, env.chatCompletion s'.calls = .error err ∧
          chatAttempt env req rawBody p t st = ((s', none), some err)) := by
  refine ⟨(st.1.chatCompletion env p t.model req rawBody).1, rfl, ?_⟩
  unfold chatAttempt
  dsimp only
  split
  next resp hresp => exact .inl ⟨resp, hresp, rfl⟩
  next err herr => exact .inr ⟨err, herr, rfl⟩

/-- The loop from an attempt on, once it has waited for it. -/
theorem loop_retried (env : Env) (req : ChatCompletionRequest) (rawBody : String) (p : Provider)
    (t : Target) {left n : Nat} (hleft : n + (left + 1) = 3) (lastErr : Option GoError)
    (st : Session × Option ChatCompletionResponse)
    (hwait : (if 0 < n then env.ctxDone st.1.calls (RetryPolicy.default.delay (n - 1) lastErr
      (env.jitter st.1.calls.length)) else none) = none) :
    let out := Retry.loop RetryPolicy.default (fun st => env.jitter st.1.calls.length)
      (fun st d => env.ctxDone st.1.calls d) (chatAttempt env req rawBody p t) (left + 1) n
      lastErr st
    ∃ calls, out.1.1.calls = st.1.calls ++ calls ∧
      Retried env (.chatCompletion p.name t.model req rawBody) n st.1.calls calls
        (retryResult out) := by
  induction left generalizing n lastErr st with
  | zero =>
    rw [Retry.loop, hwait]
    obtain ⟨s', hcalls, ⟨resp, hanswer, hattempt⟩ | ⟨err, hanswer, hattempt⟩⟩ :=
      chatAttempt_cases env req rawBody p t st
    · rw [hattempt]
      exact ⟨_, hcalls, .succeeded (hcalls ▸ hanswer)⟩
    · rw [hattempt]
      -- the third attempt: its error is returned either way
      simp only [Retry.loop, ite_self]
      exact ⟨_, hcalls, .failed (hcalls ▸ hanswer) (.inr hleft)⟩
  | succ left ih =>
    rw [Retry.loop, hwait]
    obtain ⟨s', hcalls, ⟨resp, hanswer, hattempt⟩ | ⟨err, hanswer, hattempt⟩⟩ :=
      chatAttempt_cases env req rawBody p t st
    · rw [hattempt]
      exact ⟨_, hcalls, .succeeded (hcalls ▸ hanswer)⟩
    rw [hattempt]
    dsimp only
    by_cases hretry : err.Retryable
    · rw [if_pos ((shouldRetry_iff _ _).mpr hretry)]
      cases hctx : env.ctxDone s'.calls (RetryPolicy.default.delay n (some err)
          (env.jitter s'.calls.length)) with
      | some ctxErr =>
        rw [Retry.loop, if_pos (Nat.succ_pos n), Nat.add_sub_cancel, hctx]
        exact ⟨_, hcalls, .cancelled (hcalls ▸ hanswer) hretry (by omega) (hcalls ▸ hctx)⟩
      | none =>
        obtain ⟨calls, hmore, hrest⟩ := @ih (n + 1) (by omega) (some err) (s', none)
          (by rw [if_pos (Nat.succ_pos n), Nat.add_sub_cancel, hctx])
        refine ⟨_ :: calls, ?_, .again (hcalls ▸ hanswer) hretry (by omega) (hcalls ▸ hctx)
          (hcalls ▸ hrest)⟩
        rw [hmore, hcalls, append_assoc, singleton_append]
    · rw [if_neg fun h => hretry ((shouldRetry_iff _ _).mp h)]
      exact ⟨_, hcalls, .failed (hcalls ▸ hanswer) (.inl hretry)⟩

/-- **A call with retries** does what `Retried` says. -/
theorem chatWithRetry_retried (env : Env) (req : ChatCompletionRequest) (rawBody : String)
    (p : Provider) (t : Target) (s : Session) :
    let out := chatWithRetry env req rawBody p t s
    ∃ calls, out.1.calls = s.calls ++ calls ∧
      Retried env (.chatCompletion p.name t.model req rawBody) 0 s.calls calls out.2 := by
  obtain ⟨calls, hcalls, hretried⟩ := loop_retried env req rawBody p t
    (show 0 + (2 + 1) = 3 from rfl) none (s, none) rfl
  unfold chatWithRetry Retry.execute
  rw [show RetryPolicy.default.maxAttempts.toNat = 2 + 1 from rfl]
  generalize Retry.loop _ _ _ _ (2 + 1) 0 none (s, none) = done at hcalls hretried ⊢
  obtain ⟨⟨s', resp⟩, err⟩ := done
  cases err <;> cases resp <;> exact ⟨calls, hcalls, hretried⟩

/-! ## Router.Execute -/

def Visit.CallsTarget {α : Type} (v : Visit α) (req : ChatCompletionRequest) (rawBody : String) :
    Prop :=
  (v.outcome.Called → v.calls ≠ []) ∧ (¬ v.outcome.Called → v.calls = []) ∧
    ∀ c ∈ v.calls, c = v.target.call false req rawBody

/-- Every call of the visits, which follow the calls `before`, is a retried one. -/
def RetriedCalls (env : Env) (req : ChatCompletionRequest) (rawBody : String) (before : List Call)
    (visits : List (Visit ChatCompletionResponse)) : Prop :=
  ∀ vs₁ v vs₂, visits = vs₁ ++ v :: vs₂ → ∀ result, v.outcome.result = some result →
    Retried env (v.target.call false req rawBody) 0 (before ++ vs₁.flatMap Visit.calls) v.calls
      result

section

variable {r : Router} {env : Env} {req : ChatCompletionRequest} {rawBody : String}

theorem Visited.retried {s s₁ : Session} {v : Visit ChatCompletionResponse}
    (h : Visited r env (chatWithRetry env req rawBody) s v s₁) :
    ∀ result, v.outcome.result = some result →
      Retried env (v.target.call false req rawBody) 0 s.calls v.calls result := by
  have hattempted : ∀ {t : Target} {p : Provider} {s₁ : Session} {calls : List Call}
      {result : Except GoError ChatCompletionResponse}, r.registry.get t.provider = some p →
      chatWithRetry env req rawBody p t (s.isOpen env t.provider).1 = (s₁, result) →
      s₁.calls = s.calls ++ calls →
      Retried env (t.call false req rawBody) 0 s.calls calls result := by
    intro t p s₁ calls result hreg hattempt hcalls
    obtain ⟨added, hadded, hretried⟩ := chatWithRetry_retried env req rawBody p t
      (s.isOpen env t.provider).1
    rw [hattempt] at hadded hretried
    obtain rfl : added = calls := append_cancel_left (hadded.symm.trans hcalls)
    rw [r.registry.keyed hreg] at hretried
    exact hretried
  cases h with
  | circuitOpen hopen | unregistered hopen hreg => nofun
  | succeeded hopen hreg hattempt hcalls | stopped hopen hreg hattempt hcalls hstops
  | failed hopen hreg hattempt hcalls hstops =>
    rintro _ ⟨⟩
    exact hattempted hreg hattempt hcalls

theorem Visits.retried {s s' : Session} {visits : List (Visit ChatCompletionResponse)}
    (h : Visits r env (chatWithRetry env req rawBody) s visits s') :
    RetriedCalls env req rawBody s.calls visits := by
  induction h with
  | nil s => exact fun vs₁ v vs₂ hsplit => absurd hsplit (by simp)
  | cons hvisit hrest ih =>
    rintro (_ | ⟨v', vs₁⟩) v vs₂ hsplit
    · obtain ⟨rfl, -⟩ := cons.inj hsplit
      simpa using hvisit.retried
    · obtain ⟨rfl, htail⟩ := cons.inj hsplit
      have hlater := ih vs₁ v vs₂ htail
      rw [hvisit.session_calls, append_assoc] at hlater
      exact hlater

theorem Visits.callsTarget {s s' : Session} {visits : List (Visit ChatCompletionResponse)}
    (h : Visits r env (chatWithRetry env req rawBody) s visits s') :
    ∀ v ∈ visits, v.CallsTarget req rawBody := by
  induction h with
  | nil s => simp
  | @cons s s₁ s' v vs hvisit hrest ih =>
    refine forall_mem_cons.mpr ⟨?_, ih⟩
    have hretried := hvisit.retried
    cases hvisit with
    | circuitOpen hopen | unregistered hopen hreg =>
      exact ⟨False.elim, fun _ => rfl, forall_mem_nil _⟩
    | succeeded hopen hreg hattempt hcalls | stopped hopen hreg hattempt hcalls hstops
    | failed hopen hreg hattempt hcalls hstops =>
      obtain ⟨hne, hall⟩ := (hretried _ rfl).calls
      exact ⟨fun _ => hne, fun hno => absurd trivial hno, hall⟩

end

theorem exists_lastFailure {α : Type} {visits : List (Visit α)}
    (hgoes : ∀ v ∈ visits, ¬ v.outcome.Ends) (hcalled : ∃ v ∈ visits, v.outcome.Called) :
    ∃ err, lastFailure visits = some err := by
  obtain ⟨v, hv, hcalled⟩ := hcalled
  have hgoes := hgoes v hv
  cases houtcome : v.outcome with
  | circuitOpen | unregistered => rw [houtcome] at hcalled; exact hcalled.elim
  | succeeded value | stopped err => rw [houtcome] at hgoes; exact absurd trivial hgoes
  | failed err =>
    have hmem : err ∈ visits.filterMap fun v => v.outcome.failure :=
      mem_filterMap.mpr ⟨v, hv, by rw [houtcome]; rfl⟩
    exact ⟨_, getLast?_eq_some_getLast (ne_nil_of_mem hmem)⟩

/-- **Executing a chain.** Without a load balancer, every run of `Execute`, with any registry,
providers and other users of the breaker, is a list of visits of the chain's targets in order. A
provider is called only where it is registered and its circuit was not open, at most three times,
again only after a retryable error, and its last answer counts, or the context's error. The first
success or error that stops ends the run. The breaker receives a failure for each target that failed
and a success for the winner. If all targets were visited and some provider was called, the error
wraps the last failure. -/
theorem execute_spec (registry : Registry) (env : Env) (chain : Chain)
    (req : ChatCompletionRequest) (rawBody : String) (s : Session) :
    let out := Router.execute { registry } env chain req rawBody s
    ∃ visits, Execution { registry } env (chatWithRetry env req rawBody)
        "all fallbacks exhausted" chain.name chain.targets none s visits out ∧
      out.1.calls = s.calls ++ visits.flatMap Visit.calls ∧
      (∀ v ∈ visits, v.CallsTarget req rawBody) ∧ RetriedCalls env req rawBody s.calls visits ∧
      out.1.breaker = received env (visits.flatMap Visit.ops) s.breaker ∧
      ((∀ v ∈ visits, ¬ v.outcome.Ends) → (∃ v ∈ visits, v.outcome.Called) →
        ∃ err, lastFailure visits = some err ∧ out.2 = .error (noTarget,
          .wrap ("all fallbacks exhausted for chain " ++ goQuote chain.name ++ ": ") err)) := by
  intro out
  have hgrows : ∀ p t s, s.calls <+: (chatWithRetry env req rawBody p t s).1.calls := by
    intro p t s
    obtain ⟨added, hadded, -⟩ := (chatWithRetry_grows env req rawBody p t s).1
    exact ⟨added, hadded.symm⟩
  have hkeeps : ∀ p t s, (chatWithRetry env req rawBody p t s).1.breaker = s.breaker :=
    fun p t s => chatWithRetry_keeps env req rawBody p t s fun _ => rfl
  obtain ⟨visits, hexec⟩ := tryTargets_execution { registry } env "all fallbacks exhausted"
    chain.name hgrows chain.targets (show 0 = 0 ↔ none = none from ⟨fun _ => rfl, fun _ => rfl⟩) s
  refine ⟨visits, hexec, hexec.run.session_calls, hexec.run.callsTarget, hexec.run.retried,
    hexec.run.breaker hkeeps, fun hgoes hcalled => ?_⟩
  obtain ⟨err, herr⟩ := exists_lastFailure hgoes hcalled
  refine ⟨err, herr, ?_⟩
  rw [show out.2 = _ from hexec.exhausted hgoes, herr]
  rfl

end LlmRouter.Gateway
