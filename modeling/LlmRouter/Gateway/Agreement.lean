import LlmRouter.Gateway.Fallback

/-!
# LlmRouter — streaming and non-streaming routing

`Router.Execute` retries each target, `Router.ExecuteStream` asks each once. If the answers of a
target are all of one class, the retries make no difference (`routing_agrees`).
-/

namespace LlmRouter.Gateway

open Lib Circuit

/-! ### Classes of errors -/

/-- What the gateway tells apart in an error: whether it is the context's, and
the code of a `GatewayError`. -/
inductive ErrorKind where
  | context
  | gateway (code : GatewayErrorCode)
  | unknown
  deriving DecidableEq, Repr

def GoError.kind (err : GoError) : ErrorKind :=
  if err.isContext then .context
  else
    match err.asGateway with
    | some gwErr => .gateway gwErr.code
    | none => .unknown

def answerKind {α : Type} : Except GoError α → Option ErrorKind
  | .ok _ => none
  | .error err => some err.kind

theorem isFallbackError_of_kind {err err' : GoError} (h : err.kind = err'.kind) :
    isFallbackError err = isFallbackError err' := by
  unfold GoError.kind at h
  unfold isFallbackError
  cases hctx : err.isContext <;> cases hctx' : err'.isContext <;>
    cases hgw : err.asGateway <;> cases hgw' : err'.asGateway <;>
    simp_all [GatewayError.isRetryable]

inductive GoError.Wraps : GoError → GoError → Prop where
  | refl (err : GoError) : Wraps err err
  | wrap (message : String) {err inner : GoError} (h : Wraps err inner) :
      Wraps (.wrap message err) inner

structure SameAnswers (env : Env) (req : ChatCompletionRequest) (rawBody : String)
    (answer : (provider model : String) → Option ErrorKind) : Prop where
  chat : ∀ calls provider model, answerKind (env.chatCompletion
    (calls ++ [.chatCompletion provider model req rawBody])) = answer provider model
  stream : ∀ calls provider model, answerKind (env.chatCompletionStream
    (calls ++ [.chatCompletionStream provider model req rawBody])) = answer provider model

/-! ### What agrees -/

variable (env : Env) (req : ChatCompletionRequest) (rawBody : String)

def SameProvider (calls calls' : List Call) (err err' : GoError) : Prop :=
  ∃ t : Target, err.kind = err'.kind ∧
    (∃ before, before ++ [t.call false req rawBody] <+: calls ∧
      env.chatCompletion (before ++ [t.call false req rawBody]) = .error err) ∧
    ∃ before, before ++ [t.call true req rawBody] <+: calls' ∧
      env.chatCompletionStream (before ++ [t.call true req rawBody]) = .error err'

def SameReason (calls calls' : List Call) (err err' : GoError) : Prop :=
  (err = err' ∧ ∃ text, err = .other text) ∨
    ∃ inner inner', err.Wraps inner ∧ err'.Wraps inner' ∧
      SameProvider env req rawBody calls calls' inner inner'

/-- Both runs succeed with the same target, or fail with it for the same reason, with the same
breaker. -/
def RoutesAlike (out : Session × Except (Target × GoError) (ChatCompletionResponse × Target))
    (out' : Session × Except (Target × GoError) (List StreamChunk × Target)) : Prop :=
  out.1.cb = out'.1.cb ∧
    match out.2, out'.2 with
    | .ok (_, t), .ok (_, t') => t = t'
    | .error (t, err), .error (t', err') =>
      t = t' ∧ SameReason env req rawBody out.1.calls out'.1.calls err err'
    | _, _ => False

variable {env : Env} {req : ChatCompletionRequest} {rawBody : String}

/-! ### One step of either loop -/

structure Session.Called (s s' : Session) : Prop where
  cb : s'.cb = s.cb
  accesses : s'.accesses = s.accesses
  calls : s.calls <+: s'.calls

theorem Session.Called.refl (s : Session) : s.Called s := ⟨rfl, rfl, List.prefix_rfl⟩

theorem Session.Called.trans {s s' s'' : Session} (h : s.Called s') (h' : s'.Called s'') :
    s.Called s'' :=
  ⟨h'.cb.trans h.cb, h'.accesses.trans h.accesses, h.calls.trans h'.calls⟩

theorem chatCompletion_called (env : Env) (s : Session) (p : Provider) (model : String)
    (req : ChatCompletionRequest) (rawBody : String) :
    s.Called (s.chatCompletion env p model req rawBody).1 :=
  ⟨rfl, rfl, List.prefix_append ..⟩

theorem chatCompletionStream_called (env : Env) (s : Session) (p : Provider) (model : String)
    (req : ChatCompletionRequest) (rawBody : String) :
    s.Called (s.chatCompletionStream env p model req rawBody).1 :=
  ⟨rfl, rfl, List.prefix_append ..⟩

theorem chatWithRetry_last (hctx : ∀ calls d, env.ctxDone calls d = none)
    (req : ChatCompletionRequest) (rawBody : String) (p : Provider) (t : Target) (s : Session) :
    ∃ s₀, s.Called s₀ ∧
      chatWithRetry env req rawBody p t s = s₀.chatCompletion env p t.model req rawBody := by
  have hattempt : ∀ st : Session × Option ChatCompletionResponse,
      st.1.Called (chatAttempt env req rawBody p t st).1.1 := by
    intro st
    have hcall := chatCompletion_called env st.1 p t.model req rawBody
    unfold chatAttempt
    dsimp only
    split <;> exact hcall
  obtain ⟨st, hst, hlast⟩ : ∃ st : Session × Option ChatCompletionResponse, s.Called st.1 ∧
      Retry.loop RetryPolicy.default (fun st => env.jitter st.1.calls.length)
        (fun st d => env.ctxDone st.1.calls d) (chatAttempt env req rawBody p t) (2 + 1) 0 none
        (s, none) = chatAttempt env req rawBody p t st :=
    Retry.loop_last (R := fun a b => a.1.Called b.1) (fun _ => .refl _) Session.Called.trans
      hattempt (fun st d => hctx st.1.calls d) 2 0 none (s, none)
  refine ⟨st.1, hst, ?_⟩
  unfold chatWithRetry Retry.execute
  dsimp only
  rw [show RetryPolicy.default.maxAttempts.toNat = 2 + 1 from rfl, hlast]
  unfold chatAttempt
  generalize st.1.chatCompletion env p t.model req rawBody = out
  obtain ⟨s', answer⟩ := out
  cases answer with
  | ok resp => rfl
  | error err => rfl

structure LoopsAlike (env : Env) (req : ChatCompletionRequest) (rawBody : String)
    (s s' : Session) (lastErr lastErr' : Option GoError) : Prop where
  cb : s.cb = s'.cb
  accesses : s.accesses = s'.accesses
  lastErr : (lastErr = none ∧ lastErr' = none) ∨ ∃ err err', lastErr = some err ∧
    lastErr' = some err' ∧ SameProvider env req rawBody s.calls s'.calls err err'

section Step

variable {env : Env} {req : ChatCompletionRequest} {rawBody : String} {s s' : Session}
  {lastErr lastErr' : Option GoError}

theorem LoopsAlike.isOpen (h : LoopsAlike env req rawBody s s' lastErr lastErr') (p : String) :
    (s.isOpen env p).2 = (s'.isOpen env p).2 ∧
      LoopsAlike env req rawBody (s.isOpen env p).1 (s'.isOpen env p).1 lastErr lastErr' := by
  have hopen : (env.others s.accesses s.cb).isOpen p (env.clock s.accesses) =
      (env.others s'.accesses s'.cb).isOpen p (env.clock s'.accesses) := by
    rw [h.cb, h.accesses]
  refine ⟨?_, ?_, ?_, h.lastErr⟩
  · exact congrArg (fun r : CircuitBreaker × Bool => r.2) hopen
  · exact congrArg (fun r : CircuitBreaker × Bool => r.1) hopen
  · show s.accesses + 1 = s'.accesses + 1
    rw [h.accesses]

theorem LoopsAlike.recordSuccess (h : LoopsAlike env req rawBody s s' lastErr lastErr')
    {s₁ s₁' : Session} (hs : s.Called s₁) (hs' : s'.Called s₁') (p : String) :
    (s₁.recordSuccess env p).cb = (s₁'.recordSuccess env p).cb := by
  show (env.others s₁.accesses s₁.cb).recordSuccess p =
    (env.others s₁'.accesses s₁'.cb).recordSuccess p
  rw [hs.cb, hs'.cb, hs.accesses, hs'.accesses, h.cb, h.accesses]

theorem LoopsAlike.recordFailure (h : LoopsAlike env req rawBody s s' lastErr lastErr')
    {s₁ s₁' : Session} (hs : s.Called s₁) (hs' : s'.Called s₁') (p : String) {err err' : GoError}
    (herr : SameProvider env req rawBody s₁.calls s₁'.calls err err') :
    LoopsAlike env req rawBody (s₁.recordFailure env p) (s₁'.recordFailure env p) (some err)
      (some err') := by
  refine ⟨?_, ?_, .inr ⟨err, err', rfl, rfl, herr⟩⟩
  · show (env.others s₁.accesses s₁.cb).recordFailure p (env.clock s₁.accesses) =
      (env.others s₁'.accesses s₁'.cb).recordFailure p (env.clock s₁'.accesses)
    rw [hs.cb, hs'.cb, hs.accesses, hs'.accesses, h.cb, h.accesses]
  · show s₁.accesses + 1 = s₁'.accesses + 1
    rw [hs.accesses, hs'.accesses, h.accesses]

end Step

theorem attempts_alike (hctx : ∀ calls d, env.ctxDone calls d = none)
    {answer : String → String → Option ErrorKind} (hsame : SameAnswers env req rawBody answer)
    {p : Provider} {t : Target} (hp : p.name = t.provider) (s s' : Session) :
    ∃ s₁ s₁' res res', s.Called s₁ ∧ s'.Called s₁' ∧
      chatWithRetry env req rawBody p t s = (s₁, res) ∧
      s'.chatCompletionStream env p t.model req rawBody = (s₁', res') ∧
      answerKind res = answerKind res' ∧
      ∀ err err', res = .error err → res' = .error err' →
        SameProvider env req rawBody s₁.calls s₁'.calls err err' := by
  obtain ⟨s₀, hs₀, hlast⟩ := chatWithRetry_last hctx req rawBody p t s
  have hchat := hsame.chat s₀.calls t.provider t.model
  have hstream := hsame.stream s'.calls t.provider t.model
  rw [← hp] at hchat hstream
  refine ⟨_, _, _, _, hs₀.trans (chatCompletion_called env s₀ p t.model req rawBody),
    chatCompletionStream_called env s' p t.model req rawBody, hlast, rfl,
    hchat.trans hstream.symm, fun err err' herr herr' => ?_⟩
  have hcall : t.call false req rawBody = .chatCompletion p.name t.model req rawBody := by
    rw [hp]
    rfl
  have hcall' : t.call true req rawBody = .chatCompletionStream p.name t.model req rawBody := by
    rw [hp]
    rfl
  rw [SameProvider]
  refine ⟨t, ?_, ?_⟩
  · have hkind := hchat.trans hstream.symm
    rw [herr, herr'] at hkind
    exact Option.some.inj hkind
  · rw [hcall, hcall']
    exact ⟨⟨s₀.calls, List.prefix_rfl, herr⟩, s'.calls, List.prefix_rfl, herr'⟩

theorem tryTargets_alike (r : Router) (hctx : ∀ calls d, env.ctxDone calls d = none)
    {answer : String → String → Option ErrorKind} (hsame : SameAnswers env req rawBody answer)
    (chain : String) (ts : List Target) (tried : Nat) {lastErr lastErr' : Option GoError}
    {s s' : Session} (h : LoopsAlike env req rawBody s s' lastErr lastErr') :
    RoutesAlike env req rawBody
      (r.tryTargets env (chatWithRetry env req rawBody) "all fallbacks exhausted" chain ts tried
        lastErr s)
      (r.tryTargets env (fun p t s => s.chatCompletionStream env p t.model req rawBody)
        "all stream fallbacks exhausted" chain ts tried lastErr' s') := by
  induction ts generalizing tried lastErr lastErr' s s' with
  | nil =>
    refine ⟨h.cb, rfl, ?_⟩
    show SameReason env req rawBody s.calls s'.calls (if _ then _ else _) (if _ then _ else _)
    by_cases htried : tried = 0
    · rw [if_pos htried, if_pos htried]
      exact .inl ⟨rfl, _, rfl⟩
    · rw [if_neg htried, if_neg htried]
      rcases h.lastErr with ⟨rfl, rfl⟩ | ⟨err, err', rfl, rfl, herr⟩
      · exact .inl ⟨rfl, _, rfl⟩
      · exact .inr ⟨err, err', .wrap _ (.refl err), .wrap _ (.refl err'), herr⟩
  | cons t ts ih =>
    obtain ⟨hopen, hgate⟩ := h.isOpen t.provider
    unfold Router.tryTargets
    dsimp only
    rw [← hopen]
    by_cases hblocked : (s.isOpen env t.provider).2 = true
    · rw [if_pos hblocked, if_pos hblocked]
      exact ih tried hgate
    · rw [if_neg hblocked, if_neg hblocked]
      cases hreg : r.registry.get t.provider with
      | none => exact ih tried hgate
      | some p =>
        obtain ⟨s₁, s₁', res, res', hs₁, hs₁', hres, hres', hkind, herrors⟩ :=
          attempts_alike hctx hsame (r.registry.keyed hreg) (s.isOpen env t.provider).1
            (s'.isOpen env t.provider).1
        dsimp only
        rw [hres, hres']
        cases res with
        | ok resp =>
          cases res' with
          | ok chunks => exact ⟨hgate.recordSuccess hs₁ hs₁' t.provider, rfl⟩
          | error err' => cases hkind
        | error err =>
          cases res' with
          | ok chunks => cases hkind
          | error err' =>
            have herr := herrors err err' rfl rfl
            dsimp only
            rw [isFallbackError_of_kind (Option.some.inj hkind)]
            split
            · exact ih (tried + 1) (hgate.recordFailure hs₁ hs₁' t.provider herr)
            · refine ⟨?_, rfl, .inr ⟨err, err', .refl err, .refl err', herr⟩⟩
              exact hs₁.cb.trans (hgate.cb.trans hs₁'.cb.symm)

/-- **Streaming and non-streaming routing agree.** While the context is not done and every attempt
on a target gets an answer of one class, `Execute` and `ExecuteStream` end with the same target and
the same breaker, both in success or both with errors that wrap one of the same provider. -/
theorem routing_agrees (r : Router) {env : Env} (hctx : ∀ calls d, env.ctxDone calls d = none)
    {req : ChatCompletionRequest} {rawBody : String} {answer : String → String → Option ErrorKind}
    (hsame : SameAnswers env req rawBody answer) (chain : Chain) (s : Session) :
    RoutesAlike env req rawBody (r.execute env chain req rawBody s)
      (r.executeStream env chain req rawBody s) :=
  tryTargets_alike r hctx hsame chain.name _ 0 ⟨rfl, rfl, .inl ⟨rfl, rfl⟩⟩

def Env.overloaded (name : String) : Env where
  chatCompletion := fun calls =>
    if calls.getLast?.any (fun c => c.provider = name) then
      .error (.gateway { code := .overloaded, message := "busy", httpStatus := 503 })
    else .ok ⟨"1", "chat.completion", 0, "gpt-4o", none, none⟩
  chatCompletionStream := fun calls =>
    if calls.getLast?.any (fun c => c.provider = name) then
      .error (.gateway { code := .overloaded, message := "try later", httpStatus := 529 })
    else .ok [{ delta := "hi" }]
  embed := fun _ => .error (.other "not asked")
  ctxDone := fun _ _ => none
  cachedEmbedding := fun _ => .ok none
  jitter := fun _ => 0
  clock := fun _ => 0
  others := fun _ cb => cb

theorem sameAnswers_overloaded (name : String) (req : ChatCompletionRequest) (rawBody : String) :
    SameAnswers (.overloaded name) req rawBody fun provider _ =>
      if provider = name then some (.gateway .overloaded) else none := by
  constructor
  all_goals
    intro calls provider model
    by_cases h : provider = name <;>
      simp [Env.overloaded, Call.provider, answerKind, GoError.kind, GoError.isContext,
        GoError.asGateway, h]

def twoProviders : Router :=
  { registry := (Registry.empty.register { name := "openai" }).register { name := "azure" } }

def gptChain : Chain :=
  { name := "gpt", targets := [⟨"openai", "gpt-4o", 0⟩, ⟨"azure", "gpt-4o", 0⟩] }

def gptRequest : ChatCompletionRequest := { model := "gpt", messages := some [] }

theorem routing_agrees_after_overload :
    (twoProviders.execute (.overloaded "openai") gptChain gptRequest ""
        { cb := Circuit.new Circuit.defaultConfig }).2.map Prod.snd =
          .ok ⟨"azure", "gpt-4o", 0⟩ ∧
      RoutesAlike (.overloaded "openai") gptRequest ""
        (twoProviders.execute (.overloaded "openai") gptChain gptRequest ""
          { cb := Circuit.new Circuit.defaultConfig })
        (twoProviders.executeStream (.overloaded "openai") gptChain gptRequest ""
          { cb := Circuit.new Circuit.defaultConfig }) :=
  ⟨rfl, routing_agrees twoProviders (fun _ _ => rfl)
    (sameAnswers_overloaded "openai" gptRequest "") gptChain _⟩

end LlmRouter.Gateway
