import LlmRouter.Gateway.Handlers

/-!
# LlmRouter — which providers a request reaches

`Setup.Resolves` says which targets a request stands for on a route, and `Setup.Serves` whether
the route can use a provider.

* `handle_grows` — every call goes to a target that the request resolves to;
* `handle_called` — with every circuit closed and a serving target, a provider is called;
* `residency_iff` — when a request reaches only providers that its policy allows.
-/

namespace LlmRouter.Gateway

open Lib Auth Residency Circuit

/-! ## The plans of the handlers -/

variable {r : Request} {body : String}

theorem readJSON_eq_ok {α : Type} {unmarshal : String → Except String α} {req : α} :
    readJSON unmarshal r = .ok (body, req) ↔ r.body = .ok body ∧ unmarshal body = .ok req := by
  unfold readJSON
  cases r.body with
  | error e => simp
  | ok body' =>
    dsimp only
    cases hdecode : unmarshal body' with
    | error e =>
      simp only [reduceCtorEq, false_iff, not_and, Except.ok.injEq]
      rintro rfl
      simp [hdecode]
    | ok req' =>
      simp only [Except.ok.injEq, Prod.mk.injEq]
      constructor
      · rintro ⟨rfl, rfl⟩
        exact ⟨rfl, hdecode⟩
      · rintro ⟨rfl, h⟩
        rw [hdecode, Except.ok.injEq] at h
        exact ⟨rfl, h⟩

theorem ChatHandler.plan_eq_ok {h : ChatHandler} {req : ChatCompletionRequest} {chain : Chain} :
    h.plan r = .ok (body, req, chain) ↔
      (r.body = .ok body ∧ h.json.chatRequest body = .ok req) ∧ validateChatRequest req = .ok () ∧
        (h.route r req).targets ≠ [] ∧ h.comply r (h.route r req) req.model = .ok chain := by
  simp only [ChatHandler.plan, bind_eq_ok, mapError_eq_ok, readJSON_eq_ok, Prod.exists]
  constructor
  · rintro ⟨body', req', hread, _, hvalid, h⟩
    split_ifs at h with hempty
    · obtain ⟨_, hthrow, -⟩ := bind_eq_ok.mp h
      exact absurd hthrow throw_ne_ok
    · obtain ⟨chain', hcomply, hpure⟩ := bind_eq_ok.mp h
      cases hpure
      exact ⟨hread, hvalid, by simpa using hempty, mapError_eq_ok.mp hcomply⟩
  · rintro ⟨hread, hvalid, hne, hcomply⟩
    refine ⟨body, req, hread, (), hvalid, ?_⟩
    rw [if_neg (by simpa using hne)]
    exact bind_eq_ok.mpr ⟨chain, mapError_eq_ok.mpr hcomply, rfl⟩

theorem ChatHandler.comply_subset {h : ChatHandler} {chain filtered : Chain} {model : String}
    (hcomply : h.comply r chain model = .ok filtered) {t : Target} (ht : t ∈ filtered.targets) :
    t ∈ chain.targets := by
  unfold ChatHandler.comply at hcomply
  split at hcomply
  · cases hcomply
    exact ht
  next enforcer _ =>
    split_ifs at hcomply
    · cases hknown : enforcer.registry.get r.policy with
      | none =>
        simp only [Enforcer.filterChain, hknown] at hcomply
        cases hcomply
        exact ht
      | some policy => exact (((filterChain_ok hknown hcomply).2 t).mp ht).1
    · cases hcomply
      exact ht

theorem CompletionsHandler.plan_eq_ok {h : CompletionsHandler} {req : CompletionRequest}
    {chatReq : ChatCompletionRequest} :
    h.plan r = .ok (body, req, chatReq) ↔
      (r.body = .ok body ∧ h.json.completionRequest body = .ok req) ∧
        ∃ msgs, validateCompletionRequest h.json req = .ok msgs ∧
          chatReq = { model := req.model, messages := some msgs, temperature := req.temperature,
                      maxTokens := req.maxTokens, stream := req.stream, user := req.user } := by
  simp only [CompletionsHandler.plan, bind_eq_ok, mapError_eq_ok, readJSON_eq_ok, pure_eq_ok,
    Prod.exists, Prod.mk.injEq]
  constructor
  · rintro ⟨body', req', hread, msgs, hvalid, rfl, rfl, rfl⟩
    exact ⟨hread, msgs, hvalid, rfl⟩
  · rintro ⟨hread, msgs, hvalid, rfl⟩
    exact ⟨body, req, hread, msgs, hvalid, rfl, rfl, rfl⟩

theorem EmbeddingsHandler.plan_eq_ok {h : EmbeddingsHandler} {prov : Provider}
    {req : EmbeddingRequest} :
    h.plan r = .ok (prov, req) ↔
      (∃ body, r.body = .ok body ∧ h.json.embeddingRequest body = .ok req) ∧
        validateEmbeddingRequest req = .ok () ∧
        h.registry.get (parseModel req.model).provider = some prov ∧ prov.embeds = true := by
  simp only [EmbeddingsHandler.plan, bind_eq_ok, mapError_eq_ok, readJSON_eq_ok, Prod.exists]
  constructor
  · rintro ⟨body, req', hread, _, hvalid, h⟩
    split at h
    · exact absurd h throw_ne_ok
    next prov' hget =>
      split_ifs at h with hembeds
      cases h
      exact ⟨⟨body, hread⟩, hvalid, hget, hembeds⟩
  · rintro ⟨⟨body, hread⟩, hvalid, hget, hembeds⟩
    refine ⟨body, req, hread, (), hvalid, ?_⟩
    rw [hget]
    exact if_pos hembeds

/-! ## What the handlers call -/

def Router.ran (r : Router) (env : Env) (stream : Bool) (chain : Chain)
    (req : ChatCompletionRequest) (rawBody : String) (s : Session) : Session :=
  if stream then (r.executeStream env chain req rawBody s.setStreaming).1
  else (r.execute env chain req rawBody s).1

theorem Router.ran_sends (r : Router) (env : Env) (stream : Bool) (chain : Chain)
    (req : ChatCompletionRequest) (rawBody : String) (s : Session) :
    Grows Session.calls (r.Sends stream chain.targets req rawBody) s
      (r.ran env stream chain req rawBody s) := by
  unfold Router.ran
  cases stream
  · exact r.execute_sends env chain req rawBody s
  · exact r.executeStream_sends env chain req rawBody s.setStreaming

theorem Router.ran_called (r : Router) {env : Env} (stream : Bool) {chain : Chain}
    (req : ChatCompletionRequest) (rawBody : String) (s : Session)
    (hclosed : ∀ (s : Session) p, (s.isOpen env p).2 = false)
    (hreg : ∃ t ∈ chain.targets, (r.registry.get t.provider).isSome) :
    s.calls.length < (r.ran env stream chain req rawBody s).calls.length := by
  unfold Router.ran
  split_ifs
  · exact r.executeStream_called req rawBody s.setStreaming hclosed hreg
  · exact r.execute_called req rawBody s hclosed hreg

theorem ChatHandler.forward_calls (h : ChatHandler) (env : Env) (body : String)
    (req : ChatCompletionRequest) (chain : Chain) (s : Session) :
    (h.forward env body req chain s).1.calls =
      (h.fallbackRouter.ran env req.stream chain req body
        (s.setModel req.model chain.primary)).calls := by
  unfold ChatHandler.forward Router.ran
  dsimp only
  split_ifs
  · split
    · exact upstreamError_calls ..
    · exact Session.noteUsed_calls ..
  · split
    · exact upstreamError_calls ..
    · simp only [Session.noteFinish_calls, Session.noteUsage_calls, Session.noteUsed_calls]

theorem CompletionsHandler.forward_calls (h : CompletionsHandler) (env : Env) (body : String)
    (req : CompletionRequest) (chatReq : ChatCompletionRequest) (s : Session) :
    (h.forward env body req chatReq s).1.calls =
      (h.fallbackRouter.ran env req.stream (chain req) chatReq body
        (s.setModel req.model (parseModel req.model).provider)).calls := by
  unfold CompletionsHandler.forward Router.ran
  dsimp only
  split_ifs
  · split
    · exact upstreamError_calls ..
    · rfl
  · split
    · exact upstreamError_calls ..
    · simp only [Session.noteFinish_calls, Session.noteUsage_calls, Session.noteUsed_calls]

theorem EmbeddingsHandler.forward_calls (env : Env) (prov : Provider) (req : EmbeddingRequest)
    (s : Session) :
    (EmbeddingsHandler.forward env prov req s).1.calls =
      s.calls ++ [.embed prov.name (parseModel req.model).model req] := by
  unfold EmbeddingsHandler.forward
  dsimp only
  split
  · split <;> rfl
  · exact Session.noteUsage_calls ..

def modelTarget (model : String) : Target :=
  { provider := (parseModel model).provider, model := (parseModel model).model }

namespace Setup

/-- The targets that an accepted request stands for, after routing and the residency filter. -/
def Resolves (g : Setup) (route : Route) (r : Request) (t : Target) : Prop :=
  ∃ body, r.body = .ok body ∧
    match route with
    | .chatCompletions =>
      ∃ req chain, g.json.chatRequest body = .ok req ∧ validateChatRequest req = .ok () ∧
        g.chat.comply r (g.chat.route r req) req.model = .ok chain ∧ t ∈ chain.targets
    | .completions =>
      ∃ req msgs, g.json.completionRequest body = .ok req ∧
        validateCompletionRequest g.json req = .ok msgs ∧ t = modelTarget req.model
    | .embeddings =>
      ∃ req, g.json.embeddingRequest body = .ok req ∧ validateEmbeddingRequest req = .ok () ∧
        t = modelTarget req.model

def Serves (g : Setup) (route : Route) (provider : String) : Prop :=
  match route with
  | .embeddings => ∃ p, g.fallbackRouter.registry.get provider = some p ∧ p.embeds = true
  | _ => (g.fallbackRouter.registry.get provider).isSome

def Reaches (g : Setup) (route : Route) (r : Request) (c : Call) : Prop :=
  ∃ t, g.Resolves route r t ∧ g.Serves route t.provider ∧ c.provider = t.provider

variable (g : Setup) (env : Env) (r : Request) (s : Session)

theorem chat_sends :
    Grows Session.calls
      (fun c => ∃ body req chain, g.chat.plan r = .ok (body, req, chain) ∧
        g.fallbackRouter.Sends req.stream chain.targets req body c)
      s (g.chat.handle env r s).1 := by
  unfold ChatHandler.handle
  split
  · exact .of_eq rfl
  next body req chain hplan =>
    obtain ⟨new, hnew, hall⟩ := g.fallbackRouter.ran_sends env req.stream chain req body
      (s.setModel req.model chain.primary)
    exact ⟨new, (g.chat.forward_calls env body req chain s).trans hnew,
      fun c hc => ⟨body, req, chain, hplan, hall c hc⟩⟩

theorem comp_sends :
    Grows Session.calls
      (fun c => ∃ body req chatReq, g.comp.plan r = .ok (body, req, chatReq) ∧
        g.fallbackRouter.Sends req.stream [modelTarget req.model] chatReq body c)
      s (g.comp.handle env r s).1 := by
  unfold CompletionsHandler.handle
  split
  · exact .of_eq rfl
  next body req chatReq hplan =>
    obtain ⟨new, hnew, hall⟩ := g.fallbackRouter.ran_sends env req.stream
      (CompletionsHandler.chain req) chatReq body
      (s.setModel req.model (parseModel req.model).provider)
    exact ⟨new, (g.comp.forward_calls env body req chatReq s).trans hnew,
      fun c hc => ⟨body, req, chatReq, hplan, hall c hc⟩⟩

theorem chat_grows :
    Grows Session.calls (g.Reaches .chatCompletions r) s (g.chat.handle env r s).1 := by
  refine (g.chat_sends env r s).mono fun c hc => ?_
  obtain ⟨body, req, chain, hplan, hsends⟩ := hc
  obtain ⟨⟨hbody, hreq⟩, hvalid, -, hcomply⟩ := ChatHandler.plan_eq_ok.mp hplan
  obtain ⟨t, ht, hsome, hprovider⟩ := hsends.reaches
  exact ⟨t, ⟨body, hbody, req, chain, hreq, hvalid, hcomply, ht⟩, hsome, hprovider⟩

theorem comp_grows :
    Grows Session.calls (g.Reaches .completions r) s (g.comp.handle env r s).1 := by
  refine (g.comp_sends env r s).mono fun c hc => ?_
  obtain ⟨body, req, chatReq, hplan, hsends⟩ := hc
  obtain ⟨⟨hbody, hreq⟩, msgs, hvalid, -⟩ := CompletionsHandler.plan_eq_ok.mp hplan
  obtain ⟨t, ht, hsome, hprovider⟩ := hsends.reaches
  exact ⟨t, ⟨body, hbody, req, msgs, hreq, hvalid, List.mem_singleton.mp ht⟩, hsome, hprovider⟩

theorem emb_grows :
    Grows Session.calls (g.Reaches .embeddings r) s (g.emb.handle env r s).1 := by
  unfold EmbeddingsHandler.handle
  split
  · exact .of_eq rfl
  next prov req hplan =>
    obtain ⟨⟨body, hbody, hreq⟩, hvalid, hget, hembeds⟩ := EmbeddingsHandler.plan_eq_ok.mp hplan
    split
    · exact .of_eq rfl
    · refine .one (EmbeddingsHandler.forward_calls env prov req s)
        ⟨modelTarget req.model, ⟨body, hbody, req, hreq, hvalid, rfl⟩, ⟨prov, hget, hembeds⟩, ?_⟩
      exact g.fallbackRouter.registry.keyed hget

/-- **Where requests go.** Every provider call goes to a target that the request resolves to. -/
theorem handle_grows (env : Env) (route : Route) (r : Request) (s : Session) :
    Grows Session.calls (g.Reaches route r) s (g.handle env route r s).1 := by
  cases route with
  | chatCompletions => exact g.chat_grows env r s
  | completions => exact g.comp_grows env r s
  | embeddings => exact g.emb_grows env r s

variable {g r} {t : Target}

/-- **Requests do go there.** If every circuit is closed, a request with a serving target is
forwarded. -/
theorem handle_called {env : Env} (hclosed : ∀ (s : Session) p, (s.isOpen env p).2 = false)
    (hempty : ∀ key, env.cachedEmbedding key = .ok none) {route : Route}
    (hresolves : g.Resolves route r t) (hserves : g.Serves route t.provider) (s : Session) :
    s.calls.length < (g.handle env route r s).1.calls.length := by
  obtain ⟨body, hbody, hroute⟩ := hresolves
  cases route with
  | chatCompletions =>
    obtain ⟨req, chain, hreq, hvalid, hcomply, ht⟩ := hroute
    have hplan : g.chat.plan r = .ok (body, req, chain) :=
      ChatHandler.plan_eq_ok.mpr ⟨⟨hbody, hreq⟩, hvalid,
        List.ne_nil_of_mem (ChatHandler.comply_subset hcomply ht), hcomply⟩
    show s.calls.length < (g.chat.handle env r s).1.calls.length
    simp only [ChatHandler.handle, hplan, ChatHandler.forward_calls]
    exact g.chat.fallbackRouter.ran_called req.stream req body (s.setModel req.model chain.primary)
      hclosed ⟨t, ht, hserves⟩
  | completions =>
    obtain ⟨req, msgs, hreq, hvalid, rfl⟩ := hroute
    have hplan : g.comp.plan r = .ok (body, req, _) :=
      CompletionsHandler.plan_eq_ok.mpr ⟨⟨hbody, hreq⟩, msgs, hvalid, rfl⟩
    show s.calls.length < (g.comp.handle env r s).1.calls.length
    simp only [CompletionsHandler.handle, hplan, CompletionsHandler.forward_calls]
    have hreg : ∃ t ∈ (CompletionsHandler.chain req).targets,
        (g.comp.fallbackRouter.registry.get t.provider).isSome :=
      ⟨modelTarget req.model, List.mem_singleton.mpr rfl, hserves⟩
    exact g.comp.fallbackRouter.ran_called req.stream _ body (s.setModel req.model _) hclosed hreg
  | embeddings =>
    obtain ⟨req, hreq, hvalid, rfl⟩ := hroute
    obtain ⟨prov, hget, hembeds⟩ := hserves
    have hplan : g.emb.plan r = .ok (prov, req) :=
      EmbeddingsHandler.plan_eq_ok.mpr ⟨⟨body, hbody, hreq⟩, hvalid, hget, hembeds⟩
    have hmiss : EmbeddingsHandler.lookup env (g.emb.cacheKey r req) = none := by
      unfold EmbeddingsHandler.lookup
      rw [hempty]
      split_ifs <;> rfl
    show s.calls.length < (g.emb.handle env r s).1.calls.length
    simp only [EmbeddingsHandler.handle, hplan, hmiss, EmbeddingsHandler.forward_calls]
    simp

end Setup

/-! ## Data residency -/

/-- An environment in which every circuit is closed, the embedding cache is
empty and every provider call fails. -/
def Env.failing : Env where
  chatCompletion := fun _ => .error (.other "connection refused")
  chatCompletionStream := fun _ => .error (.other "connection refused")
  embed := fun _ => .error (.other "connection refused")
  ctxDone := fun _ _ => none
  cachedEmbedding := fun _ => .ok none
  jitter := fun _ => 0
  clock := fun _ => 0
  others := fun _ _ => Circuit.new Circuit.defaultConfig

theorem isOpen_failing (s : Session) (p : String) : (s.isOpen .failing p).2 = false := rfl

namespace Setup

/-- Whatever breaker, providers, clock and other requests do, no provider that the policy forbids is
called. -/
def Enforced (g : Setup) (route : Route) (r : Request) (policy : Policy) : Prop :=
  ∀ env cb, ∀ c ∈ (g.handle env route r { cb := cb }).1.calls,
    policy.isProviderAllowed c.provider = true

variable {g : Setup} {route : Route} {r : Request}

variable {t : Target}

theorem resolves_unique (hroute : route ≠ .chatCompletions) {t' : Target} (h : g.Resolves route r t)
    (h' : g.Resolves route r t') : t = t' := by
  obtain ⟨body, hbody, h⟩ := h
  obtain ⟨body', hbody', h'⟩ := h'
  obtain rfl : body = body' := Except.ok.inj (hbody.symm.trans hbody')
  cases route with
  | chatCompletions => exact absurd rfl hroute
  | completions =>
    obtain ⟨req, _, hreq, -, rfl⟩ := h
    obtain ⟨req', _, hreq', -, rfl⟩ := h'
    rw [Except.ok.inj (hreq.symm.trans hreq')]
  | embeddings =>
    obtain ⟨req, hreq, -, rfl⟩ := h
    obtain ⟨req', hreq', -, rfl⟩ := h'
    rw [Except.ok.inj (hreq.symm.trans hreq')]

theorem reaches_of_mem_calls {env : Env} {cb : CircuitBreaker} {c : Call}
    (hc : c ∈ (g.handle env route r { cb := cb }).1.calls) : g.Reaches route r c := by
  rcases (g.handle_grows env route r { cb := cb }).mem hc with hold | hnew
  · cases hold
  · exact hnew

theorem exists_call (hresolves : g.Resolves route r t) (hserves : g.Serves route t.provider) :
    ∃ c, c ∈ (g.handle .failing route r { cb := Circuit.new Circuit.defaultConfig }).1.calls :=
  List.exists_mem_of_length_pos
    (handle_called isOpen_failing (fun _ => rfl) hresolves hserves { cb := Circuit.new _ })

theorem allowed_of_resolves_chat {enforcer : Enforcer} {policy : Policy}
    (henforcer : g.residencyEnforcer = some enforcer) (hcarries : r.policy ≠ "")
    (hknown : enforcer.registry.get r.policy = some policy) (h : g.Resolves .chatCompletions r t) :
    policy.isProviderAllowed t.provider = true := by
  obtain ⟨body, -, req, chain, -, -, hcomply, ht⟩ := h
  have hfilter : enforcer.filterChain r.policy (g.chat.route r req) req.model = .ok chain := by
    simpa only [ChatHandler.comply, chat, henforcer, if_pos hcarries] using hcomply
  exact (((filterChain_ok hknown hfilter).2 t).mp ht).2

/-- **Data residency.** A request under a known policy reaches only allowed providers, in every run,
iff it is a chat request or the providers it stands for that its route can use are all allowed. -/
theorem residency_iff {enforcer : Enforcer} {policy : Policy}
    (henforcer : g.residencyEnforcer = some enforcer) (hcarries : r.policy ≠ "")
    (hknown : enforcer.registry.get r.policy = some policy) (route : Route) :
    g.Enforced route r policy ↔
      route = .chatCompletions ∨ ∀ t, g.Resolves route r t → g.Serves route t.provider →
        policy.isProviderAllowed t.provider = true := by
  constructor
  · intro henforced
    by_cases hroute : route = .chatCompletions
    · exact .inl hroute
    -- the one target that the request stands for is called
    refine .inr fun t hresolves hserves => ?_
    obtain ⟨c, hc⟩ := exists_call hresolves hserves
    obtain ⟨t', hresolves', -, hprovider⟩ := reaches_of_mem_calls hc
    rw [resolves_unique hroute hresolves hresolves', ← hprovider]
    exact henforced _ _ c hc
  · intro hcond env cb c hc
    obtain ⟨t, hresolves, hserves, hprovider⟩ := reaches_of_mem_calls hc
    rw [hprovider]
    rcases hcond with rfl | hcond
    · exact allowed_of_resolves_chat henforcer hcarries hknown hresolves
    · exact hcond t hresolves hserves

def euOnly : Policy where
  name := "eu-only"
  allowedProviders := [("azure", { name := "azure", region := "westeurope" })]

def chatBody : String :=
  encode (.obj [("model", .str "gpt-4o"),
    ("messages", .arr [Message.toJson { role := "user", content := "hi" }]),
    ("max_tokens", .ofInt 16)])

def completionBody : String := encode (.obj [("model", .str "gpt-4o"), ("prompt", .str "hi")])

def twoBodies : Unmarshal where
  chatRequest := fun body =>
    if body = chatBody
    then .ok { model := "gpt-4o", messages := some [{ role := "user", content := "hi" }],
               maxTokens := some 16 }
    else .error "unexpected end of JSON input"
  completionRequest := fun body =>
    if body = completionBody then .ok { model := "gpt-4o", prompt := "\"hi\"" }
    else .error "unexpected end of JSON input"
  embeddingRequest := fun _ => .error "unexpected end of JSON input"
  chatResponse := fun _ => .error "unexpected end of JSON input"
  string := fun raw => if raw = "\"hi\"" then .ok "hi" else .error "unexpected end of JSON input"
  strings := fun _ => .error "unexpected end of JSON input"
  any := fun _ => .error "unexpected end of JSON input"

def euGateway : Setup where
  json := twoBodies
  fallbackRouter := { registry := Registry.empty.register { name := "openai" } }
  residencyEnforcer := some { registry := { policies := [euOnly] } }

theorem residency_iff_chat :
    euOnly.isProviderAllowed "openai" = false ∧
      euGateway.Enforced .chatCompletions { body := .ok chatBody, policy := "eu-only" } euOnly :=
  ⟨by decide, (residency_iff rfl (by decide) (by decide) .chatCompletions).mpr (.inl rfl)⟩

/-- The same word sent as a legacy completion goes to the forbidden provider. -/
theorem completions_skip_residency :
    (PolicyRegistry.mk [euOnly]).get "eu-only" = some euOnly ∧
      euOnly.isProviderAllowed "openai" = false ∧
      ((euGateway.handle .failing .completions { body := .ok completionBody, policy := "eu-only" }
        { cb := Circuit.new Circuit.defaultConfig }).1.calls.map Call.provider) = ["openai"] :=
  ⟨by decide, by decide, by decide⟩

end Setup

end LlmRouter.Gateway
