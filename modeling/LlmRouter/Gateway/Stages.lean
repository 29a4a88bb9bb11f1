import LlmRouter.Gateway.Codec
import LlmRouter.Gateway.Forwarding
import LlmRouter.Guardrail.Pipeline

/-!
# LlmRouter — the middlewares that rewrite a chat body

Three middlewares decode the body and may encode it again: `GuardrailCheck` replaces what a guard
masked, `PromptInjector` puts a rendered prompt in front, and `ABTestMiddleware` sets the model of
a variant. `Stages.pass` is what they do, with `DataResidency` between them.
-/

namespace LlmRouter.Gateway

open Lib Lib.Json Guardrail

/-! ## GuardrailCheck, up to the next handler -/

/-- A call of `CheckInput` that did not block: the text of a message and what
came back. -/
structure InputCheck where
  text : String
  modified : String
  deriving DecidableEq, Repr

/-- The loop over the messages: each of the user's that is not empty is checked, and logged. -/
def checkMessages (p : Pipeline) :
    (n : Nat) → List Message → Except BlockError (List Message × List InputCheck)
  | _, [] => .ok ([], [])
  | n, m :: ms =>
    if m.role ≠ "user" ∨ m.content = "" then
      (checkMessages p n ms).map fun (ms, log) => (m :: ms, log)
    else
      match p.checkInput n m.content with
      | (_, some blockErr) => .error blockErr
      | (modified, none) =>
        (checkMessages p (n + 1) ms).map fun (ms, log) =>
          ({ m with content := modified } :: ms, { text := m.content, modified := modified } :: log)

def Message.isChecked (m : Message) : Prop := m.role = "user" ∧ m.content ≠ ""

/-- How a message comes out of the loop: with the text that came back if it was
checked, as it is otherwise. -/
def Message.Passed (log : List InputCheck) (m m' : Message) : Prop :=
  m'.role = m.role ∧
    (m.isChecked → { text := m.content, modified := m'.content } ∈ log) ∧ (¬ m.isChecked → m' = m)

variable {log : List InputCheck}

theorem Message.Passed.mono {log' : List InputCheck} (hsub : log ⊆ log') {m m' : Message}
    (h : m.Passed log m') : m.Passed log' m' :=
  ⟨h.1, fun hm => hsub (h.2.1 hm), h.2.2⟩

theorem checkMessages_eq_ok {p : Pipeline} {n : Nat} {ms ms' : List Message}
    (h : checkMessages p n ms = .ok (ms', log)) :
    List.Forall₂ (Message.Passed log) ms ms' ∧
      ∀ k ∈ log, ∃ n, ∃ m ∈ ms, m.isChecked ∧ m.content = k.text ∧
        p.checkInput n k.text = (k.modified, none) := by
  induction ms generalizing n ms' log with
  | nil =>
    obtain ⟨rfl, rfl⟩ := Prod.mk.inj (Except.ok.inj h)
    exact ⟨.nil, by simp⟩
  | cons m ms ih =>
    rw [checkMessages] at h
    split_ifs at h with hskip
    · -- the message is skipped
      have hm : ¬ m.isChecked := fun hm => hskip.elim (absurd hm.1) hm.2
      obtain ⟨⟨ms₁, log₁⟩, hrest, heq⟩ := map_eq_ok.mp h
      obtain ⟨rfl, rfl⟩ := Prod.mk.inj heq
      obtain ⟨hpassed, hlog⟩ := ih hrest
      refine ⟨.cons ⟨rfl, fun hm' => absurd hm' hm, fun _ => rfl⟩ hpassed, fun k hk => ?_⟩
      obtain ⟨n', m', hm', hrest⟩ := hlog k hk
      exact ⟨n', m', List.mem_cons_of_mem _ hm', hrest⟩
    · have hm : m.isChecked := by
        obtain ⟨hrole, hcontent⟩ := not_or.mp hskip
        exact ⟨not_not.mp hrole, hcontent⟩
      rcases hcheck : p.checkInput n m.content with ⟨modified, _ | blockErr⟩
      · simp only [hcheck] at h
        obtain ⟨⟨ms₁, log₁⟩, hrest, heq⟩ := map_eq_ok.mp h
        obtain ⟨rfl, rfl⟩ := Prod.mk.inj heq
        obtain ⟨hpassed, hlog⟩ := ih hrest
        refine ⟨.cons ⟨rfl, fun _ => List.mem_cons_self, fun hm' => absurd hm hm'⟩
          (hpassed.imp fun _ _ h => h.mono (List.subset_cons_self _ _)), fun k hk => ?_⟩
        rcases List.mem_cons.mp hk with rfl | hk
        · exact ⟨n, m, List.mem_cons_self, hm, rfl, hcheck⟩
        · obtain ⟨n', m', hm', hrest⟩ := hlog k hk
          exact ⟨n', m', List.mem_cons_of_mem _ hm', hrest⟩
      · simp only [hcheck] at h
        cases h

def writeGuardrailError (be : BlockError) : Response :=
  writeJSON 400 (.obj [("error", .obj [("code", .str be.guardrail), ("message", .str be.message),
    ("param", .obj [("category", .str be.category), ("guardrail", .str be.guardrail)]),
    ("type", .str "content_policy_violation")])])

/-- `GuardrailCheck` on the chat route: the error it writes, or the request that goes on, and the
checks. -/
def guardrailCheck (json : Unmarshal) (pipeline : Option Pipeline) (r : Request) :
    Except Response (Request × List InputCheck) :=
  match pipeline, r.body with
  | some p, .ok body =>
    match json.chatRequest body with
    | .error _ => .ok (r, [])
    | .ok req =>
      match checkMessages p 0 (req.messages.getD []) with
      | .error blockErr => .error (writeGuardrailError blockErr)
      | .ok (ms, log) =>
        -- a nil slice has no messages to change
        if ms = req.messages.getD [] then .ok (r, log)
        else .ok ({ r with body := .ok { req with messages := some ms }.marshal }, log)
  | _, _ => .ok (r, [])

/-! ## PromptInjector and ABTestMiddleware -/

def ChatCompletionRequest.inject (req : ChatCompletionRequest) (rendered : String) :
    ChatCompletionRequest :=
  { req with
    messages := some ({ role := "system", content := rendered } :: req.messages.getD [])
    promptSlug := ""
    promptVariables := [] }

/-- `PromptInjector`; `render` is `RenderActive` of the prompt service. -/
def promptInjector (json : Unmarshal)
    (render : (slug : String) → (vars : List (String × String)) → Except String String)
    (r : Request) : Request :=
  match r.body with
  | .error _ => r
  | .ok body =>
    match json.chatRequest body with
    | .error _ => r
    | .ok req =>
      if req.promptSlug = "" then r
      else
        match render req.promptSlug req.promptVariables with
        | .error _ => r
        | .ok rendered => { r with body := .ok (req.inject rendered).marshal }

/-- `abtest.Experiment`: the variant of an entity (empty for none), and the models of the variants. -/
structure Experiment where
  id : String
  assign : (entityID : String) → String
  trafficSplit : List (String × String)

def Experiment.modelForVariant (e : Experiment) (variant : String) : String :=
  match e.trafficSplit.find? fun s => s.1 == variant with
  | some s => s.2
  | none => ""

def Experiment.everyone : Experiment where
  id := "everyone"
  assign := fun _ => "treatment"
  trafficSplit := [("treatment", "gpt-4o")]

def variantModel (tests : List Experiment) (entityID : String) : Option String :=
  (tests.find? fun e => e.assign entityID ≠ "").map fun e => e.modelForVariant (e.assign entityID)

def ChatCompletionRequest.assign (req : ChatCompletionRequest) (model : String) :
    ChatCompletionRequest :=
  if model ≠ "" then { req with model := model } else req

theorem ChatCompletionRequest.assign_eq (req : ChatCompletionRequest) (model : String) :
    req.assign model = { req with model := if model ≠ "" then model else req.model } := by
  unfold assign
  split_ifs <;> rfl

def entityID (r : Request) (remoteAddr : String) : String :=
  let token := header r.headers "Authorization"
  if token = "" then remoteAddr else token

/-- `ABTestMiddleware.Handler`, up to the next handler. -/
def abTest (json : Unmarshal) (tests : List Experiment) (remoteAddr : String) (r : Request) :
    Request :=
  match r.body with
  | .error _ => r
  | .ok body =>
    match json.chatRequest body with
    | .error _ => r
    | .ok req =>
      match variantModel tests (entityID r remoteAddr) with
      | none => r
      | some model => { r with body := .ok (req.assign model).marshal }

/-! ## The three in order -/

/-- What the middlewares are set up with, and where the request comes from. -/
structure Stages where
  pipeline : Option Pipeline := none
  render : (slug : String) → (vars : List (String × String)) → Except String String :=
    fun _ _ => .error "prompt not found"
  tests : List Experiment := []
  remoteAddr : String := ""

namespace Stages

variable (st : Stages)

def pass (json : Unmarshal) (r : Request) : Except Response (Request × List InputCheck) :=
  (guardrailCheck json st.pipeline r).map fun (r, log) =>
    (abTest json st.tests st.remoteAddr (promptInjector json st.render (dataResidency r)), log)

def masked (req : ChatCompletionRequest) :
    Except BlockError (ChatCompletionRequest × List InputCheck) :=
  match st.pipeline with
  | none => .ok (req, [])
  | some p =>
    (checkMessages p 0 (req.messages.getD [])).map fun (ms, log) =>
      (if ms = req.messages.getD [] then req else { req with messages := some ms }, log)

def injected (req : ChatCompletionRequest) : Option String :=
  if req.promptSlug = "" then none else (st.render req.promptSlug req.promptVariables).toOption

def variant (r : Request) : Option String := variantModel st.tests (entityID r st.remoteAddr)

variable (r : Request) (req : ChatCompletionRequest)

def final : ChatCompletionRequest :=
  let req := (st.injected req).elim req req.inject
  (st.variant r).elim req req.assign

theorem final_eq : st.final r req = { req with
        model := (st.variant r).elim req.model fun model => if model ≠ "" then model else req.model
        messages := (st.injected req).elim req.messages fun rendered =>
          some ({ role := "system", content := rendered } :: req.messages.getD [])
        promptSlug := if (st.injected req).isSome then "" else req.promptSlug
        promptVariables := if (st.injected req).isSome then [] else req.promptVariables } := by
  unfold final
  cases st.injected req <;> cases st.variant r <;>
    simp [ChatCompletionRequest.inject, ChatCompletionRequest.assign_eq]

theorem final_messages : (st.final r req).messages.getD [] =
      ((st.injected req).map fun rendered => { role := "system", content := rendered }).toList ++
        req.messages.getD [] := by
  rw [final_eq]
  cases st.injected req <;> rfl

def Rewrites (r : Request) (req req₁ : ChatCompletionRequest) : Prop :=
  req₁ ≠ req ∨ (st.injected req₁).isSome ∨ (st.variant r).isSome

instance (r : Request) (req req₁ : ChatCompletionRequest) : Decidable (st.Rewrites r req req₁) :=
  inferInstanceAs (Decidable (req₁ ≠ req ∨ (st.injected req₁).isSome ∨ (st.variant r).isSome))

theorem not_rewrites {r : Request} {req req₁ : ChatCompletionRequest}
    (h : ¬ st.Rewrites r req req₁) : req₁ = req ∧ st.final r req₁ = req := by
  obtain ⟨hsame, hrest⟩ := not_or.mp h
  obtain ⟨hinjected, hvariant⟩ := not_or.mp hrest
  rw [Option.not_isSome_iff_eq_none] at hinjected hvariant
  obtain rfl : req₁ = req := not_not.mp hsame
  exact ⟨rfl, by simp [final, hinjected, hvariant]⟩

end Stages

/-! ## What reaches the handler -/

structure Carries (json : Unmarshal) (r : Request) (body : String) (req : ChatCompletionRequest) :
    Prop where
  holds : r.body = .ok body
  reads : json.chatRequest body = .ok req

theorem Carries.unique {json : Unmarshal} {r : Request} {body body' : String}
    {req req' : ChatCompletionRequest} (h : Carries json r body req)
    (h' : Carries json r body' req') : body = body' ∧ req = req' := by
  obtain rfl : body = body' := Except.ok.inj (h.holds.symm.trans h'.holds)
  exact ⟨rfl, Except.ok.inj (h.reads.symm.trans h'.reads)⟩

namespace ChatCompletionRequest

variable {enc : Encoding} {req : ChatCompletionRequest}

theorem Clean.withMessages (h : req.Clean enc) (ms : Option (List Message)) :
    Clean enc { req with messages := ms } :=
  { h with }

theorem Clean.inject (h : req.Clean enc) (rendered : String) : Clean enc (req.inject rendered) :=
  { h with promptVariables := List.Pairwise.nil }

theorem Clean.assign (h : req.Clean enc) (model : String) : Clean enc (req.assign model) := by
  rw [assign_eq]
  exact { h with }

end ChatCompletionRequest

section Stages

variable {enc : Encoding} {rest : Unmarshal} {st : Stages} {r : Request} {body : String}
  {req : ChatCompletionRequest}

theorem carries_marshal (h : req.Clean enc) (r : Request) :
    Carries (enc.json rest) { r with body := .ok req.marshal } req.marshal req :=
  ⟨rfl, ChatCompletionRequest.chatRequest_marshal h rest⟩

theorem carries_of_parse (hbody : r.body = .ok body) {fs : List (String × Json)}
    (hparse : parse body.toList = some (.obj fs)) (hreads : enc.chatRequest fs = some req) :
    Carries (enc.json rest) r body req := by
  refine ⟨hbody, ?_⟩
  rw [Encoding.json_chatRequest]
  exact Encoding.unmarshal_eq_ok.mpr ⟨.obj fs, hparse, hreads⟩

theorem Carries.clean (h : Carries (enc.json rest) r body req) : req.Clean enc :=
  ChatCompletionRequest.clean_of_body h.reads

theorem dataResidency_body (r : Request) : (dataResidency r).body = r.body := by
  unfold dataResidency
  dsimp only
  split_ifs <;> rfl

theorem dataResidency_headers (r : Request) : (dataResidency r).headers = r.headers := by
  unfold dataResidency
  dsimp only
  split_ifs <;> rfl

variable {req₁ : ChatCompletionRequest} {log : List InputCheck} {r' : Request}

theorem masked_eq_ok {p : Pipeline} (hp : st.pipeline = some p)
    (h : st.masked req = .ok (req₁, log)) :
    ∃ ms, checkMessages p 0 (req.messages.getD []) = .ok (ms, log) ∧
      req₁ = { req with
        messages := if ms = req.messages.getD [] then req.messages else some ms } := by
  simp only [Stages.masked, hp] at h
  obtain ⟨⟨ms, log'⟩, hms, heq⟩ := map_eq_ok.mp h
  obtain ⟨rfl, rfl⟩ := Prod.mk.inj heq
  refine ⟨ms, hms, ?_⟩
  dsimp only
  split_ifs <;> rfl

theorem guardrailCheck_carries (h : Carries (enc.json rest) r body req)
    (hcheck : guardrailCheck (enc.json rest) st.pipeline r = .ok (r', log)) :
    ∃ req₁, st.masked req = .ok (req₁, log) ∧ r'.headers = r.headers ∧
      Carries (enc.json rest) r' (if req₁ = req then body else req₁.marshal) req₁ := by
  unfold Stages.masked
  cases hp : st.pipeline with
  | none =>
    simp only [guardrailCheck, hp, Except.ok.injEq, Prod.mk.injEq] at hcheck
    obtain ⟨rfl, rfl⟩ := hcheck
    exact ⟨req, rfl, rfl, by simpa using h⟩
  | some p =>
    simp only [guardrailCheck, hp, h.holds, h.reads] at hcheck
    cases hms : checkMessages p 0 (req.messages.getD []) with
    | error e =>
      simp only [hms] at hcheck
      cases hcheck
    | ok res =>
      obtain ⟨ms, log'⟩ := res
      simp only [hms] at hcheck
      by_cases hsame : ms = req.messages.getD []
      · simp only [hsame, if_true, Except.ok.injEq, Prod.mk.injEq] at hcheck
        obtain ⟨rfl, rfl⟩ := hcheck
        exact ⟨req, by simp [hms, hsame, Except.map], rfl, by simpa using h⟩
      · simp only [hsame, if_false, Except.ok.injEq, Prod.mk.injEq] at hcheck
        obtain ⟨rfl, rfl⟩ := hcheck
        have hne : ({ req with messages := some ms } : ChatCompletionRequest) ≠ req := by
          intro heq
          have hmsgs : some ms = req.messages := congrArg ChatCompletionRequest.messages heq
          exact hsame (by rw [← hmsgs]; rfl)
        refine ⟨{ req with messages := some ms }, by simp [hms, hsame, Except.map], rfl, ?_⟩
        rw [if_neg hne]
        exact carries_marshal (h.clean.withMessages _) r

theorem promptInjector_carries (st : Stages) (h : Carries (enc.json rest) r body req) :
    (promptInjector (enc.json rest) st.render r).headers = r.headers ∧
      Carries (enc.json rest) (promptInjector (enc.json rest) st.render r)
        ((st.injected req).elim body fun rendered => (req.inject rendered).marshal)
        ((st.injected req).elim req req.inject) := by
  unfold promptInjector Stages.injected
  simp only [h.holds, h.reads]
  split_ifs with hslug
  · exact ⟨rfl, h⟩
  · cases st.render req.promptSlug req.promptVariables with
    | error e => exact ⟨rfl, h⟩
    | ok rendered => exact ⟨rfl, carries_marshal (h.clean.inject rendered) r⟩

theorem abTest_carries (st : Stages) (h : Carries (enc.json rest) r body req) :
    Carries (enc.json rest) (abTest (enc.json rest) st.tests st.remoteAddr r)
      ((st.variant r).elim body fun model => (req.assign model).marshal)
      ((st.variant r).elim req req.assign) := by
  unfold abTest Stages.variant
  simp only [h.holds, h.reads]
  cases variantModel st.tests (entityID r st.remoteAddr) with
  | none => exact h
  | some model => exact carries_marshal (h.clean.assign model) r

theorem Stages.body_eq (st : Stages) (r : Request) (body : String)
    (req req₁ : ChatCompletionRequest) :
    ((st.variant r).elim
      ((st.injected req₁).elim (if req₁ = req then body else req₁.marshal)
        fun rendered => (req₁.inject rendered).marshal)
      fun model => (((st.injected req₁).elim req₁ req₁.inject).assign model).marshal) =
      if st.Rewrites r req req₁ then (st.final r req₁).marshal else body := by
  obtain rfl | hne := eq_or_ne req₁ req <;>
    cases hi : st.injected req₁ <;> cases hv : st.variant r <;>
      simp [Stages.final, Stages.Rewrites, *]

/-- **What reaches the handler.** The request as the stages leave it, in the client's bytes unless
rewritten. -/
theorem pass_eq_ok (h : Carries (enc.json rest) r body req)
    (hpass : st.pass (enc.json rest) r = .ok (r', log)) :
    ∃ req₁, st.masked req = .ok (req₁, log) ∧
      Carries (enc.json rest) r'
        (if st.Rewrites r req req₁ then (st.final r req₁).marshal else body) (st.final r req₁) := by
  obtain ⟨⟨r₁, log₁⟩, hcheck, heq⟩ := map_eq_ok.mp hpass
  obtain ⟨rfl, rfl⟩ := Prod.mk.inj heq
  obtain ⟨req₁, hmasked, hheaders₁, h₁⟩ := guardrailCheck_carries h hcheck
  have h₂ : Carries (enc.json rest) (dataResidency r₁) _ req₁ :=
    ⟨(dataResidency_body r₁).trans h₁.holds, h₁.reads⟩
  obtain ⟨hheaders₃, h₃⟩ := promptInjector_carries st h₂
  have h₄ := abTest_carries st h₃
  have hvariant : st.variant (promptInjector (enc.json rest) st.render (dataResidency r₁)) =
      st.variant r := by
    unfold Stages.variant entityID
    rw [hheaders₃, dataResidency_headers, hheaders₁]
  rw [hvariant] at h₄
  refine ⟨req₁, hmasked, ?_⟩
  rw [Stages.body_eq] at h₄
  exact h₄

theorem pass_unread {json : Unmarshal} (hbody : r.body = .ok body) {err : String}
    (hread : json.chatRequest body = .error err) :
    st.pass json r = .ok (dataResidency r, []) := by
  have hbody' : (dataResidency r).body = .ok body := (dataResidency_body r).trans hbody
  have hcheck : guardrailCheck json st.pipeline r = .ok (r, []) := by
    unfold guardrailCheck
    rw [hbody]
    cases st.pipeline <;> simp [hread]
  simp [Stages.pass, hcheck, Except.map, promptInjector, abTest, hbody', hread]

theorem carries_of_pass {json : Unmarshal} (hbody : r.body = .ok body)
    (hpass : st.pass json r = .ok (r', log)) {body' : String} {req' : ChatCompletionRequest}
    (h' : Carries json r' body' req') : ∃ req, Carries json r body req := by
  cases hread : json.chatRequest body with
  | ok req => exact ⟨req, hbody, hread⟩
  | error err =>
    rw [pass_unread hbody hread] at hpass
    obtain ⟨rfl, -⟩ := Prod.mk.inj (Except.ok.inj hpass)
    have hholds := h'.holds
    rw [dataResidency_body, hbody, Except.ok.injEq] at hholds
    have hreads := h'.reads
    rw [← hholds, hread] at hreads
    cases hreads

end Stages

/-! ## What the handler sends -/

section Handler

variable {g : Setup} {r : Request} {body : String} {req : ChatCompletionRequest}

theorem chat_call {env : Env} {cb : Circuit.CircuitBreaker} {c : Call}
    (hc : c ∈ (g.handle env .chatCompletions r { cb := cb }).1.calls) :
    ∃ body req, Carries g.json r body req ∧ validateChatRequest req = .ok () ∧
      ∃ t : Target, c = t.call req.stream req body := by
  rcases (g.chat_sends env r { cb := cb }).mem hc with hold | hnew
  · cases hold
  · obtain ⟨body, req, chain, hplan, t, -, -, rfl⟩ := hnew
    obtain ⟨⟨hbody, hreads⟩, hvalid, -, -⟩ := ChatHandler.plan_eq_ok.mp hplan
    exact ⟨body, req, ⟨hbody, hreads⟩, hvalid, t, rfl⟩

def Setup.serving (json : Unmarshal) (provider : String) : Setup where
  json := json
  fallbackRouter := { registry := Registry.empty.register { name := provider } }

theorem exists_chat_call {json : Unmarshal} (h : Carries json r body req)
    (hvalid : validateChatRequest req = .ok ()) :
    ∃ env cb, ∃ t : Target, t.call req.stream req body ∈
      ((Setup.serving json (parseModel req.model).provider).handle env .chatCompletions r
        { cb := cb }).1.calls := by
  have hresolves : (Setup.serving json (parseModel req.model).provider).Resolves .chatCompletions r
      (modelTarget req.model) :=
    ⟨body, h.holds, req, _, h.reads, hvalid, rfl, List.mem_singleton_self _⟩
  have hserves : (Setup.serving json (parseModel req.model).provider).Serves .chatCompletions
      (parseModel req.model).provider := by
    simp [Setup.Serves, Setup.serving, Registry.get, Registry.register]
  obtain ⟨c, hc⟩ := Setup.exists_call hresolves hserves
  obtain ⟨body', req', h', -, t, rfl⟩ := chat_call hc
  obtain ⟨rfl, rfl⟩ := h.unique h'
  exact ⟨_, _, t, hc⟩

theorem accepted_chat {enc : Encoding} {rest : Unmarshal} (h : Carries (enc.json rest) r body req)
    (hvalid : validateChatRequest req = .ok ()) : ∃ fs, parse body.toList = some (.obj fs) := by
  have hreads := h.reads
  rw [Encoding.json_chatRequest] at hreads
  obtain ⟨v, hparse, hv⟩ := Encoding.unmarshal_eq_ok.mp hreads
  cases v with
  | obj fs => exact ⟨fs, hparse⟩
  | null =>
    -- a `null` body sets nothing, so it names no model
    obtain ⟨⟩ := hv
    cases hvalid
  | _ => cases hv

end Handler

end LlmRouter.Gateway
