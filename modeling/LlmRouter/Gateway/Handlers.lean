import LlmRouter.Gateway.Residency
import LlmRouter.Cache.Key

/-!
# LlmRouter — the /v1 handlers

`ChatHandler`, `CompletionsHandler` and `EmbeddingsHandler`, wired as `router.Setup` wires them
(`Setup`). The decoders of the request types are a parameter (`Unmarshal`). A handler turns the
request into what it will do, or into an error response (`plan`), and then calls providers
(`forward`).
-/

namespace LlmRouter.Gateway

open Lib Auth Residency Circuit

/-! ## Requests and replies -/

structure Unmarshal where
  chatRequest : String → Except String ChatCompletionRequest
  completionRequest : String → Except String CompletionRequest
  embeddingRequest : String → Except String EmbeddingRequest
  chatResponse : String → Except String ChatCompletionResponse
  string : RawMessage → Except String String
  strings : RawMessage → Except String (List String)
  any : RawMessage → Except String Json

/-- Headers, what reading at most 10 MiB of the body gives, and the two values of the context. -/
structure Request where
  headers : List (String × String) := []
  body : Except Unit String
  virtualKey : Option VirtualKey := none
  policy : String := ""
  deriving DecidableEq

/-- `middleware.DataResidency`: the policy header goes into the context. -/
def dataResidency (r : Request) : Request :=
  let policyName := header r.headers "X-Data-Residency-Policy"
  if policyName ≠ "" then { r with policy := policyName } else r

/-- A response, or an open stream handed to `proxy.StreamChannelToClient` or
`StreamTextChannelToClient`. -/
inductive Reply where
  | response (r : Response)
  | stream (chunks : List StreamChunk) (model provider : String)
  | textStream (chunks : List StreamChunk) (model provider : String)
  deriving DecidableEq, Repr

def badRequest (message : String) (code : String := "") : Response :=
  writeError 400 { message := message, type := "invalid_request_error", code := code }

def readJSON {α : Type} (unmarshal : String → Except String α) (r : Request) :
    Except Response (String × α) :=
  match r.body with
  | .error _ => .error (badRequest "failed to read request body")
  | .ok body =>
    match unmarshal body with
    | .error err => .error (badRequest ("invalid JSON: " ++ err))
    | .ok req => .ok (body, req)

variable (s : Session)

/-- The error of a fallback execution. `code` is for the log context if it is not a gateway error. -/
def upstreamError (code : String) (err : GoError) : Session × Reply :=
  match err.asGateway with
  | some gwErr =>
    (s.setError gwErr.code.text gwErr.message,
      .response (writeError gwErr.httpStatus { message := gwErr.message, type := gwErr.code.text }))
  | none =>
    (s.setError code err.text,
      .response (writeError 502 { message := err.text, type := "api_error" }))

def Session.noteUsage (usage : Option Usage) : Session :=
  match usage with
  | some u => s.setTokens u.promptTokens u.completionTokens u.totalTokens
  | none => s

def Session.noteFinish (reason : Option String) : Session :=
  match reason with
  | some reason => s.setFinishReason reason
  | none => s

def Session.noteUsed (model primary used : String) : Session :=
  if used ≠ primary then s.setModel model used else s

@[simp] theorem upstreamError_calls (code : String) (err : GoError) :
    (upstreamError s code err).1.calls = s.calls := by
  unfold upstreamError
  split <;> rfl

@[simp] theorem Session.noteUsage_calls (usage : Option Usage) :
    (s.noteUsage usage).calls = s.calls := by
  cases usage <;> rfl

@[simp] theorem Session.noteFinish_calls (reason : Option String) :
    (s.noteFinish reason).calls = s.calls := by
  cases reason <;> rfl

@[simp] theorem Session.noteUsed_calls (model primary used : String) :
    (s.noteUsed model primary used).calls = s.calls := by
  unfold Session.noteUsed
  split_ifs <;> rfl

/-- `parseModel`: "provider/model", or the default provider if there is no slash
or nothing before it. -/
def parseModel (model : String) : ParsedModel :=
  let provider := model.toList.takeWhile (· ≠ '/')
  match model.toList.dropWhile (· ≠ '/') with
  | [] => { provider := "openai", model := model }
  | _ :: rest =>
    if provider ≠ [] then
      { provider := String.ofList provider, model := String.ofList rest }
    else { provider := "openai", model := model }

/-! ## Chat completions -/

/-- `handler.ChatHandler`. The resolver of the advanced router is any function
of the request's context and body. -/
structure ChatHandler where
  json : Unmarshal
  fallbackRouter : Router
  advRouter : Option (Option VirtualKey → ChatCompletionRequest → Chain × Bool) := none
  residencyEnforcer : Option Enforcer := none
  chains : List Chain := []

def validateChatRequest (req : ChatCompletionRequest) : Except String Unit :=
  if req.model = "" then .error "model is required"
  else if req.messages.getD [] = [] then .error "messages is required and must not be empty"
  else
    match req.temperature.filter (fun t => t.ltInt 0 || t.gtInt 2) with
    | some t =>
      .error ("temperature must be between 0.0 and 2.0, got " ++ String.ofList t.formatG)
    | none =>
      if req.maxTokens.any (fun n => decide (n ≤ 0)) then
        .error "max_tokens must be a positive integer"
      else .ok ()

namespace ChatHandler

variable (h : ChatHandler)

/-- `resolveChain`: a configured chain of that name (the last one set), or the
single target that the model names. -/
def resolveChain (model : String) : Chain :=
  match h.chains.reverse.find? fun c => c.name == model with
  | some c => c
  | none =>
    let parsed := parseModel model
    singleTarget parsed.provider parsed.model

/-- Advanced routing takes precedence over named-chain config routing. -/
def route (r : Request) (req : ChatCompletionRequest) : Chain :=
  match h.advRouter with
  | none => h.resolveChain req.model
  | some resolve =>
    let resolved := resolve r.virtualKey req
    if resolved.2 then resolved.1 else h.resolveChain req.model

def comply (r : Request) (chain : Chain) (model : String) :
    Except ErrNoCompliantProvider Chain :=
  match h.residencyEnforcer with
  | none => .ok chain
  | some enforcer => if r.policy ≠ "" then enforcer.filterChain r.policy chain model else .ok chain

/-- `Handle` up to the first provider call. -/
def plan (r : Request) : Except Response (String × ChatCompletionRequest × Chain) := do
  let (body, req) ← readJSON h.json.chatRequest r
  (validateChatRequest req).mapError badRequest
  let chain := h.route r req
  if chain.targets.length = 0 then
    throw (badRequest ("no provider available for model: " ++ req.model) "model_not_found")
  let chain ← (h.comply r chain req.model).mapError fun err =>
    writeError 451 { message := err.text, type := "data_residency_violation",
                     code := "no_compliant_provider" }
  return (body, req, chain)

/-- `Handle` from the first provider call on. -/
def forward (env : Env) (body : String) (req : ChatCompletionRequest) (chain : Chain)
    (s : Session) : Session × Reply :=
  -- the chain is not empty here (`plan`)
  let s := s.setModel req.model chain.primary
  if req.stream then
    let out := h.fallbackRouter.executeStream env chain req body s.setStreaming
    match out.2 with
    | .error err => upstreamError out.1 "stream_error" err.2
    | .ok answer =>
      (out.1.noteUsed req.model chain.primary answer.2.provider,
        .stream answer.1 req.model answer.2.provider)
  else
    let out := h.fallbackRouter.execute env chain req body s
    match out.2 with
    | .error err => upstreamError out.1 "api_error" err.2
    | .ok answer =>
      let finish := ((answer.1.choices.getD []).head?).map Choice.finishReason
      let s := out.1.noteUsed req.model chain.primary answer.2.provider
      ((s.noteUsage answer.1.usage).noteFinish finish,
        .response (writeJSON 200 answer.1.toJson))

def handle (env : Env) (r : Request) (s : Session) : Session × Reply :=
  match h.plan r with
  | .error resp => (s, .response resp)
  | .ok (body, req, chain) => h.forward env body req chain s

end ChatHandler

/-! ## Legacy completions -/

structure CompletionsHandler where
  json : Unmarshal
  fallbackRouter : Router

def promptToMessages (json : Unmarshal) (raw : RawMessage) : Except String (List Message) :=
  match json.string raw with
  | .ok s =>
    if s = "" then .error "prompt must not be empty"
    else .ok [{ role := "user", content := s }]
  | .error _ =>
    match json.strings raw with
    | .ok ss =>
      if ss.head?.getD "" = "" then .error "prompt must not be empty"
      else .ok [{ role := "user", content := ss.head?.getD "" }]
    | .error _ => .error "prompt must be a string or array of strings"

def chatToCmplResponse (chat : ChatCompletionResponse) (model : String) : CompletionResponse :=
  { id := chat.id
    object := "text_completion"
    created := chat.created
    model := model
    choices := some ((chat.choices.getD []).map fun c =>
      { index := c.index, text := c.message.content, finishReason := c.finishReason })
    usage := chat.usage }

/-- The checks of `CompletionsHandler.Handle`, and the messages of the prompt. -/
def validateCompletionRequest (json : Unmarshal) (req : CompletionRequest) :
    Except String (List Message) :=
  if req.model = "" then .error "model is required"
  else if req.prompt.length = 0 then .error "prompt is required"
  else if req.maxTokens.any (fun n => decide (n ≤ 0)) then
    .error "max_tokens must be a positive integer"
  else promptToMessages json req.prompt

namespace CompletionsHandler

variable (h : CompletionsHandler)

/-- `Handle` up to the first provider call. -/
def plan (r : Request) :
    Except Response (String × CompletionRequest × ChatCompletionRequest) := do
  let (body, req) ← readJSON h.json.completionRequest r
  let msgs ← (validateCompletionRequest h.json req).mapError badRequest
  return (body, req,
    { model := req.model, messages := some msgs, temperature := req.temperature,
      maxTokens := req.maxTokens, stream := req.stream, user := req.user })

def chain (req : CompletionRequest) : Chain :=
  singleTarget (parseModel req.model).provider (parseModel req.model).model

/-- `Handle` from the first provider call on. -/
def forward (env : Env) (body : String) (req : CompletionRequest)
    (chatReq : ChatCompletionRequest) (s : Session) : Session × Reply :=
  let primary := (parseModel req.model).provider
  let s := s.setModel req.model primary
  if req.stream then
    let out := h.fallbackRouter.executeStream env (chain req) chatReq body s.setStreaming
    match out.2 with
    | .error err => upstreamError out.1 "stream_error" err.2
    | .ok answer =>
      (out.1.setModel req.model answer.2.provider,
        .textStream answer.1 req.model answer.2.provider)
  else
    let out := h.fallbackRouter.execute env (chain req) chatReq body s
    match out.2 with
    | .error err => upstreamError out.1 "api_error" err.2
    | .ok answer =>
      let cmplResp := chatToCmplResponse answer.1 req.model
      let finish := ((cmplResp.choices.getD []).head?).map CompletionChoice.finishReason
      let s := out.1.noteUsed req.model primary answer.2.provider
      ((s.noteUsage answer.1.usage).noteFinish finish, .response (writeJSON 200 cmplResp.toJson))

def handle (env : Env) (r : Request) (s : Session) : Session × Reply :=
  match h.plan r with
  | .error resp => (s, .response resp)
  | .ok (body, req, chatReq) => h.forward env body req chatReq s

end CompletionsHandler

/-! ## Embeddings -/

/-- `handler.EmbeddingsHandler`; `cache` is whether the exact cache is set. -/
structure EmbeddingsHandler where
  json : Unmarshal
  sha256Hex : List Char → String
  registry : Registry
  cache : Bool := false

/-- The checks of `EmbeddingsHandler.Handle`. -/
def validateEmbeddingRequest (req : EmbeddingRequest) : Except String Unit :=
  if req.model = "" then .error "model is required"
  else if req.input.length = 0 then .error "input is required"
  else .ok ()

namespace EmbeddingsHandler

variable (h : EmbeddingsHandler)

/-- `Handle` up to the cache lookup: the adapter and the request. -/
def plan (r : Request) : Except Response (Provider × EmbeddingRequest) := do
  let (_, req) ← readJSON h.json.embeddingRequest r
  (validateEmbeddingRequest req).mapError badRequest
  let parsed := parseModel req.model
  match h.registry.get parsed.provider with
  | none => throw (badRequest ("Invalid model: " ++ req.model) "model_not_found")
  | some prov =>
    if prov.embeds then return (prov, req)
    else throw (badRequest ("provider " ++ parsed.provider ++ " does not support embeddings"))

def cacheKey (r : Request) (req : EmbeddingRequest) : String :=
  if h.cache ∧ Cache.isEmbeddingCacheable r.headers then
    Cache.buildEmbeddingKey h.sha256Hex h.json.any req
  else ""

def lookup (env : Env) (key : String) : Option EmbeddingResponse :=
  if key = "" then none
  else
    match env.cachedEmbedding key with
    | .error _ => none
    | .ok entry => entry

def forward (env : Env) (prov : Provider) (req : EmbeddingRequest) (s : Session) :
    Session × Reply :=
  let parsed := parseModel req.model
  let out := s.embed env prov parsed.model req
  match out.2 with
  | .error err =>
    match err.asGateway with
    | some gwErr =>
      (out.1, .response (writeError gwErr.httpStatus
        { message := gwErr.message, type := gwErr.code.text }))
    | none =>
      (out.1, .response (writeError 502
        { message := "upstream network error", type := "api_error" }))
  | .ok resp =>
    let s := out.1.setModel req.model parsed.provider
    let usage := resp.usage.map fun u =>
      { u with promptTokens := u.totalTokens, completionTokens := 0 }
    (s.noteUsage usage, .response (writeJSON 200 resp.toJson))

def handle (env : Env) (r : Request) (s : Session) : Session × Reply :=
  match h.plan r with
  | .error resp => (s, .response resp)
  | .ok (prov, req) =>
    match lookup env (h.cacheKey r req) with
    | some entry =>
      let hit := writeJSON 200 entry.toJson
      ((s.setCacheResult "hit").setModel req.model (parseModel req.model).provider,
        .response { hit with headers := ("X-Cache", "HIT") :: hit.headers })
    | none => forward env prov req s

end EmbeddingsHandler

/-! ## The wiring -/

inductive Route where
  | chatCompletions
  | completions
  | embeddings
  deriving DecidableEq, Repr

structure Setup where
  json : Unmarshal
  sha256Hex : List Char → String := String.ofList
  fallbackRouter : Router
  chains : List Chain := []
  advancedRouter : Option (Option VirtualKey → ChatCompletionRequest → Chain × Bool) := none
  residencyEnforcer : Option Enforcer := none
  exactCache : Bool := false

namespace Setup

variable (g : Setup)

def chat : ChatHandler where
  json := g.json
  fallbackRouter := g.fallbackRouter
  advRouter := g.advancedRouter
  residencyEnforcer := g.residencyEnforcer
  chains := g.chains

def comp : CompletionsHandler where
  json := g.json
  fallbackRouter := g.fallbackRouter

def emb : EmbeddingsHandler where
  json := g.json
  sha256Hex := g.sha256Hex
  registry := g.fallbackRouter.registry
  cache := g.exactCache

def handle (env : Env) (route : Route) (r : Request) (s : Session) : Session × Reply :=
  match route with
  | .chatCompletions => g.chat.handle env r s
  | .completions => g.comp.handle env r s
  | .embeddings => g.emb.handle env r s

end Setup

end LlmRouter.Gateway
