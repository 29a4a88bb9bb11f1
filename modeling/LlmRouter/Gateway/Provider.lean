import LlmRouter.Gateway.Types
import LlmRouter.Gateway.CircuitBreaker
import LlmRouter.Lib.Run

/-!
# LlmRouter — providers, and one request's view of them

`internal/provider` as the handlers use it: the normalised errors, the error values of Go, the
adapter registry. What a handler does not control (the answers of providers, the context, the
clock, other requests on the breaker) is `Env`, a function of the calls made so far; what the run
itself does is kept in a `Session`.
-/

namespace LlmRouter.Gateway

open Lib Circuit

/-! ## Errors -/

inductive GatewayErrorCode where
  | invalidRequest
  | authFailed
  | permissionDenied
  | modelNotFound
  | contextTooLong
  | rateLimited
  | providerError
  | timeout
  | networkError
  | overloaded
  deriving DecidableEq, Repr

def GatewayErrorCode.text : GatewayErrorCode → String
  | .invalidRequest => "invalid_request_error"
  | .authFailed => "authentication_error"
  | .permissionDenied => "permission_error"
  | .modelNotFound => "model_not_found"
  | .contextTooLong => "context_length_exceeded"
  | .rateLimited => "rate_limit_error"
  | .providerError => "provider_error"
  | .timeout => "timeout_error"
  | .networkError => "network_error"
  | .overloaded => "overloaded_error"

structure GatewayError where
  code : GatewayErrorCode
  message : String
  httpStatus : Nat
  retryAfter : Int := 0
  deriving DecidableEq, Repr

def GatewayError.isRetryable (e : GatewayError) : Bool :=
  match e.code with
  | .rateLimited | .providerError | .timeout | .networkError | .overloaded => true
  | _ => false

/-- The error values told apart. `wrap` is `fmt.Errorf` with a final `%w`. -/
inductive GoError where
  | gateway (e : GatewayError)
  | canceled
  | deadlineExceeded
  | other (text : String)
  | wrap (message : String) (inner : GoError)
  deriving DecidableEq, Repr

def GoError.text : GoError → String
  | .gateway e => e.code.text ++ ": " ++ e.message
  | .canceled => "context canceled"
  | .deadlineExceeded => "context deadline exceeded"
  | .other text => text
  | .wrap message inner => message ++ inner.text

def GoError.asGateway : GoError → Option GatewayError
  | .gateway e => some e
  | .wrap _ inner => inner.asGateway
  | _ => none

/-- `errors.Is(err, context.Canceled) || errors.Is(err, context.DeadlineExceeded)`. -/
def GoError.isContext : GoError → Bool
  | .canceled | .deadlineExceeded => true
  | .wrap _ inner => inner.isContext
  | _ => false

/-- The `%q` of `fmt`. A character above ASCII is taken to be printable. -/
def goQuote (s : String) : String :=
  "\"" ++ String.join (s.toList.map quoteChar) ++ "\""
where
  quoteChar (c : Char) : String :=
    match c with
    | '"' => "\\\""
    | '\\' => "\\\\"
    | '\n' => "\\n"
    | '\r' => "\\r"
    | '\t' => "\\t"
    | _ =>
      if c.toNat = 7 then "\\a"
      else if c.toNat = 8 then "\\b"
      else if c.toNat = 11 then "\\v"
      else if c.toNat = 12 then "\\f"
      else if c.toNat < 32 ∨ c.toNat = 127 then
        String.ofList ['\\', 'x', Nat.digitChar (c.toNat / 16), Nat.digitChar (c.toNat % 16)]
      else c.toString

/-! ## Adapters -/

/-- An adapter: its name, and whether it is also an `EmbeddingProvider`. -/
structure Provider where
  name : String
  embeds : Bool := false
  deriving DecidableEq, Repr

/-- `provider.Registry`. Adapters are kept under their own names. -/
structure Registry where
  providers : String → Option Provider
  keyed : ∀ {name p}, providers name = some p → p.name = name

def Registry.empty : Registry where
  providers := fun _ => none
  keyed := by
    intro name p h
    cases h

def Registry.register (r : Registry) (p : Provider) : Registry where
  providers := Function.update r.providers p.name (some p)
  keyed := by
    intro name q h
    by_cases hname : name = p.name
    · subst hname
      rw [Function.update_self, Option.some.injEq] at h
      rw [h]
    · rw [Function.update_of_ne hname] at h
      exact r.keyed h

def Registry.get (r : Registry) (name : String) : Option Provider := r.providers name

structure StreamChunk where
  delta : String := ""
  finishReason : Option String := none
  usage : Option Usage := none
  error : Option GoError := none
  deriving DecidableEq, Repr

inductive Call where
  | chatCompletion (provider model : String) (req : ChatCompletionRequest) (rawBody : String)
  | chatCompletionStream (provider model : String) (req : ChatCompletionRequest)
      (rawBody : String)
  | embed (provider model : String) (req : EmbeddingRequest)
  deriving DecidableEq, Repr

def Call.provider : Call → String
  | .chatCompletion p _ _ _ | .chatCompletionStream p _ _ _ | .embed p _ _ => p

/-! ## One request against its environment -/

/-- What a run of a handler meets; it may depend on all calls made so far, the last one included. -/
structure Env where
  chatCompletion : List Call → Except GoError ChatCompletionResponse
  chatCompletionStream : List Call → Except GoError (List StreamChunk)
  embed : List Call → Except GoError EmbeddingResponse
  /-- The context's error, if it is done before this delay has passed. -/
  ctxDone : List Call → (delay : Int) → Option GoError
  /-- A lookup in the embedding cache. -/
  cachedEmbedding : String → Except GoError (Option EmbeddingResponse)
  /-- The random draws in `[0, 1)` of the retry jitter. -/
  jitter : Nat → ℚ
  /-- The instant of the `n`-th access to the breaker. -/
  clock : Nat → Int
  /-- What other requests did to the breaker before the `n`-th access. -/
  others : Nat → CircuitBreaker → CircuitBreaker

/-- The fields of `telemetry.RequestLogContext` that the handlers write. -/
structure RequestLogContext where
  model : String := ""
  provider : String := ""
  promptTokens : Int := 0
  completionTokens : Int := 0
  totalTokens : Int := 0
  finishReason : String := ""
  errorCode : String := ""
  errorMessage : String := ""
  isStreaming : Bool := false
  cacheResult : String := ""
  deriving DecidableEq, Repr

structure Session where
  cb : CircuitBreaker
  accesses : Nat := 0
  calls : List Call := []
  log : RequestLogContext := {}

namespace Session

variable (env : Env) (s : Session)

def isOpen (provider : String) : Session × Bool :=
  let r := (env.others s.accesses s.cb).isOpen provider (env.clock s.accesses)
  ({ s with cb := r.1, accesses := s.accesses + 1 }, r.2)

def recordSuccess (provider : String) : Session :=
  { s with
    cb := (env.others s.accesses s.cb).recordSuccess provider
    accesses := s.accesses + 1 }

def recordFailure (provider : String) : Session :=
  { s with
    cb := (env.others s.accesses s.cb).recordFailure provider (env.clock s.accesses)
    accesses := s.accesses + 1 }

def chatCompletion (p : Provider) (model : String)
    (req : ChatCompletionRequest) (rawBody : String) :
    Session × Except GoError ChatCompletionResponse :=
  let calls := s.calls ++ [.chatCompletion p.name model req rawBody]
  ({ s with calls := calls }, env.chatCompletion calls)

def chatCompletionStream (p : Provider) (model : String)
    (req : ChatCompletionRequest) (rawBody : String) :
    Session × Except GoError (List StreamChunk) :=
  let calls := s.calls ++ [.chatCompletionStream p.name model req rawBody]
  ({ s with calls := calls }, env.chatCompletionStream calls)

def embed (p : Provider) (model : String) (req : EmbeddingRequest) :
    Session × Except GoError EmbeddingResponse :=
  let calls := s.calls ++ [.embed p.name model req]
  ({ s with calls := calls }, env.embed calls)

def setModel (s : Session) (model provider : String) : Session :=
  { s with log := { s.log with model := model, provider := provider } }

def setTokens (s : Session) (prompt completion total : Int) : Session :=
  { s with
    log := { s.log with
      promptTokens := prompt, completionTokens := completion, totalTokens := total } }

def setFinishReason (s : Session) (reason : String) : Session :=
  { s with log := { s.log with finishReason := reason } }

def setError (s : Session) (code message : String) : Session :=
  { s with log := { s.log with errorCode := code, errorMessage := message } }

def setStreaming (s : Session) : Session := { s with log := { s.log with isStreaming := true } }

def setCacheResult (s : Session) (result : String) : Session :=
  { s with log := { s.log with cacheResult := result } }

end Session

end LlmRouter.Gateway
