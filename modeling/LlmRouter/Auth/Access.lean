import LlmRouter.Lib.Utf8
import LlmRouter.Gateway.Forwarding

/-!
# LlmRouter — authentication and model access

`VirtualKeyMiddleware` in front of the /v1 routes finds and checks the key of the bearer token.
`serve` is the route behind it, with the middlewares in between as one arbitrary step. The model
lists of a key (`canAccessModel`) play no part in any of this.
-/

namespace LlmRouter.Auth

open Gateway Lib

/-- The errors of `Store.GetByHash`: `ErrKeyNotFound`, or any other. -/
inductive LookupError where
  | keyNotFound
  | other (text : String)
  deriving DecidableEq, Repr

/-- `auth.VirtualKeyMiddleware`: the digest, the key cache and the key store, as
they answer this request. -/
structure VirtualKeyMiddleware where
  sha256Hex : List Char → String
  cacheGet : (keyHash : String) → Except String (Option VirtualKey)
  getByHash : (keyPrefix : Bytes) → (keyHash : String) → Except LookupError VirtualKey

def bearerToken (r : Request) : String :=
  let h := (header r.headers "Authorization").toList
  if "Bearer ".toList.isPrefixOf h then String.ofList (h.drop "Bearer ".length) else ""

def writeAuthError (msg : String) : Response :=
  writeError 401 { message := msg, type := "invalid_request_error", code := "invalid_api_key" }

/-- The first seven bytes, which may end within a character. -/
def lookupPrefix (rawKey : String) : Bytes := (Utf8.bytes rawKey).take 7

namespace VirtualKeyMiddleware

variable (m : VirtualKeyMiddleware)

def hashKey (rawKey : String) : String := m.sha256Hex rawKey.toList

def findKey (rawKey : String) : Except Response VirtualKey :=
  match m.cacheGet (m.hashKey rawKey) with
  | .ok (some key) => .ok key
  | _ =>
    match m.getByHash (lookupPrefix rawKey) (m.hashKey rawKey) with
    | .ok key => .ok key
    | .error .keyNotFound => .error (writeAuthError "invalid API key")
    | .error (.other _) => .error (writeAuthError "authentication error")

/-- `Middleware` up to the next handler: an error response, or the request with
its key. -/
def authenticate (now : Int) (r : Request) : Except Response Request := do
  let rawKey := bearerToken r
  if rawKey = "" then
    throw (writeAuthError "missing or malformed Authorization header")
  let key ← m.findKey rawKey
  match key.isValid now with
  | .error .keyExpired => throw (writeAuthError "API key has expired")
  | .error _ => throw (writeAuthError "API key is inactive")
  | .ok _ => return { r with virtualKey := some key }

end VirtualKeyMiddleware

def serve (g : Setup) (m : VirtualKeyMiddleware) (between : Request → Except Reply Request)
    (env : Env) (now : Int) (route : Route) (r : Request) (s : Session) : Session × Reply :=
  match m.authenticate now r with
  | .error resp => (s, .response resp)
  | .ok r =>
    match between r with
    | .error reply => (s, reply)
    | .ok r => g.handle env route r s

def Names (g : Setup) (route : Route) (r : Request) (model : String) : Prop :=
  ∃ body, r.body = .ok body ∧
    match route with
    | .chatCompletions => ∃ req, g.json.chatRequest body = .ok req ∧ req.model = model
    | .completions => ∃ req, g.json.completionRequest body = .ok req ∧ req.model = model
    | .embeddings => ∃ req, g.json.embeddingRequest body = .ok req ∧ req.model = model

structure Arrives (g : Setup) (m : VirtualKeyMiddleware) (now : Int) (route : Route)
    (r r' : Request) (k : VirtualKey) (model : String) : Prop where
  names : Names g route r model
  auth : m.authenticate now r = .ok r'
  key : r'.virtualKey = some k

def NeverForwarded (g : Setup) (m : VirtualKeyMiddleware)
    (between : Request → Except Reply Request) (now : Int) (route : Route) (r : Request) : Prop :=
  ∀ env cb, (serve g m between env now route r { cb := cb }).1.calls = []

theorem serve_of_auth {g : Setup} {m : VirtualKeyMiddleware}
    {between : Request → Except Reply Request} {now : Int} {route : Route} {r r' : Request}
    (hauth : m.authenticate now r = .ok r') (env : Env) (s : Session) :
    serve g m between env now route r s =
      match between r' with
      | .error reply => (s, reply)
      | .ok r => g.handle env route r s := by
  rw [serve, hauth]

theorem neverForwarded_iff {g : Setup} {m : VirtualKeyMiddleware}
    {between : Request → Except Reply Request} {now : Int} {route : Route} {r r' : Request}
    (hauth : m.authenticate now r = .ok r') :
    NeverForwarded g m between now route r ↔
      ∀ r'', between r' = .ok r'' → ∀ t, g.Resolves route r'' t → ¬ g.Serves route t.provider := by
  constructor
  · intro hnever r'' hpass t hresolves hserves
    obtain ⟨c, hc⟩ := Setup.exists_call hresolves hserves
    have hcalls := hnever .failing (Circuit.new Circuit.defaultConfig)
    rw [serve_of_auth hauth, hpass] at hcalls
    rw [hcalls] at hc
    cases hc
  · intro hnone env cb
    rw [serve_of_auth hauth]
    cases hpass : between r' with
    | error reply => rfl
    | ok r'' =>
      refine List.eq_nil_iff_forall_not_mem.mpr fun c hc => ?_
      obtain ⟨t, hresolves, hserves, -⟩ := Setup.reaches_of_mem_calls hc
      exact hnone r'' hpass t hresolves hserves

/-- **Model access.** A request for a model that its key may not use is never forwarded iff the key
may use it after all, or something else stops it: a middleware, the handler, or the lack of a
provider. The key's lists are not consulted. -/
theorem modelAccess_iff {g : Setup} {m : VirtualKeyMiddleware}
    (between : Request → Except Reply Request) {now : Int} {route : Route} {r r' : Request}
    {k : VirtualKey} {model : String} (h : Arrives g m now route r r' k model) :
    (k.canAccessModel model ≠ .ok () → NeverForwarded g m between now route r) ↔
      k.canAccessModel model = .ok () ∨
        ∀ r'', between r' = .ok r'' → ∀ t, g.Resolves route r'' t →
          ¬ g.Serves route t.provider := by
  rw [neverForwarded_iff h.auth]
  exact imp_iff_not_or.trans (or_congr_left not_not)

def restrictedKey : VirtualKey := { id := "k1", blockedModels := ["gpt-4o"] }

def restrictedStore : VirtualKeyMiddleware where
  sha256Hex := String.ofList
  cacheGet := fun _ => .ok none
  getByHash := fun _ hash => if hash = "sk-1" then .ok restrictedKey else .error .keyNotFound

def restrictedChat : Request where
  headers := [("Authorization", "Bearer sk-1")]
  body := .ok Setup.chatBody

theorem modelAccess_iff_residency :
    restrictedKey.canAccessModel "gpt-4o" = .error .modelBlocked ∧
      NeverForwarded Setup.euGateway restrictedStore .ok 0 .chatCompletions
        { restrictedChat with policy := "eu-only" } := by
  have h : Arrives Setup.euGateway restrictedStore 0 .chatCompletions
      { restrictedChat with policy := "eu-only" }
      { restrictedChat with policy := "eu-only", virtualKey := some restrictedKey }
      restrictedKey "gpt-4o" :=
    { names := ⟨_, rfl, _, rfl, rfl⟩, auth := rfl, key := rfl }
  refine ⟨by decide, (modelAccess_iff .ok h).mpr (.inr ?_) (by decide)⟩
  -- the policy leaves no provider for the model
  rintro r'' ⟨⟩ t ⟨body, ⟨⟩, req, chain, ⟨⟩, -, hcomply, -⟩ -
  cases hcomply

theorem blocked_model_is_forwarded :
    restrictedKey.canAccessModel "gpt-4o" = .error .modelBlocked ∧
      ((serve Setup.euGateway restrictedStore .ok .failing 0 .chatCompletions restrictedChat
        { cb := Circuit.new Circuit.defaultConfig }).1.calls.map Call.provider) = ["openai"] :=
  ⟨by decide, by decide⟩

end LlmRouter.Auth
