import LlmRouter.Gateway.Stages
import LlmRouter.Provider.Adapters
import Mathlib.Data.List.TakeWhile

/-!
# LlmRouter — the models of self-hosted servers

A self-hosted adapter has a table from gateway IDs (`ollama/llama3`) to the names that its server
uses. `parseModel` in the handler takes the provider off the ID, so the lookup of `resolveModel`
misses and falls back to what follows the next slash; `selfhosted_model_iff` says when that is
right all the same.
-/

namespace LlmRouter.Adapters

open Gateway Lib Lib.Json List

/-! ## Prefixes -/

theorem cut_slash {pre : List Char} (hpre : '/' ∉ pre) (rest : List Char) :
    (pre ++ '/' :: rest).takeWhile (· ≠ '/') = pre ∧
      (pre ++ '/' :: rest).dropWhile (· ≠ '/') = '/' :: rest := by
  have hall : ∀ c ∈ pre, decide (c ≠ '/') = true := fun c hc =>
    decide_eq_true fun h => hpre (h ▸ hc)
  constructor
  · rw [takeWhile_append_of_pos hall]
    simp
  · rw [dropWhile_append_of_pos hall]
    simp

theorem toList_id (name m : String) :
    (name ++ "/" ++ m).toList = name.toList ++ '/' :: m.toList := by
  simp

theorem parseModel_id {name : String} (hname : name ≠ "") (hslash : '/' ∉ name.toList)
    (m : String) : parseModel (name ++ "/" ++ m) = ⟨name, m⟩ := by
  obtain ⟨htake, hdrop⟩ := cut_slash hslash m.toList
  have hne : name.toList ≠ [] := by simpa using hname
  simp only [parseModel, toList_id, htake, hdrop, if_pos hne, String.ofList_toList]

theorem parseModel_provider (model : String) :
    (parseModel model).provider ≠ "" ∧ '/' ∉ (parseModel model).provider.toList := by
  have hopenai : "openai" ≠ "" ∧ '/' ∉ "openai".toList := by decide
  rw [parseModel]
  split
  · exact hopenai
  · split_ifs with hne
    · refine ⟨by simpa using hne, fun hmem => ?_⟩
      rw [String.toList_ofList] at hmem
      simpa using mem_takeWhile_imp hmem
    · exact hopenai

/-! ## The server's name -/

namespace SelfHosted

def stripped (model : String) : String :=
  match model.toList.dropWhile (· ≠ '/') with
  | [] => model
  | _ :: rest => String.ofList rest

/-- The adapter's name for a model: that of the entry with this ID, or what follows the
slash. -/
def Names (models : List (String × String)) (model serverName : String) : Prop :=
  (model, serverName) ∈ models ∨ ((∀ e ∈ models, e.1 ≠ model) ∧ stripped model = serverName)

theorem resolveModel_eq_iff {models : List (String × String)}
    (hids : (models.map Prod.fst).Nodup) {model serverName : String} :
    resolveModel models model = serverName ↔ Names models model serverName := by
  unfold resolveModel Names
  cases hfind : models.find? fun e => e.1 == model with
  | none =>
    have hnone : ∀ e ∈ models, e.1 ≠ model := by simpa using hfind
    have hnot : (model, serverName) ∉ models := fun h => hnone _ h rfl
    rw [or_iff_right hnot, and_iff_right hnone]
    rfl
  | some e =>
    obtain ⟨hkey, hmem⟩ : e.1 = model ∧ e ∈ models :=
      ⟨by simpa using find?_some hfind, mem_of_find?_eq_some hfind⟩
    constructor
    · intro h
      exact .inl (hkey ▸ h ▸ hmem)
    · rintro (h | ⟨hnone, -⟩)
      · -- the IDs are distinct, so the entry found is this one
        have heq : e = (model, serverName) := inj_on_of_nodup_map hids hmem h hkey
        exact congrArg Prod.snd heq
      · exact absurd hkey (hnone e hmem)

end SelfHosted

/-! ## From the client to the server -/

section Single

variable {g : Setup} {r : Request} {body : String} {req : ChatCompletionRequest} {chain : Chain}
  {t : Target} (hplan : g.chat.plan r = .ok (body, req, chain)) (hchain : chain.targets = [t])

include hplan hchain

theorem chat_single_calls {env : Env} {cb : Circuit.CircuitBreaker} {c : Call}
    (hc : c ∈ (g.handle env .chatCompletions r { cb := cb }).1.calls) :
    c = t.call req.stream req body := by
  rcases (g.chat_sends env r { cb := cb }).mem hc with hold | hnew
  · cases hold
  · obtain ⟨body', req', chain', hplan', t', ht', -, rfl⟩ := hnew
    rw [hplan, Except.ok.injEq, Prod.mk.injEq, Prod.mk.injEq] at hplan'
    obtain ⟨rfl, rfl, rfl⟩ := hplan'
    rw [hchain, mem_singleton] at ht'
    rw [ht']

theorem chat_single_called (hreg : (g.fallbackRouter.registry.get t.provider).isSome) :
    ∃ env cb, t.call req.stream req body ∈
      (g.handle env .chatCompletions r { cb := cb }).1.calls := by
  obtain ⟨⟨hbody, hreads⟩, hvalid, -, hcomply⟩ := ChatHandler.plan_eq_ok.mp hplan
  have hresolves : g.Resolves .chatCompletions r t :=
    ⟨body, hbody, req, chain, hreads, hvalid, hcomply, by simp [hchain]⟩
  obtain ⟨c, hc⟩ := Setup.exists_call hresolves hreg
  obtain rfl := chat_single_calls hplan hchain hc
  exact ⟨_, _, hc⟩

end Single

/-- Some run of a chat request calls the provider, and no run calls another or sends another model. -/
structure ReachesServer (g : Setup) (enc : Encoding) (adapters : String → Adapter) (r : Request)
    (name serverName : String) : Prop where
  called : ∃ env cb, ∃ c ∈ (g.handle env .chatCompletions r { cb := cb }).1.calls,
    c.provider = name
  sent : ∀ env cb, ∀ c ∈ (g.handle env .chatCompletions r { cb := cb }).1.calls,
    c.provider = name ∧ ∃ wire, wireBody enc g.json adapters c = some (.ok wire) ∧
      get "model" wire = some (.str serverName)

structure Configured (g : Setup) (adapters : String → Adapter) (name : String)
    (models : List (String × String)) (m serverName : String) : Prop where
  registered : (g.fallbackRouter.registry.get name).isSome
  adapter : adapters name = .selfhosted name models
  ids : (models.map Prod.fst).Nodup
  entry : (name ++ "/" ++ m, serverName) ∈ models

structure RoutedByModel (g : Setup) (r : Request) (body : String) (req : ChatCompletionRequest)
    (model : String) : Prop where
  plan : g.chat.plan r = .ok (body, req, g.chat.resolveChain req.model)
  names : req.model = model
  unchained : ∀ c ∈ g.chains, c.name ≠ model

theorem resolveChain_targets {g : Setup} {r : Request} {body : String}
    {req : ChatCompletionRequest} {model : String} (h : RoutedByModel g r body req model) :
    (g.chat.resolveChain req.model).targets = [modelTarget model] := by
  have hnone : (g.chains.reverse.find? fun c => c.name == model) = none := by
    simpa using h.unchained
  have hchains : g.chat.chains = g.chains := rfl
  simp only [ChatHandler.resolveChain, h.names, hchains, hnone]
  rfl

theorem selfhosted_wire {enc : Encoding} {adapters : String → Adapter} {name m : String}
    {models : List (String × String)} (hadapter : adapters name = .selfhosted name models)
    (hne : name ≠ "") (hslash : '/' ∉ name.toList) {body : String} {fs : List (String × Json)}
    (hparse : parse body.toList = some (.obj fs)) (json : Unmarshal) (stream : Bool)
    (req : ChatCompletionRequest) :
    ∃ wire, wireBody enc json adapters
        ((modelTarget (name ++ "/" ++ m)).call stream req body) = some (.ok wire) ∧
      get "model" wire = some (.str (SelfHosted.resolveModel models m)) := by
  obtain ⟨ws, hws, -, -, hmodel⟩ := @selfhosted_fields enc _ _ hparse name models stream m
  refine ⟨.obj ws, ?_, hmodel⟩
  rw [wireBody_call, modelTarget, parseModel_id hne hslash, hadapter]
  exact congrArg some hws

/-- **Self-hosted models.** A chat request for a configured model `name/m` reaches the server under
the server's name iff the handler finds the adapter and the adapter, asked for `m`, names it so: it
has an entry with the ID `m` and that name, or none, and the name is what follows the first slash of
`m`, or `m`. -/
theorem selfhosted_model_iff {g : Setup} {enc : Encoding} {adapters : String → Adapter}
    {name m serverName : String} {models : List (String × String)} {r : Request} {body : String}
    {req : ChatCompletionRequest}
    (hconf : Configured g adapters name models m serverName)
    (hreq : RoutedByModel (g.decoding enc) r body req (name ++ "/" ++ m)) :
    ReachesServer (g.decoding enc) enc adapters r name serverName ↔
      name ≠ "" ∧ '/' ∉ name.toList ∧ SelfHosted.Names models m serverName := by
  have htargets := resolveChain_targets hreq
  obtain ⟨⟨hbody, hreads⟩, hvalid, -, -⟩ := ChatHandler.plan_eq_ok.mp hreq.plan
  obtain ⟨fs, hparse⟩ := accepted_chat ⟨hbody, hreads⟩ hvalid
  constructor
  · intro h
    obtain ⟨env, cb, c, hc, hprovider⟩ := h.called
    obtain rfl := chat_single_calls hreq.plan htargets hc
    rw [Target.call_provider] at hprovider
    have hfound : (parseModel (name ++ "/" ++ m)).provider = name := hprovider
    have hname := parseModel_provider (name ++ "/" ++ m)
    rw [hfound] at hname
    refine ⟨hname.1, hname.2, ?_⟩
    obtain ⟨-, wire, hwire, hmodel⟩ := h.sent env cb _ hc
    obtain ⟨wire', hwire', hmodel'⟩ := @selfhosted_wire enc _ _ m _ hconf.adapter hname.1 hname.2
      _ _ hparse (g.decoding enc).json req.stream req
    rw [hwire', Option.some.injEq, Except.ok.injEq] at hwire
    rw [← hwire, hmodel', Option.some.injEq, Json.str.injEq] at hmodel
    exact (SelfHosted.resolveModel_eq_iff hconf.ids).mp hmodel
  · rintro ⟨hne, hslash, hnames⟩
    have hprovider : (modelTarget (name ++ "/" ++ m)).provider = name := by
      rw [modelTarget, parseModel_id hne hslash]
    refine ⟨?_, fun env cb c hc => ?_⟩
    · obtain ⟨env, cb, hc⟩ := chat_single_called hreq.plan htargets
        (by rw [hprovider]; exact hconf.registered)
      exact ⟨env, cb, _, hc, by rw [Target.call_provider, hprovider]⟩
    · obtain rfl := chat_single_calls hreq.plan htargets hc
      obtain ⟨wire, hwire, hmodel⟩ := @selfhosted_wire enc _ _ m _ hconf.adapter hne hslash
        _ _ hparse (g.decoding enc).json req.stream req
      rw [(SelfHosted.resolveModel_eq_iff hconf.ids).mpr hnames] at hmodel
      exact ⟨by rw [Target.call_provider, hprovider], wire, hwire, hmodel⟩

def ollamaGateway : Setup where
  json := Setup.twoBodies
  fallbackRouter := { registry := Registry.empty.register { name := "ollama" } }

def ollama (serverName : String) (_provider : String) : Adapter :=
  .selfhosted "ollama" [("ollama/llama3", serverName)]

def llamaChat : ChatCompletionRequest where
  model := "ollama/llama3"
  messages := some [{ role := "user", content := "hi" }]

def llamaBody : Json :=
  .obj [("model", .str "ollama/llama3"),
    ("messages", .arr [Message.toJson { role := "user", content := "hi" }])]

def llamaRequest : Request where
  body := .ok (encode llamaBody)

theorem ollama_configured (serverName : String) :
    Configured ollamaGateway (ollama serverName) "ollama" [("ollama/llama3", serverName)] "llama3"
      serverName where
  registered := rfl
  adapter := rfl
  ids := nodup_singleton _
  entry := mem_singleton.mpr rfl

theorem llama_routed :
    RoutedByModel (ollamaGateway.decoding .noFloats) llamaRequest (encode llamaBody) llamaChat
      ("ollama" ++ "/" ++ "llama3") where
  plan := rfl
  names := rfl
  unchained := fun _ hc => absurd hc not_mem_nil

theorem llama_by_its_name :
    ReachesServer (ollamaGateway.decoding .noFloats) .noFloats (ollama "llama3") llamaRequest
      "ollama" "llama3" := by
  refine (selfhosted_model_iff (ollama_configured "llama3") llama_routed).mpr
    ⟨by decide, by decide, .inr ⟨?_, by decide⟩⟩
  intro e he
  rw [mem_singleton.mp he]
  decide

theorem llama_alias_is_lost :
    Configured ollamaGateway (ollama "llama3.2:3b") "ollama" [("ollama/llama3", "llama3.2:3b")]
        "llama3" "llama3.2:3b" ∧
      RoutedByModel (ollamaGateway.decoding .noFloats) llamaRequest (encode llamaBody) llamaChat
        "ollama/llama3" ∧
      ¬ ReachesServer (ollamaGateway.decoding .noFloats) .noFloats (ollama "llama3.2:3b")
        llamaRequest "ollama" "llama3.2:3b" := by
  refine ⟨ollama_configured _, llama_routed, fun h => ?_⟩
  obtain ⟨env, cb, c, hc, -⟩ := h.called
  obtain ⟨-, wire, hwire, hmodel⟩ := h.sent env cb c hc
  obtain rfl := chat_single_calls llama_routed.plan (resolveChain_targets llama_routed) hc
  have hsent : some (Except.ok (Json.obj [("messages",
      .arr [Message.toJson { role := "user", content := "hi" }]), ("model", .str "llama3")])) =
      some (Except.ok wire) := hwire
  rw [Option.some.injEq, Except.ok.injEq] at hsent
  subst hsent
  have hname : some (Json.str "llama3") = some (Json.str "llama3.2:3b") := hmodel
  rw [Option.some.injEq, Json.str.injEq] at hname
  exact absurd hname (by decide)

end LlmRouter.Adapters
