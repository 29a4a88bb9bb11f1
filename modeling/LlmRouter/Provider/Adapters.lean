import LlmRouter.Gateway.Codec
import LlmRouter.Gateway.Forwarding

/-!
# LlmRouter — what the adapters send

Adapters for OpenAI-compatible APIs change fields of the client's raw body (openai, azure, grok,
mistral, selfhosted), the others build their body from the parsed request (anthropic, gemini,
bedrock, cohere). `Adapter.body` is the body of a call and `Adapter.messages` the messages that
its API finds in it.
-/

namespace LlmRouter.Adapters

open Gateway Lib Lib.Json List

/-! ## Bodies from the raw body -/

variable (enc : Encoding)

/-- `json.Unmarshal` into a `map[string]json.RawMessage`; `none` is the nil map. -/
def rawFields (rawBody : String) : Except String (Option (List (String × Json))) :=
  match parse rawBody.toList with
  | some .null => .ok none
  | some (.obj fs) => .ok (some (entries fs []))
  | _ => .error (enc.errorText rawBody)

/-- Some fields of the raw body are deleted, others are set. Setting a field of
the nil map panics. -/
def rewrite (what : String) (deleted : List String) (set : List (String × Json))
    (rawBody : String) : Except String Json :=
  match rawFields enc rawBody with
  | .error err => .error (what ++ err)
  | .ok none =>
    if set.isEmpty then .ok .null else .error "assignment to entry in nil map"
  | .ok (some fields) =>
    .ok (.obj (entries set (fields.filter fun kv => !deleted.contains kv.1)))

variable (model rawBody : String)

def OpenAI.buildRequest : Except String Json :=
  rewrite enc "unmarshal openai request: " [] [("model", .str model)] rawBody

def OpenAI.buildStreamBody : Except String Json :=
  rewrite enc "unmarshal openai stream body: " []
    [("model", .str model), ("stream", .bool true),
      ("stream_options", .obj [("include_usage", .bool true)])] rawBody

def Azure.buildRequest (rawBody : String) : Except String Json :=
  rewrite enc "unmarshal azure request: " ["model"] [] rawBody

def Azure.buildStreamRequest (rawBody : String) : Except String Json :=
  rewrite enc "unmarshal azure stream request: " ["model"] [("stream", .bool true)] rawBody

def Grok.buildRequest : Except String Json :=
  rewrite enc "unmarshal: " [] [("model", .str model)] rawBody

def Grok.buildStreamRequest : Except String Json :=
  rewrite enc "unmarshal: " [] [("model", .str model), ("stream", .bool true)] rawBody

def Mistral.buildRequest : Except String Json :=
  rewrite enc "unmarshal: " [] [("model", .str model)] rawBody

def Mistral.buildStreamRequest : Except String Json :=
  rewrite enc "unmarshal: " [] [("model", .str model), ("stream", .bool true)] rawBody

/-- `resolveModel` of selfhosted: the name of a listed model, or what follows the
first slash. -/
def SelfHosted.resolveModel (models : List (String × String)) (gatewayID : String) : String :=
  match models.find? fun m => m.1 == gatewayID with
  | some m => m.2
  | none =>
    match gatewayID.toList.dropWhile (· ≠ '/') with
    | [] => gatewayID
    | _ :: rest => String.ofList rest

def SelfHosted.injectModel (rawBody serverModel : String) : Except String Json :=
  rewrite enc "" [] [("model", .str serverModel)] rawBody

/-- The body of selfhosted: the model is injected, then the body goes through the
openai adapter. -/
def SelfHosted.body (name : String) (models : List (String × String))
    (stream : Bool) (model rawBody : String) : Except String Json :=
  let serverModel := resolveModel models model
  match injectModel enc rawBody serverModel with
  | .error err => .error ("selfhosted " ++ name ++ ": inject model: " ++ err)
  | .ok body =>
    if stream then OpenAI.buildStreamBody enc serverModel (rawText body)
    else OpenAI.buildRequest enc serverModel (rawText body)

/-! ## Bodies from the parsed request -/

def appended {α : Type} (as : List α) : Option (List α) := if as = [] then none else some as

variable (json : Unmarshal)

def stopSequences (stop : Option RawMessage) : List String :=
  match stop with
  | none => []
  | some raw =>
    match json.string raw with
    | .ok s => [s]
    | .error _ =>
      match json.strings raw with
      | .ok ss => ss
      | .error _ => []

/-- A list that is left out when it is empty (`omitempty`). -/
def nonEmpty (vs : List Json) : Option Json := if vs = [] then none else some (.arr vs)

def block (text : String) : Json := .obj [("text", .str text)]

def contents (role : String) (ms : List Message) : List String :=
  (ms.filter fun m => m.role == role).map Message.content

def Anthropic.defaultMaxTokens : Int := 4096

def Anthropic.parts (model : String) (req : ChatCompletionRequest) : List (String × Option Json) :=
  let ms := req.messages.getD []
  let system := (contents "system" ms).getLast?.getD ""
  let stop := stopSequences json req.stop
  [("model", some (.str model)),
    ("max_tokens", some (.ofInt (req.maxTokens.getD defaultMaxTokens))),
    ("system", if system = "" then none else some (.str system)),
    ("messages",
      some (sliceJson Message.toJson (appended (ms.filter fun m => m.role ≠ "system")))),
    ("temperature", req.temperature.map .ofDecimal),
    ("top_p", req.topP.map .ofDecimal),
    ("stop_sequences", nonEmpty (stop.map .str)),
    ("stream", if req.stream then some (.bool true) else none)]

def Anthropic.buildRequest (model : String) (req : ChatCompletionRequest) : Json :=
  .obj (present (parts json model req))

def Gemini.content (m : Message) : Json :=
  .obj [("role", .str (if m.role = "assistant" then "model" else m.role)),
    ("parts", .arr [block m.content])]

variable (req : ChatCompletionRequest)

def Gemini.parts : List (String × Option Json) :=
  let ms := req.messages.getD []
  let stop := stopSequences json req.stop
  [("contents", some (sliceJson content (appended (ms.filter fun m => m.role ≠ "system")))),
    ("systemInstruction",
      (contents "system" ms).getLast?.map fun text => .obj [("parts", .arr [block text])]),
    ("generationConfig", some (.obj (present
      [("temperature", req.temperature.map .ofDecimal),
        ("topP", req.topP.map .ofDecimal),
        ("maxOutputTokens", req.maxTokens.map .ofInt),
        ("stopSequences", nonEmpty (stop.map .str))])))]

def Gemini.buildRequest : Json :=
  .obj (present (parts json req))

def Bedrock.message (m : Message) : Json :=
  .obj [("role", .str m.role), ("content", .arr [block m.content])]

def Bedrock.parts : List (String × Option Json) :=
  let ms := req.messages.getD []
  [("messages", some (sliceJson message
      (appended (ms.filter fun m => m.role == "user" || m.role == "assistant")))),
    ("system", nonEmpty ((contents "system" ms).map block)),
    ("inferenceConfig", some (.obj (present
      [("maxTokens", req.maxTokens.map .ofInt),
        ("temperature", req.temperature.map .ofDecimal)])))]

def Bedrock.buildConverseRequest : Json :=
  .obj (present (parts req))

def Cohere.parts (stream : Bool) (model : String) (req : ChatCompletionRequest) :
    List (String × Option Json) :=
  [("model", some (.str model)),
    ("messages", some (sliceJson Message.toJson req.messages)),
    ("max_tokens", req.maxTokens.map .ofInt),
    ("temperature", req.temperature.map .ofDecimal),
    ("stream", if stream then some (.bool true) else none)]

def Cohere.request (stream : Bool) (model : String) (req : ChatCompletionRequest) : Json :=
  .obj (present (parts stream model req))

/-! ## The adapters -/

inductive Adapter where
  | openai
  | azure
  | grok
  | mistral
  | selfhosted (name : String) (models : List (String × String))
  | anthropic
  | gemini
  | bedrock
  | cohere
  deriving DecidableEq, Repr

namespace Adapter

def isRaw : Adapter → Bool
  | .openai | .azure | .grok | .mistral | .selfhosted _ _ => true
  | .anthropic | .gemini | .bedrock | .cohere => false

def body (enc : Encoding) (json : Unmarshal) (a : Adapter) (stream : Bool) (model : String)
    (req : ChatCompletionRequest) (rawBody : String) : Except String Json :=
  match a with
  | .openai =>
    if stream then OpenAI.buildStreamBody enc model rawBody
    else OpenAI.buildRequest enc model rawBody
  | .azure =>
    if stream then Azure.buildStreamRequest enc rawBody else Azure.buildRequest enc rawBody
  | .grok =>
    if stream then Grok.buildStreamRequest enc model rawBody
    else Grok.buildRequest enc model rawBody
  | .mistral =>
    if stream then Mistral.buildStreamRequest enc model rawBody
    else Mistral.buildRequest enc model rawBody
  | .selfhosted name models => SelfHosted.body enc name models stream model rawBody
  | .anthropic =>
    -- a streamed request has the flag set whatever the request says
    .ok (Anthropic.buildRequest json model
      (if stream then { req with stream := true } else req))
  | .gemini => .ok (Gemini.buildRequest json req)
  | .bedrock => .ok (Bedrock.buildConverseRequest req)
  | .cohere => .ok (Cohere.request stream model req)

end Adapter

def wireBody (enc : Encoding) (json : Unmarshal) (adapters : String → Adapter) :
    Call → Option (Except String Json)
  | .chatCompletion p model req rawBody =>
    some ((adapters p).body enc json false model req rawBody)
  | .chatCompletionStream p model req rawBody =>
    some ((adapters p).body enc json true model req rawBody)
  | .embed .. => none

/-! ## The messages in a body -/

def get (key : String) : Json → Option Json
  | .obj fs => member key fs
  | _ => none

def getString (key : String) (v : Json) : Option String :=
  match get key v with
  | some (.str s) => some s
  | _ => none

def readArray {α : Type} (read : Json → Option α) : Option Json → Option (List α)
  | some (.arr vs) => vs.mapM read
  | some .null => some []
  | none => some []
  | _ => none

def readMessage (v : Json) : Option Message := do
  let role ← getString "role" v
  let content ← getString "content" v
  return { role := role, content := content }

def readBlocks (v : Option Json) : Option String :=
  (readArray (getString "text") v).map String.join

def systemMessages (texts : List String) : List Message :=
  texts.map fun text => { role := "system", content := text }

def Gemini.readContent (v : Json) : Option Message := do
  let role ← getString "role" v
  let content ← readBlocks (get "parts" v)
  return { role := if role = "model" then "assistant" else role, content := content }

def Bedrock.readMessage (v : Json) : Option Message := do
  let role ← getString "role" v
  let content ← readBlocks (get "content" v)
  return { role := role, content := content }

def Adapter.messages (a : Adapter) (wire : Json) : Option (List Message) :=
  match a with
  | .anthropic => do
    let ms ← readArray readMessage (get "messages" wire)
    return systemMessages (getString "system" wire).toList ++ ms
  | .gemini => do
    let ms ← readArray Gemini.readContent (get "contents" wire)
    let system ← (get "systemInstruction" wire).mapM fun v => readBlocks (get "parts" v)
    return systemMessages system.toList ++ ms
  | .bedrock => do
    let ms ← readArray Bedrock.readMessage (get "messages" wire)
    let system ← readArray (getString "text") (get "system" wire)
    return systemMessages system ++ ms
  | _ => readArray readMessage (get "messages" wire)

/-! ## The client's messages are sent -/

section Raw

theorem validFields_model (model : String) : ValidFields [("model", .str model)] := by
  simp [ValidFields, Json.Valid]

theorem validFields_model_stream (model : String) :
    ValidFields [("model", .str model), ("stream", .bool true)] := by
  simp [ValidFields, Json.Valid]

variable {enc : Encoding} {json : Unmarshal} {rawBody : String} {fs : List (String × Json)}
  (hraw : parse rawBody.toList = some (.obj fs))

include hraw

theorem rewrite_member (what : String) (deleted : List String) (set : List (String × Json))
    (hset : ValidFields set) :
    ∃ ws, rewrite enc what deleted set rawBody = .ok (.obj ws) ∧ ValidFields ws ∧
      ∀ key, deleted.contains key = false →
        member key ws = (member key set).or (member key fs) := by
  have hfs : ValidFields fs := by
    have := valid_of_parse hraw
    rwa [Json.Valid] at this
  have hsorted : SortedKeys (entries fs []) := sortedKeys_entries List.Pairwise.nil fs
  have hvalid : ValidFields (entries fs []) := validFields_entries validFields_nil hfs
  refine ⟨_, by rw [rewrite, rawFields, hraw], ?_, ?_⟩
  · refine validFields_entries ?_ hset
    exact validFields_iff.mpr fun kv hkv =>
      validFields_iff.mp hvalid kv (mem_of_mem_filter hkv)
  · intro key hdeleted
    rw [member_entries (hsorted.filter _), member_filter (fun v => by rw [hdeleted]; rfl),
      member_entries List.Pairwise.nil]
    exact congrArg _ Option.or_none

theorem rewrite_messages (what : String) (deleted : List String) (set : List (String × Json))
    (hset : ValidFields set) (hdeleted : deleted.contains "messages" = false)
    (hkey : member "messages" set = none) :
    ∃ ws, rewrite enc what deleted set rawBody = .ok (.obj ws) ∧ ValidFields ws ∧
      member "messages" ws = member "messages" fs := by
  obtain ⟨ws, hws, hvalid, hmember⟩ := rewrite_member hraw what deleted set hset
  refine ⟨ws, hws, hvalid, ?_⟩
  rw [hmember "messages" hdeleted, hkey, Option.none_or]

theorem openai_fields (stream : Bool) (model : String) :
    ∃ ws, (if stream then OpenAI.buildStreamBody enc model rawBody
        else OpenAI.buildRequest enc model rawBody) = .ok (.obj ws) ∧ ValidFields ws ∧
      member "messages" ws = member "messages" fs ∧ member "model" ws = some (.str model) := by
  cases stream
  · obtain ⟨ws, hws, hvalid, hmember⟩ :=
      @rewrite_member enc _ _ hraw "unmarshal openai request: " [] _ (validFields_model model)
    exact ⟨ws, hws, hvalid, hmember "messages" rfl, hmember "model" rfl⟩
  · obtain ⟨ws, hws, hvalid, hmember⟩ :=
      @rewrite_member enc _ _ hraw "unmarshal openai stream body: " []
        [("model", .str model), ("stream", .bool true),
          ("stream_options", .obj [("include_usage", .bool true)])]
        (by simp [ValidFields, Json.Valid])
    exact ⟨ws, hws, hvalid, hmember "messages" rfl, hmember "model" rfl⟩

theorem selfhosted_fields (name : String) (models : List (String × String)) (stream : Bool)
    (model : String) :
    ∃ ws, SelfHosted.body enc name models stream model rawBody = .ok (.obj ws) ∧
      ValidFields ws ∧ member "messages" ws = member "messages" fs ∧
      member "model" ws = some (.str (SelfHosted.resolveModel models model)) := by
  obtain ⟨ms, hinject, hvalid, hms⟩ := @rewrite_messages enc _ _ hraw "" []
    [("model", .str (SelfHosted.resolveModel models model))] (validFields_model _) rfl rfl
  have hagain : parse (rawText (.obj ms)).toList = some (.obj ms) := by
    have hobj : (Json.obj ms).Valid := by
      rw [Json.Valid]
      exact hvalid
    rw [rawText, String.toList_ofList, parse_render hobj]
  obtain ⟨ws, hws, hvalid', hmember, hmodel⟩ :=
    openai_fields hagain stream (SelfHosted.resolveModel models model)
  refine ⟨ws, ?_, hvalid', hmember.trans hms, hmodel⟩
  have hinject' : SelfHosted.injectModel enc rawBody (SelfHosted.resolveModel models model) =
      .ok (.obj ms) := hinject
  simp only [SelfHosted.body, hinject']
  exact hws

/-- **The adapters for OpenAI-compatible APIs send the client's messages**, not
those of the parsed request. -/
theorem messages_of_raw {a : Adapter} (ha : a.isRaw = true) (stream : Bool) (model : String)
    (req : ChatCompletionRequest) :
    ∃ ws, a.body enc json stream model req rawBody = .ok (.obj ws) ∧
      member "messages" ws = member "messages" fs := by
  have hbody : ∃ ws, a.body enc json stream model req rawBody = .ok (.obj ws) ∧
      ValidFields ws ∧ member "messages" ws = member "messages" fs := by
    cases a with
    | openai =>
      obtain ⟨ws, hws, hvalid, hmember, -⟩ := @openai_fields enc _ _ hraw stream model
      exact ⟨ws, hws, hvalid, hmember⟩
    | azure =>
      cases stream
      · exact rewrite_messages hraw _ _ _ validFields_nil rfl rfl
      · exact rewrite_messages hraw _ _ _ (by simp [ValidFields, Json.Valid]) rfl rfl
    | grok | mistral =>
      cases stream
      · exact rewrite_messages hraw _ _ _ (validFields_model model) rfl rfl
      · exact rewrite_messages hraw _ _ _ (validFields_model_stream model) rfl rfl
    | selfhosted name models =>
      obtain ⟨ws, hws, hvalid, hmember, -⟩ :=
        @selfhosted_fields enc _ _ hraw name models stream model
      exact ⟨ws, hws, hvalid, hmember⟩
    | anthropic | gemini | bedrock | cohere => cases ha
  obtain ⟨ws, hws, -, hmember⟩ := hbody
  exact ⟨ws, hws, hmember⟩

end Raw

/-! ## The messages of the parsed request are sent -/

section Parsed

variable {ms : List Message}

theorem mapM_of_forall {α : Type} {toJson : α → Json} {read : Json → Option α} {as : List α}
    (h : ∀ a ∈ as, read (toJson a) = some a) : (as.map toJson).mapM read = some as := by
  induction as with
  | nil => rfl
  | cons a as ih =>
    obtain ⟨ha, has⟩ := forall_mem_cons.mp h
    rw [map_cons, mapM_cons, ha, ih has]
    rfl

theorem readArray_appended {toJson : Message → Json} {read : Json → Option Message}
    (h : ∀ m ∈ ms, read (toJson m) = some m) :
    readArray read (some (sliceJson toJson (appended ms))) = some ms := by
  cases ms with
  | nil => rfl
  | cons m ms => exact mapM_of_forall h

theorem readMessage_toJson (m : Message) : readMessage m.toJson = some m := rfl

theorem readBlocks_block (text : String) : readBlocks (some (.arr [block text])) = some text := by
  show some (String.join [text]) = some text
  simp [String.join]

theorem readBlocks_parts (text : String) :
    readBlocks (get "parts" (.obj [("parts", .arr [block text])])) = some text :=
  readBlocks_block text

theorem Bedrock.readMessage_message (m : Message) :
    Bedrock.readMessage (Bedrock.message m) = some m := by
  show (readBlocks (some (.arr [block m.content]))).bind
    (fun content => some { role := m.role, content := content }) = some m
  rw [readBlocks_block]
  rfl

theorem Gemini.readContent_content {m : Message} (h : m.role ≠ "model") :
    Gemini.readContent (Gemini.content m) = some m := by
  show (readBlocks (some (.arr [block m.content]))).bind (fun content =>
    some { role := if (if m.role = "assistant" then "model" else m.role) = "model" then "assistant"
             else (if m.role = "assistant" then "model" else m.role), content := content }) = some m
  rw [readBlocks_block]
  obtain ⟨role, content⟩ := m
  by_cases hrole : role = "assistant"
  · subst hrole
    rfl
  · simp only [if_neg hrole, Option.bind_some]
    rw [if_neg h]

variable (json : Unmarshal) (model : String) (req : ChatCompletionRequest)

theorem Anthropic.nodup_keys : ["model", "max_tokens", "system", "messages", "temperature", "top_p",
    "stop_sequences", "stream"].Nodup := by
  decide

theorem Anthropic.get_messages :
    get "messages" (buildRequest json model req) = some (sliceJson Message.toJson
      (appended ((req.messages.getD []).filter fun m => m.role ≠ "system"))) :=
  member_present (parts json model req) nodup_keys "messages"

theorem Anthropic.get_system :
    get "system" (buildRequest json model req) =
      if (contents "system" (req.messages.getD [])).getLast?.getD "" = "" then none
      else some (.str ((contents "system" (req.messages.getD [])).getLast?.getD "")) :=
  member_present (parts json model req) nodup_keys "system"

theorem Gemini.nodup_keys : ["contents", "systemInstruction", "generationConfig"].Nodup := by
  decide

theorem Gemini.get_contents :
    get "contents" (buildRequest json req) = some (sliceJson content
      (appended ((req.messages.getD []).filter fun m => m.role ≠ "system"))) :=
  member_present (parts json req) nodup_keys "contents"

theorem Gemini.get_systemInstruction :
    get "systemInstruction" (buildRequest json req) =
      (contents "system" (req.messages.getD [])).getLast?.map
        fun text => .obj [("parts", .arr [block text])] :=
  member_present (parts json req) nodup_keys "systemInstruction"

theorem Bedrock.nodup_keys : ["messages", "system", "inferenceConfig"].Nodup := by
  decide

theorem Bedrock.get_messages :
    get "messages" (buildConverseRequest req) = some (sliceJson message (appended
      ((req.messages.getD []).filter fun m => m.role == "user" || m.role == "assistant"))) :=
  member_present (parts req) nodup_keys "messages"

theorem Bedrock.get_system :
    get "system" (buildConverseRequest req) =
      nonEmpty ((contents "system" (req.messages.getD [])).map block) :=
  member_present (parts req) nodup_keys "system"

theorem Bedrock.readArray_blocks (texts : List String) :
    readArray (getString "text") (nonEmpty (texts.map block)) = some texts := by
  cases texts with
  | nil => rfl
  | cons text texts => exact mapM_of_forall fun t _ => rfl

variable {req}

theorem anthropic_messages_eq (hreq : req.messages = some ms) :
    Adapter.anthropic.messages (Anthropic.buildRequest json model req) =
      some (systemMessages ((contents "system" ms).getLast?.filter (· ≠ "")).toList ++
        ms.filter fun m => m.role ≠ "system") := by
  have hms := Anthropic.get_messages json model req
  have hsystem := Anthropic.get_system json model req
  rw [hreq, Option.getD_some] at hms hsystem
  simp only [Adapter.messages, getString, hms, hsystem,
    readArray_appended fun m _ => readMessage_toJson m]
  cases (contents "system" ms).getLast? with
  | none => rfl
  | some text => by_cases htext : text = "" <;> simp [htext, Option.filter]

theorem gemini_messages_eq (hreq : req.messages = some ms) (hroles : ∀ m ∈ ms, m.role ≠ "model") :
    Adapter.gemini.messages (Gemini.buildRequest json req) =
      some (systemMessages (contents "system" ms).getLast?.toList ++
        ms.filter fun m => m.role ≠ "system") := by
  have hms := Gemini.get_contents json req
  have hsystem := Gemini.get_systemInstruction json req
  rw [hreq, Option.getD_some] at hms hsystem
  have hread : ∀ m ∈ ms.filter (fun m => m.role ≠ "system"),
      Gemini.readContent (Gemini.content m) = some m :=
    fun m hm => Gemini.readContent_content (hroles m (mem_of_mem_filter hm))
  simp only [Adapter.messages, hms, hsystem, readArray_appended hread]
  cases (contents "system" ms).getLast? with
  | none => rfl
  | some text => simp [readBlocks_parts]

theorem bedrock_messages_eq (hreq : req.messages = some ms) :
    Adapter.bedrock.messages (Bedrock.buildConverseRequest req) =
      some (systemMessages (contents "system" ms) ++
        ms.filter fun m => m.role == "user" || m.role == "assistant") := by
  have hms := Bedrock.get_messages req
  have hsystem := Bedrock.get_system req
  rw [hreq, Option.getD_some] at hms hsystem
  simp only [Adapter.messages, hms, hsystem, Bedrock.readArray_blocks,
    readArray_appended fun m _ => Bedrock.readMessage_message m]
  rfl

theorem Cohere.nodup_keys :
    ["model", "messages", "max_tokens", "temperature", "stream"].Nodup := by decide

theorem cohere_messages (stream : Bool) (model : String) :
    Adapter.cohere.messages (Cohere.request stream model req) = some (req.messages.getD []) := by
  have hms : get "messages" (Cohere.request stream model req) =
      some (sliceJson Message.toJson req.messages) :=
    member_present (Cohere.parts stream model req) Cohere.nodup_keys "messages"
  show readArray readMessage (get "messages" (Cohere.request stream model req)) = _
  rw [hms]
  cases req.messages with
  | none => rfl
  | some ms => exact mapM_of_forall fun m _ => readMessage_toJson m

theorem messages_of_question {a : Adapter} (ha : a.isRaw = false) (enc : Encoding)
    (json : Unmarshal) (model : String) {system text : String} (hsystem : system ≠ "")
    (hreq : req.messages = some [⟨"system", system⟩, ⟨"user", text⟩]) (rawBody : String) :
    ∃ wire, a.body enc json false model req rawBody = .ok wire ∧
      a.messages wire = some [⟨"system", system⟩, ⟨"user", text⟩] := by
  cases a with
  | anthropic =>
    refine ⟨_, rfl, (anthropic_messages_eq json model hreq).trans ?_⟩
    simp [contents, systemMessages, Option.filter, hsystem]
  | gemini => exact ⟨_, rfl, gemini_messages_eq json hreq (by simp)⟩
  | bedrock => exact ⟨_, rfl, bedrock_messages_eq hreq⟩
  | cohere =>
    refine ⟨_, rfl, ?_⟩
    rw [cohere_messages, hreq]
    rfl
  | _ => cases ha

variable (h : ∀ m ∈ ms, m.role = "user" ∨ m.role = "assistant")

include h

theorem forall_roles (P : String → Prop) (huser : P "user") (hassistant : P "assistant") :
    ∀ m ∈ ms, P m.role := by
  intro m hm
  rcases h m hm with hrole | hrole <;> rwa [hrole]

theorem contents_system : contents "system" ms = [] := by
  rw [contents, map_eq_nil_iff, filter_eq_nil_iff]
  exact forall_roles h (fun role => ¬ (role == "system") = true) (by decide) (by decide)

theorem filter_not_system : ms.filter (fun m => m.role ≠ "system") = ms :=
  filter_eq_self.mpr
    (forall_roles h (fun role => decide (role ≠ "system") = true) (by decide) (by decide))

theorem filter_chat : ms.filter (fun m => m.role == "user" || m.role == "assistant") = ms :=
  filter_eq_self.mpr (forall_roles h
    (fun role => (role == "user" || role == "assistant") = true) (by decide) (by decide))

theorem anthropic_messages (hreq : req.messages = some ms) :
    Adapter.anthropic.messages (Anthropic.buildRequest json model req) = some ms := by
  rw [anthropic_messages_eq json model hreq, contents_system h, filter_not_system h]
  rfl

theorem gemini_messages (hreq : req.messages = some ms) :
    Adapter.gemini.messages (Gemini.buildRequest json req) = some ms := by
  rw [gemini_messages_eq json hreq (forall_roles h (· ≠ "model") (by decide) (by decide)),
    contents_system h, filter_not_system h]
  rfl

theorem bedrock_messages (hreq : req.messages = some ms) :
    Adapter.bedrock.messages (Bedrock.buildConverseRequest req) = some ms := by
  rw [bedrock_messages_eq hreq, contents_system h, filter_chat h]
  rfl

/-- **The other adapters send the messages of the parsed request.** -/
theorem messages_of_parsed {a : Adapter} (ha : a.isRaw = false) (enc : Encoding) (json : Unmarshal)
    (stream : Bool) (model : String) (hreq : req.messages = some ms) (rawBody : String) :
    ∃ wire, a.body enc json stream model req rawBody = .ok wire ∧ a.messages wire = some ms := by
  cases a with
  | anthropic =>
    refine ⟨_, rfl, anthropic_messages json model h ?_⟩
    cases stream <;> exact hreq
  | gemini => exact ⟨_, rfl, gemini_messages json h hreq⟩
  | bedrock => exact ⟨_, rfl, bedrock_messages h hreq⟩
  | cohere =>
    refine ⟨_, rfl, ?_⟩
    rw [cohere_messages, hreq]
    rfl
  | _ => cases ha

end Parsed

/-! ## Legacy completions -/

theorem wireBody_call (enc : Encoding) (json : Unmarshal) (adapters : String → Adapter)
    (t : Target) (stream : Bool) (req : ChatCompletionRequest) (rawBody : String) :
    wireBody enc json adapters (t.call stream req rawBody) =
      some ((adapters t.provider).body enc json stream t.model req rawBody) := by
  cases stream <;> rfl

theorem messages_of_isRaw {a : Adapter} (ha : a.isRaw = true) (wire : Json) :
    a.messages wire = readArray readMessage (get "messages" wire) := by
  cases a <;> first | rfl | cases ha

theorem call_of_raw {enc : Encoding} {adapters : String → Adapter} {t : Target}
    (ha : (adapters t.provider).isRaw = true) {rawBody : String} {fs : List (String × Json)}
    (hraw : parse rawBody.toList = some (.obj fs)) (json : Unmarshal) (stream : Bool)
    (req : ChatCompletionRequest) :
    ∃ ws, wireBody enc json adapters (t.call stream req rawBody) = some (.ok (.obj ws)) ∧
      member "messages" ws = member "messages" fs := by
  obtain ⟨ws, hws, hmember⟩ := @messages_of_raw enc json _ _ hraw _ ha stream t.model req
  exact ⟨ws, by rw [wireBody_call, hws], hmember⟩

theorem promptToMessages_role {json : Unmarshal} {raw : RawMessage} {ms : List Message}
    (h : promptToMessages json raw = .ok ms) : ∀ m ∈ ms, m.role = "user" := by
  unfold promptToMessages at h
  split at h
  · split_ifs at h
    obtain ⟨⟩ := h
    simp
  · split at h
    · split_ifs at h
      obtain ⟨⟩ := h
      simp
    · cases h

section Legacy

variable {g : Setup} {enc : Encoding} {adapters : String → Adapter} {r : Request} {body : String}
  {req : CompletionRequest} {chatReq : ChatCompletionRequest}
  (hplan : (g.decoding enc).comp.plan r = .ok (body, req, chatReq))

include hplan

theorem accepted_completion :
    ∃ ms fs, promptToMessages (g.decoding enc).json req.prompt = .ok ms ∧
      chatReq.messages = some ms ∧ parse body.toList = some (.obj fs) := by
  obtain ⟨⟨-, hdecode⟩, ms, hvalid, rfl⟩ := CompletionsHandler.plan_eq_ok.mp hplan
  have hmodel : req.model ≠ "" := by
    intro hempty
    simp [validateCompletionRequest, hempty] at hvalid
  have hprompt : promptToMessages (g.decoding enc).json req.prompt = .ok ms := by
    unfold validateCompletionRequest at hvalid
    split_ifs at hvalid
    exact hvalid
  obtain ⟨v, hparse, hv⟩ := Encoding.unmarshal_eq_ok.mp
    (show enc.unmarshal (Encoding.decodeStruct enc.completionRequest) body = .ok req from hdecode)
  cases v with
  | obj fs => exact ⟨ms, fs, hprompt, rfl, hparse⟩
  | null =>
    -- a `null` body sets nothing, so it names no model
    obtain ⟨⟩ := hv
    exact absurd rfl hmodel
  | _ => cases hv

theorem completion_calls {env : Env} {cb : Circuit.CircuitBreaker} {c : Call}
    (hc : c ∈ ((g.decoding enc).handle env .completions r { cb := cb }).1.calls) :
    (g.fallbackRouter.registry.get (parseModel req.model).provider).isSome ∧
      c = (modelTarget req.model).call req.stream chatReq body := by
  rcases ((g.decoding enc).comp_sends env r { cb := cb }).mem hc with hold | hnew
  · cases hold
  · obtain ⟨body', req', chatReq', hplan', t, ht, hreg, rfl⟩ := hnew
    rw [hplan, Except.ok.injEq, Prod.mk.injEq, Prod.mk.injEq] at hplan'
    obtain ⟨rfl, rfl, rfl⟩ := hplan'
    obtain rfl := mem_singleton.mp ht
    exact ⟨hreg, rfl⟩

theorem completion_called
    (hreg : (g.fallbackRouter.registry.get (parseModel req.model).provider).isSome) :
    ∃ env cb, (modelTarget req.model).call req.stream chatReq body ∈
      ((g.decoding enc).handle env .completions r { cb := cb }).1.calls := by
  obtain ⟨⟨hbody, hdecode⟩, ms, hvalid, -⟩ := CompletionsHandler.plan_eq_ok.mp hplan
  have hresolves : (g.decoding enc).Resolves .completions r (modelTarget req.model) :=
    ⟨body, hbody, req, ms, hdecode, hvalid, rfl⟩
  obtain ⟨c, hc⟩ := Setup.exists_call hresolves hreg
  obtain ⟨-, rfl⟩ := completion_calls hplan hc
  exact ⟨_, _, hc⟩

theorem completion_of_parsed
    (ha : (adapters (parseModel req.model).provider).isRaw = false) :
    ∃ wire, wireBody enc (g.decoding enc).json adapters
        ((modelTarget req.model).call req.stream chatReq body) = some (.ok wire) ∧
      (adapters (parseModel req.model).provider).messages wire =
        (promptToMessages (g.decoding enc).json req.prompt).toOption := by
  obtain ⟨ms, fs, hprompt, hchat, -⟩ := accepted_completion hplan
  obtain ⟨wire, hwire, hms⟩ := messages_of_parsed
    (fun m hm => .inl (promptToMessages_role hprompt m hm)) ha enc (g.decoding enc).json
    req.stream (modelTarget req.model).model hchat body
  refine ⟨wire, ?_, ?_⟩
  · rw [wireBody_call]
    exact congrArg some hwire
  · rw [hms, hprompt]
    rfl

end Legacy

/-- Each provider called on behalf of a completions request is sent the messages of the prompt. -/
def SendsPrompt (g : Setup) (enc : Encoding) (adapters : String → Adapter) (r : Request)
    (prompt : RawMessage) : Prop :=
  ∀ env cb, ∀ c ∈ (g.handle env .completions r { cb := cb }).1.calls,
    ∃ wire, wireBody enc g.json adapters c = some (.ok wire) ∧
      (adapters c.provider).messages wire = (promptToMessages g.json prompt).toOption

/-- **Legacy completions as chat.** An accepted completions request reaches its provider with the
messages of its prompt iff the provider is not registered, or its adapter builds the body from the
parsed request, or the client's body has these messages besides the prompt. -/
theorem legacy_completions_iff (g : Setup) (enc : Encoding) (adapters : String → Adapter)
    {r : Request} {body : String} {req : CompletionRequest} {chatReq : ChatCompletionRequest}
    (hplan : (g.decoding enc).comp.plan r = .ok (body, req, chatReq)) :
    SendsPrompt (g.decoding enc) enc adapters r req.prompt ↔
      g.fallbackRouter.registry.get (parseModel req.model).provider = none ∨
      (adapters (parseModel req.model).provider).isRaw = false ∨
      ∃ fs, parse body.toList = some (.obj fs) ∧
        readArray readMessage (member "messages" fs) =
          (promptToMessages (g.decoding enc).json req.prompt).toOption := by
  obtain ⟨-, fs, -, -, hparse⟩ := accepted_completion hplan
  constructor
  · intro hsends
    cases hreg : g.fallbackRouter.registry.get (parseModel req.model).provider with
    | none => exact .inl rfl
    | some p =>
      cases ha : (adapters (parseModel req.model).provider).isRaw with
      | false => exact .inr (.inl rfl)
      | true =>
        -- the call is made with the client's body, so these are its messages
        obtain ⟨env, cb, hc⟩ := completion_called hplan (by rw [hreg]; rfl)
        obtain ⟨wire, hwire, hms⟩ := hsends env cb _ hc
        obtain ⟨ws, hws, hmember⟩ :=
          @call_of_raw enc adapters (modelTarget req.model) ha _ _ hparse
            (g.decoding enc).json req.stream chatReq
        rw [hws, Option.some.injEq, Except.ok.injEq] at hwire
        subst hwire
        rw [Target.call_provider] at hms
        have hsent := (messages_of_isRaw ha (.obj ws)).symm.trans hms
        exact .inr (.inr ⟨fs, hparse, (congrArg (readArray readMessage) hmember).symm.trans hsent⟩)
  · intro hcond env cb c hc
    obtain ⟨hreg, rfl⟩ := completion_calls hplan hc
    rw [Target.call_provider]
    cases ha : (adapters (parseModel req.model).provider).isRaw with
    | false => exact completion_of_parsed hplan ha
    | true =>
      rcases hcond with hnone | hparsed | ⟨fs', hparse', hclient⟩
      · rw [hnone] at hreg
        cases hreg
      · rw [ha] at hparsed
        cases hparsed
      · obtain ⟨ws, hws, hmember⟩ :=
          @call_of_raw enc adapters (modelTarget req.model) ha _ _ hparse'
            (g.decoding enc).json req.stream chatReq
        refine ⟨.obj ws, hws, ?_⟩
        rw [← hclient, ← hmember]
        exact messages_of_isRaw ha _

def twoKinds : Setup where
  json := Setup.twoBodies
  fallbackRouter :=
    { registry := (Registry.empty.register { name := "openai" }).register { name := "anthropic" } }

def twoAdapters (provider : String) : Adapter :=
  if provider = "anthropic" then .anthropic else .openai

def legacyRequest (model : String) : Request where
  body := .ok (encode (.obj [("model", .str model), ("prompt", .str "hi")]))

theorem legacy_completions_anthropic :
    SendsPrompt (twoKinds.decoding .noFloats) .noFloats twoAdapters
      (legacyRequest "anthropic/claude") "\"hi\"" := by
  have hplan : (twoKinds.decoding .noFloats).comp.plan (legacyRequest "anthropic/claude") =
      .ok (encode (.obj [("model", .str "anthropic/claude"), ("prompt", .str "hi")]),
        { model := "anthropic/claude", prompt := "\"hi\"" },
        { model := "anthropic/claude", messages := some [{ role := "user", content := "hi" }] }) :=
    rfl
  exact (legacy_completions_iff twoKinds .noFloats twoAdapters hplan).mpr (.inr (.inl rfl))

/-- The same request for a model of openai is accepted and forwarded without any
messages. -/
theorem legacy_prompt_is_lost :
    (twoKinds.decoding .noFloats).comp.plan (legacyRequest "gpt-4o") =
        .ok (encode (.obj [("model", .str "gpt-4o"), ("prompt", .str "hi")]),
          { model := "gpt-4o", prompt := "\"hi\"" },
          { model := "gpt-4o", messages := some [{ role := "user", content := "hi" }] }) ∧
      ¬ SendsPrompt (twoKinds.decoding .noFloats) .noFloats twoAdapters (legacyRequest "gpt-4o")
        "\"hi\"" := by
  refine ⟨rfl, fun hsends => ?_⟩
  have hcall : Call.chatCompletion "openai" "gpt-4o"
      { model := "gpt-4o", messages := some [{ role := "user", content := "hi" }] }
      (encode (.obj [("model", .str "gpt-4o"), ("prompt", .str "hi")])) ∈
      ((twoKinds.decoding .noFloats).handle .failing .completions (legacyRequest "gpt-4o")
        { cb := Circuit.new Circuit.defaultConfig }).1.calls := mem_cons_self
  obtain ⟨wire, hwire, hms⟩ := hsends _ _ _ hcall
  have hsent : some (Except.ok (Json.obj [("model", .str "gpt-4o"), ("prompt", .str "hi")])) =
      some (Except.ok wire) := hwire
  rw [Option.some.injEq, Except.ok.injEq] at hsent
  subst hsent
  have hnone : some [] = some [({ role := "user", content := "hi" } : Message)] := hms
  exact absurd hnone (by decide)

end LlmRouter.Adapters
