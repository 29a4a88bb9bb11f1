import LlmRouter.Provider.Adapters
import LlmRouter.Provider.SseReaders

/-!
# LlmRouter — what the adapters read from a response

The `ParseResponse` functions. `Adapter.texts` are the blocks of text of a body and
`Adapter.heard` what the adapter makes of them: anthropic, gemini and bedrock join the blocks,
cohere takes the first one, and the OpenAI-compatible APIs have one text.
-/

namespace LlmRouter.Adapters

open Gateway Lib Lib.Json Streams

/-! ## Response bodies -/

structure ContentBlock where
  type : String := ""
  text : String := ""
  deriving DecidableEq, Repr

def ContentBlock.into : Into ContentBlock :=
  intoStruct fun fs b => do
    let type ← field intoString b.type "type" fs
    let text ← field intoString b.text "text" fs
    return ⟨type, text⟩

def intoTextBlock : Into String := intoStruct fun fs text => field intoString text "text" fs

def elems {α : Type} (s : Option (Slice α)) : List α := s.elim [] Slice.elems

def textsOf (blocks : List ContentBlock) : List String :=
  (blocks.filter fun b => b.type == "text").map ContentBlock.text

def intoCounts (input output : String) : Into (Int × Int) :=
  intoStruct fun fs counts => do
    let inputTokens ← field intoInt counts.1 input fs
    let outputTokens ← field intoInt counts.2 output fs
    return (inputTokens, outputTokens)

def intoChoice : Into Choice :=
  intoStruct fun fs c => do
    let index ← field intoInt c.index "index" fs
    let message ← field Message.into c.message "message" fs
    let finishReason ← field intoString c.finishReason "finish_reason" fs
    return ⟨index, message, finishReason⟩

variable (fs : List (String × Json))

def chatResponse : Option ChatCompletionResponse := do
  let id ← field intoString "" "id" fs
  let object ← field intoString "" "object" fs
  let created ← field intoInt 0 "created" fs
  let model ← field intoString "" "model" fs
  let choices ← field (intoSlice intoChoice ⟨0, ⟨"", ""⟩, ""⟩) none "choices" fs
  let usage ← field (intoPtr intoUsage {}) none "usage" fs
  return ⟨id, object, created, model, choices.map Slice.elems, usage⟩

structure Anthropic.Response where
  id : String
  content : List ContentBlock
  stopReason : String
  usage : Int × Int

def Anthropic.response : Option Anthropic.Response := do
  let id ← field intoString "" "id" fs
  let _ ← field intoString "" "type" fs
  let _ ← field intoString "" "role" fs
  let _ ← field intoString "" "model" fs
  let content ← field (intoSlice ContentBlock.into {}) none "content" fs
  let stopReason ← field intoString "" "stop_reason" fs
  let usage ← field (intoCounts "input_tokens" "output_tokens") (0, 0) "usage" fs
  return ⟨id, elems content, stopReason, usage⟩

structure Gemini.Candidate where
  role : String := ""
  parts : Option (Slice String) := none
  finishReason : String := ""
  index : Int := 0

def Gemini.Candidate.into : Into Gemini.Candidate :=
  intoStruct fun fs c => do
    let content ← field (intoStruct fun fs content => do
      let role ← field intoString content.1 "role" fs
      let parts ← field (intoSlice intoTextBlock "") content.2 "parts" fs
      return (role, parts)) (c.role, c.parts) "content" fs
    let finishReason ← field intoString c.finishReason "finishReason" fs
    let index ← field intoInt c.index "index" fs
    return ⟨content.1, content.2, finishReason, index⟩

structure Gemini.Response where
  candidates : List Gemini.Candidate
  usage : Usage

def Gemini.response : Option Gemini.Response := do
  let candidates ← field (intoSlice Gemini.Candidate.into {}) none "candidates" fs
  let usage ← field (intoStruct fun fs u => do
    let promptTokens ← field intoInt u.promptTokens "promptTokenCount" fs
    let completionTokens ← field intoInt u.completionTokens "candidatesTokenCount" fs
    let totalTokens ← field intoInt u.totalTokens "totalTokenCount" fs
    return (⟨promptTokens, completionTokens, totalTokens⟩ : Usage)) {} "usageMetadata" fs
  return ⟨elems candidates, usage⟩

/-- `converseResponse` of bedrock, with the texts of the message. -/
structure Bedrock.Response where
  content : List String
  stopReason : String
  usage : Usage

def Bedrock.response : Option Bedrock.Response := do
  let message ← field (intoStruct fun fs m =>
    field (intoStruct fun fs m => do
      let role ← field intoString m.1 "role" fs
      let content ← field (intoSlice intoTextBlock "") m.2 "content" fs
      return (role, content)) m "message" fs) ("", none) "output" fs
  let stopReason ← field intoString "" "stopReason" fs
  let usage ← field (intoStruct fun fs u => do
    let promptTokens ← field intoInt u.promptTokens "inputTokens" fs
    let completionTokens ← field intoInt u.completionTokens "outputTokens" fs
    let totalTokens ← field intoInt u.totalTokens "totalTokens" fs
    return (⟨promptTokens, completionTokens, totalTokens⟩ : Usage)) {} "usage" fs
  return ⟨elems message.2, stopReason, usage⟩

structure Cohere.Response where
  id : String
  content : List ContentBlock
  finishReason : String
  tokens : Int × Int

def Cohere.response : Option Cohere.Response := do
  let id ← field intoString "" "id" fs
  let message ← field (intoStruct fun fs m => do
    let role ← field intoString m.1 "role" fs
    let content ← field (intoSlice ContentBlock.into {}) m.2 "content" fs
    return (role, content)) ("", none) "message" fs
  let finishReason ← field intoString "" "finish_reason" fs
  let usage ← field (intoStruct fun fs u => do
    let billed ← field (intoCounts "input_tokens" "output_tokens") u.1 "billed_units" fs
    let tokens ← field (intoCounts "input_tokens" "output_tokens") u.2 "tokens" fs
    return (billed, tokens)) ((0, 0), (0, 0)) "usage" fs
  return ⟨id, elems message.2, finishReason, usage.2⟩

/-! ## ParseResponse -/

/-- What parsing a response needs besides the body: JSON, `strings.ToLower` and the clock. -/
structure Reading where
  enc : Encoding
  toLower : String → String
  now : Int

variable (rd : Reading)

def Reading.seconds : Int := rd.now / 1000000000

def Reading.unmarshal {α : Type} (rd : Reading) (what : String)
    (ofFields : List (String × Json) → Option α) (respBody : String) : Except String α :=
  (rd.enc.unmarshal (Encoding.decodeStruct ofFields) respBody).mapError (what ++ ·)

def oneChoice (text finishReason : String) : Option (List Choice) :=
  some [⟨0, { role := "assistant", content := text }, finishReason⟩]

/-- `ParseResponse` of openai and azure, `parseResponse` of grok and mistral. -/
def Compat.parseResponse (name originalModel respBody : String) :
    Except String ChatCompletionResponse :=
  (rd.unmarshal ("unmarshal " ++ name ++ " response: ") chatResponse respBody).map fun resp =>
    { resp with model := originalModel }

variable (originalModel respBody : String)

def Anthropic.parseResponse : Except String ChatCompletionResponse :=
  (rd.unmarshal "unmarshal anthropic response: " Anthropic.response respBody).map fun ar =>
    { id := "chatcmpl-" ++ ar.id
      object := "chat.completion"
      created := rd.seconds
      model := originalModel
      choices := oneChoice (String.join (textsOf ar.content)) (mapStopReason ar.stopReason)
      usage := some ⟨ar.usage.1, ar.usage.2, ar.usage.1 + ar.usage.2⟩ }

def Gemini.mapFinishReason (reason : String) : String :=
  match reason with
  | "STOP" => "stop"
  | "MAX_TOKENS" => "length"
  | "SAFETY" => "content_filter"
  | _ => "stop"

def Gemini.parseResponse : Except String ChatCompletionResponse :=
  match rd.unmarshal "unmarshal gemini response: " Gemini.response respBody with
  | .error err => .error err
  | .ok gr =>
    match gr.candidates with
    | [] => .error "gemini returned no candidates"
    | c :: _ =>
      .ok { id := "chatcmpl-gemini-" ++ toString rd.now
            object := "chat.completion"
            created := rd.seconds
            model := originalModel
            choices := oneChoice (String.join (elems c.parts)) (mapFinishReason c.finishReason)
            usage := some gr.usage }

def Bedrock.parseConverseResponse : Except String ChatCompletionResponse :=
  (rd.unmarshal "unmarshal bedrock response: " Bedrock.response respBody).map fun cr =>
    { id := ""
      object := "chat.completion"
      created := 0
      model := originalModel
      choices := oneChoice (String.join cr.content) (mapStopReason cr.stopReason)
      usage := some cr.usage }

def Cohere.parseResponse : Except String ChatCompletionResponse :=
  (rd.unmarshal "unmarshal cohere response: " Cohere.response respBody).map fun cr =>
    { id := cr.id
      object := "chat.completion"
      created := 0
      model := originalModel
      choices := oneChoice ((textsOf cr.content).headD "")
        (if cr.finishReason ≠ "" then rd.toLower cr.finishReason else "stop")
      usage := some ⟨cr.tokens.1, cr.tokens.2, cr.tokens.1 + cr.tokens.2⟩ }

namespace Adapter

def parse (rd : Reading) (a : Adapter) (model : String) (req : ChatCompletionRequest)
    (respBody : String) : Except String ChatCompletionResponse :=
  match a with
  | .openai | .selfhosted _ _ => Compat.parseResponse rd "openai" req.model respBody
  | .azure => Compat.parseResponse rd "azure" ("azure/" ++ model) respBody
  | .grok => Compat.parseResponse rd "grok" ("grok/" ++ model) respBody
  | .mistral => Compat.parseResponse rd "mistral" ("mistral/" ++ model) respBody
  | .anthropic => Anthropic.parseResponse rd req.model respBody
  | .gemini => Gemini.parseResponse rd req.model respBody
  | .bedrock => Bedrock.parseConverseResponse rd ("bedrock/" ++ model) respBody
  | .cohere => Cohere.parseResponse rd req.model respBody

def buildError : Adapter → String
  | .openai => "build openai request: "
  | .azure => "build azure request: "
  | .grok => "build grok request: "
  | .mistral => "build mistral request: "
  | .selfhosted _ _ => ""
  | .anthropic => "build anthropic request: "
  | .gemini => "build gemini request: "
  | .bedrock => "build bedrock request: "
  | .cohere => "marshal cohere request: "

/-- `ChatCompletion`. The upstream gives the body of a response with status 200, or an error. -/
def chatCompletion (rd : Reading) (json : Unmarshal) (upstream : Json → Except String String)
    (a : Adapter) (model : String) (req : ChatCompletionRequest) (rawBody : String) :
    Except String ChatCompletionResponse :=
  match a.body rd.enc json false model req rawBody with
  | .error err => .error (a.buildError ++ err)
  | .ok wire =>
    match upstream wire with
    | .error err => .error err
    | .ok respBody => a.parse rd model req respBody

/-! ## The text of an answer -/

def texts (a : Adapter) (respBody : String) : Option (List String) :=
  (Json.parse respBody.toList).bind fun v =>
    match a with
    | .anthropic =>
      (Encoding.decodeStruct Anthropic.response v).map fun ar => textsOf ar.content
    | .gemini =>
      (Encoding.decodeStruct Gemini.response v).bind fun gr =>
        gr.candidates.head?.map fun c => elems c.parts
    | .bedrock => (Encoding.decodeStruct Bedrock.response v).map Bedrock.Response.content
    | .cohere => (Encoding.decodeStruct Cohere.response v).map fun cr => textsOf cr.content
    | _ =>
      (Encoding.decodeStruct chatResponse v).bind fun resp =>
        (resp.choices.getD []).head?.map fun c => [c.message.content]

def heard (a : Adapter) (blocks : List String) : String :=
  if a = .cohere then blocks.headD "" else String.join blocks

end Adapter

theorem unmarshal_of_parse {α : Type} {rd : Reading} {what : String}
    {ofFields : List (String × Json) → Option α} {respBody : String} {v : Json} {a : α}
    (hparse : parse respBody.toList = some v)
    (hdecode : Encoding.decodeStruct ofFields v = some a) :
    rd.unmarshal what ofFields respBody = .ok a := by
  rw [Reading.unmarshal, mapError_eq_ok, Encoding.unmarshal_eq_ok]
  exact ⟨v, hparse, hdecode⟩

/-- **The text of an answer arrives**, as far as the adapter hears it. -/
theorem parse_texts {a : Adapter} (ha : a.isRaw = false) (rd : Reading) (model : String)
    (req : ChatCompletionRequest) {respBody : String} {blocks : List String}
    (h : a.texts respBody = some blocks) :
    ∃ resp reason, a.parse rd model req respBody = .ok resp ∧
      resp.choices = oneChoice (a.heard blocks) reason := by
  obtain ⟨v, hparse, hv⟩ := Option.bind_eq_some_iff.mp h
  cases a with
  | anthropic =>
    obtain ⟨ar, hdecode, rfl⟩ := Option.map_eq_some_iff.mp hv
    show ∃ resp reason, Anthropic.parseResponse rd req.model respBody = .ok resp ∧ _
    rw [Anthropic.parseResponse, unmarshal_of_parse hparse hdecode]
    exact ⟨_, _, rfl, rfl⟩
  | gemini =>
    obtain ⟨gr, hdecode, hcandidates⟩ := Option.bind_eq_some_iff.mp hv
    obtain ⟨c, hc, rfl⟩ := Option.map_eq_some_iff.mp hcandidates
    obtain ⟨cs, hcs⟩ := List.head?_eq_some_iff.mp hc
    show ∃ resp reason, Gemini.parseResponse rd req.model respBody = .ok resp ∧ _
    rw [Gemini.parseResponse, unmarshal_of_parse hparse hdecode]
    simp only [hcs]
    exact ⟨_, _, rfl, rfl⟩
  | bedrock =>
    obtain ⟨cr, hdecode, rfl⟩ := Option.map_eq_some_iff.mp hv
    show ∃ resp reason,
      Bedrock.parseConverseResponse rd ("bedrock/" ++ model) respBody = .ok resp ∧ _
    rw [Bedrock.parseConverseResponse, unmarshal_of_parse hparse hdecode]
    exact ⟨_, _, rfl, rfl⟩
  | cohere =>
    obtain ⟨cr, hdecode, rfl⟩ := Option.map_eq_some_iff.mp hv
    show ∃ resp reason, Cohere.parseResponse rd req.model respBody = .ok resp ∧ _
    rw [Cohere.parseResponse, unmarshal_of_parse hparse hdecode]
    exact ⟨_, _, rfl, rfl⟩
  | _ => cases ha

/-- **An adapter that needs the raw body sends nothing without it.** -/
theorem chatCompletion_raw_empty {a : Adapter} (ha : a.isRaw = true) (rd : Reading)
    (json : Unmarshal) (upstream : Json → Except String String) (model : String)
    (req : ChatCompletionRequest) :
    ∃ err, a.chatCompletion rd json upstream model req "" = .error err := by
  cases a with
  | openai | azure | grok | mistral | selfhosted name models => exact ⟨_, rfl⟩
  | _ => cases ha

end LlmRouter.Adapters
