import LlmRouter.Gateway.Handlers
import LlmRouter.Lib.JsonDecode

/-!
# LlmRouter — request bodies

How the request types of `internal/gateway/types` are read from a JSON body and written back. What
is left open of `encoding/json` is an `Encoding`: how a number literal becomes a `float64`, and
the texts of the errors.
-/

namespace LlmRouter.Lib

def NumLit.ofDecimal (x : Decimal) : NumLit :=
  ⟨x.json, x.json_ne_nil, fun _ h => Decimal.isNumberChar_of_mem_json h⟩

end LlmRouter.Lib

namespace LlmRouter.Gateway

open Lib Lib.Json List

/-- `strconv.ParseFloat` of a number literal, as a shortest decimal, which is read back to itself;
nothing if it is out of range. And the text of the error for a body that cannot be decoded. -/
structure Encoding where
  parseFloat : NumLit → Option Decimal
  parseFloat_ofDecimal : ∀ n x, parseFloat n = some x → parseFloat (.ofDecimal x) = some x
  errorText : String → String

/-! ## Reading -/

def Message.into : Into Message
  | .null, m => some m
  | .obj fs, m => do
    let role ← field intoString m.role "role" fs
    let content ← field intoString m.content "content" fs
    return { role := role, content := content }
  | _, _ => none

def StreamOptions.into : Into StreamOptions
  | .null, o => some o
  | .obj fs, o => do
    let includeUsage ← field intoBool o.includeUsage "include_usage" fs
    return { includeUsage := includeUsage }
  | _, _ => none

def decodeStrings (v : Json) : Option (List String) :=
  (intoSlice intoString "" v none).map fun ss => ss.elim [] Slice.elems

namespace Encoding

variable (enc : Encoding)

def intoFloatPtr : Into (Option Decimal) := intoPtr (intoFloat enc.parseFloat) .zero

def chatRequest (fs : List (String × Json)) : Option ChatCompletionRequest := do
  let model ← field intoString "" "model" fs
  let messages ← field (intoSlice Message.into { role := "", content := "" }) none "messages" fs
  let temperature ← field enc.intoFloatPtr none "temperature" fs
  let maxTokens ← field (intoPtr intoInt 0) none "max_tokens" fs
  let topP ← field enc.intoFloatPtr none "top_p" fs
  let n ← field (intoPtr intoInt 0) none "n" fs
  let stream ← field intoBool false "stream" fs
  let streamOptions ← field (intoPtr StreamOptions.into ⟨false⟩) none "stream_options" fs
  let stop ← field (fun v _ => some (some (rawText v))) none "stop" fs
  let presencePenalty ← field enc.intoFloatPtr none "presence_penalty" fs
  let frequencyPenalty ← field enc.intoFloatPtr none "frequency_penalty" fs
  let user ← field intoString "" "user" fs
  let tools ← field (intoSlice intoRaw "") none "tools" fs
  let metadata ← field (intoMap intoString "") [] "metadata" fs
  let promptSlug ← field intoString "" "prompt_slug" fs
  let promptVariables ← field (intoMap intoString "") [] "prompt_variables" fs
  return { model := model, messages := messages.map Slice.elems, temperature := temperature,
           maxTokens := maxTokens, topP := topP, n := n, stream := stream,
           streamOptions := streamOptions, stop := stop, presencePenalty := presencePenalty,
           frequencyPenalty := frequencyPenalty, user := user, tools := tools.elim [] Slice.elems,
           metadata := metadata, promptSlug := promptSlug, promptVariables := promptVariables }

def completionRequest (fs : List (String × Json)) : Option CompletionRequest := do
  let model ← field intoString "" "model" fs
  let prompt ← field intoRaw "" "prompt" fs
  let maxTokens ← field (intoPtr intoInt 0) none "max_tokens" fs
  let temperature ← field enc.intoFloatPtr none "temperature" fs
  let stream ← field intoBool false "stream" fs
  let user ← field intoString "" "user" fs
  return { model := model, prompt := prompt, maxTokens := maxTokens, temperature := temperature,
           stream := stream, user := user }

def decodeStruct {α : Type} (ofFields : List (String × Json) → Option α) : Json → Option α
  | .null => ofFields []
  | .obj fs => ofFields fs
  | _ => none

def unmarshal {α : Type} (decode : Json → Option α) (text : String) : Except String α :=
  match (parse text.toList).bind decode with
  | some a => .ok a
  | none => .error (enc.errorText text)

def json (rest : Unmarshal) : Unmarshal :=
  { rest with
    chatRequest := enc.unmarshal (decodeStruct enc.chatRequest)
    completionRequest := enc.unmarshal (decodeStruct enc.completionRequest)
    string := enc.unmarshal (intoString · "")
    strings := enc.unmarshal decodeStrings }

theorem json_chatRequest (rest : Unmarshal) :
    (enc.json rest).chatRequest = enc.unmarshal (decodeStruct enc.chatRequest) := rfl

variable {enc}

theorem unmarshal_eq_ok {α : Type} {decode : Json → Option α} {text : String} {a : α} :
    enc.unmarshal decode text = .ok a ↔
      ∃ v, parse text.toList = some v ∧ decode v = some a := by
  rw [← Option.bind_eq_some_iff, unmarshal]
  cases (parse text.toList).bind decode <;> simp

end Encoding

/-! ## Writing -/

def StreamOptions.toJson (o : StreamOptions) : Json :=
  .obj (present [("include_usage", if o.includeUsage then some (.bool true) else none)])

def rawJson (text : RawMessage) : Json := (parse text.toList).getD .null

namespace ChatCompletionRequest

variable (r : ChatCompletionRequest)

/-- The fields of `types.ChatCompletionRequest`; those with `omitempty` are left
out when they are empty. -/
def parts : List (String × Option Json) :=
  [("model", some (.str r.model)),
    ("messages", some (sliceJson Message.toJson r.messages)),
    ("temperature", r.temperature.map .ofDecimal),
    ("max_tokens", r.maxTokens.map .ofInt),
    ("top_p", r.topP.map .ofDecimal),
    ("n", r.n.map .ofInt),
    ("stream", if r.stream then some (.bool true) else none),
    ("stream_options", r.streamOptions.map StreamOptions.toJson),
    ("stop", r.stop.map rawJson),
    ("presence_penalty", r.presencePenalty.map .ofDecimal),
    ("frequency_penalty", r.frequencyPenalty.map .ofDecimal),
    ("user", if r.user = "" then none else some (.str r.user)),
    ("tools", if r.tools = [] then none else some (.arr (r.tools.map rawJson))),
    ("metadata", if r.metadata = [] then none else some (ofMap .str r.metadata)),
    ("prompt_slug", if r.promptSlug = "" then none else some (.str r.promptSlug)),
    ("prompt_variables",
      if r.promptVariables = [] then none else some (ofMap .str r.promptVariables))]

def toJson : Json := .obj (present r.parts)

def marshal : String := String.ofList r.toJson.render

/-- The names in the struct tags of `types.ChatCompletionRequest`. -/
def names : List String :=
  ["model", "messages", "temperature", "max_tokens", "top_p", "n", "stream", "stream_options",
    "stop", "presence_penalty", "frequency_penalty", "user", "tools", "metadata", "prompt_slug",
    "prompt_variables"]

theorem distinct_names : Distinct names := by decide

theorem member_parts (name : String) :
    member name (present r.parts) = (r.parts.lookup name).getD none := by
  have hnodup : names.Nodup := by decide
  exact member_present r.parts hnodup name

end ChatCompletionRequest

/-! ## Reading what was written -/

def IsRaw (text : RawMessage) : Prop := ∃ v : Json, v.Valid ∧ rawText v = text

theorem rawJson_rawText {v : Json} (hv : v.Valid) : rawJson (rawText v) = v := by
  rw [rawJson, rawText, String.toList_ofList, parse_render hv]
  rfl

theorem rawText_rawJson {text : RawMessage} (h : IsRaw text) : rawText (rawJson text) = text := by
  obtain ⟨v, hv, rfl⟩ := h
  rw [rawJson_rawText hv]

theorem valid_rawJson {text : RawMessage} (h : IsRaw text) : (rawJson text).Valid := by
  obtain ⟨v, hv, rfl⟩ := h
  rw [rawJson_rawText hv]
  exact hv

theorem Message.into_toJson (m old : Message) : Message.into m.toJson old = some m := by
  have hnames : Distinct ["role", "content"] := by decide
  have hrole := field_present [("role", some (.str m.role)), ("content", some (.str m.content))]
    intoString old.role hnames mem_cons_self
  have hcontent := field_present [("role", some (.str m.role)), ("content", some (.str m.content))]
    intoString old.content hnames (mem_cons_of_mem _ mem_cons_self)
  show ((field intoString old.role "role" _).bind fun role =>
    (field intoString old.content "content" _).bind fun content =>
      some { role := role, content := content }) = some m
  exact (congrArg (Option.bind · _) hrole).trans (congrArg (Option.bind · _) hcontent)

theorem StreamOptions.into_toJson (o : StreamOptions) :
    StreamOptions.into o.toJson ⟨false⟩ = some o := by
  obtain ⟨b⟩ := o
  cases b <;> rfl

theorem intoSlice_map {α : Type} {into : Into α} {zero : α} {toJson : α → Json} {as : List α}
    (h : ∀ a ∈ as, into (toJson a) zero = some a) :
    intoSlice into zero (.arr (as.map toJson)) none = some (some { elems := as }) := by
  have helems : intoElems into zero (as.map toJson) [] = some as := by
    induction as with
    | nil => rfl
    | cons a as ih =>
      obtain ⟨ha, has⟩ := forall_mem_cons.mp h
      rw [map_cons, intoElems]
      simp only [head?_nil, Option.getD_none, ha, tail_nil, ih has]
      rfl
  cases as with
  | nil => rfl
  | cons a as =>
    show (intoElems into zero ((a :: as).map toJson) []).map _ = _
    rw [helems]
    rfl

namespace ChatCompletionRequest

/-- What holds of every decoded request: numbers are those of the types, raw messages are texts of
JSON values, maps are in the order of their keys. -/
structure Clean (enc : Encoding) (r : ChatCompletionRequest) : Prop where
  temperature : ∀ x ∈ r.temperature, enc.parseFloat (.ofDecimal x) = some x
  topP : ∀ x ∈ r.topP, enc.parseFloat (.ofDecimal x) = some x
  presencePenalty : ∀ x ∈ r.presencePenalty, enc.parseFloat (.ofDecimal x) = some x
  frequencyPenalty : ∀ x ∈ r.frequencyPenalty, enc.parseFloat (.ofDecimal x) = some x
  maxTokens : ∀ i ∈ r.maxTokens, IsInt64 i
  n : ∀ i ∈ r.n, IsInt64 i
  stop : ∀ t ∈ r.stop, IsRaw t
  tools : ∀ t ∈ r.tools, IsRaw t
  metadata : SortedKeys r.metadata
  promptVariables : SortedKeys r.promptVariables

variable {enc : Encoding} {r : ChatCompletionRequest}

variable {α : Type} {name : String} {fs : List (String × Json)}

theorem field_parts (into : Into α) (old : α) (h : name ∈ names) :
    field into old name (present r.parts) =
      ((r.parts.lookup name).getD none).elim (some old) (into · old) :=
  field_present r.parts into old distinct_names h

section Fields

variable {name : String} (hname : name ∈ names)

include hname

theorem field_float {o : Option Decimal}
    (hpart : (r.parts.lookup name).getD none = o.map .ofDecimal)
    (h : ∀ x ∈ o, enc.parseFloat (.ofDecimal x) = some x) :
    field enc.intoFloatPtr none name (present r.parts) = some o := by
  rw [field_parts _ _ hname, hpart]
  cases o with
  | none => rfl
  | some x =>
    show (enc.parseFloat (.ofDecimal x)).map some = some (some x)
    rw [h x rfl]
    rfl

theorem field_int {o : Option Int} (hpart : (r.parts.lookup name).getD none = o.map .ofInt)
    (h : ∀ i ∈ o, IsInt64 i) :
    field (intoPtr intoInt 0) none name (present r.parts) = some o := by
  rw [field_parts _ _ hname, hpart]
  cases o with
  | none => rfl
  | some i =>
    show (intoInt (.ofInt i) 0).map some = some (some i)
    rw [intoInt_ofInt (h i rfl)]
    rfl

theorem field_string {s : String}
    (hpart : (r.parts.lookup name).getD none = if s = "" then none else some (.str s)) :
    field intoString "" name (present r.parts) = some s := by
  rw [field_parts _ _ hname, hpart]
  split_ifs with hs
  · rw [hs]
    rfl
  · rfl

theorem field_map {m : List (String × String)}
    (hpart : (r.parts.lookup name).getD none = if m = [] then none else some (ofMap .str m))
    (h : SortedKeys m) : field (intoMap intoString "") [] name (present r.parts) = some m := by
  rw [field_parts _ _ hname, hpart]
  split_ifs with hm
  · rw [hm]
    rfl
  · exact intoMap_ofMap (fun _ => rfl) h

end Fields

theorem field_messages (r : ChatCompletionRequest) :
    field (intoSlice Message.into { role := "", content := "" }) none "messages"
      (present r.parts) = some (r.messages.map fun ms => { elems := ms }) := by
  rw [field_parts _ _ (by decide)]
  show intoSlice Message.into _ (sliceJson Message.toJson r.messages) none = _
  cases r.messages with
  | none => rfl
  | some ms => exact intoSlice_map fun m _ => Message.into_toJson m _

theorem field_stream (r : ChatCompletionRequest) :
    field intoBool false "stream" (present r.parts) = some r.stream := by
  rw [field_parts _ _ (by decide)]
  show (if r.stream then some (Json.bool true) else none).elim _ _ = _
  cases r.stream <;> rfl

theorem field_streamOptions (r : ChatCompletionRequest) :
    field (intoPtr StreamOptions.into ⟨false⟩) none "stream_options" (present r.parts) =
      some r.streamOptions := by
  rw [field_parts _ _ (by decide)]
  show (r.streamOptions.map StreamOptions.toJson).elim _ _ = _
  cases r.streamOptions with
  | none => rfl
  | some o => exact congrArg (Option.map some) (StreamOptions.into_toJson o)

theorem field_stop (h : ∀ t ∈ r.stop, IsRaw t) :
    field (fun v _ => some (some (rawText v))) none "stop" (present r.parts) = some r.stop := by
  rw [field_parts _ _ (by decide)]
  show (r.stop.map rawJson).elim _ _ = _
  cases hstop : r.stop with
  | none => rfl
  | some t => exact congrArg (some ∘ some) (rawText_rawJson (h t hstop))

theorem field_tools (h : ∀ t ∈ r.tools, IsRaw t) :
    (field (intoSlice intoRaw "") none "tools" (present r.parts)).map
      (fun tools => tools.elim [] Slice.elems) = some r.tools := by
  rw [field_parts _ _ (by decide)]
  show Option.map _
    ((if r.tools = [] then none else some (Json.arr (r.tools.map rawJson))).elim _ _) = _
  split_ifs with htools
  · rw [htools]
    rfl
  · show (intoSlice intoRaw "" (.arr (r.tools.map rawJson)) none).map _ = _
    rw [intoSlice_map fun t ht => congrArg some (rawText_rawJson (h t ht))]
    rfl

/-- **Reading undoes writing**, for a request that was read before. -/
theorem decode_toJson (h : r.Clean enc) :
    Encoding.decodeStruct enc.chatRequest r.toJson = some r := by
  obtain ⟨tools, htools, helems⟩ := Option.map_eq_some_iff.mp (field_tools h.tools)
  have hmodel : field intoString "" "model" (present r.parts) = some r.model :=
    field_parts _ _ (by decide)
  have hmessages : (r.messages.map fun ms => ({ elems := ms } : Slice Message)).map Slice.elems =
      r.messages := by
    cases r.messages <;> rfl
  show enc.chatRequest (present r.parts) = some r
  unfold Encoding.chatRequest
  simp only [hmodel, field_messages, field_stream, field_streamOptions, field_stop h.stop, htools,
    field_float (show "temperature" ∈ names by decide) rfl h.temperature,
    field_float (show "top_p" ∈ names by decide) rfl h.topP,
    field_float (show "presence_penalty" ∈ names by decide) rfl h.presencePenalty,
    field_float (show "frequency_penalty" ∈ names by decide) rfl h.frequencyPenalty,
    field_int (show "max_tokens" ∈ names by decide) rfl h.maxTokens,
    field_int (show "n" ∈ names by decide) rfl h.n,
    field_string (show "user" ∈ names by decide) rfl,
    field_string (show "prompt_slug" ∈ names by decide) rfl,
    field_map (show "metadata" ∈ names by decide) rfl h.metadata,
    field_map (show "prompt_variables" ∈ names by decide) rfl h.promptVariables, helems, hmessages,
    Option.bind_eq_bind, Option.bind_some]
  rfl

/-! ## What was read is clean -/

structure Decoded (enc : Encoding) (fs : List (String × Json)) (r : ChatCompletionRequest) :
    Prop where
  model : field intoString "" "model" fs = some r.model
  messages : (field (intoSlice Message.into { role := "", content := "" }) none "messages" fs).map
    (Option.map Slice.elems) = some r.messages
  temperature : field enc.intoFloatPtr none "temperature" fs = some r.temperature
  maxTokens : field (intoPtr intoInt 0) none "max_tokens" fs = some r.maxTokens
  topP : field enc.intoFloatPtr none "top_p" fs = some r.topP
  n : field (intoPtr intoInt 0) none "n" fs = some r.n
  stream : field intoBool false "stream" fs = some r.stream
  streamOptions : field (intoPtr StreamOptions.into ⟨false⟩) none "stream_options" fs =
    some r.streamOptions
  stop : field (fun v _ => some (some (rawText v))) none "stop" fs = some r.stop
  presencePenalty : field enc.intoFloatPtr none "presence_penalty" fs = some r.presencePenalty
  frequencyPenalty : field enc.intoFloatPtr none "frequency_penalty" fs = some r.frequencyPenalty
  user : field intoString "" "user" fs = some r.user
  tools : (field (intoSlice intoRaw "") none "tools" fs).map (fun o => o.elim [] Slice.elems) =
    some r.tools
  metadata : field (intoMap intoString "") [] "metadata" fs = some r.metadata
  promptSlug : field intoString "" "prompt_slug" fs = some r.promptSlug
  promptVariables : field (intoMap intoString "") [] "prompt_variables" fs = some r.promptVariables

theorem decoded_of_chatRequest (h : enc.chatRequest fs = some r) : Decoded enc fs r := by
  obtain ⟨model, hmodel, h⟩ := Option.bind_eq_some_iff.mp h
  obtain ⟨messages, hmessages, h⟩ := Option.bind_eq_some_iff.mp h
  obtain ⟨temperature, htemperature, h⟩ := Option.bind_eq_some_iff.mp h
  obtain ⟨maxTokens, hmaxTokens, h⟩ := Option.bind_eq_some_iff.mp h
  obtain ⟨topP, htopP, h⟩ := Option.bind_eq_some_iff.mp h
  obtain ⟨n, hn, h⟩ := Option.bind_eq_some_iff.mp h
  obtain ⟨stream, hstream, h⟩ := Option.bind_eq_some_iff.mp h
  obtain ⟨options, hoptions, h⟩ := Option.bind_eq_some_iff.mp h
  obtain ⟨stop, hstop, h⟩ := Option.bind_eq_some_iff.mp h
  obtain ⟨presence, hpresence, h⟩ := Option.bind_eq_some_iff.mp h
  obtain ⟨frequency, hfrequency, h⟩ := Option.bind_eq_some_iff.mp h
  obtain ⟨user, huser, h⟩ := Option.bind_eq_some_iff.mp h
  obtain ⟨tools, htools, h⟩ := Option.bind_eq_some_iff.mp h
  obtain ⟨metadata, hmetadata, h⟩ := Option.bind_eq_some_iff.mp h
  obtain ⟨slug, hslug, h⟩ := Option.bind_eq_some_iff.mp h
  obtain ⟨vars, hvars, ⟨⟩⟩ := Option.bind_eq_some_iff.mp h
  exact {
    model := hmodel
    messages := by rw [hmessages]; rfl
    temperature := htemperature
    maxTokens := hmaxTokens
    topP := htopP
    n := hn
    stream := hstream
    streamOptions := hoptions
    stop := hstop
    presencePenalty := hpresence
    frequencyPenalty := hfrequency
    user := huser
    tools := by rw [htools]; rfl
    metadata := hmetadata
    promptSlug := hslug
    promptVariables := hvars }

theorem valid_of_mem_fieldValues (hfs : ValidFields fs) {v : Json} (hv : v ∈ fieldValues name fs) :
    v.Valid := by
  obtain ⟨kv, hmem, rfl⟩ := mem_map.mp hv
  exact validFields_iff.mp hfs kv (mem_filter.mp hmem).1

theorem float_of_field {o : Option Decimal} (h : field enc.intoFloatPtr none name fs = some o) :
    ∀ x ∈ o, enc.parseFloat (.ofDecimal x) = some x := by
  refine intoAll_induction (P := fun o => ∀ x ∈ o, enc.parseFloat (.ofDecimal x) = some x) ?_ ?_ h
  · intro v _ a a' ha hinto x hx
    cases v with
    | null =>
      obtain ⟨⟩ := hinto
      cases hx
    | num n =>
      obtain ⟨y, hy, rfl⟩ := Option.map_eq_some_iff.mp hinto
      obtain ⟨⟩ := hx
      exact enc.parseFloat_ofDecimal n x hy
    | _ => cases hinto
  · intro x hx
    cases hx

theorem int_of_field {o : Option Int} (h : field (intoPtr intoInt 0) none name fs = some o) :
    ∀ i ∈ o, IsInt64 i :=
  (keeps_intoInt.ptr isInt64_zero).field (by simp) h

theorem map_of_field {m : List (String × String)}
    (h : field (intoMap intoString "") [] name fs = some m) : SortedKeys m :=
  intoAll_induction (fun _ _ _ _ hm hinto => sortedKeys_of_intoMap hm hinto) List.Pairwise.nil h

theorem isRaw_of_stop (hfs : ValidFields fs) {o : Option RawMessage}
    (h : field (fun v _ => some (some (rawText v))) none "stop" fs = some o) :
    ∀ t ∈ o, IsRaw t := by
  refine intoAll_induction (P := fun o => ∀ t ∈ o, IsRaw t) ?_ ?_ h
  · intro v hv a a' ha hinto t ht
    obtain ⟨⟩ := hinto
    obtain ⟨⟩ := ht
    exact ⟨v, valid_of_mem_fieldValues hfs hv, rfl⟩
  · intro t ht
    cases ht

theorem isRaw_of_intoElems {vs : List Json} {buf es : List RawMessage} (hvs : ∀ v ∈ vs, v.Valid)
    (h : intoElems intoRaw "" vs buf = some es) : ∀ t ∈ es, IsRaw t := by
  rw [intoElems_intoRaw] at h
  obtain ⟨⟩ := h
  intro t ht
  obtain ⟨v, hv, rfl⟩ := mem_map.mp ht
  exact ⟨v, hvs v hv, rfl⟩

theorem isRaw_of_tools (hfs : ValidFields fs) {o : Option (Slice RawMessage)}
    (h : field (intoSlice intoRaw "") none "tools" fs = some o) :
    ∀ t ∈ o.elim [] Slice.elems, IsRaw t := by
  refine intoAll_induction (P := fun o : Option (Slice RawMessage) =>
    ∀ t ∈ o.elim [] Slice.elems, IsRaw t) ?_ ?_ h
  · intro v hv a a' ha hinto
    have hvalid := valid_of_mem_fieldValues hfs hv
    match v, hinto with
    | .null, hinto | .arr [], hinto =>
      obtain ⟨⟩ := hinto
      intro t ht
      cases ht
    | .arr (v :: vs), hinto =>
      obtain ⟨es, hes, rfl⟩ := Option.map_eq_some_iff.mp hinto
      rw [Json.Valid] at hvalid
      exact isRaw_of_intoElems (validElems_iff.mp hvalid) hes
  · intro t ht
    cases ht

theorem clean_of_chatRequest (hfs : ValidFields fs) (h : enc.chatRequest fs = some r) :
    r.Clean enc := by
  have hread := decoded_of_chatRequest h
  obtain ⟨tools, htools, helems⟩ := Option.map_eq_some_iff.mp hread.tools
  exact {
    temperature := float_of_field hread.temperature
    topP := float_of_field hread.topP
    presencePenalty := float_of_field hread.presencePenalty
    frequencyPenalty := float_of_field hread.frequencyPenalty
    maxTokens := int_of_field hread.maxTokens
    n := int_of_field hread.n
    stop := isRaw_of_stop hfs hread.stop
    tools := helems ▸ isRaw_of_tools hfs htools
    metadata := map_of_field hread.metadata
    promptVariables := map_of_field hread.promptVariables }

/-! ## The texts -/

theorem valid_ofMap_str (m : List (String × String)) : (ofMap Json.str m).Valid := by
  rw [ofMap, Json.Valid, validFields_iff]
  intro kv hkv
  obtain ⟨e, -, rfl⟩ := mem_map.mp hkv
  trivial

theorem valid_of_mem_map {o : Option α} {f : α → Json} (hf : ∀ a ∈ o, (f a).Valid) :
    ∀ v ∈ o.map f, v.Valid := by
  intro v hv
  obtain ⟨a, ha, rfl⟩ := Option.map_eq_some_iff.mp hv
  exact hf a ha

theorem valid_of_mem_ite {c : Prop} [Decidable c] {v : Json} (hv : v.Valid) :
    ∀ w ∈ (if c then none else some v), w.Valid := by
  intro w hw
  rw [Option.mem_def, Option.ite_none_left_eq_some] at hw
  obtain ⟨-, ⟨⟩⟩ := hw
  exact hv

theorem StreamOptions.valid_toJson (o : StreamOptions) : o.toJson.Valid := by
  obtain ⟨b⟩ := o
  cases b <;> trivial

theorem valid_toJson (h : r.Clean enc) : r.toJson.Valid := by
  have hfloat : ∀ o : Option Decimal, ∀ v ∈ o.map Json.ofDecimal, v.Valid := fun o =>
    valid_of_mem_map fun x _ => valid_ofDecimal x
  have hint : ∀ o : Option Int, ∀ v ∈ o.map Json.ofInt, v.Valid := fun o =>
    valid_of_mem_map fun i _ => valid_ofInt i
  have hstream : ∀ v ∈ (if r.stream then some (Json.bool true) else none), v.Valid := by
    intro v hv
    rw [Option.mem_def, Option.ite_none_right_eq_some] at hv
    obtain ⟨-, ⟨⟩⟩ := hv
    trivial
  rw [toJson, Json.Valid]
  refine validFields_present ?_
  simp only [parts, forall_mem_cons]
  refine ⟨?_, ?_, hfloat _, hint _, hfloat _, hint _, hstream,
    valid_of_mem_map fun o _ => StreamOptions.valid_toJson o,
    valid_of_mem_map fun t ht => valid_rawJson (h.stop t ht), hfloat _, hfloat _,
    valid_of_mem_ite trivial,
    valid_of_mem_ite (valid_arr_map fun t ht => valid_rawJson (h.tools t ht)),
    valid_of_mem_ite (valid_ofMap_str _), valid_of_mem_ite trivial,
    valid_of_mem_ite (valid_ofMap_str _), fun _ hp => nomatch hp⟩
  · rintro v ⟨⟩
    trivial
  · rintro v ⟨⟩
    exact valid_sliceJson Message.valid_toJson _

theorem parse_marshal (h : r.Clean enc) : parse r.marshal.toList = some r.toJson := by
  rw [marshal, String.toList_ofList, parse_render (valid_toJson h)]

theorem chatRequest_marshal (h : r.Clean enc) (rest : Unmarshal) :
    (enc.json rest).chatRequest r.marshal = .ok r := by
  rw [Encoding.json_chatRequest]
  exact Encoding.unmarshal_eq_ok.mpr ⟨_, parse_marshal h, decode_toJson h⟩

end ChatCompletionRequest

theorem parse_encode {v : Json} (hv : v.Valid) : parse (encode v).toList = some v := by
  rw [encode, String.toList_ofList, parse_render_newline hv]

theorem ChatCompletionRequest.clean_of_body {enc : Encoding} {rest : Unmarshal} {body : String}
    {r : ChatCompletionRequest} (h : (enc.json rest).chatRequest body = .ok r) : r.Clean enc := by
  rw [Encoding.json_chatRequest] at h
  obtain ⟨v, hparse, hdecode⟩ := Encoding.unmarshal_eq_ok.mp h
  have hvalid := valid_of_parse hparse
  cases v with
  | null => exact clean_of_chatRequest validFields_nil hdecode
  | obj fs =>
    rw [Json.Valid] at hvalid
    exact clean_of_chatRequest hvalid hdecode
  | _ => cases hdecode

def Setup.decoding (g : Setup) (enc : Encoding) : Setup := { g with json := enc.json g.json }

def Encoding.noFloats : Encoding where
  parseFloat := fun _ => none
  parseFloat_ofDecimal := fun _ _ h => nomatch h
  errorText := fun _ => "unexpected end of JSON input"

end LlmRouter.Gateway
