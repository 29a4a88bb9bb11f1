import LlmRouter.Gateway.StreamProxy

/-!
# LlmRouter — the stream readers over `ParseSSE`

The goroutines of openai and anthropic make chunks of the events of an upstream body, up to the
event that ends an answer or one that does not decode. `ParseSSE` closes its channel in the same
way after the end of a body, after a read error and before a line that is too long;
`truncated_reported_iff` says when a body that is cut off is noticed.
-/

namespace LlmRouter.Streams

open Lib Lib.Json Gateway Proxy Utf8 List

/-! ## What the events hold -/

def unmarshal {α : Type} (into : Json → Option α) (data : Bytes) : Option α :=
  (parse (decode data)).bind into

def intoStruct {α : Type} (fields : List (String × Json) → α → Option α) : Into α
  | .null, a => some a
  | .obj fs, a => fields fs a
  | _, _ => none

def intoUsage : Into Usage :=
  intoStruct fun fs u => do
    let promptTokens ← field intoInt u.promptTokens "prompt_tokens" fs
    let completionTokens ← field intoInt u.completionTokens "completion_tokens" fs
    let totalTokens ← field intoInt u.totalTokens "total_tokens" fs
    return ⟨promptTokens, completionTokens, totalTokens⟩

/-- `openAIStreamChunkChoice`, with the content of its delta. -/
structure StreamChoice where
  content : String := ""
  finishReason : Option String := none
  deriving DecidableEq, Repr

def StreamChoice.into : Into StreamChoice :=
  intoStruct fun fs c => do
    let content ←
      field (intoStruct fun fs c => field intoString c "content" fs) c.content "delta" fs
    let finishReason ← field (intoPtr intoString "") c.finishReason "finish_reason" fs
    return ⟨content, finishReason⟩

def toStreamChunk (choices : List StreamChoice) (usage : Option Usage) : StreamChunk :=
  match choices with
  | [] => { usage := usage }
  | c :: _ => { delta := c.content, finishReason := c.finishReason, usage := usage }

def compatChunk (fs : List (String × Json)) : Option StreamChunk := do
  let choices ← field (intoSlice StreamChoice.into {}) none "choices" fs
  let usage ← field (intoPtr intoUsage {}) none "usage" fs
  return toStreamChunk (choices.elim [] Slice.elems) usage

def openAIChunk (fs : List (String × Json)) : Option StreamChunk := do
  let _ ← field intoString "" "id" fs
  compatChunk fs

/-- `anthropicStreamEvent`; `message` is `message.usage.input_tokens`, `usage` is
`usage.output_tokens`. -/
structure AnthropicEvent where
  type : String := ""
  delta : Option Json := none
  message : Option Int := none
  usage : Option Int := none

/-- An `anthropicStreamEvent` from its fields. The index is checked and not used. -/
def anthropicEvent (fs : List (String × Json)) : Option AnthropicEvent := do
  let type ← field intoString "" "type" fs
  let _ ← field intoInt 0 "index" fs
  let delta ← field (fun v _ => some (some v)) none "delta" fs
  let message ← field (intoPtr (intoStruct fun fs n =>
    field (intoStruct fun fs n => field intoInt n "input_tokens" fs) n "usage" fs) 0)
    none "message" fs
  let usage ← field (intoPtr (intoStruct fun fs n => field intoInt n "output_tokens" fs) 0)
    none "usage" fs
  return ⟨type, delta, message, usage⟩

def mapStopReason (reason : String) : String :=
  match reason with
  | "end_turn" | "stop_sequence" => "stop"
  | "max_tokens" => "length"
  | "tool_use" => "tool_calls"
  | _ => "stop"

/-! ## The readers -/

section Readers

variable (errorText : Bytes → String)

/-- The goroutine of openai, over the events of `ParseSSE`. -/
def OpenAI.chunks : List SSEEvent → List StreamChunk
  | [] => []
  | e :: es =>
    if e.data = bytes "[DONE]" then []
    else
      match unmarshal (Encoding.decodeStruct openAIChunk) e.data with
      | none => [{ error := some (.wrap "parse openai chunk: " (.other (errorText e.data))) }]
      | some chunk => chunk :: OpenAI.chunks es

def Anthropic.textDelta (fs : List (String × Json)) : Option (String × String) := do
  let type ← field intoString "" "type" fs
  let text ← field intoString "" "text" fs
  return (type, text)

def Anthropic.eventChunks (inputTokens : Int) (ev : AnthropicEvent) : List StreamChunk :=
  match ev.type with
  | "content_block_delta" =>
    match ev.delta.bind (Encoding.decodeStruct textDelta) with
    | some (type, text) => if type = "text_delta" ∧ text ≠ "" then [{ delta := text }] else []
    | none => []
  | "message_delta" =>
    match ev.delta.bind (Encoding.decodeStruct (field intoString "" "stop_reason")) with
    | some reason =>
      [{ finishReason := some (mapStopReason reason)
         usage := ev.usage.map fun n => ⟨inputTokens, n, inputTokens + n⟩ }]
    | none => []
  | _ => []

def Anthropic.chunks (inputTokens : Int) : List SSEEvent → List StreamChunk
  | [] => []
  | e :: es =>
    match unmarshal (Encoding.decodeStruct anthropicEvent) e.data with
    | none => [{ error := some (.wrap "parse anthropic event: " (.other (errorText e.data))) }]
    | some ev =>
      if ev.type = "message_stop" then []
      else
        let inputTokens :=
          if ev.type = "message_start" then ev.message.getD inputTokens else inputTokens
        eventChunks inputTokens ev ++ Anthropic.chunks inputTokens es

end Readers

inductive SseAdapter where
  | openai
  | anthropic
  deriving DecidableEq, Repr

namespace SseAdapter

def terminates : SseAdapter → SSEEvent → Bool
  | openai, e => e.data == bytes "[DONE]"
  | anthropic, e =>
    match unmarshal (Encoding.decodeStruct anthropicEvent) e.data with
    | some ev => ev.type == "message_stop"
    | none => false

def decodes : SseAdapter → SSEEvent → Bool
  | openai, e => (unmarshal (Encoding.decodeStruct openAIChunk) e.data).isSome
  | anthropic, e => (unmarshal (Encoding.decodeStruct anthropicEvent) e.data).isSome

def chunks (errorText : Bytes → String) : SseAdapter → List SSEEvent → List StreamChunk
  | openai, es => OpenAI.chunks errorText es
  | anthropic, es => Anthropic.chunks errorText 0 es

end SseAdapter

/-! ## Bodies that are cut off -/

/-- A response body: the bytes that can be read, and whether reading then fails. -/
structure UpstreamBody where
  bytes : Bytes
  failed : Bool
  deriving DecidableEq, Repr

/-- What the channel of an adapter delivers for a body; whether reading it failed plays no part. -/
def SseAdapter.stream (a : SseAdapter) (errorText : Bytes → String) (body : UpstreamBody) :
    List StreamChunk :=
  a.chunks errorText (parseSSE body.bytes)

def HasOverlongLine (stream : Bytes) : Prop :=
  ∃ line, line <:+: stream ∧ newline ∉ line ∧ maxTokenSize ≤ line.length

/-- Reading the body fails, or meets a line that is too long, before the event
that ends the answer. -/
structure Truncated (a : SseAdapter) (body : UpstreamBody) : Prop where
  cut : body.failed = true ∨ HasOverlongLine body.bytes
  unterminated : ∀ e ∈ parseSSE body.bytes, a.terminates e = false

/-- The channel delivers an error, and the client of a chat stream gets an error event. -/
structure Reported (a : SseAdapter) (errorText : Bytes → String) (body : UpstreamBody) : Prop where
  chunk : ∃ c ∈ a.stream errorText body, c.error.isSome
  client : ∀ (h : StreamHead) (items : List (Option StreamChunk)) (s : Session),
    received items = a.stream errorText body →
    ∃ msg, messageEvent (marshal (errorJson msg)) ∈
      allEvents (streamChannelToClient true h (connected items) s).2.body

section Error

variable {errorText : Bytes → String}

theorem toStreamChunk_error (choices : List StreamChoice) (usage : Option Usage) :
    (toStreamChunk choices usage).error = none := by
  cases choices <;> rfl

theorem compatChunk_error {fs : List (String × Json)} {chunk : StreamChunk}
    (h : compatChunk fs = some chunk) : chunk.error = none := by
  obtain ⟨choices, -, h⟩ := Option.bind_eq_some_iff.mp h
  obtain ⟨usage, -, h⟩ := Option.bind_eq_some_iff.mp h
  rw [← Option.some.inj h]
  exact toStreamChunk_error _ _

theorem openAIChunk_error {data : Bytes} {chunk : StreamChunk}
    (h : unmarshal (Encoding.decodeStruct openAIChunk) data = some chunk) : chunk.error = none := by
  have hfields : ∀ fs, openAIChunk fs = some chunk → chunk.error = none := by
    intro fs hfs
    obtain ⟨_, -, hfs⟩ := Option.bind_eq_some_iff.mp hfs
    exact compatChunk_error hfs
  obtain ⟨v, -, hv⟩ := Option.bind_eq_some_iff.mp h
  cases v with
  | null => exact hfields [] hv
  | obj fs => exact hfields fs hv
  | bool _ | num _ | str _ | arr _ => cases hv

theorem Anthropic.eventChunks_error {inputTokens : Int} {ev : AnthropicEvent} {c : StreamChunk}
    (h : c ∈ eventChunks inputTokens ev) : c.error = none := by
  unfold eventChunks at h
  split at h
  · split at h
    · split at h
      · rw [mem_singleton.mp h]
      · cases h
    · cases h
  · split at h
    · rw [mem_singleton.mp h]
    · cases h
  · cases h

variable {es : List SSEEvent}

theorem OpenAI.error_iff (hend : ∀ e ∈ es, SseAdapter.terminates .openai e = false) :
    (∃ c ∈ OpenAI.chunks errorText es, c.error.isSome) ↔
      ∃ e ∈ es, SseAdapter.decodes .openai e = false := by
  induction es with
  | nil => simp [chunks]
  | cons e es ih =>
    rw [forall_mem_cons] at hend
    have hdone : e.data ≠ bytes "[DONE]" := by simpa [SseAdapter.terminates] using hend.1
    rw [chunks, if_neg hdone, exists_mem_cons_iff, ← ih hend.2, SseAdapter.decodes]
    cases hev : unmarshal (Encoding.decodeStruct openAIChunk) e.data with
    | none => simp
    | some chunk => simp [openAIChunk_error hev]

theorem Anthropic.error_iff (inputTokens : Int)
    (hend : ∀ e ∈ es, SseAdapter.terminates .anthropic e = false) :
    (∃ c ∈ Anthropic.chunks errorText inputTokens es, c.error.isSome) ↔
      ∃ e ∈ es, SseAdapter.decodes .anthropic e = false := by
  induction es generalizing inputTokens with
  | nil => simp [chunks]
  | cons e es ih =>
    rw [forall_mem_cons] at hend
    obtain ⟨hstop, hend⟩ := hend
    rw [exists_mem_cons_iff, chunks, SseAdapter.decodes]
    rw [SseAdapter.terminates] at hstop
    cases hev : unmarshal (Encoding.decodeStruct anthropicEvent) e.data with
    | none => simp
    | some ev =>
      rw [hev] at hstop
      have htype : ev.type ≠ "message_stop" := by simpa using hstop
      simp only [if_neg htype, mem_append, or_and_right, exists_or, ih _ hend,
        Option.isSome_some, Bool.true_eq_false, false_or]
      refine or_iff_right ?_
      rintro ⟨c, hc, herr⟩
      rw [eventChunks_error hc] at herr
      cases herr

theorem SseAdapter.error_iff (a : SseAdapter) (hend : ∀ e ∈ es, a.terminates e = false) :
    (∃ c ∈ a.chunks errorText es, c.error.isSome) ↔ ∃ e ∈ es, a.decodes e = false := by
  cases a with
  | openai => exact OpenAI.error_iff hend
  | anthropic => exact Anthropic.error_iff 0 hend

end Error

/-- **Truncated streams.** A body that is cut off before the event that ends the answer is reported,
to the loop that writes the client's stream and to the client, iff an event before does not decode. -/
theorem truncated_reported_iff (a : SseAdapter) (errorText : Bytes → String)
    {body : UpstreamBody} (h : Truncated a body) :
    Reported a errorText body ↔ ∃ e ∈ parseSSE body.bytes, a.decodes e = false := by
  constructor
  · intro hreported
    exact (a.error_iff h.unterminated).mp hreported.chunk
  · intro hevent
    have hchunk : ∃ c ∈ a.stream errorText body, c.error.isSome :=
      (a.error_iff h.unterminated).mpr hevent
    refine ⟨hchunk, fun head items s hitems => ?_⟩
    obtain ⟨c, hc, herr⟩ := hchunk
    rw [← hitems] at hc
    obtain ⟨msg, hmsg⟩ := error_mem_written (fun sc => (buildChunk head sc).toJson) hc herr
    refine ⟨msg, ?_⟩
    rw [allEvents_chat]
    refine mem_append_left _ (mem_map_of_mem (mem_map_of_mem ?_))
    exact mem_cons_of_mem _ hmsg

theorem truncated_garbage_is_reported :
    Reported .openai (fun _ => "invalid character") ⟨bytes "data: Hel\n\n", true⟩ := by
  have hevents : parseSSE (bytes "data: Hel\n\n") = [messageEvent (bytes "Hel")] := by decide
  have hcut : Truncated .openai ⟨bytes "data: Hel\n\n", true⟩ := by
    refine ⟨.inl rfl, ?_⟩
    rw [hevents]
    decide
  refine (truncated_reported_iff .openai _ hcut).mpr ⟨messageEvent (bytes "Hel"), ?_, by decide⟩
  rw [hevents]
  exact mem_singleton.mpr rfl

def contentChunk (content : String) : Json :=
  .obj [("choices", .arr [.obj [("delta", .obj [("content", .str content)])]])]

theorem unmarshal_contentChunk :
    unmarshal (Encoding.decodeStruct openAIChunk) (marshal (contentChunk "Hel")) =
      some { delta := "Hel" } := by
  have hvalid : (contentChunk "Hel").Valid := by
    simp [contentChunk, Json.Valid, ValidFields, ValidElems]
  rw [unmarshal, marshal, decode_encode, parse_render hvalid]
  rfl

/-- Reading fails after the first chunk of an answer: the client gets that chunk
and a clean end. -/
theorem cut_short_ends_clean :
    let body : UpstreamBody := ⟨dataEvent (marshal (contentChunk "Hel")), true⟩
    Truncated .openai body ∧
      SseAdapter.stream .openai (fun _ => "") body = [{ delta := "Hel" }] ∧
      clientText contentOf (streamChannelToClient true ⟨"chatcmpl-1", 0, "openai/gpt-4o"⟩
        (connected [some { delta := "Hel" }]) newSession).2.body = "Hel".toList ∧
      EndsOnce (streamChannelToClient true ⟨"chatcmpl-1", 0, "openai/gpt-4o"⟩
        (connected [some { delta := "Hel" }]) newSession).2.body := by
  intro body
  have hevents : parseSSE body.bytes = [messageEvent (marshal (contentChunk "Hel"))] := by
    show events maxTokenSize (dataEvent _) = _
    rw [← append_nil (dataEvent _), events_dataEvent (oneLine_marshal _) (by decide)]
    rfl
  have hok : ∀ c ∈ received [some { delta := "Hel" }], c.error = none := by decide
  refine ⟨⟨.inl rfl, ?_⟩, ?_, ?_, endsOnce_chat _ _ hok⟩
  · rw [hevents]
    decide
  · rw [SseAdapter.stream, hevents]
    show OpenAI.chunks _ [messageEvent (marshal (contentChunk "Hel"))] = _
    rw [OpenAI.chunks, if_neg (by decide), messageEvent, unmarshal_contentChunk]
    rfl
  · rw [clientText_chat _ _ hok]
    rfl

end LlmRouter.Streams
