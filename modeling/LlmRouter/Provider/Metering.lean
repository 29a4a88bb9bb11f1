import LlmRouter.Provider.Compat
import LlmRouter.Provider.Adapters

/-!
# LlmRouter — the token counts of a stream

What a streamed chat request leaves in the log context. An upstream that follows the OpenAI
protocol sends a last chunk with the token counts if the wire body has
`stream_options.include_usage` (`Answer`), and `StreamChannelToClient` notes them.
-/

namespace LlmRouter.Streams

open Lib Lib.Json Gateway Proxy Adapters Utf8 List

/-! ## The adapters and the upstream -/

/-- The adapters whose streams are OpenAI's. -/
inductive CompatAdapter where
  | openai
  | azure
  | mistral
  | grok
  deriving DecidableEq, Repr

namespace CompatAdapter

def adapter : CompatAdapter → Adapter
  | openai => .openai
  | azure => .azure
  | mistral => .mistral
  | grok => .grok

def channel (errorText : Bytes → String) (toLower : String → String) (a : CompatAdapter)
    (reads : List Bytes) : List StreamChunk :=
  match a with
  | openai => SseAdapter.stream .openai errorText ⟨reads.flatten, false⟩
  | azure => Reader.stream toLower .azure reads
  | mistral => Reader.stream toLower .mistral reads
  | grok => Reader.stream toLower .grok reads

end CompatAdapter

def includesUsage (options : Option Json) : Bool :=
  match options.bind (Adapters.get "include_usage") with
  | some (.bool b) => b
  | _ => false

def asksUsage (body : Json) : Bool := includesUsage (Adapters.get "stream_options" body)

theorem asksUsage_obj (fs : List (String × Json)) :
    asksUsage (.obj fs) = includesUsage (member "stream_options" fs) := rfl

/-- An answer to a streamed request: chunks without token counts, the chunk with them, and `[DONE]`. -/
structure Answer where
  blocks : List Block
  counts : Block
  last : Block
  usage : Usage
  plain : ∀ b ∈ blocks ++ [counts], b.Plain
  short : ∀ b ∈ blocks ++ [counts], ∀ l ∈ b.lines, l.raw.length < maxTokenSize
  uncounted : ∀ b ∈ blocks, b.values ≠ [] →
    ∃ c, unmarshal (Encoding.decodeStruct openAIChunk) b.data = some c ∧ c.usage = none
  counted : ∃ c, unmarshal (Encoding.decodeStruct openAIChunk) counts.data = some c ∧
    c.usage = some usage
  done : last.values = [bytes "[DONE]"]

def Answer.stream (answer : Answer) (asked : Bool) : CompatStream where
  blocks := answer.blocks ++ if asked then [answer.counts] else []
  last := answer.last
  chunks := by
    intro b hb hne
    rw [Option.isSome_iff_exists]
    rcases mem_append.mp hb with hb | hb
    · obtain ⟨c, hc, -⟩ := answer.uncounted b hb hne
      exact ⟨c, hc⟩
    · obtain ⟨c, hc, -⟩ := answer.counted
      cases asked with
      | false => cases hb
      | true =>
        obtain rfl := mem_singleton.mp hb
        exact ⟨c, hc⟩
  done := answer.done

/-! ## The wire body -/

section Wire

variable {enc : Encoding} {rawBody : String} {wire : Json}

theorem parse_of_rewrite {what : String} {deleted : List String} {set : List (String × Json)}
    (hset : set.isEmpty = false) (h : rewrite enc what deleted set rawBody = .ok wire) :
    ∃ fs, parse rawBody.toList = some (.obj fs) := by
  rw [rewrite, rawFields] at h
  cases hparse : parse rawBody.toList with
  | none => rw [hparse] at h; cases h
  | some v =>
    rw [hparse] at h
    cases v with
    | obj fs => exact ⟨fs, rfl⟩
    | null =>
      dsimp only at h
      rw [hset] at h
      cases h
    | bool _ | num _ | str _ | arr _ => cases h

theorem asksUsage_rewrite {what : String} {deleted : List String} {set : List (String × Json)}
    (hset : set.isEmpty = false) (hvalid : ValidFields set)
    (hdeleted : deleted.contains "stream_options" = false)
    (h : rewrite enc what deleted set rawBody = .ok wire) :
    ∃ fs, parse rawBody.toList = some (.obj fs) ∧
      asksUsage wire = if (member "stream_options" set).isSome then asksUsage (.obj set)
        else asksUsage (.obj fs) := by
  obtain ⟨fs, hraw⟩ := parse_of_rewrite hset h
  obtain ⟨ws, hws, -, hmember⟩ := rewrite_member hraw what deleted set hvalid
  obtain rfl : wire = .obj ws := Except.ok.inj (h.symm.trans hws)
  refine ⟨fs, hraw, ?_⟩
  rw [asksUsage_obj, asksUsage_obj, asksUsage_obj, hmember _ hdeleted]
  cases member "stream_options" set <;> rfl

def bodyAsksUsage (rawBody : String) : Bool :=
  match parse rawBody.toList with
  | some v => asksUsage v
  | none => false

theorem asksUsage_wire {json : Unmarshal} {a : CompatAdapter} {model : String}
    {req : ChatCompletionRequest} (h : a.adapter.body enc json true model req rawBody = .ok wire) :
    asksUsage wire = (a == .openai || bodyAsksUsage rawBody) := by
  have hclient : ∀ {fs}, parse rawBody.toList = some (.obj fs) →
      bodyAsksUsage rawBody = asksUsage (.obj fs) := by
    intro fs hraw
    rw [bodyAsksUsage, hraw]
  cases a with
  | openai =>
    obtain ⟨fs, -, hasks⟩ := asksUsage_rewrite rfl (by simp [ValidFields, Json.Valid]) rfl h
    exact hasks
  | azure | mistral | grok =>
    obtain ⟨fs, hraw, hasks⟩ := asksUsage_rewrite rfl (by simp [ValidFields, Json.Valid]) rfl h
    exact hasks.trans (hclient hraw).symm

end Wire

/-! ## The stream and the log context -/

theorem CompatAdapter.channel_eq {s : CompatStream} (hshort : s.Short)
    (hplain : ∀ b ∈ s.blocks, b.Plain) (errorText : Bytes → String) (toLower : String → String)
    (a : CompatAdapter) {reads : List Bytes} (hreads : reads.flatten = s.bytes) :
    a.channel errorText toLower reads = s.blocks.flatMap Block.eventChunks := by
  have hlines : ∀ r ∈ [Reader.azure, .mistral, .grok],
      Reader.stream toLower r reads = s.blocks.flatMap Block.eventChunks := by
    intro r hr
    rw [s.reader_stream hr toLower hreads]
    exact flatMap_congr fun b hb => Block.lineChunks_of_plain (hplain b hb) (s.chunks b hb)
  cases a with
  | openai => rw [channel, hreads, s.openAI_stream hshort]
  | azure => exact hlines .azure (by decide)
  | mistral => exact hlines .mistral (by decide)
  | grok => exact hlines .grok (by decide)

def tokens (log : RequestLogContext) : Usage :=
  ⟨log.promptTokens, log.completionTokens, log.totalTokens⟩

def countsAfter (before : Usage) (chunks : List StreamChunk) : Usage :=
  chunks.foldl (fun u c => c.usage.getD u) before

theorem countsAfter_append (before : Usage) (chunks more : List StreamChunk) :
    countsAfter before (chunks ++ more) = countsAfter (countsAfter before chunks) more :=
  foldl_append

variable {chunks : List StreamChunk}

theorem countsAfter_of_none (h : ∀ c ∈ chunks, c.usage = none) (before : Usage) :
    countsAfter before chunks = before := by
  induction chunks with
  | nil => rfl
  | cons c chunks ih =>
    rw [forall_mem_cons] at h
    rw [countsAfter, foldl_cons, h.1]
    exact ih h.2

theorem log_note (s : Session) (c : StreamChunk) :
    ((s.noteUsage c.usage).noteFinish c.finishReason).log.model = s.log.model ∧
      tokens ((s.noteUsage c.usage).noteFinish c.finishReason).log =
        c.usage.getD (tokens s.log) := by
  cases c.usage <;> cases c.finishReason <;> exact ⟨rfl, rfl⟩

theorem log_streamLoop (build : StreamChunk → Json) {items : List (Option StreamChunk)}
    (hok : ∀ c ∈ received items, c.error = none) (s : Session) :
    (streamLoop build (connected items) s).1.log.model = s.log.model ∧
      tokens (streamLoop build (connected items) s).1.log =
        countsAfter (tokens s.log) (received items) := by
  induction items generalizing s with
  | nil => exact ⟨rfl, rfl⟩
  | cons item items ih =>
    cases item with
    | none => exact ih hok s
    | some c =>
      have hall : c.error = none ∧ ∀ c' ∈ received items, c'.error = none :=
        forall_mem_cons.mp hok
      obtain ⟨hmodel, htokens⟩ := ih hall.2 ((s.noteUsage c.usage).noteFinish c.finishReason)
      obtain ⟨hmodel₁, htokens₁⟩ := log_note s c
      have hloop : (streamLoop build (connected (some c :: items)) s).1 =
          (streamLoop build (connected items)
            ((s.noteUsage c.usage).noteFinish c.finishReason)).1 := by
        show (streamLoop build (.recv c :: connected items) s).1 = _
        rw [streamLoop, hall.1]
      rw [hloop, hmodel, htokens, hmodel₁, htokens₁]
      exact ⟨rfl, rfl⟩

namespace Answer

variable (answer : Answer)

variable {asked : Bool}

theorem mem_of_mem_stream {b : Block} (hb : b ∈ (answer.stream asked).blocks) :
    b ∈ answer.blocks ++ [answer.counts] := by
  rcases mem_append.mp hb with hb | hb
  · exact mem_append_left _ hb
  · cases asked with
    | false => cases hb
    | true => exact mem_append_right _ hb

theorem channel_stream (errorText : Bytes → String) (toLower : String → String) (a : CompatAdapter)
    {reads : List Bytes} (hreads : reads.flatten = (answer.stream asked).bytes) :
    a.channel errorText toLower reads = (answer.stream asked).blocks.flatMap Block.eventChunks :=
  CompatAdapter.channel_eq (fun b hb => answer.short b (answer.mem_of_mem_stream hb))
    (fun b hb => answer.plain b (answer.mem_of_mem_stream hb)) errorText toLower a hreads

theorem mem_eventChunks {b : Block} {c : StreamChunk} (hc : c ∈ b.eventChunks) :
    b.values ≠ [] ∧ unmarshal (Encoding.decodeStruct openAIChunk) b.data = some c := by
  rw [Block.eventChunks] at hc
  split at hc
  case isTrue => cases hc
  case isFalse hne => exact ⟨hne, Option.mem_toList.mp hc⟩

theorem error_stream {c : StreamChunk}
    (hc : c ∈ (answer.stream asked).blocks.flatMap Block.eventChunks) : c.error = none := by
  obtain ⟨b, -, hcb⟩ := mem_flatMap.mp hc
  exact openAIChunk_error (mem_eventChunks hcb).2

theorem countsAfter_stream (asked : Bool) (before : Usage) :
    countsAfter before ((answer.stream asked).blocks.flatMap Block.eventChunks) =
      if asked then answer.usage else before := by
  have hblocks : ∀ u, countsAfter u (answer.blocks.flatMap Block.eventChunks) = u := by
    refine countsAfter_of_none fun c hc => ?_
    obtain ⟨b, hb, hcb⟩ := mem_flatMap.mp hc
    obtain ⟨hne, hdata⟩ := mem_eventChunks hcb
    obtain ⟨c', hdata', husage⟩ := answer.uncounted b hb hne
    rwa [← Option.some.inj (hdata.symm.trans hdata')] at husage
  show countsAfter before ((answer.blocks ++ _).flatMap Block.eventChunks) = _
  rw [flatMap_append, countsAfter_append, hblocks]
  cases asked with
  | false => rfl
  | true =>
    obtain ⟨c, hdata, husage⟩ := answer.counted
    have hne : answer.counts.values ≠ [] := by
      intro hnil
      rw [Block.data, hnil] at hdata
      cases hdata
    show countsAfter before ([answer.counts].flatMap Block.eventChunks) = answer.usage
    rw [flatMap_singleton, Block.eventChunks, if_neg hne, hdata, countsAfter]
    show c.usage.getD before = answer.usage
    rw [husage, Option.getD_some]

end Answer

theorem log_handle_stream {h : ChatHandler} {env : Env} {r : Request} {s s' : Session}
    {body : String} {req : ChatCompletionRequest} {chain : Chain} {t : Target}
    (hplan : h.plan r = .ok (body, req, chain)) (hstream : req.stream = true)
    (hexec : h.fallbackRouter.executeStream env chain req body
      (s.setModel req.model chain.primary).setStreaming = (s', .ok (chunks, t))) :
    (h.handle env r s).1.log.model = req.model ∧
      tokens (h.handle env r s).1.log = tokens s.log := by
  have hlog : s'.log = (s.setModel req.model chain.primary).setStreaming.log := by
    rw [← h.fallbackRouter.executeStream_log env chain req body
      (s.setModel req.model chain.primary).setStreaming, hexec]
  have hhandle : (h.handle env r s).1 = s'.noteUsed req.model chain.primary t.provider := by
    simp only [ChatHandler.handle, hplan, ChatHandler.forward, hstream, if_true, hexec]
  rw [hhandle, Session.noteUsed]
  split_ifs
  · exact ⟨rfl, (congrArg tokens hlog).trans rfl⟩
  · rw [hlog]
    exact ⟨rfl, rfl⟩

/-- The log context has the model of the request and the counts of the answer, as without streaming. -/
structure Metered (model : String) (usage : Usage) (log : RequestLogContext) : Prop where
  model : log.model = model
  tokens : tokens log = usage

/-- **Streams are metered if the counts are asked for.** Let a streamed chat request be answered by
the target `t` with one of the four adapters from an upstream that follows the protocol, and
completed. The log context has the counts iff the adapter is openai, or the client's body asks for
them, or they are zero. -/
theorem streamed_metered_iff {h : ChatHandler} {env : Env} {r : Request} {s s' : Session}
    {body : String} {req : ChatCompletionRequest} {chain : Chain} {chunks : List StreamChunk}
    {t : Target} {enc : Encoding} {adapters : String → Adapter} {a : CompatAdapter} {wire : Json}
    {answer : Answer} {reads : List Bytes} {items : List (Option StreamChunk)}
    (hplan : h.plan r = .ok (body, req, chain)) (hstream : req.stream = true)
    (hexec : h.fallbackRouter.executeStream env chain req body
      (s.setModel req.model chain.primary).setStreaming = (s', .ok (chunks, t)))
    (hadapter : adapters t.provider = a.adapter)
    (hwire : wireBody enc h.json adapters (t.call true req body) = some (.ok wire))
    (hreads : reads.flatten = (answer.stream (asksUsage wire)).bytes)
    (errorText : Bytes → String) (toLower : String → String)
    (hchunks : chunks = a.channel errorText toLower reads) (hitems : received items = chunks)
    (hfresh : tokens s.log = ⟨0, 0, 0⟩) (head : StreamHead) :
    Metered req.model answer.usage
        (streamChannelToClient true head (connected items) (h.handle env r s).1).1.log ↔
      a = .openai ∨ bodyAsksUsage body = true ∨ answer.usage = ⟨0, 0, 0⟩ := by
  have hasks : asksUsage wire = (a == .openai || bodyAsksUsage body) := by
    have hbody : (adapters t.provider).body enc h.json true t.model req body = .ok wire :=
      Option.some.inj hwire
    rw [hadapter] at hbody
    exact asksUsage_wire hbody
  have hreceived := hitems.trans (hchunks.trans (answer.channel_stream errorText toLower a hreads))
  have hok : ∀ c ∈ received items, c.error = none := by
    intro c hc
    rw [hreceived] at hc
    exact answer.error_stream hc
  obtain ⟨hmodel, hcounts⟩ := log_streamLoop (fun sc => (buildChunk head sc).toJson) hok
    (h.handle env r s).1
  obtain ⟨hmodel₀, hcounts₀⟩ := log_handle_stream hplan hstream hexec
  have htokens : tokens (streamChannelToClient true head (connected items)
      (h.handle env r s).1).1.log = if asksUsage wire then answer.usage else ⟨0, 0, 0⟩ := by
    rw [← hfresh, ← hcounts₀, ← answer.countsAfter_stream, ← hreceived]
    exact hcounts
  rw [hasks] at htokens
  constructor
  · intro hmetered
    rcases ha : (a == CompatAdapter.openai || bodyAsksUsage body) with _ | _
    · rw [ha] at htokens
      exact .inr (.inr (hmetered.tokens.symm.trans htokens))
    · rw [Bool.or_eq_true, beq_iff_eq] at ha
      exact ha.imp_right .inl
  · intro hcond
    refine ⟨hmodel.trans hmodel₀, htokens.trans ?_⟩
    split
    case isTrue => rfl
    case isFalse hno =>
      rw [Bool.or_eq_true, beq_iff_eq, not_or] at hno
      exact ((hcond.resolve_left hno.1).resolve_left hno.2).symm

/-! ### An answer of one word -/

def countsChunk : Json :=
  .obj [("choices", .arr []), ("usage", .obj [("prompt_tokens", .ofInt 9),
    ("completion_tokens", .ofInt 12), ("total_tokens", .ofInt 21)])]

theorem unmarshal_countsChunk :
    unmarshal (Encoding.decodeStruct openAIChunk) (marshal countsChunk) =
      some { usage := some ⟨9, 12, 21⟩ } := by
  have hvalid : countsChunk.Valid := by
    simp [countsChunk, Json.Valid, ValidFields, ValidElems, valid_ofInt]
  rw [unmarshal, marshal, decode_encode, parse_render hvalid]
  rfl

def dataBlock (payload : Bytes) (h : OneLine payload) : Block where
  lines := [⟨bytes "data: " ++ payload, false, h.dataLine, by
    rw [bytes_data_space, bytes_data]; exact cons_ne_nil _ _⟩]
  crlf := false

theorem values_dataBlock {payload : Bytes} (h : OneLine payload) :
    (dataBlock payload h).values = [payload] := by
  rw [Block.values, dataBlock, filterMap_cons_some (Line.value?_of_spaced _ rfl)]
  rfl

theorem data_dataBlock {payload : Bytes} (h : OneLine payload) :
    (dataBlock payload h).data = payload := by
  rw [Block.data, values_dataBlock]
  exact intercalate_singleton

theorem plain_dataBlock {payload : Bytes} (h : OneLine payload) : (dataBlock payload h).Plain :=
  .inr ⟨[], _, [], rfl, ⟨payload, rfl⟩, by simp⟩

def shortAnswer : Answer where
  blocks := [dataBlock (marshal (contentChunk "Hel")) (oneLine_marshal _)]
  counts := dataBlock (marshal countsChunk) (oneLine_marshal _)
  last := dataBlock (bytes "[DONE]") oneLine_done
  usage := ⟨9, 12, 21⟩
  plain := by
    intro b hb
    rcases mem_cons.mp hb with rfl | hb
    · exact plain_dataBlock _
    · rw [mem_singleton.mp hb]
      exact plain_dataBlock _
  short := by decide
  uncounted := by
    intro b hb _
    rw [mem_singleton.mp hb, data_dataBlock, unmarshal_contentChunk]
    exact ⟨_, rfl, rfl⟩
  counted := by
    rw [data_dataBlock, unmarshal_countsChunk]
    exact ⟨_, rfl, rfl⟩
  done := values_dataBlock _

def streamFields (model : String) : List (String × Json) :=
  [("model", .str model), ("messages", .arr [Message.toJson { role := "user", content := "hi" }]),
    ("stream", .bool true)]

def streamBody (model : String) : String := encode (.obj (streamFields model))

def streamRequest (model : String) : ChatCompletionRequest where
  model := model
  messages := some [{ role := "user", content := "hi" }]
  stream := true

def streamGateway (provider model : String) : ChatHandler where
  json := { Setup.twoBodies with
    chatRequest := fun body =>
      if body = streamBody model then .ok (streamRequest model)
      else .error "unexpected end of JSON input" }
  fallbackRouter := { registry := Registry.empty.register { name := provider } }

def streamEnv (chunks : List StreamChunk) : Env where
  chatCompletion := fun _ => .error (.other "not asked")
  chatCompletionStream := fun _ => .ok chunks
  embed := fun _ => .error (.other "not asked")
  ctxDone := fun _ _ => none
  cachedEmbedding := fun _ => .ok none
  jitter := fun _ => 0
  clock := fun _ => 0
  others := fun _ cb => cb

def shortChunks (a : CompatAdapter) (asked : Bool) : List StreamChunk :=
  a.channel (fun _ => "") id [(shortAnswer.stream asked).bytes]

def shortLog (provider model : String) (chunks : List StreamChunk) : RequestLogContext :=
  (streamChannelToClient true ⟨"chatcmpl-1", 0, model⟩ (connected (chunks.map some))
    ((streamGateway provider model).handle (streamEnv chunks) { body := .ok (streamBody model) }
      newSession).1).1.log

theorem parse_streamBody (model : String) :
    parse (streamBody model).toList = some (.obj (streamFields model)) := by
  refine parse_encode ?_
  simp [streamFields, Message.toJson, Json.Valid, ValidFields, ValidElems]

theorem received_map_some (chunks : List StreamChunk) : received (chunks.map some) = chunks := by
  induction chunks with
  | nil => rfl
  | cons c chunks ih => exact congrArg (c :: ·) ih

theorem streamed_metered_openai :
    Metered "openai/gpt-4o" ⟨9, 12, 21⟩
      (shortLog "openai" "openai/gpt-4o" (shortChunks .openai true)) := by
  obtain ⟨ws, hws, -⟩ : ∃ ws,
      OpenAI.buildStreamBody .noFloats "gpt-4o" (streamBody "openai/gpt-4o") = .ok (.obj ws) ∧ _ :=
    rewrite_member (parse_streamBody "openai/gpt-4o") _ _ _ (by simp [ValidFields, Json.Valid])
  -- for any body, so that this one is not evaluated
  have hbody : ∀ rawBody, CompatAdapter.openai.adapter.body .noFloats
      (streamGateway "openai" "openai/gpt-4o").json true "gpt-4o" (streamRequest "openai/gpt-4o")
      rawBody = OpenAI.buildStreamBody .noFloats "gpt-4o" rawBody := fun _ => rfl
  have hwire : ∀ rawBody, wireBody .noFloats (streamGateway "openai" "openai/gpt-4o").json
      (fun _ => Adapter.openai)
      (Target.call ⟨"openai", "gpt-4o", 0⟩ true (streamRequest "openai/gpt-4o") rawBody) =
        some (OpenAI.buildStreamBody .noFloats "gpt-4o" rawBody) := fun _ => rfl
  have hreads : [(shortAnswer.stream true).bytes].flatten =
      (shortAnswer.stream (asksUsage (.obj ws))).bytes := by
    rw [asksUsage_wire ((hbody _).trans hws)]
    exact flatten_singleton ..
  exact (streamed_metered_iff rfl rfl rfl rfl ((hwire _).trans (congrArg some hws)) hreads
    (fun _ => "") id rfl (received_map_some (shortChunks .openai true)) rfl _).mpr (.inl rfl)

theorem tokens_shortLog (hok : ∀ c ∈ chunks, c.error = none) :
    tokens (shortLog "azure" "azure/gpt-4o" chunks) = countsAfter ⟨0, 0, 0⟩ chunks := by
  have hreceived := received_map_some chunks
  rw [← hreceived] at hok
  have hhandle : tokens ((streamGateway "azure" "azure/gpt-4o").handle (streamEnv chunks)
      { body := .ok (streamBody "azure/gpt-4o") } newSession).1.log = tokens newSession.log :=
    (log_handle_stream rfl rfl rfl).2
  rw [shortLog, streamChannelToClient, if_pos rfl, (log_streamLoop _ hok _).2, hhandle, hreceived]
  rfl

theorem azure_stream_is_unmetered :
    (∃ wire, Azure.buildStreamRequest .noFloats (streamBody "azure/gpt-4o") = .ok wire ∧
      asksUsage wire = false) ∧
      shortAnswer.usage = ⟨9, 12, 21⟩ ∧
      tokens (shortLog "azure" "azure/gpt-4o" (shortChunks .azure false)) = ⟨0, 0, 0⟩ := by
  refine ⟨?_, rfl, ?_⟩
  · obtain ⟨ws, hws, -, hmember⟩ : ∃ ws,
        Azure.buildStreamRequest .noFloats (streamBody "azure/gpt-4o") = .ok (.obj ws) ∧ _ ∧ _ :=
      rewrite_member (parse_streamBody "azure/gpt-4o") _ _ _ (by simp [ValidFields, Json.Valid])
    refine ⟨_, hws, ?_⟩
    rw [asksUsage_obj, hmember _ rfl]
    rfl
  · have hchunks : shortChunks .azure false =
        (shortAnswer.stream false).blocks.flatMap Block.eventChunks :=
      shortAnswer.channel_stream (fun _ => "") id .azure (flatten_singleton ..)
    rw [hchunks, tokens_shortLog fun c hc => shortAnswer.error_stream hc,
      shortAnswer.countsAfter_stream]
    rfl

end LlmRouter.Streams
