import LlmRouter.Gateway.Sse
import LlmRouter.Gateway.Codec

/-!
# LlmRouter — streaming to the client

An open stream of a provider, written to the client as server-sent events of chat completions or
of legacy completions. The loop waits for the end of the connection, the keepalive ticker and the
next chunk at once; a run is the list of what it was given (`Select`). The time of the first token
is not modelled.
-/

namespace LlmRouter.Proxy

open Lib Gateway Utf8 Json List

/-! ## Chunks -/

structure Delta where
  role : String := ""
  content : String := ""
  deriving DecidableEq, Repr

structure ChunkChoice where
  index : Int := 0
  delta : Delta := {}
  finishReason : String := ""
  deriving DecidableEq, Repr

structure ChatCompletionChunk where
  id : String
  object : String
  created : Int
  model : String
  choices : List ChunkChoice
  usage : Option Usage := none
  deriving DecidableEq, Repr

structure CompletionStreamChoice where
  index : Int := 0
  text : String
  finishReason : String := ""
  deriving DecidableEq, Repr

structure CompletionStreamChunk where
  id : String
  object : String
  created : Int
  model : String
  choices : List CompletionStreamChoice
  usage : Option Usage := none
  deriving DecidableEq, Repr

def Delta.toJson (d : Delta) : Json :=
  .obj (omitEmpty "role" (d.role == "") (.str d.role) ++
    omitEmpty "content" (d.content == "") (.str d.content))

def ChunkChoice.toJson (c : ChunkChoice) : Json :=
  .obj ([("index", .ofInt c.index), ("delta", c.delta.toJson)] ++
    omitEmpty "finish_reason" (c.finishReason == "") (.str c.finishReason))

def ChatCompletionChunk.toJson (c : ChatCompletionChunk) : Json :=
  .obj ([("id", .str c.id), ("object", .str c.object), ("created", .ofInt c.created),
    ("model", .str c.model), ("choices", .arr (c.choices.map ChunkChoice.toJson))] ++
    usageField c.usage)

def CompletionStreamChoice.toJson (c : CompletionStreamChoice) : Json :=
  .obj ([("index", .ofInt c.index), ("text", .str c.text)] ++
    omitEmpty "finish_reason" (c.finishReason == "") (.str c.finishReason))

def CompletionStreamChunk.toJson (c : CompletionStreamChunk) : Json :=
  .obj ([("id", .str c.id), ("object", .str c.object), ("created", .ofInt c.created),
    ("model", .str c.model), ("choices", .arr (c.choices.map CompletionStreamChoice.toJson))] ++
    usageField c.usage)

structure StreamHead where
  id : String
  created : Int
  model : String
  deriving DecidableEq, Repr

def roleChunk (h : StreamHead) : ChatCompletionChunk where
  id := h.id
  object := "chat.completion.chunk"
  created := h.created
  model := h.model
  choices := [{ delta := { role := "assistant" } }]

def buildChunk (h : StreamHead) (sc : StreamChunk) : ChatCompletionChunk where
  id := h.id
  object := "chat.completion.chunk"
  created := h.created
  model := h.model
  usage := sc.usage
  choices :=
    match sc.finishReason with
    | some reason => [{ finishReason := reason }]
    | none => [{ delta := { content := sc.delta } }]

def buildTextChunk (h : StreamHead) (sc : StreamChunk) : CompletionStreamChunk where
  id := h.id
  object := "text_completion"
  created := h.created
  model := h.model
  usage := sc.usage
  choices := [{ text := sc.delta, finishReason := sc.finishReason.getD "" }]

/-! ## The loop -/

def marshal (v : Json) : Bytes := encode v.render

def writeChunk (v : Json) : Bytes := dataEvent (marshal v)

def writeDone : Bytes := bytes "data: [DONE]\n\n"

def writeKeepalive : Bytes := bytes ": keepalive\n\n"

def errorJson (msg : String) : Json :=
  .obj [("error", .obj [("message", .str msg), ("type", .str "provider_error")])]

def writeSSEError (msg : String) : Bytes := writeChunk (errorJson msg) ++ writeDone

/-- What the `select` may choose: context done, ticker fired, a chunk received, or channel closed. -/
inductive Select where
  | ctxDone
  | keepalive
  | recv (chunk : StreamChunk)
  | closed
  deriving DecidableEq, Repr

/-- The loop of both writers, which differ in how a chunk is built: what is written, and the log
context. -/
def streamLoop (build : StreamChunk → Json) : List Select → Session → Session × Bytes
  | [], s => (s, [])
  | .ctxDone :: _, s => (s, [])
  | .keepalive :: run, s =>
    let out := streamLoop build run s
    (out.1, writeKeepalive ++ out.2)
  | .closed :: _, s => (s, writeDone)
  | .recv chunk :: run, s =>
    match chunk.error with
    | some err => (s.setError "stream_error" err.text, writeSSEError err.text)
    | none =>
      let out := streamLoop build run ((s.noteUsage chunk.usage).noteFinish chunk.finishReason)
      (out.1, writeChunk (build chunk) ++ out.2)

structure StreamResponse where
  status : Nat
  headers : List (String × String)
  body : Bytes
  deriving DecidableEq, Repr

def sseHeaders : List (String × String) :=
  [("Content-Type", "text/event-stream; charset=utf-8"),
    ("Cache-Control", "no-cache, no-transform"), ("Connection", "keep-alive"),
    ("X-Accel-Buffering", "no")]

def streamingUnsupported : StreamResponse where
  status := 500
  headers := [("Content-Type", "text/plain; charset=utf-8"), ("X-Content-Type-Options", "nosniff")]
  body := bytes "streaming unsupported by server\n"

def streamChannelToClient (flusher : Bool) (h : StreamHead) (run : List Select) (s : Session) :
    Session × StreamResponse :=
  if flusher then
    let out := streamLoop (fun sc => (buildChunk h sc).toJson) run s
    (out.1, ⟨200, sseHeaders, writeChunk (roleChunk h).toJson ++ out.2⟩)
  else (s, streamingUnsupported)

def streamTextChannelToClient (flusher : Bool) (h : StreamHead) (run : List Select) (s : Session) :
    Session × StreamResponse :=
  if flusher then
    let out := streamLoop (fun sc => (buildTextChunk h sc).toJson) run s
    (out.1, ⟨200, sseHeaders, out.2⟩)
  else (s, streamingUnsupported)

/-- A run with the client connected: chunks (`some`) and ticks (`none`), then the channel is closed. -/
def connected (items : List (Option StreamChunk)) : List Select :=
  items.map (fun item => item.elim .keepalive .recv) ++ [.closed]

def received (items : List (Option StreamChunk)) : List StreamChunk := items.reduceOption

/-! ## What a reader of the stream gets -/

def written (build : StreamChunk → Json) : List (Option StreamChunk) → List Json
  | [] => []
  | none :: items => written build items
  | some chunk :: items =>
    match chunk.error with
    | some err => [errorJson err.text]
    | none => build chunk :: written build items

theorem error_mem_written (build : StreamChunk → Json) {items : List (Option StreamChunk)}
    {c : StreamChunk} (hc : c ∈ received items) (herr : c.error.isSome) :
    ∃ msg, errorJson msg ∈ written build items := by
  induction items with
  | nil => cases hc
  | cons item items ih =>
    cases item with
    | none => exact ih hc
    | some chunk =>
      unfold written
      cases hchunk : chunk.error with
      | some err => exact ⟨err.text, mem_singleton.mpr rfl⟩
      | none =>
        have hmem : c = chunk ∨ c ∈ received items := mem_cons.mp hc
        rcases hmem with rfl | hmem
        · rw [hchunk] at herr
          cases herr
        · obtain ⟨msg, hmsg⟩ := ih hmem
          exact ⟨msg, mem_cons_of_mem _ hmsg⟩

def messageEvent (payload : Bytes) : SSEEvent := { type := bytes "message", data := payload }

/-- The events that a scanner gets from these payloads and `[DONE]`, up to the first that does not
fit. -/
def readBack (limit : Nat) : List Bytes → List SSEEvent
  | [] => [messageEvent (bytes "[DONE]")]
  | p :: ps => if p.length + 6 < limit then messageEvent p :: readBack limit ps else []

variable {limit : Nat}

theorem readBack_eq_iff (ps : List Bytes) :
    readBack limit ps = ps.map messageEvent ++ [messageEvent (bytes "[DONE]")] ↔
      ∀ p ∈ ps, p.length + 6 < limit := by
  induction ps with
  | nil => simp [readBack]
  | cons p ps ih =>
    rw [readBack, forall_mem_cons, ← ih]
    by_cases hp : p.length + 6 < limit <;> simp [hp]

theorem oneLine_marshal (v : Json) : OneLine (marshal v) := by
  have hno : ∀ b : UInt8, b.toNat < 32 → b ∉ marshal v := by
    intro b hb hmem
    have hchar := le_of_mem_render v (mem_of_mem_encode (by omega) hmem)
    have hsmall : ∀ n < 32, (Char.ofNat n).toNat = n := by decide
    rw [hsmall b.toNat hb] at hchar
    omega
  exact ⟨hno newline (by decide), hno carriageReturn (by decide)⟩

theorem writeDone_eq : writeDone = dataEvent (bytes "[DONE]") := by decide

theorem oneLine_done : OneLine (bytes "[DONE]") := ⟨by decide, by decide⟩

theorem events_writeChunk (hlimit : 0 < limit) (v : Json) (rest : Bytes) :
    events limit (writeChunk v ++ rest) =
      if (marshal v).length + 6 < limit then messageEvent (marshal v) :: events limit rest
      else [] := by
  split
  case isTrue hfits => exact events_dataEvent (oneLine_marshal v) hfits rest
  case isFalse hlong =>
    exact events_dataEvent_tooLong (oneLine_marshal v) hlimit (Nat.le_of_not_lt hlong) rest

theorem events_writeDone (hlimit : 12 < limit) :
    events limit writeDone = [messageEvent (bytes "[DONE]")] := by
  rw [writeDone_eq, ← append_nil (dataEvent _), events_dataEvent oneLine_done
    (by rw [show (bytes "[DONE]").length = 6 by decide]; exact hlimit)]
  rfl

theorem events_writeKeepalive (hlimit : 12 < limit) (rest : Bytes) :
    events limit (writeKeepalive ++ rest) = events limit rest := by
  have htext : OneLine (bytes " keepalive") := ⟨by decide, by decide⟩
  have heq : writeKeepalive = 58 :: bytes " keepalive" ++ [newline, newline] := by decide
  rw [heq, append_assoc]
  exact events_comment htext (by rw [show (bytes " keepalive").length = 10 by decide]; omega) rest

theorem events_streamLoop (hlimit : 12 < limit) (build : StreamChunk → Json)
    (items : List (Option StreamChunk)) (s : Session) :
    events limit (streamLoop build (connected items) s).2 =
      readBack limit ((written build items).map marshal) := by
  induction items generalizing s with
  | nil => exact events_writeDone hlimit
  | cons item items ih =>
    cases item with
    | none =>
      show events limit (writeKeepalive ++ (streamLoop build (connected items) s).2) = _
      rw [events_writeKeepalive hlimit, ih]
      rfl
    | some chunk =>
      unfold connected written
      rw [map_cons, cons_append, Option.elim_some, streamLoop]
      cases hchunk : chunk.error with
      | some err =>
        show events limit (writeChunk (errorJson err.text) ++ writeDone) = _
        rw [events_writeChunk (by omega), events_writeDone hlimit]
        rfl
      | none =>
        show events limit (writeChunk (build chunk) ++
          (streamLoop build (connected items) _).2) = _
        rw [events_writeChunk (by omega), ih]
        rfl

/-! ## Round trip -/

def payloads (h : StreamHead) (items : List (Option StreamChunk)) : List Bytes :=
  ((roleChunk h).toJson :: written (fun sc => (buildChunk h sc).toJson) items).map marshal

theorem events_streamChannelToClient (hlimit : 12 < limit) (h : StreamHead)
    (items : List (Option StreamChunk)) (s : Session) :
    events limit (streamChannelToClient true h (connected items) s).2.body =
      readBack limit (payloads h items) := by
  show events limit (writeChunk (roleChunk h).toJson ++ (streamLoop _ (connected items) s).2) = _
  rw [events_writeChunk (by omega), events_streamLoop hlimit]
  rfl

/-- **SSE round trip.** `ParseSSE` reads from what `StreamChannelToClient` writes, with keepalive
comments anywhere, exactly the payloads and one `[DONE]` iff every payload fits on a data line
within the buffer. -/
theorem parseSSE_stream (h : StreamHead) (items : List (Option StreamChunk)) (s : Session) :
    parseSSE (streamChannelToClient true h (connected items) s).2.body =
        (payloads h items).map messageEvent ++ [messageEvent (bytes "[DONE]")] ↔
      ∀ p ∈ payloads h items, (bytes "data: " ++ p).length < maxTokenSize := by
  rw [parseSSE, events_streamChannelToClient (by decide), readBack_eq_iff]
  simp only [length_dataLine]

def someHead : StreamHead := ⟨"chatcmpl-9f8e7d6c5b4a392817065f4e", 1767225600, "gpt-4o"⟩

def longChunk (n : Nat) : StreamChunk := { delta := String.ofList (replicate (n + 1) 'a') }

theorem length_encode_quote (k : Nat) :
    (encode (quote (String.ofList (replicate k 'a')))).length = k + 2 := by
  have hbody : (encode (escape (replicate k 'a'))).length = k := by
    induction k with
    | zero => rfl
    | succ k ih =>
      rw [replicate_succ, escape_cons, encode_append, length_append, ih, Nat.add_comm]
      rfl
  rw [quote, String.toList_ofList, encode_cons, encode_append, length_append, length_append, hbody]
  show 1 + (k + 1) = k + 2
  omega

theorem length_longChunk (n : Nat) :
    (marshal (buildChunk someHead (longChunk n)).toJson).length = n + 161 := by
  have hne : (String.ofList (replicate (n + 1) 'a') == "") = false := by
    refine beq_eq_false_iff_ne.mpr fun h => ?_
    have hlist := congrArg String.toList h
    rw [String.toList_ofList] at hlist
    cases hlist
  have hquote := length_encode_quote (n + 1)
  simp only [marshal, someHead, longChunk, buildChunk, ChatCompletionChunk.toJson, ChunkChoice.toJson,
    Delta.toJson, map_cons, map_nil, hne, omitEmpty, usageField, render,
    renderFields, renderElems, encode_append, encode_cons, length_append, hquote,
    beq_self_eq_true, if_true, nil_append, cons_append, append_nil,
    Bool.false_eq_true, if_false, Option.isNone_none]
  -- what is left are the lengths of fixed texts
  obtain ⟨h₁, h₂, h₃, h₄, h₅, h₆, h₇, h₈, h₉, h₁₀, h₁₁, h₁₂, h₁₃, h₁₄⟩ :
      (encode (quote "id")).length = 4 ∧ (encode (quote "chatcmpl-9f8e7d6c5b4a392817065f4e")).length = 35 ∧
      (encode (quote "object")).length = 8 ∧
      (encode (quote "chat.completion.chunk")).length = 23 ∧
      (encode (quote "created")).length = 9 ∧ (encode (quote "model")).length = 7 ∧
      (encode (quote "choices")).length = 9 ∧ (encode (quote "index")).length = 7 ∧
      (encode (quote "delta")).length = 7 ∧ (encode (quote "content")).length = 9 ∧
      (encode (ofInt 0).render).length = 1 ∧ (encode []).length = 0 ∧
      (encode (ofInt 1767225600).render).length = 10 ∧ (encode (quote "gpt-4o")).length = 8 := by decide
  obtain ⟨c₁, c₂, c₃, c₄, c₅, c₆⟩ :
      (String.utf8EncodeChar '{').length = 1 ∧ (String.utf8EncodeChar '}').length = 1 ∧
      (String.utf8EncodeChar '[').length = 1 ∧ (String.utf8EncodeChar ']').length = 1 ∧
      (String.utf8EncodeChar ':').length = 1 ∧ (String.utf8EncodeChar ',').length = 1 := by decide
  simp only [h₁, h₂, h₃, h₄, h₅, h₆, h₇, h₈, h₉, h₁₀, h₁₁, h₁₂, h₁₃, h₁₄, c₁, c₂, c₃, c₄, c₅, c₆]
  clear * -
  omega

theorem payloads_longChunk (n : Nat) :
    payloads someHead [some (longChunk n)] =
      [marshal (roleChunk someHead).toJson,
        marshal (buildChunk someHead (longChunk n)).toJson] := rfl

/-- Payloads below the scanner's limit whose data line is not: the long chunk and
the end of the stream are lost. -/
theorem long_payload_is_lost :
    (∀ p ∈ payloads someHead [some (longChunk 1048412)], p.length < maxTokenSize) ∧
      parseSSE (streamChannelToClient true someHead (connected [some (longChunk 1048412)])
          { cb := Circuit.new Circuit.defaultConfig }).2.body =
        [messageEvent (marshal (roleChunk someHead).toJson)] := by
  have hlong := length_longChunk 1048412
  have hrole : (marshal (roleChunk someHead).toJson).length = 166 := rfl
  have hmax : maxTokenSize = 1048576 := rfl
  constructor
  · intro p hp
    rw [payloads_longChunk, mem_cons, mem_singleton] at hp
    rcases hp with rfl | rfl
    · rw [hrole, hmax]
      omega
    · rw [hlong, hmax]
      omega
  · rw [parseSSE, events_streamChannelToClient (by decide), payloads_longChunk, readBack, readBack,
      hrole, hlong, hmax, if_pos (by omega), if_neg (by omega)]

/-! ## The streamed text -/

def attr (key : String) : Json → Option Json
  | .obj fs => member key fs
  | _ => none

def chars : Option Json → List Char
  | some (.str s) => s.toList
  | _ => []

def ofChoices (read : Json → List Char) (v : Json) : List Char :=
  match attr "choices" v with
  | some (.arr choices) => choices.flatMap read
  | _ => []

def contentOf : Json → List Char :=
  ofChoices fun choice => chars ((attr "delta" choice).bind (attr "content"))

def textOf : Json → List Char := ofChoices fun choice => chars (attr "text" choice)

/-- The events of a whole stream, for a reader that has room for every line. -/
def allEvents (body : Bytes) : List SSEEvent := events (body.length + 1) body

/-- What a client collects from the events of a stream; data that is not JSON
adds nothing. -/
def clientText (read : Json → List Char) (body : Bytes) : List Char :=
  (allEvents body).flatMap fun e => ((parse (decode e.data)).map read).getD []

def EndsOnce (body : Bytes) : Prop :=
  ∃ before, (allEvents body).map SSEEvent.data = before ++ [bytes "[DONE]"] ∧
    bytes "[DONE]" ∉ before

theorem length_lt_streamLoop (build : StreamChunk → Json) (items : List (Option StreamChunk))
    (s : Session) :
    12 < (streamLoop build (connected items) s).2.length ∧
      ∀ v ∈ written build items,
        (marshal v).length + 6 < (streamLoop build (connected items) s).2.length := by
  have hdone : writeDone.length = 14 := by decide
  have hchunk : ∀ v, (writeChunk v).length = (marshal v).length + 8 := by
    intro v
    rw [writeChunk, dataEvent, length_append, length_dataLine]
    rfl
  induction items generalizing s with
  | nil =>
    show 12 < writeDone.length ∧ _
    rw [hdone]
    exact ⟨by omega, fun v hv => by cases hv⟩
  | cons item items ih =>
    cases item with
    | none =>
      obtain ⟨hpos, hall⟩ := ih s
      show 12 < (writeKeepalive ++ (streamLoop build (connected items) s).2).length ∧
        ∀ v ∈ written build items, _ <
          (writeKeepalive ++ (streamLoop build (connected items) s).2).length
      rw [length_append]
      refine ⟨by omega, fun v hv => ?_⟩
      have := hall v hv
      omega
    | some chunk =>
      unfold connected written
      rw [map_cons, cons_append, Option.elim_some, streamLoop]
      cases hcase : chunk.error with
      | some err =>
        show 12 < (writeChunk (errorJson err.text) ++ writeDone).length ∧
          ∀ v ∈ [errorJson err.text], _ < (writeChunk (errorJson err.text) ++ writeDone).length
        rw [length_append, hchunk, hdone]
        refine ⟨by omega, fun v hv => ?_⟩
        rw [mem_singleton.mp hv]
        omega
      | none =>
        obtain ⟨hpos, hall⟩ := ih ((s.noteUsage chunk.usage).noteFinish chunk.finishReason)
        show 12 < (writeChunk (build chunk) ++ (streamLoop build (connected items) _).2).length ∧
          ∀ v ∈ build chunk :: written build items, _ <
            (writeChunk (build chunk) ++ (streamLoop build (connected items) _).2).length
        rw [length_append, hchunk]
        refine ⟨by omega, fun v hv => ?_⟩
        rcases mem_cons.mp hv with rfl | hv
        · omega
        · have := hall v hv
          omega

theorem allEvents_text (h : StreamHead) (items : List (Option StreamChunk)) (s : Session) :
    allEvents (streamTextChannelToClient true h (connected items) s).2.body =
      ((written (fun sc => (buildTextChunk h sc).toJson) items).map marshal).map messageEvent ++
        [messageEvent (bytes "[DONE]")] := by
  obtain ⟨hpos, hall⟩ := length_lt_streamLoop (fun sc => (buildTextChunk h sc).toJson) items s
  rw [allEvents]
  show events ((streamLoop _ _ s).2.length + 1) (streamLoop _ (connected items) s).2 = _
  rw [events_streamLoop (by omega), readBack_eq_iff]
  intro p hp
  obtain ⟨v, hv, rfl⟩ := mem_map.mp hp
  have := hall v hv
  omega

theorem allEvents_chat (h : StreamHead) (items : List (Option StreamChunk)) (s : Session) :
    allEvents (streamChannelToClient true h (connected items) s).2.body =
      (payloads h items).map messageEvent ++ [messageEvent (bytes "[DONE]")] := by
  obtain ⟨hpos, hall⟩ := length_lt_streamLoop (fun sc => (buildChunk h sc).toJson) items s
  have hlen : (streamChannelToClient true h (connected items) s).2.body.length =
      (marshal (roleChunk h).toJson).length + 8 +
        (streamLoop (fun sc => (buildChunk h sc).toJson) (connected items) s).2.length := by
    show (writeChunk _ ++ _).length = _
    rw [length_append, writeChunk, dataEvent, length_append, length_dataLine]
    rfl
  rw [allEvents, events_streamChannelToClient (by omega), readBack_eq_iff, hlen]
  intro p hp
  obtain ⟨v, hv, rfl⟩ := mem_map.mp hp
  rcases mem_cons.mp hv with rfl | hv
  · omega
  · have := hall v hv
    omega

theorem clientText_eq {read : Json → List Char} {body : Bytes} {vs : List Json}
    (hvalid : ∀ v ∈ vs, v.Valid)
    (hbody : allEvents body =
      (vs.map marshal).map messageEvent ++ [messageEvent (bytes "[DONE]")]) :
    clientText read body = vs.flatMap read := by
  have hdone : parse (decode (bytes "[DONE]")) = none := by decide
  have hread : ∀ v ∈ vs, parse (decode (marshal v)) = some v := by
    intro v hv
    rw [marshal, decode_encode, parse_render (hvalid v hv)]
  rw [clientText, hbody, flatMap_append, flatMap_map, flatMap_map]
  simp only [messageEvent, flatMap_singleton, hdone, Option.map_none, Option.getD_none, append_nil]
  refine flatMap_congr fun v hv => ?_
  rw [hread v hv]
  rfl

theorem endsOnce {body : Bytes} {vs : List Json} (hobj : ∀ v ∈ vs, ∃ fs, v = .obj fs)
    (hbody : allEvents body =
      (vs.map marshal).map messageEvent ++ [messageEvent (bytes "[DONE]")]) :
    EndsOnce body := by
  refine ⟨vs.map marshal, ?_, fun hmem => ?_⟩
  · rw [hbody, map_append, map_map]
    show map id _ ++ _ = _
    rw [map_id]
    rfl
  · obtain ⟨v, hv, heq⟩ := mem_map.mp hmem
    obtain ⟨fs, rfl⟩ := hobj v hv
    have hhead : ∃ t, render (.obj fs) = '{' :: t := by
      cases fs with
      | nil | cons kv fs => exact ⟨_, rfl⟩
    obtain ⟨t, ht⟩ := hhead
    rw [marshal, ht] at heq
    cases (cons.inj heq).1

section Chunks

open Json (valid_ofInt)

variable (h : StreamHead) (sc : StreamChunk)

theorem ChunkChoice.valid_toJson (c : ChunkChoice) : c.toJson.Valid := by
  have hdelta : c.delta.toJson.Valid := by
    rw [Delta.toJson, Valid, validFields_iff]
    intro kv hkv
    rcases mem_append.mp hkv with hkv | hkv
    · exact valid_omitEmpty (v := .str c.delta.role) trivial kv hkv
    · exact valid_omitEmpty (v := .str c.delta.content) trivial kv hkv
  rw [toJson, Valid, validFields_iff]
  simp only [cons_append, nil_append, forall_mem_cons]
  exact ⟨valid_ofInt _, hdelta, valid_omitEmpty trivial⟩

theorem CompletionStreamChoice.valid_toJson (c : CompletionStreamChoice) : c.toJson.Valid := by
  rw [toJson, Valid, validFields_iff]
  simp only [cons_append, nil_append, forall_mem_cons]
  exact ⟨valid_ofInt _, trivial, valid_omitEmpty trivial⟩

theorem valid_chunk {α : Type} {toJson : α → Json} (htoJson : ∀ a, (toJson a).Valid)
    (id object model : String) (created : Int) (choices : List α) (u : Option Usage) :
    (obj ([("id", .str id), ("object", .str object), ("created", .ofInt created),
      ("model", .str model), ("choices", .arr (choices.map toJson))] ++ usageField u)).Valid := by
  rw [Valid, validFields_iff]
  simp only [cons_append, nil_append, forall_mem_cons]
  exact ⟨trivial, trivial, valid_ofInt _, trivial, valid_arr_map fun a _ => htoJson a,
    valid_usageField u⟩

theorem ChatCompletionChunk.valid_toJson (c : ChatCompletionChunk) : c.toJson.Valid :=
  valid_chunk ChunkChoice.valid_toJson ..

theorem CompletionStreamChunk.valid_toJson (c : CompletionStreamChunk) : c.toJson.Valid :=
  valid_chunk CompletionStreamChoice.valid_toJson ..

theorem ofChoices_chunk (read : Json → List Char) (id object created model : Json)
    (choices : List Json) (u : Option Usage) :
    ofChoices read (.obj ([("id", id), ("object", object), ("created", created), ("model", model),
      ("choices", .arr choices)] ++ usageField u)) = choices.flatMap read := by
  cases u <;> rfl

theorem contentOf_buildChunk :
    contentOf (buildChunk h sc).toJson =
      if sc.finishReason.isSome then [] else sc.delta.toList := by
  rw [contentOf, ChatCompletionChunk.toJson, ofChoices_chunk, buildChunk]
  cases sc.finishReason with
  | some reason =>
    show chars ((attr "delta" (ChunkChoice.toJson _)).bind _) ++ [] = _
    rw [ChunkChoice.toJson]
    cases reason == "" <;> rfl
  | none =>
    show chars (attr "content" (Delta.toJson { content := sc.delta })) ++ [] = _
    rw [append_nil, Delta.toJson]
    -- an empty delta has no `content`, which reads as no text
    by_cases hdelta : sc.delta = ""
    · rw [hdelta]
      rfl
    · rw [beq_eq_false_iff_ne.mpr hdelta]
      rfl

theorem textOf_buildTextChunk : textOf (buildTextChunk h sc).toJson = sc.delta.toList := by
  rw [textOf, CompletionStreamChunk.toJson, ofChoices_chunk, buildTextChunk]
  show chars (attr "text" (CompletionStreamChoice.toJson _)) ++ [] = _
  rw [append_nil, CompletionStreamChoice.toJson]
  cases sc.finishReason.getD "" == "" <;> rfl

end Chunks

theorem written_eq_map {build : StreamChunk → Json} {items : List (Option StreamChunk)}
    (hok : ∀ c ∈ received items, c.error = none) :
    written build items = (received items).map build := by
  induction items with
  | nil => rfl
  | cons item items ih =>
    cases item with
    | none => exact ih hok
    | some chunk =>
      have hall : ∀ c ∈ chunk :: received items, c.error = none := hok
      rw [forall_mem_cons] at hall
      unfold written
      rw [hall.1]
      show build chunk :: written build items = _
      rw [ih hall.2]
      rfl

theorem flatMap_drop_iff {α β : Type} {p : α → Bool} {f : α → List β} {l : List α} :
    l.flatMap (fun a => if p a then [] else f a) = l.flatMap f ↔ ∀ a ∈ l, p a → f a = [] := by
  constructor
  · intro heq
    induction l with
    | nil => simp
    | cons a l ih =>
      have hle : (l.flatMap fun a => if p a then [] else f a).length ≤ (l.flatMap f).length := by
        rw [length_flatMap, length_flatMap]
        refine sum_le_sum fun a _ => ?_
        split <;> simp
      rw [flatMap_cons, flatMap_cons] at heq
      rw [forall_mem_cons]
      cases hp : p a with
      | false =>
        rw [hp, if_neg Bool.false_ne_true] at heq
        exact ⟨fun h => (nomatch h), ih (append_cancel_left heq)⟩
      | true =>
        rw [hp, if_pos rfl, nil_append] at heq
        have hlen := congrArg length heq
        rw [length_append] at hlen
        have hnil : f a = [] := length_eq_zero_iff.mp (by omega)
        rw [hnil, nil_append] at heq
        exact ⟨fun _ => hnil, ih heq⟩
  · intro hall
    refine flatMap_congr fun a ha => ?_
    split
    case isTrue hp => exact (hall a ha hp).symm
    case isFalse => rfl

structure TextPreserved (h : StreamHead) (items : List (Option StreamChunk)) (s : Session) :
    Prop where
  chat : clientText contentOf (streamChannelToClient true h (connected items) s).2.body =
    (received items).flatMap (·.delta.toList)
  text : clientText textOf (streamTextChannelToClient true h (connected items) s).2.body =
    (received items).flatMap (·.delta.toList)
  chatDone : EndsOnce (streamChannelToClient true h (connected items) s).2.body
  textDone : EndsOnce (streamTextChannelToClient true h (connected items) s).2.body

section Text

variable (h : StreamHead) {items : List (Option StreamChunk)} (s : Session)
  (hok : ∀ c ∈ received items, c.error = none)

include hok

theorem clientText_chat :
    clientText contentOf (streamChannelToClient true h (connected items) s).2.body =
      (received items).flatMap fun c => if c.finishReason.isSome then [] else c.delta.toList := by
  have hvalid : ∀ v ∈ (roleChunk h).toJson :: written (fun sc => (buildChunk h sc).toJson) items,
      v.Valid := by
    rw [written_eq_map hok, forall_mem_cons, forall_mem_map]
    exact ⟨(roleChunk h).valid_toJson, fun c _ => (buildChunk h c).valid_toJson⟩
  rw [clientText_eq hvalid (allEvents_chat h items s), flatMap_cons, written_eq_map hok,
    flatMap_map]
  show [] ++ _ = _
  rw [nil_append]
  exact flatMap_congr fun c _ => contentOf_buildChunk h c

theorem clientText_text :
    clientText textOf (streamTextChannelToClient true h (connected items) s).2.body =
      (received items).flatMap (·.delta.toList) := by
  have hvalid : ∀ v ∈ written (fun sc => (buildTextChunk h sc).toJson) items, v.Valid := by
    rw [written_eq_map hok, forall_mem_map]
    exact fun c _ => (buildTextChunk h c).valid_toJson
  rw [clientText_eq hvalid (allEvents_text h items s), written_eq_map hok, flatMap_map]
  exact flatMap_congr fun c _ => textOf_buildTextChunk h c

theorem endsOnce_chat : EndsOnce (streamChannelToClient true h (connected items) s).2.body := by
  refine endsOnce ?_ (allEvents_chat h items s)
  rw [written_eq_map hok, forall_mem_cons, forall_mem_map]
  exact ⟨⟨_, rfl⟩, fun c _ => ⟨_, rfl⟩⟩

theorem endsOnce_text : EndsOnce (streamTextChannelToClient true h (connected items) s).2.body := by
  refine endsOnce ?_ (allEvents_text h items s)
  rw [written_eq_map hok, forall_mem_map]
  exact fun c _ => ⟨_, rfl⟩

end Text

/-- **Streamed text.** In a run without errors both formats carry the text of all chunks and end in
one `[DONE]` iff no chunk with a finish reason has text, which `buildChunk` leaves out. -/
theorem streamed_text_iff (h : StreamHead) {items : List (Option StreamChunk)} (s : Session)
    (hok : ∀ c ∈ received items, c.error = none) :
    TextPreserved h items s ↔ ∀ c ∈ received items, c.finishReason.isSome → c.delta = "" := by
  have hempty : ∀ t : String, t.toList = [] ↔ t = "" := fun t => String.toList_eq_nil_iff
  constructor
  · intro htext
    have hchat := htext.chat
    rw [clientText_chat h s hok] at hchat
    intro c hc hreason
    exact (hempty _).mp (flatMap_drop_iff.mp hchat c hc hreason)
  · intro hall
    refine ⟨?_, clientText_text h s hok, endsOnce_chat h s hok, endsOnce_text h s hok⟩
    rw [clientText_chat h s hok]
    exact flatMap_drop_iff.mpr fun c hc hreason => (hempty _).mpr (hall c hc hreason)

def newSession : Session := { cb := Circuit.new Circuit.defaultConfig }

theorem streamed_text_hi :
    TextPreserved ⟨"chatcmpl-1", 0, "openai/gpt-4o"⟩
      [some { delta := "hi" }, none, some { delta := "", finishReason := some "stop" }]
      newSession :=
  (streamed_text_iff _ newSession (by decide)).mpr (by decide)

/-- A last chunk with text and finish reason: the chat format has lost the text. -/
theorem last_delta_is_lost :
    ∃ items : List (Option StreamChunk), (∀ c ∈ received items, c.error = none) ∧
      clientText textOf
          (streamTextChannelToClient true ⟨"chatcmpl-1", 0, "openai/gpt-4o"⟩ (connected items)
            newSession).2.body = "hi!".toList ∧
      clientText contentOf
          (streamChannelToClient true ⟨"chatcmpl-1", 0, "openai/gpt-4o"⟩ (connected items)
            newSession).2.body = "hi".toList := by
  have hok : ∀ c ∈ received
      [some { delta := "hi" }, some { delta := "!", finishReason := some "stop" }],
      c.error = none := by decide
  refine ⟨_, hok, ?_, ?_⟩
  · rw [clientText_text _ _ hok]
    rfl
  · rw [clientText_chat _ _ hok]
    rfl

end LlmRouter.Proxy
