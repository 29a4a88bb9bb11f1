import LlmRouter.Lib.Relay
import LlmRouter.Provider.LineReaders
import LlmRouter.Provider.Responses

/-!
# LlmRouter — the goroutines behind a stream

A stream of openai, anthropic or gemini has two goroutines, that of `ParseSSE` and that of the
adapter, with channels of 16 slots and plain sends. `StreamChannelToClient` returns when the
client has gone and the adapter at the end of an answer; the one who sends is not told. The
goroutines are a `Relay`. A read of the body may fail at any time.
-/

namespace LlmRouter.Streams

open Lib Lib.Json Gateway Proxy Adapters Utf8 List

/-! ## The adapters, one event at a time -/

section Stages

variable (errorText : Bytes → String)

def OpenAI.stage : Stage SSEEvent StreamChunk Unit where
  start := ()
  read _ e :=
    if e.data = bytes "[DONE]" then ([], none)
    else
      match unmarshal (Encoding.decodeStruct openAIChunk) e.data with
      | none =>
        ([{ error := some (.wrap "parse openai chunk: " (.other (errorText e.data))) }], none)
      | some chunk => ([chunk], some ())

/-- The goroutine of anthropic; its state is `inputTokens`. -/
def Anthropic.stage : Stage SSEEvent StreamChunk Int where
  start := 0
  read inputTokens e :=
    match unmarshal (Encoding.decodeStruct anthropicEvent) e.data with
    | none =>
      ([{ error := some (.wrap "parse anthropic event: " (.other (errorText e.data))) }], none)
    | some ev =>
      if ev.type = "message_stop" then ([], none)
      else
        let inputTokens :=
          if ev.type = "message_start" then ev.message.getD inputTokens else inputTokens
        (Anthropic.eventChunks inputTokens ev, some inputTokens)

def Gemini.finishes (cand : Gemini.Candidate) : Bool :=
  cand.finishReason != "" && cand.finishReason != "FINISH_REASON_UNSPECIFIED"

/-- The goroutine of gemini; its state is `accumulated`, and the delta is cut off at a byte. -/
def Gemini.stage : Stage SSEEvent StreamChunk Bytes where
  start := []
  read accumulated e :=
    match unmarshal (Encoding.decodeStruct Gemini.response) e.data with
    | none =>
      ([{ error := some (.wrap "parse gemini stream event: " (.other (errorText e.data))) }], none)
    | some gr =>
      match gr.candidates with
      | [] => ([], some accumulated)
      | cand :: _ =>
        let cumulative := bytes (String.join (elems cand.parts))
        let delta := cumulative.drop accumulated.length
        let accumulated :=
          if accumulated.length < cumulative.length then cumulative else accumulated
        let text := if delta = [] then [] else [{ delta := String.ofList (decode delta) }]
        if Gemini.finishes cand then
          (text ++ [{ finishReason := some (Gemini.mapFinishReason cand.finishReason)
                      usage := if 0 < gr.usage.totalTokens then some gr.usage else none }], none)
        else (text, some accumulated)

theorem OpenAI.stage_chunks (es : List SSEEvent) :
    ((OpenAI.stage errorText).run () es).1 = OpenAI.chunks errorText es := by
  induction es with
  | nil => rfl
  | cons e es ih =>
    rw [Stage.run_cons, OpenAI.chunks]
    by_cases hdone : e.data = bytes "[DONE]"
    · simp only [OpenAI.stage, if_pos hdone, StagePoint.run]
    · simp only [OpenAI.stage, if_neg hdone]
      cases unmarshal (Encoding.decodeStruct openAIChunk) e.data with
      | none => rfl
      | some chunk => exact congrArg (chunk :: ·) ih

theorem Anthropic.stage_chunks (inputTokens : Int) (es : List SSEEvent) :
    ((Anthropic.stage errorText).run inputTokens es).1 =
      Anthropic.chunks errorText inputTokens es := by
  induction es generalizing inputTokens with
  | nil => rfl
  | cons e es ih =>
    rw [Stage.run_cons, Anthropic.chunks]
    simp only [Anthropic.stage]
    cases unmarshal (Encoding.decodeStruct anthropicEvent) e.data with
    | none => rfl
    | some ev =>
      by_cases hstop : ev.type = "message_stop"
      · simp only [if_pos hstop, StagePoint.run]
      · simp only [if_neg hstop, StagePoint.run]
        exact congrArg _ (ih _)

theorem OpenAI.stage_ends (s : Unit) (e : SSEEvent) :
    ((OpenAI.stage errorText).read s e).2.isNone =
      (SseAdapter.terminates .openai e || !SseAdapter.decodes .openai e) := by
  simp only [OpenAI.stage, SseAdapter.terminates, SseAdapter.decodes]
  by_cases hdone : e.data = bytes "[DONE]"
  · simp [hdone]
  · rw [if_neg hdone, beq_eq_false_iff_ne.mpr hdone]
    cases unmarshal (Encoding.decodeStruct openAIChunk) e.data <;> rfl

theorem Anthropic.stage_ends (inputTokens : Int) (e : SSEEvent) :
    ((Anthropic.stage errorText).read inputTokens e).2.isNone =
      (SseAdapter.terminates .anthropic e || !SseAdapter.decodes .anthropic e) := by
  simp only [Anthropic.stage, SseAdapter.terminates, SseAdapter.decodes]
  cases unmarshal (Encoding.decodeStruct anthropicEvent) e.data with
  | none => rfl
  | some ev => by_cases hstop : ev.type = "message_stop" <;> simp [hstop]

def Gemini.ends (e : SSEEvent) : Bool :=
  match unmarshal (Encoding.decodeStruct Gemini.response) e.data with
  | none => true
  | some gr => gr.candidates.head?.any Gemini.finishes

theorem Gemini.stage_ends (accumulated : Bytes) (e : SSEEvent) :
    ((Gemini.stage errorText).read accumulated e).2.isNone = Gemini.ends e := by
  simp only [Gemini.stage, Gemini.ends]
  cases unmarshal (Encoding.decodeStruct Gemini.response) e.data with
  | none => rfl
  | some gr =>
    obtain ⟨candidates, usage⟩ := gr
    cases candidates with
    | nil => rfl
    | cons cand _ => cases hfinish : Gemini.finishes cand <;> simp [hfinish]

end Stages

/-- The adapters whose streams are read with `ParseSSE`. -/
inductive StreamAdapter where
  | openai
  | anthropic
  | gemini
  deriving DecidableEq, Repr

namespace StreamAdapter

variable (errorText : Bytes → String)

def State : StreamAdapter → Type
  | openai => Unit
  | anthropic => Int
  | gemini => Bytes

def stage : (a : StreamAdapter) → Stage SSEEvent StreamChunk a.State
  | openai => OpenAI.stage errorText
  | anthropic => Anthropic.stage errorText
  | gemini => Gemini.stage errorText

def chunks : StreamAdapter → List SSEEvent → List StreamChunk
  | openai, es => OpenAI.chunks errorText es
  | anthropic, es => Anthropic.chunks errorText 0 es
  | gemini, es => ((Gemini.stage errorText).run [] es).1

def ends : StreamAdapter → SSEEvent → Bool
  | openai, e => SseAdapter.terminates .openai e || !SseAdapter.decodes .openai e
  | anthropic, e => SseAdapter.terminates .anthropic e || !SseAdapter.decodes .anthropic e
  | gemini, e => Gemini.ends e

def after (a : StreamAdapter) (es : List SSEEvent) : List SSEEvent :=
  (es.dropWhile fun e => !a.ends e).tail

theorem stage_chunks (a : StreamAdapter) (es : List SSEEvent) :
    ((a.stage errorText).run (a.stage errorText).start es).1 = a.chunks errorText es := by
  cases a with
  | openai => exact OpenAI.stage_chunks errorText es
  | anthropic => exact Anthropic.stage_chunks errorText 0 es
  | gemini => rfl

theorem stage_ends (a : StreamAdapter) (s : a.State) (e : SSEEvent) :
    ((a.stage errorText).read s e).2.isNone = a.ends e := by
  cases a with
  | openai => exact OpenAI.stage_ends errorText s e
  | anthropic => exact Anthropic.stage_ends errorText s e
  | gemini => exact Gemini.stage_ends errorText s e

end StreamAdapter

/-! ## Stuck goroutines -/

def eventSlots : Nat := 16

def chunkSlots : Nat := 16

/-- Neither goroutine of the stream of this body is ever in a send that nobody will receive, and
both can always still close their channels, whenever the client disconnects. -/
def NoStuckProducers (a : StreamAdapter) (errorText : Bytes → String) (body : Bytes) : Prop :=
  (a.stage errorText).Live (fun chunk => chunk.error.isSome) eventSlots chunkSlots (parseSSE body)

def seventeenChunks : Bytes := (replicate 17 (bytes "data: \x7b\x7d\n\n")).flatten

inductive LinePoint where
  | loop (reads : List Bytes) (leftover : Bytes)
  | sending (out : List StreamChunk) (reads : List Bytes) (leftover : Bytes)
  | returned

structure LineStream where
  reader : LinePoint
  chunks : Chan StreamChunk chunkSlots := {}
  connected : Bool := true

/-- Who takes a step; a `select` of the reader may have two ways to go. -/
inductive LineMove where
  | reader (done : Bool)
  | take
  | leave
  deriving DecidableEq, Repr

namespace LineStream

/-- A loop over the buffer that is left because of the context leaves more of it over, but it is
not looked at again. -/
def readerNext (toLower : String → String) (r : Reader) (s : LineStream) (done : Bool) :
    Option LineStream :=
  match s.reader with
  | .loop [] _ => some { s with reader := .returned, chunks := s.chunks.close }
  | .loop (piece :: reads) leftover =>
    if !s.connected then some { s with reader := .returned, chunks := s.chunks.close }
    else if piece.isEmpty then some { s with reader := .loop reads leftover }
    else
      let parsed := (r.cutter toLower).parse (leftover ++ piece)
      some { s with reader := .sending parsed.1 reads parsed.2 }
  | .sending [] reads leftover => some { s with reader := .loop reads leftover }
  | .sending (chunk :: out) reads leftover =>
    if done then
      if s.connected then none else some { s with reader := .loop reads leftover }
    else
      (s.chunks.send chunk).map fun c =>
        { s with reader := .sending out reads leftover, chunks := c }
  | .returned => none

def step (toLower : String → String) (r : Reader) (s : LineStream) : LineMove → Option LineStream
  | .reader done => s.readerNext toLower r done
  | .take =>
    if s.connected then
      match s.chunks.recv with
      | some (chunk, c) => some { s with chunks := c, connected := chunk.error.isNone }
      | none => if s.chunks.closed then some { s with connected := false } else none
    else none
  | .leave => if s.connected then some { s with connected := false } else none

variable {toLower : String → String} {r : Reader} {s s' : LineStream}

theorem step_returned {move : LineMove} (h : s.reader = .returned → s.chunks.closed = true)
    (hstep : s.step toLower r move = some s') :
    s'.reader = .returned → s'.chunks.closed = true := by
  cases move with
  | reader done =>
    simp only [step, readerNext] at hstep
    split at hstep
    · cases hstep
      exact fun _ => rfl
    · split at hstep
      · cases hstep
        exact fun _ => rfl
      · split at hstep <;> cases hstep <;> nofun
    · cases hstep
      nofun
    · split at hstep
      · split at hstep <;> cases hstep
        nofun
      · obtain ⟨c, -, rfl⟩ := Option.map_eq_some_iff.mp hstep
        nofun
    · cases hstep
  | take =>
    simp only [step] at hstep
    split at hstep
    · split at hstep
      · rename_i hrecv
        cases hstep
        rw [(Chan.recv_eq_some hrecv).2.2]
        exact h
      · split at hstep <;> cases hstep
        exact h
    · cases hstep
  | leave =>
    simp only [step] at hstep
    split at hstep <;> cases hstep
    exact h

/-- How many steps the reader has left at most once the client has gone. -/
def left (s : LineStream) : Nat :=
  match s.reader with
  | .returned => 0
  | .loop _ _ => 1
  | .sending out _ _ => min out.length (chunkSlots - s.chunks.queue.length) + 2

theorem left_le (s : LineStream) : s.left ≤ chunkSlots + 2 := by
  unfold left
  split <;> omega

/-- Without a client every step is one of the reader, and brings it nearer to its end. -/
theorem step_gone {move : LineMove} (hgone : s.connected = false)
    (hstep : s.step toLower r move = some s') : s'.connected = false ∧ s'.left < s.left := by
  cases move with
  | reader done =>
    simp only [step, readerNext] at hstep
    split at hstep
    case h_1 hreader =>
      cases hstep
      exact ⟨hgone, by simp [left, hreader]⟩
    case h_2 hreader =>
      simp only [hgone, Bool.not_false, if_true] at hstep
      cases hstep
      exact ⟨rfl, by simp [left, hreader]⟩
    case h_3 hreader =>
      cases hstep
      exact ⟨hgone, by simp [left, hreader]⟩
    case h_4 chunk out reads leftover hreader =>
      split at hstep
      · simp only [hgone, Bool.false_eq_true, if_false] at hstep
        cases hstep
        exact ⟨rfl, by simp [left, hreader]⟩
      · -- one slot less is free
        obtain ⟨c, hsend, rfl⟩ := Option.map_eq_some_iff.mp hstep
        have hroom := c.room
        rw [(Chan.send_eq_some hsend).1, length_append, length_singleton] at hroom
        refine ⟨hgone, ?_⟩
        simp only [left, hreader, (Chan.send_eq_some hsend).1, length_append,
          length_cons, length_nil]
        omega
    case h_5 => cases hstep
  | take | leave => simp [step, hgone] at hstep

theorem run_gone {moves : List LineMove} (hgone : s.connected = false)
    (hrun : runFrom (step toLower r) s moves = some s') :
    s'.connected = false ∧ moves.length + s'.left ≤ s.left := by
  induction moves generalizing s with
  | nil =>
    cases hrun
    exact ⟨hgone, by simp⟩
  | cons move moves ih =>
    obtain ⟨q, hq, hrest⟩ := Option.bind_eq_some_iff.mp hrun
    obtain ⟨hgone', hless⟩ := step_gone hgone hq
    obtain ⟨hend, hleft⟩ := ih hgone' hrest
    refine ⟨hend, ?_⟩
    rw [length_cons]
    omega

/-- The `select` of the reader can always go the way of the context. -/
theorem step_of_gone (hgone : s.connected = false) (hopen : s.reader ≠ .returned) :
    ∃ s', s.step toLower r (.reader true) = some s' := by
  rw [← Option.isSome_iff_exists, step]
  cases hreader : s.reader with
  | loop reads leftover => cases reads <;> simp [readerNext, hreader, hgone]
  | sending out reads leftover => cases out <;> simp [readerNext, hreader, hgone]
  | returned => exact absurd hreader hopen

end LineStream

/-- **The other readers close.** Once the client has gone, whichever way a `select` goes, a reader
of azure, mistral, grok, cohere or bedrock takes at most 18 more steps, and can take one until it
has closed its channel. -/
theorem line_readers_close (toLower : String → String) (r : Reader) (reads : List Bytes)
    {s : LineStream}
    (h : CanReach (LineStream.step toLower r) { reader := .loop reads [] } s)
    (hgone : s.connected = false) :
    ∀ moves s', runFrom (LineStream.step toLower r) s moves = some s' →
      moves.length ≤ chunkSlots + 2 ∧
        (s'.chunks.closed = true ∨ ∃ move s'', s'.step toLower r move = some s'') := by
  obtain ⟨ms, hreach⟩ := h
  intro moves s' hrun
  obtain ⟨hgone', hleft⟩ := LineStream.run_gone hgone hrun
  have hreturned : s'.reader = .returned → s'.chunks.closed = true := by
    refine runFrom_preserves (fun _ _ _ => LineStream.step_returned)
      (runFrom_preserves (fun _ _ _ => LineStream.step_returned) (fun h => ?_) hreach) hrun
    cases h
  refine ⟨(Nat.le_of_add_right_le hleft).trans s.left_le, ?_⟩
  by_cases hend : s'.reader = .returned
  · exact .inl (hreturned hend)
  · exact .inr ⟨_, LineStream.step_of_gone hgone' hend⟩

def azureLine : Bytes :=
  bytes "data: \x7b\"choices\":[\x7b\"delta\":\x7b\"content\":\"a\"\x7d\x7d]\x7d\n"

/-- Twenty chunks, of which 16 wait in the channel when the client leaves. -/
theorem azure_closes_full_channel :
    ∃ s, runFrom (LineStream.step id .azure)
        { reader := .loop [(replicate 20 azureLine).flatten] [] }
        (replicate 17 (.reader false) ++ [.leave]) = some s ∧
      s.chunks.queue.length = 16 ∧ s.connected = false ∧
      ∀ moves s', runFrom (LineStream.step id .azure) s moves = some s' →
        moves.length ≤ 18 ∧
          (s'.chunks.closed = true ∨ ∃ move s'', s'.step id .azure move = some s'') := by
  let shape (s : LineStream) : Nat × Bool := (s.chunks.queue.length, s.connected)
  have hrun : (runFrom (LineStream.step id .azure)
      { reader := .loop [(replicate 20 azureLine).flatten] [] }
      (replicate 17 (.reader false) ++ [.leave])).map shape = some (16, false) := by
    decide +kernel
  obtain ⟨s, hs, hshape⟩ := Option.map_eq_some_iff.mp hrun
  obtain ⟨hfull, hgone⟩ := Prod.mk.inj hshape
  exact ⟨s, hs, hfull, hgone, line_readers_close id .azure _ ⟨_, hs⟩ hgone⟩

end LlmRouter.Streams
