import LlmRouter.Gateway.StreamProxy
import LlmRouter.Lib.Fields

/-!
# LlmRouter — a cached answer as a stream

A streaming request that hits the cache is answered with the stored answer, cut into words by
`strings.Fields`, which forgets the white space it has cut at: a client reads every run of it as
one blank.
-/

namespace LlmRouter.Cache

open Lib Lib.Text Gateway Proxy Utf8 List

/-! ## ReplayAsStream -/

/-- `unicode.IsSpace`. -/
def isSpace (c : Char) : Bool := Utf8.whiteSpace.contains c

def wordTexts : List (List Char) → List String
  | [] => []
  | [word] => [String.ofList word]
  | word :: words => String.ofList (word ++ [' ']) :: wordTexts words

def replayHead (cached : ChatCompletionResponse) : StreamHead :=
  ⟨cached.id, cached.created, cached.model⟩

def wordChunk (h : StreamHead) (text : String) : ChatCompletionChunk where
  id := h.id
  object := "chat.completion.chunk"
  created := h.created
  model := h.model
  choices := [{ delta := { content := text } }]

def finalChunk (h : StreamHead) (finishReason : String) (usage : Option Usage) :
    ChatCompletionChunk where
  id := h.id
  object := "chat.completion.chunk"
  created := h.created
  model := h.model
  choices := [{ finishReason := finishReason }]
  usage := usage

def replayChunks (cached : ChatCompletionResponse) (choice : Choice) : List ChatCompletionChunk :=
  let h := replayHead cached
  let words := fields isSpace choice.message.content.toList
  roleChunk h :: (wordTexts words).map (wordChunk h) ++
    [finalChunk h choice.finishReason cached.usage]

def replayAsStream (cached : ChatCompletionResponse) : StreamResponse where
  status := 200
  headers := [("Content-Type", "text/event-stream"), ("Cache-Control", "no-cache"),
    ("Connection", "keep-alive"), ("X-Cache", "HIT")]
  body :=
    match cached.choices.getD [] with
    | [] => writeDone
    | choice :: _ =>
      (replayChunks cached choice).flatMap (fun c => writeChunk c.toJson) ++ writeDone

/-! ## What a client reads -/

theorem flatten_wordTexts (words : List (List Char)) :
    (wordTexts words).flatMap String.toList = [' '].intercalate words := by
  induction words with
  | nil => rfl
  | cons word words ih =>
    cases words with
    | nil => simp [wordTexts]
    | cons word' words =>
      rw [wordTexts, flatMap_cons, ih, intercalate_cons_cons, String.toList_ofList]
      simp

theorem allEvents_writeChunks (vs : List Json) :
    allEvents (vs.flatMap writeChunk ++ writeDone) =
      (vs.map marshal).map messageEvent ++ [messageEvent (bytes "[DONE]")] := by
  have hdone : writeDone.length = 14 := by decide
  have hchunk : ∀ v, (writeChunk v).length = (marshal v).length + 8 := by
    intro v
    rw [writeChunk, dataEvent, length_append, length_dataLine]
    rfl
  -- the buffer is fixed while the stream gets shorter
  have hread : ∀ (limit : Nat) (vs : List Json), 12 < limit →
      (∀ v ∈ vs, (marshal v).length + 6 < limit) →
      events limit (vs.flatMap writeChunk ++ writeDone) =
        (vs.map marshal).map messageEvent ++ [messageEvent (bytes "[DONE]")] := by
    intro limit vs hlimit hfits
    induction vs with
    | nil => exact events_writeDone hlimit
    | cons v vs ih =>
      obtain ⟨hv, hvs⟩ := forall_mem_cons.mp hfits
      rw [flatMap_cons, append_assoc, events_writeChunk (by omega), if_pos hv, ih hvs]
      rfl
  refine hread _ vs (by rw [length_append]; omega) fun v hv => ?_
  have hle : (writeChunk v).length ≤ (vs.flatMap writeChunk).length := by
    obtain ⟨before, after, rfl⟩ := append_of_mem hv
    simp [flatMap_append]
    omega
  rw [length_append]
  have := hchunk v
  omega

theorem contentOf_wordChunk (h : StreamHead) (text : String) :
    contentOf (wordChunk h text).toJson = text.toList :=
  contentOf_buildChunk h { delta := text }

theorem contentOf_roleChunk (h : StreamHead) : contentOf (roleChunk h).toJson = [] := rfl

theorem contentOf_finalChunk (h : StreamHead) (reason : String) (usage : Option Usage) :
    contentOf (finalChunk h reason usage).toJson = [] :=
  contentOf_buildChunk h { delta := "", finishReason := some reason, usage := usage }

section Answer

variable {cached : ChatCompletionResponse} {choice : Choice} {more : List Choice}
  (hchoices : cached.choices = some (choice :: more))

include hchoices

theorem body_replayAsStream : (replayAsStream cached).body =
    ((replayChunks cached choice).map ChatCompletionChunk.toJson).flatMap writeChunk ++
      writeDone := by
  rw [replayAsStream, hchoices, Option.getD_some, flatMap_map]

theorem allEvents_replayAsStream : allEvents (replayAsStream cached).body =
    (((replayChunks cached choice).map ChatCompletionChunk.toJson).map marshal).map messageEvent ++
      [messageEvent (bytes "[DONE]")] := by
  rw [body_replayAsStream hchoices, allEvents_writeChunks]

theorem clientText_replayAsStream : clientText contentOf (replayAsStream cached).body =
    joined isSpace ' ' choice.message.content.toList := by
  have hvalid : ∀ v ∈ (replayChunks cached choice).map ChatCompletionChunk.toJson, v.Valid := by
    rw [forall_mem_map]
    exact fun c _ => c.valid_toJson
  rw [clientText_eq hvalid (allEvents_replayAsStream hchoices), flatMap_map, replayChunks,
    flatMap_append, flatMap_cons, contentOf_roleChunk, flatMap_singleton,
    contentOf_finalChunk, flatMap_map, nil_append, append_nil, joined,
    ← flatten_wordTexts]
  exact flatMap_congr fun text _ => contentOf_wordChunk _ text

theorem endsOnce_replayAsStream : EndsOnce (replayAsStream cached).body := by
  refine endsOnce ?_ (allEvents_replayAsStream hchoices)
  rw [forall_mem_map]
  exact fun c _ => ⟨_, rfl⟩

end Answer

/-- A stream has the text of a choice, a last chunk with the finish reason and the usage, and one
`[DONE]`. -/
structure Replayed (cached : ChatCompletionResponse) (choice : Choice) (body : Bytes) : Prop where
  text : clientText contentOf body = choice.message.content.toList
  last : ∃ before chunk, (allEvents body).map SSEEvent.data =
      before ++ [marshal (ChatCompletionChunk.toJson chunk), bytes "[DONE]"] ∧
    contentOf chunk.toJson = [] ∧ chunk.choices.map ChunkChoice.finishReason =
      [choice.finishReason] ∧ chunk.usage = cached.usage
  done : EndsOnce body

/-- **A cached answer is replayed as it is exactly if its white space is single blanks between
words.** -/
theorem replay_preserves_iff {cached : ChatCompletionResponse} {choice : Choice}
    {more : List Choice} (hchoices : cached.choices = some (choice :: more)) :
    Replayed cached choice (replayAsStream cached).body ↔
      SingleSpaced isSpace ' ' choice.message.content.toList := by
  rw [← joined_eq_iff, ← clientText_replayAsStream hchoices]
  refine ⟨Replayed.text, fun htext => ⟨htext, ?_, endsOnce_replayAsStream hchoices⟩⟩
  let h := replayHead cached
  let words := fields isSpace choice.message.content.toList
  refine ⟨(((roleChunk h :: (wordTexts words).map (wordChunk h)).map
    ChatCompletionChunk.toJson).map marshal), finalChunk h choice.finishReason cached.usage, ?_,
    contentOf_finalChunk _ _ _, rfl, rfl⟩
  rw [allEvents_replayAsStream hchoices, replayChunks]
  simp [messageEvent, h, words]

def cachedAnswer (content : String) : ChatCompletionResponse where
  id := "chatcmpl-1"
  object := "chat.completion"
  created := 1700000000
  model := "gpt-4o"
  choices := some [{ index := 0, message := ⟨"assistant", content⟩, finishReason := "stop" }]
  usage := some { promptTokens := 9, completionTokens := 2, totalTokens := 11 }

theorem replay_two_words :
    Replayed (cachedAnswer "Hello world")
      { index := 0, message := ⟨"assistant", "Hello world"⟩, finishReason := "stop" }
      (replayAsStream (cachedAnswer "Hello world")).body := by
  refine (replay_preserves_iff rfl).mpr ?_
  rw [← joined_eq_iff]
  decide

theorem replay_joins_lines :
    clientText contentOf (replayAsStream (cachedAnswer "- one\n- two")).body =
        "- one - two".toList ∧
      ¬ Replayed (cachedAnswer "- one\n- two")
        { index := 0, message := ⟨"assistant", "- one\n- two"⟩, finishReason := "stop" }
        (replayAsStream (cachedAnswer "- one\n- two")).body := by
  have hread : clientText contentOf (replayAsStream (cachedAnswer "- one\n- two")).body =
      "- one - two".toList := by
    rw [clientText_replayAsStream rfl]
    decide
  refine ⟨hread, fun hreplayed => ?_⟩
  have htext := hreplayed.text
  rw [hread] at htext
  exact absurd htext (by decide)

end LlmRouter.Cache
