import Mathlib.Data.List.DropRight
import LlmRouter.Lib.JsonEffect
import LlmRouter.Provider.SseReaders

/-!
# LlmRouter — the incremental stream readers

The readers of azure, mistral, grok, cohere and bedrock append what they read to what is left over
and cut whole lines (for bedrock, JSON objects) off the buffer. The loops are `Cutter`s; the
context is not cancelled.
-/

namespace LlmRouter.Streams

open Lib Lib.Json Gateway Proxy Utf8 List

/-! ## Blanks -/

def Blank (bs : Bytes) : Prop := ∀ b ∈ bs, b ∈ [9, 10, 13, 32]

instance (bs : Bytes) : Decidable (Blank bs) := decidableBAll _ bs

section Blank

variable {α : Type} (into : Json → Option α) {l r : Bytes}

theorem Blank.ascii (h : Blank l) : ∀ b ∈ l, b.toNat < 128 := by
  intro b hb
  have hb := h b hb
  simp only [mem_cons, not_mem_nil, or_false] at hb
  rcases hb with rfl | rfl | rfl | rfl <;> decide

theorem Blank.decode_append (h : Blank l) (bs : Bytes) :
    decode (l ++ bs) = decode l ++ decode bs := by
  induction l with
  | nil => rfl
  | cons b l ih =>
    have hb : b.toNat < 128 := h.ascii b mem_cons_self
    rw [cons_append, decode_ascii hb, decode_ascii hb,
      ih fun x hx => h x (mem_cons_of_mem _ hx), cons_append]

theorem Blank.append_decode (h : Blank r) (bs : Bytes) :
    decode (bs ++ r) = decode bs ++ decode r := by
  cases r with
  | nil => rw [append_nil, decode_nil, append_nil]
  | cons b r => rw [decode_append_ascii bs (h.ascii b mem_cons_self)]

theorem Blank.isBlank (h : Blank l) : ∀ c ∈ decode l, isBlank c = true := by
  induction l with
  | nil => simp
  | cons b l ih =>
    have hb := h b mem_cons_self
    rw [decode_ascii (h.ascii b mem_cons_self), forall_mem_cons]
    refine ⟨?_, ih fun x hx => h x (mem_cons_of_mem _ hx)⟩
    simp only [mem_cons, not_mem_nil, or_false] at hb
    rcases hb with rfl | rfl | rfl | rfl <;> decide

theorem unmarshal_blanks (hl : Blank l) (hr : Blank r) (data : Bytes) :
    unmarshal into (l ++ (data ++ r)) = unmarshal into data := by
  rw [unmarshal, hl.decode_append, hr.append_decode, parse_blanks_append hl.isBlank,
    parse_append_blanks _ hr.isBlank]
  rfl

theorem unmarshal_blank (hl : Blank l) : unmarshal into l = none := by
  rw [unmarshal, parse_blanks hl.isBlank]
  rfl

end Blank

/-! ## Lines of OpenAI-compatible streams -/

def dataChunks (line : Bytes) : List StreamChunk :=
  if line = [] ∨ line = bytes "data: [DONE]" then []
  else
    match line.dropPrefix? (bytes "data: ") with
    | none => []
    | some jsonData => (unmarshal (Encoding.decodeStruct compatChunk) jsonData).toList

/-- `strings.TrimRight(line, "\r")`. -/
def trimCR (line : Bytes) : Bytes := line.rdropWhile (· == carriageReturn)

def parseMistralLines : Cutter UInt8 StreamChunk :=
  .lines newline fun line => dataChunks (trimCR line)

def parseGrokLines : Cutter UInt8 StreamChunk :=
  .lines newline fun line => dataChunks (trimCR line)

def skipNewline : Bytes → Bytes
  | [] => []
  | b :: bs => if b = newline then bs else b :: bs

theorem length_skipNewline_le (bs : Bytes) : (skipNewline bs).length ≤ bs.length := by
  cases bs with
  | nil => exact Nat.le_refl _
  | cons b bs =>
    rw [skipNewline]
    split <;> simp

/-- `processSSELines` of azure. It leaves a `\r` in the line, and skips a newline
where the comment says `\r`. -/
def processSSELines : Cutter UInt8 StreamChunk where
  cut buf :=
    match cutAt newline buf with
    | none => .wait buf
    | some (line, rest) => .item (dataChunks line) (skipNewline rest)
  shrinks {buf out rest} h := by
    cases hcut : cutAt newline buf with
    | none => simp only [hcut] at h; cases h
    | some r =>
      obtain ⟨hbuf, -⟩ := cutAt_eq_some hcut
      simp only [hcut] at h
      obtain ⟨-, rfl⟩ := Cut.item.inj h
      have hskip := length_skipNewline_le r.2
      rw [hbuf, length_append, length_cons]
      omega

theorem lines_parse_skipNewline (rest more : Bytes) :
    ((Cutter.lines newline dataChunks).parse (skipNewline rest ++ more)).1 =
      ((Cutter.lines newline dataChunks).parse (rest ++ more)).1 := by
  cases rest with
  | nil => rfl
  | cons b bs =>
    rw [skipNewline]
    split
    case isTrue hb =>
      rw [hb, cons_append, ← nil_append (newline :: (bs ++ more)),
        Cutter.lines_parse_line not_mem_nil]
      rfl
    case isFalse => rfl

theorem processSSELines_item {buf rest : Bytes} {out : List StreamChunk}
    (h : processSSELines.cut buf = .item out rest) :
    ∃ line r, buf = line ++ newline :: r ∧ newline ∉ line ∧ out = dataChunks line ∧
      rest = skipNewline r := by
  cases hcut : cutAt newline buf with
  | none => simp only [processSSELines, hcut] at h; cases h
  | some r =>
    obtain ⟨hbuf, hnot⟩ := cutAt_eq_some hcut
    simp only [processSSELines, hcut] at h
    obtain ⟨rfl, rfl⟩ := Cut.item.inj h
    exact ⟨r.1, r.2, hbuf, hnot, rfl, rfl⟩

theorem processSSELines_eq (buf : Bytes) :
    (processSSELines.parse buf).1 = ((Cutter.lines newline dataChunks).parse buf).1 := by
  induction buf using Cutter.parse_induction (c := processSSELines) with
  | hwait buf keep hcut =>
    cases hline : cutAt newline buf with
    | none =>
      have hwait : (Cutter.lines newline dataChunks).cut buf = .wait buf := by
        simp only [Cutter.lines, hline]
      rw [Cutter.parse_wait hcut, Cutter.parse_wait hwait]
    | some r => simp only [processSSELines, hline] at hcut; cases hcut
  | hitem buf out rest hcut ih =>
    obtain ⟨line, r, hbuf, hnot, rfl, rfl⟩ := processSSELines_item hcut
    have hskip := lines_parse_skipNewline r []
    rw [append_nil, append_nil] at hskip
    rw [Cutter.parse_item hcut, ih, hskip, hbuf, Cutter.lines_parse_line hnot]

theorem processSSELines_resumes : processSSELines.Resumes := by
  constructor
  · intro buf out rest hcut more
    obtain ⟨line, r, rfl, hnot, rfl, rfl⟩ := processSSELines_item hcut
    rw [processSSELines_eq, processSSELines_eq, lines_parse_skipNewline, append_assoc,
      cons_append, Cutter.lines_parse_line hnot]
  · intro buf keep hcut more
    cases hline : cutAt newline buf with
    | none =>
      simp only [processSSELines, hline] at hcut
      rw [Cut.wait.inj hcut]
    | some r => simp only [processSSELines, hline] at hcut; cases hcut

/-! ## Lines of cohere -/

structure CohereEvent where
  type : String := ""
  text : String := ""
  finishReason : String := ""
  deriving DecidableEq, Repr

def cohereEvent (fs : List (String × Json)) : Option CohereEvent := do
  let type ← field intoString "" "type" fs
  let _ ← field intoInt 0 "index" fs
  let text ← field (intoStruct fun fs text =>
    field (intoStruct fun fs text =>
      field (intoStruct fun fs text => do
        let _ ← field intoInt 0 "index" fs
        field intoString text "text" fs) text "content" fs) text "message" fs) "" "delta" fs
  let finishReason ← field intoString "" "finish_reason" fs
  return ⟨type, text, finishReason⟩

/-- What `json.Unmarshal` leaves in a variable whose error is not looked at: a
value of another type is skipped. -/
def orKeep {α : Type} (into : Into α) (v : Json) (a : α) : α := (into v a).getD a

def fieldOr {α : Type} (into : Json → α → α) (old : α) (name : String)
    (fs : List (String × Json)) : α :=
  (fieldValues name fs).foldl (fun a v => into v a) old

def structOr {α : Type} (fields : List (String × Json) → α → α) : Json → α → α
  | .obj fs, a => fields fs a
  | _, a => a

def cohereEventOr (fs : List (String × Json)) : CohereEvent where
  type := fieldOr (orKeep intoString) "" "type" fs
  text := fieldOr (structOr fun fs text => fieldOr (structOr fun fs text =>
    fieldOr (structOr fun fs text => fieldOr (orKeep intoString) text "text" fs)
      text "content" fs) text "message" fs) "" "delta" fs
  finishReason := fieldOr (orKeep intoString) "" "finish_reason" fs

/-- The event of a line: the whole line as JSON, or what stands after `data: `,
whose errors are ignored. -/
def cohereLine (line : Bytes) : Option CohereEvent :=
  match unmarshal (Encoding.decodeStruct cohereEvent) line with
  | some event => some event
  | none =>
    match line.dropPrefix? (bytes "data: ") with
    | none => none
    | some jsonData =>
      match parse (decode jsonData) with
      | some (.obj fs) => some (cohereEventOr fs)
      | _ => some {}

def CohereEvent.chunks (toLower : String → String) (event : CohereEvent) : List StreamChunk :=
  match event.type with
  | "content-delta" => [{ delta := event.text }]
  | "message-end" =>
    let reason := toLower event.finishReason
    [{ finishReason := some (if reason = "" then "stop" else reason) }]
  | _ => []

def parseCohereLines (toLower : String → String) : Cutter UInt8 StreamChunk :=
  .lines newline fun line =>
    if trimCR line = [] then []
    else (cohereLine (trimCR line)).elim [] (CohereEvent.chunks toLower)

/-! ## Objects of bedrock -/

/-- The local variables of `findJSONEnd`. -/
structure BraceScan where
  depth : Int := 0
  inString : Bool := false
  escaped : Bool := false
  deriving DecidableEq, Repr

/-- One byte of the loop; `none` is the end of the object. -/
def BraceScan.next (s : BraceScan) (b : UInt8) : Option BraceScan :=
  if s.escaped then some { s with escaped := false }
  else if b = 92 ∧ s.inString then some { s with escaped := true }
  else if b = 34 then some { s with inString := !s.inString }
  else if s.inString then some s
  else if b = 123 then some { s with depth := s.depth + 1 }
  else if b = 125 then
    if s.depth - 1 = 0 then none else some { s with depth := s.depth - 1 }
  else some s

/-- The loop of `findJSONEnd`: the index of the closing brace. -/
def BraceScan.find : BraceScan → Bytes → Option Nat
  | _, [] => none
  | s, b :: bs =>
    match s.next b with
    | none => some 0
    | some s => (s.find bs).map (· + 1)

def findJSONEnd (buf : Bytes) : Option Nat := BraceScan.find {} buf

def intoConverseUsage : Into Usage :=
  intoStruct fun fs u => do
    let inputTokens ← field intoInt u.promptTokens "inputTokens" fs
    let outputTokens ← field intoInt u.completionTokens "outputTokens" fs
    let totalTokens ← field intoInt u.totalTokens "totalTokens" fs
    return ⟨inputTokens, outputTokens, totalTokens⟩

/-- `converseStreamEvent`: the text of a delta, a stop reason, token counts. -/
structure ConverseStreamEvent where
  contentBlockDelta : Option String := none
  messageStop : Option String := none
  metadata : Option Usage := none
  deriving DecidableEq, Repr

def converseStreamEvent (fs : List (String × Json)) : Option ConverseStreamEvent := do
  let contentBlockDelta ← field (intoPtr (intoStruct fun fs text => do
      let text ← field (intoStruct fun fs text => field intoString text "text" fs) text "delta" fs
      let _ ← field intoInt 0 "contentBlockIndex" fs
      return text) "") none "contentBlockDelta" fs
  let messageStop ← field (intoPtr (intoStruct fun fs reason =>
    field intoString reason "stopReason" fs) "") none "messageStop" fs
  let metadata ← field (intoPtr (intoStruct fun fs usage =>
    field intoConverseUsage usage "usage" fs) {}) none "metadata" fs
  return ⟨contentBlockDelta, messageStop, metadata⟩

def ConverseStreamEvent.chunks (event : ConverseStreamEvent) : List StreamChunk :=
  if event = {} then []
  else
    [{ delta := event.contentBlockDelta.getD ""
       finishReason := event.messageStop.map mapStopReason
       usage := event.metadata }]

def bedrockChunks (jsonData : Bytes) : List StreamChunk :=
  (unmarshal (Encoding.decodeStruct converseStreamEvent) jsonData).elim []
    ConverseStreamEvent.chunks

def fromBrace (buf : Bytes) : Bytes := buf.dropWhile (· != 123)

theorem BraceScan.find_lt {s : BraceScan} {bs : Bytes} {i : Nat} (h : s.find bs = some i) :
    i < bs.length := by
  induction bs generalizing s i with
  | nil => cases h
  | cons b bs ih =>
    rw [BraceScan.find] at h
    cases hnext : s.next b with
    | none =>
      rw [hnext] at h
      obtain rfl := Option.some.inj h
      exact Nat.zero_lt_succ _
    | some s' =>
      rw [hnext] at h
      obtain ⟨j, hj, rfl⟩ := Option.map_eq_some_iff.mp h
      exact Nat.succ_lt_succ (ih hj)

theorem BraceScan.find_append {s : BraceScan} {bs : Bytes} {i : Nat} (h : s.find bs = some i)
    (more : Bytes) : s.find (bs ++ more) = some i := by
  induction bs generalizing s i with
  | nil => cases h
  | cons b bs ih =>
    rw [BraceScan.find] at h
    rw [cons_append, BraceScan.find]
    cases hnext : s.next b with
    | none =>
      rw [hnext] at h
      exact h
    | some s' =>
      rw [hnext] at h
      obtain ⟨j, hj, rfl⟩ := Option.map_eq_some_iff.mp h
      show (s'.find (bs ++ more)).map _ = _
      rw [ih hj]
      rfl

theorem fromBrace_append_of_ne {buf : Bytes} (h : fromBrace buf ≠ []) (more : Bytes) :
    fromBrace (buf ++ more) = fromBrace buf ++ more := by
  rw [fromBrace, List.dropWhile_append, if_neg (by rwa [List.isEmpty_iff])]
  rfl

theorem fromBrace_append_of_eq {buf : Bytes} (h : fromBrace buf = []) (more : Bytes) :
    fromBrace (buf ++ more) = fromBrace more := by
  rw [fromBrace, List.dropWhile_append, if_pos (by rwa [List.isEmpty_iff])]
  rfl

/-- One turn of `parseBedrockStreamChunks`. Bytes without a brace are thrown
away. -/
def bedrockCut (buf : Bytes) : Cut UInt8 StreamChunk :=
  if fromBrace buf = [] then .wait []
  else
    match findJSONEnd (fromBrace buf) with
    | none => .wait buf
    | some e => .item (bedrockChunks ((fromBrace buf).take (e + 1))) ((fromBrace buf).drop (e + 1))

theorem bedrockCut_of_find {buf : Bytes} {e : Nat} (h : findJSONEnd (fromBrace buf) = some e) :
    bedrockCut buf =
      .item (bedrockChunks ((fromBrace buf).take (e + 1))) ((fromBrace buf).drop (e + 1)) := by
  have hne : fromBrace buf ≠ [] := by
    intro hnil
    rw [hnil] at h
    cases h
  rw [bedrockCut, if_neg hne, h]

theorem bedrockCut_item {buf rest : Bytes} {out : List StreamChunk}
    (h : bedrockCut buf = .item out rest) :
    ∃ e, findJSONEnd (fromBrace buf) = some e ∧
      out = bedrockChunks ((fromBrace buf).take (e + 1)) ∧ rest = (fromBrace buf).drop (e + 1) := by
  rw [bedrockCut] at h
  split at h
  · cases h
  · split at h
    · cases h
    case h_2 e he =>
      obtain ⟨rfl, rfl⟩ := Cut.item.inj h
      exact ⟨e, he, rfl, rfl⟩

theorem bedrockCut_wait {buf keep : Bytes} (h : bedrockCut buf = .wait keep) :
    (fromBrace buf = [] ∧ keep = []) ∨ keep = buf := by
  rw [bedrockCut] at h
  split at h
  case isTrue hnil => exact .inl ⟨hnil, (Cut.wait.inj h).symm⟩
  case isFalse =>
    split at h
    · exact .inr (Cut.wait.inj h).symm
    · cases h

def parseBedrockStreamChunks : Cutter UInt8 StreamChunk where
  cut := bedrockCut
  shrinks {buf out rest} h := by
    obtain ⟨e, he, -, rfl⟩ := bedrockCut_item h
    have hlt := BraceScan.find_lt he
    have hle : (fromBrace buf).length ≤ buf.length := length_dropWhile_le _ _
    rw [length_drop]
    omega

theorem parseBedrock_skip {buf : Bytes} (h : fromBrace buf = []) (more : Bytes) :
    (parseBedrockStreamChunks.parse (buf ++ more)).1 = (parseBedrockStreamChunks.parse more).1 := by
  have hfrom := fromBrace_append_of_eq h more
  cases hcut : parseBedrockStreamChunks.cut more with
  | wait keep =>
    cases hcut' : parseBedrockStreamChunks.cut (buf ++ more) with
    | wait keep' => rw [Cutter.parse_wait hcut, Cutter.parse_wait hcut']
    | item out rest =>
      obtain ⟨e, he, -, -⟩ := bedrockCut_item hcut'
      rw [hfrom] at he
      cases hcut.symm.trans (bedrockCut_of_find he)
  | item out rest =>
    obtain ⟨e, he, rfl, rfl⟩ := bedrockCut_item hcut
    have hfind : findJSONEnd (fromBrace (buf ++ more)) = some e := by rwa [hfrom]
    rw [Cutter.parse_item hcut, Cutter.parse_item (bedrockCut_of_find hfind), hfrom]

theorem parseBedrock_resumes : parseBedrockStreamChunks.Resumes := by
  constructor
  · intro buf out rest hcut more
    obtain ⟨e, he, rfl, rfl⟩ := bedrockCut_item hcut
    have hlt := BraceScan.find_lt he
    have hne : fromBrace buf ≠ [] := ne_nil_of_length_pos (by omega)
    have hfrom := fromBrace_append_of_ne hne more
    have hfind : findJSONEnd (fromBrace (buf ++ more)) = some e := by
      rw [hfrom]
      exact BraceScan.find_append he more
    rw [Cutter.parse_item (bedrockCut_of_find hfind), hfrom,
      take_append_of_le_length (by omega), drop_append_of_le_length (by omega)]
  · intro buf keep hcut more
    rcases bedrockCut_wait hcut with ⟨hnil, rfl⟩ | rfl
    · exact parseBedrock_skip hnil more
    · rfl

/-! ## The sizes of the reads -/

inductive Reader where
  | azure
  | mistral
  | grok
  | cohere
  | bedrock
  deriving DecidableEq, Repr

namespace Reader

variable (toLower : String → String)

def cutter : Reader → Cutter UInt8 StreamChunk
  | azure => processSSELines
  | mistral => parseMistralLines
  | grok => parseGrokLines
  | cohere => parseCohereLines toLower
  | bedrock => parseBedrockStreamChunks

/-- The goroutines of the five adapters: what is sent for a body that the reads return in these
pieces. -/
def stream (r : Reader) (reads : List Bytes) : List StreamChunk :=
  (r.cutter toLower).readAll [] reads

theorem resumes (r : Reader) : (r.cutter toLower).Resumes := by
  cases r with
  | azure => exact processSSELines_resumes
  | mistral | grok | cohere => exact Cutter.lines_resumes _ _
  | bedrock => exact parseBedrock_resumes

theorem stream_eq (r : Reader) (reads : List Bytes) :
    r.stream toLower reads = ((r.cutter toLower).parse reads.flatten).1 := by
  have hidle : ((r.cutter toLower).parse []).1 = [] := by cases r <;> rfl
  rw [stream, (r.resumes toLower).readAll_eq hidle, nil_append]

end Reader

/-- **Split invariance.** The chunks sent for a body do not depend on how the reads cut it. -/
theorem split_invariant (toLower : String → String) (r : Reader) (reads : List Bytes) :
    r.stream toLower reads = r.stream toLower [reads.flatten] := by
  rw [Reader.stream_eq, Reader.stream_eq, flatten_singleton]

end LlmRouter.Streams
