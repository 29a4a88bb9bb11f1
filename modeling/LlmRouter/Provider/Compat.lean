import LlmRouter.Provider.LineReaders

/-!
# LlmRouter — the readers of OpenAI-compatible streams

openai reads its stream with `ParseSSE`; azure, mistral and grok read line by line and take only
lines that start with `data: `. A `CompatStream` is an event stream whose events are chunks, up to
`[DONE]`, with comments and other fields anywhere.
-/

namespace LlmRouter.Streams

open Lib Lib.Json Gateway Proxy Utf8 List

/-! ## Event streams -/

structure Line where
  text : Bytes
  crlf : Bool
  oneLine : OneLine text
  ne : text ≠ []

def lineEnd (crlf : Bool) : Bytes := if crlf then [carriageReturn] else []

structure Block where
  lines : List Line
  crlf : Bool

namespace Line

def raw (l : Line) : Bytes := l.text ++ lineEnd l.crlf

def value? (l : Line) : Option Bytes := (l.text.dropPrefix? (bytes "data:")).map dataValue

def Spaced (l : Line) : Prop := bytes "data: " <+: l.text

end Line

namespace Block

def bytes (b : Block) : Bytes :=
  b.lines.flatMap (fun l => l.raw ++ [newline]) ++ (lineEnd b.crlf ++ [newline])

def values (b : Block) : List Bytes := b.lines.filterMap Line.value?

def data (b : Block) : Bytes := [newline].intercalate b.values

/-- The chunk stands on one line, which starts with `data: `; other data lines are
blank. -/
def Plain (b : Block) : Prop :=
  b.values = [] ∨ ∃ before l after, b.lines = before ++ l :: after ∧ l.Spaced ∧
    ∀ l' ∈ before ++ after, ∀ v ∈ l'.value?, Blank v

def NoStray (b : Block) : Prop :=
  (∃ before l after v, b.lines = before ++ l :: after ∧ l.value? = some v ∧
    ∀ l' ∈ before ++ after, ∀ v ∈ l'.value?, Blank v) ∨
  ∀ v ∈ b.values, unmarshal (Encoding.decodeStruct compatChunk) v = none

end Block

structure CompatStream where
  blocks : List Block
  last : Block
  chunks : ∀ b ∈ blocks, b.values ≠ [] →
    (unmarshal (Encoding.decodeStruct openAIChunk) b.data).isSome
  done : last.values = [bytes "[DONE]"]

namespace CompatStream

def bytes (s : CompatStream) : Bytes := s.blocks.flatMap Block.bytes ++ s.last.bytes

/-- All lines before the last event fit into the buffer of `ParseSSE`. -/
def Short (s : CompatStream) : Prop :=
  ∀ b ∈ s.blocks, ∀ l ∈ b.lines, l.raw.length < maxTokenSize

def Agree (s : CompatStream) (errorText : Bytes → String) (toLower : String → String) : Prop :=
  ∀ r ∈ [Reader.azure, .mistral, .grok], ∀ reads : List Bytes, reads.flatten = s.bytes →
    r.stream toLower reads = SseAdapter.stream .openai errorText ⟨s.bytes, false⟩

end CompatStream

/-! ## Line by line -/

theorem newline_not_mem_lineEnd (crlf : Bool) : newline ∉ lineEnd crlf := by
  cases crlf <;> decide

theorem blank_lineEnd (crlf : Bool) : Blank (lineEnd crlf) := by
  cases crlf <;> decide

namespace Line

variable (l : Line)

theorem newline_not_mem_raw : newline ∉ l.raw := by
  rw [raw, mem_append, not_or]
  exact ⟨l.oneLine.newline, newline_not_mem_lineEnd _⟩

theorem dropCR_raw : dropCR l.raw = l.text := by
  rw [raw]
  cases l.crlf with
  | false =>
    show dropCR (l.text ++ []) = l.text
    rw [append_nil, dropCR_of_not_mem l.oneLine.carriageReturn]
  | true => exact dropCR_concat l.text

theorem trimCR_raw : trimCR l.raw = l.text := by
  have htext : trimCR l.text = l.text := by
    rw [trimCR, rdropWhile_eq_self_iff]
    intro hne hlast
    exact l.oneLine.carriageReturn (beq_iff_eq.mp hlast ▸ getLast_mem hne)
  rw [raw]
  cases l.crlf with
  | false =>
    show trimCR (l.text ++ []) = l.text
    rw [append_nil, htext]
  | true =>
    show trimCR (l.text ++ [carriageReturn]) = l.text
    rw [trimCR, rdropWhile_concat, if_pos (beq_self_eq_true _)]
    exact htext

theorem value?_of_spaced {v : Bytes} (h : l.text = Utf8.bytes "data: " ++ v) :
    l.value? = some v := by
  have hdrop : l.text.dropPrefix? (Utf8.bytes "data:") = some (32 :: v) := by
    refine dropPrefix?_eq_some_iff.mpr ⟨Utf8.bytes "data:", ?_, beq_self_eq_true _⟩
    rw [h, bytes_data_space, append_assoc]
    rfl
  rw [value?, hdrop]
  rfl

end Line

theorem dataChunks_spaced (v : Bytes) :
    dataChunks (bytes "data: " ++ v) =
      (unmarshal (Encoding.decodeStruct compatChunk) v).toList := by
  have hdrop : (bytes "data: " ++ v).dropPrefix? (bytes "data: ") = some v :=
    dropPrefix?_eq_some_iff.mpr ⟨bytes "data: ", rfl, beq_self_eq_true _⟩
  have hne : bytes "data: " ++ v ≠ [] := by
    rw [bytes_data_space, bytes_data]
    exact cons_ne_nil _ _
  rw [dataChunks]
  split
  case isTrue h =>
    have hv : bytes "data: " ++ v = bytes "data: " ++ bytes "[DONE]" :=
      (h.resolve_left hne).trans (by decide)
    rw [append_cancel_left hv]
    decide
  case isFalse => rw [hdrop]

theorem dataChunks_not_spaced {line : Bytes} (h : ¬ bytes "data: " <+: line) :
    dataChunks line = [] := by
  have hdrop : line.dropPrefix? (bytes "data: ") = none := by
    cases hdrop : line.dropPrefix? (bytes "data: ") with
    | none => rfl
    | some v =>
      obtain ⟨p, rfl, hp⟩ := dropPrefix?_eq_some_iff.mp hdrop
      exact absurd ⟨v, by rw [beq_iff_eq.mp hp]⟩ h
  rw [dataChunks, hdrop]
  exact ite_self _

/-- A `\r` that azure leaves in the line makes no difference. -/
theorem dataChunks_raw (l : Line) : dataChunks l.raw = dataChunks l.text := by
  rw [Line.raw]
  cases l.crlf with
  | false =>
    show dataChunks (l.text ++ []) = _
    rw [append_nil]
  | true =>
    show dataChunks (l.text ++ [carriageReturn]) = _
    by_cases hspaced : l.Spaced
    · obtain ⟨v, hv⟩ := hspaced
      have hblank := unmarshal_blanks (Encoding.decodeStruct compatChunk) (l := []) (by decide)
        (blank_lineEnd true) v
      rw [← hv, append_assoc, dataChunks_spaced, dataChunks_spaced, ← hblank]
      rfl
    · rw [dataChunks_not_spaced hspaced, dataChunks_not_spaced]
      rintro ⟨v, hv⟩
      exact hspaced (prefix_of_append_cons (by decide) hv)

/-- What the readers that go line by line do with a line: azure takes it as it is,
the others without `\r`. -/
def Reader.lineChunks (r : Reader) (line : Bytes) : List StreamChunk :=
  if r = .azure then dataChunks line else dataChunks (trimCR line)

namespace Reader

theorem stream_lines {r : Reader} (hr : r ∈ [Reader.azure, .mistral, .grok])
    (toLower : String → String) (reads : List Bytes) :
    r.stream toLower reads = ((Cutter.lines newline r.lineChunks).parse reads.flatten).1 := by
  rw [stream_eq]
  simp only [mem_cons, not_mem_nil, or_false] at hr
  rcases hr with rfl | rfl | rfl
  · exact processSSELines_eq reads.flatten
  · rfl
  · rfl

variable (r : Reader)

theorem lineChunks_raw (l : Line) : r.lineChunks l.raw = dataChunks l.text := by
  rw [lineChunks]
  split
  · exact dataChunks_raw l
  · rw [l.trimCR_raw]

theorem lineChunks_lineEnd (crlf : Bool) : r.lineChunks (lineEnd crlf) = [] := by
  rw [lineChunks]
  split <;> cases crlf <;> decide

theorem parse_block (b : Block) (rest : Bytes) :
    ((Cutter.lines newline r.lineChunks).parse (b.bytes ++ rest)).1 =
      b.lines.flatMap (fun l => dataChunks l.text) ++
        ((Cutter.lines newline r.lineChunks).parse rest).1 := by
  have hlines : ∀ (ls : List Line) (rest : Bytes),
      ((Cutter.lines newline r.lineChunks).parse
        (ls.flatMap (fun l => l.raw ++ [newline]) ++ rest)).1 =
        ls.flatMap (fun l => dataChunks l.text) ++
          ((Cutter.lines newline r.lineChunks).parse rest).1 := by
    intro ls rest
    induction ls with
    | nil => rfl
    | cons l ls ih =>
      rw [flatMap_cons, append_assoc, append_assoc, singleton_append,
        Cutter.lines_parse_line l.newline_not_mem_raw, ih, lineChunks_raw, flatMap_cons,
        append_assoc]
  rw [Block.bytes, append_assoc, hlines, append_assoc, singleton_append,
    Cutter.lines_parse_line (newline_not_mem_lineEnd _), lineChunks_lineEnd, nil_append]

end Reader

/-! ## Event by event -/

section Events

variable {limit : Nat}

theorem field_dataLines (p : Pending) (l : Line) :
    (p.field l.text).dataLines = p.dataLines ++ l.value?.toList := by
  rw [Pending.field, Line.value?]
  cases l.text.dropPrefix? (bytes "data:") with
  | some v => rfl
  | none =>
    rw [Option.map_none, Option.toList_none, append_nil]
    cases l.text.dropPrefix? (bytes "event:") with
    | some v => rfl
    | none => cases l.text.dropPrefix? (bytes "id:") <;> rfl

theorem parseLines_lines {ls : List Line} (hfits : ∀ l ∈ ls, l.raw.length < limit) (p : Pending)
    (rest : Bytes) :
    parseLines p (scanLines limit [] (ls.flatMap (fun l => l.raw ++ [newline]) ++ rest)) =
      parseLines (ls.foldl (fun p l => p.field l.text) p) (scanLines limit [] rest) := by
  induction ls generalizing p with
  | nil => rfl
  | cons l ls ih =>
    rw [forall_mem_cons] at hfits
    rw [flatMap_cons, append_assoc, append_assoc, singleton_append,
      events_line l.newline_not_mem_raw hfits.1, l.dropCR_raw, if_neg l.ne, ih hfits.2,
      foldl_cons]

theorem parseLines_tooLong (hlimit : 0 < limit) {ls : List Line}
    (hlong : ¬ ∀ l ∈ ls, l.raw.length < limit) (p : Pending) (rest : Bytes) :
    parseLines p (scanLines limit [] (ls.flatMap (fun l => l.raw ++ [newline]) ++ rest)) = [] := by
  induction ls generalizing p with
  | nil => exact absurd (fun l hl => nomatch hl) hlong
  | cons l ls ih =>
    rw [flatMap_cons, append_assoc, append_assoc]
    by_cases hl : l.raw.length < limit
    · rw [forall_mem_cons, not_and] at hlong
      rw [singleton_append, events_line l.newline_not_mem_raw hl, l.dropCR_raw, if_neg l.ne,
        ih (hlong hl)]
    · rw [scanLines_tooLong l.newline_not_mem_raw hlimit (by simpa using hl)]
      rfl

theorem dataLines_foldl (ls : List Line) (p : Pending) :
    (ls.foldl (fun p l => p.field l.text) p).dataLines =
      p.dataLines ++ ls.filterMap Line.value? := by
  induction ls generalizing p with
  | nil => rw [foldl_nil, filterMap_nil, append_nil]
  | cons l ls ih =>
    rw [foldl_cons, ih, field_dataLines, append_assoc, filterMap_cons]
    cases l.value? <;> rfl

theorem events_block {b : Block} (hfits : ∀ l ∈ b.lines, l.raw.length < limit) (hlimit : 1 < limit)
    (rest : Bytes) :
    ∃ p : Pending, p.dataLines = b.values ∧
      events limit (b.bytes ++ rest) = p.dispatch ++ events limit rest := by
  refine ⟨b.lines.foldl (fun p l => p.field l.text) {}, dataLines_foldl _ _, ?_⟩
  have hblank : dropCR (lineEnd b.crlf) = [] := by cases b.crlf <;> rfl
  have hshort : (lineEnd b.crlf).length < limit := by
    cases b.crlf with
    | false => exact Nat.lt_of_lt_of_le Nat.zero_lt_one (Nat.le_of_lt hlimit)
    | true => exact hlimit
  rw [events, Block.bytes, append_assoc, parseLines_lines hfits, append_assoc,
    singleton_append, events_line (newline_not_mem_lineEnd _) hshort, if_pos hblank]

end Events

def Block.eventChunks (b : Block) : List StreamChunk :=
  if b.values = [] then []
  else (unmarshal (Encoding.decodeStruct openAIChunk) b.data).toList

def Block.lineChunks (b : Block) : List StreamChunk := b.lines.flatMap fun l => dataChunks l.text

section OpenAI

variable {errorText : Bytes → String}

theorem openAI_block {b : Block} (hfits : ∀ l ∈ b.lines, l.raw.length < maxTokenSize)
    (hchunk : b.values ≠ [] → (unmarshal (Encoding.decodeStruct openAIChunk) b.data).isSome)
    (rest : Bytes) :
    OpenAI.chunks errorText (parseSSE (b.bytes ++ rest)) =
      b.eventChunks ++ OpenAI.chunks errorText (parseSSE rest) := by
  obtain ⟨p, hp, hevents⟩ := events_block hfits (by decide) rest
  rw [parseSSE, hevents, Block.eventChunks, Pending.dispatch, hp]
  split
  case isTrue => rfl
  case isFalse hne =>
    obtain ⟨chunk, hdata⟩ := Option.isSome_iff_exists.mp (hchunk hne)
    have hdone : b.data ≠ bytes "[DONE]" := by
      intro h
      rw [h, show unmarshal (Encoding.decodeStruct openAIChunk) (bytes "[DONE]") = none by decide]
        at hdata
      cases hdata
    rw [singleton_append, OpenAI.chunks, ← Block.data, if_neg hdone, hdata]
    rfl

theorem openAI_last {b : Block} (hdone : b.values = [bytes "[DONE]"]) :
    OpenAI.chunks errorText (parseSSE b.bytes) = [] := by
  by_cases hfits : ∀ l ∈ b.lines, l.raw.length < maxTokenSize
  · obtain ⟨p, hp, hevents⟩ := events_block hfits (by decide) []
    rw [append_nil] at hevents
    rw [parseSSE, hevents, Pending.dispatch, hp, hdone]
    rfl
  · rw [parseSSE, events, Block.bytes, parseLines_tooLong (by decide) hfits]
    rfl

theorem CompatStream.openAI_stream (s : CompatStream) (hshort : s.Short) :
    SseAdapter.stream .openai errorText ⟨s.bytes, false⟩ = s.blocks.flatMap Block.eventChunks := by
  have hblocks : ∀ bs : List Block, (∀ b ∈ bs, b ∈ s.blocks) →
      OpenAI.chunks errorText (parseSSE (bs.flatMap Block.bytes ++ s.last.bytes)) =
        bs.flatMap Block.eventChunks := by
    intro bs hbs
    induction bs with
    | nil => exact openAI_last s.done
    | cons b bs ih =>
      rw [forall_mem_cons] at hbs
      rw [flatMap_cons, append_assoc, openAI_block (hshort b hbs.1) (s.chunks b hbs.1),
        ih hbs.2, flatMap_cons]
  exact hblocks s.blocks fun _ hb => hb

end OpenAI

theorem dataChunks_eq_nil {l : Line}
    (h : ∀ v ∈ l.value?, l.Spaced → unmarshal (Encoding.decodeStruct compatChunk) v = none) :
    dataChunks l.text = [] := by
  by_cases hspaced : l.Spaced
  · obtain ⟨v, hv⟩ := hspaced
    rw [← hv, dataChunks_spaced, h v (l.value?_of_spaced hv.symm) ⟨v, hv⟩]
    rfl
  · exact dataChunks_not_spaced hspaced

theorem Block.mem_values {b : Block} {l : Line} (hl : l ∈ b.lines) {v : Bytes}
    (hv : v ∈ l.value?) : v ∈ b.values :=
  mem_filterMap.mpr ⟨l, hl, hv⟩

theorem CompatStream.reader_stream (s : CompatStream) {r : Reader}
    (hr : r ∈ [Reader.azure, .mistral, .grok]) (toLower : String → String) {reads : List Bytes}
    (hreads : reads.flatten = s.bytes) :
    r.stream toLower reads = s.blocks.flatMap Block.lineChunks := by
  have hlast : s.last.lineChunks = [] := by
    rw [Block.lineChunks, flatMap_eq_nil_iff]
    intro l hl
    refine dataChunks_eq_nil fun v hv _ => ?_
    have hmem := Block.mem_values hl hv
    rw [s.done, mem_singleton] at hmem
    rw [hmem]
    decide
  have hblocks : ∀ bs : List Block,
      ((Cutter.lines newline r.lineChunks).parse (bs.flatMap Block.bytes ++ s.last.bytes)).1 =
        bs.flatMap Block.lineChunks := by
    intro bs
    induction bs with
    | nil =>
      rw [flatMap_nil, nil_append, ← append_nil s.last.bytes, r.parse_block,
        Cutter.lines_parse_nil, append_nil]
      exact hlast
    | cons b bs ih =>
      rw [flatMap_cons, append_assoc, r.parse_block, ih, flatMap_cons]
      rfl
  rw [Reader.stream_lines hr, hreads]
  exact hblocks s.blocks

/-! ## Agreement -/

/-- What openai decodes, the others decode alike; they do not look at the `id`. -/
theorem compatChunk_of_openAIChunk {data : Bytes} {chunk : StreamChunk}
    (h : unmarshal (Encoding.decodeStruct openAIChunk) data = some chunk) :
    unmarshal (Encoding.decodeStruct compatChunk) data = some chunk := by
  have hfields : ∀ fs, openAIChunk fs = some chunk → compatChunk fs = some chunk := by
    intro fs hfs
    obtain ⟨_, -, hfs⟩ := Option.bind_eq_some_iff.mp hfs
    exact hfs
  obtain ⟨v, hv, hchunk⟩ := Option.bind_eq_some_iff.mp h
  rw [unmarshal, hv, Option.bind_some]
  cases v with
  | null => exact hfields [] hchunk
  | obj fs => exact hfields fs hchunk
  | bool _ | num _ | str _ | arr _ => cases hchunk

theorem intercalate_blanks {before after : List Bytes} (v : Bytes)
    (hbefore : ∀ w ∈ before, Blank w) (hafter : ∀ w ∈ after, Blank w) :
    ∃ l r, Blank l ∧ Blank r ∧ [newline].intercalate (before ++ v :: after) = l ++ (v ++ r) := by
  have hnewline : Blank [newline] := by decide
  have happend : ∀ {a b : Bytes}, Blank a → Blank b → Blank (a ++ b) := fun ha hb x hx =>
    (mem_append.mp hx).elim (ha x) (hb x)
  induction before with
  | nil =>
    induction after generalizing v with
    | nil => exact ⟨[], [], by decide, by decide, by simp⟩
    | cons w after ih =>
      rw [forall_mem_cons] at hafter
      obtain ⟨l, r, hl, hr, heq⟩ := ih w hafter.2
      refine ⟨[], [newline] ++ (l ++ (w ++ r)), by decide, ?_, ?_⟩
      · exact happend hnewline (happend hl (happend hafter.1 hr))
      · rw [nil_append] at heq ⊢
        rw [intercalate_cons_cons, heq]
        simp
  | cons w before ih =>
    rw [forall_mem_cons] at hbefore
    obtain ⟨l, r, hl, hr, heq⟩ := ih hbefore.2
    refine ⟨w ++ [newline] ++ l, r, happend (happend hbefore.1 hnewline) hl, hr, ?_⟩
    rw [cons_append, intercalate_cons_of_ne_nil (by simp), heq]
    simp

namespace Block

variable {b : Block}

theorem lineChunks_blanks {ls : List Line} (h : ∀ l ∈ ls, ∀ v ∈ l.value?, Blank v) :
    ls.flatMap (fun l => dataChunks l.text) = [] := by
  rw [flatMap_eq_nil_iff]
  intro l hl
  exact dataChunks_eq_nil fun v hv _ => unmarshal_blank _ (h l hl v hv)

theorem lineChunks_of_plain (hplain : b.Plain)
    (hchunk : b.values ≠ [] → (unmarshal (Encoding.decodeStruct openAIChunk) b.data).isSome) :
    b.lineChunks = b.eventChunks := by
  rcases hplain with hnil | ⟨before, l, after, hlines, ⟨v, hv⟩, hblank⟩
  · rw [eventChunks, if_pos hnil, lineChunks, flatMap_eq_nil_iff]
    intro l hl
    refine dataChunks_eq_nil fun v hv _ => ?_
    have hmem := mem_values hl hv
    rw [hnil] at hmem
    cases hmem
  · rw [forall_mem_append] at hblank
    have hvalue := l.value?_of_spaced hv.symm
    have hvalues : b.values =
        before.filterMap Line.value? ++ v :: after.filterMap Line.value? := by
      rw [values, hlines, filterMap_append, filterMap_cons_some hvalue]
    have hmap : ∀ {ls : List Line}, (∀ l ∈ ls, ∀ v ∈ l.value?, Blank v) →
        ∀ w ∈ ls.filterMap Line.value?, Blank w := by
      intro ls hls w hw
      obtain ⟨l, hl, hlw⟩ := mem_filterMap.mp hw
      exact hls l hl w hlw
    have hne : b.values ≠ [] := by rw [hvalues]; simp
    obtain ⟨chunk, hdata⟩ := Option.isSome_iff_exists.mp (hchunk hne)
    obtain ⟨left, right, hleft, hright, hjoin⟩ :=
      intercalate_blanks v (hmap hblank.1) (hmap hblank.2)
    have hline : unmarshal (Encoding.decodeStruct compatChunk) v = some chunk := by
      rw [← unmarshal_blanks _ hleft hright, ← hjoin, ← hvalues]
      exact compatChunk_of_openAIChunk hdata
    rw [eventChunks, if_neg hne, hdata, lineChunks, hlines, flatMap_append,
      flatMap_cons, lineChunks_blanks hblank.1, lineChunks_blanks hblank.2, ← hv,
      dataChunks_spaced, hline]
    rfl

theorem plain_or_lineChunks (hstray : b.NoStray) : b.Plain ∨ b.lineChunks = [] := by
  rcases hstray with ⟨before, l, after, v, hlines, -, hblank⟩ | hnone
  · by_cases hspaced : l.Spaced
    · exact .inl (.inr ⟨before, l, after, hlines, hspaced, hblank⟩)
    · rw [forall_mem_append] at hblank
      right
      rw [lineChunks, hlines, flatMap_append, flatMap_cons, lineChunks_blanks hblank.1,
        lineChunks_blanks hblank.2, dataChunks_not_spaced hspaced]
      rfl
  · right
    rw [lineChunks, flatMap_eq_nil_iff]
    intro l hl
    exact dataChunks_eq_nil fun v hv _ => hnone v (mem_values hl hv)

end Block

/-- **Agreement of the OpenAI-compatible readers.** The four readers send the same chunks if the
lines fit into the buffer of `ParseSSE` and each chunk stands on one line that starts with `data: `.
For streams whose lines fit, in which no part of a chunk on several lines is a chunk, they agree
only then. -/
theorem compat_readers_agree (s : CompatStream) (errorText : Bytes → String)
    (toLower : String → String) (hshort : s.Short) :
    ((∀ b ∈ s.blocks, b.Plain) → s.Agree errorText toLower) ∧
      ((∀ b ∈ s.blocks, b.NoStray) → s.Agree errorText toLower → ∀ b ∈ s.blocks, b.Plain) := by
  constructor
  · intro hplain r hr reads hreads
    rw [s.reader_stream hr toLower hreads, s.openAI_stream hshort]
    exact flatMap_congr fun b hb => Block.lineChunks_of_plain (hplain b hb) (s.chunks b hb)
  · intro hstray hagree
    have heq := hagree .mistral (by decide) [s.bytes] (flatten_singleton ..)
    rw [s.reader_stream (by decide) toLower (flatten_singleton ..), s.openAI_stream hshort] at heq
    -- line by line, a block sends what its event is, or nothing
    have hdrop : ∀ b ∈ s.blocks,
        b.lineChunks = if b.lineChunks.isEmpty then [] else b.eventChunks := by
      intro b hb
      rcases Block.plain_or_lineChunks (hstray b hb) with hplain | hnil
      · have hline := Block.lineChunks_of_plain hplain (s.chunks b hb)
        cases hchunks : b.lineChunks with
        | nil => rfl
        | cons c cs => rw [← hline, hchunks]; rfl
      · rw [hnil]
        rfl
    rw [flatMap_congr hdrop] at heq
    intro b hb
    rcases Block.plain_or_lineChunks (hstray b hb) with hplain | hnil
    · exact hplain
    · have hevent : b.eventChunks = [] := flatMap_drop_iff.mp heq b hb (by rw [hnil]; rfl)
      by_cases hvalues : b.values = []
      · exact .inl hvalues
      · obtain ⟨chunk, hdata⟩ := Option.isSome_iff_exists.mp (s.chunks b hb hvalues)
        rw [Block.eventChunks, if_neg hvalues, hdata] at hevent
        cases hevent

/-- A comment, a chunk after `data:`, with or without the space, and `[DONE]`; the
line ends are mixed. -/
def sampleStream (space : Bool) : CompatStream where
  blocks :=
    [{ lines :=
        [⟨bytes ": hi", true, ⟨by decide, by decide⟩, by decide⟩,
          ⟨bytes (if space then "data: " else "data:") ++ marshal (contentChunk "Hel"), false,
            by cases space <;> exact ⟨by decide, by decide⟩, by cases space <;> decide⟩]
       crlf := true }]
  last :=
    { lines := [⟨bytes "data: [DONE]", true, ⟨by decide, by decide⟩, by decide⟩], crlf := true }
  chunks := by
    intro b hb _
    rw [mem_singleton.mp hb, Option.isSome_iff_exists]
    refine ⟨_, Eq.trans (congrArg _ ?_) unmarshal_contentChunk⟩
    cases space <;> decide
  done := by decide

theorem sampleStream_short (space : Bool) : (sampleStream space).Short := by
  intro b hb
  rw [mem_singleton.mp hb]
  cases space <;> decide

theorem compat_readers_agree_sample :
    (sampleStream true).Short ∧ (sampleStream true).Agree (fun _ => "") id := by
  refine ⟨sampleStream_short true,
    (compat_readers_agree (sampleStream true) _ _ (sampleStream_short true)).1 ?_⟩
  intro b hb
  rw [mem_singleton.mp hb]
  exact .inr ⟨[_], _, [], rfl, ⟨_, rfl⟩, by decide⟩

theorem unspaced_chunk_is_lost :
    SseAdapter.stream .openai (fun _ => "") ⟨(sampleStream false).bytes, false⟩ =
        [{ delta := "Hel" }] ∧
      ∀ r ∈ [Reader.azure, .mistral, .grok], r.stream id [(sampleStream false).bytes] = [] := by
  constructor
  · rw [CompatStream.openAI_stream _ (sampleStream_short false)]
    show Block.eventChunks _ ++ [] = _
    rw [append_nil, Block.eventChunks, if_neg (by decide)]
    refine congrArg Option.toList (Eq.trans (congrArg _ ?_) unmarshal_contentChunk)
    decide
  · intro r hr
    rw [CompatStream.reader_stream (sampleStream false) hr id (flatten_singleton ..)]
    decide

end LlmRouter.Streams
