import LlmRouter.Gateway.Sse
import LlmRouter.Lib.EventStream
import LlmRouter.Lib.Text

/-!
# LlmRouter — ParseSSE and the event stream standard

`ParseSSE` scans lines of bytes and keeps a list of data lines; the standard decodes the stream
first and keeps a buffer of text. `Agrees` relates the two; one line keeps it, and an empty line
dispatches the same data.
-/

namespace LlmRouter.Proxy

open Lib Lib.EventStream Utf8 List

def colon : UInt8 := 58

/-! ## Streams -/

def NoLoneCR (stream : Bytes) : Prop :=
  ∀ i < stream.length, stream[i]? = some carriageReturn → stream[i + 1]? = some newline

instance (stream : Bytes) : Decidable (NoLoneCR stream) := Nat.decidableBallLT ..

theorem noLoneCR_iff {stream : Bytes} : NoLoneCR stream ↔
    ∀ before after, stream = before ++ carriageReturn :: after → after.head? = some newline := by
  constructor
  · rintro h before after rfl
    have hnext := h before.length (by simp) (by simp)
    rwa [getElem?_append_right (by omega), Nat.add_sub_cancel_left, getElem?_cons_succ,
      ← head?_eq_getElem?] at hnext
  · intro h i hi hcr
    have hbyte : stream[i] = carriageReturn := by
      rwa [getElem?_eq_getElem hi, Option.some.injEq] at hcr
    have hsplit : stream = stream.take i ++ carriageReturn :: stream.drop (i + 1) := by
      rw [← hbyte, ← drop_eq_getElem_cons hi, take_append_drop]
    rw [← head?_drop]
    exact h _ _ hsplit

/-- The streams for which the two are compared. A line is counted with the CR of its end. -/
structure WellFormed (limit : Nat) (stream : Bytes) : Prop where
  noLoneCR : NoLoneCR stream
  colons : ∀ line ∈ stream.splitOn newline, dropCR line ≠ [] → colon ∈ line
  fits : ∀ line ∈ stream.splitOn newline, line.length < limit

theorem splitOn_line {line : Bytes} (hline : newline ∉ line) (rest : Bytes) :
    (line ++ newline :: rest).splitOn newline = line :: rest.splitOn newline := by
  have hnone : ∀ b ∈ line, (b == newline) = false := by
    intro b hb
    exact beq_eq_false_iff_ne.mpr fun h => hline (h ▸ hb)
  have hcut := splitOnP_append_cons (p := (· == newline)) line rest (beq_self_eq_true newline)
  rw [splitOn_eq_splitOnP, hcut, splitOnP_eq_singleton hnone, splitOn_eq_splitOnP]
  rfl

theorem NoLoneCR.rest {line rest : Bytes} (h : NoLoneCR (line ++ newline :: rest)) :
    NoLoneCR rest := by
  rw [noLoneCR_iff] at h ⊢
  rintro pre post rfl
  exact h (line ++ newline :: pre) post (by simp)

theorem WellFormed.rest {limit : Nat} {line rest : Bytes} (hline : newline ∉ line)
    (h : WellFormed limit (line ++ newline :: rest)) : WellFormed limit rest := by
  have hmem : ∀ l ∈ rest.splitOn newline, l ∈ (line ++ newline :: rest).splitOn newline := by
    intro l hl
    rw [splitOn_line hline]
    exact mem_cons_of_mem line hl
  exact ⟨h.noLoneCR.rest, fun l hl => h.colons l (hmem l hl), fun l hl => h.fits l (hmem l hl)⟩

theorem NoLoneCR.line {line rest : Bytes} (hline : newline ∉ line)
    (h : NoLoneCR (line ++ newline :: rest)) :
    carriageReturn ∉ line ∨
      ∃ content, line = content ++ [carriageReturn] ∧ carriageReturn ∉ content := by
  by_cases hmem : carriageReturn ∈ line
  · obtain ⟨content, tail, rfl, hcontent⟩ := eq_append_cons_of_mem hmem
    have hnext := noLoneCR_iff.mp h content (tail ++ newline :: rest) (by simp)
    refine .inr ⟨content, ?_, hcontent⟩
    cases tail with
    | nil => rfl
    | cons b tail =>
      obtain rfl : b = newline := Option.some.inj hnext
      exact absurd (by simp) hline
  · exact .inl hmem

theorem scanLines_last {limit : Nat} {text : Bytes} (hnl : newline ∉ text) (cur : Bytes)
    (hfits : cur.length + text.length < limit) :
    scanLines limit cur text = if cur ++ text = [] then [] else [dropCR (cur ++ text)] := by
  induction text generalizing cur with
  | nil => rw [scanLines, append_nil]
  | cons b text ih =>
    rw [mem_cons, not_or] at hnl
    rw [length_cons] at hfits
    rw [scanLines_cons_ne (Ne.symm hnl.1), if_pos (by omega), ih hnl.2 _ (by simp; omega),
      append_assoc]
    rfl

/-! ## The buffer and the data lines -/

section Refinement

variable (dec : TextDecoder)

def Agrees (p : Pending) (b : Buffers) : Prop :=
  b.data = p.dataLines.flatMap fun line => dec.decode line ++ ['\n']

variable {dec}

theorem decode_newline (before after : Bytes) :
    dec.decode (before ++ newline :: after) = dec.decode before ++ '\n' :: dec.decode after :=
  dec.ascii before (by decide) after

theorem decode_carriageReturn (before after : Bytes) :
    dec.decode (before ++ carriageReturn :: after) =
      dec.decode before ++ '\r' :: dec.decode after :=
  dec.ascii before (by decide) after

theorem decode_colon (before after : Bytes) :
    dec.decode (before ++ colon :: after) = dec.decode before ++ ':' :: dec.decode after :=
  dec.ascii before (by decide) after

theorem decode_intercalate (line : Bytes) (lines : List Bytes) :
    dec.decode ([newline].intercalate (line :: lines)) ++ ['\n'] =
      (line :: lines).flatMap fun line => dec.decode line ++ ['\n'] := by
  induction lines generalizing line with
  | nil => simp
  | cons next lines ih =>
    have hjoin : [newline].intercalate (line :: next :: lines) =
        line ++ newline :: [newline].intercalate (next :: lines) := by
      simp [intercalate]
    rw [hjoin, decode_newline, append_assoc, cons_append, ih, flatMap_cons]
    simp

/-- **An empty line** dispatches the same data. -/
theorem Agrees.dispatch {p : Pending} {b : Buffers} (h : Agrees dec p b) :
    p.dispatch.map (fun e => dec.decode e.data) =
      (EventStream.dispatch b).map MessageEvent.data := by
  rw [Pending.dispatch, EventStream.dispatch, h]
  cases hlines : p.dataLines with
  | nil => rfl
  | cons line lines =>
    rw [if_neg (cons_ne_nil _ _), ← decode_intercalate,
      if_neg (append_ne_nil_of_right_ne_nil _ (cons_ne_nil _ _)),
      getLast?_concat, if_pos rfl, dropLast_concat]
    rfl

theorem decode_dataValue (v : Bytes) :
    dec.decode (dataValue v) = fieldValue (dec.decode v) := by
  have hspace : ∀ rest, dec.decode (32 :: rest) = ' ' :: dec.decode rest := fun rest =>
    dec.decode_cons (by decide) rest
  unfold dataValue
  split
  · rw [hspace]
    rfl
  next hne =>
    unfold fieldValue
    split
    next rest hrest =>
      -- a space at the beginning of the text is a byte
      obtain ⟨b, bs, rfl, hb, hb128, -⟩ := dec.decode_eq_cons (by decide) hrest
      have hbyte : b = 32 := by
        apply UInt8.toNat_inj.mp
        rw [← toNat_char hb128, hb]
        rfl
      exact absurd (by rw [hbyte]) (hne bs)
    · rfl

theorem field_dataLines {line : Bytes} (h : line.dropPrefix? (bytes "data:") = none)
    (p : Pending) : (p.field line).dataLines = p.dataLines := by
  rw [Pending.field, h]
  dsimp only
  split
  · rfl
  · split <;> rfl

theorem processField_data {name : List Char} (h : name ≠ "data".toList) (b : Buffers)
    (value : List Char) : (processField b name value).data = b.data := by
  rw [processField, if_neg h]
  split_ifs <;> rfl

theorem dropPrefix?_data_eq_none {name : Bytes} (hcolon : colon ∉ name)
    (hname : name ≠ bytes "data") (value : Bytes) :
    (name ++ colon :: value).dropPrefix? (bytes "data:") = none := by
  rw [Option.eq_none_iff_forall_ne_some]
  intro rest hrest
  obtain ⟨pre, hsplit, hpre⟩ := dropPrefix?_eq_some_iff.mp hrest
  rw [eq_of_beq hpre, show bytes "data:" = bytes "data" ++ [colon] by decide,
    append_assoc] at hsplit
  -- both are cut at the first colon
  have hdata : colon ∉ bytes "data" := by decide
  exact hname (Text.append_cons_inj hcolon hdata hsplit).1

/-- **A line with a colon** keeps the relation. -/
theorem Agrees.line {p : Pending} {b : Buffers} (h : Agrees dec p b) {line : Bytes}
    (hcolon : colon ∈ line) : Agrees dec (p.field line) (processLine b (dec.decode line)) := by
  obtain ⟨name, value, rfl, hname⟩ := eq_append_cons_of_mem hcolon
  rw [decode_colon]
  by_cases hnil : name = []
  · -- a comment
    subst hnil
    rw [dec.nil, nil_append, nil_append, show colon = 58 from rfl,
      Pending.field_comment, processLine_comment]
    exact h
  · have hname' : ':' ∉ dec.decode name := dec.not_mem_decode (by decide) hname
    rw [processLine_field b hname' (dec.decode_ne_nil hnil)]
    by_cases hdata : name = bytes "data"
    · have hdec : dec.decode name = "data".toList := by
        rw [hdata, show bytes "data" = [100, 97, 116, 97] by decide]
        rw [dec.decode_cons (by decide), dec.decode_cons (by decide), dec.decode_cons (by decide),
          dec.decode_cons (by decide), dec.nil]
        rfl
      have hline : name ++ colon :: value = bytes "data:" ++ value := by
        rw [hdata, show bytes "data:" = bytes "data" ++ [colon] by decide, append_assoc]
        rfl
      rw [hline, Pending.field_data, hdec, processField, if_neg (by decide), if_pos rfl, Agrees,
        h, flatMap_append, ← decode_dataValue]
      simp
    · have hascii : ∀ c ∈ ['d', 'a', 't', 'a'], c.toNat < 128 := by simp
      have hdec : dec.decode name ≠ "data".toList := fun heq =>
        hdata (dec.eq_of_decode_eq hascii heq)
      rw [Agrees, processField_data hdec,
        field_dataLines (dropPrefix?_data_eq_none hname hdata value)]
      exact h

/-! ## The run -/

theorem lines_decode {content line : Bytes} (rest : Bytes) (hnl : newline ∉ content)
    (hcr : carriageReturn ∉ content)
    (hline : line = content ∨ line = content ++ [carriageReturn]) :
    lines [] (dec.decode (line ++ newline :: rest)) =
      dec.decode content :: lines [] (dec.decode rest) := by
  have hnl' : '\n' ∉ dec.decode content := dec.not_mem_decode (by decide) hnl
  have hcr' : '\r' ∉ dec.decode content := dec.not_mem_decode (by decide) hcr
  rcases hline with rfl | rfl
  · rw [decode_newline, lines_lf hnl' hcr']
  · have hafter : dec.decode (newline :: rest) = '\n' :: dec.decode rest :=
      dec.decode_cons (by decide) rest
    rw [append_assoc, singleton_append, decode_carriageReturn, hafter, lines_crlf hnl' hcr']

theorem events_agree {limit : Nat} {stream : Bytes} (h : WellFormed limit stream) {p : Pending}
    {b : Buffers} (hagrees : Agrees dec p b) :
    (parseLines p (scanLines limit [] stream)).map (fun e => dec.decode e.data) =
      (interpret b (lines [] (dec.decode stream))).map MessageEvent.data := by
  induction hn : stream.length using Nat.strongRecOn generalizing stream p b with
  | ind n ih =>
    by_cases hmem : newline ∈ stream
    · obtain ⟨line, rest, rfl, hline⟩ := eq_append_cons_of_mem hmem
      have hfits : line.length < limit :=
        h.fits line (by rw [splitOn_line hline]; exact mem_cons_self)
      have hlt : rest.length < n := by
        rw [← hn, length_append, length_cons]
        omega
      -- what the line holds without its line end
      obtain ⟨content, hcontent, hcr, hdrop⟩ : ∃ content,
          (line = content ∨ line = content ++ [carriageReturn]) ∧ carriageReturn ∉ content ∧
            dropCR line = content := by
        rcases h.noLoneCR.line hline with hcr | ⟨content, rfl, hcr⟩
        · exact ⟨line, .inl rfl, hcr, dropCR_of_not_mem hcr⟩
        · exact ⟨content, .inr rfl, hcr, dropCR_concat content⟩
      have hnl : newline ∉ content := by
        rcases hcontent with rfl | rfl
        · exact hline
        · exact fun hmem => hline (mem_append_left _ hmem)
      rw [scanLines_line hline (by simpa using hfits), nil_append, hdrop,
        lines_decode rest hnl hcr hcontent, parseLines, interpret]
      by_cases hempty : content = []
      · rw [if_pos hempty, hempty, dec.nil, if_pos rfl, map_append, map_append, hagrees.dispatch]
        congr 1
        exact ih rest.length hlt (h.rest hline) rfl rfl
      · rw [if_neg hempty, if_neg (dec.decode_ne_nil hempty)]
        have hcolon : colon ∈ content := by
          have hmem := h.colons line (by rw [splitOn_line hline]; exact mem_cons_self)
            (by rw [hdrop]; exact hempty)
          rcases hcontent with rfl | rfl
          · exact hmem
          · rcases mem_append.mp hmem with hmem | hmem
            · exact hmem
            · exact absurd (mem_singleton.mp hmem) (by decide)
        exact ih rest.length hlt (h.rest hline) (hagrees.line hcolon) rfl
    · -- an unterminated last line dispatches nothing
      have hcr : carriageReturn ∉ stream := by
        intro hcr
        obtain ⟨before, after, rfl⟩ := append_of_mem hcr
        have hnext := noLoneCR_iff.mp h.noLoneCR before after rfl
        exact hmem (by simp [mem_of_head? hnext])
      have hsingle : stream.splitOn newline = [stream] := by
        rw [splitOn_eq_splitOnP]
        exact splitOnP_eq_singleton fun b hb => beq_eq_false_iff_ne.mpr fun heq =>
          hmem (heq ▸ hb)
      have hfits : stream.length < limit := h.fits stream (by rw [hsingle]; simp)
      have hnl' : '\n' ∉ dec.decode stream := dec.not_mem_decode (by decide) hmem
      have hcr' : '\r' ∉ dec.decode stream := dec.not_mem_decode (by decide) hcr
      have hnone : lines [] (dec.decode stream) = [] := by
        rw [← append_nil (dec.decode stream), lines_append hnl' hcr', lines]
      rw [hnone, scanLines_last hmem [] (by simpa using hfits), nil_append, dropCR_of_not_mem hcr]
      split_ifs with hempty
      · rfl
      · rw [parseLines, if_neg hempty]
        rfl

end Refinement

/-- **ParseSSE follows the event stream standard.** For a stream without byte order mark and lone
CR, whose lines are empty or have a colon and fit into the buffer, the decoded data of the events of
`ParseSSE` is what the standard dispatches, event by event. -/
theorem parseSSE_standard (dec : TextDecoder) (stream : Bytes)
    (hbom : ¬ [0xEF, 0xBB, 0xBF] <+: stream) (h : WellFormed maxTokenSize stream) :
    (parseSSE stream).map (fun e => dec.decode e.data) =
      (dispatched (dec.decodeStream stream)).map MessageEvent.data := by
  rw [dec.decodeStream_of_not_bom hbom]
  exact events_agree h rfl

/-- Several data lines, an empty one, a comment, other fields, both line ends and an
unterminated last event. -/
def sampleStream : Bytes :=
  bytes "data: a\r\n: note\ndata:\nretry: 5\n\r\nid: 7\n\ndata:  b\nfoo: c\n\ndata: d\n"

theorem sampleStream_standard :
    (parseSSE sampleStream).map (fun e => goDecoder.decode e.data) =
        (dispatched (goDecoder.decodeStream sampleStream)).map MessageEvent.data ∧
      (dispatched (goDecoder.decodeStream sampleStream)).map MessageEvent.data =
        ["a\n".toList, " b".toList] := by
  refine ⟨parseSSE_standard goDecoder sampleStream (by decide) ⟨by decide, ?_, ?_⟩, ?_⟩
  · decide +kernel
  · decide +kernel
  · decide +kernel

end LlmRouter.Proxy
