import LlmRouter.Lib.JsonSpan
import LlmRouter.Mcp.Calls
import LlmRouter.Provider.Compat
import LlmRouter.Provider.EventStream

/-!
# LlmRouter — the event loop of MCP over SSE

`sseLoop` reads server-sent events without `proxy.ParseSSE`. For the loop an event without
`event:` is nothing and not a `message`; it keeps the last data line, trimmed of every Unicode
space; and its buffer has 64 KiB and not 1 MiB. `sse_loop_iff` says when none of this shows.
-/

namespace LlmRouter.Mcp

open Lib Lib.Json Proxy Streams Utf8 List

/-! ## The model -/

def RpcError.into : Into RpcError :=
  intoStruct fun fs e => do
    let code ← field intoInt e.code "code" fs
    let message ← field intoString e.message "message" fs
    return ⟨code, message⟩

def Response.into : Into Response :=
  intoStruct fun fs r => do
    let _ ← field intoString "" "jsonrpc" fs
    let id ← field (intoPtr intoInt 0) r.id "id" fs
    let result ← field intoRaw r.result "result" fs
    let error ← field (intoPtr RpcError.into ⟨0, ""⟩) r.error "error" fs
    return ⟨id, result, error⟩

def response? (data : Bytes) : Option Response :=
  (unmarshal (fun v => Response.into v { id := none }) data).filter fun r => r.id.isSome

inductive SseOut where
  | endpoint (url : Bytes)
  | response (r : Response)
  deriving DecidableEq, Repr

def SseOut.response? : SseOut → Option Response
  | .endpoint _ => none
  | .response r => some r

structure SseVars where
  endpointSent : Bool := false
  eventType : Bytes := []
  data : Bytes := []
  deriving DecidableEq, Repr

def SseVars.dispatch (v : SseVars) : Option SseOut :=
  if v.eventType = bytes "endpoint" then
    if v.endpointSent then none else some (.endpoint v.data)
  else if v.eventType = bytes "message" then (Mcp.response? v.data).map .response
  else none

def SseVars.next (v : SseVars) (line : Bytes) : SseVars :=
  match line.dropPrefix? (bytes "event:") with
  | some x => { v with eventType := trimSpace x }
  | none =>
    match line.dropPrefix? (bytes "data:") with
    | some x => { v with data := trimSpace x }
    | none =>
      if line = [] then
        { endpointSent := v.endpointSent || v.eventType = bytes "endpoint" }
      else v

/-- The loop of `sseLoop` over the lines. The channel for the endpoint has room for the one
that is sent. -/
def sseLines : SseVars → List Bytes → List SseOut
  | _, [] => []
  | v, line :: lines =>
    (if line = [] then v.dispatch else none).toList ++ sseLines (v.next line) lines

/-- `bufio.MaxScanTokenSize`, which `sseLoop` does not change. -/
def defaultTokenSize : Nat := 64 * 1024

def loopLines (stream : Bytes) : List Bytes := scanLines defaultTokenSize [] stream

def parserLines (stream : Bytes) : List Bytes := scanLines maxTokenSize [] stream

def loopResponses (lines : List Bytes) : List Response :=
  (sseLines {} lines).filterMap SseOut.response?

def messageResponse (e : SSEEvent) : Option Response :=
  if e.type = bytes "message" then response? e.data else none

/-- The responses in the events that `ParseSSE` has sent after some lines. -/
def parserResponses (lines : List Bytes) : List Response :=
  (parseLines {} lines).filterMap messageResponse

/-! ## When they agree -/

def joined (p : Pending) : Bytes := [newline].intercalate p.dataLines

def lastLine (p : Pending) : Bytes := p.dataLines.getLastD []

def OnLastLine (p : Pending) : Prop :=
  ∃ before l r, p.dataLines = before ++ [l ++ (trimSpace (lastLine p) ++ r)] ∧
    (∀ v ∈ before, Blank v) ∧ Blank l ∧ Blank r

/-- An event that both read alike: a response only under type `message`, on the last data line. -/
structure Alike (p : Pending) : Prop where
  untyped : p.type = [] → response? (joined p) = none
  message : p.type = bytes "message" → OnLastLine p ∨
    response? (joined p) = none ∧ response? (trimSpace (lastLine p)) = none

def Silent (p : Pending) : Prop :=
  p.type = [] ∨ p.type = bytes "message" → response? (joined p) = none

def pendingAt (lines : List Bytes) : Pending :=
  lines.foldl (fun p line => if line = [] then {} else p.field line) {}

/-! ## Two loops over the same lines -/

structure LineLoop (σ β α : Type) where
  next : σ → β → σ
  out : σ → β → Option α

def LineLoop.sent {σ β α : Type} (l : LineLoop σ β α) : σ → List β → List α
  | _, [] => []
  | s, x :: xs => (l.out s x).toList ++ l.sent (l.next s x) xs

section Loops

variable {σ τ β α : Type} {l : LineLoop σ β α} {l' : LineLoop τ β α}

theorem toList_injective {a b : Option α} (h : a.toList = b.toList) : a = b := by
  rw [← Option.head?_toList (o := a), h, Option.head?_toList]

theorem sent_take_succ (l : LineLoop σ β α) (s : σ) (x : β) (xs : List β) (m k : Nat) :
    l.sent s (((x :: xs).take m).take (k + 1)) =
      (if 0 < m then l.out s x else none).toList ++
        l.sent (l.next s x) ((xs.take (m - 1)).take k) := by
  cases m with
  | zero =>
    rw [take_zero, take_zero, take_nil, take_nil]
    rfl
  | succ m => rfl

theorem sent_eq_iff (xs : List β) (m : Nat) (s : σ) (t : τ) :
    (∀ k, l.sent s ((xs.take m).take k) = l'.sent t (xs.take k)) ↔
      ∀ pre x rest, xs = pre ++ x :: rest →
        (if pre.length < m then l.out (pre.foldl l.next s) x else none) =
          l'.out (pre.foldl l'.next t) x := by
  induction xs generalizing m s t with
  | nil =>
    refine ⟨fun _ pre x rest h => absurd h.symm (by simp), fun _ k => ?_⟩
    rw [take_nil, take_nil]
    rfl
  | cons x xs ih =>
    have hlt : ∀ pre : List β, (x :: pre).length < m ↔ pre.length < m - 1 := by
      intro pre
      rw [length_cons]
      omega
    constructor
    · intro h
      -- the first line, and from it all others
      have hhead : (if 0 < m then l.out s x else none) = l'.out t x := by
        have h1 := h 1
        rw [sent_take_succ, take_zero] at h1
        refine toList_injective ?_
        simpa [LineLoop.sent] using h1
      have htail := (ih (m - 1) (l.next s x) (l'.next t x)).mp fun k => by
        have hk := h (k + 1)
        rw [sent_take_succ, hhead] at hk
        exact append_cancel_left hk
      intro pre y rest hxs
      cases pre with
      | nil =>
        obtain ⟨rfl, -⟩ := cons.inj hxs
        exact hhead
      | cons z pre =>
        obtain ⟨rfl, htl⟩ := cons.inj hxs
        simp only [hlt]
        exact htail pre y rest htl
    · intro h k
      cases k with
      | zero => rfl
      | succ k =>
        have htail := (ih (m - 1) (l.next s x) (l'.next t x)).mpr fun pre y rest hxs => by
          have hpre := h (x :: pre) y rest (by rw [hxs, cons_append])
          simp only [hlt] at hpre
          exact hpre
        have hhead : (if 0 < m then l.out s x else none) = l'.out t x := h [] x xs rfl
        rw [sent_take_succ, hhead, htail]
        rfl

end Loops

def loopMachine : LineLoop SseVars Bytes Response where
  next := SseVars.next
  out v line := if line = [] then v.dispatch.bind SseOut.response? else none

def parserMachine : LineLoop Pending Bytes Response where
  next p line := if line = [] then {} else p.field line
  out p line := if line = [] then (p.dispatch.head?).bind messageResponse else none

theorem loopResponses_eq (v : SseVars) (lines : List Bytes) :
    (sseLines v lines).filterMap SseOut.response? = loopMachine.sent v lines := by
  induction lines generalizing v with
  | nil => rfl
  | cons line lines ih =>
    have hout : (if line = [] then v.dispatch else none).toList.filterMap SseOut.response? =
        (loopMachine.out v line).toList := by
      show _ = (if line = [] then v.dispatch.bind SseOut.response? else none).toList
      split_ifs
      · cases v.dispatch with
        | none => rfl
        | some o => cases o <;> rfl
      · rfl
    rw [sseLines, filterMap_append, ih, hout]
    rfl

theorem parserResponses_eq (p : Pending) (lines : List Bytes) :
    (parseLines p lines).filterMap messageResponse = parserMachine.sent p lines := by
  induction lines generalizing p with
  | nil => rfl
  | cons line lines ih =>
    rw [parseLines, LineLoop.sent]
    show _ = (if line = [] then (p.dispatch.head?).bind messageResponse else none).toList ++
      parserMachine.sent (if line = [] then {} else p.field line) lines
    split_ifs
    · rw [filterMap_append, ih, Pending.dispatch]
      congr 1
      by_cases hnone : p.dataLines = []
      · rw [if_pos hnone]
        rfl
      · rw [if_neg hnone, filterMap_cons, head?_cons, Option.bind_some]
        cases messageResponse _ <;> rfl
    · rw [ih]
      rfl

/-! ## The variables of both -/

theorem trimSpace_dataValue (v : Bytes) : trimSpace (dataValue v) = trimSpace v := by
  unfold dataValue
  split
  next rest =>
    have hspace : spaces.findSome? (32 :: rest : Bytes).dropPrefix? = some rest := by
      have hspaces : spaces = [9] :: [10] :: [11] :: [12] :: [13] :: [32] :: spaces.drop 6 := rfl
      rw [hspaces]
      simp [dropPrefix?]
    rw [trimSpace, trimSpace, length_cons, trimFront, hspace]
  next => rfl

structure Same (v : SseVars) (p : Pending) : Prop where
  type : v.eventType = p.type
  data : v.data = trimSpace (lastLine p)

theorem dropPrefix?_data_of_event {line x : Bytes}
    (h : line.dropPrefix? (bytes "event:") = some x) :
    line.dropPrefix? (bytes "data:") = none := by
  obtain ⟨pre, rfl, hpre⟩ := dropPrefix?_eq_some_iff.mp h
  obtain rfl := eq_of_beq hpre
  rw [bytes_event, bytes_data]
  rfl

variable {p : Pending}

theorem same_next {v : SseVars} (h : Same v p) (line : Bytes) :
    Same (loopMachine.next v line) (parserMachine.next p line) := by
  show Same (v.next line) (if line = [] then {} else p.field line)
  by_cases hline : line = []
  · rw [if_pos hline, hline]
    exact ⟨rfl, rfl⟩
  · rw [if_neg hline, SseVars.next, Pending.field]
    cases hevent : line.dropPrefix? (bytes "event:") with
    | some x =>
      rw [dropPrefix?_data_of_event hevent]
      exact ⟨rfl, h.data⟩
    | none =>
      cases hdata : line.dropPrefix? (bytes "data:") with
      | some x =>
        refine ⟨h.type, ?_⟩
        rw [lastLine, getLastD_concat]
        exact (trimSpace_dataValue x).symm
      | none =>
        show Same (if line = [] then _ else v) _
        rw [if_neg hline]
        cases line.dropPrefix? (bytes "id:") with
        | some x => exact ⟨h.type, h.data⟩
        | none => exact h

theorem same_foldl (lines : List Bytes) :
    Same (lines.foldl loopMachine.next {}) (pendingAt lines) := by
  have hrun : ∀ {v : SseVars} {p : Pending}, Same v p →
      Same (lines.foldl loopMachine.next v) (lines.foldl parserMachine.next p) := by
    induction lines with
    | nil => exact fun h => h
    | cons line lines ih => exact fun h => ih (same_next h line)
  exact hrun ⟨rfl, rfl⟩

/-! ## Trimmed lines -/

theorem trimFront_spec (units : List Bytes) (fuel : Nat) (bs : Bytes) :
    ∃ us : List Bytes, (∀ u ∈ us, u ∈ units) ∧ bs = us.flatten ++ trimFront units fuel bs := by
  induction fuel generalizing bs with
  | zero => exact ⟨[], by simp, rfl⟩
  | succ fuel ih =>
    rw [trimFront]
    cases hfind : units.findSome? bs.dropPrefix? with
    | none => exact ⟨[], by simp, rfl⟩
    | some rest =>
      obtain ⟨u, hu, hdrop⟩ := exists_of_findSome?_eq_some hfind
      obtain ⟨pre, hbs, hpre⟩ := dropPrefix?_eq_some_iff.mp hdrop
      obtain rfl := eq_of_beq hpre
      obtain ⟨us, hus, hrest⟩ := ih rest
      refine ⟨pre :: us, forall_mem_cons.mpr ⟨hu, hus⟩, ?_⟩
      rw [hbs, flatten_cons, append_assoc, ← hrest]

theorem trimSpace_spec (bs : Bytes) :
    ∃ us ws : List Bytes, (∀ u ∈ us, u ∈ spaces) ∧ (∀ w ∈ ws, w ∈ spaces) ∧
      bs = us.flatten ++ (trimSpace bs ++ ws.flatten) := by
  obtain ⟨us, hus, hfront⟩ := trimFront_spec spaces bs.length bs
  set front := trimFront spaces bs.length bs with hdef
  obtain ⟨ws, hws, hback⟩ :=
    trimFront_spec (spaces.map reverse) front.length front.reverse
  refine ⟨us, (ws.map reverse).reverse, hus, fun w hw => ?_, ?_⟩
  · obtain ⟨w', hw', rfl⟩ := mem_map.mp (mem_reverse.mp hw)
    obtain ⟨u, hu, rfl⟩ := mem_map.mp (hws w' hw')
    rwa [reverse_reverse]
  · have htrim : trimSpace bs =
        (trimFront (spaces.map reverse) front.length front.reverse).reverse := rfl
    have hsplit := congrArg reverse hback
    rw [reverse_reverse, reverse_append, ← htrim, reverse_flatten] at hsplit
    rw [← hsplit]
    exact hfront

theorem blank_or_stray : ∀ c ∈ whiteSpace, isBlank c = true ∨ isStray c = true := by
  have hall : (whiteSpace.all fun c => isBlank c || isStray c) = true := by decide
  simpa only [all_eq_true, Bool.or_eq_true] using hall

/-- Spaces are blanks of JSON, or characters that JSON has no use for. -/
theorem flatten_spaces {us : List Bytes} (hus : ∀ u ∈ us, u ∈ spaces) :
    ∃ cs, us.flatten = encode cs ∧ ∀ c ∈ cs, isBlank c = true ∨ isStray c = true := by
  induction us with
  | nil => exact ⟨[], rfl, by simp⟩
  | cons u us ih =>
    rw [forall_mem_cons] at hus
    obtain ⟨cs, hcs, hall⟩ := ih hus.2
    obtain ⟨c, hc, rfl⟩ := mem_map.mp hus.1
    refine ⟨c :: cs, ?_, forall_mem_cons.mpr ⟨blank_or_stray c hc, hall⟩⟩
    rw [flatten_cons, hcs]
    rfl

/-- A JSON text ends with a byte of ASCII, so it may be cut there. -/
theorem decode_append_encode {t : Bytes} {v : Json} (h : parse (decode t) = some v)
    (cs : List Char) : decode (t ++ encode cs) = decode t ++ cs := by
  rcases eq_nil_or_concat' t with rfl | ⟨init, b, rfl⟩
  · cases h
  · by_cases hb : b.toNat < 128
    · rw [append_assoc, singleton_append, decode_append_ascii _ hb,
        decode_append_ascii _ hb, decode_ascii hb, decode_ascii hb, decode_encode, decode_nil]
      simp
    · have hend : (init ++ [b]).getLast? = some b := getLast?_concat
      obtain ⟨c, hlast, hc⟩ := getLast?_decode_other hend (Nat.le_of_not_lt hb)
      obtain ⟨pre, hpre⟩ := getLast?_eq_some_iff.mp hlast
      rw [hpre, parse_concat_other pre hc] at h
      cases h

theorem blank_of_encode {cs : List Char} (h : ∀ c ∈ cs, isBlank c = true) : Blank (encode cs) := by
  apply blank_of_decode
  rwa [decode_encode]

/-! ## The data of an event -/

theorem intercalate_concat {before : List Bytes} (hne : before ≠ []) (last : Bytes) :
    [newline].intercalate (before ++ [last]) =
      [newline].intercalate before ++ newline :: last := by
  induction before with
  | nil => exact absurd rfl hne
  | cons v before ih =>
    rw [cons_append, intercalate_cons_of_ne_nil (by simp)]
    cases before with
    | nil => simp
    | cons w before =>
      rw [ih (by simp), intercalate_cons_cons]
      simp

theorem mem_intercalate {lines : List Bytes} {v : Bytes} (hv : v ∈ lines) {b : UInt8}
    (hb : b ∈ v) : b ∈ [newline].intercalate lines := by
  induction lines with
  | nil => cases hv
  | cons w lines ih =>
    cases lines with
    | nil =>
      obtain rfl := mem_singleton.mp hv
      simpa using hb
    | cons w' lines =>
      rw [intercalate_cons_cons]
      rcases mem_cons.mp hv with rfl | hv
      · exact mem_append_left _ (mem_append_left _ hb)
      · exact mem_append_right _ (ih hv)

theorem parse_of_response {data : Bytes} {r : Response} (h : response? data = some r) :
    ∃ v, parse (decode data) = some v := by
  obtain ⟨hsome, -⟩ := Option.filter_eq_some_iff.mp h
  obtain ⟨v, hv, -⟩ := Option.bind_eq_some_iff.mp hsome
  exact ⟨v, hv⟩

/-- If the data lines together are a response and the last one alone is one, then the last
one is all there is. -/
theorem onLastLine_of_both {r r' : Response} (hall : response? (joined p) = some r)
    (hlast : response? (trimSpace (lastLine p)) = some r') : OnLastLine p := by
  obtain ⟨v, hv⟩ := parse_of_response hall
  obtain ⟨w, hw⟩ := parse_of_response hlast
  rcases eq_nil_or_concat' p.dataLines with hnil | ⟨before, last, hlines⟩
  · rw [joined, hnil] at hv
    cases hv
  · have hlastLine : lastLine p = last := by rw [lastLine, hlines, getLastD_concat]
    rw [hlastLine] at hw
    obtain ⟨us, ws, hus, hws, hsplit⟩ := trimSpace_spec last
    obtain ⟨lcs, hl, hlcs⟩ := flatten_spaces hus
    obtain ⟨rcs, hr, hrcs⟩ := flatten_spaces hws
    rw [hl, hr] at hsplit
    have hdecode : decode last = lcs ++ (decode (trimSpace last) ++ rcs) := by
      conv_lhs => rw [hsplit]
      rw [decode_encode_append, decode_append_encode hw]
    rw [joined, hlines] at hv
    -- the lines before the last, as characters
    obtain ⟨x, hx, hbefore, hxs⟩ : ∃ x : List Char, (x = [] ∨ ∃ q, x = q ++ ['\n']) ∧
        decode ([newline].intercalate (before ++ [last])) = x ++ decode last ∧
        ((∀ c ∈ x, isBlank c = true) → ∀ u ∈ before, Blank u) := by
      by_cases hne : before = []
      · refine ⟨[], .inl rfl, by rw [hne]; simp, fun _ u hu => ?_⟩
        rw [hne] at hu
        cases hu
      · refine ⟨decode ([newline].intercalate before) ++ ['\n'], .inr ⟨_, rfl⟩, ?_, ?_⟩
        · rw [intercalate_concat hne, decode_append_ascii _ (by decide), decode_ascii (by decide)]
          simp [newline]
        · intro hblank u hu b hb
          have hall := blank_of_decode fun c hc => hblank c (mem_append_left _ hc)
          exact hall b (mem_intercalate hu hb)
    rw [hbefore, hdecode] at hv
    obtain ⟨hxblank, hlblank, hrblank⟩ := blanks_around hx hlcs hrcs hv hw
    refine ⟨before, encode lcs, encode rcs, ?_, hxs hxblank, blank_of_encode hlblank,
      blank_of_encode hrblank⟩
    rw [hlastLine, ← hsplit, hlines]

theorem response?_blanks {l r : Bytes} (hl : Blank l) (hr : Blank r) (data : Bytes) :
    response? (l ++ (data ++ r)) = response? data := by
  rw [response?, unmarshal_blanks _ hl hr]
  rfl

theorem OnLastLine.response? (h : OnLastLine p) :
    Mcp.response? (joined p) = Mcp.response? (trimSpace (lastLine p)) := by
  obtain ⟨before, l, r, hlines, hbefore, hl, hr⟩ := h
  obtain ⟨l', r', hl', hr', hjoin⟩ :=
    @intercalate_blanks before [] (l ++ (trimSpace (lastLine p) ++ r)) hbefore (by simp)
  rw [joined, hlines, hjoin, response?_blanks hl' hr', response?_blanks hl hr]

/-! ## The blank line -/

theorem response?_nil : response? [] = none := rfl

theorem parserMachine_out (p : Pending) :
    parserMachine.out p [] =
      if p.type = [] ∨ p.type = bytes "message" then response? (joined p) else none := by
  show (p.dispatch.head?).bind messageResponse = _
  by_cases hdata : p.dataLines = []
  · rw [Pending.dispatch, if_pos hdata, joined, hdata]
    show none = if _ then response? [] else none
    rw [response?_nil, ite_self]
  · rw [Pending.dispatch, if_neg hdata, head?_cons, Option.bind_some, messageResponse]
    by_cases htype : p.type = []
    · rw [if_pos htype, if_pos rfl, if_pos (.inl htype)]
      rfl
    · rw [if_neg htype]
      simp only [htype, false_or]
      rfl

theorem loopMachine_out (v : SseVars) :
    loopMachine.out v [] = if v.eventType = bytes "message" then response? v.data else none := by
  show v.dispatch.bind SseOut.response? = _
  have hne : bytes "message" ≠ bytes "endpoint" := by decide
  by_cases hmessage : v.eventType = bytes "message"
  · rw [SseVars.dispatch, if_neg (hmessage ▸ hne), if_pos hmessage, if_pos hmessage]
    cases response? v.data <;> rfl
  · rw [SseVars.dispatch, if_neg hmessage, if_neg hmessage]
    split_ifs <;> rfl

theorem out_eq_iff {v : SseVars} (h : Same v p) :
    loopMachine.out v [] = parserMachine.out p [] ↔ Alike p := by
  rw [parserMachine_out, loopMachine_out, h.type, h.data]
  by_cases hmessage : p.type = bytes "message"
  · have htyped : p.type ≠ [] := hmessage ▸ by decide
    rw [if_pos hmessage, if_pos (.inr hmessage)]
    constructor
    · intro heq
      refine ⟨fun hnil => absurd hnil htyped, fun _ => ?_⟩
      cases hlast : response? (trimSpace (lastLine p)) with
      | none => exact .inr ⟨by rw [← heq, hlast], rfl⟩
      | some r => exact .inl (onLastLine_of_both (by rw [← heq, hlast]) hlast)
    · intro halike
      rcases halike.message hmessage with hline | ⟨hall, hlast⟩
      · exact hline.response?.symm
      · rw [hall, hlast]
  · rw [if_neg hmessage]
    simp only [hmessage, or_false]
    constructor
    · intro heq
      refine ⟨fun hnil => ?_, fun h => absurd h hmessage⟩
      rw [if_pos hnil] at heq
      exact heq.symm
    · intro halike
      split_ifs with hnil
      · exact (halike.untyped hnil).symm
      · rfl

theorem out_eq_none_iff (p : Pending) : none = parserMachine.out p [] ↔ Silent p := by
  rw [parserMachine_out, Silent]
  split_ifs with htype
  · exact ⟨fun h _ => h.symm, fun h => (h htype).symm⟩
  · exact ⟨fun _ h => absurd h htype, fun _ => rfl⟩

/-! ## Whole streams -/

theorem scanLines_mono {limit limit' : Nat} (hle : limit ≤ limit') (cur bs : Bytes) :
    scanLines limit cur bs <+: scanLines limit' cur bs := by
  induction bs generalizing cur with
  | nil => exact prefix_refl _
  | cons b bs ih =>
    rw [scanLines, scanLines]
    split_ifs with hb hfits hfits'
    · exact prefix_cons_inj _ |>.mpr (ih [])
    · exact ih _
    · exact absurd (Nat.lt_of_lt_of_le hfits hle) hfits'
    · exact nil_prefix
    · exact prefix_refl _

/-- **The two parsers agree on a stream just if every event is read alike**: after every line
`sseLoop` has decoded the responses in the `message` events of `ParseSSE` iff every event before the
first line which is too long for the loop is `Alike`, and every later one is `Silent`. -/
theorem sse_loop_iff (stream : Bytes) :
    (∀ k, loopResponses ((loopLines stream).take k) =
        parserResponses ((parserLines stream).take k)) ↔
      ∀ pre rest, parserLines stream = pre ++ [] :: rest →
        if pre.length < (loopLines stream).length then Alike (pendingAt pre)
        else Silent (pendingAt pre) := by
  have htake : loopLines stream = (parserLines stream).take (loopLines stream).length :=
    prefix_iff_eq_take.mp (scanLines_mono (by decide) [] stream)
  have hresponses : (∀ k, loopResponses ((loopLines stream).take k) =
      parserResponses ((parserLines stream).take k)) ↔
      ∀ k, loopMachine.sent {} (((parserLines stream).take (loopLines stream).length).take k) =
        parserMachine.sent {} ((parserLines stream).take k) := by
    refine forall_congr' fun k => ?_
    rw [← htake, loopResponses, parserResponses, loopResponses_eq, parserResponses_eq]
  rw [hresponses, sent_eq_iff]
  -- only blank lines send anything
  have hline : ∀ pre : List Bytes,
      ((if pre.length < (loopLines stream).length then
          loopMachine.out (pre.foldl loopMachine.next {}) [] else none) =
        parserMachine.out (pre.foldl parserMachine.next {}) [] ↔
      if pre.length < (loopLines stream).length then Alike (pendingAt pre)
        else Silent (pendingAt pre)) := by
    intro pre
    split_ifs
    · exact out_eq_iff (same_foldl pre)
    · exact out_eq_none_iff (pendingAt pre)
  constructor
  · exact fun h pre rest hlines => (hline pre).mp (h pre [] rest hlines)
  · intro h pre line rest hlines
    by_cases hblank : line = []
    · subst hblank
      exact (hline pre).mpr (h pre rest hlines)
    · show (if _ then (if line = [] then _ else none) else none) = if line = [] then _ else none
      rw [if_neg hblank, if_neg hblank, ite_self]

/-- An event without `event:` is a message for `ParseSSE` only. -/
theorem untyped_message_is_lost :
    let stream := bytes "data: \x7b\"jsonrpc\":\"2.0\",\"id\":1,\"result\":true\x7d\n\n"
    loopResponses (loopLines stream) = [] ∧
      parserResponses (parserLines stream) = [{ id := some 1, result := "true" }] := by
  decide +kernel

end LlmRouter.Mcp
