import LlmRouter.Lib.Utf8
import LlmRouter.Lib.Incremental

/-!
# LlmRouter — reading server-sent events

`ParseSSE` scans lines with `bufio.Scanner` and sends an event at every blank line that follows a
data line. The scanner stops for good where a line does not fit into its buffer, and `ParseSSE`
does not ask why. Texts are bytes here, as Go's strings are.
-/

namespace LlmRouter.Proxy

open Lib Utf8 List

/-! ## Lines -/

def newline : UInt8 := 10

def carriageReturn : UInt8 := 13

/-- `dropCR` of `bufio.ScanLines`: one `\r` at the end belongs to the line end. -/
def dropCR (line : Bytes) : Bytes :=
  if line.getLast? = some carriageReturn then line.dropLast else line

/-- The lines that a `bufio.Scanner` with a buffer of `limit` bytes delivers; `cur` is the beginning
of the line. It gives up when the buffer is full and holds no line end. A last line may lack its
end. -/
def scanLines (limit : Nat) (cur : Bytes) : Bytes → List Bytes
  | [] => if cur = [] then [] else [dropCR cur]
  | b :: bs =>
    if b = newline then dropCR cur :: scanLines limit [] bs
    else if cur.length + 1 < limit then scanLines limit (cur ++ [b]) bs
    else []

section Lines

variable {limit : Nat}

variable {cur line : Bytes}

theorem scanLines_cons_ne {b : UInt8} (hb : b ≠ newline) (bs : Bytes) :
    scanLines limit cur (b :: bs) =
      if cur.length + 1 < limit then scanLines limit (cur ++ [b]) bs else [] := by
  rw [scanLines, if_neg hb]

theorem scanLines_line (hline : newline ∉ line) (hfits : cur.length + line.length < limit)
    (rest : Bytes) :
    scanLines limit cur (line ++ newline :: rest) =
      dropCR (cur ++ line) :: scanLines limit [] rest := by
  induction line generalizing cur with
  | nil =>
    rw [nil_append, scanLines, if_pos rfl, append_nil]
  | cons b line ih =>
    rw [mem_cons, not_or] at hline
    rw [length_cons] at hfits
    rw [cons_append, scanLines_cons_ne (Ne.symm hline.1), if_pos (by omega),
      ih hline.2 (by rw [length_append, length_singleton]; omega), append_assoc]
    rfl

theorem scanLines_tooLong (hline : newline ∉ line) (hcur : cur.length < limit)
    (hlong : limit ≤ cur.length + line.length) (rest : Bytes) :
    scanLines limit cur (line ++ rest) = [] := by
  induction line generalizing cur with
  | nil =>
    rw [length_nil] at hlong
    omega
  | cons b line ih =>
    rw [mem_cons, not_or] at hline
    rw [length_cons] at hlong
    rw [cons_append, scanLines_cons_ne (Ne.symm hline.1)]
    split
    case isTrue hfits =>
      refine ih hline.2 ?_ ?_ <;> rw [length_append, length_singleton] <;> omega
    case isFalse => rfl

theorem dropCR_of_not_mem (h : carriageReturn ∉ line) : dropCR line = line :=
  if_neg fun hlast => h (mem_of_getLast? hlast)

@[simp] theorem dropCR_concat (line : Bytes) : dropCR (line ++ [carriageReturn]) = line := by
  rw [dropCR, if_pos (by simp), dropLast_concat]

@[simp] theorem dropCR_nil : dropCR [] = [] := rfl

end Lines

/-! ## Events -/

structure SSEEvent where
  type : Bytes := []
  data : Bytes := []
  id : Bytes := []
  deriving DecidableEq, Repr

def spaces : List Bytes := Utf8.whiteSpace.map String.utf8EncodeChar

/-- Drop any of `units` from the front, as long as there is one; `fuel` bounds
how often. -/
def trimFront (units : List Bytes) : (fuel : Nat) → Bytes → Bytes
  | 0, bs => bs
  | fuel + 1, bs =>
    match units.findSome? bs.dropPrefix? with
    | some rest => trimFront units fuel rest
    | none => bs

def trimSpace (bs : Bytes) : Bytes :=
  let front := trimFront spaces bs.length bs
  (trimFront (spaces.map reverse) front.length front.reverse).reverse

/-- The variables of the parser: type and id of the event to come, and its data lines. -/
structure Pending where
  type : Bytes := []
  id : Bytes := []
  dataLines : List Bytes := []
  deriving DecidableEq, Repr

/-- The event that a blank line dispatches. Events without data are dropped. -/
def Pending.dispatch (p : Pending) : List SSEEvent :=
  if p.dataLines = [] then []
  else
    [{ type := if p.type = [] then bytes "message" else p.type
       data := [newline].intercalate p.dataLines
       id := p.id }]

def dataValue (v : Bytes) : Bytes :=
  match v with
  | 32 :: rest => rest
  | _ => v

/-- One line that is not blank. Comments, `retry:` and unknown fields are
ignored. -/
def Pending.field (p : Pending) (line : Bytes) : Pending :=
  match line.dropPrefix? (bytes "data:") with
  | some v => { p with dataLines := p.dataLines ++ [dataValue v] }
  | none =>
    match line.dropPrefix? (bytes "event:") with
    | some v => { p with type := trimSpace v }
    | none =>
      match line.dropPrefix? (bytes "id:") with
      | some v => { p with id := trimSpace v }
      | none => p

def parseLines : Pending → List Bytes → List SSEEvent
  | _, [] => []
  | p, line :: lines =>
    if line = [] then p.dispatch ++ parseLines {} lines else parseLines (p.field line) lines

def maxTokenSize : Nat := 1024 * 1024

def events (limit : Nat) (stream : Bytes) : List SSEEvent :=
  parseLines {} (scanLines limit [] stream)

/-- The events that `ParseSSE` delivers for the bytes that the reader returns before it ends or
fails. -/
def parseSSE (stream : Bytes) : List SSEEvent := events maxTokenSize stream

/-! ## What lines mean -/

theorem bytes_data : bytes "data:" = [100, 97, 116, 97, 58] := by decide

theorem bytes_event : bytes "event:" = [101, 118, 101, 110, 116, 58] := by decide

theorem bytes_id : bytes "id:" = [105, 100, 58] := by decide

theorem Pending.field_data (p : Pending) (v : Bytes) :
    p.field (bytes "data:" ++ v) = { p with dataLines := p.dataLines ++ [dataValue v] } := by
  have hv : (bytes "data:" ++ v).dropPrefix? (bytes "data:") = some v :=
    dropPrefix?_eq_some_iff.mpr ⟨bytes "data:", rfl, beq_self_eq_true _⟩
  rw [Pending.field, hv]

theorem Pending.field_comment (p : Pending) (text : Bytes) : p.field (58 :: text) = p := by
  rw [Pending.field, bytes_data, bytes_event, bytes_id]
  rfl

theorem Pending.dispatch_one (v : Bytes) :
    Pending.dispatch { dataLines := [v] } = [{ type := bytes "message", data := v }] := by
  simp [Pending.dispatch]

variable {limit : Nat}

theorem events_line {p : Pending} {line : Bytes} (hline : newline ∉ line)
    (hfits : line.length < limit) (rest : Bytes) :
    parseLines p (scanLines limit [] (line ++ newline :: rest)) =
      if dropCR line = [] then p.dispatch ++ events limit rest
      else parseLines (p.field (dropCR line)) (scanLines limit [] rest) := by
  rw [scanLines_line hline (by simpa using hfits), nil_append, parseLines]
  rfl

theorem parseLines_blank (hlimit : 0 < limit) (p : Pending) (rest : Bytes) :
    parseLines p (scanLines limit [] (newline :: rest)) = p.dispatch ++ events limit rest := by
  rw [← nil_append (newline :: rest), events_line not_mem_nil hlimit, dropCR_nil, if_pos rfl]

def dataEvent (payload : Bytes) : Bytes := bytes "data: " ++ payload ++ [newline, newline]

structure OneLine (payload : Bytes) : Prop where
  newline : newline ∉ payload
  carriageReturn : carriageReturn ∉ payload

theorem bytes_data_space : bytes "data: " = bytes "data:" ++ [32] := by decide

section DataEvent

variable {payload : Bytes}

theorem OneLine.dataLine (h : OneLine payload) : OneLine (bytes "data: " ++ payload) := by
  constructor
  · rw [mem_append, not_or]
    exact ⟨by decide, h.newline⟩
  · rw [mem_append, not_or]
    exact ⟨by decide, h.carriageReturn⟩

theorem dataEvent_append (payload rest : Bytes) :
    dataEvent payload ++ rest = (bytes "data: " ++ payload) ++ newline :: newline :: rest := by
  simp [dataEvent]

theorem length_dataLine (payload : Bytes) :
    (bytes "data: " ++ payload).length = payload.length + 6 := by
  rw [length_append, show (bytes "data: ").length = 6 by decide, Nat.add_comm]

/-- An event of one line is read back, and reading goes on after it. -/
theorem events_dataEvent {limit : Nat} (h : OneLine payload) (hfits : payload.length + 6 < limit)
    (rest : Bytes) :
    events limit (dataEvent payload ++ rest) =
      { type := bytes "message", data := payload } :: events limit rest := by
  have hline := h.dataLine
  have hne : bytes "data: " ++ payload ≠ [] := by
    rw [bytes_data_space, bytes_data]
    exact cons_ne_nil _ _
  rw [events, dataEvent_append, events_line hline.newline (by rw [length_dataLine]; exact hfits),
    dropCR_of_not_mem hline.carriageReturn, if_neg hne, parseLines_blank (by omega),
    bytes_data_space, append_assoc, Pending.field_data]
  exact congrArg (· ++ events limit rest) (Pending.dispatch_one payload)

/-- A line that does not fit ends the stream without a word. -/
theorem events_dataEvent_tooLong {limit : Nat} (h : OneLine payload) (hlimit : 0 < limit)
    (hlong : limit ≤ payload.length + 6) (rest : Bytes) :
    events limit (dataEvent payload ++ rest) = [] := by
  rw [events, dataEvent_append,
    scanLines_tooLong h.dataLine.newline hlimit (by rw [length_dataLine]; simpa using hlong)]
  rfl

end DataEvent

theorem events_comment {text : Bytes} (h : OneLine text) (hfits : text.length + 1 < limit)
    (rest : Bytes) :
    events limit (58 :: text ++ newline :: newline :: rest) = events limit rest := by
  have hnl : newline ∉ (58 :: text : Bytes) := by
    rw [mem_cons, not_or]
    exact ⟨by decide, h.newline⟩
  have hcr : carriageReturn ∉ (58 :: text : Bytes) := by
    rw [mem_cons, not_or]
    exact ⟨by decide, h.carriageReturn⟩
  rw [events, events_line hnl hfits, dropCR_of_not_mem hcr, if_neg (cons_ne_nil _ _),
    Pending.field_comment, parseLines_blank (by omega)]
  rfl

end LlmRouter.Proxy
