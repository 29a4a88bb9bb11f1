import LlmRouter.Lib.Tokens
import Mathlib.Algebra.Ring.Nat

/-!
# LlmRouter — calls to an MCP server

`call` and the read loops of the three transports, any number of each. A call takes the next id,
registers a channel of one slot under it and waits; a loop looks the id of a response up and sends
it on the channel it finds. How a request is sent and a message framed are inputs. The responses
that the loops have looked up are kept, in order (`processed`), and for each channel its id and
how many had been looked up when it was registered.
-/

namespace LlmRouter.Mcp

open Lib List

/-! ## The model -/

structure RpcError where
  code : Int
  message : String
  deriving DecidableEq, Repr

structure Response where
  id : Option Int
  result : String := ""
  error : Option RpcError := none
  deriving DecidableEq, Repr

/-- A `chan Response` of capacity 1: its slot, and when it was registered under which `id`. -/
structure RespChan where
  id : Int
  since : Nat
  slot : Option (Nat × Response) := none
  deriving DecidableEq, Repr

/-- `nextID` and `pending` of a server, with all channels ever made, by number. -/
structure CallTable where
  nextID : Int := 0
  pending : List (Int × Nat) := []
  channels : List RespChan := []
  processed : List (Response × Option Nat) := []
  deriving DecidableEq, Repr

/-- What a call knows of its entry in `pending`: the id, the channel, and when it was made. -/
structure Registration where
  id : Int
  ch : Nat
  since : Nat
  deriving DecidableEq, Repr

/-- How a call ends: with the response it received and its number, or with an error. -/
inductive Outcome where
  | answered (n : Nat) (resp : Response)
  | failed (err : String)
  deriving DecidableEq, Repr

def Outcome.result : Outcome → Except String String
  | .answered _ resp =>
    match resp.error with
    | some e => .error ("mcp " ++ toString e.code ++ ": " ++ e.message)
    | none => .ok resp.result
  | .failed err => .error err

inductive Role where
  | call (method : String)
  | readLoop
  deriving DecidableEq, Repr

/-- Where a call or the read loop stands. -/
inductive CallPoint where
  | enter (method : String)
  | register (method : String) (id : Int)
  | send (method : String) (r : Registration)
  | wait (method : String) (r : Registration)
  | leave (r : Registration) (o : Outcome)
  | returned (r : Registration) (o : Outcome)
  | read
  | lookup (id : Int) (resp : Response)
  | push (n : Nat) (resp : Response) (ch : Nat)
  | stopped
  deriving DecidableEq, Repr

/-- What happens outside: the operation goes through, the send fails or the context is done, the 30
seconds are over, a message arrives (`none` if it is no response), or the stream ends. -/
inductive CallInput where
  | go
  | fail (err : String)
  | timeout
  | message (resp : Option Response)
  | closed
  deriving DecidableEq, Repr

namespace CallTable

variable (s : CallTable)

/-- `s.nextID.Add(1)` on an `atomic.Int64`. -/
def newID : Int := (s.nextID + 1).bmod (2 ^ 64)

/-- `make(chan Response, 1)` and `s.pending.Store(id, ch)`. -/
def store (id : Int) : CallTable :=
  { s with
    pending := (id, s.channels.length) :: s.pending.filter (·.1 != id)
    channels := s.channels ++ [{ id, since := s.processed.length }] }

def delete (id : Int) : CallTable :=
  { s with pending := s.pending.filter (·.1 != id) }

def slot (ch : Nat) : Option (Option (Nat × Response)) :=
  s.channels[ch]?.map (·.slot)

def setSlot (ch : Nat) (m : Option (Nat × Response)) : CallTable :=
  { s with channels := s.channels.modify ch fun c => { c with slot := m } }

/-- The read loop has looked up the destination of a response. -/
def process (resp : Response) (dest : Option Nat) : CallTable :=
  { s with processed := s.processed ++ [(resp, dest)] }

end CallTable

def Role.start : Role → CallPoint
  | .call method => .enter method
  | .readLoop => .read

/-- One operation of a call or of the read loop. -/
def callNext (s : CallTable) : CallInput → CallPoint → Option (CallTable × CallPoint)
  | .go, .enter method => some ({ s with nextID := s.newID }, .register method s.newID)
  | .go, .register method id =>
    some (s.store id, .send method ⟨id, s.channels.length, s.processed.length⟩)
  | .go, .send method r => some (s, .wait method r)
  | .fail err, .send _ r => some (s, .leave r (.failed err))
  -- the `select`
  | .fail err, .wait _ r => some (s, .leave r (.failed err))
  | .timeout, .wait method r => some (s, .leave r (.failed ("timeout: " ++ method)))
  | .go, .wait _ r =>
    match s.slot r.ch with
    | some (some (n, resp)) => some (s.setSlot r.ch none, .leave r (.answered n resp))
    | _ => none
  | .go, .leave r o => some (s.delete r.id, .returned r o)
  | .closed, .read => some (s, .stopped)
  | .message none, .read => some (s, .read)
  | .message (some resp), .read =>
    match resp.id with
    | none => some (s, .read)
    | some id => some (s, .lookup id resp)
  | .go, .lookup id resp =>
    match s.pending.lookup id with
    | none => some (s.process resp none, .read)
    | some ch => some (s.process resp (some ch), .push s.processed.length resp ch)
  -- a send on a channel whose slot is taken blocks
  | .go, .push n resp ch =>
    match s.slot ch with
    | some none => some (s.setSlot ch (some (n, resp)), .read)
    | _ => none
  | _, _ => none

def callCode : Code CallTable Role CallPoint CallInput where
  start := Role.start
  next := callNext

/-- What an operation of a call or of the read loop can do. -/
inductive CallStep (s : CallTable) : CallInput → CallPoint → CallTable → CallPoint → Prop where
  | enter (method : String) :
    CallStep s .go (.enter method) { s with nextID := s.newID } (.register method s.newID)
  | register (method : String) (id : Int) :
    CallStep s .go (.register method id) (s.store id)
      (.send method ⟨id, s.channels.length, s.processed.length⟩)
  | sent (method : String) (r : Registration) :
    CallStep s .go (.send method r) s (.wait method r)
  | unsent (method : String) (r : Registration) (err : String) :
    CallStep s (.fail err) (.send method r) s (.leave r (.failed err))
  | cancelled (method : String) (r : Registration) (err : String) :
    CallStep s (.fail err) (.wait method r) s (.leave r (.failed err))
  | timedOut (method : String) (r : Registration) :
    CallStep s .timeout (.wait method r) s (.leave r (.failed ("timeout: " ++ method)))
  | received (method : String) (r : Registration) (n : Nat) (resp : Response)
    (hslot : s.slot r.ch = some (some (n, resp))) :
    CallStep s .go (.wait method r) (s.setSlot r.ch none) (.leave r (.answered n resp))
  | left (r : Registration) (o : Outcome) :
    CallStep s .go (.leave r o) (s.delete r.id) (.returned r o)
  | closed : CallStep s .closed .read s .stopped
  | skipped (resp : Option Response) (hskip : ∀ m, resp = some m → m.id = none) :
    CallStep s (.message resp) .read s .read
  | decoded (id : Int) (resp : Response) (hid : resp.id = some id) :
    CallStep s (.message (some resp)) .read s (.lookup id resp)
  | unknown (id : Int) (resp : Response) (hnone : s.pending.lookup id = none) :
    CallStep s .go (.lookup id resp) (s.process resp none) .read
  | found (id : Int) (resp : Response) (ch : Nat) (hfound : s.pending.lookup id = some ch) :
    CallStep s .go (.lookup id resp) (s.process resp (some ch)) (.push s.processed.length resp ch)
  | pushed (n : Nat) (resp : Response) (ch : Nat) (hslot : s.slot ch = some none) :
    CallStep s .go (.push n resp ch) (s.setSlot ch (some (n, resp))) .read

variable {s : CallTable} {t : CallPoint}

theorem callStep_of_next {s' : CallTable} {x : CallInput} {t' : CallPoint}
    (h : callNext s x t = some (s', t')) : CallStep s x t s' t' := by
  revert h
  fun_cases callNext s x t with
  | case1 => rintro ⟨⟩; exact .enter _
  | case2 => rintro ⟨⟩; exact .register _ _
  | case3 => rintro ⟨⟩; exact .sent _ _
  | case4 => rintro ⟨⟩; exact .unsent _ _ _
  | case5 => rintro ⟨⟩; exact .cancelled _ _ _
  | case6 => rintro ⟨⟩; exact .timedOut _ _
  | case7 => rintro ⟨⟩; exact .received _ _ _ _ ‹_›
  | case9 => rintro ⟨⟩; exact .left _ _
  | case10 => rintro ⟨⟩; exact .closed
  | case11 => rintro ⟨⟩; exact .skipped _ nofun
  | case12 => rintro ⟨⟩; exact .skipped _ fun m hm => by cases hm; assumption
  | case13 => rintro ⟨⟩; exact .decoded _ _ ‹_›
  | case14 => rintro ⟨⟩; exact .unknown _ _ ‹_›
  | case15 => rintro ⟨⟩; exact .found _ _ _ ‹_›
  | case16 => rintro ⟨⟩; exact .pushed _ _ _ ‹_›
  | _ => nofun

/-! ## The table only grows -/

namespace CallTable

/-- No response and no channel that was there is lost or changed. -/
structure Grows (s s' : CallTable) : Prop where
  processed : ∀ (n : Nat) e, s.processed[n]? = some e → s'.processed[n]? = some e
  channels : ∀ (ch : Nat) c, s.channels[ch]? = some c →
    ∃ m, s'.channels[ch]? = some { c with slot := m }

theorem Grows.of_eq {s s' : CallTable} (hprocessed : s'.processed = s.processed)
    (hchannels : s'.channels = s.channels) : s.Grows s' :=
  ⟨fun n e h => by rw [hprocessed, h], fun ch c h => ⟨c.slot, by rw [hchannels, h]⟩⟩

theorem grows_store (s : CallTable) (id : Int) : s.Grows (s.store id) where
  processed _ _ h := h
  channels ch c h := by
    obtain ⟨hlt, -⟩ := List.getElem?_eq_some_iff.mp h
    exact ⟨c.slot, by rw [store, List.getElem?_append_left hlt, h]⟩

theorem channels_setSlot {s : CallTable} {ch i : Nat} {m : Option (Nat × Response)} :
    (s.setSlot ch m).channels[i]? =
      s.channels[i]?.map fun c => if ch = i then { c with slot := m } else c := by
  rw [setSlot, getElem?_modify]
  rfl

theorem grows_setSlot (s : CallTable) (ch : Nat) (m : Option (Nat × Response)) :
    s.Grows (s.setSlot ch m) where
  processed _ _ h := h
  channels i c h := by
    rw [channels_setSlot, h, Option.map_some]
    split
    · exact ⟨m, rfl⟩
    · exact ⟨c.slot, rfl⟩

theorem grows_process (s : CallTable) (resp : Response) (dest : Option Nat) :
    s.Grows (s.process resp dest) where
  processed n e h := by
    obtain ⟨hlt, -⟩ := List.getElem?_eq_some_iff.mp h
    rw [process, List.getElem?_append_left hlt, h]
  channels _ c h := ⟨c.slot, h⟩

end CallTable

theorem CallStep.grows {s' : CallTable} {x : CallInput} {t' : CallPoint} (h : CallStep s x t s' t') :
    s.Grows s' := by
  cases h with
  | register method id => exact s.grows_store id
  | received method r n resp hslot | pushed n resp ch hslot => exact s.grows_setSlot _ _
  | unknown id resp hnone | found id resp ch hfound => exact s.grows_process _ _
  | _ => exact .of_eq rfl rfl

/-! ## Responses and channels are linked -/

namespace CallTable

structure Linked (s : CallTable) : Prop where
  pending : ∀ id ch, (id, ch) ∈ s.pending → ∃ c, s.channels[ch]? = some c ∧ c.id = id
  processed : ∀ (n : Nat) resp ch, s.processed[n]? = some (resp, some ch) →
    ∃ c, s.channels[ch]? = some c ∧ resp.id = some c.id ∧ c.since ≤ n
  slots : ∀ ch n resp, s.slot ch = some (some (n, resp)) →
    s.processed[n]? = some (resp, some ch)
  since : ∀ (ch : Nat) c, s.channels[ch]? = some c → c.since ≤ s.processed.length

theorem linked_init : CallTable.Linked {} := by
  constructor <;> simp [slot]

variable {s : CallTable}

theorem slot_store {id : Int} {ch n : Nat} {resp : Response}
    (h : (s.store id).slot ch = some (some (n, resp))) : s.slot ch = some (some (n, resp)) := by
  obtain ⟨c, hc, hslot⟩ := Option.map_eq_some_iff.mp h
  rcases getElem?_concat_cases hc with ⟨-, rfl⟩ | hc
  · cases hslot
  · rw [slot, hc, Option.map_some, hslot]

theorem slot_setSlot {ch i : Nat} {m : Option (Nat × Response)} :
    (s.setSlot ch m).slot i = if ch = i then (s.slot i).map fun _ => m else s.slot i := by
  rw [slot, channels_setSlot, slot, Option.map_map, Option.map_map]
  split <;> rfl

theorem Linked.store (h : s.Linked) (id : Int) : (s.store id).Linked where
  pending i ch hmem := by
    rcases mem_cons.mp hmem with heq | hmem
    · obtain ⟨rfl, rfl⟩ := Prod.mk.inj heq
      exact ⟨_, getElem?_concat_length, rfl⟩
    · obtain ⟨c, hc, hid⟩ := h.pending i ch (mem_filter.mp hmem).1
      obtain ⟨m, hc'⟩ := (s.grows_store id).channels ch c hc
      exact ⟨_, hc', hid⟩
  processed n resp ch hn := by
    obtain ⟨c, hc, hid, hle⟩ := h.processed n resp ch hn
    obtain ⟨m, hc'⟩ := (s.grows_store id).channels ch c hc
    exact ⟨_, hc', hid, hle⟩
  slots ch n resp hslot := h.slots ch n resp (slot_store hslot)
  since ch c hc := by
    rcases getElem?_concat_cases hc with ⟨-, rfl⟩ | hc
    · exact Nat.le_refl _
    · exact h.since ch c hc

theorem Linked.setSlot (h : s.Linked) {ch : Nat} {m : Option (Nat × Response)}
    (hm : ∀ n resp, m = some (n, resp) → s.processed[n]? = some (resp, some ch)) :
    (s.setSlot ch m).Linked where
  pending id i hmem := by
    obtain ⟨c, hc, hid⟩ := h.pending id i hmem
    obtain ⟨m', hc'⟩ := (s.grows_setSlot ch m).channels i c hc
    exact ⟨_, hc', hid⟩
  processed n resp i hn := by
    obtain ⟨c, hc, hid, hle⟩ := h.processed n resp i hn
    obtain ⟨m', hc'⟩ := (s.grows_setSlot ch m).channels i c hc
    exact ⟨_, hc', hid, hle⟩
  slots i n resp hslot := by
    rw [slot_setSlot] at hslot
    split at hslot
    case isTrue heq =>
      obtain ⟨-, -, hm'⟩ := Option.map_eq_some_iff.mp hslot
      exact heq ▸ hm n resp hm'
    case isFalse => exact h.slots i n resp hslot
  since i c hc := by
    rw [channels_setSlot] at hc
    obtain ⟨c', hc', rfl⟩ := Option.map_eq_some_iff.mp hc
    have hle := h.since i c' hc'
    split
    · exact hle
    · exact hle

theorem Linked.process (h : s.Linked) (resp : Response) {dest : Option Nat}
    (hdest : ∀ ch, dest = some ch → ∃ c, s.channels[ch]? = some c ∧ resp.id = some c.id) :
    (s.process resp dest).Linked where
  pending := h.pending
  processed n resp' ch hn := by
    rcases getElem?_concat_cases hn with ⟨rfl, heq⟩ | hn
    · obtain ⟨rfl, hch⟩ := Prod.mk.inj heq
      obtain ⟨c, hc, hid⟩ := hdest ch hch.symm
      exact ⟨c, hc, hid, h.since ch c hc⟩
    · exact h.processed n resp' ch hn
  slots ch n resp' hslot := (s.grows_process resp dest).processed n _ (h.slots ch n resp' hslot)
  since ch c hc := by
    have hle := h.since ch c hc
    simp only [CallTable.process, length_append]
    omega

theorem Linked.delete (h : s.Linked) (id : Int) : (s.delete id).Linked where
  pending i ch hmem := h.pending i ch (mem_filter.mp hmem).1
  processed := h.processed
  slots := h.slots
  since := h.since

/-- The channel of a registration is there, with its id and its moment. -/
def Has (s : CallTable) (r : Registration) : Prop :=
  ∃ c, s.channels[r.ch]? = some c ∧ c.id = r.id ∧ c.since = r.since

theorem Grows.has {s' : CallTable} (h : s.Grows s') {r : Registration} (hr : s.Has r) :
    s'.Has r := by
  obtain ⟨c, hc, hid, hsince⟩ := hr
  obtain ⟨m, hc'⟩ := h.channels _ c hc
  exact ⟨_, hc', hid, hsince⟩

end CallTable

namespace CallPoint

def Linked (s : CallTable) : CallPoint → Prop
  | .send _ r | .wait _ r => s.Has r
  | .leave r o | .returned r o =>
    s.Has r ∧ ∀ n resp, o = .answered n resp → s.processed[n]? = some (resp, some r.ch)
  | .lookup id resp => resp.id = some id
  | .push n resp ch => s.processed[n]? = some (resp, some ch)
  | .enter _ | .register _ _ | .read | .stopped => True

theorem Linked.grows {s s' : CallTable} {t : CallPoint} (h : t.Linked s) (hgrows : s.Grows s') :
    t.Linked s' := by
  cases t with
  | send method r | wait method r => exact hgrows.has h
  | leave r o | returned r o =>
    exact ⟨hgrows.has h.1, fun n resp ho => hgrows.processed n _ (h.2 n resp ho)⟩
  | lookup id resp => exact h
  | push n resp ch => exact hgrows.processed n _ h
  | enter method | register method id | read | stopped => trivial

end CallPoint

section

variable {s s' : CallTable} {x : CallInput} {t t' : CallPoint}

/-- An operation keeps the table linked. -/
theorem CallStep.linked_table (h : CallStep s x t s' t') (hs : s.Linked) (ht : t.Linked s) :
    s'.Linked := by
  cases h with
  | enter method => exact ⟨hs.pending, hs.processed, hs.slots, hs.since⟩
  | register method id => exact hs.store id
  | received method r n resp hslot => exact hs.setSlot nofun
  | left r o => exact hs.delete r.id
  | unknown id resp hnone => exact hs.process resp nofun
  | found id resp ch hfound =>
    refine hs.process resp fun i hi => ?_
    obtain rfl := Option.some.inj hi
    obtain ⟨l, l', hmem, -⟩ := lookup_eq_some_iff.mp hfound
    obtain ⟨c, hc, hid⟩ := hs.pending id ch (by simp [hmem])
    exact ⟨c, hc, by rw [hid]; exact ht⟩
  | pushed n resp ch hslot =>
    refine hs.setSlot fun i resp' hi => ?_
    obtain ⟨rfl, rfl⟩ := Prod.mk.inj (Option.some.inj hi)
    exact ht
  | _ => exact hs

/-- After an operation its goroutine is where the table says. -/
theorem CallStep.linked_point (h : CallStep s x t s' t') (hs : s.Linked) (ht : t.Linked s) :
    t'.Linked s' := by
  cases h with
  | register method id => exact ⟨_, getElem?_concat_length, rfl, rfl⟩
  | sent method r => exact ht
  | unsent method r err | cancelled method r err | timedOut method r =>
    exact ⟨ht, nofun⟩
  | received method r n resp hslot =>
    refine ⟨(s.grows_setSlot _ _).has ht, fun i resp' ho => ?_⟩
    obtain ⟨rfl, rfl⟩ := Outcome.answered.inj ho
    exact hs.slots r.ch n resp hslot
  | left r o => exact ht
  | decoded id resp hid => exact hid
  | found id resp ch hfound => exact getElem?_concat_length
  | enter | closed | skipped | unknown | pushed => trivial

end

/-- The invariant of the calls: table and goroutines are linked. -/
theorem call_outline :
    Outline callCode (fun _ _ _ => True) 0 CallTable.Linked (fun _ s t => t.Linked s) where
  start _ _ r _ _ := by cases r <;> trivial
  inv _ _ _ _ _ _ hs ht _ h := (callStep_of_next h).linked_table hs ht
  self _ _ _ _ _ _ hs ht _ h := (callStep_of_next h).linked_point hs ht
  frame _ _ _ _ _ _ _ _ _ _ _ h hu := hu.grows (callStep_of_next h).grows

/-! ## Calls have different channels -/

def CallPoint.registration : CallPoint → Option Registration
  | .send _ r | .wait _ r | .leave r _ | .returned r _ => some r
  | _ => none

def CallPoint.channel (t : CallPoint) : Option Nat := t.registration.map Registration.ch

/-- No two calls have the same channel. -/
theorem call_channels :
    FreshTokens callCode CallPoint.channel (fun s => s.channels.length) where
  start r := by cases r <;> rfl
  step s x t s' t' h := by
    cases callStep_of_next h with
    | register method id =>
      refine .inr ⟨rfl, rfl, ?_⟩
      simp [CallTable.store]
    | received method r n resp hslot | pushed n resp ch hslot =>
      refine .inl ⟨.inl rfl, ?_⟩
      simp [CallTable.setSlot]
    | _ => exact .inl ⟨.inl rfl, Nat.le_refl _⟩

/-! ## What is looked up has arrived -/

/-- A loop has read the response and not yet looked it up. -/
def CallPoint.holds (resp : Response) : CallPoint → Bool
  | .lookup _ r => decide (r = resp)
  | _ => false

/-- The move is the arrival of the response, with an id, at a loop. -/
def brings (resp : Response) : Move Role CallInput → Bool
  | .advance _ (.message (some r)) => decide (r = resp) && r.id.isSome
  | _ => false

/-- How many times the read loop has looked up this response. -/
def CallTable.lookups (s : CallTable) (resp : Response) : Nat :=
  s.processed.countP fun e => decide (e.1 = resp)

theorem CallTable.lookups_process (s : CallTable) (r : Response) (dest : Option Nat)
    (resp : Response) :
    (s.process r dest).lookups resp = s.lookups resp + if decide (r = resp) then 1 else 0 := by
  rw [lookups, process, countP_append, countP_singleton]
  rfl

/-- One operation: a response is looked up that was in hand, and in hand that has arrived. -/
theorem CallStep.lookups {s' : CallTable} {x : CallInput} {t' : CallPoint}
    (h : CallStep s x t s' t') (resp : Response) (i : Nat) :
    s'.lookups resp + (if t'.holds resp then 1 else 0) =
      s.lookups resp + (if t.holds resp then 1 else 0) +
        if brings resp (.advance i x) then 1 else 0 := by
  cases h with
  | unknown id r hnone | found id r ch hfound =>
    rw [CallTable.lookups_process]
    simp [CallPoint.holds, brings]
  | skipped r hskip =>
    cases r with
    | none => rfl
    | some r => simp [CallPoint.holds, brings, hskip r rfl]
  | decoded id r hid => simp [CallPoint.holds, brings, hid]
  | _ => rfl

/-- **Every response is looked up as often as it has arrived**, or a loop still has it in hand. -/
theorem lookups_run {p p' : Pool CallTable CallPoint} {ms : List (Move Role CallInput)}
    (hrun : runFrom (Pool.step callCode) p ms = some p') (resp : Response) :
    p'.shared.lookups resp + p'.threads.countP (CallPoint.holds resp) =
      p.shared.lookups resp + p.threads.countP (CallPoint.holds resp) + ms.countP (brings resp) := by
  induction ms generalizing p with
  | nil =>
    cases hrun
    rfl
  | cons m ms ih =>
    obtain ⟨q, hq, hrest⟩ := Option.bind_eq_some_iff.mp hrun
    rw [ih hrest, countP_cons]
    cases m with
    | start r =>
      cases hq
      cases r <;> simp [callCode, Role.start, CallPoint.holds, brings]
    | advance i x =>
      obtain ⟨t, s', t', ht, hnext, rfl⟩ := Pool.step_advance hq
      have hstep := (callStep_of_next hnext).lookups resp i
      have hset := countP_set_add ht t' (CallPoint.holds resp)
      dsimp only
      omega

/-- A call that has no channel after `n` lookups is registered after them. -/
theorem registered_outline (i n : Nat) :
    Outline callCode (fun _ _ _ => True) 0 (fun s => n ≤ s.processed.length)
      (fun j _ t => j = i → ∀ r, t.registration = some r → n ≤ r.since) where
  start _ _ r _ _ := by cases r <;> exact fun _ _ h => nomatch h
  inv _ _ _ _ _ _ hs _ _ h := by
    cases callStep_of_next h with
    | unknown | found => exact Nat.le_trans hs (by simp [CallTable.process])
    | _ => exact hs
  self _ _ _ _ _ _ hs ht _ h := by
    cases callStep_of_next h with
    | register method id =>
      rintro - r ⟨⟩
      exact hs
    | sent | unsent | cancelled | timedOut | received | left => exact ht
    | _ => exact fun _ _ h => nomatch h
  frame _ _ _ _ _ _ _ _ _ _ _ _ hu := hu

/-! ## Every call gets its own response -/

/-- The number of the response that a call has received. -/
def CallPoint.received : CallPoint → Option Nat
  | .leave _ (.answered n _) | .returned _ (.answered n _) => some n
  | _ => none

/-- In the run `ms` to `p` the response that a call returns bears its id and was looked up after it
was registered: whenever the call has no registration, fewer responses had been looked up. What was
looked up is what has arrived, except what a loop still has in hand. A result is that of the call's
response, and no two calls have received the same one. -/
structure Correlated (ms : List (Move Role CallInput)) (p : Pool CallTable CallPoint) : Prop where
  own : ∀ (i : Nat) r n resp, p.threads[i]? = some (.returned r (.answered n resp)) →
    p.shared.processed[n]? = some (resp, some r.ch) ∧ resp.id = some r.id
  later : ∀ (i : Nat) r n resp, p.threads[i]? = some (.returned r (.answered n resp)) →
    ∀ ms₁ ms₂ p₁, ms = ms₁ ++ ms₂ → runFrom (Pool.step callCode) (Pool.init {}) ms₁ = some p₁ →
      (∀ t, p₁.threads[i]? = some t → t.registration = none) → p₁.shared.processed.length ≤ n
  arrived : ∀ resp, p.shared.lookups resp + p.threads.countP (CallPoint.holds resp) =
    ms.countP (brings resp)
  result : ∀ (i : Nat) r o v, p.threads[i]? = some (.returned r o) → o.result = .ok v →
    ∃ n resp, o = .answered n resp ∧ resp.error = none ∧ resp.result = v
  apart : ∀ (i j : Nat) t u n, p.threads[i]? = some t → p.threads[j]? = some u →
    t.received = some n → u.received = some n → i = j

theorem Outcome.result_ok {o : Outcome} {v : String} (h : o.result = .ok v) :
    ∃ n resp, o = .answered n resp ∧ resp.error = none ∧ resp.result = v := by
  cases o with
  | failed err => cases h
  | answered n resp =>
    cases herror : resp.error with
    | some e => simp [Outcome.result, herror] at h
    | none =>
      simp only [Outcome.result, herror, Except.ok.injEq] at h
      exact ⟨n, resp, rfl, herror, h⟩

theorem CallPoint.Linked.processed (h : t.Linked s) {n : Nat} (hn : t.received = some n) :
    ∃ resp ch, t.channel = some ch ∧ s.processed[n]? = some (resp, some ch) := by
  cases t with
  | leave r o | returned r o =>
    cases o with
    | failed err => cases hn
    | answered i resp =>
      obtain rfl : i = n := Option.some.inj hn
      exact ⟨resp, r.ch, rfl, h.2 i resp rfl⟩
  | _ => cases hn

/-- **Responses reach their calls.** However calls, cancellations, timeouts and read loops
interleave and whatever responses arrive, a call that returns a response returns one that has
arrived, that bears its own id and that was looked up after the call was registered, and no two
calls receive the same one. -/
theorem correlation {ms : List (Move Role CallInput)} {p : Pool CallTable CallPoint}
    (hrun : runFrom (Pool.step callCode) (Pool.init {}) ms = some p) : Correlated ms p := by
  have hlinked := call_outline.run_init CallTable.linked_init (Pool.along_true _ _ _) hrun
  have hapart := call_channels.run hrun
  have hown : ∀ (i : Nat) r n resp, p.threads[i]? = some (.returned r (.answered n resp)) →
      p.shared.processed[n]? = some (resp, some r.ch) ∧ resp.id = some r.id ∧ r.since ≤ n := by
    intro i r n resp hi
    obtain ⟨⟨c, hc, hid, hsince⟩, hgot⟩ := hlinked.thread i _ hi
    have hn := hgot n resp rfl
    obtain ⟨c', hc', hid', hle⟩ := hlinked.inv.processed n resp r.ch hn
    obtain rfl : c = c' := Option.some.inj (hc.symm.trans hc')
    exact ⟨hn, by rw [hid', hid], hsince ▸ hle⟩
  refine ⟨fun i r n resp hi => ⟨(hown i r n resp hi).1, (hown i r n resp hi).2.1⟩,
    fun i r n resp hi ms₁ ms₂ p₁ hms hrun₁ hfree => ?_, fun resp => ?_,
    fun i r o v _ hv => Outcome.result_ok hv, fun i j t u n hi hj ht hu => ?_⟩
  · rw [hms, runFrom_append, hrun₁] at hrun
    have hlate := (registered_outline i p₁.shared.processed.length).run
      ⟨Nat.zero_le _, Nat.le_refl _, fun j t hj hji r hr => by
        subst hji
        rw [hfree t hj] at hr
        cases hr⟩ (Pool.along_true _ _ _) hrun
    exact Nat.le_trans (hlate.thread i _ hi rfl r rfl) (hown i r n resp hi).2.2
  · simpa [Pool.init, CallTable.lookups] using lookups_run hrun resp
  · -- a response goes to one channel, and a channel belongs to one call
    obtain ⟨resp, ch, hch, hn⟩ := (hlinked.thread i t hi).processed ht
    obtain ⟨resp', ch', hch', hn'⟩ := (hlinked.thread j u hj).processed hu
    obtain ⟨-, rfl⟩ : resp = resp' ∧ ch = ch' := by simpa [hn] using hn'
    exact hapart.unique i j t u ch hi hj hch hch'

/-- Two calls whose responses arrive in the other order, the second of them twice. -/
def crossedCalls : List (Move Role CallInput) :=
  let answer (n : Int) (v : String) : CallInput := .message (some { id := some n, result := v })
  [.start .readLoop, .start (.call "tools/list"), .start (.call "tools/call"),
    .advance 1 .go, .advance 2 .go, .advance 2 .go, .advance 1 .go, .advance 1 .go, .advance 2 .go,
    .advance 0 (answer 2 "b"), .advance 0 .go, .advance 0 .go,
    .advance 0 (answer 1 "a"), .advance 0 .go, .advance 0 .go,
    .advance 2 .go, .advance 0 (answer 2 "late"), .advance 0 .go, .advance 0 .go,
    .advance 1 .go, .advance 1 .go, .advance 2 .go]

/-- Two calls whose responses come in the other order get their own. -/
theorem crossedCalls_correlated :
    ∃ p, runFrom (Pool.step callCode) (Pool.init {}) crossedCalls = some p ∧
      p.threads.drop 1 =
        [.returned ⟨1, 1, 0⟩ (.answered 1 { id := some 1, result := "a" }),
          .returned ⟨2, 0, 0⟩ (.answered 0 { id := some 2, result := "b" })] ∧
      Correlated crossedCalls p := by
  have hrun : (runFrom (Pool.step callCode) (Pool.init {}) crossedCalls).isSome = true := by decide
  obtain ⟨p, hp⟩ := Option.isSome_iff_exists.mp hrun
  have hthreads := congrArg (Option.map fun p => p.threads.drop 1) hp
  exact ⟨p, hp, Option.some.inj (hthreads.symm.trans (by decide)), correlation hp⟩

end LlmRouter.Mcp
