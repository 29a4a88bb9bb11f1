import LlmRouter.Mcp.Calls

/-!
# LlmRouter — read loops that wait for ever

A channel has one slot, and a call receives at most once, so a second response with the same id
may find the slot taken and its call gone: then the loop waits for ever (`wedged_forever`).
`Overruns` names the moves at which that happens.
-/

namespace LlmRouter.Mcp

open Lib

/-- A goroutine may still receive from a channel: it is the call that made it and has not
left its `select`. -/
def CallPoint.Hears (ch : Nat) : CallPoint → Prop
  | .send _ r | .wait _ r => r.ch = ch
  | _ => False

def CallPoint.Pushes (ch : Nat) : CallPoint → Prop
  | .push _ _ c => c = ch
  | _ => False

variable {t : CallPoint} {p p' : Pool CallTable CallPoint}

theorem CallPoint.Hears.channel {ch : Nat} (h : t.Hears ch) : t.channel = some ch := by
  cases t with
  | send method r | wait method r => exact congrArg some h
  | _ => exact h.elim

open CallPoint (Hears Pushes)

def CallTable.Full (s : CallTable) (ch : Nat) : Prop := ∃ m, s.slot ch = some (some m)

/-- A read loop is blocked on a channel from which no goroutine will receive any more. -/
def WedgedAt (p : Pool CallTable CallPoint) (ch : Nat) : Prop :=
  p.shared.Full ch ∧ p.Some (Pushes ch) ∧ ¬ p.Some (Hears ch)

def Wedged (p : Pool CallTable CallPoint) : Prop := ∃ ch, WedgedAt p ch

/-- The `i`-th goroutine wedges a loop: the loop itself finds the id of a call that left with its
slot taken; or the call leaves while its slot is taken and a loop waits for it; or another loop
takes the slot of a call that has left. -/
def OverrunsAt (p : Pool CallTable CallPoint) (i ch : Nat) : CallInput → CallPoint → Prop
  | .go, .lookup id _ =>
    p.shared.pending.lookup id = some ch ∧ p.shared.Full ch ∧ ¬ p.Some (Hears ch)
  | .fail _, .send _ r | .fail _, .wait _ r | .timeout, .wait _ r =>
    r.ch = ch ∧ p.shared.Full ch ∧ p.Some (Pushes ch)
  | .go, .push _ _ c =>
    c = ch ∧ p.shared.slot ch = some none ∧ ¬ p.Some (Hears ch) ∧
      p.Other i (Pushes ch)
  | _, _ => False

def Overruns (p : Pool CallTable CallPoint) : Move Role CallInput → Prop
  | .start _ => False
  | .advance i x => ∃ t ch, p.threads[i]? = some t ∧ OverrunsAt p i ch x t

/-! ## One move -/

namespace CallTable

variable {s : CallTable} {ch : Nat}

@[simp] theorem full_store {id : Int} : (s.store id).Full ch ↔ s.Full ch := by
  constructor
  · rintro ⟨⟨n, resp⟩, hm⟩
    exact ⟨_, slot_store hm⟩
  · rintro ⟨m, hm⟩
    obtain ⟨c, hc, hslot⟩ := Option.map_eq_some_iff.mp hm
    obtain ⟨hlt, -⟩ := List.getElem?_eq_some_iff.mp hc
    refine ⟨m, ?_⟩
    rw [slot, store, List.getElem?_append_left hlt, hc, Option.map_some, hslot]

theorem not_full_length (s : CallTable) : ¬ s.Full s.channels.length := by
  rintro ⟨m, hm⟩
  simp [slot] at hm

@[simp] theorem full_nextID {id : Int} :
    CallTable.Full { s with nextID := id } ch ↔ s.Full ch := Iff.rfl

@[simp] theorem full_delete {id : Int} :
    (s.delete id).Full ch ↔ s.Full ch := Iff.rfl

@[simp] theorem full_process {resp : Response} {dest : Option Nat} :
    (s.process resp dest).Full ch ↔ s.Full ch := Iff.rfl

theorem full_setSlot {i : Nat} {m : Option (Nat × Response)} :
    (s.setSlot ch m).Full i ↔
      if ch = i then m.isSome = true ∧ (s.slot i).isSome = true else s.Full i := by
  rw [Full, slot_setSlot]
  split
  · cases s.slot i <;> cases m <;> simp
  · exact Iff.rfl

end CallTable

theorem wedgedAt_step (hp : p.Apart CallPoint.channel fun s => s.channels.length) {i : Nat}
    {x : CallInput} {s' : CallTable} {t' : CallPoint} (ht : p.threads[i]? = some t)
    (h : CallStep p.shared x t s' t') (ch : Nat) :
    WedgedAt ⟨s', p.threads.set i t'⟩ ch ↔ WedgedAt p ch ∨ OverrunsAt p i ch x t := by
  -- no two goroutines receive from one channel
  have honly : t.Hears ch → ¬ p.Other i (Hears ch) := by
    rintro hmine ⟨j, u, hji, hj, hu⟩
    exact hji (hp.unique j i u t ch hj ht hu.channel hmine.channel)
  rw [WedgedAt, WedgedAt, Pool.some_set_iff ht, Pool.some_set_iff ht, Pool.some_iff ht,
    Pool.some_iff ht]
  cases h with
  | register method id =>
    have hnew := p.shared.not_full_length
    by_cases hch : p.shared.channels.length = ch
    · subst hch
      simp [hnew, OverrunsAt]
    · simp [Hears, Pushes, hch, OverrunsAt]
  | unsent method r err | cancelled method r err | timedOut method r =>
    simp only [Hears, Pushes, OverrunsAt, Pool.some_iff ht] at honly ⊢
    by_cases hch : r.ch = ch
    · simp [hch, honly hch]
    · simp [hch]
  | received method r n resp hslot =>
    simp only [Hears, Pushes, OverrunsAt, CallTable.full_setSlot]
    by_cases hch : r.ch = ch
    · simp [hch]
    · simp [hch]
  | found id resp c hfound =>
    simp only [Hears, Pushes, OverrunsAt, CallTable.full_process, Pool.some_iff ht, hfound,
      Option.some.injEq]
    by_cases hch : c = ch <;> tauto
  | pushed n resp c hslot =>
    simp only [Hears, Pushes, OverrunsAt, CallTable.full_setSlot, Pool.some_iff ht]
    by_cases hch : c = ch
    · subst hch
      have hempty : ¬ p.shared.Full c := fun ⟨m, hm⟩ => by
        rw [hslot] at hm
        cases hm
      simp only [hslot, if_true, Option.isSome_some]
      tauto
    · simp [hch]
  | unknown id resp hnone =>
    simp [Hears, Pushes, OverrunsAt, hnone]
  | _ => simp [Hears, Pushes, OverrunsAt]

theorem wedgedAt_start (r : Role) (ch : Nat) :
    WedgedAt ⟨p.shared, p.threads ++ [r.start]⟩ ch ↔ WedgedAt p ch := by
  rw [WedgedAt, WedgedAt, Pool.some_concat_iff, Pool.some_concat_iff]
  cases r <;> simp [Role.start, Hears, Pushes]

theorem OverrunsAt.enabled {i ch : Nat} {x : CallInput} (h : OverrunsAt p i ch x t) :
    ∃ s' t', callNext p.shared x t = some (s', t') := by
  unfold OverrunsAt at h
  split at h
  · exact ⟨_, _, by rw [callNext, h.1]⟩
  · exact ⟨_, _, rfl⟩
  · exact ⟨_, _, rfl⟩
  · exact ⟨_, _, rfl⟩
  · obtain ⟨rfl, hslot, -⟩ := h
    exact ⟨_, _, by rw [callNext, hslot]⟩
  · exact h.elim

section

variable {p p' : Pool CallTable CallPoint} {m : Move Role CallInput}

/-- **One move wedges exactly the loops that were wedged and those that it overruns.** -/
theorem wedged_step (hp : p.Apart CallPoint.channel fun s => s.channels.length)
    (h : p.step callCode m = some p') : Wedged p' ↔ Wedged p ∨ Overruns p m := by
  cases m with
  | start r =>
    obtain rfl : _ = p' := Option.some.inj h
    simp only [Wedged, Overruns, or_false]
    exact exists_congr fun ch => wedgedAt_start r ch
  | advance i x =>
    obtain ⟨t, s', t', ht, hnext, rfl⟩ := Pool.step_advance h
    have hstep := wedgedAt_step hp ht (callStep_of_next hnext)
    simp only [Wedged, hstep, exists_or, Overruns, ht, Option.some.injEq]
    simp

theorem Overruns.enabled (h : Overruns p m) : ∃ p', p.step callCode m = some p' := by
  cases m with
  | start r => exact h.elim
  | advance i x =>
    obtain ⟨t, ch, ht, hover⟩ := h
    obtain ⟨s', t', hnext⟩ := hover.enabled
    have hcode : callCode.next p.shared x t = some (s', t') := hnext
    exact ⟨⟨s', p.threads.set i t'⟩, by simp only [Pool.step, ht, hcode, Option.map_some]⟩

end

/-! ## Whole runs -/

def Flowing (p : Pool CallTable CallPoint) : Prop :=
  p.Apart CallPoint.channel (fun s => s.channels.length) ∧ ¬ Wedged p

theorem flowing_init : Flowing (Pool.init {}) := by
  refine ⟨FreshTokens.apart_init _ _ _, ?_⟩
  rintro ⟨ch, ⟨m, hm⟩, -⟩
  cases hm

theorem Flowing.step {m : Move Role CallInput} (hp : Flowing p) (hover : ¬ Overruns p m)
    (h : p.step callCode m = some p') : Flowing p' := by
  refine ⟨call_channels.apart_step hp.1 h, fun hwedged => ?_⟩
  rcases (wedged_step hp.1 h).mp hwedged with hwedged | hover'
  · exact hp.2 hwedged
  · exact hover hover'

/-- **The read loops of an MCP server.** None is ever blocked for good iff no move overruns a
channel. -/
theorem read_loop_iff (ms : List (Move Role CallInput)) :
    AlongFrom (Pool.step callCode)
        (fun p m => ∀ p', p.step callCode m = some p' → ¬ Wedged p') (Pool.init {}) ms ↔
      AlongFrom (Pool.step callCode) (fun p m => ¬ Overruns p m) (Pool.init {}) ms := by
  refine alongFrom_iff (P := Flowing) (fun p m hp => ⟨?_, ?_⟩)
    (fun p m p' hp hover h => hp.step hover h) flowing_init ms
  · intro h hover
    obtain ⟨p', hstep⟩ := hover.enabled
    exact h p' hstep ((wedged_step hp.1 hstep).mpr (.inr hover))
  · intro hover p' hstep
    exact (hp.step hover hstep).2

def firstAnswer : Response := { id := some 1, result := "a" }

def answeredTwice : List (Move Role CallInput) :=
  let answer : CallInput := .message (some firstAnswer)
  [.start .readLoop, .start (.call "tools/call"), .advance 1 .go, .advance 1 .go, .advance 1 .go,
    .advance 0 answer, .advance 0 .go, .advance 0 .go, .advance 0 answer, .advance 0 .go,
    .advance 1 (.fail "context canceled"), .advance 1 .go]

/-- The call has returned, and the loop waits to send it the second answer. -/
theorem answeredTwice_wedges :
    ∃ p, runFrom (Pool.step callCode) (Pool.init {}) answeredTwice = some p ∧ Wedged p := by
  refine ⟨⟨⟨1, [], [⟨1, 0, some (0, firstAnswer)⟩], [(firstAnswer, some 0), (firstAnswer, some 0)]⟩,
    [.push 1 firstAnswer 0, .returned ⟨1, 0, 0⟩ (.failed "context canceled")]⟩, by rfl, 0,
    ⟨_, rfl⟩, ⟨0, _, rfl, rfl⟩, ?_⟩
  rintro ⟨i, t, hi, hears⟩
  match i with
  | 0 | 1 =>
    cases hi
    exact hears
  | i + 2 => cases hi

/-- **A wedged loop waits for ever**, whatever comes after. -/
theorem wedged_forever {ms ms' : List (Move Role CallInput)}
    (hrun : runFrom (Pool.step callCode) (Pool.init {}) ms = some p) {ch i : Nat}
    (hwedged : WedgedAt p ch) (hi : p.threads[i]? = some t) (ht : t.Pushes ch)
    (hrun' : runFrom (Pool.step callCode) p ms' = some p') :
    p'.threads[i]? = some t ∧ WedgedAt p' ch := by
  let P (q : Pool CallTable CallPoint) : Prop :=
    q.Apart CallPoint.channel (fun s => s.channels.length) ∧ q.threads[i]? = some t ∧
      WedgedAt q ch
  suffices hP : P p' from hP.2
  refine runFrom_preserves (P := P) ?_ ⟨call_channels.run hrun, hi, hwedged⟩ hrun'
  rintro q m q' ⟨hapart, hqi, hq⟩ h
  refine ⟨call_channels.apart_step hapart h, ?_⟩
  cases m with
  | start r =>
    obtain rfl : _ = q' := Option.some.inj h
    exact ⟨getElem?_concat hqi _, (wedgedAt_start r ch).mpr hq⟩
  | advance j x =>
    obtain ⟨u, s', u', hu, hnext, rfl⟩ := Pool.step_advance h
    have hstep := callStep_of_next hnext
    refine ⟨?_, (wedgedAt_step hapart hu hstep ch).mpr (.inl hq)⟩
    have hne : j ≠ i := by
      -- the loop itself finds the slot taken
      rintro rfl
      obtain rfl : u = t := Option.some.inj (hu.symm.trans hqi)
      obtain ⟨m, hm⟩ := hq.1
      cases hstep with
      | pushed n resp c hslot =>
        rw [show c = ch from ht, hm] at hslot
        cases hslot
      | _ => exact ht
    rw [List.getElem?_set_ne hne, hqi]

end LlmRouter.Mcp
