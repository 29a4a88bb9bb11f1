import LlmRouter.Lib.Chan

/-!
# LlmRouter — the batching log writer

Requests write their entries to a channel without waiting, and a goroutine (`run`) collects them
into batches: a batch goes out when it is full, at every tick, and when `Close` asks the goroutine
to empty the channel. The calls and the goroutine are the threads; its variables and what the
store has inserted are shared. The store succeeds.
-/

namespace LlmRouter.Telemetry

open Lib List

/-! ## The writer -/

def channelSize : Nat := 10000

def batchSize : Nat := 500

inductive After where
  | loop
  | drain
  | exit
  deriving DecidableEq, Repr

/-- Where `run` stands: in its `select`, in `flush`, in the inner loop that empties the
channel, or at its end. -/
inductive RunPoint where
  | select
  | flush (after : After)
  | drain
  | returned
  deriving DecidableEq, Repr

def After.point : After → RunPoint
  | .loop => .select
  | .drain => .drain
  | .exit => .returned

variable {ε : Type*}

structure LogWriter (ε : Type*) where
  ch : Chan ε channelSize := {}
  stop : Bool := false
  dropped : Nat := 0
  run : RunPoint := .select
  buf : List ε := []
  batches : List (List ε) := []

variable (w : LogWriter ε)

def LogWriter.inserted : List ε := w.batches.flatten

def LogWriter.flush (after : After) : LogWriter ε :=
  if w.buf.isEmpty then { w with run := after.point }
  else { w with batches := w.batches ++ [w.buf], buf := [], run := after.point }

/-- `buf = append(buf, e)` with the flush of a full buffer; `ch` is the channel after the
receive. -/
def LogWriter.append (e : ε) (ch : Chan ε channelSize) (after : After) : LogWriter ε :=
  { w with
    ch := ch
    buf := w.buf ++ [e]
    run := if batchSize ≤ (w.buf ++ [e]).length then .flush after else after.point }

/-- The case that the `select` of `run` takes. -/
inductive Ready where
  | stop
  | tick
  | entry
  deriving DecidableEq, Repr

def LogWriter.runNext (ready : Ready) : Option (LogWriter ε) :=
  match w.run with
  | .select =>
    match ready with
    | .stop => if w.stop then some { w with run := .drain } else none
    | .tick => some { w with run := .flush .loop }
    | .entry => w.ch.recv.map fun r => w.append r.1 r.2 .loop
  | .flush after => some (w.flush after)
  | .drain =>
    match w.ch.recv with
    | some r => some (w.append r.1 r.2 .drain)
    | none => some { w with run := .flush .exit }
  | .returned => none

inductive LogCall (ε : Type*) where
  | write (e : ε)
  | close

inductive LogPoint (ε : Type*) where
  | write (e : ε)
  | wrote (e : ε) (ticket : Option Nat)
  | close
  | wait
  | closed
  | panicked
  | run
  deriving DecidableEq

def LogCall.start : LogCall ε → LogPoint ε
  | .write e => .write e
  | .close => .close

/-- The next step of a thread. A second `Close` closes a closed channel. -/
def logNext (ready : Ready) : LogPoint ε → Option (LogWriter ε × LogPoint ε)
  | .write e =>
    match w.ch.send e with
    | some ch => some ({ w with ch := ch }, .wrote e (some w.ch.entered.length))
    | none => some ({ w with dropped := w.dropped + 1 }, .wrote e none)
  | .close => if w.stop then some (w, .panicked) else some ({ w with stop := true }, .wait)
  | .wait => if w.run = .returned then some (w, .closed) else none
  | .run => (w.runNext ready).map fun w' => (w', .run)
  | .wrote _ _ | .closed | .panicked => none

def logCode : Code (LogWriter ε) (LogCall ε) (LogPoint ε) Ready where
  start := LogCall.start
  next := logNext

def newLogWriter : Pool (LogWriter ε) (LogPoint ε) := ⟨{}, [.run]⟩

inductive LogStep (w : LogWriter ε) : LogPoint ε → LogWriter ε → LogPoint ε → Prop
  | accepted (e : ε) (ch : Chan ε channelSize) (hsend : w.ch.send e = some ch) :
    LogStep w (.write e) { w with ch := ch } (.wrote e (some w.ch.entered.length))
  | dropped (e : ε) :
    LogStep w (.write e) { w with dropped := w.dropped + 1 } (.wrote e none)
  | closes (hopen : w.stop = false) : LogStep w .close { w with stop := true } .wait
  | panics (hstop : w.stop = true) : LogStep w .close w .panicked
  | closed (hreturned : w.run = .returned) : LogStep w .wait w .closed
  | stops (hrun : w.run = .select) (hstop : w.stop = true) :
    LogStep w .run { w with run := .drain } .run
  | ticks (hrun : w.run = .select) : LogStep w .run { w with run := .flush .loop } .run
  | takes (after : After) (hafter : after ≠ .exit) (hrun : w.run = after.point) (e : ε)
      (ch : Chan ε channelSize) (hrecv : w.ch.recv = some (e, ch)) :
    LogStep w .run (w.append e ch after) .run
  | drained (hrun : w.run = .drain) (hempty : w.ch.queue = []) :
    LogStep w .run { w with run := .flush .exit } .run
  | flushes (after : After) (hrun : w.run = .flush after) : LogStep w .run (w.flush after) .run

variable {w : LogWriter ε} {ms : List (Move (LogCall ε) Ready)}
  {p : Pool (LogWriter ε) (LogPoint ε)}

theorem logStep_of_runNext {w' : LogWriter ε} {ready : Ready} (h : w.runNext ready = some w') :
    LogStep w .run w' .run := by
  revert h
  fun_cases LogWriter.runNext w ready with
  | case1 hrun hstop => rintro ⟨⟩; exact .stops hrun hstop
  | case3 hrun => rintro ⟨⟩; exact .ticks hrun
  | case4 hrun =>
    intro h
    obtain ⟨⟨e, ch⟩, hrecv, rfl⟩ := Option.map_eq_some_iff.mp h
    exact .takes .loop nofun hrun e ch hrecv
  | case5 _ after hrun => rintro ⟨⟩; exact .flushes after hrun
  | case6 _ hrun r hrecv => rintro ⟨⟩; exact .takes .drain nofun hrun r.1 r.2 hrecv
  | case7 _ hrun hrecv => rintro ⟨⟩; exact .drained hrun (Chan.recv_eq_none_iff.mp hrecv)
  | _ => rintro ⟨⟩

theorem logStep_of_next {w' : LogWriter ε} {ready : Ready} {t t' : LogPoint ε}
    (h : logNext w ready t = some (w', t')) : LogStep w t w' t' := by
  revert h
  fun_cases logNext w ready t with
  | case1 e ch hsend => rintro ⟨⟩; exact .accepted e ch hsend
  | case2 e => rintro ⟨⟩; exact .dropped e
  | case3 hstop => rintro ⟨⟩; exact .panics hstop
  | case4 hopen => rintro ⟨⟩; exact .closes (Bool.not_eq_true _ ▸ hopen)
  | case5 hreturned => rintro ⟨⟩; exact .closed hreturned
  | case7 =>
    intro h
    obtain ⟨w₁, hnext, ⟨⟩⟩ := Option.map_eq_some_iff.mp h
    exact logStep_of_runNext hnext
  | _ => rintro ⟨⟩

/-! ## What the goroutine has collected -/

def RunPoint.Fits : RunPoint → Nat → Prop
  | .select, n | .drain, n => n < batchSize
  | .flush _, n => n ≤ batchSize
  | .returned, n => n = 0

theorem After.fits_zero : (after : After) → after.point.Fits 0
  | .loop | .drain => show 0 < batchSize by decide
  | .exit => rfl

def RunPoint.Stopping : RunPoint → Prop
  | .select | .flush .loop => False
  | _ => True

def RunPoint.Ending : RunPoint → Prop
  | .flush .exit | .returned => True
  | _ => False

/-- What was received is in the batches or in the buffer, in order, and no batch is empty or
too long. -/
structure LogWriter.Collected (w : LogWriter ε) : Prop where
  received : w.ch.received = w.inserted ++ w.buf
  sizes : ∀ b ∈ w.batches, 1 ≤ b.length ∧ b.length ≤ batchSize
  fits : w.run.Fits w.buf.length
  stopping : w.run.Stopping → w.stop = true

namespace LogWriter

variable {w : LogWriter ε}

theorem Collected.new : (newLogWriter : Pool (LogWriter ε) (LogPoint ε)).shared.Collected :=
  ⟨rfl, nofun, After.loop.fits_zero, nofun⟩

theorem Collected.append (hw : w.Collected) {after : After} (hafter : after ≠ .exit)
    (hrun : w.run = after.point) {e : ε} {ch : Chan ε channelSize}
    (hrecv : w.ch.recv = some (e, ch)) : (w.append e ch after).Collected := by
  obtain ⟨-, hreceived, -⟩ := Chan.recv_eq_some hrecv
  have hfits : w.buf.length < batchSize := by
    have := hw.fits
    rw [hrun] at this
    cases after with
    | loop | drain => exact this
    | exit => exact absurd rfl hafter
  refine ⟨?_, hw.sizes, ?_, ?_⟩
  · show ch.received = w.inserted ++ (w.buf ++ [e])
    rw [hreceived, hw.received, append_assoc]
  · show (if batchSize ≤ (w.buf ++ [e]).length then RunPoint.flush after
      else after.point).Fits (w.buf ++ [e]).length
    rw [length_append, length_singleton]
    split
    case isTrue => exact hfits
    case isFalse hsmall =>
      cases after with
      | loop | drain => exact Nat.lt_of_not_le hsmall
      | exit => exact absurd rfl hafter
  · show (if batchSize ≤ (w.buf ++ [e]).length then RunPoint.flush after
      else after.point).Stopping → w.stop = true
    intro hstopping
    apply hw.stopping
    rw [hrun]
    split at hstopping <;> cases after <;> trivial

theorem Collected.flush (hw : w.Collected) {after : After} (hrun : w.run = .flush after) :
    (w.flush after).Collected := by
  have hfits : w.buf.length ≤ batchSize := by
    have := hw.fits
    rwa [hrun] at this
  have hstopping : after.point.Stopping → w.stop = true := by
    intro hstopping
    apply hw.stopping
    rw [hrun]
    cases after <;> trivial
  unfold LogWriter.flush
  split
  case isTrue hbuf =>
    refine ⟨hw.received, hw.sizes, ?_, hstopping⟩
    show after.point.Fits w.buf.length
    rw [isEmpty_iff.mp hbuf]
    exact after.fits_zero
  case isFalse hbuf =>
    refine ⟨?_, ?_, after.fits_zero, hstopping⟩
    · show w.ch.received = (w.batches ++ [w.buf]).flatten ++ []
      rw [hw.received, flatten_append, flatten_singleton, append_nil, inserted]
    · intro b hb
      rcases mem_append.mp hb with hb | hb
      · exact hw.sizes b hb
      · rw [mem_singleton.mp hb]
        exact ⟨length_pos_of_ne_nil fun h => hbuf (isEmpty_iff.mpr h), hfits⟩

end LogWriter

section

variable {w w' : LogWriter ε} {t t' : LogPoint ε}

/-- A step keeps what is inserted or in the batch the first entries received. -/
theorem LogStep.collected (h : LogStep w t w' t') (hw : w.Collected) : w'.Collected := by
  cases h with
  | accepted e ch hsend =>
    obtain ⟨-, hreceived, -⟩ := Chan.send_eq_some hsend
    exact ⟨hreceived.trans hw.received, hw.sizes, hw.fits, hw.stopping⟩
  | dropped e => exact ⟨hw.received, hw.sizes, hw.fits, hw.stopping⟩
  | closes hopen => exact ⟨hw.received, hw.sizes, hw.fits, fun _ => rfl⟩
  | panics | closed => exact hw
  | stops hrun hstop =>
    have hfits := hw.fits
    rw [hrun] at hfits
    exact ⟨hw.received, hw.sizes, hfits, fun _ => hstop⟩
  | ticks hrun =>
    have hfits := hw.fits
    rw [hrun] at hfits
    exact ⟨hw.received, hw.sizes, Nat.le_of_lt hfits, nofun⟩
  | takes after hafter hrun e ch hrecv => exact hw.append hafter hrun hrecv
  | drained hrun hempty =>
    have hfits := hw.fits
    have hstop := hw.stopping
    rw [hrun] at hfits hstop
    exact ⟨hw.received, hw.sizes, Nat.le_of_lt hfits, fun _ => hstop trivial⟩
  | flushes after hrun => exact hw.flush hrun

@[simp] theorem LogWriter.flush_ch (w : LogWriter ε) (after : After) :
    (w.flush after).ch = w.ch := by
  unfold LogWriter.flush
  split <;> rfl

@[simp] theorem LogWriter.flush_run (w : LogWriter ε) (after : After) :
    (w.flush after).run = after.point := by
  unfold LogWriter.flush
  split <;> rfl

@[simp] theorem LogWriter.flush_stop (w : LogWriter ε) (after : After) :
    (w.flush after).stop = w.stop := by
  unfold LogWriter.flush
  split <;> rfl

theorem LogStep.entered (h : LogStep w t w' t') :
    (∃ e, t = .write e ∧ t' = .wrote e (some w.ch.entered.length) ∧
      w'.ch.entered = w.ch.entered ++ [e]) ∨
    (w'.ch.entered = w.ch.entered ∧ ∀ e n, t' ≠ .wrote e (some n)) := by
  cases h with
  | accepted e ch hsend => exact .inl ⟨e, rfl, rfl, Chan.entered_send hsend⟩
  | takes after hafter hrun e ch hrecv => exact .inr ⟨Chan.entered_recv hrecv, nofun⟩
  | flushes after hrun => exact .inr ⟨by rw [LogWriter.flush_ch], nofun⟩
  | _ => exact .inr ⟨rfl, nofun⟩

theorem LogStep.received (h : LogStep w t w' t') : w.ch.received <+: w'.ch.received := by
  cases h with
  | accepted e ch hsend =>
    obtain ⟨-, hreceived, -⟩ := Chan.send_eq_some hsend
    exact hreceived ▸ prefix_refl _
  | takes after hafter hrun e ch hrecv =>
    obtain ⟨-, hreceived, -⟩ := Chan.recv_eq_some hrecv
    exact ⟨[e], hreceived.symm⟩
  | flushes after hrun => exact ⟨[], by rw [LogWriter.flush_ch, append_nil]⟩
  | _ => exact prefix_refl _

theorem LogStep.ending (h : LogStep w t w' t') (hending : w'.run.Ending) :
    w.run.Ending ∨ w.ch.entered.length ≤ w'.ch.received.length := by
  cases h with
  | takes after hafter hrun e ch hrecv =>
    exfalso
    simp only [LogWriter.append] at hending
    split at hending <;> cases after <;> first | exact hafter rfl | exact hending
  | drained hrun hempty =>
    refine .inr (Nat.le_of_eq ?_)
    rw [Chan.entered, hempty, append_nil]
  | flushes after hrun =>
    rw [LogWriter.flush_run] at hending
    rw [hrun]
    cases after <;> exact .inl hending
  | stops | ticks => exact hending.elim
  | _ => exact .inl hending

theorem LogStep.returned (h : LogStep w t w' t') (hreturned : w.run = .returned) :
    w'.run = .returned := by
  cases h with
  | stops hrun | ticks hrun | drained hrun | flushes after hrun =>
    rw [hreturned] at hrun
    cases hrun
  | takes after hafter hrun =>
    rw [hreturned] at hrun
    cases after with
    | loop | drain => cases hrun
    | exit => exact absurd rfl hafter
  | _ => exact hreturned

end

/-! ## Whole runs -/

def LogPoint.receipt : LogPoint ε → Option (Nat × ε)
  | .wrote e (some n) => some (n, e)
  | _ => none

theorem log_receipts :
    Receipts (logCode (ε := ε)) (fun w => w.ch.entered) LogPoint.receipt where
  start r := by cases r <;> rfl
  step w ready t w' t' h := by
    have hstep := logStep_of_next h
    rcases hstep.entered with ⟨e, rfl, rfl, hentered⟩ | ⟨hsame, hnone⟩
    · exact .inr ⟨rfl, e, hentered, rfl⟩
    · refine .inl ⟨hsame, ?_⟩
      cases hstep with
      | accepted e ch hsend => exact absurd rfl (hnone e _)
      | _ => rfl

theorem RunPoint.Ending.stopping {r : RunPoint} (h : r.Ending) : r.Stopping := by
  cases r with
  | flush after => cases after <;> first | exact h | trivial
  | select => exact h
  | drain | returned => trivial

/-- `run` ends once it was asked to and has found the channel empty; `Close` waits for it. -/
theorem log_drains :
    Drains (logCode (ε := ε)) (fun w => w.ch.entered) (fun w => w.ch.received)
      LogWriter.Collected (fun w => w.run.Ending) (fun w => w.run = .returned)
      (· = .wait) (· = .closed) where
  start r := by cases r <;> exact ⟨nofun, nofun⟩
  inv w ready t w' t' hw h := (logStep_of_next h).collected hw
  grows w ready t w' t' h := ⟨log_receipts.log_prefix h, (logStep_of_next h).received⟩
  ends w ready t w' t' h := (logStep_of_next h).ending
  stays w ready t w' t' h := (logStep_of_next h).returned
  asks w ready t w' t' hw h := by
    rintro rfl
    cases logStep_of_next h with
    | closes hopen =>
      refine .inr fun hending => ?_
      rw [hw.stopping hending.stopping] at hopen
      cases hopen
  sees w ready t w' t' h := by
    rintro rfl
    cases logStep_of_next h with
    | closed hreturned => exact .inr ⟨rfl, hreturned, by rw [hreturned]; trivial⟩

theorem collected_run (hrun : runFrom (Pool.step logCode) newLogWriter ms = some p) :
    p.shared.Collected :=
  Pool.run_shared log_drains.inv LogWriter.Collected.new hrun

theorem receipted_run (hrun : runFrom (Pool.step logCode) newLogWriter ms = some p) :
    p.Receipted (fun w => w.ch.entered) LogPoint.receipt := by
  refine log_receipts.run (Pool.receipted_of_none rfl ?_) hrun
  intro t ht
  rw [mem_singleton.mp ht]
  rfl

theorem LogWriter.Collected.inserted_first (hw : w.Collected) : w.inserted <+: w.ch.entered :=
  (prefix_append _ _).trans (hw.received ▸ w.ch.received_first)

theorem closed_inserted {p' : Pool (LogWriter ε) (LogPoint ε)} (hp : p.shared.Collected)
    (hrun : runFrom (Pool.step logCode) p (.start .close :: ms) = some p')
    (hclosed : p'.threads[p.threads.length]? = some .closed) :
    p.shared.ch.entered <+: p'.shared.inserted := by
  obtain ⟨hcollected, hreturned, hfirst, hle⟩ := log_drains.run hp hrun hclosed rfl
  -- the last flush has emptied the buffer
  have hreceived : p'.shared.ch.received = p'.shared.inserted := by
    have hfits := hcollected.fits
    rw [hreturned] at hfits
    rw [hcollected.received, eq_nil_of_length_eq_zero hfits, append_nil]
  rw [hreceived] at hle
  exact prefix_of_prefix_length_le hfirst hcollected.inserted_first hle

/-- **The log writer delivers exactly once.** Every entry at place `n` of the store was given to
exactly one `Write`, as the `n`-th that entered the channel; every batch has between 1 and 500
entries; and if a `Close` has returned, every `Write` that had returned before it and was not
dropped has its entry in the store. -/
theorem delivered_exactly_once {ms : List (Move (LogCall ε) Ready)}
    {p : Pool (LogWriter ε) (LogPoint ε)}
    (hrun : runFrom (Pool.step logCode) newLogWriter ms = some p) :
    p.shared.inserted <+: p.shared.ch.entered ∧
    (∀ (n : Nat) (e : ε), p.shared.inserted[n]? = some e →
      ∃! i : Nat, p.threads[i]? = some (.wrote e (some n))) ∧
    (∀ b ∈ p.shared.batches, 1 ≤ b.length ∧ b.length ≤ 500) ∧
    ∀ (before after : List (Move (LogCall ε) Ready)) (q : Pool (LogWriter ε) (LogPoint ε)),
      ms = before ++ .start .close :: after →
      runFrom (Pool.step logCode) newLogWriter before = some q →
      p.threads[q.threads.length]? = some .closed →
      ∀ (i : Nat) (e : ε) (n : Nat), q.threads[i]? = some (.wrote e (some n)) →
        p.shared.inserted[n]? = some e := by
  have hcollected := collected_run hrun
  have hreceipts := receipted_run hrun
  have hfirst := hcollected.inserted_first
  refine ⟨hfirst, fun n e hn => ?_, hcollected.sizes, ?_⟩
  · have hentered : p.shared.ch.entered[n]? = some e := by
      obtain ⟨rest, hrest⟩ := hfirst
      rw [← hrest, List.getElem?_append_left (List.getElem?_eq_some_iff.mp hn).1, hn]
    obtain ⟨i, t, hi, hr⟩ := hreceipts.holder n e hentered
    have hpoint : ∀ u : LogPoint ε, u.receipt = some (n, e) → u = .wrote e (some n) := by
      intro u hu
      unfold LogPoint.receipt at hu
      split at hu
      · cases hu
        rfl
      · cases hu
    refine ⟨i, hpoint t hr ▸ hi, fun j hj => ?_⟩
    exact hreceipts.unique j i _ t n e e hj hi rfl hr
  · rintro before after q rfl hbefore hclosed i e n hi
    have hafter : runFrom (Pool.step logCode) q (.start .close :: after) = some p := by
      rw [runFrom_append, hbefore] at hrun
      exact hrun
    obtain ⟨rest, hrest⟩ := closed_inserted (collected_run hbefore) hafter hclosed
    have hentered := (receipted_run hbefore).entry i _ n e hi rfl
    rw [← hrest, List.getElem?_append_left (List.getElem?_eq_some_iff.mp hentered).1, hentered]

def twoEntries : List (Move (LogCall Nat) Ready) :=
  [.start (.write 7), .start (.write 8), .advance 1 .entry, .advance 0 .entry,
    .advance 2 .entry, .start .close, .advance 3 .stop, .advance 0 .stop, .advance 0 .stop,
    .advance 0 .stop, .advance 0 .stop, .advance 3 .stop]

theorem twoEntries_delivered :
    ∃ p, runFrom (Pool.step logCode) newLogWriter twoEntries = some p ∧
      p.shared.batches = [[7, 8]] ∧ p.shared.inserted[1]? = some 8 := by
  obtain ⟨p, hrun, hbatches, hclosed⟩ :
      ∃ p, runFrom (Pool.step logCode) newLogWriter twoEntries = some p ∧
        p.shared.batches = [[7, 8]] ∧ p.threads[3]? = some .closed := ⟨_, rfl, rfl, rfl⟩
  obtain ⟨q, hq, hlength, hwrote⟩ :
      ∃ q, runFrom (Pool.step logCode) newLogWriter (twoEntries.take 5) = some q ∧
        q.threads.length = 3 ∧ q.threads[2]? = some (.wrote 8 (some 1)) := ⟨_, rfl, rfl, rfl⟩
  refine ⟨p, hrun, hbatches, ?_⟩
  exact (delivered_exactly_once hrun).2.2.2 (twoEntries.take 5) (twoEntries.drop 6) q rfl hq
    (hlength ▸ hclosed) 2 8 1 hwrote

/-! ## Close returns -/

/-- What `run` has still to do once it was asked to stop: at most three steps for an entry
in the channel. -/
def LogWriter.remaining (w : LogWriter ε) : Nat :=
  3 * w.ch.queue.length +
    match w.run with
    | .flush .loop => 4
    | .select | .flush .drain => 3
    | .drain => 2
    | .flush .exit => 1
    | .returned => 0

theorem LogWriter.runNext_remaining (hstop : w.stop = true) (hne : w.run ≠ .returned) :
    ∃ w', w.runNext .stop = some w' ∧ w'.stop = true ∧ w'.remaining < w.remaining := by
  unfold LogWriter.runNext
  cases hrun : w.run with
  | select => exact ⟨{ w with run := .drain }, by simp [hstop], hstop, by simp [remaining, hrun]⟩
  | flush after =>
    refine ⟨w.flush after, rfl, by rw [flush_stop, hstop], ?_⟩
    simp only [remaining, flush_ch, flush_run, hrun]
    cases after <;> simp [After.point]
  | drain =>
    cases hrecv : w.ch.recv with
    | none => exact ⟨_, rfl, hstop, by simp [remaining, hrun]⟩
    | some r =>
      refine ⟨_, rfl, hstop, ?_⟩
      have hqueue : w.ch.queue.length = r.2.queue.length + 1 := by
        rw [(Chan.recv_eq_some hrecv).1, length_cons]
      simp only [remaining, LogWriter.append, hrun, hqueue]
      by_cases hfull : batchSize ≤ (w.buf ++ [r.1]).length
      · simp only [if_pos hfull]
        omega
      · simp only [if_neg hfull, After.point]
        omega
  | returned => exact absurd hrun hne

theorem run_returns (hstop : p.shared.stop = true) (hrun : p.threads[0]? = some .run) :
    ∃ k w, runFrom (Pool.step logCode) p (replicate k (.advance 0 .stop)) =
      some ⟨w, p.threads⟩ ∧ w.run = .returned := by
  induction hn : p.shared.remaining using Nat.strongRecOn generalizing p with
  | ind n ih =>
    by_cases hreturned : p.shared.run = .returned
    · exact ⟨0, p.shared, rfl, hreturned⟩
    · obtain ⟨w', hnext, hstop', hless⟩ := p.shared.runNext_remaining hstop hreturned
      obtain ⟨hlt, hself⟩ := List.getElem?_eq_some_iff.mp hrun
      have hthreads : p.threads.set 0 .run = p.threads := by
        rw [← hself]
        exact set_getElem_self hlt
      have hstep : p.step logCode (.advance 0 .stop) = some ⟨w', p.threads⟩ := by
        simp only [Pool.step, hrun, logCode, logNext, hnext, Option.map_some, hthreads]
      obtain ⟨k, w, hrest, hend⟩ :=
        ih w'.remaining (hn ▸ hless) (p := ⟨w', p.threads⟩) hstop' hrun rfl
      refine ⟨k + 1, w, ?_, hend⟩
      rw [replicate_succ, runFrom, hstep]
      exact hrest

theorem LogStep.asked {w' : LogWriter ε} {t t' : LogPoint ε} (h : LogStep w t w' t') :
    (w.stop = true ∨ t' = .wait → w'.stop = true) ∧ (t = .run → t' = .run) := by
  cases h with
  | flushes after =>
    unfold LogWriter.flush
    split <;> simp
  | _ => simp_all [LogWriter.append]

/-- The goroutine is the first thread, and whoever waits for it has asked it to stop. -/
theorem waiting_run (hrun : runFrom (Pool.step logCode) newLogWriter ms = some p) :
    p.threads[0]? = some .run ∧ (.wait ∈ p.threads → p.shared.stop = true) := by
  refine runFrom_preserves (P := fun q => q.threads[0]? = some .run ∧
    (.wait ∈ q.threads → q.shared.stop = true)) ?_ ⟨rfl, by simp [newLogWriter]⟩ hrun
  rintro q m q' ⟨hfirst, hwait⟩ hstep
  cases m with
  | start c =>
    obtain rfl : _ = q' := Option.some.inj hstep
    refine ⟨getElem?_concat hfirst _, fun hmem => ?_⟩
    rcases mem_append.mp hmem with hmem | hmem
    · exact hwait hmem
    · cases c <;> cases mem_singleton.mp hmem
  | advance i x =>
    obtain ⟨t, w', t', ht, hnext, rfl⟩ := Pool.step_advance hstep
    obtain ⟨hasked, hself⟩ := (logStep_of_next hnext).asked
    refine ⟨?_, fun hmem => hasked ?_⟩
    · by_cases hi : i = 0
      · subst hi
        rw [hself (Option.some.inj (ht.symm.trans hfirst))]
        exact List.getElem?_set_self (List.getElem?_eq_some_iff.mp ht).1
      · exact (List.getElem?_set_ne hi).trans hfirst
    · exact (List.mem_or_eq_of_mem_set hmem).imp hwait Eq.symm

/-- **`Close` returns.** A `Close` that waits needs only steps of the goroutine and one of its own
to return. -/
theorem close_returns {i : Nat} (hrun : runFrom (Pool.step logCode) newLogWriter ms = some p)
    (hi : p.threads[i]? = some .wait) :
    ∃ k p', runFrom (Pool.step logCode) p
        (replicate k (.advance 0 .stop) ++ [.advance i .stop]) = some p' ∧
      p'.threads[i]? = some .closed := by
  obtain ⟨hfirst, hwait⟩ := waiting_run hrun
  obtain ⟨k, w, hreach, hreturned⟩ := run_returns (hwait (List.mem_of_getElem? hi)) hfirst
  obtain ⟨hlt, -⟩ := List.getElem?_eq_some_iff.mp hi
  refine ⟨k, ⟨w, p.threads.set i .closed⟩, ?_, List.getElem?_set_self hlt⟩
  rw [runFrom_append, hreach]
  simp [runFrom, Pool.step, hi, logCode, logNext, hreturned]

theorem close_returns_after_write :
    ∃ p, runFrom (Pool.step logCode) newLogWriter (twoEntries.take 7) = some p ∧
      ∃ k p', runFrom (Pool.step logCode) p
        (replicate k (.advance 0 .stop) ++ [.advance 3 .stop]) = some p' ∧
        p'.threads[3]? = some .closed :=
  ⟨_, rfl, @close_returns _ (twoEntries.take 7) _ _ rfl rfl⟩

end LlmRouter.Telemetry
