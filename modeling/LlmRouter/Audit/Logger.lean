import LlmRouter.Lib.Chan
import Mathlib.Data.List.Perm.Subperm

/-!
# LlmRouter — the audit logger and its shutdown

`Record` puts an event into a channel without waiting, a goroutine (`run`) inserts the events one
by one, and `Close` closes the channel and waits for the goroutine. A send on a closed channel
panics, also in a `select` with a `default`; `shutdown_iff` says when that cannot happen.
-/

namespace LlmRouter.Audit

open Lib List

/-! ## The logger -/

/-- `Event`, with the fields that the logger looks at; a zero time is `none`. -/
structure Event where
  eventType : String
  timestamp : Option Nat := none
  deriving DecidableEq, Repr

def Event.stamp (e : Event) (now : Nat) : Event :=
  { e with timestamp := e.timestamp.or (some now) }

/-- Where `run` stands: at the head of its loop, with an event in hand, or at its end, where
it has closed `done`. -/
inductive Worker where
  | range
  | insert (e : Event)
  | returned
  deriving DecidableEq, Repr

structure Logger where
  ch : Chan Event 1000 := {}
  run : Worker := .range
  inserted : List Event := []

inductive AuditCall where
  | record (e : Event)
  | close
  deriving DecidableEq, Repr

inductive AuditPoint where
  | record (e : Event)
  | send (e : Event)
  | recorded (e : Event) (ticket : Option Nat)
  | panicked (e : Event)
  | close
  | wait
  | closed
  | closedTwice
  | run
  deriving DecidableEq, Repr

def AuditCall.start : AuditCall → AuditPoint
  | .record e => .record e
  | .close => .close

def Logger.runNext (l : Logger) : Option Logger :=
  match l.run with
  | .range =>
    match l.ch.recv with
    | some r => some { l with ch := r.2, run := .insert r.1 }
    | none => if l.ch.closed then some { l with run := .returned } else none
  | .insert e => some { l with inserted := l.inserted ++ [e], run := .range }
  | .returned => none

def auditNext (l : Logger) (now : Nat) : AuditPoint → Option (Logger × AuditPoint)
  | .record e => some (l, .send (e.stamp now))
  | .send e =>
    -- a closed channel is ready for a send, which panics
    if l.ch.closed then some (l, .panicked e)
    else
      match l.ch.send e with
      | some ch => some ({ l with ch := ch }, .recorded e (some l.ch.entered.length))
      | none => some (l, .recorded e none)
  | .close =>
    if l.ch.closed then some (l, .closedTwice)
    else some ({ l with ch := l.ch.close }, .wait)
  | .wait => if l.run = .returned then some (l, .closed) else none
  | .run => l.runNext.map fun l' => (l', .run)
  | .recorded _ _ | .panicked _ | .closed | .closedTwice => none

def auditCode : Code Logger AuditCall AuditPoint Nat where
  start := AuditCall.start
  next := auditNext

def newLogger : Pool Logger AuditPoint := ⟨{}, [.run]⟩

inductive AuditStep (l : Logger) (now : Nat) : AuditPoint → Logger → AuditPoint → Prop
  | stamps (e : Event) : AuditStep l now (.record e) l (.send (e.stamp now))
  | enqueues (e : Event) (hopen : l.ch.closed = false) (ch : Chan Event 1000)
      (hsend : l.ch.send e = some ch) :
    AuditStep l now (.send e) { l with ch := ch } (.recorded e (some l.ch.entered.length))
  | drops (e : Event) (hopen : l.ch.closed = false) :
    AuditStep l now (.send e) l (.recorded e none)
  | panics (e : Event) (hclosed : l.ch.closed = true) :
    AuditStep l now (.send e) l (.panicked e)
  | closes (hopen : l.ch.closed = false) :
    AuditStep l now .close { l with ch := l.ch.close } .wait
  | closesTwice (hclosed : l.ch.closed = true) : AuditStep l now .close l .closedTwice
  | closed (hreturned : l.run = .returned) : AuditStep l now .wait l .closed
  | takes (hrun : l.run = .range) (e : Event) (ch : Chan Event 1000)
      (hrecv : l.ch.recv = some (e, ch)) :
    AuditStep l now .run { l with ch := ch, run := .insert e } .run
  | ends (hrun : l.run = .range) (hempty : l.ch.queue = []) (hclosed : l.ch.closed = true) :
    AuditStep l now .run { l with run := .returned } .run
  | inserts (e : Event) (hrun : l.run = .insert e) :
    AuditStep l now .run { l with inserted := l.inserted ++ [e], run := .range } .run

variable {t : AuditPoint} {e : Event} {ms : List (Move AuditCall Nat)}
  {p p' : Pool Logger AuditPoint}

theorem auditStep_of_next {l l' : Logger} {now : Nat} {t' : AuditPoint}
    (h : auditNext l now t = some (l', t')) : AuditStep l now t l' t' := by
  revert h
  fun_cases auditNext l now t with
  | case1 e => rintro ⟨⟩; exact .stamps e
  | case2 e hclosed => rintro ⟨⟩; exact .panics e hclosed
  | case3 e hopen ch hsend => rintro ⟨⟩; exact .enqueues e (Bool.not_eq_true _ ▸ hopen) ch hsend
  | case4 e hopen => rintro ⟨⟩; exact .drops e (Bool.not_eq_true _ ▸ hopen)
  | case5 hclosed => rintro ⟨⟩; exact .closesTwice hclosed
  | case6 hopen => rintro ⟨⟩; exact .closes (Bool.not_eq_true _ ▸ hopen)
  | case7 hreturned => rintro ⟨⟩; exact .closed hreturned
  | case9 =>
    fun_cases Logger.runNext l with
    | case1 hrun r hrecv => rintro ⟨⟩; exact .takes hrun r.1 r.2 hrecv
    | case2 hrun hrecv hclosed =>
      rintro ⟨⟩
      exact .ends hrun (Chan.recv_eq_none_iff.mp hrecv) hclosed
    | case4 e hrun => rintro ⟨⟩; exact .inserts e hrun
    | _ => rintro ⟨⟩
  | _ => rintro ⟨⟩

/-! ## What the goroutine has inserted -/

def Worker.inHand : Worker → List Event
  | .insert e => [e]
  | .range | .returned => []

structure Logger.Collected (l : Logger) : Prop where
  received : l.ch.received = l.inserted ++ l.run.inHand
  closed : l.run = .returned → l.ch.closed = true

theorem Logger.Collected.inserted_first {l : Logger} (hl : l.Collected) :
    l.inserted <+: l.ch.entered :=
  (prefix_append _ _).trans (hl.received ▸ l.ch.received_first)

section

variable {l l' : Logger} {now : Nat} {t t' : AuditPoint}

/-- A step keeps what is inserted the first records received. -/
theorem AuditStep.collected (h : AuditStep l now t l' t') (hl : l.Collected) : l'.Collected := by
  cases h with
  | enqueues e hopen ch hsend =>
    obtain ⟨-, hreceived, hsame⟩ := Chan.send_eq_some hsend
    exact ⟨hreceived.trans hl.received, fun hreturned => hsame.trans (hl.closed hreturned)⟩
  | closes hopen => exact ⟨hl.received, fun _ => rfl⟩
  | takes hrun e ch hrecv =>
    obtain ⟨-, hreceived, -⟩ := Chan.recv_eq_some hrecv
    refine ⟨?_, nofun⟩
    show ch.received = l.inserted ++ [e]
    rw [hreceived, hl.received, hrun, Worker.inHand, append_nil]
  | ends hrun hempty hclosed =>
    refine ⟨?_, fun _ => hclosed⟩
    show l.ch.received = l.inserted ++ []
    rw [hl.received, hrun, Worker.inHand]
  | inserts e hrun =>
    refine ⟨?_, nofun⟩
    show l.ch.received = l.inserted ++ [e] ++ []
    rw [hl.received, hrun, Worker.inHand, append_nil]
  | _ => exact hl

theorem AuditStep.entered (h : AuditStep l now t l' t') :
    (∃ e, t = .send e ∧ t' = .recorded e (some l.ch.entered.length) ∧
      l'.ch.entered = l.ch.entered ++ [e]) ∨
    (l'.ch.entered = l.ch.entered ∧ ∀ e n, t' ≠ .recorded e (some n)) := by
  cases h with
  | enqueues e hopen ch hsend => exact .inl ⟨e, rfl, rfl, Chan.entered_send hsend⟩
  | takes hrun e ch hrecv => exact .inr ⟨Chan.entered_recv hrecv, nofun⟩
  | _ => exact .inr ⟨rfl, nofun⟩

theorem AuditStep.received (h : AuditStep l now t l' t') : l.ch.received <+: l'.ch.received := by
  cases h with
  | enqueues e hopen ch hsend =>
    obtain ⟨-, hreceived, -⟩ := Chan.send_eq_some hsend
    exact hreceived ▸ prefix_refl _
  | takes hrun e ch hrecv =>
    obtain ⟨-, hreceived, -⟩ := Chan.recv_eq_some hrecv
    exact ⟨[e], hreceived.symm⟩
  | _ => exact prefix_refl _

theorem AuditStep.ending (h : AuditStep l now t l' t') (hreturned : l'.run = .returned) :
    l.run = .returned ∨ l.ch.entered.length ≤ l'.ch.received.length := by
  cases h with
  | takes | inserts => cases hreturned
  | ends hrun hempty hclosed =>
    refine .inr (Nat.le_of_eq ?_)
    rw [Chan.entered, hempty, append_nil]
  | _ => exact .inl hreturned

theorem AuditStep.returned (h : AuditStep l now t l' t') (hreturned : l.run = .returned) :
    l'.run = .returned := by
  cases h with
  | takes hrun | inserts e hrun =>
    rw [hreturned] at hrun
    cases hrun
  | ends => rfl
  | _ => exact hreturned

end

def AuditPoint.receipt : AuditPoint → Option (Nat × Event)
  | .recorded e (some n) => some (n, e)
  | _ => none

theorem AuditPoint.eq_of_receipt {n : Nat} (h : t.receipt = some (n, e)) :
    t = .recorded e (some n) := by
  unfold AuditPoint.receipt at h
  split at h
  · cases h
    rfl
  · cases h

theorem audit_receipts : Receipts auditCode (fun l => l.ch.entered) AuditPoint.receipt where
  start r := by cases r <;> rfl
  step l now t l' t' h := by
    have hstep := auditStep_of_next h
    rcases hstep.entered with ⟨e, rfl, rfl, hentered⟩ | ⟨hsame, hnone⟩
    · exact .inr ⟨rfl, e, hentered, rfl⟩
    · refine .inl ⟨hsame, ?_⟩
      cases hstep with
      | enqueues e hopen ch hsend => exact absurd rfl (hnone e _)
      | _ => rfl

/-- `run` returns once the channel is closed and empty; `Close` waits for it. -/
theorem audit_drains :
    Drains auditCode (fun l => l.ch.entered) (fun l => l.ch.received) Logger.Collected
      (fun l => l.run = .returned) (fun l => l.run = .returned) (· = .wait) (· = .closed) where
  start r := by cases r <;> exact ⟨nofun, nofun⟩
  inv l now t l' t' hl h := (auditStep_of_next h).collected hl
  grows l now t l' t' h := ⟨audit_receipts.log_prefix h, (auditStep_of_next h).received⟩
  ends l now t l' t' h := (auditStep_of_next h).ending
  stays l now t l' t' h := (auditStep_of_next h).returned
  asks l now t l' t' hl h := by
    rintro rfl
    cases auditStep_of_next h with
    | closes hopen =>
      refine .inr fun hreturned => ?_
      rw [hl.closed hreturned] at hopen
      cases hopen
  sees l now t l' t' h := by
    rintro rfl
    cases auditStep_of_next h with
    | closed hreturned => exact .inr ⟨rfl, hreturned, hreturned⟩

structure Recorded (p : Pool Logger AuditPoint) : Prop where
  collected : p.shared.Collected
  receipts : p.Receipted (fun l => l.ch.entered) AuditPoint.receipt

theorem recorded_run (hp : Recorded p) (hrun : runFrom (Pool.step auditCode) p ms = some p') :
    Recorded p' :=
  ⟨Pool.run_shared audit_drains.inv hp.collected hrun, audit_receipts.run hp.receipts hrun⟩

theorem recorded_new : Recorded newLogger := by
  refine ⟨⟨rfl, nofun⟩, Pool.receipted_of_none rfl ?_⟩
  intro t ht
  rw [mem_singleton.mp ht]
  rfl

/-! ## The shutdown -/

def AuditPoint.UnderWay : AuditPoint → Prop
  | .record _ | .send _ => True
  | _ => False

/-- A shutdown from the call of `Close` in `p` to `p'` is safe: no `Record` has panicked, events are
inserted in order, each for one `Record`, and if `Close` has returned, so has every event that was
enqueued before it. -/
structure Safe (p p' : Pool Logger AuditPoint) : Prop where
  noPanic : ∀ (i : Nat) (e : Event), p'.threads[i]? ≠ some (.panicked e)
  order : p'.shared.inserted <+: p'.shared.ch.entered
  once : ∀ (n : Nat) (e : Event), p'.shared.inserted[n]? = some e →
    ∃! i : Nat, p'.threads[i]? = some (.recorded e (some n))
  delivered : p'.threads[p.threads.length]? = some .closed →
    ∀ (i : Nat) (e : Event) (n : Nat), p.threads[i]? = some (.recorded e (some n)) →
      p'.shared.inserted[n]? = some e

theorem Recorded.once (hp : Recorded p) {n : Nat} (hn : p.shared.inserted[n]? = some e) :
    ∃! i : Nat, p.threads[i]? = some (.recorded e (some n)) := by
  obtain ⟨rest, hrest⟩ := hp.collected.inserted_first
  have hentered : p.shared.ch.entered[n]? = some e := by
    rw [← hrest, List.getElem?_append_left (List.getElem?_eq_some_iff.mp hn).1, hn]
  obtain ⟨i, t, hi, hr⟩ := hp.receipts.holder n e hentered
  refine ⟨i, AuditPoint.eq_of_receipt hr ▸ hi, fun j hj => ?_⟩
  exact hp.receipts.unique j i _ t n e e hj hi rfl hr

/-- **What was recorded is delivered**, also if another `Record` panics. -/
theorem recorded_delivered (hp : Recorded p)
    (hrun : runFrom (Pool.step auditCode) p (.start .close :: ms) = some p')
    (hclosed : p'.threads[p.threads.length]? = some .closed) {i : Nat} {n : Nat}
    (hi : p.threads[i]? = some (.recorded e (some n))) : p'.shared.inserted[n]? = some e := by
  obtain ⟨hcollected, hreturned, hfirst, hle⟩ := audit_drains.run hp.collected hrun hclosed rfl
  have hreceived : p'.shared.ch.received = p'.shared.inserted := by
    rw [hcollected.received, hreturned, Worker.inHand, append_nil]
  rw [hreceived] at hle
  obtain ⟨rest, hrest⟩ :=
    prefix_of_prefix_length_le hfirst hcollected.inserted_first hle
  have hentered := hp.receipts.entry i _ n e hi rfl
  rw [← hrest, List.getElem?_append_left (List.getElem?_eq_some_iff.mp hentered).1, hentered]

theorem open_run (hrun : runFrom (Pool.step auditCode) newLogger ms = some p)
    (hopen : AuditCall.close ∉ started ms) :
    p.shared.ch.closed = false ∧ ∀ t ∈ p.threads, ∀ e, t ≠ .panicked e := by
  have hrecords : AlongFrom (Pool.step auditCode) (fun _ m => m ≠ .start .close) newLogger ms := by
    refine alongFrom_of_mem ?_ _
    rintro m hm rfl
    exact hopen (mem_started.mpr hm)
  have hP : p.shared.ch.closed = false ∧
      ∀ t ∈ p.threads, t ≠ .close ∧ ∀ e, t ≠ .panicked e := by
    refine runFrom_invariant (P := fun q => q.shared.ch.closed = false ∧
      ∀ t ∈ q.threads, t ≠ .close ∧ ∀ e, t ≠ .panicked e) ?_ ⟨rfl, by simp [newLogger]⟩
      hrecords hrun
    rintro q m q' ⟨hq, hthreads⟩ hm h
    cases m with
    | start r =>
      obtain rfl : _ = q' := Option.some.inj h
      refine ⟨hq, fun t ht => ?_⟩
      rcases mem_append.mp ht with ht | ht
      · exact hthreads t ht
      · rw [mem_singleton.mp ht]
        cases r with
        | record e => simp [auditCode, AuditCall.start]
        | close => exact absurd rfl hm
    | advance i now =>
      obtain ⟨t, l', t', ht, hnext, rfl⟩ := Pool.step_advance h
      have hne := (hthreads t (mem_of_getElem? ht)).1
      have hstep := auditStep_of_next hnext
      refine ⟨?_, fun u hu => ?_⟩
      · cases hstep with
        | enqueues e hopen ch hsend => exact (Chan.send_eq_some hsend).2.2.trans hq
        | takes hrun e ch hrecv => exact (Chan.recv_eq_some hrecv).2.2.trans hq
        | closes => exact absurd rfl hne
        | _ => exact hq
      · rcases mem_or_eq_of_mem_set hu with hu | rfl
        · exact hthreads u hu
        · cases hstep with
          | panics e hclosed =>
            rw [hq] at hclosed
            cases hclosed
          | _ => simp
  exact ⟨hP.1, fun t ht => (hP.2 t ht).2⟩

theorem quiet_noPanic (hp : ∀ t ∈ p.threads, ¬ t.UnderWay ∧ ∀ e, t ≠ .panicked e)
    (hms : started ms = []) (hrun : runFrom (Pool.step auditCode) p (.start .close :: ms) = some p') :
    ∀ t ∈ p'.threads, ∀ e, t ≠ .panicked e := by
  have hcloses : AlongFrom (Pool.step auditCode) (fun _ m => ∀ e, m ≠ .start (.record e)) p
      (.start .close :: ms) := by
    refine alongFrom_of_mem ?_ _
    rintro m hm e rfl
    have hstarted := mem_started.mpr hm
    rw [started, hms] at hstarted
    cases mem_singleton.mp hstarted
  suffices hP : ∀ t ∈ p'.threads, ¬ t.UnderWay ∧ ∀ e, t ≠ .panicked e from
    fun t ht => (hP t ht).2
  refine runFrom_invariant (P := fun q => ∀ t ∈ q.threads, ¬ t.UnderWay ∧ ∀ e, t ≠ .panicked e)
    ?_ hp hcloses hrun
  intro q m q' hq hm h
  cases m with
  | start r =>
    obtain rfl : _ = q' := Option.some.inj h
    intro t ht
    rcases mem_append.mp ht with ht | ht
    · exact hq t ht
    · rw [mem_singleton.mp ht]
      cases r with
      | record e => exact absurd rfl (hm e)
      | close => exact ⟨id, by simp [auditCode, AuditCall.start]⟩
  | advance i now =>
    obtain ⟨t, l', t', ht, hnext, rfl⟩ := Pool.step_advance h
    have hquiet := (hq t (mem_of_getElem? ht)).1
    intro u hu
    rcases mem_or_eq_of_mem_set hu with hu | rfl
    · exact hq u hu
    · cases auditStep_of_next hnext with
      | stamps | enqueues | drops | panics => exact absurd trivial hquiet
      | _ => exact ⟨id, by simp⟩

theorem close_first (hopen : p.shared.ch.closed = false) :
    runFrom (Pool.step auditCode) p [.start .close, .advance p.threads.length 0] =
      some ⟨{ p.shared with ch := p.shared.ch.close }, p.threads ++ [.wait]⟩ := by
  simp [runFrom, Pool.step, auditCode, auditNext, AuditCall.start, hopen]

theorem underWay_panics (hclosed : p.shared.ch.closed = true) {i : Nat}
    (hi : p.threads[i]? = some t) (ht : t.UnderWay) :
    ∃ ms p' e, started ms = [] ∧ runFrom (Pool.step auditCode) p ms = some p' ∧
      p'.threads[i]? = some (.panicked e) := by
  obtain ⟨hlt, -⟩ := List.getElem?_eq_some_iff.mp hi
  cases t with
  | send e =>
    refine ⟨[.advance i 0], ⟨p.shared, p.threads.set i (.panicked e)⟩, e, rfl, ?_,
      getElem?_set_self hlt⟩
    simp [runFrom, Pool.step, hi, auditCode, auditNext, hclosed]
  | record e =>
    refine ⟨[.advance i 0, .advance i 0],
      ⟨p.shared, p.threads.set i (.panicked (e.stamp 0))⟩, e.stamp 0, rfl, ?_,
      getElem?_set_self hlt⟩
    simp [runFrom, Pool.step, hi, auditCode, auditNext, hclosed, getElem?_set_self hlt]
  | _ => exact ht.elim

/-- **When a shutdown is safe.** After any run of `Record` calls, every interleaving with `Close`
and the calls of `later` is safe iff no `Record` is under way when `Close` is called and none is
made later. -/
theorem shutdown_iff {before : List (Move AuditCall Nat)} {p : Pool Logger AuditPoint}
    (hrun : runFrom (Pool.step auditCode) newLogger before = some p)
    (hopen : AuditCall.close ∉ started before) (later : List Event) :
    (∀ ms p', (started ms).Subperm (later.map .record) →
        runFrom (Pool.step auditCode) p (.start .close :: ms) = some p' → Safe p p') ↔
      (∀ t ∈ p.threads, ¬ t.UnderWay) ∧ later = [] := by
  obtain ⟨hchannel, hpanic⟩ := open_run hrun hopen
  have hrecorded := recorded_run recorded_new hrun
  have hclose := close_first hchannel
  constructor
  · intro hsafe
    -- with a `Record` under way once the channel is closed, one interleaving is not safe
    have hnone : ∀ ms q (i : Nat) t, (started ms).Subperm (later.map .record) →
        runFrom (Pool.step auditCode) ⟨{ p.shared with ch := p.shared.ch.close },
          p.threads ++ [.wait]⟩ ms = some q →
        q.shared.ch.closed = true → q.threads[i]? = some t → ¬ t.UnderWay := by
      intro ms q i t hms hq hclosed hi ht
      obtain ⟨ms', p', e, hms', hrun', hi'⟩ := underWay_panics hclosed hi ht
      have hall : runFrom (Pool.step auditCode) p
          (.start .close :: (.advance p.threads.length 0 :: (ms ++ ms'))) = some p' := by
        show runFrom (Pool.step auditCode) p
          ([.start .close, .advance p.threads.length 0] ++ (ms ++ ms')) = some p'
        rw [runFrom_append, hclose, Option.bind_some, runFrom_append, hq, Option.bind_some, hrun']
      refine (hsafe _ p' ?_ hall).noPanic i e hi'
      rw [started, started_append, hms', append_nil]
      exact hms
    refine ⟨fun t ht hunder => ?_, ?_⟩
    · obtain ⟨i, hi⟩ := mem_iff_getElem?.mp ht
      exact hnone [] _ i t nil_subperm rfl rfl (getElem?_concat hi _) hunder
    · cases later with
      | nil => rfl
      | cons e rest =>
        refine absurd ?_ (hnone [.start (.record e)] _ (p.threads ++ [AuditPoint.wait]).length
          (.record e)
          ?_ rfl rfl getElem?_concat_length)
        · trivial
        · exact ((nil_sublist _).cons_cons _).subperm
  · rintro ⟨hquiet, rfl⟩ ms p' hms hrun'
    have hstarted : started ms = [] := subperm_nil.mp hms
    have hrecorded' := recorded_run hrecorded hrun'
    have hsafe := quiet_noPanic (fun t ht => ⟨hquiet t ht, hpanic t ht⟩) hstarted hrun'
    exact ⟨fun i e hi => hsafe _ (mem_of_getElem? hi) e rfl,
      hrecorded'.collected.inserted_first, fun n e hn => hrecorded'.once hn,
      fun hclosed i e n hi => recorded_delivered hrecorded hrun' hclosed hi⟩

def lateRecord : List (Move AuditCall Nat) :=
  [.start (.record ⟨"key.created", none⟩), .start .close, .advance 2 0, .advance 1 5, .advance 1 5]

theorem lateRecord_panics :
    ∃ p, runFrom (Pool.step auditCode) newLogger lateRecord = some p ∧
      p.threads[1]? = some (.panicked ⟨"key.created", some 5⟩) := ⟨_, rfl, rfl⟩

/-- Two calls of `Record` at once, with a flush between them. -/
def twoRecords : List (Move AuditCall Nat) :=
  [.start (.record ⟨"key.created", none⟩), .start (.record ⟨"key.deleted", none⟩), .advance 2 5,
    .advance 2 5, .advance 0 6, .advance 1 7, .advance 1 7]

theorem shutdown_after_two_records :
    ∃ p, runFrom (Pool.step auditCode) newLogger twoRecords = some p ∧
      ∀ ms p', (started ms).Subperm [] →
        runFrom (Pool.step auditCode) p (.start .close :: ms) = some p' → Safe p p' := by
  obtain ⟨p, hrun, hthreads⟩ : ∃ p, runFrom (Pool.step auditCode) newLogger twoRecords = some p ∧
      p.threads = [.run, .recorded ⟨"key.created", some 7⟩ (some 1),
        .recorded ⟨"key.deleted", some 5⟩ (some 0)] := ⟨_, rfl, rfl⟩
  refine ⟨p, hrun, (shutdown_iff hrun (by decide) []).mpr ⟨fun t ht => ?_, rfl⟩⟩
  simp only [hthreads, mem_cons, not_mem_nil, or_false] at ht
  rcases ht with rfl | rfl | rfl <;> exact id

end LlmRouter.Audit
