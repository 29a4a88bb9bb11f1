import LlmRouter.Lib.Chan

/-!
# A stage between two bounded channels

A source sends values over a bounded channel to a stage, which sends what it makes of them over a
second one to a sink. The sink may leave at any time and the stage may return early, and nobody
tells the one who sends. A send is stuck if no continuation of the run completes it
(`SourceStuck`, `StageStuck`); `Stage.live_iff` says when this cannot happen.
-/

namespace LlmRouter.Lib

open List

variable {ε α S : Type*} {m n : Nat}

/-! ### Source, stage and sink -/

/-- What a stage sends for a value, and the state in which it waits for the next; `none` if it
returns. -/
structure Stage (ε α S : Type*) where
  start : S
  read : S → ε → List α × Option S

/-- What the stage sends for these values, and the values after the one at which it
returns. -/
def Stage.run (g : Stage ε α S) : S → List ε → List α × List ε
  | _, [] => ([], [])
  | s, e :: es =>
    match g.read s e with
    | (out, none) => (out, es)
    | (out, some s') => (out ++ (g.run s' es).1, (g.run s' es).2)

/-- If values alone decide when the stage returns, it leaves what follows the first of them. -/
theorem Stage.unread_eq {g : Stage ε α S} {ends : ε → Bool}
    (h : ∀ s e, (g.read s e).2.isNone = ends e) (s : S) (es : List ε) :
    (g.run s es).2 = (es.dropWhile fun e => !ends e).tail := by
  induction es generalizing s with
  | nil => rfl
  | cons e es ih =>
    rw [Stage.run, dropWhile_cons, ← h s e]
    split <;> rename_i hread <;> rw [hread]
    · rfl
    · exact ih _

/-- Where the source stands: it gets its next value, or sends one. -/
inductive SourcePoint (ε : Type*) where
  | reading (rest : List ε)
  | sending (e : ε) (rest : List ε)
  | returned

/-- The stage waits for a value, has so much left to send, or has returned. -/
inductive StagePoint (α S : Type*) where
  | receiving (s : S)
  | sending (out : List α) (next : Option S)
  | returned

/-- The two channels, with those who send on them and whether the sink still listens. -/
structure Relay (ε α S : Type*) (m n : Nat) where
  source : SourcePoint ε
  inbox : Chan ε m := {}
  stage : StagePoint α S
  outbox : Chan α n := {}
  listening : Bool := true

/-- Who takes a step. What the source reads from may fail at any time. -/
inductive RelayMove where
  | source (fails : Bool)
  | stage
  | take
  | leave
  deriving DecidableEq, Repr

namespace Relay

variable (g : Stage ε α S)

def init (es : List ε) : Relay ε α S m n :=
  { source := .reading es, stage := .receiving g.start }

def sourceNext (p : Relay ε α S m n) (fails : Bool) : Option (Relay ε α S m n) :=
  match p.source with
  | .reading rest =>
    match fails, rest with
    | false, e :: rest => some { p with source := .sending e rest }
    | _, _ => some { p with source := .returned, inbox := p.inbox.close }
  | .sending e rest =>
    (p.inbox.send e).map fun c => { p with source := .reading rest, inbox := c }
  | .returned => none

/-- The stage closes its channel when it returns, after a value or because its own channel
is closed and empty. -/
def stageNext (p : Relay ε α S m n) : Option (Relay ε α S m n) :=
  match p.stage with
  | .receiving s =>
    match p.inbox.recv with
    | some (e, c) =>
      some { p with inbox := c, stage := .sending (g.read s e).1 (g.read s e).2 }
    | none =>
      if p.inbox.closed then some { p with stage := .returned, outbox := p.outbox.close }
      else none
  | .sending (a :: out) next =>
    (p.outbox.send a).map fun c => { p with stage := .sending out next, outbox := c }
  | .sending [] (some s) => some { p with stage := .receiving s }
  | .sending [] none => some { p with stage := .returned, outbox := p.outbox.close }
  | .returned => none

variable (last : α → Bool) (p : Relay ε α S m n)

def take : Option (Relay ε α S m n) :=
  if p.listening then
    match p.outbox.recv with
    | some (a, c) => some { p with outbox := c, listening := !last a }
    | none => if p.outbox.closed then some { p with listening := false } else none
  else none

def leave (p : Relay ε α S m n) : Option (Relay ε α S m n) :=
  if p.listening then some { p with listening := false } else none

def step : RelayMove → Option (Relay ε α S m n)
  | .source fails => p.sourceNext fails
  | .stage => p.stageNext g
  | .take => p.take last
  | .leave => p.leave

/-- The source is in a send that nobody will ever receive. -/
def SourceStuck : Prop :=
  (∃ e rest, p.source = .sending e rest) ∧
    ∀ p', CanReach (step g last) p p' → p'.source = p.source

/-- The stage is in a send that nobody will ever receive. -/
def StageStuck : Prop :=
  (∃ a out next, p.stage = .sending (a :: out) next) ∧
    ∀ p', CanReach (step g last) p p' → p'.stage = p.stage

end Relay

/-- Whatever has happened so far, nobody is stuck in a send, and both can go on to close their
channels. -/
structure Stage.Live (g : Stage ε α S) (last : α → Bool) (m n : Nat) (es : List ε) : Prop where
  unstuck : ∀ p : Relay ε α S m n, CanReach (Relay.step g last) (.init g es) p →
    ¬ p.SourceStuck g last ∧ ¬ p.StageStuck g last
  closes : ∀ p : Relay ε α S m n, CanReach (Relay.step g last) (.init g es) p →
    ∃ p', CanReach (Relay.step g last) p p' ∧ p'.inbox.closed = true ∧ p'.outbox.closed = true

/-! ### What a step does -/

namespace Relay

/-- What a step can do, whoever takes it. -/
inductive Effect (g : Stage ε α S) (last : α → Bool) (p : Relay ε α S m n) :
    Relay ε α S m n → Prop where
  | read {e rest} (h : p.source = .reading (e :: rest)) :
      Effect g last p { p with source := .sending e rest }
  | ended {rest} (h : p.source = .reading rest) :
      Effect g last p { p with source := .returned, inbox := p.inbox.close }
  | sent {e rest c} (h : p.source = .sending e rest) (hsend : p.inbox.send e = some c) :
      Effect g last p { p with source := .reading rest, inbox := c }
  | received {s e c} (h : p.stage = .receiving s) (hrecv : p.inbox.recv = some (e, c)) :
      Effect g last p
        { p with inbox := c, stage := .sending (g.read s e).1 (g.read s e).2 }
  | exhausted {s} (h : p.stage = .receiving s) (hrecv : p.inbox.recv = none)
      (hclosed : p.inbox.closed = true) :
      Effect g last p { p with stage := .returned, outbox := p.outbox.close }
  | put {a out next c} (h : p.stage = .sending (a :: out) next)
      (hsend : p.outbox.send a = some c) :
      Effect g last p { p with stage := .sending out next, outbox := c }
  | resumed {s} (h : p.stage = .sending [] (some s)) :
      Effect g last p { p with stage := .receiving s }
  | finished (h : p.stage = .sending [] none) :
      Effect g last p { p with stage := .returned, outbox := p.outbox.close }
  | taken {a c} (hlistening : p.listening = true) (hrecv : p.outbox.recv = some (a, c)) :
      Effect g last p { p with outbox := c, listening := !last a }
  | left (hlistening : p.listening = true) : Effect g last p { p with listening := false }

variable {g : Stage ε α S} {last : α → Bool} {p p' : Relay ε α S m n}

theorem sourceNext_effect {fails : Bool} (h : p.sourceNext fails = some p') :
    p.Effect g last p' := by
  unfold sourceNext at h
  split at h
  · rename_i hsource
    split at h <;> cases h
    · exact .read hsource
    · exact .ended hsource
  · rename_i hsource
    obtain ⟨c, hsend, rfl⟩ := Option.map_eq_some_iff.mp h
    exact .sent hsource hsend
  · cases h

theorem stageNext_effect (h : p.stageNext g = some p') : p.Effect g last p' := by
  unfold stageNext at h
  split at h
  · rename_i hstage
    split at h
    · rename_i hrecv
      cases h
      exact .received hstage hrecv
    · rename_i hrecv
      split at h <;> cases h
      exact .exhausted hstage hrecv ‹_›
  · rename_i hstage
    obtain ⟨c, hsend, rfl⟩ := Option.map_eq_some_iff.mp h
    exact .put hstage hsend
  · rename_i hstage
    cases h
    exact .resumed hstage
  · rename_i hstage
    cases h
    exact .finished hstage
  · cases h

theorem take_effect (h : p.take last = some p') : p.Effect g last p' := by
  unfold take at h
  split at h
  · rename_i hlistening
    split at h
    · rename_i hrecv
      cases h
      exact .taken hlistening hrecv
    · split at h <;> cases h
      exact .left hlistening
  · cases h

theorem step_effect {move : RelayMove} (h : p.step g last move = some p') :
    p.Effect g last p' := by
  cases move with
  | source fails => exact sourceNext_effect h
  | stage => exact stageNext_effect h
  | take => exact take_effect h
  | leave =>
    simp only [step, leave] at h
    split at h <;> cases h
    exact .left ‹_›

end Relay

/-! ### What holds in every run -/

def SourcePoint.left : SourcePoint ε → List ε
  | reading rest => rest
  | sending e rest => e :: rest
  | returned => []

/-- What the stage still sends if these values come, and what it leaves unread of them. -/
def StagePoint.run (g : Stage ε α S) : StagePoint α S → List ε → List α × List ε
  | receiving s, more => g.run s more
  | sending out none, more => (out, more)
  | sending out (some s), more => (out ++ (g.run s more).1, (g.run s more).2)
  | returned, more => ([], more)

theorem Stage.run_cons (g : Stage ε α S) (s : S) (e : ε) (es : List ε) :
    g.run s (e :: es) = StagePoint.run g (.sending (g.read s e).1 (g.read s e).2) es := by
  rw [Stage.run]
  split <;> rename_i hread <;> rw [hread] <;> rfl

namespace Relay

variable {g : Stage ε α S} {last : α → Bool} {p p' : Relay ε α S m n} {es : List ε}

/-- What holds in every run: the stage has sent what `g` makes of what it received. -/
structure Reached (g : Stage ε α S) (es : List ε) (p : Relay ε α S m n) : Prop where
  flows : p.inbox.entered ++ p.source.left <+: es
  ended : p.source = .returned ↔ p.inbox.closed = true
  closed : p.stage = .returned → p.outbox.closed = true
  follows : (p.stage = .returned ∧ p.source = .returned) ∨
    ∀ more, g.run g.start (p.inbox.received ++ more) =
      (p.outbox.entered ++ (p.stage.run g more).1, (p.stage.run g more).2)

theorem reached_init (g : Stage ε α S) (es : List ε) :
    (init g es : Relay ε α S m n).Reached g es where
  flows := prefix_rfl
  ended := by simp [init]
  closed := by simp [init]
  follows := .inr fun _ => rfl

theorem Reached.run_eq (h : p.Reached g es) (hon : p.stage ≠ .returned ∨ p.source ≠ .returned)
    (more : List ε) : g.run g.start (p.inbox.received ++ more) =
      (p.outbox.entered ++ (p.stage.run g more).1, (p.stage.run g more).2) :=
  h.follows.resolve_left (fun hboth => hon.elim (· hboth.1) (· hboth.2)) more

theorem Reached.effect (h : p.Reached g es) (heffect : p.Effect g last p') :
    p'.Reached g es := by
  cases heffect with
  | read hsource =>
    have hopen : p.source ≠ .returned := by rw [hsource]; nofun
    have hflows := h.flows
    rw [hsource] at hflows
    exact ⟨hflows, ⟨nofun, fun hc => absurd (h.ended.mpr hc) hopen⟩, h.closed,
      .inr (h.run_eq (.inr hopen))⟩
  | ended hsource =>
    have hopen : p.source ≠ .returned := by rw [hsource]; nofun
    refine ⟨?_, ⟨fun _ => rfl, fun _ => rfl⟩, h.closed, .inr (h.run_eq (.inr hopen))⟩
    rw [SourcePoint.left, append_nil, Chan.entered_close]
    exact (prefix_append _ _).trans h.flows
  | sent hsource hsend =>
    have hopen : p.source ≠ .returned := by rw [hsource]; nofun
    obtain ⟨-, hreceived, hsame⟩ := Chan.send_eq_some hsend
    refine ⟨?_, ⟨nofun, fun hc => absurd (h.ended.mpr (hsame ▸ hc)) hopen⟩, h.closed, ?_⟩
    · have hflows := h.flows
      rw [hsource, SourcePoint.left] at hflows
      rw [Chan.entered_send hsend, append_assoc]
      exact hflows
    · rw [hreceived]
      exact .inr (h.run_eq (.inr hopen))
  | received hstage hrecv =>
    obtain ⟨-, hreceived, hsame⟩ := Chan.recv_eq_some hrecv
    refine ⟨by rw [Chan.entered_recv hrecv]; exact h.flows, by rw [hsame]; exact h.ended,
      nofun, .inr fun more => ?_⟩
    rw [hreceived, append_assoc, singleton_append,
      h.run_eq (.inl (by rw [hstage]; nofun)), hstage, StagePoint.run, Stage.run_cons]
  | exhausted hstage hrecv hinbox =>
    exact ⟨h.flows, h.ended, fun _ => rfl, .inl ⟨rfl, h.ended.mpr hinbox⟩⟩
  | @put a out next c hstage hsend =>
    refine ⟨h.flows, h.ended, nofun, .inr fun more => ?_⟩
    rw [h.run_eq (.inl (by rw [hstage]; nofun)), hstage, Chan.entered_send hsend, append_assoc]
    cases next <;> rfl
  | resumed hstage =>
    refine ⟨h.flows, h.ended, nofun, .inr fun more => ?_⟩
    rw [h.run_eq (.inl (by rw [hstage]; nofun)), hstage]
    rfl
  | finished hstage =>
    refine ⟨h.flows, h.ended, fun _ => rfl, .inr fun more => ?_⟩
    rw [h.run_eq (.inl (by rw [hstage]; nofun)), hstage]
    rfl
  | taken hlistening hrecv =>
    obtain ⟨-, -, hsame⟩ := Chan.recv_eq_some hrecv
    refine ⟨h.flows, h.ended, fun hreturned => by rw [hsame]; exact h.closed hreturned, ?_⟩
    rw [Chan.entered_recv hrecv]
    exact h.follows
  | left hlistening => exact ⟨h.flows, h.ended, h.closed, h.follows⟩

theorem reached_of_canReach (h : CanReach (step g last) (init g es) p) : p.Reached g es := by
  obtain ⟨ms, hrun⟩ := h
  exact runFrom_preserves (fun _ _ _ h hstep => h.effect (step_effect hstep))
    (reached_init g es) hrun

/-! ### Nobody is stuck -/

variable {out : List α} {next : Option S}

/-- If all that the stage sends fits into its channel, no send of it blocks. -/
theorem Reached.outbox_room (h : p.Reached g es) (hfits : (g.run g.start es).1.length ≤ n)
    {a : α} (hstage : p.stage = .sending (a :: out) next) :
    p.outbox.queue.length < n := by
  obtain ⟨more, rfl⟩ := (p.inbox.received_first.trans (prefix_append _ _)).trans h.flows
  rw [h.run_eq (.inl (by rw [hstage]; nofun)), hstage] at hfits
  have hout : (a :: out).length ≤ ((StagePoint.sending (a :: out) next).run g more).1.length := by
    cases next with
    | none => exact Nat.le_refl _
    | some s => exact (prefix_append _ _).length_le
  simp only [Chan.entered, length_append, length_cons] at hfits hout
  omega

/-- If all that the stage leaves unread fits into the channel, the source does not block on it. -/
theorem Reached.inbox_room (h : p.Reached g es) (hfits : (g.run g.start es).2.length ≤ m)
    {e : ε} {rest : List ε} (hsource : p.source = .sending e rest)
    (hstage : p.stage = .returned) : p.inbox.queue.length < m := by
  obtain ⟨more, hmore⟩ := h.flows
  rw [Chan.entered, append_assoc, append_assoc] at hmore
  have hopen : p.source ≠ .returned := by simp [hsource]
  rw [← hmore, h.run_eq (.inr hopen), hstage, hsource] at hfits
  simp only [StagePoint.run, SourcePoint.left, length_append, length_cons] at hfits
  omega

/-- What source and stage still have to do; every step of theirs lowers it. -/
def work (p : Relay ε α S m n) : Nat × Nat :=
  (p.inbox.queue.length +
      match p.source with
      | .reading rest => 3 * rest.length + 1
      | .sending _ rest => 3 * rest.length + 3
      | .returned => 0,
    match p.stage with
    | .receiving _ => 1
    | .sending out _ => out.length + 2
    | .returned => 0)

theorem source_progress (g : Stage ε α S) (last : α → Bool) (hsource : p.source ≠ .returned)
    (hroom : ∀ e rest, p.source = .sending e rest → p.inbox.queue.length < m) :
    ∃ p', p.step g last (.source false) = some p' ∧ p'.work.1 < p.work.1 := by
  cases hpoint : p.source with
  | reading rest =>
    cases rest with
    | nil =>
      exact ⟨{ p with source := .returned, inbox := p.inbox.close },
        by simp only [step, sourceNext, hpoint], by simp [work, hpoint, Chan.close]⟩
    | cons e rest =>
      exact ⟨{ p with source := .sending e rest }, by simp only [step, sourceNext, hpoint],
        by simp [work, hpoint]; omega⟩
  | sending e rest =>
    obtain ⟨c, hsend⟩ := Chan.exists_send e (hroom e rest hpoint)
    refine ⟨{ p with source := .reading rest, inbox := c },
      by simp only [step, sourceNext, hpoint, hsend, Option.map_some], ?_⟩
    simp only [work, hpoint, (Chan.send_eq_some hsend).1, length_append, length_singleton]
    omega
  | returned => exact absurd hpoint hsource

theorem stage_progress (g : Stage ε α S) (last : α → Bool) (hstage : p.stage ≠ .returned)
    (hinbox : ∀ s, p.stage = .receiving s → p.inbox.queue ≠ [] ∨ p.inbox.closed = true)
    (hroom : ∀ a out next, p.stage = .sending (a :: out) next → p.outbox.queue.length < n) :
    ∃ p', p.step g last .stage = some p' ∧ Prod.Lex (· < ·) (· < ·) p'.work p.work := by
  cases hpoint : p.stage with
  | receiving s =>
    cases hrecv : p.inbox.recv with
    | none =>
      have hclosed : p.inbox.closed = true :=
        (hinbox s hpoint).resolve_left fun hne => hne (Chan.recv_eq_none_iff.mp hrecv)
      refine ⟨{ p with stage := .returned, outbox := p.outbox.close },
        by simp only [step, stageNext, hpoint, hrecv, hclosed, if_true], ?_⟩
      simp only [work, hpoint]
      exact .right _ Nat.zero_lt_one
    | some r =>
      refine ⟨{ p with inbox := r.2, stage := .sending (g.read s r.1).1 (g.read s r.1).2 },
        by simp only [step, stageNext, hpoint, hrecv], .left _ _ ?_⟩
      simp only [(Chan.recv_eq_some hrecv).1, length_cons]
      omega
  | sending out next =>
    cases out with
    | nil =>
      cases next with
      | none =>
        refine ⟨{ p with stage := .returned, outbox := p.outbox.close },
          by simp only [step, stageNext, hpoint], ?_⟩
        simp only [work, hpoint]
        exact .right _ (Nat.succ_pos _)
      | some s =>
        refine ⟨{ p with stage := .receiving s }, by simp only [step, stageNext, hpoint], ?_⟩
        simp only [work, hpoint]
        exact .right _ (Nat.lt_add_of_pos_left Nat.one_pos)
    | cons a out =>
      obtain ⟨c, hsend⟩ := Chan.exists_send a (hroom a out next hpoint)
      refine ⟨{ p with stage := .sending out next, outbox := c },
        by simp only [step, stageNext, hpoint, hsend, Option.map_some], ?_⟩
      simp only [work, hpoint]
      exact .right _ (by simp)
  | returned => exact absurd hpoint hstage

theorem Reached.progress (h : p.Reached g es) (last : α → Bool) (hm : 0 < m)
    (hout : (g.run g.start es).1.length ≤ n) (hunread : (g.run g.start es).2.length ≤ m) :
    (p.source = .returned ∧ p.stage = .returned) ∨
      ∃ move p', p.step g last move = some p' ∧ Prod.Lex (· < ·) (· < ·) p'.work p.work := by
  by_cases hstage : p.stage = .returned
  · by_cases hsource : p.source = .returned
    · exact .inl ⟨hsource, hstage⟩
    · obtain ⟨p', hstep, hless⟩ := source_progress g last hsource
        fun e rest hsending => h.inbox_room hunread hsending hstage
      exact .inr ⟨_, p', hstep, .left _ _ hless⟩
  · by_cases hwaits : (∃ s, p.stage = .receiving s) ∧ p.inbox.queue = [] ∧ p.source ≠ .returned
    · obtain ⟨-, hempty, hsource⟩ := hwaits
      obtain ⟨p', hstep, hless⟩ := source_progress g last hsource
        fun _ _ _ => by rw [hempty]; exact hm
      exact .inr ⟨_, p', hstep, .left _ _ hless⟩
    · obtain ⟨p', hstep, hless⟩ := stage_progress g last hstage
        (fun s hs => by
          by_contra hnone
          rw [not_or, not_not] at hnone
          exact hwaits ⟨⟨s, hs⟩, hnone.1, fun hsource => hnone.2 (h.ended.mp hsource)⟩)
        fun a out next hsending => h.outbox_room hout hsending
      exact .inr ⟨_, p', hstep, hless⟩

/-- If both channels are large enough, source and stage can always go on to return. -/
theorem Reached.returns (h : p.Reached g es) (last : α → Bool) (hm : 0 < m)
    (hout : (g.run g.start es).1.length ≤ n) (hunread : (g.run g.start es).2.length ≤ m) :
    ∃ p', CanReach (step g last) p p' ∧ p'.Reached g es ∧
      p'.source = .returned ∧ p'.stage = .returned := by
  refine CanReach.of_progress work (fun q hq => ?_) h
  rcases hq.progress last hm hout hunread with hreturned | ⟨move, q', hstep, hless⟩
  · exact .inl ⟨hq, hreturned⟩
  · exact .inr ⟨move, q', hstep, hq.effect (step_effect hstep), hless⟩

/-! ### Somebody is stuck -/

theorem stageStuck_of_full {a : α}
    (hstage : p.stage = .sending (a :: out) next) (hfull : p.outbox.queue.length = n)
    (hleft : p.listening = false) : p.StageStuck g last := by
  refine ⟨⟨a, out, next, hstage⟩, fun p' ⟨ms, hrun⟩ => ?_⟩
  have hstays := runFrom_preserves (P := fun q => q.stage = p.stage ∧
    q.outbox.queue.length = n ∧ q.listening = false) ?_ ⟨rfl, hfull, hleft⟩ hrun
  · exact hstays.1
  · rintro q move q' ⟨hq, hfull, hleft⟩ hstep
    rw [hstage] at hq ⊢
    cases step_effect hstep with
    | read | ended | sent => exact ⟨hq, hfull, hleft⟩
    | received hpoint | exhausted hpoint | resumed hpoint | finished hpoint =>
      cases hq.symm.trans hpoint
    | put _ hsend => cases (Chan.send_eq_none_iff.mpr hfull).symm.trans hsend
    | taken hlistening | left hlistening => cases hleft.symm.trans hlistening

theorem sourceStuck_of_full {e : ε} {rest : List ε} (hsource : p.source = .sending e rest)
    (hfull : p.inbox.queue.length = m) (hreturned : p.stage = .returned) :
    p.SourceStuck g last := by
  refine ⟨⟨e, rest, hsource⟩, fun p' ⟨ms, hrun⟩ => ?_⟩
  have hstays := runFrom_preserves (P := fun q => q.source = p.source ∧
    q.inbox.queue.length = m ∧ q.stage = .returned) ?_ ⟨rfl, hfull, hreturned⟩ hrun
  · exact hstays.1
  · rintro q move q' ⟨hq, hfull, hreturned⟩ hstep
    rw [hsource] at hq ⊢
    cases step_effect hstep with
    | read hpoint | ended hpoint => cases hq.symm.trans hpoint
    | sent _ hsend => cases (Chan.send_eq_none_iff.mpr hfull).symm.trans hsend
    | received hpoint | exhausted hpoint | put hpoint | resumed hpoint | finished hpoint =>
      cases hreturned.symm.trans hpoint
    | taken | left => exact ⟨hq, hfull, hreturned⟩

/-- A sender can fill a channel as far as there is room. -/
theorem canReach_fill {β σ ι : Type*} {k : Nat} {next : σ → ι → Option σ}
    (state : List β → Chan β k → σ)
    (hsend : ∀ x xs c c', c.send x = some c' → CanReach next (state (x :: xs) c) (state xs c'))
    {xs : List β} (rest : List β) {c : Chan β k} (hroom : c.queue.length + xs.length ≤ k) :
    ∃ c', CanReach next (state (xs ++ rest) c) (state rest c') ∧ c'.queue = c.queue ++ xs := by
  induction xs generalizing c with
  | nil => exact ⟨c, .refl _ _, (append_nil _).symm⟩
  | cons x xs ih =>
    rw [length_cons] at hroom
    obtain ⟨c₁, hc₁⟩ := Chan.exists_send x (c := c) (by omega)
    have hqueue := (Chan.send_eq_some hc₁).1
    obtain ⟨c', hreach, hqueue'⟩ := ih (c := c₁)
      (by rw [hqueue, length_append, length_singleton]; omega)
    exact ⟨c', (hsend x (xs ++ rest) c c₁ hc₁).trans hreach,
      by rw [hqueue', hqueue, append_assoc, singleton_append]⟩

variable (g last)

theorem canReach_queued {xs rest : List ε}
    (hsource : p.source = .reading (xs ++ rest)) (hroom : p.inbox.queue.length + xs.length ≤ m) :
    ∃ c, CanReach (step g last) p { p with source := .reading rest, inbox := c } ∧
      c.queue = p.inbox.queue ++ xs := by
  obtain ⟨source, inbox, stage, outbox, listening⟩ := p
  subst hsource
  refine canReach_fill (fun l c => (⟨.reading l, c, stage, outbox, listening⟩ : Relay ε α S m n))
    (fun x l c c' hc => ?_) rest hroom
  refine .head (e := .source false) rfl (.of_step (e := .source false) ?_)
  simp only [step, sourceNext, hc, Option.map_some]

theorem canReach_put {out rest : List α}
    (hstage : p.stage = .sending (out ++ rest) next)
    (hroom : p.outbox.queue.length + out.length ≤ n) :
    ∃ c, CanReach (step g last) p { p with stage := .sending rest next, outbox := c } ∧
      c.queue = p.outbox.queue ++ out := by
  obtain ⟨source, inbox, stage, outbox, listening⟩ := p
  subst hstage
  refine canReach_fill
    (fun l c => (⟨source, inbox, .sending l next, c, listening⟩ : Relay ε α S m n))
    (fun x l c c' hc => .of_step (e := .stage) ?_) rest hroom
  simp only [step, stageNext, hc, Option.map_some]

/-- The source sends the next value and the stage receives it. -/
theorem canReach_received {s : S} {e : ε} {rest : List ε}
    (hm : 0 < m) (hsource : p.source = .reading (e :: rest)) (hstage : p.stage = .receiving s)
    (hempty : p.inbox.queue = []) :
    ∃ q, CanReach (step g last) p q ∧ q.source = .reading rest ∧ q.inbox.queue = [] ∧
      q.stage = .sending (g.read s e).1 (g.read s e).2 ∧
      q.outbox = p.outbox ∧ q.listening = p.listening := by
  obtain ⟨c, hqueued, hqueue⟩ := canReach_queued g last
    (show p.source = .reading ([e] ++ rest) from hsource) (by rw [hempty]; exact hm)
  rw [hempty, nil_append] at hqueue
  cases hrecv : c.recv with
  | none => cases (Chan.recv_eq_none_iff.mp hrecv).symm.trans hqueue
  | some r =>
    obtain ⟨hfirst, -⟩ := Chan.recv_eq_some hrecv
    obtain ⟨rfl, hrest⟩ := cons_eq_cons.mp (hqueue.symm.trans hfirst)
    have hstep : step g last { p with source := .reading rest, inbox := c } .stage =
        some { p with
          source := .reading rest
          inbox := r.2
          stage := .sending (g.read s r.1).1 (g.read s r.1).2 } := by
      simp only [step, stageNext, hstage, hrecv]
    exact ⟨_, hqueued.trans (.of_step hstep), rfl, hrest.symm, rfl, rfl, rfl⟩

theorem canReach_resumed {s : S}
    (hstage : p.stage = .sending out (some s))
    (hroom : p.outbox.queue.length + out.length ≤ n) :
    ∃ q, CanReach (step g last) p q ∧ q.stage = .receiving s ∧
      q.outbox.queue.length = p.outbox.queue.length + out.length ∧
      q.source = p.source ∧ q.inbox = p.inbox ∧ q.listening = p.listening := by
  rw [← append_nil out] at hstage
  obtain ⟨c, hput, hqueue⟩ := canReach_put g last hstage hroom
  have hstep : step g last { p with stage := .sending [] (some s), outbox := c } .stage =
      some { p with stage := .receiving s, outbox := c } := rfl
  exact ⟨_, hput.trans (.of_step hstep), rfl, by rw [hqueue, length_append], rfl, rfl, rfl⟩

theorem canReach_finished
    (hstage : p.stage = .sending out none) (hroom : p.outbox.queue.length + out.length ≤ n) :
    ∃ q, CanReach (step g last) p q ∧ q.stage = .returned ∧
      q.source = p.source ∧ q.inbox = p.inbox := by
  rw [← append_nil out] at hstage
  obtain ⟨c, hput, -⟩ := canReach_put g last hstage hroom
  have hstep : step g last { p with stage := .sending [] none, outbox := c } .stage =
      some { p with stage := .returned, outbox := c.close } := rfl
  exact ⟨_, hput.trans (.of_step hstep), rfl, rfl, rfl⟩

/-- A stage with more to send than fits gets stuck when the sink leaves. -/
theorem canReach_stuck_of_out
    (hstage : p.stage = .sending out next) (hlistening : p.listening = true)
    (hlong : n < p.outbox.queue.length + out.length) :
    ∃ p', CanReach (step g last) p p' ∧ p'.StageStuck g last := by
  have hcap := p.outbox.room
  have hlt : n - p.outbox.queue.length < out.length := by omega
  rw [← take_append_drop (n - p.outbox.queue.length) out, drop_eq_getElem_cons hlt] at hstage
  have hnow : (out.take (n - p.outbox.queue.length)).length = n - p.outbox.queue.length := by
    rw [length_take]
    omega
  obtain ⟨c, hput, hqueue⟩ := canReach_put g last hstage (by omega)
  refine ⟨_, hput.trans (.of_step (e := .leave) (if_pos hlistening)),
    stageStuck_of_full rfl ?_ rfl⟩
  simp only [hqueue, length_append]
  omega

/-- If the stage sends more than fits into its channel, it can get stuck. -/
theorem canReach_stageStuck {s : S} (hm : 0 < m)
    (hsource : p.source = .reading es) (hstage : p.stage = .receiving s)
    (hempty : p.inbox.queue = []) (hlistening : p.listening = true)
    (hlong : n < p.outbox.queue.length + (g.run s es).1.length) :
    ∃ p', CanReach (step g last) p p' ∧ p'.StageStuck g last := by
  -- the values pass one by one, and the sink takes nothing
  induction es generalizing p s with
  | nil =>
    have := p.outbox.room
    rw [Stage.run, length_nil] at hlong
    omega
  | cons e es ih =>
    obtain ⟨q, hq, hsource, hempty, hsending, hout, hsink⟩ :=
      canReach_received g last hm hsource hstage hempty
    rw [Stage.run_cons, ← hsending, ← hout] at hlong
    rw [← hsink] at hlistening
    generalize (g.read s e).1 = out, (g.read s e).2 = next at hsending
    rw [hsending] at hlong
    by_cases hfull : n < q.outbox.queue.length + out.length
    · obtain ⟨p', hreach, hstuck⟩ := canReach_stuck_of_out g last hsending hlistening hfull
      exact ⟨p', hq.trans hreach, hstuck⟩
    · cases next with
      | none => exact absurd hlong hfull
      | some s' =>
        obtain ⟨r, hr, hreceiving, hlength, hsource', hinbox, hsink'⟩ :=
          canReach_resumed g last hsending (Nat.not_lt.mp hfull)
        obtain ⟨p', hreach, hstuck⟩ := ih (hsource'.trans hsource) hreceiving
          (by rw [hinbox, hempty]) (hsink'.trans hlistening)
          (by rw [hlength, Nat.add_assoc, ← length_append]; exact hlong)
        exact ⟨p', hq.trans (hr.trans hreach), hstuck⟩

/-- If the stage leaves more unread than fits into the channel, the source can get stuck. -/
theorem canReach_sourceStuck {s : S} (hm : 0 < m)
    (hsource : p.source = .reading es) (hstage : p.stage = .receiving s)
    (hempty : p.inbox.queue = [])
    (hfits : p.outbox.queue.length + (g.run s es).1.length ≤ n)
    (hlong : m < (g.run s es).2.length) :
    ∃ p', CanReach (step g last) p p' ∧ p'.SourceStuck g last := by
  induction es generalizing p s with
  | nil => exact absurd hlong (Nat.not_lt_zero _)
  | cons e es ih =>
    obtain ⟨q, hq, hsource, hempty, hsending, hout, -⟩ :=
      canReach_received g last hm hsource hstage hempty
    rw [Stage.run_cons, ← hsending] at hlong hfits
    rw [← hout] at hfits
    generalize (g.read s e).1 = out, (g.read s e).2 = next at hsending
    rw [hsending] at hlong hfits
    cases next with
    | none =>
      -- the source goes on until its channel is full, and then the stage returns
      have hlong : m < es.length := hlong
      rw [← take_append_drop m es, drop_eq_getElem_cons hlong] at hsource
      have hfilled : (es.take m).length = m := by
        rw [length_take]
        omega
      obtain ⟨c, hqueued, hqueue⟩ := canReach_queued g last hsource
        (by rw [hempty, hfilled, length_nil]; omega)
      have hread : step g last
          { q with source := .reading (es[m] :: es.drop (m + 1)), inbox := c } (.source false) =
          some { q with source := .sending es[m] (es.drop (m + 1)), inbox := c } := rfl
      obtain ⟨p', hreach, hreturned, hsource', hinbox⟩ := canReach_finished g last
        (p := { q with source := .sending es[m] (es.drop (m + 1)), inbox := c }) hsending hfits
      refine ⟨p', hq.trans (hqueued.trans (.head hread hreach)),
        sourceStuck_of_full hsource' ?_ hreturned⟩
      rw [hinbox]
      simp only [hqueue, hempty, nil_append, hfilled]
    | some s' =>
      simp only [StagePoint.run, length_append] at hlong hfits
      obtain ⟨r, hr, hreceiving, hlength, hsource', hinbox, -⟩ :=
        canReach_resumed g last hsending (by omega)
      obtain ⟨p', hreach, hstuck⟩ := ih (hsource'.trans hsource) hreceiving
        (by rw [hinbox, hempty]) (by rw [hlength, Nat.add_assoc]; exact hfits) hlong
      exact ⟨p', hq.trans (hr.trans hreach), hstuck⟩

end Relay

/-- Nobody gets stuck exactly if what the stage sends, and what it leaves unread, fits into the
channels. -/
theorem Stage.live_iff (g : Stage ε α S) (last : α → Bool) (hm : 0 < m) (es : List ε) :
    g.Live last m n es ↔
      (g.run g.start es).1.length ≤ n ∧ (g.run g.start es).2.length ≤ m := by
  constructor
  · intro hlive
    have hout : (g.run g.start es).1.length ≤ n := by
      by_contra hlong
      obtain ⟨p, hreach, hstuck⟩ := Relay.canReach_stageStuck g last
        (p := (.init g es : Relay ε α S m n)) hm rfl rfl rfl rfl
        (Nat.lt_add_left _ (Nat.not_le.mp hlong))
      exact (hlive.unstuck p hreach).2 hstuck
    refine ⟨hout, ?_⟩
    by_contra hlong
    obtain ⟨p, hreach, hstuck⟩ := Relay.canReach_sourceStuck g last
      (p := (.init g es : Relay ε α S m n)) hm rfl rfl rfl
      (by rw [Relay.init, length_nil, Nat.zero_add]; exact hout) (Nat.not_le.mp hlong)
    exact (hlive.unstuck p hreach).1 hstuck
  · rintro ⟨hout, hunread⟩
    constructor
    · intro p hreach
      obtain ⟨p', hreach', -, hsource, hstage⟩ :=
        (Relay.reached_of_canReach hreach).returns last hm hout hunread
      constructor
      · rintro ⟨⟨e, rest, hsending⟩, hstays⟩
        cases hsource.symm.trans ((hstays p' hreach').trans hsending)
      · rintro ⟨⟨a, out, next, hsending⟩, hstays⟩
        cases hstage.symm.trans ((hstays p' hreach').trans hsending)
    · intro p hreach
      obtain ⟨p', hreach', hreached, hsource, hstage⟩ :=
        (Relay.reached_of_canReach hreach).returns last hm hout hunread
      exact ⟨p', hreach', hreached.ended.mp hsource, hreached.closed hstage⟩

end LlmRouter.Lib
