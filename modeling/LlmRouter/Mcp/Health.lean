import LlmRouter.Mcp.Stdio
import LlmRouter.Lib.Tokens

/-!
# LlmRouter — what Health knows about the read loop

`Health` does not look at the read loop but at a flag: `s.connected`, or on stdio whether there is
a process. Only on a WebSocket the loop resets it, and on stdio `Health` also needs the mutex that
`Connect` never gives back. `health_iff` names the moves after which a server is down and `Health`
does not say so.
-/

namespace LlmRouter.Mcp

open Lib List

/-! ## The servers -/

/-- The three implementations of `Server`; `refused` is whether `Connect` on stdio refuses
its configuration. -/
inductive Transport where
  | stdio (refused : Bool)
  | sse
  | websocket
  deriving DecidableEq, Repr

/-- A read loop, with what `sseLoop` has sent to its `Connect`: the endpoint, or an error. -/
structure ReadLoop where
  running : Bool := true
  endpoint : Bool := false
  failed : Bool := false
  deriving DecidableEq, Repr

/-- The mutex and the process on stdio, the flag `connected` on the others, and the read loops that
were started. `revived`: a `Connect` has succeeded since the last loop ended. -/
structure LoopServer where
  stdio : StdioServer := {}
  connected : Bool := false
  loops : List ReadLoop := []
  revived : Bool := false
  deriving DecidableEq, Repr

namespace LoopServer

def silent (s : LoopServer) : Bool := s.loops.all fun l => !l.running

def spawn (s : LoopServer) : LoopServer := { s with loops := s.loops ++ [{}] }

def finish (s : LoopServer) (k : Nat) (l : ReadLoop) : LoopServer :=
  let s' := { s with loops := s.loops.set k { l with running := false } }
  { s' with revived := s.revived && !s'.silent }

/-- A read loop was started, all have ended, and no `Connect` has succeeded since. -/
def Down (s : LoopServer) : Prop := s.loops ≠ [] ∧ s.silent = true ∧ s.revived = false

end LoopServer

/-- What the outside does: an operation succeeds or fails, or the upstream does something to
the `k`-th read loop. -/
inductive Outside where
  | ok
  | fail
  | error
  | endpoint (k : Nat)
  | refuse (k : Nat)
  | eof (k : Nat)
  deriving DecidableEq, Repr

inductive LinkOp where
  | connect
  | close
  | call
  deriving DecidableEq, Repr

/-- Where a thread stands; `loops` is the thread of the read loops. -/
inductive LinkPoint where
  | loops
  | stdio (t : StdioPoint)
  | sseConnect
  | sseSelect (k : Nat)
  | wsDial
  | wsInstall
  | wsSpawn
  | handshake
  | abort
  | close
  | call
  | returned (ok : Bool)
  deriving DecidableEq, Repr

def LinkOp.stdio : LinkOp → StdioOp
  | .connect => .connect
  | .close => .close
  | .call => .call

def Transport.start : Transport → LinkOp → LinkPoint
  | .stdio _, op => .stdio op.stdio.start
  | .sse, .connect => .sseConnect
  | .websocket, .connect => .wsDial
  | _, .close => .close
  | _, .call => .call

variable (tr : Transport) (s : LoopServer)

/-- One step of a read loop. Only `sseLoop` tells `Connect` something; only the loop of a
WebSocket resets the flag. -/
def Transport.loopNext : Outside → Option LoopServer
  | .eof k =>
    match s.loops[k]? with
    | none => none
    | some l =>
      if l.running then
        match tr with
        | .websocket => some { s.finish k l with connected := false }
        | _ => some (s.finish k l)
      else none
  | .endpoint k =>
    match s.loops[k]? with
    | none => none
    | some l =>
      if tr = .sse ∧ l.running = true ∧ l.endpoint = false then
        some { s with loops := s.loops.set k { l with endpoint := true } }
      else none
  | .refuse k =>
    match s.loops[k]? with
    | none => none
    | some l =>
      if tr = .sse ∧ l.running = true ∧ l.endpoint = false then
        some (s.finish k { l with failed := true })
      else none
  | _ => none

def Transport.stdioNext (x : Outside) (t : StdioPoint) : Option (LoopServer × LinkPoint) :=
  match tr with
  | .stdio refused =>
    (LlmRouter.Mcp.stdioNext refused s.stdio (x != .ok) t).map fun r =>
      let s' := { s with stdio := r.1 }
      (if t = .connectStart ∧ r.2 = .sendLock .handshake then s'.spawn else s', .stdio r.2)
  | _ => none

def linkNext (x : Outside) : LinkPoint → Option (LoopServer × LinkPoint)
  | .loops => (tr.loopNext s x).map fun s' => (s', .loops)
  | .stdio t => tr.stdioNext s x t
  | .sseConnect => some (s.spawn, .sseSelect s.loops.length)
  | .sseSelect k =>
    match x with
    | .ok =>
      if s.loops[k]?.any (·.endpoint) then some ({ s with connected := true }, .handshake)
      else none
    | .error => if s.loops[k]?.any (·.failed) then some (s, .returned false) else none
    | _ => some (s, .returned false)
  | .wsDial => some (s, if x = .ok then .wsInstall else .returned false)
  | .wsInstall => some ({ s with connected := true }, .wsSpawn)
  | .wsSpawn => some (s.spawn, .handshake)
  | .handshake =>
    if x = .ok then some ({ s with revived := true }, .returned true)
    else if tr = .websocket then some (s, .abort)
    else some (s, .returned false)
  | .abort => some ({ s with connected := false }, .returned false)
  | .close => some ({ s with connected := false }, .returned true)
  | .call => some (s, .returned (x = .ok))
  | .returned _ => none

def linkCode (tr : Transport) : Code LoopServer LinkOp LinkPoint Outside where
  start := tr.start
  next := linkNext tr

def newServer : Pool LoopServer LinkPoint := ⟨{}, [.loops]⟩

/-- `Health` returns an error: at once, since it would otherwise wait for the mutex. -/
def HealthErr : Transport → LoopServer → Prop
  | .stdio _, s => s.stdio.locked = false ∧ s.stdio.running = false
  | _, s => s.connected = false

def Truthful : Prop := s.Down → HealthErr tr s

/-- `Health` looks at `s.connected`. -/
def Transport.UsesFlag : Transport → Prop
  | .stdio _ => False
  | .sse | .websocket => True

/-- `Health` is as before when a read loop ends: nothing on stdio changes, `sseLoop` does not
touch the flag. -/
def Transport.Unaware : Transport → LoopServer → Prop
  | .stdio _, _ => True
  | .sse, s => s.connected = true
  | .websocket, _ => False

/-- A thread makes `Health` wrong: the last loop returns and `Health` is as before; or `Connect`
sets the flag on a server that is down, with the endpoint of an ended loop (SSE) or before it starts
its loop (WebSocket). -/
def Misleads : Outside → LinkPoint → Prop
  | .eof k, .loops =>
    ∃ l, s.loops[k]? = some l ∧ l.running = true ∧ (s.finish k l).silent = true ∧ tr.Unaware s
  | .refuse k, .loops =>
    ∃ l, s.loops[k]? = some l ∧ l.running = true ∧
      (s.finish k { l with failed := true }).silent = true ∧ tr.Unaware s ∧ tr = .sse ∧
      l.endpoint = false
  | .ok, .sseSelect k => s.loops[k]?.any (·.endpoint) = true ∧ tr.UsesFlag ∧ s.Down
  | _, .wsInstall => tr.UsesFlag ∧ s.Down
  | _, _ => False

/-! ## Down -/

namespace LoopServer

variable {s : LoopServer} {k : Nat} {l : ReadLoop}

theorem not_down_of_running (hk : s.loops[k]? = some l) (hl : l.running = true) : ¬ s.Down := by
  rintro ⟨-, hsilent, -⟩
  have := all_eq_true.mp hsilent l (mem_of_getElem? hk)
  rw [hl] at this
  cases this

theorem not_down_spawn (s : LoopServer) : ¬ s.spawn.Down :=
  not_down_of_running (s := s.spawn) (getElem?_concat_length) rfl

theorem not_down_revived (s : LoopServer) : ¬ ({ s with revived := true } : LoopServer).Down :=
  fun h => by cases h.2.2

theorem down_finish (hk : k < s.loops.length) :
    (s.finish k l).Down ↔ (s.finish k l).silent = true := by
  refine ⟨fun h => h.2.1, fun hsilent => ⟨?_, hsilent, ?_⟩⟩
  · intro hnil
    have hlength := congrArg length hnil
    simp only [finish, length_set, length_nil] at hlength
    omega
  · show (s.revived && !(s.finish k l).silent) = false
    rw [hsilent, Bool.not_true, Bool.and_false]

end LoopServer

/-! ## One step with a flag -/

section

variable {tr : Transport} {s s' : LoopServer} {x : Outside} {t t' : LinkPoint}

theorem healthErr_flag (hflag : tr.UsesFlag) : HealthErr tr s ↔ s.connected = false := by
  cases tr with
  | stdio refused => exact hflag.elim
  | sse | websocket => exact Iff.rfl

theorem truthful_of_not_down (h : ¬ s.Down) : Truthful tr s := fun hdown => absurd hdown h

theorem truthful_finish (hflag : tr.UsesFlag) {k : Nat} {l : ReadLoop}
    (hk : k < s.loops.length) :
    Truthful tr (s.finish k l) ↔ ¬ ((s.finish k l).silent = true ∧ s.connected = true) := by
  rw [Truthful, LoopServer.down_finish hk, healthErr_flag hflag]
  show (_ → s.connected = false) ↔ _
  cases s.connected <;> simp

theorem truthful_loopNext (hflag : tr.UsesFlag) (h : tr.loopNext s x = some s') :
    Truthful tr s' ↔ ¬ Misleads tr s x .loops := by
  revert h
  fun_cases Transport.loopNext tr s x with
  | case2 k l hk hrunning =>
    rintro ⟨⟩
    refine ⟨?_, fun _ _ => rfl⟩
    rintro - ⟨_, -, -, -, hunaware⟩
    exact hunaware
  | case3 tr k l hk hrunning hws =>
    rintro ⟨⟩
    rw [truthful_finish hflag (List.getElem?_eq_some_iff.mp hk).1]
    cases tr with
    | stdio refused => exact hflag.elim
    | sse => simp [Misleads, hk, hrunning, Transport.Unaware]
    | websocket => exact absurd rfl hws
  | case6 tr k l hk hopen =>
    rintro ⟨⟩
    refine ⟨fun _ => id, fun _ => truthful_of_not_down ?_⟩
    exact LoopServer.not_down_of_running (k := k)
      (List.getElem?_set_self (List.getElem?_eq_some_iff.mp hk).1) hopen.2.1
  | case9 tr k l hk hopen =>
    obtain ⟨rfl, hrunning, hendpoint⟩ := hopen
    rintro ⟨⟩
    rw [truthful_finish hflag (List.getElem?_eq_some_iff.mp hk).1]
    simp [Misleads, hk, hrunning, hendpoint, Transport.Unaware]
  | _ => rintro ⟨⟩

theorem truthful_connected (hflag : tr.UsesFlag) :
    Truthful tr { s with connected := true } ↔ ¬ s.Down := by
  rw [Truthful, healthErr_flag hflag]
  exact ⟨fun h hdown => Bool.noConfusion (h hdown), fun h hdown => absurd hdown h⟩

/-- **One step on a server whose health is a flag** makes `Health` wrong exactly if it
misleads. -/
theorem truthful_step_flag (hflag : tr.UsesFlag) (hs : Truthful tr s)
    (h : linkNext tr s x t = some (s', t')) : Truthful tr s' ↔ ¬ Misleads tr s x t := by
  revert h
  fun_cases linkNext tr s x t with
  | case1 =>
    intro h
    obtain ⟨s₁, hnext, heq⟩ := Option.map_eq_some_iff.mp h
    cases heq
    exact truthful_loopNext hflag hnext
  | case2 =>
    cases tr with
    | stdio refused => exact hflag.elim
    | sse | websocket => rintro ⟨⟩
  | case3 | case11 =>
    rintro ⟨⟩
    exact ⟨fun _ => by cases x <;> exact id,
      fun _ => truthful_of_not_down (LoopServer.not_down_spawn s)⟩
  | case4 k hendpoint =>
    rintro ⟨⟩
    rw [truthful_connected hflag]
    simp only [Misleads, hendpoint, hflag, true_and]
  | case8 x k hok =>
    rintro ⟨⟩
    exact ⟨fun _ => by cases x with | ok => exact absurd rfl hok | _ => exact id, fun _ => hs⟩
  | case10 =>
    rintro ⟨⟩
    rw [truthful_connected hflag]
    cases x <;> simp only [Misleads, hflag, true_and]
  | case12 =>
    rintro ⟨⟩
    exact ⟨fun _ => id, fun _ => truthful_of_not_down (LoopServer.not_down_revived s)⟩
  | case15 | case16 =>
    rintro ⟨⟩
    exact ⟨fun _ => by cases x <;> exact id, fun _ _ => (healthErr_flag hflag).mpr rfl⟩
  | case6 =>
    rintro ⟨⟩
    exact ⟨fun _ => id, fun _ => hs⟩
  | case9 | case13 | case14 | case17 =>
    rintro ⟨⟩
    exact ⟨fun _ => by cases x <;> exact id, fun _ => hs⟩
  | _ => rintro ⟨⟩

end

/-! ## One step on stdio -/

def LinkPoint.HoldsMu : LinkPoint → Prop
  | .stdio t => t.Holds
  | _ => False

def LinkPoint.OccursStdio : LinkPoint → Prop
  | .loops => True
  | .stdio t => t.Occurs
  | _ => False

variable {refused : Bool} {s s' : LoopServer} {x : Outside} {p p' : Pool LoopServer LinkPoint}
  {m : Move LinkOp Outside} {tr : Transport}

theorem linkNext_loops {t' : LinkPoint}
    (h : linkNext (.stdio refused) s x .loops = some (s', t')) :
    ∃ k l, x = .eof k ∧ s.loops[k]? = some l ∧ l.running = true ∧ s' = s.finish k l ∧
      t' = .loops := by
  obtain ⟨s₁, hnext, ⟨⟩⟩ := Option.map_eq_some_iff.mp h
  clear h
  generalize htr : Transport.stdio refused = tr at hnext
  revert hnext
  fun_cases Transport.loopNext tr s x with
  | case2 => cases htr
  | case3 tr k l hk hrunning =>
    rintro ⟨⟩
    exact ⟨k, l, rfl, hk, hrunning, rfl, rfl⟩
  | case6 _ _ _ _ hopen | case9 _ _ _ _ hopen => cases htr.trans hopen.1
  | _ => rintro ⟨⟩

theorem stdioNext_inv {t : StdioPoint} {t' : LinkPoint}
    (h : (Transport.stdio refused).stdioNext s x t = some (s', t')) :
    ∃ u, stdioNext refused s.stdio (x != .ok) t = some (s'.stdio, u) ∧ t' = .stdio u ∧
      (s' = { s with stdio := s'.stdio } ∨
        (u = .sendLock .handshake ∧ s' = { s with stdio := s'.stdio }.spawn)) := by
  obtain ⟨⟨st, u⟩, hnext, heq⟩ := Option.map_eq_some_iff.mp h
  by_cases hspawn : t = .connectStart ∧ u = .sendLock .handshake
  · simp only [if_pos hspawn] at heq
    cases heq
    exact ⟨u, hnext, rfl, .inr ⟨hspawn.2, rfl⟩⟩
  · simp only [if_neg hspawn] at heq
    cases heq
    exact ⟨u, hnext, rfl, .inl rfl⟩

theorem link_mutex (refused : Bool) :
    MutexUse (linkCode (.stdio refused)) (fun s => s.stdio.locked = true) LinkPoint.HoldsMu
      LinkPoint.OccursStdio where
  start r := (stdio_mutex refused).start r.stdio
  step s x t s' t' hoccur hlocked h := by
    cases t with
    | loops =>
      obtain ⟨k, l, -, -, -, rfl, rfl⟩ := linkNext_loops h
      exact ⟨trivial, .inr (.inr ⟨Iff.rfl, Iff.rfl⟩)⟩
    | stdio t =>
      obtain ⟨u, hnext, rfl, -⟩ := stdioNext_inv h
      exact (stdio_mutex refused).step s.stdio _ t s'.stdio u hoccur hlocked hnext
    | _ => exact hoccur.elim

/-- On stdio, once a read loop was started its `Connect` holds the mutex for good. -/
structure Seized (p : Pool LoopServer LinkPoint) : Prop where
  exclusive : p.Exclusive (fun s => s.stdio.locked = true) LinkPoint.HoldsMu
    LinkPoint.OccursStdio
  seized : p.shared.loops ≠ [] → p.Some (· = .stdio (.sendLock .handshake))

theorem Seized.locked (hp : Seized p) (hloops : p.shared.loops ≠ []) :
    p.shared.stdio.locked = true := by
  obtain ⟨i, t, hi, rfl⟩ := hp.seized hloops
  exact hp.exclusive.locked_iff.mpr ⟨i, _, hi, nofun⟩

theorem seized_new : Seized newServer := by
  have hthread : ∀ (i : Nat) (t : LinkPoint), newServer.threads[i]? = some t → t = .loops := by
    intro i t hi
    exact mem_singleton.mp (mem_of_getElem? hi)
  refine ⟨⟨fun i t hi => ?_, ⟨nofun, ?_⟩, fun i j t u hi _ ht => ?_⟩, fun h => absurd rfl h⟩
  · rw [hthread i t hi]
    trivial
  · rintro ⟨i, t, hi, ht⟩
    rw [hthread i t hi] at ht
    exact ht.elim
  · rw [hthread i t hi] at ht
    exact ht.elim

theorem Seized.step (hp : Seized p) (h : p.step (linkCode (.stdio refused)) m = some p') :
    Seized p' := by
  refine ⟨(link_mutex refused).exclusive_step hp.exclusive h, ?_⟩
  cases m with
  | start r =>
    obtain rfl : _ = p' := Option.some.inj h
    intro hloops
    rw [Pool.some_concat_iff]
    exact .inr (hp.seized hloops)
  | advance i x =>
    obtain ⟨t, s', t', ht, hnext, rfl⟩ := Pool.step_advance h
    intro hloops
    rw [Pool.some_set_iff ht]
    -- the `Connect` that holds the mutex waits for it
    have hkeep : p.shared.loops ≠ [] →
        t' = .stdio (.sendLock .handshake) ∨ p.Other i (· = .stdio (.sendLock .handshake)) := by
      intro hold
      rcases (Pool.some_iff ht).mp (hp.seized hold) with rfl | hother
      · obtain ⟨u, hu, -⟩ := stdioNext_inv hnext
        simp only [stdioNext, StdioServer.lock, hp.locked hold, if_true] at hu
        cases hu
      · exact .inr hother
    cases t with
    | loops =>
      obtain ⟨k, l, -, hk, -, -, -⟩ := linkNext_loops hnext
      exact hkeep (ne_nil_of_mem (mem_of_getElem? hk))
    | stdio t =>
      obtain ⟨u, -, rfl, hsame | ⟨rfl, -⟩⟩ := stdioNext_inv hnext
      · exact hkeep fun hnil => hloops ((congrArg LoopServer.loops hsame).trans hnil)
      · exact .inl rfl
    | _ => exact (hp.exclusive.occurs i _ ht).elim

theorem Seized.truthful_iff (hp : Seized p) :
    Truthful (.stdio refused) p.shared ↔ ¬ p.shared.Down := by
  refine ⟨fun h hdown => ?_, truthful_of_not_down⟩
  have hfree := (h hdown).1
  rw [hp.locked hdown.1] at hfree
  cases hfree

theorem Seized.down_step (hp : Seized p) (hup : ¬ p.shared.Down) {i : Nat} {t t' : LinkPoint}
    (ht : p.threads[i]? = some t) (h : linkNext (.stdio refused) p.shared x t = some (s', t')) :
    s'.Down ↔ Misleads (.stdio refused) p.shared x t := by
  cases t with
  | loops =>
    obtain ⟨k, l, rfl, hk, hrunning, rfl, -⟩ := linkNext_loops h
    rw [LoopServer.down_finish (List.getElem?_eq_some_iff.mp hk).1]
    simp [Misleads, hk, hrunning, Transport.Unaware]
  | stdio t =>
    have hno : ¬ Misleads (.stdio refused) p.shared x (.stdio t) := by cases x <;> exact id
    refine ⟨fun hdown => ?_, fun hmis => absurd hmis hno⟩
    obtain ⟨u, -, -, hsame | ⟨-, hspawn⟩⟩ := stdioNext_inv h
    · rw [hsame] at hdown
      exact absurd hdown hup
    · rw [hspawn] at hdown
      exact absurd hdown (LoopServer.not_down_spawn _)
  | _ => exact (hp.exclusive.occurs i _ ht).elim

/-! ## Whole runs -/

/-- A move makes `Health` wrong. -/
def MisleadingMove (tr : Transport) (p : Pool LoopServer LinkPoint) :
    Move LinkOp Outside → Prop
  | .start _ => False
  | .advance i x => ∃ t, p.threads[i]? = some t ∧ Misleads tr p.shared x t

theorem Misleads.enabled {t : LinkPoint} (h : Misleads tr s x t) :
    ∃ s' t', linkNext tr s x t = some (s', t') := by
  unfold Misleads at h
  split at h
  · obtain ⟨l, hk, hrunning, -⟩ := h
    cases tr <;>
      exact ⟨_, _, by simp only [linkNext, Transport.loopNext, hk, hrunning, if_true]; rfl⟩
  · obtain ⟨l, hk, hrunning, -, -, hsse, hendpoint⟩ := h
    exact ⟨_, _, by
      simp only [linkNext, Transport.loopNext, hk, hsse, hrunning, hendpoint, and_self, if_true]
      rfl⟩
  · exact ⟨_, _, by simp only [linkNext, h.1, if_true]; rfl⟩
  · exact ⟨_, _, rfl⟩
  · exact h.elim

/-- `Health` is right, and on stdio the mutex is where it always is. -/
structure Settled (tr : Transport) (p : Pool LoopServer LinkPoint) : Prop where
  truthful : Truthful tr p.shared
  seized : ∀ refused, tr = .stdio refused → Seized p

theorem settled_new (tr : Transport) : Settled tr newServer :=
  ⟨fun hdown => absurd rfl hdown.1, fun _ _ => seized_new⟩

/-- **One move makes `Health` wrong exactly if it is a misleading one.** -/
theorem Settled.truthful_step (hp : Settled tr p) (h : p.step (linkCode tr) m = some p') :
    Truthful tr p'.shared ↔ ¬ MisleadingMove tr p m := by
  cases m with
  | start r =>
    obtain rfl : _ = p' := Option.some.inj h
    exact ⟨fun _ => id, fun _ => hp.truthful⟩
  | advance i x =>
    have hmove := h
    obtain ⟨t, s', t', ht, hnext, rfl⟩ := Pool.step_advance h
    have hthread : MisleadingMove tr p (.advance i x) ↔ Misleads tr p.shared x t := by
      simp [MisleadingMove, ht]
    rw [hthread]
    cases tr with
    | stdio refused =>
      have hseized := hp.seized refused rfl
      rw [(hseized.step hmove).truthful_iff]
      exact not_congr (hseized.down_step (hseized.truthful_iff.mp hp.truthful) ht hnext)
    | sse | websocket => exact truthful_step_flag trivial hp.truthful hnext

theorem Settled.step (hp : Settled tr p) (hm : ¬ MisleadingMove tr p m)
    (h : p.step (linkCode tr) m = some p') : Settled tr p' :=
  ⟨(hp.truthful_step h).mpr hm, fun refused htr => by
    subst htr
    exact (hp.seized refused rfl).step h⟩

/-- **Health and the read loop.** In a run on any of the three transports, `Health` returns an error
in every state in which the server is down iff no move of the run is a misleading one. -/
theorem health_iff (tr : Transport) (ms : List (Move LinkOp Outside)) :
    AlongFrom (Pool.step (linkCode tr))
        (fun p m => ∀ p', p.step (linkCode tr) m = some p' → Truthful tr p'.shared) newServer ms ↔
      AlongFrom (Pool.step (linkCode tr)) (fun p m => ¬ MisleadingMove tr p m) newServer ms := by
  refine alongFrom_iff (P := Settled tr) (fun p m hp => ⟨fun h hmis => ?_, fun hmis p' h => ?_⟩)
    (fun p m p' hp hm h => hp.step hm h) (settled_new tr) ms
  · cases m with
    | start r => exact hmis
    | advance i x =>
      obtain ⟨t, ht, hthread⟩ := hmis
      obtain ⟨s', t', hnext⟩ := hthread.enabled
      have hcode : (linkCode tr).next p.shared x t = some (s', t') := hnext
      have hstep : p.step (linkCode tr) (.advance i x) = some ⟨s', p.threads.set i t'⟩ := by
        simp only [Pool.step, ht, hcode, Option.map_some]
      exact (hp.truthful_step hstep).mp (h _ hstep) ⟨t, ht, hthread⟩
  · exact (hp.truthful_step h).mpr hmis

def stdioExits : List (Move LinkOp Outside) :=
  [.start .connect, .advance 1 .ok, .advance 1 .ok, .advance 0 (.eof 0)]

def sseEnds : List (Move LinkOp Outside) :=
  [.start .connect, .advance 1 .ok, .advance 0 (.endpoint 0), .advance 1 .ok, .advance 1 .ok,
    .advance 0 (.eof 0)]

def wsRedials : List (Move LinkOp Outside) :=
  [.start .connect, .advance 1 .ok, .advance 1 .ok, .advance 1 .ok, .advance 1 .ok,
    .advance 0 (.eof 0), .start .connect, .advance 2 .ok, .advance 2 .ok]

/-- In none of the three cases does `Health` return an error; on stdio it waits for the mutex. -/
theorem health_misled :
    (∃ p, runFrom (Pool.step (linkCode (.stdio false))) newServer stdioExits = some p ∧
      p.shared.Down ∧ p.shared.stdio.locked = true) ∧
    (∃ p, runFrom (Pool.step (linkCode .sse)) newServer sseEnds = some p ∧
      p.shared.Down ∧ ¬ HealthErr .sse p.shared) ∧
    (∃ p, runFrom (Pool.step (linkCode .websocket)) newServer wsRedials = some p ∧
      p.shared.Down ∧ ¬ HealthErr .websocket p.shared) :=
  ⟨⟨_, rfl, ⟨nofun, rfl, rfl⟩, rfl⟩, ⟨_, rfl, ⟨nofun, rfl, rfl⟩, nofun⟩,
    ⟨_, rfl, ⟨nofun, rfl, rfl⟩, nofun⟩⟩

end LlmRouter.Mcp
