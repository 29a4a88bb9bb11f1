import LlmRouter.Lib.Mutex

/-!
# LlmRouter — the mutex of an MCP server on stdio

Goroutines that connect, close, ask for the health or call a method share the mutex `s.mu`, which
is not reentrant. `Connect` holds it until it returns and on its way takes it once more in
`sendLocked`: it waits for itself (`self_lock_iff`), and nothing moves from then on
(`connect_stuck`).
-/

namespace LlmRouter.Mcp

open Lib

/-! ## The server -/

structure ServerAuthConfig where
  type : String := ""
  token : String := ""
  user : String := ""
  deriving DecidableEq, Repr

structure ServerConfig where
  name : String
  type : String
  command : String := ""
  args : List String := []
  env : List (String × String) := []
  url : String := ""
  apiKey : String := ""
  auth : ServerAuthConfig := {}
  deriving DecidableEq, Repr

def blockedEnvVars : List String :=
  ["LD_PRELOAD", "LD_LIBRARY_PATH", "DYLD_INSERT_LIBRARIES", "DYLD_LIBRARY_PATH", "LD_AUDIT",
    "LD_DEBUG"]

/-- `Connect` refuses the configuration: no absolute path, or a blocked variable. -/
def ServerConfig.refused (cfg : ServerConfig) (toUpper : String → String) : Bool :=
  cfg.command.toList.head? != some '/' ||
    cfg.env.any fun kv => blockedEnvVars.contains (toUpper kv.1)

structure StdioServer where
  locked : Bool := false
  running : Bool := false
  stdin : Bool := false
  deriving DecidableEq, Repr

/-- An operation. The methods that list, read or call something are all `call`. -/
inductive StdioOp where
  | connect
  | close
  | health
  | call
  deriving DecidableEq, Repr

/-- On whose behalf `sendLocked` runs: a call, the `initialize` of `Connect`, or the notification
after it. -/
inductive Sender where
  | direct
  | handshake
  | notice
  deriving DecidableEq, Repr

inductive StdioPoint where
  | connectLock
  | connectStart
  | sendLock (sender : Sender)
  | sendWrite (sender : Sender)
  | await (sender : Sender)
  | connectStop
  | connectUnlock (ok : Bool)
  | closeLock
  | closeStop
  | healthLock
  | healthUnlock
  | returned (ok : Bool)
  deriving DecidableEq, Repr

def StdioOp.start : StdioOp → StdioPoint
  | .connect => .connectLock
  | .close => .closeLock
  | .health => .healthLock
  | .call => .sendLock .direct

/-- What follows `sendLocked`, by its outcome; the notification's is ignored. -/
def Sender.sent : Sender → Bool → StdioPoint
  | .direct, true => .await .direct
  | .direct, false => .returned false
  | .handshake, true => .await .handshake
  | .handshake, false => .connectStop
  | .notice, _ => .connectUnlock true

def Sender.answered : Sender → Bool → StdioPoint
  | .direct, ok => .returned ok
  | .handshake, true => .sendLock .notice
  | .handshake, false => .connectStop
  | .notice, _ => .connectUnlock true

def StdioServer.lock (s : StdioServer) (next : StdioPoint) : Option (StdioServer × StdioPoint) :=
  if s.locked then none else some ({ s with locked := true }, next)

theorem StdioServer.lock_eq_some {s s' : StdioServer} {next t' : StdioPoint}
    (h : s.lock next = some (s', t')) :
    s.locked = false ∧ s' = { s with locked := true } ∧ t' = next := by
  unfold StdioServer.lock at h
  split at h
  case isTrue => cases h
  case isFalse hfree =>
    cases h
    exact ⟨by simpa using hfree, rfl, rfl⟩

/-- The next step of a goroutine; `fault` says that the subprocess, a pipe, the write or the
answer fails. -/
def stdioNext (refused : Bool) (s : StdioServer) (fault : Bool) :
    StdioPoint → Option (StdioServer × StdioPoint)
  | .connectLock => s.lock .connectStart
  | .connectStart =>
    if refused || fault then some (s, .connectUnlock false)
    else some ({ s with running := true, stdin := true }, .sendLock .handshake)
  | .sendLock sender => s.lock (.sendWrite sender)
  | .sendWrite sender => some ({ s with locked := false }, sender.sent (s.stdin && !fault))
  | .await sender => some (s, sender.answered !fault)
  | .connectStop => some ({ s with running := false }, .connectUnlock false)
  | .connectUnlock ok => some ({ s with locked := false }, .returned ok)
  | .closeLock => s.lock .closeStop
  | .closeStop => some ({ s with locked := false, running := false }, .returned true)
  | .healthLock => s.lock .healthUnlock
  | .healthUnlock => some ({ s with locked := false }, .returned s.running)
  | .returned _ => none

def stdioCode (refused : Bool) : Code StdioServer StdioOp StdioPoint Bool where
  start := StdioOp.start
  next := stdioNext refused

/-! ## Who holds the mutex -/

namespace StdioPoint

def Holds : StdioPoint → Prop
  | .connectStart | .connectStop | .connectUnlock _ => True
  | .sendLock sender => sender ≠ .direct
  | .sendWrite _ => True
  | .await sender => sender ≠ .direct
  | .closeStop | .healthUnlock => True
  | .connectLock | .closeLock | .healthLock | .returned _ => False

def Locks : StdioPoint → Prop
  | .connectLock | .sendLock _ | .closeLock | .healthLock => True
  | _ => False

def SelfLocks (t : StdioPoint) : Prop := t.Holds ∧ t.Locks

/-- The goroutine runs `Connect` after the subprocess has started. -/
def Handshake : StdioPoint → Prop
  | .sendLock sender | .sendWrite sender | .await sender => sender ≠ .direct
  | _ => False

theorem SelfLocks.handshake {t : StdioPoint} (h : t.SelfLocks) : t.Handshake := by
  cases t with
  | sendLock sender => exact h.1
  | connectLock | closeLock | healthLock => exact h.1.elim
  | _ => exact h.2.elim

end StdioPoint

namespace StdioPoint

/-- The points that are reached: `Connect` gets no further than its first `sendLocked`. -/
def Occurs : StdioPoint → Prop
  | .sendLock sender => sender ≠ .notice
  | .sendWrite sender | .await sender => sender = .direct
  | .connectStop | .connectUnlock true => False
  | _ => True

end StdioPoint

theorem stdio_mutex (refused : Bool) :
    MutexUse (stdioCode refused) (fun s => s.locked = true) StdioPoint.Holds
      StdioPoint.Occurs where
  start := by
    intro r
    cases r <;> simp [stdioCode, StdioOp.start, StdioPoint.Holds, StdioPoint.Occurs]
  step := by
    intro s fault t s' t' hoccur hlocked h
    cases t with
    | connectLock | closeLock | healthLock =>
      obtain ⟨hfree, rfl, rfl⟩ := StdioServer.lock_eq_some h
      exact ⟨trivial, .inl ⟨id, by simp [hfree], trivial, rfl⟩⟩
    | connectStart =>
      simp only [stdioCode, stdioNext] at h
      split at h <;> cases h
      · exact ⟨trivial, .inr (.inr ⟨Iff.rfl, Iff.rfl⟩)⟩
      · exact ⟨nofun, .inr (.inr ⟨⟨fun _ => trivial, fun _ => nofun⟩, Iff.rfl⟩)⟩
    | sendLock sender =>
      obtain ⟨hfree, rfl, rfl⟩ := StdioServer.lock_eq_some h
      -- `Connect` finds its own lock here
      have hdirect : sender = .direct := by
        by_contra hne
        rw [hlocked hne] at hfree
        cases hfree
      subst hdirect
      exact ⟨rfl, .inl ⟨fun hne => hne rfl, by simp [hfree], trivial, rfl⟩⟩
    | sendWrite sender =>
      obtain rfl : sender = .direct := hoccur
      cases h
      cases (s.stdin && !fault)
      · exact ⟨trivial, .inr (.inl ⟨trivial, id, nofun⟩)⟩
      · exact ⟨rfl, .inr (.inl ⟨trivial, fun hne => hne rfl, nofun⟩)⟩
    | await sender =>
      obtain rfl : sender = .direct := hoccur
      cases h
      exact ⟨trivial, .inr (.inr ⟨⟨False.elim, fun hne => hne rfl⟩, Iff.rfl⟩)⟩
    | connectStop => exact hoccur.elim
    | connectUnlock | closeStop | healthUnlock =>
      cases h
      exact ⟨trivial, .inr (.inl ⟨trivial, id, nofun⟩)⟩
    | returned ok => cases h

/-- **A `Connect` whose subprocess has started never goes on**, whatever comes after it, and
the mutex stays locked. -/
theorem connect_stuck {refused : Bool} {p p' : Pool StdioServer StdioPoint}
    {ms ms' : List (Move StdioOp Bool)}
    (hrun : runFrom (Pool.step (stdioCode refused)) (Pool.init {}) ms = some p) {i : Nat}
    (hi : p.threads[i]? = some (.sendLock .handshake))
    (hrun' : runFrom (Pool.step (stdioCode refused)) p ms' = some p') :
    p'.threads[i]? = some (.sendLock .handshake) ∧ p'.shared.locked = true := by
  have hexclusive := (stdio_mutex refused).run Bool.false_ne_true hrun
  refine (stdio_mutex refused).stuck hexclusive hi nofun ?_ hrun'
  intro s fault hlocked
  simp [stdioCode, stdioNext, StdioServer.lock, hlocked]

/-! ## When a goroutine locks the mutex twice -/

def EndsEarly (refused : Bool) (_ : StdioServer) (fault : Bool) : StdioPoint → Prop
  | .connectStart => refused = true ∨ fault = true
  | _ => True

def NoSelfLock (p : Pool StdioServer StdioPoint) : Prop := ∀ t ∈ p.threads, ¬ t.SelfLocks

/-- No goroutine is in `Connect` after its subprocess has started. -/
def NoHandshake (p : Pool StdioServer StdioPoint) : Prop := ∀ t ∈ p.threads, ¬ t.Handshake

theorem next_handshake {refused fault : Bool} {s s' : StdioServer} {t t' : StdioPoint}
    (h : stdioNext refused s fault t = some (s', t')) (ht : ¬ t.Handshake) :
    (t'.SelfLocks ∧ ¬ EndsEarly refused s fault t) ∨
      (¬ t'.Handshake ∧ EndsEarly refused s fault t) := by
  cases t with
  | connectStart =>
    simp only [stdioNext] at h
    split at h
    case isTrue hends =>
      cases h
      exact .inr ⟨id, by simpa [EndsEarly] using hends⟩
    case isFalse hstarts =>
      cases h
      exact .inl ⟨⟨nofun, trivial⟩, by simpa [EndsEarly] using hstarts⟩
  | sendLock sender =>
    obtain rfl : sender = .direct := not_not.mp ht
    rw [(StdioServer.lock_eq_some h).2.2]
    exact .inr ⟨ht, trivial⟩
  | sendWrite sender =>
    obtain rfl : sender = .direct := not_not.mp ht
    cases h
    refine .inr ⟨?_, trivial⟩
    cases (s.stdin && !fault)
    · exact id
    · exact ht
  | await sender =>
    obtain rfl : sender = .direct := not_not.mp ht
    cases h
    exact .inr ⟨id, trivial⟩
  | connectLock | closeLock | healthLock =>
    rw [(StdioServer.lock_eq_some h).2.2]
    exact .inr ⟨id, trivial⟩
  | connectStop | connectUnlock ok | closeStop | healthUnlock =>
    cases h
    exact .inr ⟨id, trivial⟩
  | returned ok => cases h

section

variable {refused : Bool} {p p' : Pool StdioServer StdioPoint} {m : Move StdioOp Bool}

theorem NoHandshake.noSelfLock (h : NoHandshake p) : NoSelfLock p :=
  fun t ht hself => h t ht hself.handshake

theorem noHandshake_step (hp : NoHandshake p) (hok : p.Ok (EndsEarly refused) m)
    (h : p.step (stdioCode refused) m = some p') : NoHandshake p' := by
  cases m with
  | start op =>
    obtain rfl : _ = p' := Option.some.inj h
    intro t ht
    rcases List.mem_append.mp ht with ht | ht
    · exact hp t ht
    · rw [List.mem_singleton.mp ht]
      cases op
      · exact id
      · exact id
      · exact id
      · exact fun hne => hne rfl
  | advance i fault =>
    obtain ⟨t, s', t', ht, hnext, rfl⟩ := Pool.step_advance h
    intro u hu
    rcases List.mem_or_eq_of_mem_set hu with hu | rfl
    · exact hp u hu
    · rcases next_handshake hnext (hp t (List.mem_of_getElem? ht)) with ⟨-, hlate⟩ | ⟨hout, -⟩
      · exact absurd (hok t ht) hlate
      · exact hout

theorem endsEarly_of_noSelfLock (hp : NoHandshake p)
    (h : ∀ p', p.step (stdioCode refused) m = some p' → NoSelfLock p') :
    p.Ok (EndsEarly refused) m := by
  cases m with
  | start op => trivial
  | advance i fault =>
    intro t ht
    cases hnext : stdioNext refused p.shared fault t with
    | none =>
      -- `Connect` is not blocked there
      cases t with
      | connectStart =>
        simp only [stdioNext] at hnext
        split at hnext <;> cases hnext
      | _ => trivial
    | some next =>
      obtain ⟨s', t'⟩ := next
      rcases next_handshake hnext (hp t (List.mem_of_getElem? ht)) with ⟨hself, -⟩ | ⟨-, hends⟩
      · have hstep : p.step (stdioCode refused) (.advance i fault) =
            some ⟨s', p.threads.set i t'⟩ := by
          have hcode : (stdioCode refused).next p.shared fault t = some (s', t') := hnext
          simp only [Pool.step, ht, hcode, Option.map_some]
        obtain ⟨hlt, -⟩ := List.getElem?_eq_some_iff.mp ht
        exact absurd hself (h _ hstep t' (List.mem_of_getElem? (List.getElem?_set_self hlt)))
      · exact hends

end

/-- **The mutex of a stdio server.** Nobody locks a mutex it holds iff no `Connect` starts its
subprocess. -/
theorem self_lock_iff (cfg : ServerConfig) (toUpper : String → String)
    (ms : List (Move StdioOp Bool)) :
    AlongFrom (Pool.step (stdioCode (cfg.refused toUpper)))
        (fun p m => ∀ p', p.step (stdioCode (cfg.refused toUpper)) m = some p' → NoSelfLock p')
        (Pool.init {}) ms ↔
      AlongFrom (Pool.step (stdioCode (cfg.refused toUpper)))
        (Pool.Ok (EndsEarly (cfg.refused toUpper))) (Pool.init {}) ms := by
  refine alongFrom_iff (P := NoHandshake) (fun p m hp => ⟨endsEarly_of_noSelfLock hp, ?_⟩)
    (fun p m p' hp hok h => noHandshake_step hp hok h) (fun _ ht => absurd ht List.not_mem_nil) ms
  intro hok p' h
  exact (noHandshake_step hp hok h).noSelfLock

def fileServer : ServerConfig :=
  { name := "files", type := "stdio", command := "/usr/bin/mcp-files" }

/-- `Connect` alone, with a subprocess that starts: it holds the mutex, waits for it, and no
input lets it go on. -/
theorem connect_locks_itself :
    ∃ p, runFrom (Pool.step (stdioCode (fileServer.refused id))) (Pool.init {})
        [.start .connect, .advance 0 false, .advance 0 false] = some p ∧
      ¬ NoSelfLock p ∧ ∀ fault,
        p.step (stdioCode (fileServer.refused id)) (.advance 0 fault) = none := by
  have hcfg : fileServer.refused id = false := by decide
  rw [hcfg]
  refine ⟨⟨{ locked := true, running := true, stdin := true }, [.sendLock .handshake]⟩, rfl,
    fun h => ?_, fun fault => rfl⟩
  exact h _ (List.mem_singleton_self _) ⟨nofun, trivial⟩

end LlmRouter.Mcp
