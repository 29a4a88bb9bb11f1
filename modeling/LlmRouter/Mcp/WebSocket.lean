import LlmRouter.Lib.Mutex
import Mathlib.Data.List.Perm.Subperm

/-!
# LlmRouter — who writes to a WebSocket

The library allows one goroutine at a time inside `conn.WriteMessage`. `Close` writes with the
mutex `s.mu` held, but `wsSend` holds it only to read `s.conn`. `writer_iff` says which operations
may be interleaved in any way.
-/

namespace LlmRouter.Mcp

open Lib

/-! ## The server -/

/-- The fields of `wsServer` that a write depends on: the connection, if there was one yet,
and the mutex. -/
structure WsServer where
  conn : Option Nat
  locked : Bool := false
  deriving DecidableEq, Repr

/-- An operation. The methods that list, read or call something are all `call`; `notify` is
`wsSend` with id 0. -/
inductive WsOp where
  | call
  | notify
  | close
  deriving DecidableEq, Repr

inductive WsPoint where
  | sendLock (op : WsOp)
  | sendReady (op : WsOp) (conn : Nat)
  | sendWrite (op : WsOp) (conn : Nat)
  | await
  | closeLock
  | closeReady (conn : Nat)
  | closeWrite (conn : Nat)
  | closeConn
  | returned (ok : Bool)
  deriving DecidableEq, Repr

def WsOp.start : WsOp → WsPoint
  | .close => .closeLock
  | op => .sendLock op

/-- What follows `wsSend`, by its outcome: a call waits for its response. -/
def WsOp.sent : WsOp → Bool → WsPoint
  | .call, true => .await
  | _, ok => .returned ok

def wsNext (s : WsServer) (ok : Bool) : WsPoint → Option (WsServer × WsPoint)
  | .sendLock op =>
    if s.locked then none
    else
      match s.conn with
      | none => some (s, .returned false)
      | some c => some (s, .sendReady op c)
  | .sendReady op c => some (s, .sendWrite op c)
  | .sendWrite op _ => some (s, op.sent ok)
  | .await => some (s, .returned ok)
  | .closeLock =>
    if s.locked then none
    else
      match s.conn with
      | none => some (s, .returned true)
      | some c => some ({ s with locked := true }, .closeReady c)
  | .closeReady c => some (s, .closeWrite c)
  | .closeWrite _ => some (s, .closeConn)
  | .closeConn => some ({ s with locked := false }, .returned ok)
  | .returned _ => none

def wsCode : Code WsServer WsOp WsPoint Bool where
  start := WsOp.start
  next := wsNext

namespace WsPoint

/-- The goroutine is inside `conn.WriteMessage` of this connection. -/
def Writes (c : Nat) : WsPoint → Prop
  | .sendWrite _ c' | .closeWrite c' => c' = c
  | _ => False

def HoldsMu : WsPoint → Prop
  | .closeReady _ | .closeWrite _ | .closeConn => True
  | _ => False

def Closes : WsPoint → Prop
  | .closeLock | .closeReady _ | .closeWrite _ | .closeConn | .returned _ => True
  | _ => False

def HasConn : WsPoint → Prop
  | .sendReady _ _ | .sendWrite _ _ | .closeReady _ | .closeWrite _ => True
  | _ => False

end WsPoint

open WsPoint (Writes HoldsMu Closes HasConn)

/-- No two goroutines are inside `conn.WriteMessage` of one connection. -/
def OneWriter (p : Pool WsServer WsPoint) : Prop :=
  ∀ (i j : Nat) (t u : WsPoint) (c : Nat), p.threads[i]? = some t → p.threads[j]? = some u →
    t.Writes c → u.Writes c → i = j

inductive WsStep (s : WsServer) : WsPoint → WsServer → WsPoint → Prop
  | unconnected (op : WsOp) (hconn : s.conn = none) : WsStep s (.sendLock op) s (.returned false)
  | reads (op : WsOp) (c : Nat) (hconn : s.conn = some c) :
    WsStep s (.sendLock op) s (.sendReady op c)
  | enters (op : WsOp) (c : Nat) : WsStep s (.sendReady op c) s (.sendWrite op c)
  | sent (op : WsOp) (c : Nat) (ok : Bool) : WsStep s (.sendWrite op c) s (op.sent ok)
  | answered (ok : Bool) : WsStep s .await s (.returned ok)
  | nothing (hconn : s.conn = none) : WsStep s .closeLock s (.returned true)
  | locks (c : Nat) (hconn : s.conn = some c) (hfree : s.locked = false) :
    WsStep s .closeLock { s with locked := true } (.closeReady c)
  | closeEnters (c : Nat) : WsStep s (.closeReady c) s (.closeWrite c)
  | closeSent (c : Nat) : WsStep s (.closeWrite c) s .closeConn
  | unlocks (ok : Bool) : WsStep s .closeConn { s with locked := false } (.returned ok)

theorem wsStep_of_next {s s' : WsServer} {ok : Bool} {t t' : WsPoint}
    (h : wsNext s ok t = some (s', t')) : WsStep s t s' t' := by
  revert h
  fun_cases wsNext s ok t with
  | case2 op _ hconn => rintro ⟨⟩; exact .unconnected op hconn
  | case3 op _ c hconn => rintro ⟨⟩; exact .reads op c hconn
  | case4 op c => rintro ⟨⟩; exact .enters op c
  | case5 op c => rintro ⟨⟩; exact .sent op c ok
  | case6 => rintro ⟨⟩; exact .answered ok
  | case8 _ hconn => rintro ⟨⟩; exact .nothing hconn
  | case9 hfree c hconn => rintro ⟨⟩; exact .locks c hconn (Bool.not_eq_true _ ▸ hfree)
  | case10 c => rintro ⟨⟩; exact .closeEnters c
  | case11 c => rintro ⟨⟩; exact .closeSent c
  | case12 => rintro ⟨⟩; exact .unlocks ok
  | _ => rintro ⟨⟩

/-! ## When there is one writer -/

theorem ws_mutex : MutexUse wsCode (fun s => s.locked = true) HoldsMu (fun _ => True) where
  start r := by cases r <;> exact ⟨id, trivial⟩
  step s ok t s' t' _ hlocked h := by
    refine ⟨trivial, ?_⟩
    cases wsStep_of_next h with
    | locks c hconn hfree => exact .inl ⟨id, by simp [hfree], trivial, rfl⟩
    | unlocks ok => exact .inr (.inl ⟨trivial, id, nofun⟩)
    | sent op c ok' => exact .inr (.inr ⟨by cases op <;> cases ok' <;> exact Iff.rfl, Iff.rfl⟩)
    | _ => exact .inr (.inr ⟨Iff.rfl, Iff.rfl⟩)

theorem unconnected_writer {ms : List (Move WsOp Bool)} {p : Pool WsServer WsPoint}
    (hrun : runFrom (Pool.step wsCode) (Pool.init ⟨none, false⟩) ms = some p) : OneWriter p := by
  have houtline : Outline wsCode (fun _ _ _ => True) 0 (fun s => s.conn = none)
      (fun _ _ t => ¬ t.HasConn) := by
    refine ⟨fun i s r _ _ => by cases r <;> exact id, fun i s ok t s' t' hs _ _ h => ?_,
      fun i s ok t s' t' hs ht _ h => ?_, fun _ _ _ _ _ _ _ _ _ _ _ _ hu => hu⟩
    · cases wsStep_of_next h <;> exact hs
    · cases wsStep_of_next h with
      | reads op c hconn | locks c hconn =>
        rw [hs] at hconn
        cases hconn
      | enters | closeEnters => exact ht
      | sent op c ok => cases op <;> cases ok <;> exact id
      | _ => exact id
  have hend := houtline.run_init rfl (Pool.along_true _ _ _) hrun
  intro i j t u c hi hj ht hu
  cases t with
  | sendWrite | closeWrite => exact absurd trivial (hend.thread i _ hi)
  | _ => exact ht.elim

theorem closes_writer {s : WsServer} (hfree : s.locked = false) {ms : List (Move WsOp Bool)}
    {p : Pool WsServer WsPoint} (hms : ∀ op ∈ started ms, op = .close)
    (hrun : runFrom (Pool.step wsCode) (Pool.init s) ms = some p) : OneWriter p := by
  have hexclusive := ws_mutex.run (by rw [hfree]; exact Bool.false_ne_true) hrun
  have honly : AlongFrom (Pool.step wsCode) (fun _ m => ∀ op, m = .start op → op = .close)
      (Pool.init s) ms := by
    refine alongFrom_of_mem ?_ _
    rintro m hm op rfl
    exact hms op (mem_started.mpr hm)
  have hcloses : ∀ t ∈ p.threads, t.Closes := by
    refine runFrom_invariant (P := fun q => ∀ t ∈ q.threads, t.Closes) ?_ nofun honly hrun
    intro q m q' hq hm h
    cases m with
    | start op =>
      obtain rfl : _ = q' := Option.some.inj h
      obtain rfl := hm op rfl
      intro t ht
      rcases List.mem_append.mp ht with ht | ht
      · exact hq t ht
      · rw [List.mem_singleton.mp ht]
        trivial
    | advance i ok =>
      obtain ⟨t, s', t', ht, hnext, rfl⟩ := Pool.step_advance h
      have hclose := hq t (List.mem_of_getElem? ht)
      intro u hu
      rcases List.mem_or_eq_of_mem_set hu with hu | rfl
      · exact hq u hu
      · cases wsStep_of_next hnext with
        | reads | enters | sent | answered | unconnected => exact hclose.elim
        | _ => trivial
  -- a `Close` that writes holds the mutex
  have hholds : ∀ (i : Nat) t c, p.threads[i]? = some t → t.Writes c → t.HoldsMu := by
    intro i t c hi ht
    have hclose := hcloses t (List.mem_of_getElem? hi)
    cases t with
    | closeWrite => trivial
    | sendWrite => exact hclose.elim
    | _ => exact ht.elim
  intro i j t u c hi hj ht hu
  exact hexclusive.unique i j t u hi hj (hholds i t c hi ht) (hholds j u c hj hu)

theorem WsOp.start_send {op : WsOp} (h : op ≠ .close) : op.start = .sendLock op := by
  cases op with
  | close => exact absurd rfl h
  | call | notify => rfl

theorem two_writers {c : Nat} {op : WsOp} (hop : op ≠ .close) (op' : WsOp) :
    ∃ ms p, started ms = [op, op'] ∧
      runFrom (Pool.step wsCode) (Pool.init ⟨some c, false⟩) ms = some p ∧ ¬ OneWriter p := by
  have hsend := WsOp.start_send hop
  refine ⟨[.start op, .start op', .advance 0 true, .advance 0 true, .advance 1 true,
    .advance 1 true], ?_⟩
  by_cases hop' : op' = .close
  · subst hop'
    refine ⟨⟨⟨some c, true⟩, [.sendWrite op c, .closeWrite c]⟩, rfl, ?_, fun hone => ?_⟩
    · simp [runFrom, Pool.step, Pool.init, wsCode, wsNext, hsend,
        show WsOp.close.start = .closeLock from rfl]
    · exact absurd (hone 0 1 _ _ c rfl rfl rfl rfl) Nat.zero_ne_one
  · have hsend' := WsOp.start_send hop'
    refine ⟨⟨⟨some c, false⟩, [.sendWrite op c, .sendWrite op' c]⟩, rfl, ?_, fun hone => ?_⟩
    · simp [runFrom, Pool.step, Pool.init, wsCode, wsNext, hsend, hsend']
    · exact absurd (hone 0 1 _ _ c rfl rfl rfl rfl) Nat.zero_ne_one

/-- **The writers of a WebSocket.** Every interleaving of the operations `ops` has at most one
goroutine inside `conn.WriteMessage` at a time iff there is no connection, or all are a `Close`, or
there is at most one. -/
theorem writer_iff (conn : Option Nat) (ops : List WsOp) :
    (∀ ms p, (started ms).Subperm ops →
        runFrom (Pool.step wsCode) (Pool.init ⟨conn, false⟩) ms = some p → OneWriter p) ↔
      conn = none ∨ (∀ op ∈ ops, op = .close) ∨ ops.length ≤ 1 := by
  constructor
  · intro hall
    by_contra hcon
    simp only [not_or, not_forall, Nat.not_le] at hcon
    obtain ⟨hconn, ⟨op, hmem, hop⟩, hlength⟩ := hcon
    obtain ⟨c, rfl⟩ := Option.ne_none_iff_exists'.mp hconn
    -- a send, and another operation beside it
    have hperm := List.perm_cons_erase hmem
    obtain ⟨op', rest, hrest⟩ : ∃ op' rest, ops.erase op = op' :: rest := by
      have herase := List.length_erase_of_mem hmem
      cases h : ops.erase op with
      | nil =>
        rw [h, List.length_nil] at herase
        omega
      | cons op' rest => exact ⟨op', rest, rfl⟩
    obtain ⟨ms, p, hms, hrun, htwo⟩ := two_writers (c := c) hop op'
    refine htwo (hall ms p ?_ hrun)
    rw [hms]
    refine List.Subperm.trans ?_ hperm.symm.subperm
    rw [hrest]
    exact (((List.nil_sublist rest).cons_cons op').cons_cons op).subperm
  · rintro (rfl | hcloses | hfew) ms p hms hrun
    · exact unconnected_writer hrun
    · exact closes_writer rfl (fun op hop => hcloses op (hms.subset hop)) hrun
    · have hlength := Pool.run_length hrun
      have hle := hms.length_le
      intro i j t u c hi hj _ _
      have hi' := (List.getElem?_eq_some_iff.mp hi).1
      have hj' := (List.getElem?_eq_some_iff.mp hj).1
      simp only [Pool.init, List.length_nil] at hlength
      omega

theorem two_calls_write :
    ∃ p, runFrom (Pool.step wsCode) (Pool.init ⟨some 0, false⟩)
        [.start .call, .start .call, .advance 0 true, .advance 1 true, .advance 0 true,
          .advance 1 true] = some p ∧
      p.threads = [.sendWrite .call 0, .sendWrite .call 0] := ⟨_, rfl, rfl⟩

end LlmRouter.Mcp
