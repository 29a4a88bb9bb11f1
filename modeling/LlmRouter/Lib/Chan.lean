import LlmRouter.Lib.Pool

/-!
# Bounded channels

A channel with `cap` slots, from which values leave in the order in which they entered it. That no
more than `cap` values wait is part of the type. What has left is kept as history, so that a value
has a number among all that entered (`entered`).

`Receipts` is for threads that put values into a log and remember their numbers, and `Drains` for
a consumer that is asked to end and does so once it has found the channel empty.
-/

namespace LlmRouter.Lib

structure Chan (α : Type*) (cap : Nat) where
  queue : List α := []
  received : List α := []
  closed : Bool := false
  room : queue.length ≤ cap := by exact Nat.zero_le _

namespace Chan

variable {α : Type*} {cap : Nat} {c c' : Chan α cap} {a : α}

def entered (c : Chan α cap) : List α := c.received ++ c.queue

def send (c : Chan α cap) (a : α) : Option (Chan α cap) :=
  if h : c.queue.length < cap then
    some { c with
      queue := c.queue ++ [a]
      room := by rw [List.length_append]; exact h }
  else none

/-- A receive of the value that has waited longest; on an empty channel it would wait. -/
def recv (c : Chan α cap) : Option (α × Chan α cap) :=
  match h : c.queue with
  | [] => none
  | a :: rest =>
    some (a, { c with
      queue := rest
      received := c.received ++ [a]
      room := by
        have hroom := c.room
        rw [h] at hroom
        exact Nat.le_of_succ_le hroom })

def close (c : Chan α cap) : Chan α cap := { c with closed := true }

theorem send_eq_some (h : c.send a = some c') :
    c'.queue = c.queue ++ [a] ∧ c'.received = c.received ∧ c'.closed = c.closed := by
  unfold send at h
  split at h
  · cases h
    exact ⟨rfl, rfl, rfl⟩
  · cases h

theorem send_eq_none_iff : c.send a = none ↔ c.queue.length = cap := by
  have := c.room
  unfold send
  split
  · simp only [reduceCtorEq, false_iff]
    omega
  · simp only [true_iff]
    omega

theorem exists_send (a : α) (h : c.queue.length < cap) : ∃ c', c.send a = some c' :=
  Option.ne_none_iff_exists'.mp fun hnone => Nat.ne_of_lt h (send_eq_none_iff.mp hnone)

theorem recv_eq_some (h : c.recv = some (a, c')) :
    c.queue = a :: c'.queue ∧ c'.received = c.received ++ [a] ∧ c'.closed = c.closed := by
  unfold recv at h
  split at h
  · cases h
  · rename_i b rest hqueue
    cases h
    exact ⟨hqueue, rfl, rfl⟩

theorem recv_eq_none_iff : c.recv = none ↔ c.queue = [] := by
  unfold recv
  split
  · rename_i hqueue
    exact ⟨fun _ => hqueue, fun _ => rfl⟩
  · rename_i b rest hqueue
    exact ⟨nofun, fun hnil => absurd (hqueue.symm.trans hnil) (List.cons_ne_nil b rest)⟩

theorem entered_send (h : c.send a = some c') : c'.entered = c.entered ++ [a] := by
  obtain ⟨hqueue, hreceived, -⟩ := send_eq_some h
  rw [entered, entered, hqueue, hreceived, List.append_assoc]

theorem entered_recv (h : c.recv = some (a, c')) : c'.entered = c.entered := by
  obtain ⟨hqueue, hreceived, -⟩ := recv_eq_some h
  rw [entered, entered, hqueue, hreceived, List.append_assoc, List.singleton_append]

@[simp] theorem entered_close (c : Chan α cap) : c.close.entered = c.entered := rfl

/-- Values are received in the order in which they are sent. -/
theorem received_first (c : Chan α cap) : c.received <+: c.entered := List.prefix_append _ _

end Chan

/-! ### Receipts -/

variable {σ ρ τ ι α : Type*}

/-- A thread that appends a value to the log gets a receipt with its number and the value,
and keeps it. -/
structure Receipts (c : Code σ ρ τ ι) (log : σ → List α) (receipt : τ → Option (Nat × α)) :
    Prop where
  start : ∀ r, receipt (c.start r) = none
  step : ∀ s x t s' t', c.next s x t = some (s', t') →
    (log s' = log s ∧ receipt t' = receipt t) ∨
    (receipt t = none ∧ ∃ a, log s' = log s ++ [a] ∧ receipt t' = some ((log s).length, a))

structure Pool.Receipted (log : σ → List α) (receipt : τ → Option (Nat × α)) (p : Pool σ τ) :
    Prop where
  entry : ∀ (i : Nat) (t : τ) (n : Nat) (a : α), p.threads[i]? = some t →
    receipt t = some (n, a) → (log p.shared)[n]? = some a
  holder : ∀ (n : Nat) (a : α), (log p.shared)[n]? = some a →
    ∃ (i : Nat) (t : τ), p.threads[i]? = some t ∧ receipt t = some (n, a)
  unique : ∀ (i j : Nat) (t u : τ) (n : Nat) (a b : α), p.threads[i]? = some t →
    p.threads[j]? = some u → receipt t = some (n, a) → receipt u = some (n, b) → i = j

section Receipted

variable {log : σ → List α} {receipt : τ → Option (Nat × α)} {p : Pool σ τ} {s' : σ} {t t' : τ}
  {i : Nat}

theorem Pool.receipted_of_none (hlog : log p.shared = [])
    (hnone : ∀ t ∈ p.threads, receipt t = none) : p.Receipted log receipt := by
  have hfalse : ∀ (i : Nat) (t : τ) (r : Nat × α), p.threads[i]? = some t →
      receipt t ≠ some r := by
    intro i t r hi hr
    rw [hnone t (List.mem_of_getElem? hi)] at hr
    cases hr
  refine ⟨fun i t n a hi hr => absurd hr (hfalse i t _ hi), fun n a hn => ?_,
    fun i _ t _ n a _ hi _ hr => absurd hr (hfalse i t _ hi)⟩
  rw [hlog] at hn
  cases hn

theorem Pool.Receipted.atMostOne (hp : p.Receipted log receipt) (n : Nat) :
    p.AtMostOne fun t => ∃ a, receipt t = some (n, a) :=
  fun i j t u hi hj ⟨a, ht⟩ ⟨b, hu⟩ => hp.unique i j t u n a b hi hj ht hu

theorem Pool.Receipted.start (hp : p.Receipted log receipt) (hnone : receipt t = none) :
    Pool.Receipted log receipt ⟨p.shared, p.threads ++ [t]⟩ := by
  have hnot : ∀ x, receipt t ≠ some x := fun x hx => by rw [hnone] at hx; cases hx
  refine ⟨fun i u n a hi hr => ?_,
    fun n a hn => Pool.some_concat_iff.mpr (.inr (hp.holder n a hn)),
    fun i j t u n a b hi hj ht hu =>
      (hp.atMostOne n).concat (fun ⟨a, ha⟩ => hnot _ ha) i j t u hi hj ⟨a, ht⟩ ⟨b, hu⟩⟩
  rcases getElem?_concat_cases hi with ⟨-, rfl⟩ | hi
  · exact absurd hr (hnot _)
  · exact hp.entry i u n a hi hr

theorem Pool.Receipted.keep (hp : p.Receipted log receipt) (ht : p.threads[i]? = some t)
    (hlog : log s' = log p.shared) (hkeep : receipt t' = receipt t) :
    Pool.Receipted log receipt ⟨s', p.threads.set i t'⟩ := by
  refine ⟨fun j u n b hj hr => ?_, fun n b hn => ?_, fun j k u v n b b' hj hk hu hv => ?_⟩
  · show (log s')[n]? = some b
    rw [hlog]
    rcases getElem?_set_cases hj with ⟨-, rfl⟩ | ⟨-, hj⟩
    · exact hp.entry i t n b ht (hkeep ▸ hr)
    · exact hp.entry j u n b hj hr
  · have hsome := (Pool.some_iff ht).mp (hp.holder n b (hlog ▸ hn))
    exact (Pool.some_set_iff ht).mpr (hsome.imp_left hkeep.trans)
  · exact (hp.atMostOne n).set ht (fun ⟨a, ha⟩ => .inl ⟨a, hkeep ▸ ha⟩) j k u v hj hk ⟨b, hu⟩
      ⟨b', hv⟩

theorem Pool.Receipted.append (hp : p.Receipted log receipt) (ht : p.threads[i]? = some t)
    (hnone : receipt t = none) {a : α} (hlog : log s' = log p.shared ++ [a])
    (hnew : receipt t' = some ((log p.shared).length, a)) :
    Pool.Receipted log receipt ⟨s', p.threads.set i t'⟩ := by
  have hown : ∀ n b, receipt t' = some (n, b) → n = (log p.shared).length ∧ b = a :=
    fun n b hr => Prod.mk.inj (Option.some.inj (hr.symm.trans hnew))
  refine ⟨fun j u n b hj hr => ?_, fun n b hn => ?_, fun j k u v n b b' hj hk hu hv => ?_⟩
  · show (log s')[n]? = some b
    rw [hlog]
    rcases getElem?_set_cases hj with ⟨-, rfl⟩ | ⟨-, hj⟩
    · obtain ⟨rfl, rfl⟩ := hown n b hr
      exact List.getElem?_concat_length
    · exact getElem?_concat (hp.entry j u n b hj hr) a
  · have hn' : (log p.shared ++ [a])[n]? = some b := hlog ▸ hn
    rcases getElem?_concat_cases hn' with ⟨rfl, rfl⟩ | hn'
    · exact (Pool.some_set_iff ht).mpr (.inl hnew)
    · refine (Pool.some_set_iff ht).mpr (.inr ?_)
      refine ((Pool.some_iff ht).mp (hp.holder n b hn')).resolve_left fun hr => ?_
      rw [hnone] at hr
      cases hr
  · refine (hp.atMostOne n).set ht (fun ⟨b, hb⟩ => .inr ?_) j k u v hj hk ⟨b, hu⟩ ⟨b', hv⟩
    rintro ⟨l, w, hl, d, hd⟩
    have hlt := (List.getElem?_eq_some_iff.mp (hp.entry l w n d hl hd)).1
    exact absurd ((hown n b hb).1 ▸ hlt) (Nat.lt_irrefl _)

end Receipted

namespace Receipts

variable {c : Code σ ρ τ ι} {log : σ → List α} {receipt : τ → Option (Nat × α)}

theorem log_prefix (h : Receipts c log receipt) {s s' : σ} {x : ι} {t t' : τ}
    (hnext : c.next s x t = some (s', t')) : log s <+: log s' := by
  rcases h.step s x t s' t' hnext with ⟨hsame, -⟩ | ⟨-, a, hlog, -⟩
  · exact hsame ▸ List.prefix_refl _
  · exact ⟨[a], hlog.symm⟩

theorem receipted_step (h : Receipts c log receipt) {p p' : Pool σ τ} {m : Move ρ ι}
    (hp : p.Receipted log receipt) (hstep : p.step c m = some p') :
    p'.Receipted log receipt := by
  cases m with
  | start r =>
    obtain rfl : _ = p' := Option.some.inj hstep
    exact hp.start (h.start r)
  | advance i x =>
    obtain ⟨t, s', t', ht, hnext, rfl⟩ := Pool.step_advance hstep
    rcases h.step _ x t s' t' hnext with ⟨hlog, hkeep⟩ | ⟨hnone, a, hlog, hnew⟩
    · exact hp.keep ht hlog hkeep
    · exact hp.append ht hnone hlog hnew

theorem run (h : Receipts c log receipt) {p p' : Pool σ τ} {ms : List (Move ρ ι)}
    (hp : p.Receipted log receipt) (hrun : runFrom (Pool.step c) p ms = some p') :
    p'.Receipted log receipt :=
  runFrom_preserves (fun _ _ _ hp hstep => h.receipted_step hp hstep) hp hrun

end Receipts

/-! ### Draining -/

/-- A consumer that takes from a log and ends. Calls at a point of `waits` have asked it to end, and
at a point of `closed` have seen that it returned. It is `ending` only if it has found nothing more
and was asked. -/
structure Drains (c : Code σ ρ τ ι) (log received : σ → List α) (I ending returned : σ → Prop)
    (waits closed : τ → Prop) : Prop where
  start : ∀ r, ¬ waits (c.start r) ∧ ¬ closed (c.start r)
  inv : ∀ s x t s' t', I s → c.next s x t = some (s', t') → I s'
  grows : ∀ s x t s' t', c.next s x t = some (s', t') →
    log s <+: log s' ∧ received s <+: received s'
  ends : ∀ s x t s' t', c.next s x t = some (s', t') → ending s' →
    ending s ∨ (log s).length ≤ (received s').length
  stays : ∀ s x t s' t', c.next s x t = some (s', t') → returned s → returned s'
  asks : ∀ s x t s' t', I s → c.next s x t = some (s', t') → waits t' → waits t ∨ ¬ ending s
  sees : ∀ s x t s' t', c.next s x t = some (s', t') → closed t' →
    closed t ∨ (waits t ∧ returned s ∧ ending s)

namespace Drains

variable {c : Code σ ρ τ ι} {log received : σ → List α} {I ending returned : σ → Prop}
  {waits closed : τ → Prop}

theorem outline (d : Drains c log received I ending returned waits closed) (n : Nat)
    (first : List α) :
    Outline c (fun _ _ _ => True) n (fun s => I s ∧ first <+: log s)
      (fun i s t => n ≤ i →
        (waits t → ending s → first.length ≤ (received s).length) ∧
        (closed t → returned s ∧ first.length ≤ (received s).length)) := by
  -- what a step does to the bound, whoever waits for it
  have hbound : ∀ s x t s' t', first <+: log s → c.next s x t = some (s', t') →
      (ending s → first.length ≤ (received s).length) → ending s' →
      first.length ≤ (received s').length := by
    intro s x t s' t' hfirst h hold hending
    rcases d.ends s x t s' t' h hending with hending | hall
    · exact Nat.le_trans (hold hending) (d.grows s x t s' t' h).2.length_le
    · exact Nat.le_trans hfirst.length_le hall
  refine ⟨fun i s r _ _ _ => ⟨fun h => absurd h (d.start r).1, fun h => absurd h (d.start r).2⟩,
    fun i s x t s' t' hs _ _ h => ⟨d.inv s x t s' t' hs.1 h, hs.2.trans (d.grows s x t s' t' h).1⟩,
    fun i s x t s' t' hs ht _ h hi => ⟨fun hwaits => ?_, fun hclosed => ?_⟩,
    fun i s x t s' t' j u hs _ _ h hu hj => ⟨fun hwaits => ?_, fun hclosed => ?_⟩⟩
  · rcases d.asks s x t s' t' hs.1 h hwaits with hwaits | hnot
    · exact hbound s x t s' t' hs.2 h ((ht hi).1 hwaits)
    · exact hbound s x t s' t' hs.2 h (fun hending => absurd hending hnot)
  · have hgrows := (d.grows s x t s' t' h).2.length_le
    rcases d.sees s x t s' t' h hclosed with hclosed | ⟨hwaits, hreturned, hending⟩
    · obtain ⟨hreturned, hle⟩ := (ht hi).2 hclosed
      exact ⟨d.stays s x t s' t' h hreturned, Nat.le_trans hle hgrows⟩
    · exact ⟨d.stays s x t s' t' h hreturned,
        Nat.le_trans ((ht hi).1 hwaits hending) hgrows⟩
  · exact hbound s x t s' t' hs.2 h ((hu hj).1 hwaits)
  · obtain ⟨hreturned, hle⟩ := (hu hj).2 hclosed
    exact ⟨d.stays s x t s' t' h hreturned,
      Nat.le_trans hle (d.grows s x t s' t' h).2.length_le⟩

/-- **A call that has seen the consumer return has waited for everything that was in the log
when the call started.** -/
theorem run (d : Drains c log received I ending returned waits closed) {p p' : Pool σ τ}
    {r : ρ} {ms : List (Move ρ ι)} (hp : I p.shared)
    (hrun : runFrom (Pool.step c) p (.start r :: ms) = some p') {t : τ}
    (ht : p'.threads[p.threads.length]? = some t) (hclosed : closed t) :
    I p'.shared ∧ returned p'.shared ∧ log p.shared <+: log p'.shared ∧
      (log p.shared).length ≤ (received p'.shared).length := by
  have hstart : p.Holds p.threads.length (fun s => I s ∧ log p.shared <+: log s)
      (fun i s t => p.threads.length ≤ i →
        (waits t → ending s → (log p.shared).length ≤ (received s).length) ∧
        (closed t → returned s ∧ (log p.shared).length ≤ (received s).length)) := by
    refine ⟨Nat.le_refl _, ⟨hp, List.prefix_refl _⟩, fun i t hi hle => ?_⟩
    exact absurd (List.getElem?_eq_some_iff.mp hi).1 (Nat.not_lt.mpr hle)
  have hend := (d.outline p.threads.length (log p.shared)).run hstart (Pool.along_true _ _ _) hrun
  obtain ⟨hreturned, hle⟩ := (hend.thread _ t ht (Nat.le_refl _)).2 hclosed
  exact ⟨hend.inv.1, hreturned, hend.inv.2, hle⟩

end Drains

end LlmRouter.Lib
