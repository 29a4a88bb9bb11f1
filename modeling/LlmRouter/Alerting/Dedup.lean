import LlmRouter.Lib.Redis
import LlmRouter.Lib.Run

/-!
# LlmRouter — alerts that are suppressed as duplicates

Before a `dispatch` sends to a channel it marks the alert in Redis with `SetNX`; one that finds
the mark skips the channel. The mark is not taken back when `Send` fails, and its key joins event
type, entity and channel by colons that the parts may have as well.
-/

namespace LlmRouter.Alerting

open Lib Lib.Redis List

/-! ## The router -/

structure Event where
  eventType : String
  severity : String := ""
  entityID : String := ""
  deriving DecidableEq, Repr

structure RouteRule where
  events : List String
  severity : String := ""
  notifiers : List String

structure Router where
  rules : List RouteRule
  dedup : Option Int

def matchPattern (pattern eventType : String) : Bool :=
  if ".*".toList.isSuffixOf pattern.toList then
    (pattern.toList.dropLast.dropLast ++ ['.']).isPrefixOf eventType.toList
  else pattern == eventType

def matchesRule (rule : RouteRule) (e : Event) : Bool :=
  if rule.severity ≠ "" ∧ rule.severity ≠ e.severity then false
  else rule.events.any (matchPattern · e.eventType)

variable (r : Router)

def Router.channels (e : Event) : List String :=
  (r.rules.filter (matchesRule · e)).flatMap RouteRule.notifiers

structure Alert where
  eventType : String
  entityID : String
  channel : String
  deriving DecidableEq, Repr

def Alert.key (a : Alert) : String :=
  "alert:dedup:" ++ a.eventType ++ ":" ++ (a.entityID ++ ":" ++ a.channel)

/-! ## Runs -/

/-- A send: its alert, the goroutine that makes it, how many channels that still has, and
when it was decided on. -/
structure Claim where
  alert : Alert
  thread : Nat
  left : Nat
  since : Int
  deriving DecidableEq, Repr

/-- What `record` writes. -/
inductive Record where
  | sent (c : Claim) (now : Int)
  | failed (c : Claim) (now : Int)
  | deduplicated (a : Alert) (now : Int)
  deriving DecidableEq, Repr

structure Dispatch where
  event : Event
  todo : List String
  sending : Option Claim := none
  deriving DecidableEq, Repr

structure State where
  threads : List Dispatch
  db : String → Option (Keyed Claim)
  history : List Record
  now : Int

inductive Step where
  | dispatch (e : Event)
  | check (i : Nat) (now : Int) (expired : Bool)
  | send (i : Nat) (now : Int) (ok : Bool)

def Router.start (e : Event) : Dispatch :=
  let e := if e.entityID = "" then { e with entityID := "global" } else e
  { event := e, todo := r.channels e }

/-- `ShouldSend` for the first channel. A command whose context has ended is not made, and the
alert passes. -/
def State.check (s : State) (i : Nat) (now : Int) (expired : Bool) : Option State :=
  match s.threads[i]? with
  | some ⟨e, n :: rest, none⟩ =>
    let c : Claim := ⟨⟨e.eventType, e.entityID, n⟩, i, rest.length, now⟩
    match if expired then none else r.dedup with
    -- without a mark to look for, every alert passes
    | none => some { s with now, threads := s.threads.set i ⟨e, n :: rest, some c⟩ }
    | some window =>
      match live now (s.db c.alert.key) with
      | some _ =>
        some { s with
          now
          threads := s.threads.set i ⟨e, rest, none⟩
          history := s.history ++ [.deduplicated c.alert now] }
      | none =>
        -- the mark is set here, before `Send`, and nothing removes it
        some { s with
          now
          threads := s.threads.set i ⟨e, n :: rest, some c⟩
          db := Function.update s.db c.alert.key (some ⟨c, some (now + window)⟩) }
  | _ => none

def State.send (s : State) (i : Nat) (now : Int) (ok : Bool) : Option State :=
  match s.threads[i]? with
  | some ⟨e, _ :: rest, some c⟩ =>
    some { s with
      now
      threads := s.threads.set i ⟨e, rest, none⟩
      history := s.history ++ [if ok then .sent c now else .failed c now] }
  | _ => none

def State.step (s : State) : Step → Option State
  | .dispatch e => some { s with threads := s.threads ++ [r.start e] }
  | .check i now expired => if now < s.now then none else s.check r i now expired
  | .send i now ok => if now < s.now then none else s.send i now ok

def State.init : State where
  threads := []
  db := fun _ => none
  history := []
  now := 0

/-! ## What a history says -/

def Router.Recent (now t : Int) : Prop :=
  ∀ window ∈ r.dedup, now - window ≤ t ∧ t ≤ now

/-- Whenever a channel was skipped, the same alert had been delivered to it within the
preceding window. -/
def Router.Delivers (history : List Record) : Prop :=
  ∀ before a now after, history = before ++ .deduplicated a now :: after →
    ∃ c t, .sent c t ∈ before ∧ c.alert = a ∧ r.Recent now t

def Record.sends (c : Claim) : Record → Bool
  | sent c' _ => decide (c' = c)
  | failed _ _ | deduplicated _ _ => false

/-- A mark that a check finds is that of a send of the same alert that has succeeded. -/
def Router.StepOk (s : State) : Step → Prop
  | .check i now expired =>
    ∀ d ∈ s.threads[i]?, ∀ n ∈ d.todo.head?, d.sending = none → expired = false → r.dedup.isSome →
      ∀ found ∈ live now (s.db (Alert.key ⟨d.event.eventType, d.event.entityID, n⟩)),
        found.val.alert = ⟨d.event.eventType, d.event.entityID, n⟩ ∧
          ∃ rec ∈ s.history, rec.sends found.val = true
  | .dispatch _ | .send _ _ _ => True

instance (r : Router) (s : State) : ∀ step, Decidable (r.StepOk s step)
  | .check _ _ _ => inferInstanceAs (Decidable (∀ _ ∈ _, _))
  | .dispatch _ | .send _ _ _ => isTrue trivial

theorem Record.sends_iff {c : Claim} {rec : Record} :
    rec.sends c = true ↔ ∃ t, rec = .sent c t := by
  cases rec <;> simp [Record.sends]

/-- A mark lasts for a window from when its send was decided on, and a send ends after that. -/
structure State.Sound (r : Router) (s : State) : Prop where
  marks : ∀ key k, s.db key = some k → ∀ window ∈ r.dedup, k.expireAt = some (k.val.since + window)
  claims : ∀ d ∈ s.threads, ∀ c ∈ d.sending, c.since ≤ s.now
  sends : ∀ c t, .sent c t ∈ s.history → c.since ≤ t ∧ t ≤ s.now

variable {r : Router} {s s' : State} {now : Int}

theorem State.Sound.claims_set (h : s.Sound r) (hnow : s.now ≤ now) (i : Nat)
    {d : Dispatch} (hd : ∀ c ∈ d.sending, c.since ≤ now) :
    ∀ d' ∈ s.threads.set i d, ∀ c ∈ d'.sending, c.since ≤ now := by
  intro d' hd' c hc
  rcases mem_or_eq_of_mem_set hd' with hold | rfl
  · exact (h.claims d' hold c hc).trans hnow
  · exact hd c hc

theorem State.Sound.sends_later (h : s.Sound r) (hnow : s.now ≤ now) :
    ∀ c t, .sent c t ∈ s.history → c.since ≤ t ∧ t ≤ now :=
  fun c t ht => ⟨(h.sends c t ht).1, (h.sends c t ht).2.trans hnow⟩

theorem State.Sound.check {i : Nat} {expired : Bool} (hs : s.Sound r)
    (hnow : s.now ≤ now) (h : s.check r i now expired = some s') : s'.Sound r := by
  revert h
  fun_cases State.check r s i now expired with
  | case1 e n rest hi c hnone =>
    rintro ⟨⟩
    exact ⟨hs.marks, hs.claims_set hnow i (by rintro _ ⟨⟩; exact le_rfl), hs.sends_later hnow⟩
  | case2 e n rest hi c window hdedup found hfound =>
    rintro ⟨⟩
    refine ⟨hs.marks, hs.claims_set hnow i (by simp), fun c' t ht => hs.sends_later hnow c' t ?_⟩
    simpa using ht
  | case3 e n rest hi c window hdedup hfree =>
    rintro ⟨⟩
    refine ⟨fun key k hk w hw => ?_, hs.claims_set hnow i (by rintro _ ⟨⟩; exact le_rfl),
      hs.sends_later hnow⟩
    change Function.update s.db c.alert.key _ key = some k at hk
    rcases eq_or_ne key c.alert.key with rfl | hne
    · rw [Function.update_self] at hk
      obtain rfl := Option.some.inj hk
      have hwindow : r.dedup = some window := (Option.ite_none_left_eq_some.mp hdedup).2
      rw [Option.some.inj (hwindow.symm.trans hw)]
    · rw [Function.update_of_ne hne] at hk
      exact hs.marks key k hk w hw
  | case4 => rintro ⟨⟩

theorem State.Sound.send {i : Nat} {ok : Bool} (hs : s.Sound r)
    (hnow : s.now ≤ now) (h : s.send i now ok = some s') : s'.Sound r := by
  revert h
  fun_cases State.send s i now ok with
  | case1 e n rest c hi =>
    rintro ⟨⟩
    refine ⟨hs.marks, hs.claims_set hnow i (by simp), fun c' t ht => ?_⟩
    rcases mem_append.mp ht with hold | hnew
    · exact hs.sends_later hnow c' t hold
    · cases ok with
      | true =>
        obtain ⟨rfl, rfl⟩ : c' = c ∧ t = now := by simpa using hnew
        exact ⟨(hs.claims _ (mem_of_getElem? hi) c' rfl).trans hnow, le_rfl⟩
      | false => simp at hnew
  | case2 => rintro ⟨⟩

theorem State.Sound.step {step : Step} (hs : s.Sound r) (h : s.step r step = some s') :
    s'.Sound r := by
  cases step with
  | dispatch e =>
    cases h
    refine ⟨hs.marks, ?_, hs.sends⟩
    exact forall_mem_append.mpr ⟨hs.claims, forall_mem_singleton.mpr (by simp [Router.start])⟩
  | check i now expired =>
    obtain ⟨hnow, h⟩ := Option.ite_none_left_eq_some.mp h
    exact hs.check (Int.not_lt.mp hnow) h
  | send i now ok =>
    obtain ⟨hnow, h⟩ := Option.ite_none_left_eq_some.mp h
    exact hs.send (Int.not_lt.mp hnow) h

theorem Router.Delivers.concat {history : List Record} (h : r.Delivers history) {rec : Record}
    (hrec : ∀ a now, rec = .deduplicated a now →
      ∃ c t, .sent c t ∈ history ∧ c.alert = a ∧ r.Recent now t) :
    r.Delivers (history ++ [rec]) := by
  intro before a now after hsplit
  rcases eq_nil_or_concat after with rfl | ⟨after, last, rfl⟩
  · obtain ⟨rfl, heq⟩ := append_inj' hsplit rfl
    exact hrec a now (singleton_inj.mp heq)
  · rw [concat_eq_append, ← cons_append, ← append_assoc] at hsplit
    exact h before a now after (append_inj' hsplit rfl).1

/-- One check: the mark was still there, and what it stands for was delivered after it was set. -/
theorem delivers_check {i : Nat} {expired : Bool} (hs : s.Sound r) (hnow : s.now ≤ now)
    (hd : r.Delivers s.history) (hok : r.StepOk s (.check i now expired))
    (h : s.check r i now expired = some s') : r.Delivers s'.history := by
  revert h
  fun_cases State.check r s i now expired with
  | case2 e n rest hi c window hdedup found hfound =>
    rintro ⟨⟩
    obtain ⟨hexpired, hwindow⟩ := Option.ite_none_left_eq_some.mp hdedup
    obtain ⟨halert, rec, hmem, hrec⟩ := hok _ hi n rfl rfl (Bool.eq_false_iff.mpr hexpired)
      (Option.isSome_of_mem hwindow) found hfound
    obtain ⟨t, rfl⟩ := Record.sends_iff.mp hrec
    refine hd.concat fun a now' heq => ?_
    obtain ⟨rfl, rfl⟩ := Record.deduplicated.inj heq
    refine ⟨found.val, t, hmem, halert, fun w hw => ?_⟩
    obtain ⟨hkey, hlive⟩ := live_eq_some.mp hfound
    have hmark := hlive _ (hs.marks _ _ hkey w hw)
    have hsend := hs.sends _ t hmem
    exact ⟨by omega, by omega⟩
  | case4 => rintro ⟨⟩
  | _ => rintro ⟨⟩; exact hd

theorem delivers_step {step : Step} (hs : s.Sound r) (hd : r.Delivers s.history)
    (hok : r.StepOk s step) (h : s.step r step = some s') : r.Delivers s'.history := by
  cases step with
  | dispatch e =>
    cases h
    exact hd
  | check i now expired =>
    obtain ⟨hnow, h⟩ := Option.ite_none_left_eq_some.mp h
    exact delivers_check hs (Int.not_lt.mp hnow) hd hok h
  | send i now ok =>
    obtain ⟨-, h⟩ := Option.ite_none_left_eq_some.mp h
    revert h
    fun_cases State.send s i now ok with
    | case1 e n rest c hi =>
      rintro ⟨⟩
      exact hd.concat (by cases ok <;> nofun)
    | case2 => rintro ⟨⟩

/-- **Suppressed alerts.** If a check finds no mark but that of a send of the same alert that has
succeeded, a channel is only skipped after a delivery of the alert within the preceding window. -/
theorem suppressed_after_delivery {steps : List Step}
    (hok : AlongFrom (State.step r) r.StepOk .init steps)
    (hrun : runFrom (State.step r) .init steps = some s) : r.Delivers s.history := by
  have hinit : State.init.Sound r ∧ r.Delivers State.init.history :=
    ⟨⟨nofun, nofun, nofun⟩, fun before a now after h => absurd h (by simp [State.init])⟩
  exact (runFrom_invariant (P := fun s => s.Sound r ∧ r.Delivers s.history)
    (fun _ _ _ hs hok h => ⟨hs.1.step h, delivers_step hs.1 hs.2 hok h⟩) hinit hok hrun).2

def slackRouter : Router where
  rules := [{ events := ["budget.*"], notifiers := ["slack"] }]
  dedup := some 900

/-- An alert is sent, which ends so after a second, and is dispatched again a second later. -/
def twice (ok : Bool) : List Step :=
  [.dispatch { eventType := "budget.exhausted" }, .check 0 0 false, .send 0 1 ok,
    .dispatch { eventType := "budget.exhausted" }, .check 1 2 false]

def firstSend : Claim := ⟨⟨"budget.exhausted", "global", "slack"⟩, 0, 0, 0⟩

theorem suppressed_after_one_second :
    ∃ s, runFrom (State.step slackRouter) .init (twice true) = some s ∧
      s.history = [.sent firstSend 1, .deduplicated firstSend.alert 2] ∧
      slackRouter.Delivers s.history := by
  have hok : AlongFrom (State.step slackRouter) slackRouter.StepOk .init (twice true) := by decide
  exact ⟨_, rfl, rfl, suppressed_after_delivery hok rfl⟩

theorem lost_alert_suppresses :
    ∃ s, runFrom (State.step slackRouter) .init (twice false) = some s ∧
      ¬ slackRouter.Delivers s.history := by
  refine ⟨_, rfl, fun h => ?_⟩
  obtain ⟨c, t, hsent, -⟩ := h [.failed firstSend 1] firstSend.alert 2 [] rfl
  simp at hsent

end LlmRouter.Alerting
