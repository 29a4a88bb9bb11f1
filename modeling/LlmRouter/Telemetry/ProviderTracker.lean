import Mathlib.Data.List.Induction
import Mathlib.Data.List.TakeWhile
import Mathlib.Algebra.Order.Ring.Int
import Mathlib.Algebra.Field.Rat

/-!
# LlmRouter — the error rate of a provider

`health.ProviderTracker` keeps the outcomes of each provider in the order of their calls. `Record`
and `ErrorRate` drop those at the front that are older than a minute, and `ErrorRate` is the share
of failures in the rest. What is dropped at one reading of the clock is outside the window of
every later one (`Kept`).
-/

namespace LlmRouter.Health

open List

def slidingWindow : Int := 60 * 1000000000

structure ProviderEntry where
  ts : Int
  success : Bool
  deriving DecidableEq, Repr

structure ProviderTracker where
  entries : String → List ProviderEntry := fun _ => []

namespace ProviderTracker

variable (t : ProviderTracker) (providerName : String)

def pruneUnlocked (now : Int) : ProviderTracker :=
  { entries := Function.update t.entries providerName
      ((t.entries providerName).dropWhile fun e => decide (e.ts < now - slidingWindow)) }

theorem entries_pruneUnlocked (t : ProviderTracker) (p : String) (now : Int) :
    (t.pruneUnlocked p now).entries p =
      (t.entries p).dropWhile fun e => decide (e.ts < now - slidingWindow) :=
  Function.update_self ..

theorem entries_pruneUnlocked_of_ne (t : ProviderTracker) {p q : String} (h : p ≠ q) (now : Int) :
    (t.pruneUnlocked q now).entries p = t.entries p :=
  Function.update_of_ne h ..

def record (success : Bool) (ts now : Int) : ProviderTracker :=
  let entries := Function.update t.entries providerName
    (t.entries providerName ++ [{ ts := ts, success := success }])
  ({ entries := entries } : ProviderTracker).pruneUnlocked providerName now

def errorRate (now : Int) : ProviderTracker × ℚ :=
  let t := t.pruneUnlocked providerName now
  let entries := t.entries providerName
  if entries.length = 0 then (t, 0)
  else (t, (entries.countP fun e => !e.success : Nat) / (entries.length : Nat))

end ProviderTracker

inductive Call where
  | record (providerName : String) (success : Bool) (ts now : Int)
  | errorRate (providerName : String) (now : Int)
  deriving DecidableEq, Repr

def Call.readings : Call → List Int
  | .record _ _ ts now => [ts, now]
  | .errorRate _ now => [now]

def Call.run (t : ProviderTracker) : Call → ProviderTracker
  | .record providerName success ts now => t.record providerName success ts now
  | .errorRate providerName now => (t.errorRate providerName now).1

def after (cs : List Call) : ProviderTracker := cs.foldl Call.run {}

def readings (cs : List Call) : List Int := cs.flatMap Call.readings

def recorded (p : String) (cs : List Call) : List ProviderEntry :=
  cs.filterMap fun
    | .record providerName success ts _ =>
      if providerName = p then some { ts := ts, success := success } else none
    | .errorRate _ _ => none

def failureShare (es : List ProviderEntry) : ℚ :=
  if es = [] then 0 else (es.countP fun e => !e.success : Nat) / (es.length : Nat)

variable {p : String} {cs : List Call} {t : ProviderTracker} {now : Int}

def Kept (cs : List Call) (t : ProviderTracker) : Prop :=
  ∀ p, ∃ old, recorded p cs = old ++ t.entries p ∧
    ∀ e ∈ old, ∃ r ∈ readings cs, e.ts < r - slidingWindow

theorem kept_pruneUnlocked (q : String) (hnow : now ∈ readings cs) (h : Kept cs t) :
    Kept cs (t.pruneUnlocked q now) := by
  intro p
  obtain ⟨old, hsplit, hold⟩ := h p
  by_cases hp : p = q
  · subst hp
    refine ⟨old ++ (t.entries p).takeWhile fun e => decide (e.ts < now - slidingWindow), ?_, ?_⟩
    · rw [ProviderTracker.entries_pruneUnlocked, append_assoc, takeWhile_append_dropWhile]
      exact hsplit
    · intro e he
      rcases mem_append.mp he with he | he
      · exact hold e he
      · exact ⟨now, hnow, by simpa using mem_takeWhile_imp he⟩
  · exact ⟨old, by rw [t.entries_pruneUnlocked_of_ne hp, hsplit], hold⟩

theorem recorded_concat (p : String) (cs : List Call) (c : Call) :
    recorded p (cs ++ [c]) = recorded p cs ++ recorded p [c] := filterMap_append

theorem readings_concat (cs : List Call) (c : Call) :
    readings (cs ++ [c]) = readings cs ++ c.readings := by
  simp [readings]

/-- **Every call keeps it.** -/
theorem kept_after (cs : List Call) : Kept cs (after cs) := by
  induction cs using reverseRecOn with
  | nil => exact fun p => ⟨[], rfl, by simp⟩
  | append_singleton cs c ih =>
    rw [after, foldl_append]
    have hmore : ∀ e : ProviderEntry, (∃ r ∈ readings cs, e.ts < r - slidingWindow) →
        ∃ r ∈ readings (cs ++ [c]), e.ts < r - slidingWindow := by
      rintro e ⟨r, hr, hlt⟩
      exact ⟨r, by rw [readings_concat]; exact mem_append_left _ hr, hlt⟩
    cases c with
    | errorRate q now =>
      have hkept : Kept (cs ++ [.errorRate q now]) (after cs) := by
        intro p
        obtain ⟨old, hsplit, hold⟩ := ih p
        refine ⟨old, ?_, fun e he => hmore e (hold e he)⟩
        rw [recorded_concat, hsplit]
        simp [recorded]
      have hnow : now ∈ readings (cs ++ [.errorRate q now]) := by
        simp [readings_concat, Call.readings]
      have hpruned := kept_pruneUnlocked q hnow hkept
      show Kept _ ((after cs).errorRate q now).1
      unfold ProviderTracker.errorRate
      dsimp only
      split_ifs <;> exact hpruned
    | record q success ts now =>
      -- the entry is appended first and may be dropped at once, at the second reading
      refine kept_pruneUnlocked _ (by simp [readings_concat, Call.readings]) fun p => ?_
      obtain ⟨old, hsplit, hold⟩ := ih p
      refine ⟨old, ?_, fun e he => hmore e (hold e he)⟩
      rw [recorded_concat, hsplit]
      by_cases hp : p = q
      · subst hp
        simp [recorded, after]
      · simp [recorded, after, Function.update_of_ne hp, Ne.symm hp]

theorem recorded_sublist (p : String) (cs : List Call) :
    ((recorded p cs).map ProviderEntry.ts).Sublist (readings cs) := by
  induction cs with
  | nil => exact .slnil
  | cons c cs ih =>
    cases c with
    | errorRate q now => exact ih.cons now
    | record q success ts now =>
      by_cases hq : q = p
      · subst hq
        simpa [recorded, readings, Call.readings] using (ih.cons now).cons_cons ts
      · simpa [recorded, readings, Call.readings, hq] using (ih.cons now).cons ts

theorem dropWhile_eq_filter {es : List ProviderEntry} (h : es.Pairwise fun a b => a.ts ≤ b.ts)
    (cutoff : Int) :
    es.dropWhile (fun e => decide (e.ts < cutoff)) = es.filter fun e => decide (cutoff ≤ e.ts) := by
  induction h with
  | nil => rfl
  | @cons e es hle _ ih =>
    by_cases hold : e.ts < cutoff
    · rw [dropWhile_cons_of_pos (by simpa using hold), ih, filter_cons_of_neg (by simpa using hold)]
    · -- the first that stays is the oldest of what is left
      rw [dropWhile_cons_of_neg (by simpa using hold), filter_eq_self.mpr]
      intro b hb
      rcases mem_cons.mp hb with rfl | hb
      · simpa using hold
      · exact decide_eq_true ((not_lt.mp hold).trans (hle b hb))

/-- **The sliding error rate.** While the clock does not go back, `ErrorRate` is the share of
failures among exactly the outcomes that were recorded for the provider within the last minute. -/
theorem errorRate_eq (p : String) (cs : List Call) (now : Int)
    (hclock : (readings cs ++ [now]).Pairwise (· ≤ ·)) :
    ((after cs).errorRate p now).2 =
      failureShare ((recorded p cs).filter fun e => decide (now - slidingWindow ≤ e.ts)) := by
  obtain ⟨hreadings, -, hlast⟩ := pairwise_append.mp hclock
  have hsorted : (recorded p cs).Pairwise fun a b => a.ts ≤ b.ts :=
    pairwise_map.mp (hreadings.sublist (recorded_sublist p cs))
  obtain ⟨old, hsplit, hold⟩ := kept_after cs p
  -- what an earlier reading found too old is too old now
  have hgone : (old.filter fun e => decide (now - slidingWindow ≤ e.ts)) = [] := by
    refine filter_eq_nil_iff.mpr fun e he => ?_
    obtain ⟨r, hr, hlt⟩ := hold e he
    have hle := hlast r hr now (mem_singleton_self now)
    simp only [decide_eq_true_eq]
    omega
  have hleft : ((after cs).pruneUnlocked p now).entries p =
      (recorded p cs).filter fun e => decide (now - slidingWindow ≤ e.ts) := by
    rw [hsplit] at hsorted
    rw [ProviderTracker.entries_pruneUnlocked,
      dropWhile_eq_filter (pairwise_append.mp hsorted).2.1, hsplit, filter_append,
      hgone, nil_append]
  unfold ProviderTracker.errorRate failureShare
  simp only [hleft, length_eq_zero_iff]
  split_ifs <;> rfl

theorem errorRate_eq_two :
    ((after [.record "openai" true 0 0, .record "openai" false 89000000000 89000000000]).errorRate
      "openai" 90000000000).2 = 1 := by
  have hrecent : ((recorded "openai"
      [.record "openai" true 0 0, .record "openai" false 89000000000 89000000000]).filter
      fun e => decide (90000000000 - slidingWindow ≤ e.ts)) = [⟨89000000000, false⟩] := by decide
  rw [errorRate_eq _ _ _ (by decide), hrecent]
  simp [failureShare]

end LlmRouter.Health
