import Mathlib.Data.List.Induction
import Mathlib.Order.Basic

/-!
# LlmRouter — how often `last_used_at` is written

`runLastUsedUpdater` writes `last_used_at` of a key at most once a minute. It remembers when each
key was written, and forgets what is older than two minutes once it remembers more than 5000 keys.
-/

namespace LlmRouter.Auth

open List

variable {κ : Type*} [DecidableEq κ]

def minute : Int := 60 * 1000000000

/-- A message with the clock at the test, before and after the write, and at the eviction. -/
structure LastUsedUpdate (κ : Type*) where
  id : κ
  tested : Int
  begun : Int
  written : Int
  cutoff : Int

def LastUsedUpdate.clock (u : LastUsedUpdate κ) : List Int :=
  [u.tested, u.begun, u.written, u.cutoff]

structure Updater (κ : Type*) where
  seen : List (κ × Int) := []
  writes : List (κ × Int) := []

def put (id : κ) (t : Int) (seen : List (κ × Int)) : List (κ × Int) :=
  (id, t) :: seen.filter fun kv => kv.1 ≠ id

def evict (now : Int) (seen : List (κ × Int)) : List (κ × Int) :=
  if 5000 < seen.length then seen.filter fun kv => ¬ kv.2 < now - 2 * minute else seen

def Updater.step (s : Updater κ) (u : LastUsedUpdate κ) : Updater κ :=
  if (s.seen.lookup u.id).any fun last => u.tested - last < minute then s
  else
    { seen := evict u.cutoff (put u.id u.written s.seen)
      writes := s.writes ++ [(u.id, u.begun)] }

def updaterAfter (us : List (LastUsedUpdate κ)) : Updater κ := us.foldl Updater.step {}

/-- At an instant, every write is remembered with its own time or a later one, or is more than
a minute ago. -/
def Remembers (s : Updater κ) (now : Int) : Prop :=
  ∀ id t, (id, t) ∈ s.writes →
    (∃ last, s.seen.lookup id = some last ∧ t ≤ last) ∨ t + minute ≤ now

variable {s : Updater κ} {seen : List (κ × Int)} {id : κ} {last : Int}

theorem lookup_filter {p : κ × Int → Bool} (h : seen.lookup id = some last)
    (hp : p (id, last) = true) : (seen.filter p).lookup id = some last := by
  induction seen with
  | nil => cases h
  | cons kv seen ih =>
    obtain ⟨k, t⟩ := kv
    rw [lookup_cons] at h
    by_cases hk : id = k
    · subst hk
      simp only [beq_self_eq_true] at h
      obtain rfl := Option.some.inj h
      simp [filter_cons_of_pos hp]
    · simp only [beq_false_of_ne hk] at h
      by_cases hkeep : p (k, t) = true
      · rw [filter_cons_of_pos hkeep, lookup_cons]
        simp only [beq_false_of_ne hk]
        exact ih h
      · rw [filter_cons_of_neg hkeep]
        exact ih h

theorem lookup_evict (h : seen.lookup id = some last) (now : Int) :
    (evict now seen).lookup id = some last ∨ last < now - 2 * minute := by
  by_cases hold : last < now - 2 * minute
  · exact .inr hold
  · refine .inl ?_
    unfold evict
    split_ifs
    · exact lookup_filter h (by simpa using hold)
    · exact h

theorem Remembers.write {u : LastUsedUpdate κ} (h : Remembers s u.tested)
    (hclock : u.clock.Pairwise (· ≤ ·))
    (htest : ¬ (s.seen.lookup u.id).any fun last => u.tested - last < minute) :
    (∀ t, (u.id, t) ∈ s.writes → t + minute ≤ u.begun) ∧
      Remembers { seen := evict u.cutoff (put u.id u.written s.seen)
                  writes := s.writes ++ [(u.id, u.begun)] } u.cutoff := by
  simp only [LastUsedUpdate.clock, pairwise_cons, mem_cons, not_mem_nil, or_false,
    forall_eq_or_imp, forall_eq] at hclock
  obtain ⟨⟨hbegun, -⟩, ⟨hwritten, -⟩, hcutoff, -⟩ := hclock
  have hapart : ∀ t, (u.id, t) ∈ s.writes → t + minute ≤ u.begun := by
    intro t ht
    rcases h u.id t ht with ⟨last, hlast, hle⟩ | hold
    · rw [hlast] at htest
      simp only [Option.any_some, decide_eq_true_eq] at htest
      omega
    · omega
  -- whatever the map has for a key before the eviction, it has or is old after it
  have hkept : ∀ id t last, (put u.id u.written s.seen).lookup id = some last → t ≤ last →
      (∃ last, (evict u.cutoff (put u.id u.written s.seen)).lookup id = some last ∧ t ≤ last) ∨
        t + minute ≤ u.cutoff := by
    intro id t last hlast hle
    rcases lookup_evict hlast u.cutoff with hfound | hold
    · exact .inl ⟨last, hfound, hle⟩
    · refine .inr ?_
      unfold minute at hold ⊢
      omega
  have hown : (put u.id u.written s.seen).lookup u.id = some u.written := by simp [put]
  refine ⟨hapart, fun id t ht => ?_⟩
  by_cases hid : id = u.id
  · subst hid
    refine hkept u.id t u.written hown ?_
    rcases mem_append.mp ht with ht | ht
    · have := hapart t ht
      unfold minute at this
      omega
    · rw [(Prod.mk.inj (mem_singleton.mp ht)).2]
      exact hwritten
  · have hmem : (id, t) ∈ s.writes := by
      refine (mem_append.mp ht).resolve_right fun hnew => hid ?_
      exact (Prod.mk.inj (mem_singleton.mp hnew)).1
    rcases h id t hmem with ⟨last, hlast, hle⟩ | hold
    · refine hkept id t last ?_ hle
      rw [put, lookup_cons, beq_false_of_ne hid]
      exact lookup_filter hlast (by simpa using hid)
    · exact .inr (by omega)

/-- **The throttle of `last_used_at`.** With a clock that does not go back, two writes of one key
begin at least a minute apart, whatever the eviction has forgotten. -/
theorem writes_apart (us : List (LastUsedUpdate κ))
    (hclock : (us.flatMap LastUsedUpdate.clock).Pairwise (· ≤ ·)) :
    (updaterAfter us).writes.Pairwise fun a b => a.1 = b.1 → a.2 + minute ≤ b.2 := by
  -- the invariant holds at the last reading of the clock
  suffices h : (updaterAfter us).writes.Pairwise (fun a b => a.1 = b.1 → a.2 + minute ≤ b.2) ∧
      ∀ now, (us.flatMap LastUsedUpdate.clock ++ [now]).Pairwise (· ≤ ·) →
        Remembers (updaterAfter us) now from h.1
  induction us using reverseRecOn with
  | nil => exact ⟨.nil, fun _ _ _ _ h => absurd h not_mem_nil⟩
  | append_singleton us u ih =>
    rw [flatMap_append, flatMap_singleton] at hclock ⊢
    obtain ⟨hapart, hremembers⟩ := ih (pairwise_append.mp hclock).1
    rw [updaterAfter, foldl_append, foldl_cons, foldl_nil, ← updaterAfter]
    unfold Updater.step
    split_ifs with htest
    · refine ⟨hapart, fun now hnow => hremembers now (hnow.sublist ?_)⟩
      rw [append_assoc]
      exact (List.Sublist.refl _).append (sublist_append_right _ _)
    · have hbefore : Remembers (updaterAfter us) u.tested := by
        refine hremembers u.tested (hclock.sublist ?_)
        exact (List.Sublist.refl _).append (singleton_sublist.mpr mem_cons_self)
      obtain ⟨hnew, hafter⟩ :=
        hbefore.write (pairwise_append.mp hclock).2.1 (by simpa using htest)
      refine ⟨pairwise_append.mpr ⟨hapart, pairwise_singleton _ _, ?_⟩, ?_⟩
      · rintro ⟨id, t⟩ ht b hb hid
        obtain rfl := mem_singleton.mp hb
        obtain rfl : id = u.id := hid
        exact hnew t ht
      · intro now hnow id t ht
        have hlast : u.cutoff ≤ now := (pairwise_append.mp hnow).2.2 u.cutoff
          (by simp [LastUsedUpdate.clock]) now (mem_singleton_self now)
        exact (hafter id t ht).imp_right fun h => by omega

theorem writes_apart_twice :
    (updaterAfter [(⟨"k", 0, 0, 1, 1⟩ : LastUsedUpdate String),
      ⟨"k", 90000000000, 90000000000, 90000000001, 90000000001⟩]).writes.Pairwise
        fun a b => a.1 = b.1 → a.2 + minute ≤ b.2 :=
  writes_apart _ (by decide)

end LlmRouter.Auth
