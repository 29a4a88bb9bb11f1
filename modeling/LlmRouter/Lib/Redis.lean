import Mathlib.Data.List.Basic
import Mathlib.Algebra.Order.Ring.Int

/-!
# Redis values with a time to live, and sorted sets

Keys that vanish once their time to live has run out, and sorted sets with `ZADD`, `ZCARD`,
`ZREMRANGEBYSCORE` and the lowest score. Times are integers in one unit; scores are natural
numbers.
-/

namespace LlmRouter.Lib.Redis

variable {α μ : Type*}

/-- A stored value and the instant its time to live runs out (`none`: it has
no time to live). -/
structure Keyed (α : Type*) where
  val : α
  expireAt : Option Int := none
  deriving DecidableEq, Repr

def live (now : Int) (k : Option (Keyed α)) : Option (Keyed α) :=
  k.filter fun v => v.expireAt.all fun t => decide (now ≤ t)

variable {now : Int}

theorem live_eq_some {k : Option (Keyed α)} {v : Keyed α} :
    live now k = some v ↔ k = some v ∧ ∀ t ∈ v.expireAt, now ≤ t := by
  simp [live, Option.filter_eq_some_iff, Option.all_eq_true]

@[simp] theorem live_none (now : Int) : live now (none : Option (Keyed α)) = none := rfl

/-- What is alive later is alive now. -/
theorem live_of_le {now' : Int} {k : Option (Keyed α)} {v : Keyed α} (hle : now ≤ now')
    (h : live now' k = some v) : live now k = some v := by
  rw [live_eq_some] at h ⊢
  exact ⟨h.1, fun t ht => hle.trans (h.2 t ht)⟩

/-- `EXPIRE` with a time to live; a non-positive one deletes the key. -/
def expire (now ttl : Int) (k : Option (Keyed α)) : Option (Keyed α) :=
  if ttl ≤ 0 then none else k.map fun v => { v with expireAt := some (now + ttl) }

/-- `EXPIRE ... NX`: only a key without a time to live gets one. -/
def expireNX (now ttl : Int) (k : Option (Keyed α)) : Option (Keyed α) :=
  match k with
  | some { expireAt := some _, .. } => k
  | _ => expire now ttl k

def incr (now : Int) (k : Option (Keyed Nat)) : Keyed Nat :=
  match live now k with
  | some v => { v with val := v.val + 1 }
  | none => { val := 1 }

/-! ## Sorted sets -/

/-- A sorted set as its `(score, member)` pairs; a member occurs once. -/
abbrev ZSet (μ : Type*) := List (Nat × μ)

def zset (now : Int) (k : Option (Keyed (ZSet μ))) : ZSet μ :=
  ((live now k).map Keyed.val).getD []

def zremrangebyscore (lo hi : Int) (z : ZSet μ) : ZSet μ :=
  z.filter fun e => !(decide (lo ≤ e.1) && decide ((e.1 : Int) ≤ hi))

/-- `ZADD`: a member already there only gets the new score. -/
def zadd [DecidableEq μ] (score : Nat) (member : μ) (z : ZSet μ) : ZSet μ :=
  z.filter (fun e => e.2 ≠ member) ++ [(score, member)]

/-- The lowest score (`ZRANGE key 0 0 WITHSCORES`). -/
def zoldest (z : ZSet μ) : Option Nat := (z.map Prod.fst).min?

/-- Write a set back: Redis deletes a key whose set is empty and keeps the time to live of another. -/
def zstore (now : Int) (k : Option (Keyed (ZSet μ))) (z : ZSet μ) : Option (Keyed (ZSet μ)) :=
  if z.isEmpty then none else some { val := z, expireAt := (live now k).bind Keyed.expireAt }

theorem zadd_fresh [DecidableEq μ] {score : Nat} {member : μ} {z : ZSet μ}
    (h : ∀ e ∈ z, e.2 ≠ member) : zadd score member z = z ++ [(score, member)] := by
  rw [zadd, List.filter_eq_self.mpr]
  intro e he
  simpa using h e he

theorem zset_subset {k : Option (Keyed (ZSet μ))} {v : Keyed (ZSet μ)} (hk : k = some v) :
    ∀ e ∈ zset now k, e ∈ v.val := by
  intro e he
  rw [zset] at he
  cases hl : live now k with
  | none => rw [hl] at he; simp at he
  | some u =>
    rw [hl] at he
    have hu := (live_eq_some.mp hl).1
    rw [hk, Option.some.injEq] at hu
    simpa [hu] using he

end LlmRouter.Lib.Redis
