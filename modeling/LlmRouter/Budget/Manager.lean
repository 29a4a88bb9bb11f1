import LlmRouter.Budget.Period
import LlmRouter.Lib.Redis
import Mathlib.Data.Rat.Floor
import Mathlib.Data.List.Nodup

/-!
# LlmRouter — the budget manager and its three copies of the spend

The spend of a budget lives in its row, in a Redis counter with a time to live, and in a list that
the manager caches for a minute. `World` holds all three. All operations succeed. Amounts are
exact rationals, but the row rounds to eight places. Soft limits only log a warning and are left
out.
-/

namespace LlmRouter.Budgets

open Lib.Redis

/-! ## Data -/

/-- What a budget can be set for (`validateBudgetRequest`). -/
inductive EntityType where
  | key
  | user
  | team
  | org
  deriving DecidableEq, Repr

structure Entity where
  entityType : EntityType
  entityID : String
  deriving DecidableEq, Repr

/-- A row of the `budgets` table, without the columns of its unique key. -/
structure Row where
  hardLimitUSD : Option ℚ
  currentSpend : ℚ
  periodStart : Int
  periodEnd : Int
  deriving DecidableEq

structure Budget extends Row where
  entity : Entity
  period : Period
  deriving DecidableEq

structure CachedBudgetList where
  data : List Budget
  expiresAt : Int

/-- The table, the Redis counters and the manager's list cache. -/
structure World where
  rows : Entity → Period → Option Row
  redis : Entity → Period → Option (Keyed ℚ)
  listCache : Entity → Option CachedBudgetList

def noBudgets : World where
  rows := fun _ _ => none
  redis := fun _ _ => none
  listCache := fun _ => none

def World.single (e : Entity) (p : Period) (r : Row) : World where
  rows := fun e' p' => if e' = e ∧ p' = p then some r else none
  redis := fun _ _ => none
  listCache := fun _ => none

structure BudgetExceeded where
  current : ℚ
  limit : ℚ
  period : Period
  deriving DecidableEq

/-! ## The table (internal/store/postgres) -/

def roundHalfAway (x : ℚ) : ℤ := if 0 ≤ x then ⌊x + 1 / 2⌋ else -⌊-x + 1 / 2⌋

/-- What a `DECIMAL(12,8)` column stores of an amount. -/
def numeric8 (x : ℚ) : ℚ := roundHalfAway (x * 100000000) / 100000000

variable (w : World) (e : Entity)

def World.list : List Budget :=
  Period.byName.filterMap fun p => (w.rows e p).map fun r => { r with entity := e, period := p }

def World.setRow (p : Period) (r : Option Row) : World :=
  { w with rows := Function.update w.rows e (Function.update (w.rows e) p r) }

/-- `BudgetStore.AddSpend`; no row, no update. -/
def World.addSpend (p : Period) (amountUSD : ℚ) : World :=
  w.setRow e p ((w.rows e p).map fun r =>
    { r with currentSpend := numeric8 (r.currentSpend + amountUSD) })

/-- The rows that `ResetExpired` selects. -/
def Row.expired (r : Row) (p : Period) (now : Int) : Prop :=
  p ≠ .lifetime ∧ r.periodEnd ≤ now

instance (r : Row) (p : Period) (now : Int) : Decidable (r.expired p now) :=
  inferInstanceAs (Decidable (_ ∧ _))

def World.resetExpired (w : World) (now : Int) : World :=
  { w with
    rows := fun e p => (w.rows e p).map fun r =>
      if r.expired p now then
        { r with
          currentSpend := 0
          periodStart := Budgets.periodStart p now
          periodEnd := Budgets.periodEnd p now }
      else r }

/-! ## The counters (internal/store/redis) -/

def budgetTTL : Period → Int
  | .hourly => 2 * hour
  | .daily => 25 * hour
  | .weekly => 8 * 24 * hour
  | .monthly => 32 * 24 * hour
  | .lifetime => 366 * 24 * hour

def World.setRedis (p : Period) (k : Option (Keyed ℚ)) : World :=
  { w with redis := Function.update w.redis e (Function.update (w.redis e) p k) }

/-- `BudgetCache.IncrSpend`: `INCRBYFLOAT`, then `EXPIRE ... NX`. -/
def World.incrSpend (p : Period) (amountUSD : ℚ) (now : Int) : World :=
  let counter : Keyed ℚ := match live now (w.redis e p) with
    | some k => { k with val := k.val + amountUSD }
    | none => { val := amountUSD }
  w.setRedis e p (expireNX now (budgetTTL p) (some counter))

/-- `BudgetCache.GetSpend`; `none` if the key does not exist. -/
def World.getSpend (p : Period) (now : Int) : Option ℚ :=
  (live now (w.redis e p)).map Keyed.val

def World.setSpend (p : Period) (amountUSD : ℚ) (now : Int) : World :=
  w.setRedis e p (some { val := amountUSD, expireAt := some (now + budgetTTL p) })

/-! ## The manager (internal/budget) -/

def listCacheTTL : Int := 60000000000

def World.cachedList (now : Int) : World × List Budget :=
  let fill : World × List Budget :=
    let budgets := w.list e
    let entry : CachedBudgetList := { data := budgets, expiresAt := now + listCacheTTL }
    ({ w with listCache := Function.update w.listCache e (some entry) }, budgets)
  match w.listCache e with
  | some c => if now < c.expiresAt then (w, c.data) else fill
  | none => fill

/-- `Manager.currentSpend`: the counter, or the listed spend, which then seeds it. -/
def World.currentSpend (w : World) (b : Budget) (now : Int) : World × ℚ :=
  match w.getSpend b.entity b.period now with
  | some spend => (w, spend)
  | none => (w.setSpend b.entity b.period b.currentSpend now, b.currentSpend)

/-- What a check did: the spends it compared with hard limits, in order, and
the error it stopped at. -/
structure CheckResult where
  compared : List (Budget × ℚ)
  exceeded : Option BudgetExceeded

def World.checkLoop (w : World) (now : Int) : List Budget → World × CheckResult
  | [] => (w, { compared := [], exceeded := none })
  | b :: rest =>
    match b.hardLimitUSD with
    | none => w.checkLoop now rest
    | some limit =>
      let (w', spend) := w.currentSpend b now
      if limit ≤ spend then
        (w', { compared := [(b, spend)]
               exceeded := some { current := spend, limit := limit, period := b.period } })
      else
        let (w'', r) := w'.checkLoop now rest
        (w'', { r with compared := (b, spend) :: r.compared })

def World.checkBudget (now : Int) : World × CheckResult :=
  let r := w.cachedList e now
  r.1.checkLoop now r.2

def World.recordLoop (w : World) (e : Entity) (costUSD : ℚ) (now : Int) : List Budget → World
  | [] => w
  | b :: rest =>
    ((w.incrSpend e b.period costUSD now).addSpend e b.period costUSD).recordLoop e costUSD now rest

def World.recordSpend (w : World) (e : Entity) (costUSD : ℚ) (now : Int) : World :=
  if costUSD = 0 then w
  else
    let r := w.cachedList e now
    r.1.recordLoop e costUSD now r.2

/-! ## Exact amounts -/

/-- Amounts with at most eight decimal places, which a row stores exactly. -/
def Scaled (x : ℚ) : Prop := ∃ n : ℤ, x = n / 100000000

theorem scaled_zero : Scaled 0 := ⟨0, by norm_num⟩

theorem Scaled.add {x y : ℚ} (hx : Scaled x) (hy : Scaled y) : Scaled (x + y) := by
  obtain ⟨m, rfl⟩ := hx
  obtain ⟨n, rfl⟩ := hy
  exact ⟨m + n, by push_cast; ring⟩

theorem roundHalfAway_intCast (n : ℤ) : roundHalfAway n = n := by
  unfold roundHalfAway
  split_ifs
  · rw [Int.floor_eq_iff]
    constructor <;> linarith
  · have : ⌊-(n : ℚ) + 1 / 2⌋ = -n := by
      rw [Int.floor_eq_iff]
      push_cast
      constructor <;> linarith
    rw [this, neg_neg]

theorem scaled_numeric8 (x : ℚ) : Scaled (numeric8 x) := ⟨_, rfl⟩

theorem numeric8_of_scaled {x : ℚ} (h : Scaled x) : numeric8 x = x := by
  obtain ⟨n, rfl⟩ := h
  have : (n : ℚ) / 100000000 * 100000000 = n := by
    rw [div_mul_cancel₀]
    norm_num
  rw [numeric8, this, roundHalfAway_intCast]

/-! ## What each operation does to each copy -/

section Operations

variable (w : World) (e e' : Entity) (p p' : Period) (c : ℚ) (now : Int)

def World.spent (w : World) (e : Entity) (p : Period) : ℚ :=
  ((w.rows e p).map Row.currentSpend).getD 0

@[simp] theorem incrSpend_rows : (w.incrSpend e p c now).rows = w.rows := rfl

@[simp] theorem setSpend_rows : (w.setSpend e p c now).rows = w.rows := rfl

@[simp] theorem cachedList_rows : (w.cachedList e now).1.rows = w.rows := by
  unfold World.cachedList
  split
  · split <;> rfl
  · rfl

@[simp] theorem cachedList_redis : (w.cachedList e now).1.redis = w.redis := by
  unfold World.cachedList
  split
  · split <;> rfl
  · rfl

theorem setRow_rows (r : Option Row) :
    (w.setRow e p r).rows e' p' = if e' = e ∧ p' = p then r else w.rows e' p' := by
  by_cases he : e' = e
  · subst he
    by_cases hp : p' = p
    · subst hp
      simp [World.setRow]
    · simp [World.setRow, hp]
  · simp [World.setRow, he]

theorem setRedis_redis (k : Option (Keyed ℚ)) :
    (w.setRedis e p k).redis e' p' = if e' = e ∧ p' = p then k else w.redis e' p' := by
  by_cases he : e' = e
  · subst he
    by_cases hp : p' = p
    · subst hp
      simp [World.setRedis]
    · simp [World.setRedis, hp]
  · simp [World.setRedis, he]

theorem addSpend_rows :
    (w.addSpend e p c).rows e' p' = if e' = e ∧ p' = p then
      (w.rows e p).map fun r => { r with currentSpend := numeric8 (r.currentSpend + c) }
      else w.rows e' p' :=
  setRow_rows ..

theorem budgetTTL_pos : 0 < budgetTTL p := by
  cases p <;> decide

variable {now' : Int}

theorem getSpend_of_le {now : Int} (hle : now ≤ now') {v : ℚ} (h : w.getSpend e p now' = some v) :
    w.getSpend e p now = some v := by
  obtain ⟨k, hk, rfl⟩ := Option.map_eq_some_iff.mp h
  rw [World.getSpend, live_of_le hle hk]
  rfl

theorem getSpend_incrSpend_self {v : ℚ} (h : (w.incrSpend e p c now).getSpend e p now' = some v) :
    v = (w.getSpend e p now).getD 0 + c := by
  obtain ⟨k, hk, rfl⟩ := Option.map_eq_some_iff.mp h
  have hk := (live_eq_some.mp hk).1
  simp only [World.incrSpend, setRedis_redis, and_self, if_true] at hk
  have hval : ∀ (x : Keyed ℚ), expireNX now (budgetTTL p) (some x) = some k → k.val = x.val := by
    intro x hx
    unfold expireNX at hx
    split at hx
    · rw [Option.some.inj hx]
    · rw [expire, if_neg (not_le.mpr (budgetTTL_pos p)), Option.map_some, Option.some.injEq] at hx
      rw [← hx]
  cases hlive : live now (w.redis e p) with
  | none =>
    rw [hlive] at hk
    rw [hval _ hk, World.getSpend, hlive]
    simp
  | some u =>
    rw [hlive] at hk
    rw [hval _ hk, World.getSpend, hlive]
    rfl

theorem getSpend_setSpend_self {v : ℚ} (h : (w.setSpend e p c now).getSpend e p now' = some v) :
    v = c := by
  obtain ⟨k, hk, rfl⟩ := Option.map_eq_some_iff.mp h
  have hk := (live_eq_some.mp hk).1
  simp only [World.setSpend, setRedis_redis, and_self, if_true, Option.some.injEq] at hk
  rw [← hk]

theorem getSpend_incrSpend_of_ne {e e' : Entity} {p p' : Period} (hne : ¬ (e' = e ∧ p' = p))
    (now' : Int) : (w.incrSpend e p c now).getSpend e' p' now' = w.getSpend e' p' now' := by
  rw [World.getSpend, World.incrSpend, setRedis_redis, if_neg hne]
  rfl

theorem getSpend_setSpend_of_ne {e e' : Entity} {p p' : Period} (hne : ¬ (e' = e ∧ p' = p))
    (now' : Int) : (w.setSpend e p c now).getSpend e' p' now' = w.getSpend e' p' now' := by
  rw [World.getSpend, World.setSpend, setRedis_redis, if_neg hne]
  rfl

@[simp] theorem getSpend_addSpend (now' : Int) :
    (w.addSpend e p c).getSpend e' p' now' = w.getSpend e' p' now' := rfl

@[simp] theorem getSpend_cachedList (now' : Int) :
    (w.cachedList e now).1.getSpend e' p' now' = w.getSpend e' p' now' := by
  rw [World.getSpend, cachedList_redis]
  rfl

@[simp] theorem spent_cachedList : (w.cachedList e now).1.spent e' p' = w.spent e' p' := by
  rw [World.spent, cachedList_rows]
  rfl

@[simp] theorem spent_incrSpend : (w.incrSpend e p c now).spent e' p' = w.spent e' p' := rfl

@[simp] theorem spent_setSpend : (w.setSpend e p c now).spent e' p' = w.spent e' p' := rfl

theorem spent_of_row {w : World} {e : Entity} {p : Period} {r : Row} (h : w.rows e p = some r) :
    w.spent e p = r.currentSpend := by
  rw [World.spent, h]
  rfl

theorem spent_addSpend {w : World} {e : Entity} {p : Period} {r : Row} (h : w.rows e p = some r)
    (hr : Scaled r.currentSpend) {c : ℚ} (hc : Scaled c) (e' : Entity) (p' : Period) :
    (w.addSpend e p c).spent e' p' = w.spent e' p' + if e' = e ∧ p' = p then c else 0 := by
  rw [World.spent, addSpend_rows]
  by_cases hsame : e' = e ∧ p' = p
  · obtain ⟨rfl, rfl⟩ := hsame
    simp [spent_of_row h, h, numeric8_of_scaled (hr.add hc)]
  · simp [hsame, World.spent]

end Operations

/-! ## The cached list -/

def World.periods (w : World) (e : Entity) : List Period :=
  Period.byName.filter fun p => (w.rows e p).isSome

theorem periods_nodup (w : World) (e : Entity) : (w.periods e).Nodup :=
  List.Nodup.filter _ (by decide)

variable {w : World} {e : Entity}

theorem mem_periods {p : Period} : p ∈ w.periods e ↔ (w.rows e p).isSome := by
  simp [World.periods, Period.mem_byName]

theorem mem_list {b : Budget} : b ∈ w.list e ↔ b.entity = e ∧ w.rows e b.period = some b.toRow := by
  simp only [World.list, List.mem_filterMap, Option.map_eq_some_iff]
  constructor
  · rintro ⟨p, -, r, hr, rfl⟩
    exact ⟨rfl, hr⟩
  · rintro ⟨rfl, hr⟩
    exact ⟨b.period, Period.mem_byName _, b.toRow, hr, rfl⟩

theorem list_periods (w : World) (e : Entity) : (w.list e).map Budget.period = w.periods e := by
  rw [World.list, World.periods, List.map_filterMap]
  induction Period.byName with
  | nil => rfl
  | cons p ps ih =>
    rw [List.filterMap_cons, List.filter_cons, ih]
    cases w.rows e p with
    | none => rfl
    | some r => rfl

/-- A list of budgets that shows the entity and the periods of the table; the
spends in it may be old. -/
def World.Lists (w : World) (e : Entity) (bs : List Budget) : Prop :=
  bs.map Budget.period = w.periods e ∧ ∀ b ∈ bs, b.entity = e

def World.ListShaped (w : World) (e : Entity) : Prop :=
  ∀ c, w.listCache e = some c → w.Lists e c.data

theorem lists_list (w : World) (e : Entity) : w.Lists e (w.list e) :=
  ⟨list_periods w e, fun _ hb => (mem_list.mp hb).1⟩

/-- The cached list has the periods of the rows, whatever its amounts. -/
theorem cachedList_lists (h : w.ListShaped e) (now : Int) : w.Lists e (w.cachedList e now).2 := by
  unfold World.cachedList
  split
  next c hc =>
    split
    · exact h c hc
    · exact lists_list w e
  next => exact lists_list w e

theorem Lists.congr {w' : World} (hrows : w'.periods e = w.periods e) {bs : List Budget}
    (h : w.Lists e bs) : w'.Lists e bs :=
  ⟨h.1.trans hrows.symm, h.2⟩

theorem cachedList_listShaped (h : w.ListShaped e) (e' : Entity) (now : Int) :
    (w.cachedList e' now).1.ListShaped e := by
  have hfill : ∀ entry : CachedBudgetList, entry.data = w.list e' →
      World.ListShaped { w with listCache := Function.update w.listCache e' (some entry) } e := by
    intro entry hdata c hc
    by_cases he : e = e'
    · subst he
      simp only [Function.update_self, Option.some.injEq] at hc
      rw [← hc, hdata]
      exact lists_list w e
    · simp only [Function.update_of_ne he] at hc
      exact h c hc
  unfold World.cachedList
  split
  · split
    · exact h
    · exact hfill _ rfl
  · exact hfill _ rfl

end LlmRouter.Budgets
