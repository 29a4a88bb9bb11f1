import LlmRouter.Budget.Calls
import LlmRouter.Gateway.Types
import LlmRouter.Lib.Run

/-!
# LlmRouter — which budgets stop a request

`BudgetCheck` checks the budgets of the virtual key and records the cost for the key, its team and
its org. The abstract view is a ledger of what completed requests have cost each entity;
`hardLimits_iff` compares the two.
-/

namespace LlmRouter.Budgets

open Lib Lib.Redis Auth

/-! ## The middleware -/

def keyEntity (k : VirtualKey) : Entity := ⟨.key, k.id⟩

/-- `BudgetCheck` before the handler: its error, or `none` if it calls the next handler. -/
def budgetCheck (w : World) (key : Option VirtualKey) (now : Int) :
    World × Option BudgetExceeded :=
  match key with
  | none => (w, none)
  | some k =>
    let r := w.checkBudget (keyEntity k) now
    (r.1, r.2.exceeded)

def World.recordFor (w : World) (kind : EntityType) (owner : Option String) (costUSD : ℚ)
    (now : Int) : World :=
  match owner with
  | some id => w.recordSpend ⟨kind, id⟩ costUSD now
  | none => w

/-- `BudgetCheck` after the handler: the key, then its team, then its org. -/
def World.recordRequest (w : World) (k : VirtualKey) (costUSD : ℚ) (now : Int) : World :=
  if costUSD = 0 then w
  else
    ((w.recordSpend (keyEntity k) costUSD now).recordFor .team k.teamID costUSD now).recordFor
      .org k.orgID costUSD now

/-! ## Runs and the ledger -/

def owners (k : VirtualKey) : List Entity :=
  keyEntity k :: (k.userID.map (Entity.mk .user)).toList ++
    (k.teamID.map (Entity.mk .team)).toList ++ (k.orgID.map (Entity.mk .org)).toList

/-- A request arrives at `BudgetCheck`, or one completes and is recorded. -/
inductive Traffic where
  | arrive (k : VirtualKey) (now : Int)
  | complete (k : VirtualKey) (costUSD : ℚ) (now : Int)

structure Account where
  world : World
  ledger : Entity → Period → ℚ

def Account.step (s : Account) : Traffic → Account
  | .arrive k now => { s with world := (budgetCheck s.world (some k) now).1 }
  | .complete k c now =>
    { world := s.world.recordRequest k c now
      ledger := fun e p =>
        if e ∈ owners k ∧ c ≠ 0 then numeric8 (s.ledger e p + c) else s.ledger e p }

def Account.after (s : Account) (events : List Traffic) : Account := events.foldl Account.step s

def Account.Exhausted (s : Account) (e : Entity) : Prop :=
  ∃ p r limit, s.world.rows e p = some r ∧ r.hardLimitUSD = some limit ∧ limit ≤ s.ledger e p

def World.Fresh (w : World) (e : Entity) (now : Int) : Prop :=
  (w.cachedList e now).2 = w.list e ∧
    ∀ p r v, w.rows e p = some r → w.getSpend e p now = some v → v = r.currentSpend

def FreshAt (s : Account) : Traffic → Prop
  | .arrive k now => s.world.Fresh (keyEntity k) now
  | .complete _ _ _ => True

structure Account.Start (s : Account) : Prop where
  shaped : ∀ e, s.world.ListShaped e
  ledger : ∀ e p r, s.world.rows e p = some r → s.ledger e p = r.currentSpend

/-- Once a hard limit of a key or its owners is reached, no request of the key passes any more. -/
def HardLimitsHold (k : VirtualKey) (s₀ : Account) (events : List Traffic) : Prop :=
  ∀ before middle now after, events = before ++ middle ++ .arrive k now :: after →
    (∃ e ∈ owners k, (s₀.after before).Exhausted e) →
      (budgetCheck (s₀.after (before ++ middle)).world (some k) now).2 ≠ none

/-- Whenever a limit of an owner was reached before an arrival, one of the key itself is reached. -/
def KeyExhaustedFirst (k : VirtualKey) (s₀ : Account) (events : List Traffic) : Prop :=
  ∀ before middle now after, events = before ++ middle ++ .arrive k now :: after →
    (∃ e ∈ owners k, (s₀.after before).Exhausted e) →
      (s₀.after (before ++ middle)).Exhausted (keyEntity k)

/-! ## A check with fresh caches -/

variable {w : World} {k : VirtualKey}

theorem Fresh.compared {e : Entity} {now : Int} (hfresh : w.Fresh e now) (hshaped : w.ListShaped e)
    {b : Budget} {spend : ℚ} (h : (b, spend) ∈ (w.checkBudget e now).2.compared) :
    w.rows e b.period = some b.toRow ∧ spend = b.currentSpend := by
  obtain ⟨hb, hcase⟩ := checkBudget_compared hshaped h
  rw [hfresh.1] at hb hcase
  obtain ⟨-, hrow⟩ := mem_list.mp hb
  refine ⟨hrow, ?_⟩
  rcases hcase with hget | ⟨-, b', hb', hp, rfl⟩
  · exact hfresh.2 _ _ _ hrow hget
  · -- two listed budgets of one period are the same row
    obtain ⟨-, hrow'⟩ := mem_list.mp hb'
    rw [hp, hrow, Option.some.injEq] at hrow'
    rw [hrow']

theorem budgetCheck_refuses_iff {now : Int} (hfresh : w.Fresh (keyEntity k) now)
    (hshaped : w.ListShaped (keyEntity k)) :
    (budgetCheck w (some k) now).2 ≠ none ↔
      ∃ p r limit, w.rows (keyEntity k) p = some r ∧ r.hardLimitUSD = some limit ∧
        limit ≤ r.currentSpend := by
  have hcheck : (budgetCheck w (some k) now).2 =
      (w.checkBudget (keyEntity k) now).2.exceeded := rfl
  rw [hcheck, checkBudget_eq]
  constructor
  · intro hne
    obtain ⟨err, herr⟩ := Option.ne_none_iff_exists'.mp hne
    obtain ⟨b, hmem, -, hlimit, hle⟩ := checkLoop_exceeded herr
    obtain ⟨hrow, hspend⟩ := Fresh.compared hfresh hshaped hmem
    exact ⟨b.period, b.toRow, err.limit, hrow, hlimit, hspend ▸ hle⟩
  · rintro ⟨p, r, limit, hrow, hlimit, hle⟩ hnone
    -- the row is listed, so it was compared and found below its limit
    have hb : ({ r with entity := keyEntity k, period := p } : Budget) ∈
        (w.cachedList (keyEntity k) now).2 := by
      rw [hfresh.1]
      exact mem_list.mpr ⟨rfl, hrow⟩
    obtain ⟨spend, hmem, hlt⟩ := checkLoop_passed hnone hb hlimit
    rw [(Fresh.compared hfresh hshaped hmem).2] at hlt
    exact hlt hle

/-! ## The ledger of keys is what the table holds -/

structure Booked (s : Account) : Prop where
  shaped : ∀ e, s.world.ListShaped e
  keys : ∀ id p r, s.world.rows ⟨.key, id⟩ p = some r → s.ledger ⟨.key, id⟩ p = r.currentSpend

theorem recordFor_rows {kind : EntityType} (owner : Option String) (c : ℚ) (now : Int) {e : Entity}
    (hne : e.entityType ≠ kind) (p : Period) :
    (w.recordFor kind owner c now).rows e p = w.rows e p := by
  cases owner with
  | none => rfl
  | some id =>
    refine (recordSpend_frame ?_ p).1
    rintro rfl
    exact hne rfl

theorem recordFor_listShaped (h : ∀ e, w.ListShaped e) (kind : EntityType) (owner : Option String)
    (c : ℚ) (now : Int) (e : Entity) : (w.recordFor kind owner c now).ListShaped e := by
  cases owner with
  | none => exact h e
  | some id => exact recordSpend_listShaped h c now e

theorem recordRequest_listShaped (h : ∀ e, w.ListShaped e) (k : VirtualKey) (c : ℚ) (now : Int)
    (e : Entity) : (w.recordRequest k c now).ListShaped e := by
  unfold World.recordRequest
  split
  · exact h e
  · refine recordFor_listShaped (fun e₁ => ?_) _ _ _ _ e
    refine recordFor_listShaped (fun e₂ => ?_) _ _ _ _ e₁
    exact recordSpend_listShaped h c now e₂

theorem recordRequest_rows {c : ℚ} (hc : c ≠ 0) (now : Int) (id : String) (p : Period) :
    (w.recordRequest k c now).rows ⟨.key, id⟩ p =
      (w.recordSpend (keyEntity k) c now).rows ⟨.key, id⟩ p := by
  rw [World.recordRequest, if_neg hc, recordFor_rows _ _ _ (by simp),
    recordFor_rows _ _ _ (by simp)]

theorem mem_owners_key {id : String} : (⟨.key, id⟩ : Entity) ∈ owners k ↔ id = k.id := by
  simp [owners, keyEntity]

theorem Booked.step {s : Account} (h : Booked s) (ev : Traffic) : Booked (s.step ev) := by
  cases ev with
  | arrive k now =>
    have hrows : (s.step (.arrive k now)).world.rows = s.world.rows := checkBudget_rows _ _ _
    refine ⟨fun e => checkBudget_listShaped (h.shaped e) _ now, ?_⟩
    rw [hrows]
    exact h.keys
  | complete k c now =>
    refine ⟨recordRequest_listShaped h.shaped k c now, fun id p r hr => ?_⟩
    have hr : (s.world.recordRequest k c now).rows ⟨.key, id⟩ p = some r := hr
    simp only [Account.step, mem_owners_key]
    by_cases hc : c = 0
    · -- a free request is not recorded
      rw [if_neg (fun hh => hh.2 hc)]
      rw [World.recordRequest, if_pos hc] at hr
      exact h.keys id p r hr
    rw [recordRequest_rows hc] at hr
    by_cases hid : id = k.id
    · subst hid
      rw [if_pos ⟨rfl, hc⟩]
      have hsome := recordSpend_isSome (h.shaped (keyEntity k)) c now (keyEntity k) p
      rw [show (⟨.key, k.id⟩ : Entity) = keyEntity k from rfl] at hr ⊢
      rw [hr] at hsome
      obtain ⟨r₀, hr₀⟩ := Option.isSome_iff_exists.mp hsome.symm
      rw [(recordSpend_charges (h.shaped _) hc now hr₀).1, Option.some.injEq] at hr
      have hbooked : s.ledger (keyEntity k) p = r₀.currentSpend := h.keys k.id p r₀ hr₀
      rw [← hr, hbooked]
    · rw [if_neg (fun hh => hid hh.1)]
      have hne : (⟨.key, id⟩ : Entity) ≠ keyEntity k := fun hh => hid (congrArg Entity.entityID hh)
      rw [(recordSpend_frame hne p).1] at hr
      exact h.keys id p r hr

theorem Booked.after {s₀ : Account} (h : Booked s₀) (events : List Traffic) :
    Booked (s₀.after events) := by
  unfold Account.after
  induction events generalizing s₀ with
  | nil => exact h
  | cons ev events ih => exact ih (h.step ev)

/-- **Which hard limits hold.** With fresh caches, the hard limits of a key, its user, its team and
its org all hold for the key's requests iff a limit of the key itself is reached whenever one of the
others is. -/
theorem hardLimits_iff (k : VirtualKey) {s₀ : Account} (hstart : s₀.Start)
    {events : List Traffic} (hfresh : Along Account.step FreshAt s₀ events) :
    HardLimitsHold k s₀ events ↔ KeyExhaustedFirst k s₀ events := by
  have hbooked : ∀ before, Booked (s₀.after before) := fun before =>
    Booked.after ⟨hstart.shaped, fun id p r hr => hstart.ledger _ p r hr⟩ before
  -- an arrival of the key is refused iff the key's ledger is exhausted
  have hrefuses : ∀ before now after, events = before ++ .arrive k now :: after →
      ((budgetCheck (s₀.after before).world (some k) now).2 ≠ none ↔
        (s₀.after before).Exhausted (keyEntity k)) := by
    intro before now after hevents
    rw [hevents] at hfresh
    have hat : (s₀.after before).world.Fresh (keyEntity k) now := (along_append.mp hfresh).2.1
    rw [budgetCheck_refuses_iff hat ((hbooked before).shaped _)]
    constructor
    · rintro ⟨p, r, limit, hrow, hlimit, hle⟩
      exact ⟨p, r, limit, hrow, hlimit, ((hbooked before).keys k.id p r hrow).symm ▸ hle⟩
    · rintro ⟨p, r, limit, hrow, hlimit, hle⟩
      have hspend : (s₀.after before).ledger (keyEntity k) p = r.currentSpend :=
        (hbooked before).keys k.id p r hrow
      exact ⟨p, r, limit, hrow, hlimit, hspend ▸ hle⟩
  constructor
  · intro hlaw before middle now after hevents hex
    exact (hrefuses _ now after hevents).mp (hlaw before middle now after hevents hex)
  · intro hfirst before middle now after hevents hex
    exact (hrefuses _ now after hevents).mpr (hfirst before middle now after hevents hex)

/-- Daily budgets of five dollars, with what was spent on them. -/
def dailyAccount (spends : List (Entity × ℚ)) : Account where
  world :=
    { rows := fun e p => if p = .daily then (spends.lookup e).map fun spend =>
        { hardLimitUSD := some 5, currentSpend := spend, periodStart := 0, periodEnd := 24 * hour }
        else none
      redis := fun _ _ => none
      listCache := fun _ => none }
  ledger := fun e p => if p = .daily then (spends.lookup e).getD 0 else 0

theorem dailyAccount_start (spends : List (Entity × ℚ)) : (dailyAccount spends).Start where
  shaped := by
    intro e c hc
    cases hc
  ledger := by
    intro e p r hr
    obtain ⟨hdaily, hrow⟩ := Option.ite_none_right_eq_some.mp hr
    obtain ⟨spend, hspend, rfl⟩ := Option.map_eq_some_iff.mp hrow
    simp [dailyAccount, hdaily, hspend]

theorem hardLimits_iff_own_limit :
    let k : VirtualKey := { id := "k1", teamID := some "t1" }
    let other : VirtualKey := { id := "k2", teamID := some "t1" }
    let s₀ := dailyAccount [(⟨.key, "k1"⟩, 7), (⟨.team, "t1"⟩, 0)]
    (s₀.after [.complete other 6 0]).Exhausted ⟨.team, "t1"⟩ ∧
      HardLimitsHold k s₀ [.complete other 6 0, .arrive k 1] := by
  intro k other s₀
  have hfresh : Along Account.step FreshAt s₀ [.complete other 6 0, .arrive k 1] := by
    refine ⟨trivial, ⟨rfl, ?_⟩, trivial⟩
    intro p r v _ hv
    cases hv
  refine ⟨⟨.daily, _, 5, rfl, rfl, by decide +kernel⟩,
    (hardLimits_iff _ (dailyAccount_start _) hfresh).mpr ?_⟩
  -- the only arrival comes after the request of the other key
  intro before middle now after hevents _
  have hfront : before ++ middle = [.complete other 6 0] := by
    generalize before ++ middle = front at hevents
    match front, hevents with
    | [_], hevents => rw [(List.cons.inj hevents).1]
    | _ :: _ :: _, hevents => simp at hevents
  rw [hfront]
  exact ⟨.daily, _, 5, rfl, rfl, by decide +kernel⟩

theorem team_limit_not_enforced :
    let k : VirtualKey := { id := "k1", teamID := some "t1" }
    let s₀ := dailyAccount [(⟨.team, "t1"⟩, 0)]
    s₀.Start ∧ Along Account.step FreshAt s₀ [.complete k 6 0, .arrive k 1] ∧
      (s₀.after [.complete k 6 0]).world.spent ⟨.team, "t1"⟩ .daily = 6 ∧
      ¬ HardLimitsHold k s₀ [.complete k 6 0, .arrive k 1] := by
  intro k s₀
  refine ⟨dailyAccount_start _, ⟨trivial, ⟨rfl, ?_⟩, trivial⟩, by decide +kernel, ?_⟩
  · intro p r v _ hv
    cases hv
  · intro hlaw
    refine hlaw [.complete k 6 0] [] 1 [] rfl ⟨⟨.team, "t1"⟩, by decide, ?_⟩ (by decide +kernel)
    exact ⟨.daily, _, 5, rfl, rfl, by decide +kernel⟩

end LlmRouter.Budgets
