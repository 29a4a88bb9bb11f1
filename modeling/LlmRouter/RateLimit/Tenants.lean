import LlmRouter.RateLimit.Middleware

/-!
# LlmRouter — the rate limits of many keys

All virtual keys share one Redis. The names that a script uses begin with the id of its key, so
what it does can only depend on the requests of that key. Of the ids is used that they have no
colon.
-/

namespace LlmRouter.RateLimit

open Lib Auth Gateway Lib.Redis

/-- The requests of all keys: Redis, and the answers so far with the ids. -/
structure Gate where
  db : Store := .empty
  answers : List (String × Option Response) := []

def Gate.step (g : Gate) (e : VirtualKey × Event) : Gate :=
  match e.2 with
  | .arrive now =>
    let r := rateLimit g.db (some e.1) now
    { db := r.1, answers := g.answers ++ [(e.1.id, r.2)] }
  | .complete now tokens => { g with db := recordTPM g.db e.1 tokens now }

def Gate.answersTo (g : Gate) (id : String) : List (String × Option Response) :=
  g.answers.filter fun a => decide (a.1 = id)

def Store.held (db : Store) (id : String) (metric : Metric) (minute : String) :
    Option (Keyed (ZSet String)) × Option (Keyed Nat) :=
  let key := keyForKey metric id minute
  (db.zsets key, db.counters (seqKey key))

theorem keyForKey_id {metric metric' : Metric} {id id' m m' : String} (hid : ':' ∉ id.toList)
    (hid' : ':' ∉ id'.toList) (h : keyForKey metric id m = keyForKey metric' id' m') :
    id = id' := by
  have htail := congrArg String.toList h
  simp only [keyForKey, String.toList_append, List.append_assoc] at htail
  have htail := List.append_cancel_left htail
  exact String.toList_inj.mp (Text.append_cons_inj hid hid' htail).1

/-! ### Operations for a key -/

/-- An operation for the key `id`: it goes by what Redis holds for the key, and leaves alone what
it holds for others. -/
structure Acts {α : Type} (id : String) (f : Store → Store × α) : Prop where
  own : ∀ db db', db.held id = db'.held id →
    (f db).2 = (f db').2 ∧ (f db).1.held id = (f db').1.held id
  other : ∀ id', ':' ∉ id'.toList → id' ≠ id → ∀ db, (f db).1.held id' = db.held id'

variable {α β : Type} {id : String} {f : Store → Store × α}

theorem Acts.const (a : α) : Acts id fun db => (db, a) :=
  ⟨fun _ _ h => ⟨rfl, h⟩, fun _ _ _ _ => rfl⟩

theorem Acts.bind (hf : Acts id f) {g : α → Store → Store × β} (hg : ∀ a, Acts id (g a)) :
    Acts id fun db => g (f db).2 (f db).1 where
  own db db' h := by
    obtain ⟨hanswer, hheld⟩ := hf.own db db' h
    rw [hanswer]
    exact (hg _).own _ _ hheld
  other id' hid' hne db := ((hg _).other id' hid' hne _).trans (hf.other id' hid' hne db)

theorem Acts.map (hf : Acts id f) (g : α → β) : Acts id fun db => ((f db).1, g (f db).2) :=
  hf.bind fun a => .const (g a)

theorem allow_acts (hid : ':' ∉ id.toList) (metric : Metric) (m : String) (limit cost window : Int)
    (now : Nat) : Acts id fun db => allow db (keyForKey metric id m) limit cost window now where
  own db db' h := by
    obtain ⟨hz, hc⟩ := Prod.mk.inj (congrFun (congrFun h metric) m)
    refine ⟨?_, funext fun metric' => funext fun m' => ?_⟩
    · simp only [allow, slidingWindowScript, hz]
      split_ifs <;> rfl
    · by_cases hkey : keyForKey metric' id m' = keyForKey metric id m
      · simp only [Store.held, hkey, allow, slidingWindowScript, record, hz, hc]
        split_ifs <;> simp [hc]
      · obtain ⟨hz₁, hc₁⟩ := @allow_frame db _ _ limit cost window now hkey
        obtain ⟨hz₂, hc₂⟩ := @allow_frame db' _ _ limit cost window now hkey
        simp only [Store.held, hz₁, hc₁, hz₂, hc₂]
        exact congrFun (congrFun h metric') m'
  other id' hid' hne db := by
    funext metric' m'
    have hkey : keyForKey metric' id' m' ≠ keyForKey metric id m :=
      fun h => hne (keyForKey_id hid' hid h)
    obtain ⟨hz, hc⟩ := @allow_frame db _ _ limit cost window now hkey
    exact Prod.ext hz hc

variable {key : VirtualKey}

/-- A check, with the refusal for its metric. -/
theorem check_acts (hid : ':' ∉ key.id.toList) (metric : Metric) (limit cost : Int) (now : Nat) :
    Acts key.id fun db =>
      let key := keyForKey metric key.id (windowMinute now)
      let r := allow db key limit cost minute (unixMilli now)
      (r.1, if r.2.allowed then none else some (writeRateLimitError metric limit r.2 now)) :=
  (allow_acts hid metric _ limit cost minute _).map fun res =>
    if res.allowed then none else some (writeRateLimitError metric limit res now)

theorem checkRPM_acts (hid : ':' ∉ key.id.toList) (now : Nat) :
    Acts key.id fun db => checkRPM db key now := by
  unfold checkRPM
  cases key.rpmLimit with
  | none => exact .const none
  | some limit =>
    by_cases hlimit : 0 < limit
    · simp only [if_pos hlimit]
      exact check_acts hid .rpm limit 1 now
    · simp only [if_neg hlimit]
      exact .const none

theorem checkTPM_acts (hid : ':' ∉ key.id.toList) (now : Nat) :
    Acts key.id fun db => checkTPM db key now := by
  unfold checkTPM
  cases key.tpmLimit with
  | none => exact .const none
  | some limit =>
    by_cases hlimit : limit ≤ 0
    · simp only [if_pos hlimit]
      exact .const none
    · simp only [if_neg hlimit]
      exact check_acts hid .tpm limit 0 now

theorem rateLimit_acts (hid : ':' ∉ key.id.toList) (now : Nat) :
    Acts key.id fun db => rateLimit db (some key) now := by
  -- only a request that the first check admits gets to the second one
  have hnext : ∀ refusal : Option Response, Acts key.id fun db =>
      match refusal with
      | some refusal => (db, some refusal)
      | none => checkTPM db key now := by
    intro refusal
    cases refusal with
    | some refusal => exact .const _
    | none => exact checkTPM_acts hid now
  convert (checkRPM_acts hid now).bind hnext using 2 with db
  simp only [rateLimit]
  rcases checkRPM db key now with ⟨db', _ | refusal⟩ <;> rfl

theorem recordTPM_acts (hid : ':' ∉ key.id.toList) (tokens : Int) (now : Nat) :
    Acts key.id fun db => (recordTPM db key tokens now, ()) := by
  unfold recordTPM
  cases key.tpmLimit with
  | none => exact .const ()
  | some limit =>
    by_cases htokens : tokens = 0
    · simp only [if_pos htokens]
      exact .const ()
    · simp only [if_neg htokens]
      exact (allow_acts hid .tpm _ (limit + tokens) tokens minute _).map fun _ => ()

/-! ### The run of all keys -/

/-- **Rate limits are isolated.** A key gets the answers that it gets when only its requests are
made. -/
theorem rate_limits_isolated {events : List (VirtualKey × Event)} {id : String}
    (hid : ':' ∉ id.toList) (hids : ∀ e ∈ events, ':' ∉ e.1.id.toList) :
    (events.foldl Gate.step {}).answersTo id =
      ((events.filter fun e => decide (e.1.id = id)).foldl Gate.step {}).answersTo id := by
  refine (Prod.mk.inj (foldl_filter_view Gate.step (fun g => (g.db.held id, g.answersTo id))
    (fun e => decide (e.1.id = id)) (fun e he hown g => ?_) (fun e he hown g g' hg => ?_) rfl)).2
  · have hne : id ≠ e.1.id := fun h => of_decide_eq_false hown h.symm
    rcases e with ⟨key, now | ⟨now, tokens⟩⟩
    · have hheld := (rateLimit_acts (hids _ he) now).other id hid hne g.db
      refine Prod.ext hheld ?_
      simp [Gate.step, Gate.answersTo, Ne.symm hne]
    · exact Prod.ext ((recordTPM_acts (hids _ he) tokens now).other id hid hne g.db) rfl
  · obtain ⟨hheld, hanswers⟩ := Prod.mk.inj hg
    rcases e with ⟨key, now | ⟨now, tokens⟩⟩
    · obtain rfl : key.id = id := of_decide_eq_true hown
      obtain ⟨hanswer, hheld⟩ := (rateLimit_acts hid now).own _ _ hheld
      refine Prod.ext hheld ?_
      simp only [Gate.step, Gate.answersTo, List.filter_append] at hanswers ⊢
      rw [hanswer, hanswers]
    · obtain rfl : key.id = id := of_decide_eq_true hown
      exact Prod.ext ((recordTPM_acts hid tokens now).own _ _ hheld).2 hanswers

theorem rate_limits_isolated_two :
    let a : VirtualKey := { id := "a", rpmLimit := some 1 }
    let b : VirtualKey := { id := "b", rpmLimit := some 1 }
    ([(a, .arrive 0), (b, .arrive 1), (a, .arrive 2)].foldl Gate.step {}).answersTo "b" =
      ([(b, Event.arrive 1)].foldl Gate.step {}).answersTo "b" :=
  rate_limits_isolated (by decide) (by decide)

end LlmRouter.RateLimit
