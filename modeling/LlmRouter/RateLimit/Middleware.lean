import LlmRouter.RateLimit.Limiter
import LlmRouter.Gateway.Types
import LlmRouter.Lib.Calendar
import LlmRouter.Lib.Run

/-!
# LlmRouter — the rate-limit middleware

`rateLimit` is the part of `RateLimit` before the next handler, `recordTPM` the part after it. The
Redis key of a check names the clock minute (`windowMinute`), so each minute starts with an empty
window; `rpm_law` says what is left of the limit.
-/

namespace LlmRouter.RateLimit

open Lib Auth Gateway List

inductive Metric where
  | rpm
  | tpm
  deriving DecidableEq, Repr

def Metric.name : Metric → String
  | .rpm => "rpm"
  | .tpm => "tpm"

def keyForKey (metric : Metric) (keyID windowMinute : String) : String :=
  "rl:key:" ++ (keyID ++ (":" ++ metric.name ++ ":" ++ windowMinute))

def keyForKeyRPM (keyID windowMinute : String) : String := keyForKey .rpm keyID windowMinute

def keyForKeyTPM (keyID windowMinute : String) : String := keyForKey .tpm keyID windowMinute

/-- `WindowMinute` at `now`: the clock minute as `YYYYMMDDHHMM` in UTC. -/
def windowMinute (now : Nat) : String :=
  let secs := now / 1000000000
  let date := Calendar.ofDays (secs / 86400 : Nat)
  String.ofList (Text.pad 4 date.year.toNat ++ Text.pad 2 date.month.toNat ++
    Text.pad 2 date.day.toNat ++ Text.pad 2 (secs % 86400 / 3600) ++ Text.pad 2 (secs % 3600 / 60))

def minute : Int := 60000000000

def unixMilli (now : Nat) : Nat := now / 1000000

def writeRateLimitError (metric : Metric) (limit : Int) (res : Result) (now : Nat) : Response :=
  let secs := match res.resetAt with
    | some ms => (ms * 1000000 - now).tdiv 1000000000
    | none => 0
  let retryAfter := if 0 < secs then secs else 60
  let reset := match res.resetAt with
    | some ms => [("X-RateLimit-Reset-" ++ metric.name, toString (ms / 1000))]
    | none => []
  { status := 429
    headers := [("Content-Type", "application/json"), ("Retry-After", toString retryAfter),
      ("X-RateLimit-Limit-" ++ metric.name, toString limit),
      ("X-RateLimit-Remaining-" ++ metric.name, toString res.remaining)] ++ reset
    body := encode (ErrorDetail.toJson
      { message := "Rate limit exceeded: " ++ toString limit ++ " " ++ metric.name ++
          ". Retry after " ++ toString retryAfter ++ " seconds."
        type := "rate_limit_error"
        code := "rate_limit_exceeded" }) }

def checkTPM (db : Store) (key : VirtualKey) (now : Nat) : Store × Option Response :=
  match key.tpmLimit with
  | some limit =>
    if limit ≤ 0 then (db, none)
    else
      let tpmKey := keyForKeyTPM key.id (windowMinute now)
      let (db', res) := allow db tpmKey limit 0 minute (unixMilli now)
      (db', if res.allowed then none else some (writeRateLimitError .tpm limit res now))
  | none => (db, none)

def recordTPM (db : Store) (key : VirtualKey) (tokens : Int) (now : Nat) : Store :=
  match key.tpmLimit with
  | some limit =>
    if tokens = 0 then db
    else
      let tpmKey := keyForKeyTPM key.id (windowMinute now)
      (allow db tpmKey (limit + tokens) tokens minute (unixMilli now)).1
  | none => db

def checkRPM (db : Store) (key : VirtualKey) (now : Nat) : Store × Option Response :=
  match key.rpmLimit with
  | some limit =>
    if 0 < limit then
      let rpmKey := keyForKeyRPM key.id (windowMinute now)
      let (db', res) := allow db rpmKey limit 1 minute (unixMilli now)
      (db', if res.allowed then none else some (writeRateLimitError .rpm limit res now))
    else (db, none)
  | none => (db, none)

/-- `RateLimit` up to the next handler: a response, or `none` if it calls `next`. -/
def rateLimit (db : Store) (key : Option VirtualKey) (now : Nat) : Store × Option Response :=
  match key with
  | none => (db, none)
  | some key =>
    match checkRPM db key now with
    | (db', some refusal) => (db', some refusal)
    | (db', none) => checkTPM db' key now

/-! ## Runs of one key -/

/-- A request arrives, or one that was admitted completes and reports its tokens. -/
inductive Event where
  | arrive (now : Nat)
  | complete (now : Nat) (tokens : Int)
  deriving DecidableEq, Repr

def Event.time : Event → Nat
  | .arrive now => now
  | .complete now _ => now

/-- The Redis state, the last clock reading and the admission times so far. -/
structure Run where
  db : Store
  clock : Nat
  admitted : List Nat

def Run.step (key : VirtualKey) (s : Run) : Event → Run
  | .arrive now =>
    let r := rateLimit s.db (some key) now
    { db := r.1, clock := now, admitted := if r.2.isNone then s.admitted ++ [now] else s.admitted }
  | .complete now tokens =>
    { db := recordTPM s.db key tokens now, clock := now, admitted := s.admitted }

def Run.start : Run := { db := .empty, clock := 0, admitted := [] }

def Run.admittedIn (s : Run) (t : Nat) : Nat :=
  (s.admitted.filter fun a => decide (t < a + 60000000000 ∧ a ≤ t)).length

def InOrder (s : Run) (e : Event) : Prop := s.clock ≤ e.time

instance (s : Run) (e : Event) : Decidable (InOrder s e) :=
  inferInstanceAs (Decidable (s.clock ≤ e.time))

/-- The requests admitted less than a minute before an arrival belong to the
clock minute of the arrival. -/
def MinuteAligned (s : Run) (e : Event) : Prop :=
  ∀ now, e = .arrive now → ∀ a ∈ s.admitted, now < a + 60000000000 →
    a / 60000000000 = now / 60000000000

/-! ## Keys and minutes -/

theorem keyForKey_inj {metric metric' : Metric} {keyID m m' : String}
    (h : keyForKey metric keyID m = keyForKey metric' keyID m') : metric = metric' ∧ m = m' := by
  -- drop the common beginning, then compare the metric character by character
  have htail := congrArg String.toList h
  simp only [keyForKey, String.toList_append] at htail
  have htail := append_cancel_left (append_cancel_left htail)
  cases metric <;> cases metric' <;> simp [Metric.name] at htail
  · exact ⟨rfl, String.toList_inj.mp htail⟩
  · exact ⟨rfl, String.toList_inj.mp htail⟩

theorem windowMinute_congr {a b : Nat} (h : a / 60000000000 = b / 60000000000) :
    windowMinute a = windowMinute b := by
  have hday : a / 1000000000 / 86400 = b / 1000000000 / 86400 := by omega
  have hhour : a / 1000000000 % 86400 / 3600 = b / 1000000000 % 86400 / 3600 := by omega
  have hmin : a / 1000000000 % 3600 / 60 = b / 1000000000 % 3600 / 60 := by omega
  simp only [windowMinute, hday, hhour, hmin]

theorem milliseconds_minute : milliseconds minute = (60000 : Nat) := by decide

/-! ## What one call does -/

def allowAt (db : Store) (metric : Metric) (keyID : String) (limit cost : Int) (now : Nat) :
    Store × Result :=
  allow db (keyForKey metric keyID (windowMinute now)) limit cost minute (unixMilli now)

def recordedIn (recorded : List Nat) (m : String) : List Nat :=
  (recorded.filter fun a => windowMinute a = m).map unixMilli

theorem recordedIn_append (recorded : List Nat) (now : Nat) (m : String) :
    recordedIn (recorded ++ [now]) m =
      if windowMinute now = m then recordedIn recorded m ++ [unixMilli now]
      else recordedIn recorded m := by
  by_cases hm : windowMinute now = m <;> simp [recordedIn, hm]

def counted (recorded : List Nat) (now : Nat) : Nat :=
  (recentTimes 60000 (unixMilli now) (recordedIn recorded (windowMinute now))).length

def recordedAfter (recorded : Metric → List Nat) (metric : Metric) (limit cost : Int) (now : Nat) :
    Metric → List Nat :=
  Function.update recorded metric
    (if counted (recorded metric) now + cost ≤ limit ∧ 0 < cost then recorded metric ++ [now]
      else recorded metric)

/-- Redis tracks, metric by metric and minute by minute, the times of the calls that were
recorded. -/
structure Records (keyID : String) (clock : Nat) (db : Store) (recorded : Metric → List Nat) :
    Prop where
  past : ∀ metric, ∀ a ∈ recorded metric, a ≤ clock
  tracks : ∀ metric m, Tracks 60000 (unixMilli clock) db (keyForKey metric keyID m)
    (recordedIn (recorded metric) m)

theorem unixMilli_mono {a b : Nat} (h : a ≤ b) : unixMilli a ≤ unixMilli b :=
  Nat.div_le_div_right h

variable {keyID : String} {clock now : Nat} {db : Store} {recorded : Metric → List Nat}

theorem records_empty : Records keyID clock .empty fun _ => [] where
  past := fun _ _ ha => nomatch ha
  tracks := fun _ _ => tracks_empty _ _ rfl

theorem Records.mono (h : Records keyID clock db recorded) (hle : clock ≤ now) :
    Records keyID now db recorded where
  past := fun metric a ha => (h.past metric a ha).trans hle
  tracks := fun metric m => (h.tracks metric m).mono (unixMilli_mono hle)

theorem Records.allowAt (h : Records keyID clock db recorded) (hle : clock ≤ now) (metric : Metric)
    (limit cost : Int) :
    (allowAt db metric keyID limit cost now).2.allowed =
        decide (counted (recorded metric) now + cost ≤ limit) ∧
      Records keyID now (allowAt db metric keyID limit cost now).1
        (recordedAfter recorded metric limit cost now) := by
  have hnow := h.mono hle
  obtain ⟨hallowed, htracks⟩ := allow_tracks milliseconds_minute limit cost
    (hnow.tracks metric (windowMinute now)) le_rfl
  refine ⟨hallowed, fun metric' a ha => ?_, fun metric' m => ?_⟩
  · by_cases hmetric : metric' = metric
    · subst hmetric
      rw [recordedAfter, Function.update_self] at ha
      split_ifs at ha
      · rcases mem_append.mp ha with ha | ha
        · exact hnow.past metric' a ha
        · exact (mem_singleton.mp ha).le
      · exact hnow.past metric' a ha
    · rw [recordedAfter, Function.update_of_ne hmetric] at ha
      exact hnow.past metric' a ha
  · by_cases hkey : keyForKey metric' keyID m = keyForKey metric keyID (windowMinute now)
    · -- the key of this minute: the call itself
      obtain ⟨rfl, rfl⟩ := keyForKey_inj hkey
      rw [recordedAfter, Function.update_self, apply_ite (recordedIn · _), recordedIn_append,
        if_pos rfl]
      exact htracks
    · -- any other key: untouched
      have hlog : recordedIn (recordedAfter recorded metric limit cost now metric') m =
          recordedIn (recorded metric') m := by
        by_cases hmetric : metric' = metric
        · subst hmetric
          have hm : windowMinute now ≠ m := fun hm => hkey (by rw [hm])
          rw [recordedAfter, Function.update_self, apply_ite (recordedIn · _), recordedIn_append,
            if_neg hm, ite_self]
        · rw [recordedAfter, Function.update_of_ne hmetric]
      have hframe := @allow_frame db _ _ limit cost minute (unixMilli now) hkey
      rw [hlog]
      exact (hnow.tracks metric' m).congr hframe.1 hframe.2

theorem recordedAfter_zero (recorded : Metric → List Nat) (metric : Metric) (limit : Int)
    (now : Nat) : recordedAfter recorded metric limit 0 now = recorded := by
  simp [recordedAfter]

/-! ## What one event does -/

variable {key : VirtualKey} {L : Int}

theorem checkTPM_cases (key : VirtualKey) :
    (∀ db now, checkTPM db key now = (db, none)) ∨
      ∃ limit, 0 < limit ∧ ∀ db now, checkTPM db key now =
        ((allowAt db .tpm key.id limit 0 now).1,
          if (allowAt db .tpm key.id limit 0 now).2.allowed then none
          else some (writeRateLimitError .tpm limit (allowAt db .tpm key.id limit 0 now).2 now)) := by
  cases hlimit : key.tpmLimit with
  | none => exact .inl fun db now => by rw [checkTPM, hlimit]
  | some limit =>
    rcases le_or_gt limit 0 with hle | hpos
    · exact .inl fun db now => by simp [checkTPM, hlimit, hle]
    · refine .inr ⟨limit, hpos, fun db now => ?_⟩
      simp only [checkTPM, hlimit, hpos.not_ge, if_false]
      rfl

theorem Records.checkTPM (h : Records key.id clock db recorded) (hle : clock ≤ now) :
    Records key.id now (checkTPM db key now).1 recorded := by
  rcases checkTPM_cases key with hnone | ⟨limit, -, heq⟩
  · rw [hnone]
    exact h.mono hle
  · have hcall := (h.allowAt hle .tpm limit 0).2
    rw [recordedAfter_zero] at hcall
    rwa [heq]

theorem Records.recordTPM (h : Records key.id clock db recorded) (hle : clock ≤ now)
    (tokens : Int) : ∃ recorded', recorded' .rpm = recorded .rpm ∧
      Records key.id now (recordTPM db key tokens now) recorded' := by
  unfold RateLimit.recordTPM
  split
  · split
    · exact ⟨recorded, rfl, h.mono hle⟩
    · exact ⟨_, Function.update_of_ne (by decide) .., (h.allowAt hle .tpm _ tokens).2⟩
  · exact ⟨recorded, rfl, h.mono hle⟩

theorem rateLimit_eq (hL : key.rpmLimit = some L) (hpos : 0 < L) (db : Store) (now : Nat) :
    rateLimit db (some key) now =
      if (allowAt db .rpm key.id L 1 now).2.allowed then
        checkTPM (allowAt db .rpm key.id L 1 now).1 key now
      else ((allowAt db .rpm key.id L 1 now).1,
        some (writeRateLimitError .rpm L (allowAt db .rpm key.id L 1 now).2 now)) := by
  have hcheck : checkRPM db key now = ((allowAt db .rpm key.id L 1 now).1,
      if (allowAt db .rpm key.id L 1 now).2.allowed then none
      else some (writeRateLimitError .rpm L (allowAt db .rpm key.id L 1 now).2 now)) := by
    simp only [checkRPM, hL, hpos, if_true]
    rfl
  rw [rateLimit, hcheck]
  split_ifs <;> rfl

theorem Records.rateLimit (hL : key.rpmLimit = some L) (hpos : 0 < L)
    (h : Records key.id clock db recorded) (hle : clock ≤ now) :
    Records key.id now (rateLimit db (some key) now).1 (recordedAfter recorded .rpm L 1 now) ∧
      ((rateLimit db (some key) now).2 = none → counted (recorded .rpm) now + 1 ≤ L) := by
  obtain ⟨hallowed, hrecords⟩ := h.allowAt hle .rpm L 1
  rw [rateLimit_eq hL hpos, hallowed]
  split_ifs with hfit
  · exact ⟨hrecords.checkTPM le_rfl, fun _ => of_decide_eq_true hfit⟩
  · exact ⟨hrecords, fun hnone => nomatch hnone⟩

/-! ## The law -/

structure Inv (key : VirtualKey) (L : Int) (recorded : Metric → List Nat) (s : Run) : Prop where
  records : Records key.id s.clock s.db recorded
  among : s.admitted.Sublist (recorded .rpm)
  fitted : SlidingLog.Fitted L 60000000000 (s.admitted.map fun a => (a, 1))

theorem inv_start (key : VirtualKey) (L : Int) : Inv key L (fun _ => []) .start where
  records := records_empty
  among := .slnil
  fitted := .nil

/-- Under `MinuteAligned` the admitted requests of the last minute are all
counted by the key of the arrival. -/
theorem recent_admitted_le {admitted recorded : List Nat} (hsub : admitted.Sublist recorded)
    (haligned : ∀ a ∈ admitted, now < a + 60000000000 →
      a / 60000000000 = now / 60000000000) :
    (admitted.filter fun a => decide (now < a + 60000000000)).length ≤ counted recorded now := by
  let inMinute : Nat → Bool := fun a =>
    decide (unixMilli now < unixMilli a + 60000) && decide (windowMinute a = windowMinute now)
  have hcount : counted recorded now = (recorded.filter inMinute).length := by
    rw [counted, recentTimes, recordedIn, filter_map, length_map, filter_filter]
    rfl
  rw [hcount]
  refine List.Sublist.length_le (List.Sublist.trans ?_ (hsub.filter inMinute))
  have himp : ∀ a ∈ admitted, now < a + 60000000000 → inMinute a = true := by
    intro a ha hrecent
    have hminute := haligned a ha hrecent
    have hms : unixMilli now < unixMilli a + 60000 := by
      unfold unixMilli
      omega
    simp [inMinute, hms, windowMinute_congr hminute]
  have hfilter : admitted.filter (fun a => decide (now < a + 60000000000)) =
      (admitted.filter inMinute).filter fun a => decide (now < a + 60000000000) := by
    rw [filter_filter]
    refine filter_congr fun a ha => ?_
    by_cases hrecent : now < a + 60000000000
    · simp [hrecent, himp a ha hrecent]
    · simp [hrecent]
  rw [hfilter]
  exact filter_sublist

theorem inv_arrive (hL : key.rpmLimit = some L) (hpos : 0 < L) {s : Run} (h : Inv key L recorded s)
    (hle : s.clock ≤ now) (haligned : MinuteAligned s (.arrive now)) :
    ∃ recorded', Inv key L recorded' (s.step key (.arrive now)) := by
  obtain ⟨hrecords, hpass⟩ := h.records.rateLimit hL hpos hle
  have hrpm : recordedAfter recorded .rpm L 1 now .rpm =
      if counted (recorded .rpm) now + 1 ≤ L then recorded .rpm ++ [now] else recorded .rpm := by
    simp [recordedAfter]
  refine ⟨recordedAfter recorded .rpm L 1 now, hrecords, ?_, ?_⟩
  · -- only a request that passed the request check is admitted
    simp only [Run.step, Option.isNone_iff_eq_none, hrpm]
    by_cases hnone : (rateLimit s.db (some key) now).2 = none
    · rw [if_pos hnone, if_pos (hpass hnone)]
      exact h.among.append_right _
    · rw [if_neg hnone]
      split_ifs
      · exact h.among.trans (sublist_append_left _ _)
      · exact h.among
  · simp only [Run.step, Option.isNone_iff_eq_none]
    by_cases hnone : (rateLimit s.db (some key) now).2 = none
    · rw [if_pos hnone, map_append]
      refine .snoc h.fitted ?_ (by decide) ?_
      · intro e he
        obtain ⟨a, ha, rfl⟩ := mem_map.mp he
        exact (h.records.past .rpm a (h.among.subset ha)).trans hle
      · have hroom := hpass hnone
        have hle' := recent_admitted_le h.among (haligned now rfl)
        have htotal : SlidingLog.total
            (SlidingLog.recent 60000000000 now (s.admitted.map fun a => (a, (1 : Int)))) =
            (s.admitted.filter fun a => decide (now < a + 60000000000)).length := by
          rw [SlidingLog.total_eq_length, SlidingLog.recent, filter_map, length_map]
          · rfl
          · intro e he
            obtain ⟨a, -, rfl⟩ := mem_map.mp (mem_of_mem_filter he)
            rfl
        rw [htotal]
        omega
    · rw [if_neg hnone]
      exact h.fitted

/-- **Requests per minute.** In every run of a key in which no request arrives within 60 seconds of
an admitted one of an earlier clock minute, no interval of 60 seconds holds more admitted requests
than the limit. -/
theorem rpm_law {key : VirtualKey} {L : Int} (hL : key.rpmLimit = some L) (hpos : 0 < L)
    {events : List Event}
    (hrun : Along (Run.step key) (fun s e => InOrder s e ∧ MinuteAligned s e) .start events)
    (t : Nat) : ((events.foldl (Run.step key) .start).admittedIn t : Int) ≤ L := by
  have hinv : ∃ recorded, Inv key L recorded (events.foldl (Run.step key) .start) := by
    refine foldl_invariant (P := fun s => ∃ recorded, Inv key L recorded s) ?_
      ⟨_, inv_start key L⟩ hrun
    rintro s e ⟨recorded, h⟩ ⟨horder, haligned⟩
    cases e with
    | arrive now => exact inv_arrive hL hpos h horder haligned
    | complete now tokens =>
      obtain ⟨recorded', hrpm, hrecords⟩ := h.records.recordTPM horder tokens
      exact ⟨recorded', hrecords, hrpm.symm ▸ h.among, h.fitted⟩
  obtain ⟨recorded, h⟩ := hinv
  have hwindow := h.fitted.total_inside_le hpos.le t
  rw [SlidingLog.total_eq_length, SlidingLog.inside, filter_map, length_map] at hwindow
  · exact hwindow
  · intro e he
    obtain ⟨a, -, rfl⟩ := mem_map.mp (mem_of_mem_filter he)
    rfl

theorem rpm_law_within_minute :
    (([Event.arrive 0, .arrive 1000000000, .arrive 2000000000].foldl
      (Run.step { id := "k1", rpmLimit := some 2 }) .start).admittedIn 2000000000 : Int) ≤ 2 := by
  have hrun : Along (Run.step { id := "k1", rpmLimit := some 2 })
      (fun s e => InOrder s e ∧ MinuteAligned s e) .start
      [.arrive 0, .arrive 1000000000, .arrive 2000000000] := by
    refine ⟨⟨by decide, ?_⟩, ⟨by decide, ?_⟩, ⟨by decide, ?_⟩, trivial⟩
    · intro now _ a ha
      cases ha
    · rintro now ⟨⟩ a ha _
      have hfirst : (Run.step { id := "k1", rpmLimit := some 2 } .start (.arrive 0)).admitted =
          [0] := by decide
      rw [hfirst, mem_singleton] at ha
      subst ha
      decide
    · rintro now ⟨⟩ a ha _
      have hboth : (Run.step { id := "k1", rpmLimit := some 2 }
          (Run.step { id := "k1", rpmLimit := some 2 } .start (.arrive 0))
          (.arrive 1000000000)).admitted = [0, 1000000000] := by decide
      rw [hboth, mem_cons, mem_singleton] at ha
      rcases ha with rfl | rfl <;> decide
  exact rpm_law rfl (by decide) hrun _

/-- The last second of a clock minute and the first of the next: both admitted against a limit of
one. -/
theorem minute_boundary_doubles_limit :
    Along (Run.step { id := "k1", rpmLimit := some 1 }) InOrder .start
        [.arrive 59000000000, .arrive 60000000000] ∧
      ([Event.arrive 59000000000, .arrive 60000000000].foldl
        (Run.step { id := "k1", rpmLimit := some 1 }) .start).admittedIn 60000000000 = 2 :=
  ⟨⟨by decide, by decide, trivial⟩, by decide⟩

end LlmRouter.RateLimit
