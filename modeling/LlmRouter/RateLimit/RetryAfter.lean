import LlmRouter.RateLimit.Middleware

/-!
# LlmRouter — the Retry-After of a refusal

A refused request is told to come again after the seconds until the oldest counted request leaves
the window, rounded down. But the count is of one clock minute, so a client that waits is admitted
exactly if the wait ends in a later one (`retry_after_iff`).
-/

namespace LlmRouter.RateLimit

open Lib Auth Gateway

/-! ## The minute in a key -/

theorem windowMinute_inj {a b : Nat} (h : windowMinute a = windowMinute b) :
    a / 60000000000 = b / 60000000000 := by
  have hda := Calendar.ofDays_bounds (Int.natCast_nonneg (a / 1000000000 / 86400))
  have hdb := Calendar.ofDays_bounds (Int.natCast_nonneg (b / 1000000000 / 86400))
  have hma := Calendar.ofDays_month (a / 1000000000 / 86400 : Nat)
  have hmb := Calendar.ofDays_month (b / 1000000000 / 86400 : Nat)
  -- the fields behind the year have two digits each
  have hpad : ∀ m n, m < 100 → n < 100 → (Text.pad 2 m).length = (Text.pad 2 n).length :=
    fun m n hm hn => by rw [Text.length_pad (by omega) hm, Text.length_pad (by omega) hn]
  simp only [windowMinute, String.ofList_inj] at h
  obtain ⟨h, hmin⟩ := List.append_inj' h (hpad _ _ (by omega) (by omega))
  obtain ⟨h, hhour⟩ := List.append_inj' h (hpad _ _ (by omega) (by omega))
  obtain ⟨h, hday⟩ := List.append_inj' h (hpad _ _ (by omega) (by omega))
  obtain ⟨hyear, hmonth⟩ := List.append_inj' h (hpad _ _ (by omega) (by omega))
  have hnum : ∀ {k : Nat} {x y : Int}, 0 ≤ x → 0 ≤ y → Text.pad k x.toNat = Text.pad k y.toNat →
      x = y := fun hx hy h => by
    rw [← Int.toNat_of_nonneg hx, Text.pad_injective _ h, Int.toNat_of_nonneg hy]
  have hdays := Int.natCast_inj.mp (Calendar.ofDays_inj (hnum hda.1 hdb.1 hyear)
    (hnum (by omega) (by omega) hmonth) (hnum (by omega) (by omega) hday))
  have hmin := Text.pad_injective 2 hmin
  have hhour := Text.pad_injective 2 hhour
  clear hpad hnum hyear hmonth hday hda hdb hma hmb
  omega

/-! ## What is counted in a minute -/

variable {keyID : String} {clock now now' : Nat} {db : Store} {metric : Metric}
  {recorded : Metric → List Nat} {limit cost : Int}

theorem Records.counted_minute (h : Records keyID clock db recorded)
    (hsame : windowMinute clock = windowMinute now) (metric : Metric) :
    counted (recorded metric) now = (recordedIn (recorded metric) (windowMinute clock)).length := by
  rw [counted, ← hsame, recentTimes, List.filter_eq_self.mpr]
  intro ms hms
  obtain ⟨t, ht, rfl⟩ := List.mem_map.mp hms
  obtain ⟨ht, hm⟩ := List.mem_filter.mp ht
  have hle := h.past metric t ht
  have hminute := windowMinute_inj ((of_decide_eq_true hm).trans hsame)
  refine decide_eq_true ?_
  unfold unixMilli
  omega

theorem Records.counted_later (h : Records keyID clock db recorded) (hle : clock ≤ now)
    (hlater : clock / 60000000000 ≠ now / 60000000000) (metric : Metric) :
    counted (recorded metric) now = 0 := by
  have hnone : (recorded metric).filter (fun a => windowMinute a = windowMinute now) = [] := by
    refine List.filter_eq_nil_iff.mpr fun t ht hm => ?_
    have hpast := h.past metric t ht
    have hminute := windowMinute_inj (of_decide_eq_true hm)
    omega
  rw [counted, recordedIn, hnone]
  rfl

def Spent (keyID : String) (metric : Metric) (limit cost : Int) (clock : Nat) (db : Store) :
    Prop :=
  ∃ recorded, Records keyID clock db recorded ∧
    ¬ ((recordedIn (recorded metric) (windowMinute clock)).length + cost ≤ limit)

theorem spent_of_refused (h : Records keyID clock db recorded) (hle : clock ≤ now)
    (hrefused : (allowAt db metric keyID limit cost now).2.allowed = false) :
    Spent keyID metric limit cost now (allowAt db metric keyID limit cost now).1 := by
  obtain ⟨hallowed, hrecords⟩ := h.allowAt hle metric limit cost
  have hover : ¬ (counted (recorded metric) now + cost ≤ limit) :=
    of_decide_eq_false (hallowed.symm.trans hrefused)
  rw [recordedAfter, if_neg fun hfit => hover hfit.1, Function.update_eq_self] at hrecords
  rw [hrecords.counted_minute rfl] at hover
  exact ⟨recorded, hrecords, hover⟩

theorem Spent.refused (h : Spent keyID metric limit cost clock db) (hle : clock ≤ now)
    (hsame : windowMinute clock = windowMinute now) :
    (allowAt db metric keyID limit cost now).2.allowed = false := by
  obtain ⟨recorded, hrecords, hover⟩ := h
  rw [(hrecords.allowAt hle metric limit cost).1, hrecords.counted_minute hsame,
    decide_eq_false hover]

theorem Spent.allowAt_other {limit' cost' : Int} {metric' : Metric}
    (h : Spent keyID metric limit cost clock db) (hne : metric ≠ metric') (hle : clock ≤ now)
    (hsame : windowMinute clock = windowMinute now) :
    Spent keyID metric limit cost now (allowAt db metric' keyID limit' cost' now).1 := by
  obtain ⟨recorded, hrecords, hover⟩ := h
  refine ⟨_, (hrecords.allowAt hle metric' limit' cost').2, ?_⟩
  rwa [recordedAfter, Function.update_of_ne hne, ← hsame]

/-! ## The middleware -/

theorem retryAfter_header (metric : Metric) (limit : Int) (res : Result) (now : Nat) :
    ∃ k : Nat, header (writeRateLimitError metric limit res now).headers "Retry-After" =
      toString k := by
  have hlookup : ∀ (secs : Int) (rest : List (String × String)),
      header (("Content-Type", "application/json") :: ("Retry-After", toString secs) :: rest)
        "Retry-After" = toString secs := fun _ _ => rfl
  have hpos : ∀ secs : Int, ∃ k : Nat, (if 0 < secs then secs else 60) = k :=
    fun secs => Int.eq_ofNat_of_zero_le (by split_ifs <;> omega)
  exact (hpos _).imp fun k hk => (hlookup _ _).trans (congrArg toString hk)

variable {key : VirtualKey} {L : Int}

section Limited

variable (hL : key.rpmLimit = some L) (hpos : 0 < L)

include hL hpos

theorem records_run {events : List Event} (hrun : Along (Run.step key) InOrder .start events) :
    ∃ recorded, Records key.id (events.foldl (Run.step key) .start).clock
      (events.foldl (Run.step key) .start).db recorded := by
  refine foldl_invariant (P := fun s => ∃ recorded, Records key.id s.clock s.db recorded) ?_
    ⟨_, records_empty⟩ hrun
  rintro s e ⟨recorded, h⟩ horder
  cases e with
  | arrive now => exact ⟨_, (h.rateLimit hL hpos horder).1⟩
  | complete now tokens =>
    obtain ⟨recorded', -, hrecords⟩ := h.recordTPM horder tokens
    exact ⟨recorded', hrecords⟩

theorem admitted_later (h : Records key.id clock db recorded) (hle : clock ≤ now)
    (hlater : clock / 60000000000 ≠ now / 60000000000) :
    (rateLimit db (some key) now).2 = none := by
  obtain ⟨hallowed, hrecords⟩ := h.allowAt hle .rpm L 1
  rw [h.counted_later hle hlater, decide_eq_true (by omega)] at hallowed
  rw [rateLimit_eq hL hpos, if_pos hallowed]
  rcases checkTPM_cases key with hnone | ⟨limit, hlimit, heq⟩
  · rw [hnone]
  · have htpm := (hrecords.allowAt le_rfl .tpm limit 0).1
    rw [recordedAfter, Function.update_of_ne (by decide), h.counted_later hle hlater,
      decide_eq_true (by omega)] at htpm
    rw [heq]
    exact if_pos htpm

/-- Where `CheckTPM` is a call and its count is spent, a request is refused by one of the two
checks. -/
theorem refused_of_spent (htpm : ∀ db now, (allowAt db .tpm key.id limit 0 now).2.allowed = false →
      (checkTPM db key now).2 ≠ none) (h : Spent key.id .tpm limit 0 clock db) (hle : clock ≤ now)
    (hsame : windowMinute clock = windowMinute now) : (rateLimit db (some key) now).2 ≠ none := by
  rw [rateLimit_eq hL hpos]
  cases (allowAt db .rpm key.id L 1 now).2.allowed with
  | false => simp
  | true => exact htpm _ _ ((h.allowAt_other (by decide) hle hsame).refused le_rfl rfl)

theorem refused_again (h : Records key.id clock db recorded) (hle : clock ≤ now)
    (hrefused : (rateLimit db (some key) now).2 ≠ none) (hle' : now ≤ now')
    (hsame : windowMinute now = windowMinute now') :
    (rateLimit (rateLimit db (some key) now).1 (some key) now').2 ≠ none := by
  rw [rateLimit_eq hL hpos db] at hrefused ⊢
  cases hallowed : (allowAt db .rpm key.id L 1 now).2.allowed with
  | false =>
    have hspent := spent_of_refused h hle hallowed
    rw [if_neg Bool.false_ne_true, rateLimit_eq hL hpos, hspent.refused hle' hsame]
    simp
  | true =>
    rw [hallowed, if_pos rfl] at hrefused
    rw [if_pos rfl]
    rcases checkTPM_cases key with hnone | ⟨limit, -, heq⟩
    · rw [hnone] at hrefused
      exact absurd rfl hrefused
    · have htpm : ∀ db now, (checkTPM db key now).2 ≠ none ↔
          (allowAt db .tpm key.id limit 0 now).2.allowed = false := by
        intro db now
        rw [heq]
        cases (allowAt db .tpm key.id limit 0 now).2.allowed <;> simp
      have hspent := spent_of_refused (h.allowAt hle .rpm L 1).2 le_rfl ((htpm _ _).mp hrefused)
      rw [heq]
      exact refused_of_spent hL hpos (fun db now => (htpm db now).mpr) hspent hle' hsame

theorem refusal_retryAfter {resp : Response}
    (h : (rateLimit db (some key) now).2 = some resp) :
    ∃ k : Nat, header resp.headers "Retry-After" = toString k := by
  rw [rateLimit_eq hL hpos] at h
  split_ifs at h
  · rcases checkTPM_cases key with hnone | ⟨limit, -, heq⟩
    · rw [hnone] at h
      cases h
    · rw [heq] at h
      dsimp only at h
      split_ifs at h
      obtain rfl := Option.some.inj h
      exact retryAfter_header ..
  · obtain rfl := Option.some.inj h
    exact retryAfter_header ..

end Limited

/-- **When Retry-After is sufficient.** After every history, a refused request is told to wait some
seconds, and its next one after that wait is admitted iff it comes in a later clock minute. -/
theorem retry_after_iff (hL : key.rpmLimit = some L) (hpos : 0 < L) {events : List Event}
    (hrun : Along (Run.step key) InOrder .start events)
    (hle : (events.foldl (Run.step key) .start).clock ≤ now) {db' : Store} {resp : Response}
    (hrefused : rateLimit (events.foldl (Run.step key) .start).db (some key) now =
      (db', some resp)) :
    ∃ k : Nat, header resp.headers "Retry-After" = toString k ∧
      ((rateLimit db' (some key) (now + k * 1000000000)).2 = none ↔
        now / 60000000000 ≠ (now + k * 1000000000) / 60000000000) := by
  obtain ⟨recorded, hrecords⟩ := records_run hL hpos hrun
  have hresp := congrArg Prod.snd hrefused
  have hdb : (rateLimit (events.foldl (Run.step key) .start).db (some key) now).1 = db' :=
    congrArg Prod.fst hrefused
  obtain ⟨k, hk⟩ := refusal_retryAfter hL hpos hresp
  refine ⟨k, hk, fun hadmitted hsame => ?_, fun hlater => ?_⟩
  · refine refused_again hL hpos hrecords hle (by rw [hresp]; simp) (Nat.le_add_right _ _)
      (windowMinute_congr hsame) ?_
    rwa [hdb]
  · rw [← hdb]
    exact admitted_later hL hpos (hrecords.rateLimit hL hpos hle).1 (Nat.le_add_right _ _) hlater

theorem retry_after_next_minute :
    let key : VirtualKey := { id := "k1", rpmLimit := some 1 }
    let db := (Run.step key .start (.arrive 1000000000)).db
    (rateLimit db (some key) 30000000000).2.map (fun resp => header resp.headers "Retry-After") =
        some "31" ∧
      (rateLimit (rateLimit db (some key) 30000000000).1 (some key) 61000000000).2 = none := by
  intro key db
  have hheader : (rateLimit db (some key) 30000000000).2.map
      (fun resp => header resp.headers "Retry-After") = some "31" := by
    decide +kernel
  refine ⟨hheader, ?_⟩
  cases hrefused : rateLimit db (some key) 30000000000 with
  | mk db' resp =>
    rw [hrefused] at hheader
    obtain ⟨resp, rfl, hresp⟩ := Option.map_eq_some_iff.mp hheader
    obtain ⟨k, hk, hiff⟩ := @retry_after_iff 30000000000 key 1 rfl (by decide)
      [.arrive 1000000000] ⟨by decide, trivial⟩ (by decide) _ _ hrefused
    obtain rfl : 31 = k :=
      Text.toString_nat_injective (congrArg String.toList (hresp.symm.trans hk))
    exact hiff.mpr (by decide)

/-- Half a second after the first request the key is told to wait for 59 seconds, and then refused
again. -/
theorem retry_after_same_minute :
    let key : VirtualKey := { id := "k1", rpmLimit := some 1 }
    let db := (Run.step key .start (.arrive 0)).db
    (rateLimit db (some key) 500000000).2.map (fun resp => header resp.headers "Retry-After") =
        some "59" ∧
      (rateLimit (rateLimit db (some key) 500000000).1 (some key) 59500000000).2 ≠ none := by
  decide +kernel

end LlmRouter.RateLimit
