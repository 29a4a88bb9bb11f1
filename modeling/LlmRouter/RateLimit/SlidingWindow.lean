import LlmRouter.RateLimit.Limiter

/-!
# LlmRouter — the sliding-window law

A run is a list of `Allow` calls on one key at nondecreasing times. `decisions` replays it on the
Redis model and `logDecisions` on the log alone; they agree (`decisions_eq`). An admitted call of
cost `c` takes up one entry, not `c`; `windowLaw_iff` says for which costs and windows the law
holds all the same.
-/

namespace LlmRouter.RateLimit

open Lib List

/-- One `Allow` call: when (Unix milliseconds) and for how much. -/
structure Call where
  now : Nat
  cost : Int
  deriving DecidableEq, Repr

def decisions (db : Store) (key : String) (limit window : Int) : List Call → List Bool
  | [] => []
  | c :: calls =>
    let r := allow db key limit c.cost window c.now
    r.2.allowed :: decisions r.1 key limit window calls

def admitted (calls : List Call) (answers : List Bool) : List Call :=
  ((calls.zip answers).filter Prod.snd).map Prod.fst

def windowSum (window t : Int) (calls : List Call) : Int :=
  ((calls.filter fun c =>
    decide (t - window < c.now * 1000000 ∧ (c.now : Int) * 1000000 ≤ t)).map Call.cost).sum

def Nondecreasing (calls : List Call) : Prop := calls.Pairwise fun a b => a.now ≤ b.now

/-- No interval `(t - window, t]` holds admitted calls of more than `limit` in all. -/
def WindowLaw (key : String) (limit window : Int) (calls : List Call) : Prop :=
  ∀ t, windowSum window t (admitted calls (decisions .empty key limit window calls)) ≤ limit

/-- No call of cost 0 changes a later answer: leaving it out gives the same ones. -/
def PeeksNeutral (key : String) (limit window : Int) (calls : List Call) : Prop :=
  ∀ before peek after, calls = before ++ peek :: after → peek.cost = 0 →
    (decisions .empty key limit window calls).drop (before.length + 1) =
      (decisions .empty key limit window (before ++ after)).drop before.length

/-! ## The run on the log -/

def logDecisions (limit : Int) (w : Nat) : List Nat → List Call → List Bool
  | _, [] => []
  | log, c :: calls =>
    decide (((recentTimes w c.now log).length : Int) + c.cost ≤ limit) ::
      logDecisions limit w (logged limit w log c.cost c.now) calls

def logAfter (limit : Int) (w : Nat) (log : List Nat) (calls : List Call) : List Nat :=
  calls.foldl (fun log c => logged limit w log c.cost c.now) log

variable {w : Nat} {window limit c : Int} {calls : List Call} {S : Set Int}

theorem decisions_eq {last : Nat} {db : Store} {key : String} {log : List Nat}
    (hw : milliseconds window = w) (limit : Int) (h : Tracks w last db key log)
    (hmono : Nondecreasing calls) (hlast : ∀ c ∈ calls, last ≤ c.now) :
    decisions db key limit window calls = logDecisions limit w log calls := by
  induction calls generalizing db log last with
  | nil => rfl
  | cons c calls ih =>
    obtain ⟨hfirst, hrest⟩ := pairwise_cons.mp hmono
    obtain ⟨hallowed, htracks⟩ :=
      allow_tracks hw limit c.cost h (hlast c mem_cons_self)
    simp only [decisions, logDecisions, hallowed, ih htracks hrest hfirst]

theorem decisions_empty (hw : milliseconds window = w) (key : String) (limit : Int)
    (hmono : Nondecreasing calls) :
    decisions .empty key limit window calls = logDecisions limit w [] calls :=
  decisions_eq hw limit (tracks_empty w 0 rfl) hmono fun _ _ => Nat.zero_le _

theorem logDecisions_append (limit : Int) (w : Nat) (log : List Nat) (a b : List Call) :
    logDecisions limit w log (a ++ b) =
      logDecisions limit w log a ++ logDecisions limit w (logAfter limit w log a) b := by
  induction a generalizing log with
  | nil => rfl
  | cons c a ih => simp [logDecisions, logAfter, ih]

@[simp] theorem logDecisions_length (limit : Int) (w : Nat) (log : List Nat)
    (calls : List Call) : (logDecisions limit w log calls).length = calls.length := by
  induction calls generalizing log with
  | nil => rfl
  | cons c calls ih => simp [logDecisions, ih]

theorem logDecisions_peek (limit : Int) (w : Nat) (log : List Nat) (before after : List Call)
    {peek : Call} (hpeek : peek.cost = 0) :
    (logDecisions limit w log (before ++ peek :: after)).drop (before.length + 1) =
      (logDecisions limit w log (before ++ after)).drop before.length := by
  have hlog : ∀ l, logged limit w l peek.cost peek.now = l := by
    intro l
    simp [logged, hpeek]
  rw [logDecisions_append, logDecisions_append, logDecisions, hlog]
  rw [append_cons, drop_left' (by simp), drop_left' (by simp)]

theorem milliseconds_toNat (hwindow : 0 < window) :
    ((milliseconds window).toNat : Int) = milliseconds window :=
  Int.toNat_of_nonneg (Int.tdiv_nonneg hwindow.le (by omega))

theorem peeksNeutral (hwindow : 0 < window) (key : String) (limit : Int)
    (hmono : Nondecreasing calls) : PeeksNeutral key limit window calls := by
  intro before peek after hcalls hpeek
  have hw := (milliseconds_toNat hwindow).symm
  have hmono' : Nondecreasing (before ++ after) := by
    subst hcalls
    exact hmono.sublist (Sublist.append_left (sublist_cons_self ..) _)
  rw [decisions_empty hw key limit hmono, decisions_empty hw key limit hmono', hcalls]
  exact logDecisions_peek limit _ [] before after hpeek

/-! ## When the law holds -/

def charges (calls : List Call) : List (Nat × Int) :=
  (calls.filter fun c => decide (0 < c.cost)).map fun c => (c.now, c.cost)

theorem charges_cons (c : Call) (calls : List Call) :
    charges (c :: calls) =
      if 0 < c.cost then (c.now, c.cost) :: charges calls else charges calls := by
  simp only [charges, filter_cons, decide_eq_true_eq]
  split_ifs <;> rfl

theorem windowSum_cons (window t : Int) (c : Call) (calls : List Call) :
    windowSum window t (c :: calls) =
      (if t - window < c.now * 1000000 ∧ (c.now : Int) * 1000000 ≤ t then c.cost else 0) +
        windowSum window t calls := by
  simp only [windowSum, filter_cons, decide_eq_true_eq]
  split_ifs <;> simp only [map_cons, sum_cons, zero_add]

theorem windowSum_eq (w : Nat) {t : Int} (ht : 0 ≤ t) (hcost : ∀ c ∈ calls, 0 ≤ c.cost) :
    windowSum ((w : Int) * 1000000) t calls =
      SlidingLog.total (SlidingLog.inside w (t / 1000000).toNat (charges calls)) := by
  induction calls with
  | nil => rfl
  | cons c calls ih =>
    have hc := hcost c mem_cons_self
    have hwin : (t - (w : Int) * 1000000 < c.now * 1000000 ∧ (c.now : Int) * 1000000 ≤ t) ↔
        ((t / 1000000).toNat < c.now + w ∧ c.now ≤ (t / 1000000).toNat) := by
      omega
    rw [windowSum_cons, ih fun c' hc' => hcost c' (mem_cons_of_mem _ hc')]
    simp only [hwin, charges_cons]
    by_cases hpos : 0 < c.cost
    · rw [if_pos hpos, SlidingLog.total_inside_cons]
    · have h0 : c.cost = 0 := by omega
      simp [h0]

def PricedByCount (limit : Int) (S : Int → Prop) : Prop :=
  ∀ (log : List (Nat × Int)) (c : Int), (∀ e ∈ log, S e.2) → S c →
    (log.length : Int) + c ≤ limit → SlidingLog.total log + c ≤ limit

def Chargeable (limit : Int) (S : Set Int) (c : Int) : Prop := c ∈ S ∧ 0 < c ∧ c ≤ limit

theorem pricedByCount_of_unit (hone : ∀ c, Chargeable limit S c → c = 1) :
    PricedByCount limit (Chargeable limit S) := by
  intro log c hlog hc hfit
  rw [SlidingLog.total_eq_length fun e he => hone _ (hlog e he)]
  exact hfit

/-- A call that costs the whole limit is admitted on an empty log only. -/
theorem pricedByCount_of_full (hfull : ∀ c, Chargeable limit S c → c = limit) :
    PricedByCount limit (Chargeable limit S) := by
  intro log c hlog hc hfit
  have hempty : log.length = 0 := by
    have := hfull c hc
    omega
  rw [length_eq_zero_iff.mp hempty]
  simpa using hc.2.2

theorem fitted_run (hprice : PricedByCount limit (Chargeable limit S)) (hmono : Nondecreasing calls)
    (hS : ∀ c ∈ calls, c.cost ∈ S) {W : List (Nat × Int)} (hW : SlidingLog.Fitted limit w W)
    (hWS : ∀ e ∈ W, Chargeable limit S e.2) (hlast : ∀ e ∈ W, ∀ c ∈ calls, e.1 ≤ c.now) :
    SlidingLog.Fitted limit w
      (W ++ charges (admitted calls (logDecisions limit w (W.map Prod.fst) calls))) := by
  induction calls generalizing W with
  | nil => simpa [charges, admitted] using hW
  | cons c calls ih =>
    obtain ⟨hfirst, hrest⟩ := pairwise_cons.mp hmono
    have hlen : (recentTimes w c.now (W.map Prod.fst)).length =
        (SlidingLog.recent w c.now W).length := by
      rw [recentTimes, filter_map, length_map]
      rfl
    have hS' : ∀ c' ∈ calls, c'.cost ∈ S := fun c' hc' => hS c' (mem_cons_of_mem _ hc')
    have hlast' : ∀ e ∈ W, ∀ c' ∈ calls, e.1 ≤ c'.now :=
      fun e he c' hc' => hlast e he c' (mem_cons_of_mem _ hc')
    rw [logDecisions]
    by_cases hpass : ((SlidingLog.recent w c.now W).length : Int) + c.cost ≤ limit ∧ 0 < c.cost
    · -- a charged call: it fits by its cost because it fits by the count
      obtain ⟨hfit, hpos⟩ := hpass
      have hc : Chargeable limit S c.cost := ⟨hS c mem_cons_self, hpos, by omega⟩
      have hfitted : SlidingLog.Fitted limit w (W ++ [(c.now, c.cost)]) := by
        refine .snoc hW (fun e he => hlast e he c mem_cons_self) hpos.le ?_
        exact hprice _ _ (fun e he => hWS e (mem_of_mem_filter he)) hc hfit
      have hnext := ih hrest hS' hfitted
        (by simpa [or_imp, forall_and, hc] using hWS)
        (by
          intro e he c' hc'
          rcases mem_append.mp he with he | he
          · exact hlast' e he c' hc'
          · rw [mem_singleton.mp he]
            exact hfirst c' hc')
      simpa [logged, hlen, hfit, hpos, admitted, charges] using hnext
    · -- neither a refused call nor a peek is charged
      have hlog : logged limit w (W.map Prod.fst) c.cost c.now = W.map Prod.fst := by
        rw [logged, hlen, if_neg hpass]
      have hnext := ih hrest hS' hW hWS hlast'
      rw [hlog]
      by_cases hfit : ((SlidingLog.recent w c.now W).length : Int) + c.cost ≤ limit
      · have hpeek : ¬ 0 < c.cost := fun hpos => hpass ⟨hfit, hpos⟩
        simpa [hlen, hfit, hpeek, admitted, charges] using hnext
      · simpa [hlen, hfit, admitted, charges] using hnext

theorem windowLaw_of_priced (hlimit : 0 ≤ limit) (hnonneg : ∀ c ∈ S, 0 ≤ c)
    (hprice : PricedByCount limit (Chargeable limit S)) (w : Nat) (key : String)
    (hmono : Nondecreasing calls) (hS : ∀ c ∈ calls, c.cost ∈ S) :
    WindowLaw key limit ((w : Int) * 1000000) calls := by
  intro t
  have hw : milliseconds ((w : Int) * 1000000) = w := Int.mul_tdiv_cancel _ (by omega)
  have hcost : ∀ c ∈ admitted calls (logDecisions limit w [] calls), 0 ≤ c.cost := by
    intro c hc
    obtain ⟨x, hx, rfl⟩ := mem_map.mp hc
    exact hnonneg _ (hS _ (of_mem_zip (mem_of_mem_filter hx)).1)
  rw [decisions_empty hw key limit hmono]
  by_cases ht : 0 ≤ t
  · rw [windowSum_eq w ht hcost]
    have hfit := fitted_run (w := w) hprice hmono hS .nil (by simp) (by simp)
    exact hfit.total_inside_le hlimit _
  · -- nothing happened before the epoch
    have hnone : (admitted calls (logDecisions limit w [] calls)).filter (fun c => decide
        (t - (w : Int) * 1000000 < c.now * 1000000 ∧ (c.now : Int) * 1000000 ≤ t)) = [] := by
      refine filter_eq_nil_iff.mpr fun c _ => ?_
      simp only [decide_eq_true_eq]
      omega
    rw [windowSum, hnone]
    exact hlimit

/-! ## When it fails -/

theorem logDecisions_burst (hc : 0 < c) (w t : Nat) (n : Nat) (log : List Nat)
    (hroom : (log.length : Int) + n + c ≤ limit + 1) (rest : List Call) :
    logDecisions limit w log (replicate n ⟨t, c⟩ ++ rest) =
      replicate n true ++ logDecisions limit w (log ++ replicate n t) rest := by
  induction n generalizing log with
  | zero => simp
  | succ n ih =>
    have hrecent : (recentTimes w t log).length ≤ log.length := length_filter_le ..
    have hfit : ((recentTimes w t log).length : Int) + c ≤ limit := by omega
    have hlog : logged limit w log c t = log ++ [t] := by
      rw [logged, if_pos ⟨hfit, hc⟩]
    rw [replicate_succ, cons_append, logDecisions, hlog, ih]
    · simp [hfit, replicate_succ]
    · simp only [length_append, length_singleton]
      omega

theorem admitted_append_replicate_true (a b : List Call) (ans : List Bool) :
    admitted (a ++ b) (replicate a.length true ++ ans) = a ++ admitted b ans := by
  induction a with
  | nil => rfl
  | cons c a ih => simpa [admitted, replicate_succ] using ih

theorem windowSum_append (window t : Int) (a b : List Call) :
    windowSum window t (a ++ b) = windowSum window t a + windowSum window t b := by
  simp [windowSum]

theorem windowSum_replicate {t : Int} {c : Call} (n : Nat)
    (hin : t - window < c.now * 1000000 ∧ (c.now : Int) * 1000000 ≤ t) :
    windowSum window t (replicate n c) = n * c.cost := by
  induction n with
  | zero => simp [windowSum]
  | succ n ih =>
    rw [replicate_succ, windowSum_cons, if_pos hin, ih]
    push_cast
    ring

theorem admitted_burst {d : Int} (hc : 0 < c) (w : Nat) (n t : Nat)
    (hroom : (n : Int) + c ≤ limit + 1)
    (hlast : ((recentTimes w t (replicate n 0)).length : Int) + d ≤ limit) :
    admitted (replicate n ⟨0, c⟩ ++ [⟨t, d⟩])
        (logDecisions limit w [] (replicate n ⟨0, c⟩ ++ [⟨t, d⟩])) =
      replicate n ⟨0, c⟩ ++ [⟨t, d⟩] := by
  rw [logDecisions_burst hc w 0 n [] (by simpa using hroom)]
  have := admitted_append_replicate_true (replicate n ⟨0, c⟩) [⟨t, d⟩]
    (logDecisions limit w (replicate n 0) [⟨t, d⟩])
  rw [length_replicate] at this
  rw [nil_append, this]
  simp [logDecisions, hlast, admitted]

theorem nondecreasing_burst (n t : Nat) (c d : Int) :
    Nondecreasing (replicate n ⟨0, c⟩ ++ [⟨t, d⟩]) := by
  simp [Nondecreasing, pairwise_append, pairwise_replicate]

theorem cost_mem_of_mem_burst {d : Int} (hc : c ∈ S) (hd : d ∈ S) {n t : Nat} {x : Call}
    (hx : x ∈ replicate n (⟨0, c⟩ : Call) ++ [⟨t, d⟩]) : x.cost ∈ S := by
  rcases mem_append.mp hx with hx | hx
  · rw [eq_of_mem_replicate hx]
    exact hc
  · rw [mem_singleton.mp hx]
    exact hd

theorem not_windowLaw_of_burst {d : Int} (hc : 0 < c) (hwindow : 0 < window) (key : String)
    (n t : Nat) (hroom : (n : Int) + c ≤ limit + 1)
    (hlast : ((recentTimes (milliseconds window).toNat t (replicate n 0)).length : Int) + d
      ≤ limit) (ht : (t : Int) * 1000000 < window) (hover : limit < n * c + d) :
    ¬ WindowLaw key limit window (replicate n ⟨0, c⟩ ++ [⟨t, d⟩]) := by
  intro hlaw
  specialize hlaw (t * 1000000)
  rw [decisions_empty (milliseconds_toNat hwindow).symm key limit (nondecreasing_burst n t c d),
    admitted_burst hc _ n t hroom hlast, windowSum_append,
    windowSum_replicate n ⟨by simp only; omega, by simp⟩, windowSum_cons,
    if_pos ⟨by simp only; omega, le_rfl⟩] at hlaw
  simp only [windowSum, filter_nil, map_nil, sum_nil, add_zero] at hlaw
  omega

/-! ## The law, exactly -/

theorem mem_admitted_logDecisions {log : List Nat} {c : Call}
    (h : c ∈ admitted calls (logDecisions limit w log calls)) : c ∈ calls ∧ c.cost ≤ limit := by
  induction calls generalizing log with
  | nil => cases h
  | cons c' calls ih =>
    rw [logDecisions] at h
    by_cases hfit : ((recentTimes w c'.now log).length : Int) + c'.cost ≤ limit
    · simp only [admitted, hfit, decide_true, zip_cons_cons, filter_cons, if_true,
        map_cons, mem_cons] at h
      rcases h with rfl | h
      · exact ⟨mem_cons_self, by omega⟩
      · exact ⟨mem_cons_of_mem _ (ih h).1, (ih h).2⟩
    · simp only [admitted, hfit, decide_false, zip_cons_cons, filter_cons,
        Bool.false_eq_true, if_false] at h
      exact ⟨mem_cons_of_mem _ (ih h).1, (ih h).2⟩

theorem windowLaw_of_not_chargeable (hlimit : 0 ≤ limit) (hwindow : 0 < window)
    (hnonneg : ∀ c ∈ S, 0 ≤ c) (hnone : ∀ c, ¬ Chargeable limit S c) (key : String)
    (hmono : Nondecreasing calls) (hS : ∀ c ∈ calls, c.cost ∈ S) :
    WindowLaw key limit window calls := by
  intro t
  rw [decisions_empty (milliseconds_toNat hwindow).symm key limit hmono, windowSum]
  refine le_of_eq_of_le (sum_eq_zero fun x hx => ?_) hlimit
  obtain ⟨c, hc, rfl⟩ := mem_map.mp hx
  obtain ⟨hmem, hle⟩ := mem_admitted_logDecisions (mem_of_mem_filter hc)
  have h0 := hnonneg _ (hS c hmem)
  by_contra hne
  exact hnone c.cost ⟨hS c hmem, by omega, hle⟩

theorem not_windowLaw_of_middle (hwindow : 0 < window) (key : String) (hone : 1 < c)
    (hlimit : c < limit) :
    ¬ WindowLaw key limit window
      (replicate (limit - c).toNat ⟨0, c⟩ ++ [⟨0, c⟩]) := by
  have hn : ((limit - c).toNat : Int) = limit - c := Int.toNat_of_nonneg (by omega)
  refine not_windowLaw_of_burst (by omega) hwindow key _ 0 (by omega) ?_ (by simpa using hwindow) ?_
  · have hle : (recentTimes (milliseconds window).toNat 0
        (replicate (limit - c).toNat 0)).length ≤ (limit - c).toNat :=
      (length_filter_le ..).trans (length_replicate ..).le
    omega
  · rw [hn]
    nlinarith

theorem not_windowLaw_of_full_then_one (hwindow : 0 < window) (key : String) (hlimit : 1 < limit) :
    ¬ WindowLaw key limit window (replicate 1 ⟨0, limit⟩ ++ [⟨0, 1⟩]) := by
  refine not_windowLaw_of_burst (by omega) hwindow key 1 0 (by omega) ?_ (by simpa using hwindow)
    (by omega)
  have hle : (recentTimes (milliseconds window).toNat 0 (replicate 1 0)).length ≤ 1 :=
    length_filter_le ..
  omega

theorem not_windowLaw_of_partial_millisecond (hwindow : 0 < window)
    (hdvd : ¬ (1000000 : Int) ∣ window) (key : String) (hc : 0 < c) (hlimit : c ≤ limit) :
    ¬ WindowLaw key limit window
      (replicate (limit - c + 1).toNat ⟨0, c⟩ ++ [⟨(milliseconds window).toNat, c⟩]) := by
  have hn : ((limit - c + 1).toNat : Int) = limit - c + 1 := Int.toNat_of_nonneg (by omega)
  refine not_windowLaw_of_burst hc hwindow key _ _ (by omega) ?_ ?_ ?_
  · have hnone : recentTimes (milliseconds window).toNat (milliseconds window).toNat
        (replicate (limit - c + 1).toNat 0) = [] := by
      refine filter_eq_nil_iff.mpr fun s hs => ?_
      rw [eq_of_mem_replicate hs]
      simp
    rw [hnone]
    simpa using hlimit
  · rw [milliseconds_toNat hwindow, milliseconds]
    have htrunc := Int.tmod_add_mul_tdiv window 1000000
    have hrem : window.tmod 1000000 ≠ 0 := fun h => hdvd (Int.dvd_of_tmod_eq_zero h)
    have hpos := Int.tmod_nonneg 1000000 hwindow.le
    omega
  · rw [hn]
    nlinarith

/-- **The sliding-window law, exactly.** For costs of the class `S`, every run on a key obeys the
law and no call of cost 0 changes a later answer iff no cost of the class can be charged, or the
window is a whole number of milliseconds and the chargeable costs are all 1, or all the limit. -/
theorem windowLaw_iff (key : String) {limit window : Int} (hlimit : 0 ≤ limit)
    (hwindow : 0 < window) (S : Set Int) (hnonneg : ∀ c ∈ S, 0 ≤ c) :
    (∀ calls, Nondecreasing calls → (∀ c ∈ calls, c.cost ∈ S) →
        WindowLaw key limit window calls ∧ PeeksNeutral key limit window calls) ↔
      (∀ c ∈ S, 0 < c → limit < c) ∨
        ((1000000 : Int) ∣ window ∧
          ((∀ c ∈ S, 0 < c → c ≤ limit → c = 1) ∨ ∀ c ∈ S, 0 < c → c ≤ limit → c = limit)) := by
  constructor
  · intro hlaw
    have hburst : ∀ (n t : Nat) (c d : Int), c ∈ S → d ∈ S →
        WindowLaw key limit window (replicate n ⟨0, c⟩ ++ [⟨t, d⟩]) := by
      intro n t c d hc hd
      exact (hlaw _ (nondecreasing_burst n t c d) fun x hx => cost_mem_of_mem_burst hc hd hx).1
    by_cases hnone : ∀ c ∈ S, 0 < c → limit < c
    · exact .inl hnone
    push Not at hnone
    obtain ⟨c₀, hc₀, hpos₀, hle₀⟩ := hnone
    have hmiddle : ∀ c ∈ S, 0 < c → c ≤ limit → c = 1 ∨ c = limit := by
      intro c hc hpos hle
      by_contra hne
      push Not at hne
      exact not_windowLaw_of_middle hwindow key (by omega) (by omega) (hburst _ _ c c hc hc)
    refine .inr ⟨?_, ?_⟩
    · by_contra hdvd
      exact not_windowLaw_of_partial_millisecond hwindow hdvd key hpos₀ hle₀
        (hburst _ _ c₀ c₀ hc₀ hc₀)
    · -- otherwise both 1 and a larger limit can be charged: the limit first, then 1
      by_contra hmixed
      push Not at hmixed
      obtain ⟨⟨a, ha, hapos, hale, ha1⟩, ⟨b, hb, hbpos, hble, hblim⟩⟩ := hmixed
      obtain rfl : a = limit := (hmiddle a ha hapos hale).resolve_left ha1
      obtain rfl : b = 1 := (hmiddle b hb hbpos hble).resolve_right hblim
      exact not_windowLaw_of_full_then_one hwindow key (by omega) (hburst 1 0 a 1 ha hb)
  · intro hcond calls hmono hS
    refine ⟨?_, peeksNeutral hwindow key limit hmono⟩
    rcases hcond with hnone | ⟨⟨k, rfl⟩, hcost⟩
    · refine windowLaw_of_not_chargeable hlimit hwindow hnonneg ?_ key hmono hS
      rintro c ⟨hc, hpos, hle⟩
      exact absurd (hnone c hc hpos) (by omega)
    · have hk : 1000000 * k = (k.toNat : Int) * 1000000 := by omega
      rw [hk]
      refine windowLaw_of_priced hlimit hnonneg ?_ _ key hmono hS
      rcases hcost with hone | hfull
      · exact pricedByCount_of_unit fun c hc => hone c hc.1 hc.2.1 hc.2.2
      · exact pricedByCount_of_full fun c hc => hfull c hc.1 hc.2.1 hc.2.2

theorem windowLaw_iff_requests :
    WindowLaw "rl:key:k1:rpm:202601011200" 3 60000000000
        [⟨0, 1⟩, ⟨0, 1⟩, ⟨5, 0⟩, ⟨7, 1⟩, ⟨9, 1⟩] ∧
      PeeksNeutral "rl:key:k1:rpm:202601011200" 3 60000000000
        [⟨0, 1⟩, ⟨0, 1⟩, ⟨5, 0⟩, ⟨7, 1⟩, ⟨9, 1⟩] := by
  have hlaw := (windowLaw_iff "rl:key:k1:rpm:202601011200" (show (0 : Int) ≤ 3 by decide)
    (show (0 : Int) < 60000000000 by decide) {0, 1} (by simp)).mpr
    (.inr ⟨by decide, .inl (by simp)⟩)
  exact hlaw _ (by simp [Nondecreasing]) (by simp)

/-- Two calls of cost 600 in one millisecond pass a limit of 1000: the second
finds one entry, not 600 units. -/
theorem two_large_calls_pass :
    Nondecreasing [⟨0, 600⟩, ⟨0, 600⟩] ∧
      decisions .empty "rl:key:k1:tpm:202601011200" 1000 60000000000 [⟨0, 600⟩, ⟨0, 600⟩] =
        [true, true] ∧
      windowSum 60000000000 0 (admitted [⟨0, 600⟩, ⟨0, 600⟩] [true, true]) = 1200 ∧
      ¬ WindowLaw "rl:key:k1:tpm:202601011200" 1000 60000000000 [⟨0, 600⟩, ⟨0, 600⟩] := by
  have hmono : Nondecreasing [⟨0, 600⟩, ⟨0, 600⟩] := by simp [Nondecreasing]
  have hw : milliseconds 60000000000 = (60000 : Nat) := by decide
  refine ⟨hmono, ?_, by decide, ?_⟩
  · rw [decisions_empty hw _ _ hmono]
    decide
  · exact not_windowLaw_of_burst (n := 1) (by decide) (by decide) _ _ (by decide) (by decide)
      (by decide) (by decide)

end LlmRouter.RateLimit
