import LlmRouter.Lib.Redis
import LlmRouter.Lib.Text
import LlmRouter.Lib.SlidingLog

/-!
# LlmRouter — the Redis rate limiter

`slidingWindowScript` is the Lua script of `internal/ratelimit`, run atomically; `allow` is
`RedisLimiter.Allow` around it. Redis never fails here. What the script computes is a log of the
times at which it recorded an entry: `Tracks` relates the Redis state to that log
(`allow_tracks`).
-/

namespace LlmRouter.RateLimit

open Lib.Redis List
open Lib

structure Store where
  zsets : String → Option (Keyed (ZSet String))
  counters : String → Option (Keyed Nat)

def Store.empty : Store := { zsets := fun _ => none, counters := fun _ => none }

/-- `Result`; `resetAt` is in Unix milliseconds, `none` for the zero time. -/
structure Result where
  allowed : Bool
  remaining : Int
  resetAt : Option Int
  deriving DecidableEq, Repr

def seqKey (key : String) : String := key ++ ":seq"

/-- The member of an entry, `tostring(now) .. ':' .. tostring(seq)`. -/
def member (now seq : Nat) : String := toString now ++ ":" ++ toString seq

/-- `math.ceil(window / 1000) + 1` seconds, in milliseconds. -/
def expireMs (window : Int) : Int := ((window + 999) / 1000 + 1) * 1000

variable (db : Store) (key : String)

/-- The `cost > 0` branch: count, add the entry, renew both times to live. -/
def record (window : Int) (now : Nat) (kept : ZSet String) : Store :=
  let seq := incr now (db.counters (seqKey key))
  let added := zstore now (db.zsets key) (zadd now (member now seq.val) kept)
  { zsets := Function.update db.zsets key (expire now (expireMs window) added)
    counters :=
      Function.update db.counters (seqKey key) (expire now (expireMs window) (some seq)) }

/-- The script: `{allowed, remaining, reset}`. -/
def slidingWindowScript (limit window cost : Int) (now : Nat) : Store × Int × Int × Int :=
  let kept := zremrangebyscore 0 (now - window) (zset now (db.zsets key))
  let purged := { db with zsets := Function.update db.zsets key (zstore now (db.zsets key) kept) }
  let current : Int := kept.length
  if current + cost ≤ limit then
    let db' := if 0 < cost then record purged key window now kept else purged
    (db', 1, limit - current - cost, 0)
  else
    let reset := match zoldest kept with
      | some oldest => (oldest : Int) + window
      | none => 0
    (purged, 0, 0, reset)

/-- `time.Duration.Milliseconds`, which truncates. -/
def milliseconds (d : Int) : Int := d.tdiv 1000000

/-- `RedisLimiter.Allow` at `nowMs`; `window` is in nanoseconds. -/
def allow (limit cost window : Int) (nowMs : Nat) : Store × Result :=
  let (db', allowed, remaining, resetMs) :=
    slidingWindowScript db key limit (milliseconds window) cost nowMs
  (db',
    { allowed := allowed == 1
      remaining := remaining
      resetAt := if 0 < resetMs then some resetMs else none })

/-! ## The log behind the sorted set -/

/-- The entries stored under `key`, whether or not their time to live has run out. -/
def stored : ZSet String := ((db.zsets key).map Keyed.val).getD []

def recentTimes (w now : Nat) (log : List Nat) : List Nat :=
  log.filter fun s => decide (now < s + w)

/-- What Redis holds under `key` stands for the `log` of recorded times, from `last` on. -/
structure Tracks (w last : Nat) (db : Store) (key : String) (log : List Nat) : Prop where
  times : ∀ now, last ≤ now →
    recentTimes w now ((stored db key).map Prod.fst) = recentTimes w now log
  past : ∀ k, db.zsets key = some k → ∀ e ∈ k.val, e.1 ≤ last
  outlives : ∀ k, db.zsets key = some k → ∀ e ∈ k.val, ∀ x ∈ k.expireAt, (e.1 : Int) + w ≤ x
  counted : ∀ k, db.zsets key = some k → ∃ c, db.counters (seqKey key) = some c ∧
    c.expireAt = k.expireAt ∧ ∀ e ∈ k.val, ∃ s q, e.2 = member s q ∧ q ≤ c.val

variable {db : Store} {key : String} {w last now : Nat} {log : List Nat}

theorem tracks_empty (w last : Nat) (h : db.zsets key = none) :
    Tracks w last db key [] where
  times := by simp [stored, h]
  past := by simp [h]
  outlives := by simp [h]
  counted := by simp [h]

theorem Tracks.mono {last' : Nat} (h : Tracks w last db key log) (hle : last ≤ last') :
    Tracks w last' db key log :=
  { h with
    times := fun now hnow => h.times now (hle.trans hnow)
    past := fun k hk e he => (h.past k hk e he).trans hle }

theorem Tracks.congr {db' : Store} (h : Tracks w last db key log)
    (hz : db'.zsets key = db.zsets key) (hc : db'.counters (seqKey key) = db.counters (seqKey key)) :
    Tracks w last db' key log where
  times := by simpa only [stored, hz] using h.times
  past := by simpa only [hz] using h.past
  outlives := by simpa only [hz] using h.outlives
  counted := by simpa only [hz, hc] using h.counted

theorem recentTimes_recentTimes {t : Nat} (hle : t ≤ now) (log : List Nat) :
    recentTimes w now (recentTimes w t log) = recentTimes w now log := by
  simp only [recentTimes, filter_filter]
  refine filter_congr fun s _ => ?_
  simp only [← Bool.decide_and, decide_eq_decide]
  omega

theorem recentTimes_append (w now : Nat) (a b : List Nat) :
    recentTimes w now (a ++ b) = recentTimes w now a ++ recentTimes w now b :=
  filter_append ..

theorem member_inj {s s' q q' : Nat} (h : member s q = member s' q') : s = s' ∧ q = q' := by
  have hlist : (toString s).toList ++ ':' :: (toString q).toList =
      (toString s').toList ++ ':' :: (toString q').toList := by
    simpa [member] using congrArg String.toList h
  obtain ⟨hs, hq⟩ := Text.append_cons_inj (Text.not_mem_toString_nat (by decide) s)
    (Text.not_mem_toString_nat (by decide) s') hlist
  exact ⟨Text.toString_nat_injective hs, Text.toString_nat_injective hq⟩

/-! ## What one call does -/

/-- What the script keeps: entries already expired had left the window. -/
theorem kept_eq (h : Tracks w last db key log) (now : Nat) :
    zremrangebyscore 0 ((now : Int) - w) (zset now (db.zsets key)) =
      (stored db key).filter fun e => decide (now < e.1 + w) := by
  have hfilter : ∀ z : ZSet String, zremrangebyscore 0 ((now : Int) - w) z =
      z.filter fun e => decide (now < e.1 + w) := by
    intro z
    refine filter_congr fun e _ => ?_
    have h0 : (0 : Int) ≤ e.1 := by omega
    simp only [h0, decide_true, Bool.true_and, ← decide_not, decide_eq_decide]
    omega
  rw [hfilter]
  cases hk : db.zsets key with
  | none => simp [stored, hk, zset]
  | some k =>
    by_cases hlive : ∀ x ∈ k.expireAt, (now : Int) ≤ x
    · have : live now (some k) = some k := live_eq_some.mpr ⟨rfl, hlive⟩
      simp [stored, hk, zset, this]
    · -- the key is gone, and nothing it held was recent
      have hgone : live (now : Int) (some k) = none := by
        rw [Option.eq_none_iff_forall_ne_some]
        intro v hv
        obtain ⟨hkv, hx⟩ := live_eq_some.mp hv
        cases hkv
        exact hlive hx
      push Not at hlive
      obtain ⟨x, hx, hlt⟩ := hlive
      have hnone : k.val.filter (fun e => decide (now < e.1 + w)) = [] := by
        refine filter_eq_nil_iff.mpr fun e he => ?_
        have := h.outlives k hk e he x hx
        simp only [decide_eq_true_eq]
        omega
      simp [stored, hk, zset, hgone, hnone]

theorem stored_zstore (db : Store) (key : String) (now : Int) (old : Option (Keyed (ZSet String)))
    (z : ZSet String) :
    stored { db with zsets := Function.update db.zsets key (zstore now old z) } key = z := by
  simp only [stored, Function.update_self, zstore]
  split
  next hemp => simpa using (isEmpty_iff.mp hemp).symm
  next => rfl

theorem Tracks.purge (h : Tracks w last db key log) (hle : last ≤ now)
    {zs : Option (Keyed (ZSet String))} (hzs : zs = zstore now (db.zsets key)
      (zremrangebyscore 0 ((now : Int) - w) (zset now (db.zsets key)))) :
    Tracks w now { db with zsets := Function.update db.zsets key zs } key log := by
  -- whatever is written back was in the key before, under the same expiry
  have hinv : ∀ k, zs = some k → ∃ k₀, db.zsets key = some k₀ ∧ k.expireAt = k₀.expireAt ∧
      ∀ e ∈ k.val, e ∈ k₀.val := by
    intro k hk
    rw [hzs, zstore] at hk
    split at hk
    next => cases hk
    next hne =>
      cases hlive : live now (db.zsets key) with
      | none => simp [zset, hlive, zremrangebyscore] at hne
      | some k₀ =>
        have hk₀ := (live_eq_some.mp hlive).1
        simp only [hlive, Option.bind_some, Option.some.injEq] at hk
        subst hk
        exact ⟨k₀, hk₀, rfl, fun e he => zset_subset hk₀ e (mem_of_mem_filter he)⟩
  have hstored : stored { db with zsets := Function.update db.zsets key zs } key =
      (stored db key).filter fun e => decide (now < e.1 + w) := by
    rw [← kept_eq h now, hzs, stored_zstore]
  constructor
  case times =>
    intro t ht
    have hmap : ((stored db key).filter fun e => decide (now < e.1 + w)).map Prod.fst =
        recentTimes w now ((stored db key).map Prod.fst) := by
      rw [recentTimes, filter_map]
      rfl
    rw [hstored, hmap, recentTimes_recentTimes ht, h.times t (hle.trans ht)]
  case past =>
    intro k hk e he
    obtain ⟨k₀, hk₀, -, hsub⟩ := hinv k (by simpa using hk)
    exact (h.past k₀ hk₀ e (hsub e he)).trans hle
  case outlives =>
    intro k hk e he x hx
    obtain ⟨k₀, hk₀, hexp, hsub⟩ := hinv k (by simpa using hk)
    exact h.outlives k₀ hk₀ e (hsub e he) x (hexp ▸ hx)
  case counted =>
    intro k hk
    obtain ⟨k₀, hk₀, hexp, hsub⟩ := hinv k (by simpa using hk)
    obtain ⟨c, hc, hcexp, hall⟩ := h.counted k₀ hk₀
    exact ⟨c, hc, hcexp.trans hexp.symm, fun e he => hall e (hsub e he)⟩

theorem expireMs_pos : ¬ expireMs w ≤ 0 := by
  unfold expireMs
  omega

theorem le_expireMs (w : Nat) : (w : Int) ≤ expireMs w := by
  unfold expireMs
  omega

theorem Tracks.stored_past (h : Tracks w last db key log) : ∀ e ∈ stored db key, e.1 ≤ last := by
  intro e he
  cases hk : db.zsets key with
  | none => simp [stored, hk] at he
  | some k => exact h.past k hk e (by simpa [stored, hk] using he)

/-- The counter is alive whenever the set is, so its next value is new. -/
theorem Tracks.below_seq (h : Tracks w now db key log)
    (hlive : ∀ k, db.zsets key = some k → ∀ x ∈ k.expireAt, (now : Int) ≤ x) :
    ∀ e ∈ stored db key, ∃ s q, e.2 = member s q ∧
      q < (incr now (db.counters (seqKey key))).val := by
  intro e he
  cases hk : db.zsets key with
  | none => simp [stored, hk] at he
  | some k =>
    obtain ⟨c, hc, hexp, hall⟩ := h.counted k hk
    have hclive : live now (some c) = some c :=
      live_eq_some.mpr ⟨rfl, fun x hx => hlive k hk x (hexp ▸ hx)⟩
    obtain ⟨s, q, hmem, hq⟩ := hall e (by simpa [stored, hk] using he)
    refine ⟨s, q, hmem, ?_⟩
    rw [incr, hc, hclive]
    exact Nat.lt_succ_of_le hq

theorem Tracks.record {w now : Nat} {db : Store} {key : String} {log : List Nat}
    (h : Tracks w now db key log)
    (hlive : ∀ k, db.zsets key = some k → ∀ x ∈ k.expireAt, (now : Int) ≤ x) :
    Tracks w now (record db key w now (stored db key)) key (log ++ [now]) := by
  set seq := incr now (db.counters (seqKey key)) with hseq
  have hbelow : ∀ e ∈ stored db key, ∃ s q, e.2 = member s q ∧ q < seq.val := h.below_seq hlive
  have hadd : zadd now (member now seq.val) (stored db key) =
      stored db key ++ [(now, member now seq.val)] := by
    refine zadd_fresh fun e he heq => ?_
    obtain ⟨s, q, hmem, hq⟩ := hbelow e he
    have := (member_inj (hmem.symm.trans heq)).2
    omega
  have hpast : ∀ e ∈ stored db key ++ [(now, member now seq.val)], e.1 ≤ now := by
    intro e he
    rcases mem_append.mp he with he | he
    · exact h.stored_past e he
    · rw [mem_singleton.mp he]
  have hset : (RateLimit.record db key w now (stored db key)).zsets key =
      some { val := stored db key ++ [(now, member now seq.val)]
             expireAt := some (now + expireMs w) } := by
    simp only [RateLimit.record, Function.update_self, ← hseq, hadd, zstore, expire, expireMs_pos,
      if_false]
    simp
  have hctr : (RateLimit.record db key w now (stored db key)).counters (seqKey key) =
      some { seq with expireAt := some (now + expireMs w) } := by
    simp [RateLimit.record, ← hseq, expire, expireMs_pos]
  constructor
  case times =>
    intro t ht
    rw [stored, hset]
    simp only [Option.map_some, Option.getD_some, map_append, map_cons, map_nil]
    rw [recentTimes_append, recentTimes_append, h.times t ht]
  case past =>
    intro k hk e he
    rw [hset, Option.some.injEq] at hk
    subst hk
    exact hpast e he
  case outlives =>
    intro k hk e he x hx
    rw [hset, Option.some.injEq] at hk
    subst hk
    have hle : e.1 ≤ now := hpast e he
    have := le_expireMs w
    simp only [Option.mem_def, Option.some.injEq] at hx
    omega
  case counted =>
    intro k hk
    rw [hset, Option.some.injEq] at hk
    subst hk
    refine ⟨_, hctr, rfl, fun e he => ?_⟩
    rcases mem_append.mp he with he | he
    · obtain ⟨s, q, hmem, hq⟩ := hbelow e he
      exact ⟨s, q, hmem, hq.le⟩
    · rw [mem_singleton.mp he]
      exact ⟨now, seq.val, rfl, le_rfl⟩

def logged (limit : Int) (w : Nat) (log : List Nat) (cost : Int) (now : Nat) : List Nat :=
  if ((recentTimes w now log).length : Int) + cost ≤ limit ∧ 0 < cost then log ++ [now] else log

/-- **One call.** The script decides by the recent entries, and adds the call iff it is allowed and
costs. -/
theorem allow_tracks {window : Int} (hw : milliseconds window = w) (limit cost : Int)
    (h : Tracks w last db key log) (hle : last ≤ now) :
    (allow db key limit cost window now).2.allowed =
        decide (((recentTimes w now log).length : Int) + cost ≤ limit) ∧
      Tracks w now (allow db key limit cost window now).1 key (logged limit w log cost now) := by
  set kept := zremrangebyscore 0 ((now : Int) - w) (zset now (db.zsets key)) with hkept
  have hlen : kept.length = (recentTimes w now log).length := by
    rw [hkept, kept_eq h now, ← h.times now hle, recentTimes, filter_map, length_map]
    rfl
  set purged : Store :=
    { db with zsets := Function.update db.zsets key (zstore now (db.zsets key) kept) } with hpurged
  have hpurge : Tracks w now purged key log := h.purge hle rfl
  have hstored : stored purged key = kept := stored_zstore ..
  have hlive : ∀ k, purged.zsets key = some k → ∀ x ∈ k.expireAt, (now : Int) ≤ x := by
    intro k hk x hx
    simp only [hpurged, Function.update_self, zstore] at hk
    split at hk
    · cases hk
    · rw [Option.some.injEq] at hk
      subst hk
      obtain ⟨k₀, hk₀, hx₀⟩ := Option.bind_eq_some_iff.mp hx
      exact (live_eq_some.mp hk₀).2 x hx₀
  by_cases hfit : ((recentTimes w now log).length : Int) + cost ≤ limit
  · have hscript : slidingWindowScript db key limit w cost now =
        (if 0 < cost then record purged key w now kept else purged, 1,
          limit - kept.length - cost, 0) := by
      simp only [slidingWindowScript, ← hkept, hlen, hfit, if_true, ← hpurged]
    rw [allow, hw, hscript]
    refine ⟨by simp [hfit], ?_⟩
    by_cases hcost : 0 < cost
    · have := hpurge.record hlive
      rw [hstored] at this
      simpa [logged, hfit, hcost] using this
    · simpa [logged, hcost] using hpurge
  · rw [allow, hw, slidingWindowScript]
    simp only [← hkept, hlen, hfit, if_false, ← hpurged]
    refine ⟨by simp, ?_⟩
    simpa [logged, hfit] using hpurge

theorem seqKey_injective : Function.Injective seqKey := by
  intro a b h
  have := congrArg String.toList h
  simp only [seqKey, String.toList_append] at this
  exact String.toList_inj.mp (append_cancel_right this)

theorem allow_frame {db : Store} {key key' : String} (limit cost window : Int) (now : Nat)
    (hne : key' ≠ key) :
    (allow db key limit cost window now).1.zsets key' = db.zsets key' ∧
      (allow db key limit cost window now).1.counters (seqKey key') =
        db.counters (seqKey key') := by
  have hseq : seqKey key' ≠ seqKey key := fun h => hne (seqKey_injective h)
  simp only [allow, slidingWindowScript]
  split_ifs <;> simp [record, hne, hseq]

end LlmRouter.RateLimit
