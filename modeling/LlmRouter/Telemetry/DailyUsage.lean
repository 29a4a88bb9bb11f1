import LlmRouter.Gateway.Provider
import LlmRouter.Lib.Tally

/-!
# LlmRouter — the request log and the daily usage

`LogStore.BatchInsert` writes a batch of entries to `request_logs` and adds them to `daily_usage`:
grouped in a map, with one upsert for each group in any order. An error of the upserts is dropped.
A row has the team of the first entry that it was made for.

Costs are whole numbers of `10⁻⁸` dollars, the scale of the columns. The columns round a cost that
is not, and a `float64` sum may be off in its last digits; neither is part of the model.
-/

namespace LlmRouter.Usage

open Lib.Tally List
open Gateway (goQuote)

/-- The columns of `daily_usage` that are summed. -/
inductive Column where
  | requestCount | promptTokens | completionTokens | totalTokens | costUSD | errorCount
  deriving DecidableEq, Repr

abbrev Counts := Column → Int

/-- `telemetry.LogEntry`, as far as the usage goes; costs are in units of `10⁻⁸` dollars. -/
structure LogEntry where
  timestamp : Int
  model : String
  provider : String
  virtualKeyID : Option String := none
  teamID : Option String := none
  promptTokens : Int := 0
  completionTokens : Int := 0
  totalTokens : Int := 0
  costUSD : Int := 0
  statusCode : Int := 200
  errorCode : String := ""
  deriving DecidableEq, Repr

/-- The primary key of `daily_usage`; the date is a number of days in UTC. -/
structure Key where
  date : Int
  model : String
  provider : String
  virtualKeyID : String
  deriving DecidableEq, Repr

def sentinelKeyID : String := "00000000-0000-0000-0000-000000000000"

def LogEntry.key (e : LogEntry) : Key where
  date := e.timestamp / (24 * 3600 * 1000000000)
  model := e.model
  provider := e.provider
  virtualKeyID := e.virtualKeyID.getD sentinelKeyID

/-- What an entry adds to the columns of its row. -/
def LogEntry.counts (e : LogEntry) : Counts
  | .requestCount => 1
  | .promptTokens => e.promptTokens
  | .completionTokens => e.completionTokens
  | .totalTokens => e.totalTokens
  | .costUSD => e.costUSD
  | .errorCount => if 500 ≤ e.statusCode ∨ e.errorCode ≠ "" then 1 else 0

/-- A row of `daily_usage`, with the team as its data. -/
abbrev UsageRow := Row Key (Option String) Counts

def LogEntry.row (e : LogEntry) : UsageRow :=
  { key := e.key, data := e.teamID, amount := e.counts }

/-- The rows that the entries with a model ask for. -/
def usageRows (entries : List LogEntry) : List UsageRow :=
  (entries.filter fun e => decide (e.model ≠ "")).map LogEntry.row

/-- The map `grouped` of `upsertDailyUsage`. -/
def grouped (entries : List LogEntry) : List UsageRow := upserts [] (usageRows entries)

/-- A call of `BatchInsert`: how inserts and upserts end, and the order in which the map is
iterated. -/
structure Batch where
  entries : List LogEntry
  insertErr : Option String := none
  upserted : Bool := true
  order : List UsageRow
  order_perm : order.Perm (grouped entries)

structure Tables where
  requestLogs : List LogEntry := []
  dailyUsage : List UsageRow := []

def batchInsert (s : Tables) (b : Batch) : Tables × Except String Unit :=
  if b.entries.isEmpty then (s, .ok ())
  else
    match b.insertErr with
    | some err => (s, .error ("batch log insert: " ++ err))
    | none =>
      ({ requestLogs := s.requestLogs ++ b.entries
         dailyUsage := if b.upserted then upserts s.dailyUsage b.order else s.dailyUsage }, .ok ())

def run (s : Tables) (bs : List Batch) : Tables := bs.foldl (fun s b => (batchInsert s b).1) s

/-- `UsageStore.GetSummary`; the dates are numbers of days. -/
def getSummary (s : Tables) (entityType entityID : String) (start stop : Int) :
    Except String Counts :=
  let between (k : Key) : Bool := decide (start ≤ k.date ∧ k.date ≤ stop)
  if entityType = "key" then
    .ok (total (fun r => decide (r.key.virtualKeyID = entityID) && between r.key) s.dailyUsage)
  else if entityType = "team" then
    .ok (total (fun r => decide (r.data = some entityID) && between r.key) s.dailyUsage)
  else .error ("unsupported entity type: " ++ goQuote entityType)

/-! ### What the batches add -/

def Batch.logged (b : Batch) : List LogEntry := if b.insertErr.isNone then b.entries else []

/-- The entries that were inserted and added to the usage. -/
def Batch.added (b : Batch) : List LogEntry := if b.upserted then b.logged else []

/-- The sum of the entries with a model that `p` selects. -/
def logTotal (p : LogEntry → Bool) (entries : List LogEntry) : Counts :=
  (((entries.filter fun e => decide (e.model ≠ "")).filter p).map LogEntry.counts).sum

theorem total_usageRows (p : UsageRow → Bool) (entries : List LogEntry) :
    total p (usageRows entries) = logTotal (fun e => p e.row) entries := by
  unfold total usageRows logTotal
  rw [filter_map, map_map]
  rfl

theorem logTotal_append (p : LogEntry → Bool) (a b : List LogEntry) :
    logTotal p (a ++ b) = logTotal p a + logTotal p b := by
  simp [logTotal]

/-- Whatever becomes of a batch, the rows of the entries that were added are upserted, in
some order. -/
theorem batchInsert_spec (s : Tables) (b : Batch) :
    ∃ rows : List UsageRow, rows.Perm (grouped b.added) ∧ (batchInsert s b).1 =
      { requestLogs := s.requestLogs ++ b.logged, dailyUsage := upserts s.dailyUsage rows } := by
  unfold batchInsert Batch.added Batch.logged
  cases herr : b.insertErr with
  | some err =>
    refine ⟨[], by simp [grouped, usageRows, upserts], ?_⟩
    split <;> simp [upserts]
  | none =>
    by_cases hempty : b.entries.isEmpty
    · -- no statement is sent, and there is nothing to add
      rw [List.isEmpty_iff] at hempty
      exact ⟨[], by simp [hempty, grouped, usageRows, upserts], by simp [hempty, upserts]⟩
    · cases hup : b.upserted with
      | false => exact ⟨[], by simp [grouped, usageRows, upserts], by simp [hempty, upserts]⟩
      | true => exact ⟨b.order, by simpa using b.order_perm, by simp [hempty]⟩

theorem run_requestLogs (s : Tables) (bs : List Batch) :
    (run s bs).requestLogs = s.requestLogs ++ bs.flatMap Batch.logged := by
  unfold run
  induction bs generalizing s with
  | nil => simp
  | cons b bs ih =>
    obtain ⟨rows, -, hspec⟩ := batchInsert_spec s b
    rw [foldl_cons, ih, hspec, flatMap_cons, append_assoc]

theorem run_total (g : Key → Bool) (s : Tables) (bs : List Batch) :
    total (fun r => g r.key) (run s bs).dailyUsage =
      total (fun r => g r.key) s.dailyUsage +
        logTotal (fun e => g e.key) (bs.flatMap Batch.added) := by
  unfold run
  induction bs generalizing s with
  | nil => exact (add_zero _).symm
  | cons b bs ih =>
    obtain ⟨rows, hperm, hspec⟩ := batchInsert_spec s b
    -- the totals see neither the map nor its order
    have hrows : total (fun r => g r.key) rows = logTotal (fun e => g e.key) b.added := by
      rw [total_perm _ hperm, grouped, total_upserts, total_usageRows]
      exact zero_add _
    rw [foldl_cons, ih, hspec, total_upserts, hrows, flatMap_cons, logTotal_append, add_assoc]

/-- Every row has the team that the key of its entries determines. -/
theorem run_team {team : Key → Option String} {s : Tables} {bs : List Batch}
    (hs : ∀ r ∈ s.dailyUsage, r.data = team r.key)
    (hbs : ∀ e ∈ bs.flatMap Batch.added, e.teamID = team e.key) :
    ∀ r ∈ (run s bs).dailyUsage, r.data = team r.key := by
  unfold run
  induction bs generalizing s with
  | nil => exact hs
  | cons b bs ih =>
    obtain ⟨rows, hperm, hspec⟩ := batchInsert_spec s b
    rw [flatMap_cons, forall_mem_append] at hbs
    have hadded : ∀ r ∈ usageRows b.added, r.data = team r.key := by
      intro r hr
      obtain ⟨e, he, rfl⟩ := mem_map.mp hr
      exact hbs.1 e (mem_of_mem_filter he)
    have hrows : ∀ r ∈ rows, r.data = team r.key := fun r hr =>
      forall_upserts (Q := fun k d => d = team k) (forall_mem_nil _) hadded r
        (hperm.mem_iff.mp hr)
    refine ih ?_ hbs.2
    show ∀ r ∈ (batchInsert s b).1.dailyUsage, _
    rw [hspec]
    exact forall_upserts (Q := fun k d => d = team k) hs hrows

/-- **The usage of a key is that of its log.** Whatever fails and in whatever order maps are
iterated, the log holds the entries of the batches that were inserted, and the summary of a key is
the sum over its entries, with a model and a date in the range, whose upserts have succeeded. Costs
are whole multiples of `10⁻⁸` dollars. -/
theorem key_summary_of_log (bs : List Batch) (id : String) (start stop : Int) :
    (run {} bs).requestLogs = bs.flatMap Batch.logged ∧
      getSummary (run {} bs) "key" id start stop =
        .ok (logTotal (fun e => decide (e.virtualKeyID.getD sentinelKeyID = id) &&
          decide (start ≤ e.key.date ∧ e.key.date ≤ stop)) (bs.flatMap Batch.added)) := by
  refine ⟨run_requestLogs {} bs, ?_⟩
  have htotal := run_total (fun k => decide (k.virtualKeyID = id) &&
    decide (start ≤ k.date ∧ k.date ≤ stop)) {} bs
  unfold getSummary
  rw [if_pos rfl, htotal]
  exact congrArg Except.ok (zero_add _)

/-- **The usage of a team is that of its log**, if the entries of a row agree on the team. -/
theorem team_summary_of_log {bs : List Batch}
    (hteam : ∀ e ∈ bs.flatMap Batch.added, ∀ e' ∈ bs.flatMap Batch.added,
      e.key = e'.key → e.teamID = e'.teamID) (id : String) (start stop : Int) :
    getSummary (run {} bs) "team" id start stop =
      .ok (logTotal (fun e => decide (e.teamID = some id) &&
        decide (start ≤ e.key.date ∧ e.key.date ≤ stop)) (bs.flatMap Batch.added)) := by
  have hfind : ∃ team : Key → Option String,
      ∀ e ∈ bs.flatMap Batch.added, e.teamID = team e.key := by
    refine ⟨fun k => ((bs.flatMap Batch.added).find? fun e => decide (e.key = k)).bind
      LogEntry.teamID, fun e he => ?_⟩
    cases hfirst : (bs.flatMap Batch.added).find? fun e' => decide (e'.key = e.key) with
    | none => simpa using find?_eq_none.mp hfirst e he
    | some e' =>
      have hkey : e'.key = e.key := by simpa using find?_some hfirst
      show e.teamID = (find? _ _).bind _
      rw [hfirst]
      exact (hteam e' (mem_of_find?_eq_some hfirst) e he hkey).symm
  obtain ⟨team, hentries⟩ := hfind
  have hrows := run_team (s := {}) (forall_mem_nil _) hentries
  -- on the rows and on the entries, the team is a matter of the key
  have htotal := run_total (fun k => decide (team k = some id) &&
    decide (start ≤ k.date ∧ k.date ≤ stop)) {} bs
  unfold getSummary
  rw [if_neg (by decide), if_pos rfl, total_congr fun r hr => by rw [hrows r hr], htotal]
  refine congrArg Except.ok ((zero_add _).trans ?_)
  unfold logTotal
  rw [filter_congr fun e he => by rw [← hentries e (mem_of_mem_filter he)]]

def oneTeam (cost : Int) : Batch where
  entries :=
    [{ timestamp := 0, model := "m", provider := "p", teamID := some "t", costUSD := cost }]
  order := grouped _
  order_perm := .refl _

theorem team_summary_of_two_batches :
    (getSummary (run {} [oneTeam 10, oneTeam 20]) "team" "t" 0 0).map (· .costUSD) = .ok 30 := by
  rw [team_summary_of_log (by decide)]
  rfl

end LlmRouter.Usage
