import Mathlib.Algebra.BigOperators.Group.List.Basic
import Mathlib.Tactic.Ring

/-!
# LlmRouter — chargeback reports

`ChargebackService.BuildReport` charges every team its cost with the markup that applies to it.
The flat addition is meant for every request, but `Apply` sees the cost of a whole period and adds
it once. Amounts are exact.
-/

namespace LlmRouter.Billing

/-- `MarkupConfig`, without the names that only the store uses. -/
structure MarkupConfig where
  percentage : ℚ
  fixedUSD : ℚ
  capUSD : ℚ
  deriving DecidableEq, Repr

def MarkupConfig.apply (m : MarkupConfig) (baseCost : ℚ) : ℚ :=
  let markup := baseCost * m.percentage / 100
  let markup := if 0 < m.capUSD ∧ m.capUSD < markup then m.capUSD else markup
  baseCost + markup + m.fixedUSD

structure TeamUsage where
  teamID : String
  teamName : String
  costUSD : ℚ
  tokens : Int
  requests : Int
  deriving DecidableEq, Repr

structure ModelBreakdown where
  model : String
  costUSD : ℚ
  tokens : Int
  deriving DecidableEq, Repr

structure TagBreakdown where
  tag : String
  costUSD : ℚ
  deriving DecidableEq, Repr

/-- `Store`, as it answers during one report: values and errors. -/
structure Store where
  getMarkupConfig : (teamID : Option String) → Option MarkupConfig × Option String
  getTeamUsage : (start stop : Int) → Except String (List TeamUsage)
  getModelBreakdown : (teamID : String) → (start stop : Int) → List ModelBreakdown
  getTagBreakdown : (teamID : String) → (start stop : Int) → List TagBreakdown

structure TeamChargebackEntry where
  teamID : String
  teamName : String
  costUSD : ℚ
  markupUSD : ℚ
  totalChargedUSD : ℚ
  tokens : Int
  requests : Int
  byModel : List ModelBreakdown
  byProject : List TagBreakdown

structure ChargebackReport where
  period : String
  generatedAt : Int
  currency : String := "USD"
  totalCostUSD : ℚ := 0
  totalTokens : Int := 0
  totalRequests : Int := 0
  byTeam : List TeamChargebackEntry := []

variable (s : Store) (start stop : Int)

/-- The markup that applies to a team: the global one where its own cannot be read. -/
def Store.markup (teamID : String) : Option MarkupConfig :=
  match s.getMarkupConfig (some teamID) with
  | (markup, none) => markup
  | (_, some _) => (s.getMarkupConfig none).1

def Store.entry (tu : TeamUsage) : TeamChargebackEntry :=
  let chargedUSD := match s.markup tu.teamID with
    | some markup => markup.apply tu.costUSD
    | none => tu.costUSD
  let markupUSD := match s.markup tu.teamID with
    | some _ => chargedUSD - tu.costUSD
    | none => 0
  { teamID := tu.teamID, teamName := tu.teamName, costUSD := tu.costUSD, markupUSD := markupUSD
    totalChargedUSD := chargedUSD, tokens := tu.tokens, requests := tu.requests
    byModel := s.getModelBreakdown tu.teamID start stop
    byProject := s.getTagBreakdown tu.teamID start stop }

def Store.addTeam (report : ChargebackReport) (tu : TeamUsage) : ChargebackReport :=
  { report with
    totalCostUSD := report.totalCostUSD + tu.costUSD
    totalTokens := report.totalTokens + tu.tokens
    totalRequests := report.totalRequests + tu.requests
    byTeam := report.byTeam ++ [s.entry start stop tu] }

def Store.buildReport (format : Int → String) (now : Int) : Except String ChargebackReport := do
  let teams ← s.getTeamUsage start stop
  return teams.foldl (s.addTeam start stop) { period := format start, generatedAt := now }

/-- The entry is as documented: without a cap, a percentage of the cost and a flat addition per
request. -/
structure Charged (tu : TeamUsage) (e : TeamChargebackEntry) : Prop where
  cost : e.costUSD = tu.costUSD
  markup : e.markupUSD + e.costUSD = e.totalChargedUSD
  total : ∀ m, s.markup tu.teamID = some m → ¬ 0 < m.capUSD →
    e.totalChargedUSD = tu.costUSD * (1 + m.percentage / 100) + m.fixedUSD * tu.requests

structure Complete (teams : List TeamUsage) (report : ChargebackReport) : Prop where
  byTeam : List.Forall₂ (Charged s) teams report.byTeam
  totalCostUSD : report.totalCostUSD = (teams.map TeamUsage.costUSD).sum
  totalTokens : report.totalTokens = (teams.map TeamUsage.tokens).sum
  totalRequests : report.totalRequests = (teams.map TeamUsage.requests).sum

variable {s start stop}

theorem foldl_addTeam (teams : List TeamUsage) (report : ChargebackReport) :
    teams.foldl (s.addTeam start stop) report =
      { report with
        totalCostUSD := report.totalCostUSD + (teams.map TeamUsage.costUSD).sum
        totalTokens := report.totalTokens + (teams.map TeamUsage.tokens).sum
        totalRequests := report.totalRequests + (teams.map TeamUsage.requests).sum
        byTeam := report.byTeam ++ teams.map (s.entry start stop) } := by
  induction teams generalizing report with
  | nil => simp
  | cons tu teams ih =>
    rw [List.foldl_cons, ih]
    simp [Store.addTeam, add_assoc]

theorem charged_entry_iff (tu : TeamUsage) :
    Charged s tu (s.entry start stop tu) ↔
      ∀ m, s.markup tu.teamID = some m → ¬ 0 < m.capUSD → m.fixedUSD = 0 ∨ tu.requests = 1 := by
  have hmarkup : (s.entry start stop tu).markupUSD + (s.entry start stop tu).costUSD =
      (s.entry start stop tu).totalChargedUSD := by
    unfold Store.entry
    cases s.markup tu.teamID with
    | none => exact zero_add _
    | some m => exact sub_add_cancel _ _
  have htotal : ∀ m, s.markup tu.teamID = some m → ¬ 0 < m.capUSD →
      (s.entry start stop tu).totalChargedUSD =
        tu.costUSD * (1 + m.percentage / 100) + m.fixedUSD := by
    intro m hm hcap
    simp only [Store.entry, hm, MarkupConfig.apply, hcap, false_and, if_false]
    ring
  -- both sides differ by the addition for the other requests
  have hsame : ∀ m : MarkupConfig, m.fixedUSD = m.fixedUSD * tu.requests ↔
      m.fixedUSD = 0 ∨ tu.requests = 1 := by
    intro m
    rw [eq_comm, mul_right_eq_self₀, Int.cast_eq_one, or_comm]
  refine ⟨fun h m hm hcap => ?_, fun h => ⟨rfl, hmarkup, fun m hm hcap => ?_⟩⟩
  · exact (hsame m).mp (add_left_cancel ((htotal m hm hcap).symm.trans (h.total m hm hcap)))
  · rw [htotal m hm hcap]
    exact congrArg _ ((hsame m).mpr (h m hm hcap))

/-- **Chargeback.** For every list of usages and every markup, the report charges every team as
documented, splits the charge into cost and markup and sums the teams up, iff each team with a flat
addition and no cap made one request. -/
theorem charged_iff {teams : List TeamUsage} (hteams : s.getTeamUsage start stop = .ok teams)
    (format : Int → String) (now : Int) :
    (∃ report, s.buildReport start stop format now = .ok report ∧ Complete s teams report) ↔
      ∀ tu ∈ teams, ∀ m, s.markup tu.teamID = some m → ¬ 0 < m.capUSD →
        m.fixedUSD = 0 ∨ tu.requests = 1 := by
  have hreport : s.buildReport start stop format now =
      .ok (teams.foldl (s.addTeam start stop) { period := format start, generatedAt := now }) := by
    rw [Store.buildReport, hteams]
    rfl
  have hentries : List.Forall₂ (Charged s) teams (teams.map (s.entry start stop)) ↔
      ∀ tu ∈ teams, ∀ m, s.markup tu.teamID = some m → ¬ 0 < m.capUSD →
        m.fixedUSD = 0 ∨ tu.requests = 1 := by
    rw [List.forall₂_map_right_iff, List.forall₂_same]
    exact forall₂_congr fun tu _ => charged_entry_iff tu
  rw [← hentries, hreport, foldl_addTeam]
  constructor
  · rintro ⟨report, ⟨⟩, hcomplete⟩
    simpa using hcomplete.byTeam
  · intro h
    exact ⟨_, rfl, by simpa using h, zero_add _, zero_add _, zero_add _⟩

def twoTeams (requests : Int) : List TeamUsage :=
  [⟨"t1", "Search", 100, 5000, requests⟩, ⟨"t2", "Ads", 50, 2000, 30⟩]

/-- Twenty percent and ten cents, with a cap of five dollars for the second team. -/
def tenCents (requests : Int) : Store where
  getMarkupConfig team := (some ⟨20, 1 / 10, if team = some "t2" then 5 else 0⟩, none)
  getTeamUsage _ _ := .ok (twoTeams requests)
  getModelBreakdown _ _ _ := []
  getTagBreakdown _ _ _ := []

theorem charged_one_and_capped : ∃ report,
    (tenCents 1).buildReport 0 1 (fun _ => "1970-01") 2 = .ok report ∧
      Complete (tenCents 1) (twoTeams 1) report := by
  refine (charged_iff rfl _ _).mpr fun tu htu m hm hcap => ?_
  rcases List.mem_pair.mp htu with rfl | rfl
  · exact .inr rfl
  · obtain rfl := Option.some.inj hm
    exact absurd (by decide) hcap

theorem flat_addition_once : ∃ report,
    (tenCents 1000).buildReport 0 1 (fun _ => "1970-01") 2 = .ok report ∧
      report.byTeam.map TeamChargebackEntry.totalChargedUSD = [1201 / 10, 551 / 10] ∧
      ¬ Complete (tenCents 1000) (twoTeams 1000) report := by
  refine ⟨_, rfl, by decide +kernel, fun h => ?_⟩
  obtain ⟨hcharged, -⟩ := List.forall₂_cons.mp h.byTeam
  have htotal := hcharged.total ⟨20, 1 / 10, 0⟩ rfl (by decide)
  exact absurd htotal (by decide +kernel)

end LlmRouter.Billing
