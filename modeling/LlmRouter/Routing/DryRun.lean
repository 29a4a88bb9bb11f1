import LlmRouter.Routing.Matching

/-!
# LlmRouter — the dry run of the routing rules

`AdminRoutingRulesHandler.DryRun` walks through the stored rules with a loop of its own, which
looks at the model and the metadata only. `dryRun_iff` says when the engine selects the rule that
it reports.
-/

namespace LlmRouter.Routing

open Lib Gateway Auth List

/-! ## The handler (internal/gateway/handler/admin_routing_rules.go) -/

/-- What `RoutingRuleStore.List` returns: `ORDER BY priority DESC`. -/
structure StoredRules where
  rules : List RouteRule
  sorted : rules.Pairwise fun a b => b.priority ≤ a.priority

structure DryRunRequest where
  model : String
  metadata : List (String × String)
  messages : Option (List Message)

def RouteRule.looksMatched (r : RouteRule) (req : DryRunRequest) : Bool :=
  if !r.enabled then false
  else if r.cond.model ≠ "" ∧ r.cond.model ≠ req.model then false
  else if r.cond.metadata ≠ [] ∧ ¬ pairsMatch r.cond.metadata req.metadata then false
  else true

def StoredRules.dryRunRule (s : StoredRules) (req : DryRunRequest) : Option RouteRule :=
  s.rules.find? fun r => r.looksMatched req

inductive DryRunReply where
  | invalidJSON
  | storeError
  | matched (matchedRule : String) (strategy : Strategy) (targets : List RuleTarget)
  | noMatch (message : String)
  deriving DecidableEq, Repr

def dryRun (body : Option DryRunRequest) (list : Option StoredRules) : DryRunReply :=
  match body, list with
  | none, _ => .invalidJSON
  | some _, none => .storeError
  | some req, some s =>
    match s.dryRunRule req with
    | some r => .matched r.name r.strategy r.targets
    | none => .noMatch "no matching rule found; default routing applies"

def dryRunOf (req : ChatCompletionRequest) : DryRunRequest where
  model := req.model
  metadata := req.metadata
  messages := req.messages

/-! ## What the dry run does not look at -/

structure RouteRule.UnseenMet (r : RouteRule) (go : GoLib) (vk : Option VirtualKey)
    (req : ChatCompletionRequest) : Prop where
  modelPrefix : r.cond.modelPrefix.toList <+: req.model.toList
  modelRegex : r.cond.modelRegex ≠ "" →
    ∃ re, go.compile r.cond.modelRegex = some re ∧ re req.model = true
  owner : r.cond.ownerMatches vk = true
  metadata : r.cond.metadata ≠ [] → req.metadata ≠ []
  minTokens : 0 < r.cond.minContextTokens →
    r.cond.minContextTokens ≤ estimateTokens (req.messages.getD [])
  maxTokens : 0 < r.cond.maxContextTokens →
    estimateTokens (req.messages.getD []) ≤ r.cond.maxContextTokens
  tools : r.cond.hasTools = true → req.tools ≠ []
  targets : r.targets ≠ []

theorem looksMatched_iff {r : RouteRule} {req : DryRunRequest} :
    r.looksMatched req = true ↔ r.enabled = true ∧
      (r.cond.model ≠ "" → r.cond.model = req.model) ∧
      (r.cond.metadata ≠ [] → pairsMatch r.cond.metadata req.metadata = true) := by
  simp only [RouteRule.looksMatched, test_iff, not_and, not_not, Bool.not_eq_true,
    Bool.not_eq_false, Bool.not_eq_eq_eq_not, Bool.not_true, and_true]

variable {go : GoLib}

/-- **A rule stops the engine** exactly when it passes the dry run and what the dry run does not
look at. -/
theorem stops_iff {cr : CompiledRule} (h : compileRule go cr.rule = some cr)
    (hen : cr.rule.enabled = true) {vk : Option VirtualKey} {req : ChatCompletionRequest} :
    cr.Stops vk req ↔
      cr.rule.looksMatched (dryRunOf req) = true ∧ cr.rule.UnseenMet go vk req := by
  rw [CompiledRule.Stops, matchesRequest_iff h, looksMatched_iff, dryRunOf]
  constructor
  · rintro ⟨hmeets, htargets⟩
    have howner := ownerMatches_iff.mpr ⟨hmeets.keyID, hmeets.userID, hmeets.teamID, hmeets.orgID⟩
    obtain ⟨hnonempty, hpairs⟩ := metadata_iff.mp hmeets.metadata
    exact ⟨⟨hen, fun hne => (hmeets.model hne).symm, hpairs⟩,
      prefix_iff.mp hmeets.modelPrefix, hmeets.modelRegex, howner, hnonempty, hmeets.minTokens,
      hmeets.maxTokens, hmeets.tools, htargets⟩
  · rintro ⟨⟨-, hmodel, hpairs⟩, hunseen⟩
    obtain ⟨hkey, huser, hteam, horg⟩ := ownerMatches_iff.mp hunseen.owner
    exact ⟨⟨fun hne => (hmodel hne).symm, prefix_iff.mpr hunseen.modelPrefix, hunseen.modelRegex,
      hkey, huser, hteam, horg, metadata_iff.mpr ⟨hunseen.metadata, hpairs⟩, hunseen.minTokens,
      hunseen.maxTokens, hunseen.tools⟩, hunseen.targets⟩

/-! ## The law -/

def Predicts (s : StoredRules) (ar : AdvancedRouter) (go : GoLib) (rand : Rand)
    (vk : Option VirtualKey) (req : ChatCompletionRequest) : Prop :=
  ∀ r, s.dryRunRule (dryRunOf req) = some r ↔ ∃ chain, ar.resolve go rand vk req = .selected r chain

/-- No rule of the same priority that stands before this one in the engine stops it. -/
def NoRival (ar : AdvancedRouter) (go : GoLib) (vk : Option VirtualKey)
    (req : ChatCompletionRequest) (r : RouteRule) : Prop :=
  ∃ pre cr post, ar.rules = pre ++ cr :: post ∧ cr.rule = r ∧
    ∀ q ∈ pre, q.rule.priority = r.priority →
      ¬ (q.rule.looksMatched (dryRunOf req) = true ∧ q.rule.UnseenMet go vk req)

structure Loaded (s : StoredRules) (go : GoLib) (ar : AdvancedRouter) : Prop where
  mem : ∀ cr ∈ ar.rules, cr.rule ∈ s.rules ∧ cr.rule.enabled = true ∧
    compileRule go cr.rule = some cr
  ordered : ar.rules.Pairwise fun a b => b.rule.priority ≤ a.rule.priority

theorem loaded_of_reload {s : StoredRules} {ar₀ ar : AdvancedRouter}
    (h : ar₀.reload go s.rules = (ar, .ok ())) : Loaded s go ar := by
  unfold AdvancedRouter.reload at h
  cases hcompile : compileRules go s.rules with
  | error e =>
    rw [hcompile] at h
    cases h
  | ok crs =>
    rw [hcompile] at h
    obtain ⟨rfl, -⟩ := Prod.mk.inj h
    obtain ⟨hmap, hall⟩ := compileRules_ok hcompile
    refine ⟨fun cr hmem => ?_, (go.sortRules.ordered crs).imp fun hbefore => ?_⟩
    · have hin : cr ∈ crs := go.sortRules.mem_sort.mp hmem
      have hrule : cr.rule ∈ crs.map CompiledRule.rule := mem_map_of_mem hin
      rw [hmap] at hrule
      obtain ⟨hstored, hen⟩ := mem_filter.mp hrule
      exact ⟨hstored, hen, hall cr hin⟩
    · simpa [CompiledRule.before] using hbefore

section Law

variable {s : StoredRules} {go : GoLib} {ar : AdvancedRouter} {vk : Option VirtualKey}
  {req : ChatCompletionRequest}

theorem Loaded.stops_iff (h : Loaded s go ar) {cr : CompiledRule} (hmem : cr ∈ ar.rules) :
    cr.Stops vk req ↔
      cr.rule.looksMatched (dryRunOf req) = true ∧ cr.rule.UnseenMet go vk req := by
  obtain ⟨-, hen, hcompile⟩ := h.mem cr hmem
  exact Routing.stops_iff hcompile hen

theorem not_looksMatched_of_lt {pre post : List RouteRule} {r q : RouteRule}
    (hrules : s.rules = pre ++ r :: post) (hpre : ∀ q ∈ pre, ¬ q.looksMatched (dryRunOf req) = true)
    (hq : q ∈ s.rules) (hlt : r.priority < q.priority) :
    ¬ q.looksMatched (dryRunOf req) = true := by
  have hsorted := s.sorted
  rw [hrules] at hq hsorted
  rcases mem_append.mp hq with hbefore | hafter
  · exact hpre q hbefore
  · have hrest := (pairwise_append.mp hsorted).2.1
    rcases mem_cons.mp hafter with rfl | hafter
    · omega
    · have := (pairwise_cons.mp hrest).1 q hafter
      omega

end Law

/-- **A dry run predicts the routing** of every chat request with the same model, metadata and
messages iff the first enabled rule whose model and metadata it passes is also met in all that the
dry run does not look at, can draw a target, and has no rival of its priority before it. -/
theorem dryRun_iff {ar₀ : AdvancedRouter} (hload : ar₀.reload go s.rules = (ar, .ok ()))
    (rand : Rand) (vk : Option VirtualKey) (req : ChatCompletionRequest) :
    Predicts s ar go rand vk req ↔
      ∀ pre r post, s.rules = pre ++ r :: post → r.looksMatched (dryRunOf req) = true →
        (∀ q ∈ pre, ¬ q.looksMatched (dryRunOf req) = true) →
        r.UnseenMet go vk req ∧ r.WeightsOk ∧ NoRival ar go vk req r := by
  have h := loaded_of_reload hload
  have hfind : ∀ r, s.dryRunRule (dryRunOf req) = some r ↔
      r.looksMatched (dryRunOf req) = true ∧ ∃ pre post, s.rules = pre ++ r :: post ∧
        ∀ q ∈ pre, ¬ q.looksMatched (dryRunOf req) = true := by
    intro r
    simp [StoredRules.dryRunRule, find?_eq_some_iff_append]
  constructor
  · intro hpredicts pre r post hrules hlooks hpre
    have hchain := (hpredicts r).mp ((hfind r).mpr ⟨hlooks, pre, post, hrules, hpre⟩)
    obtain ⟨pre', cr, post', hengine, rfl, hskipped, hstops, hweights⟩ :=
      (resolveLoop_selected_iff ar go rand).mp hchain
    have hmem : cr ∈ ar.rules := by simp [hengine]
    refine ⟨((h.stops_iff hmem).mp hstops).2, hweights, pre', cr, post', hengine, rfl, ?_⟩
    intro q hq _ hmet
    have hq' : q ∈ ar.rules := by simp [hengine, hq]
    exact hskipped q hq ((h.stops_iff hq').mpr hmet)
  · intro hcond
    -- the rule that the dry run finds is selected: nothing before it stops the engine
    have hforward : ∀ r, s.dryRunRule (dryRunOf req) = some r →
        ∃ chain, ar.resolve go rand vk req = .selected r chain := by
      intro r hdry
      obtain ⟨hlooks, pre, post, hrules, hpre⟩ := (hfind r).mp hdry
      obtain ⟨hunseen, hweights, pre', cr, post', hengine, rfl, hrival⟩ :=
        hcond pre r post hrules hlooks hpre
      refine (resolveLoop_selected_iff ar go rand).mpr
        ⟨pre', cr, post', hengine, rfl, fun q hq hstops => ?_, ?_, hweights⟩
      · have hq' : q ∈ ar.rules := by simp [hengine, hq]
        have hmet := (h.stops_iff hq').mp hstops
        have hordered := h.ordered
        rw [hengine] at hordered
        have hge : cr.rule.priority ≤ q.rule.priority :=
          (pairwise_append.mp hordered).2.2 q hq cr mem_cons_self
        rcases hge.lt_or_eq with hlt | heq
        · exact not_looksMatched_of_lt hrules hpre (h.mem q hq').1 hlt hmet.1
        · exact hrival q hq heq.symm hmet
      · exact (h.stops_iff (by simp [hengine])).mpr ⟨hlooks, hunseen⟩
    refine fun r => ⟨hforward r, fun hchain => ?_⟩
    -- a rule that is selected passes the dry run's tests, so the dry run finds some rule
    obtain ⟨pre, cr, post, hengine, rfl, -, hstops, -⟩ :=
      (resolveLoop_selected_iff ar go rand).mp hchain
    have hmem : cr ∈ ar.rules := by simp [hengine]
    have hlooks := ((h.stops_iff hmem).mp hstops).1
    obtain ⟨r₀, hr₀⟩ : ∃ r₀, s.dryRunRule (dryRunOf req) = some r₀ :=
      Option.isSome_iff_exists.mp (find?_isSome.mpr ⟨cr.rule, (h.mem cr hmem).1, hlooks⟩)
    obtain ⟨chain₀, hchain₀⟩ := hforward r₀ hr₀
    obtain ⟨chain, hchain⟩ := hchain
    rw [hchain] at hchain₀
    rw [hr₀, (Resolved.selected.inj hchain₀).1]

def zeros : Rand where
  intn := fun _ => 0
  bounds := fun _ h => ⟨le_refl 0, h⟩

def toolRule : RouteRule where
  id := "r1"
  name := "tools"
  priority := 10
  cond := { hasTools := true }
  targets := [⟨"anthropic", "claude", 0⟩]

def restRule : RouteRule where
  id := "r2"
  name := "rest"
  targets := [⟨"openai", "gpt-4o", 0⟩]

def toolRules : StoredRules where
  rules := [toolRule, restRule]
  sorted := by decide

def toolRouter : AdvancedRouter where
  rules := [⟨toolRule, none⟩, ⟨restRule, none⟩]
  pricing := none

theorem toolRouter_loaded :
    AdvancedRouter.reload ⟨[], none⟩ plainGo toolRules.rules = (toolRouter, .ok ()) := rfl

def askWith (tools : List RawMessage) : ChatCompletionRequest where
  model := "gpt-4o"
  messages := some [⟨"user", "hi"⟩]
  tools := tools

theorem dryRun_with_tools :
    Predicts toolRules toolRouter plainGo zeros none (askWith ["\x7b\x7d"]) := by
  refine (dryRun_iff toolRouter_loaded zeros none _).mpr fun pre r post hrules hlooks hpre => ?_
  cases pre with
  | nil =>
    obtain ⟨rfl, -⟩ := cons.inj hrules
    refine ⟨?_, by decide, [], ⟨toolRule, none⟩, [⟨restRule, none⟩], rfl, rfl,
      fun _ hmem => absurd hmem not_mem_nil⟩
    exact {
      modelPrefix := nil_prefix
      modelRegex := fun h => absurd rfl h
      owner := rfl
      metadata := fun h => absurd rfl h
      minTokens := fun h => absurd h (by decide)
      maxTokens := fun h => absurd h (by decide)
      tools := fun _ => cons_ne_nil _ _
      targets := cons_ne_nil _ _ }
  | cons q pre =>
    obtain ⟨rfl, -⟩ := cons.inj hrules
    exact absurd (by decide) (hpre _ mem_cons_self)

theorem dryRun_ignores_tools :
    dryRun (some (dryRunOf (askWith []))) (some toolRules) =
      .matched "tools" .failover [⟨"anthropic", "claude", 0⟩] ∧
    toolRouter.resolve plainGo zeros none (askWith []) =
      .selected restRule { name := "rest", targets := [⟨"openai", "gpt-4o", 0⟩] } ∧
    ¬ Predicts toolRules toolRouter plainGo zeros none (askWith []) := by
  have hdry : toolRules.dryRunRule (dryRunOf (askWith [])) = some toolRule := by decide
  have hresolve : toolRouter.resolve plainGo zeros none (askWith []) =
      .selected restRule { name := "rest", targets := [⟨"openai", "gpt-4o", 0⟩] } := by
    decide +kernel
  refine ⟨by decide, hresolve, fun hpredicts => ?_⟩
  obtain ⟨chain, hchain⟩ := (hpredicts toolRule).mp hdry
  rw [hresolve] at hchain
  exact absurd (Resolved.selected.inj hchain).1 (by decide)

end LlmRouter.Routing
