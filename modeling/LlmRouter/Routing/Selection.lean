import LlmRouter.Routing.DryRun
import Mathlib.Data.List.TakeWhile

/-!
# LlmRouter — which rule the engine selects

Of the enabled rules that match a request and have targets, one of the highest priority is
selected, whatever `sort.Slice` makes of rules of one priority and whatever `rand.Intn` draws. One
thing breaks this: `rand.Intn` panics on a negative sum of weights, and no weight is checked.

* `selected_top`, `selected_iff` — the rule at which `Resolve` ends;
* `engine_iff` — the law;
* `placeholder_iff` — a target with the placeholder is asked for the model as the client wrote it.
-/

namespace LlmRouter.Routing

open Lib Gateway Auth RouteRule List

/-! ## Compiled rules -/

def RouteRule.compiled (compile : String → Option (String → Bool)) (r : RouteRule) :
    CompiledRule :=
  ⟨r, if r.cond.modelRegex ≠ "" then compile r.cond.modelRegex else none⟩

def Compiles (compile : String → Option (String → Bool)) (rules : List RouteRule) : Prop :=
  ∀ r ∈ rules, r.enabled = true → r.cond.modelRegex ≠ "" → (compile r.cond.modelRegex).isSome

variable {go : GoLib}

theorem compileRule_compiled {r : RouteRule}
    (h : r.cond.modelRegex ≠ "" → (go.compile r.cond.modelRegex).isSome) :
    compileRule go r = some (r.compiled go.compile) := by
  unfold compileRule compiled
  by_cases hregex : r.cond.modelRegex ≠ ""
  · obtain ⟨re, hre⟩ := Option.isSome_iff_exists.mp (h hregex)
    rw [if_pos hregex, if_pos hregex, hre]
    rfl
  · rw [if_neg hregex, if_neg hregex]

theorem compileRules_compiled {rules : List RouteRule} (h : Compiles go.compile rules) :
    compileRules go rules =
      .ok ((rules.filter enabled).map (compiled go.compile)) := by
  induction rules with
  | nil => rfl
  | cons r rest ih =>
    have hrest := ih fun q hq => h q (mem_cons_of_mem r hq)
    unfold compileRules
    cases hen : r.enabled with
    | false => simpa [hen] using hrest
    | true =>
      rw [compileRule_compiled (h r mem_cons_self hen), hrest]
      simp [hen, Except.map]

theorem reload_rules (go : GoLib) {rules : List RouteRule} (h : Compiles go.compile rules)
    (ar : AdvancedRouter) :
    (ar.reload go rules).1.rules = go.sortRules.sort
      ((rules.filter enabled).map (compiled go.compile)) := by
  unfold AdvancedRouter.reload
  rw [compileRules_compiled h]

theorem reload_failed {ar : AdvancedRouter} {rules : List RouteRule} {e : String}
    (h : (ar.reload go rules).2 = .error e) : (ar.reload go rules).1 = ar := by
  unfold AdvancedRouter.reload at h ⊢
  split at h
  · rfl
  · cases h

/-! ## The rule at which the search ends -/

section Search

variable (ar : AdvancedRouter) (go : GoLib) (rand : Rand) {vk : Option VirtualKey}
  {req : ChatCompletionRequest}

theorem resolveLoop_cases (crs : List CompiledRule) :
    ((∀ cr ∈ crs, ¬ cr.Stops vk req) ∧ ar.resolveLoop go rand vk req crs = .noRule) ∨
      ∃ pre cr post, crs = pre ++ cr :: post ∧ (∀ q ∈ pre, ¬ q.Stops vk req) ∧
        cr.Stops vk req ∧
        ((cr.rule.WeightsOk ∧
            ∃ chain, ar.resolveLoop go rand vk req crs = .selected cr.rule chain) ∨
          (¬ cr.rule.WeightsOk ∧ ar.resolveLoop go rand vk req crs = .panicked)) := by
  induction crs with
  | nil => exact .inl ⟨by simp, rfl⟩
  | cons cr rest ih =>
    by_cases hstop : cr.Stops vk req
    · exact .inr ⟨[], cr, rest, rfl, by simp, hstop, resolveLoop_stop ar go rand hstop rest⟩
    · rw [resolveLoop_skip ar go rand hstop]
      rcases ih with ⟨hnone, hres⟩ | ⟨pre, cr', post, rfl, hpre, hrest⟩
      · exact .inl ⟨forall_mem_cons.mpr ⟨hstop, hnone⟩, hres⟩
      · exact .inr ⟨cr :: pre, cr', post, rfl, forall_mem_cons.mpr ⟨hstop, hpre⟩, hrest⟩

theorem buildChain_name {r : RouteRule} {chain : Chain}
    (h : ar.buildChain go rand req r = .ok chain) : chain.name = r.name := by
  unfold AdvancedRouter.buildChain at h
  split at h
  · cases h
  · split at h
    case h_2 =>
      split at h
      · cases h
      · cases h
        rfl
    all_goals
      cases h
      rfl

theorem resolveLoop_chain {crs : List CompiledRule} {r : RouteRule} {chain : Chain}
    (h : ar.resolveLoop go rand vk req crs = .selected r chain) :
    ar.buildChain go rand req r = .ok chain ∧ chain.targets ≠ [] := by
  induction crs with
  | nil => cases h
  | cons cr rest ih =>
    rw [AdvancedRouter.resolveLoop] at h
    split at h
    · exact ih h
    · split at h
      · cases h
      · exact ih h
      next chain' hchain =>
        split at h
        · exact ih h
        next hne =>
          obtain ⟨rfl, rfl⟩ := Resolved.selected.inj h
          exact ⟨hchain, hne⟩

end Search

/-! ## The rules of the highest priority -/

section Law

variable (compile : String → Option (String → Bool)) (rules : List RouteRule)
  (vk : Option VirtualKey) (req : ChatCompletionRequest)

def Eligible (r : RouteRule) : Prop := r.enabled = true ∧ (r.compiled compile).Stops vk req

structure Top (r : RouteRule) : Prop where
  mem : r ∈ rules
  eligible : Eligible compile vk req r
  highest : ∀ q ∈ rules, Eligible compile vk req q → ¬ r.priority < q.priority

def Answers : Resolved → Prop
  | .selected r chain => Top compile rules vk req r ∧ chain.name = r.name ∧ chain.targets ≠ []
  | .noRule => ∀ r ∈ rules, ¬ Eligible compile vk req r
  | .panicked => False

/-- The law of the engine, for each way in which `sort.Slice` sorts and `rand.Intn` draws. -/
structure EngineLaw : Prop where
  answers : ∀ go : GoLib, go.compile = compile → ∀ (ar : AdvancedRouter) rand,
    Answers compile rules vk req ((ar.reload go rules).1.resolve go rand vk req)
  order_free : (rules.map priority).Nodup → ∀ rules', Perm rules' rules →
    ∀ go go' : GoLib, go.compile = compile → go'.compile = compile →
    ∀ (ar ar' : AdvancedRouter) rand rand' r,
      (∃ chain, (ar.reload go rules).1.resolve go rand vk req = .selected r chain) ↔
        ∃ chain, (ar'.reload go' rules').1.resolve go' rand' vk req = .selected r chain
  failure : ∀ (go : GoLib) (ar : AdvancedRouter) rules' e,
    (ar.reload go rules').2 = .error e → (ar.reload go rules').1 = ar

variable {compile rules vk req}

variable {go : GoLib} {r : RouteRule}

theorem mem_engine (hgo : go.compile = compile) {cr : CompiledRule} :
    cr ∈ go.sortRules.sort ((rules.filter enabled).map (compiled go.compile)) ↔
      ∃ r ∈ rules, r.enabled = true ∧ r.compiled compile = cr := by
  subst hgo
  simp [SliceSort.mem_sort, and_assoc]

/-- **The rule at which the search ends is one of the highest priority.** -/
theorem selected_top (go : GoLib) (hgo : go.compile = compile) {pre post : List CompiledRule}
    {cr : CompiledRule}
    (hsplit : go.sortRules.sort ((rules.filter enabled).map
      (compiled go.compile)) = pre ++ cr :: post)
    (hpre : ∀ q ∈ pre, ¬ q.Stops vk req) (hstop : cr.Stops vk req) :
    Top compile rules vk req cr.rule := by
  obtain ⟨r, hr, hen, rfl⟩ := (mem_engine hgo).mp
    (show cr ∈ _ by rw [hsplit]; exact mem_append_right _ mem_cons_self)
  refine ⟨hr, ⟨hen, hstop⟩, fun q hq hq' => ?_⟩
  have hmem := (mem_engine hgo).mpr ⟨q, hq, hq'.1, rfl⟩
  have hordered := go.sortRules.ordered
    ((rules.filter enabled).map (compiled go.compile))
  rw [hsplit] at hmem hordered
  rcases mem_append.mp hmem with hbefore | hafter
  · exact absurd hq'.2 (hpre _ hbefore)
  · rcases mem_cons.mp hafter with heq | hafter
    · have hrule : q = r := congrArg CompiledRule.rule heq
      rw [hrule]
      exact lt_irrefl r.priority
    · have hless := (pairwise_cons.mp (pairwise_append.mp hordered).2.1).1 _ hafter
      rw [CompiledRule.before, decide_eq_false_iff_not] at hless
      exact hless

variable (vk req) in
theorem resolve_cases (hgo : go.compile = compile) (hcompiles : Compiles compile rules)
    (ar : AdvancedRouter) (rand : Rand) :
    ((∀ r ∈ rules, ¬ Eligible compile vk req r) ∧
        (ar.reload go rules).1.resolve go rand vk req = .noRule) ∨
      ∃ r, Top compile rules vk req r ∧
        ((r.WeightsOk ∧ ∃ chain,
            (ar.reload go rules).1.resolve go rand vk req = .selected r chain) ∨
          (¬ r.WeightsOk ∧ (ar.reload go rules).1.resolve go rand vk req = .panicked)) := by
  have hrules := reload_rules go (hgo ▸ hcompiles) ar
  rcases resolveLoop_cases (ar.reload go rules).1 go rand (ar.reload go rules).1.rules with
    ⟨hnone, hres⟩ | ⟨pre, cr, post, hsplit, hpre, hstop, hres⟩
  · refine .inl ⟨fun r hr helig => ?_, hres⟩
    refine hnone (r.compiled compile) ?_ helig.2
    rw [hrules]
    exact (mem_engine hgo).mpr ⟨r, hr, helig.1, rfl⟩
  · exact .inr ⟨cr.rule, selected_top go hgo (hrules.symm.trans hsplit) hpre hstop, hres⟩

theorem Top.unique (hdistinct : (rules.map priority).Nodup) {r' : RouteRule}
    (h : Top compile rules vk req r) (h' : Top compile rules vk req r') : r = r' := by
  have hle := h.highest r' h'.mem h'.eligible
  have hge := h'.highest r h.mem h.eligible
  exact inj_on_of_nodup_map hdistinct h.mem h'.mem
    (le_antisymm (not_lt.mp hge) (not_lt.mp hle))

/-- **With distinct priorities** the highest rule is selected, unless its weights make `rand.Intn`
panic. -/
theorem selected_iff (hgo : go.compile = compile) (hcompiles : Compiles compile rules)
    (hdistinct : (rules.map priority).Nodup) (ar : AdvancedRouter) (rand : Rand) :
    (∃ chain, (ar.reload go rules).1.resolve go rand vk req = .selected r chain) ↔
      Top compile rules vk req r ∧ r.WeightsOk := by
  rcases resolve_cases vk req hgo hcompiles ar rand with
    ⟨hnone, hres⟩ | ⟨q, htop, ⟨hok, chain, hres⟩ | ⟨hbad, hres⟩⟩
  · rw [hres]
    exact ⟨fun ⟨_, h⟩ => (nomatch h), fun ⟨h, _⟩ => absurd h.eligible (hnone r h.mem)⟩
  · rw [hres]
    constructor
    · rintro ⟨_, h⟩
      obtain ⟨rfl, -⟩ := Resolved.selected.inj h
      exact ⟨htop, hok⟩
    · rintro ⟨h, -⟩
      rw [h.unique hdistinct htop]
      exact ⟨chain, rfl⟩
  · rw [hres]
    refine ⟨fun ⟨_, h⟩ => (nomatch h), fun ⟨h, hok⟩ => ?_⟩
    rw [h.unique hdistinct htop] at hok
    exact absurd hok hbad

theorem Top.perm {rules' : List RouteRule} (hperm : rules'.Perm rules) :
    Top compile rules' vk req r ↔ Top compile rules vk req r := by
  constructor
  · exact fun h => ⟨hperm.mem_iff.mp h.mem, h.eligible,
      fun q hq => h.highest q (hperm.mem_iff.mpr hq)⟩
  · exact fun h => ⟨hperm.mem_iff.mpr h.mem, h.eligible,
      fun q hq => h.highest q (hperm.mem_iff.mp hq)⟩

def goPreferring (compile : String → Option (String → Bool)) (r : RouteRule) : GoLib where
  compile := compile
  compileError := plainGo.compileError
  sortRules := SliceSort.preferring (fun cr => -cr.rule.priority) (fun cr => cr.rule == r)
    before_eq
  sortCosts := plainGo.sortCosts

theorem goPreferring_first (compile : String → Option (String → Bool)) (r : RouteRule)
    (crs : List CompiledRule) :
    ((goPreferring compile r).sortRules.sort crs).Pairwise fun a b =>
      a.rule.priority = b.rule.priority → b.rule = r → a.rule = r := by
  refine (SliceSort.preferring_first (fun cr : CompiledRule => -cr.rule.priority)
    (fun cr => cr.rule == r) before_eq crs).imp fun h hpriority hb => ?_
  exact beq_iff_eq.mp (h (congrArg Neg.neg hpriority) (beq_iff_eq.mpr hb))

theorem resolve_goPreferring (hcompiles : Compiles compile rules) (h : Top compile rules vk req r)
    (hbad : ¬ r.WeightsOk) (ar : AdvancedRouter) (rand : Rand) :
    (ar.reload (goPreferring compile r) rules).1.resolve (goPreferring compile r) rand vk req =
      .panicked := by
  have hrules := reload_rules (goPreferring compile r) hcompiles ar
  have hmem : r.compiled compile ∈ (ar.reload (goPreferring compile r) rules).1.rules := by
    rw [hrules]
    exact (mem_engine rfl).mpr ⟨r, h.mem, h.eligible.1, rfl⟩
  rcases resolveLoop_cases (ar.reload (goPreferring compile r) rules).1 (goPreferring compile r)
      rand (ar.reload (goPreferring compile r) rules).1.rules with
    ⟨hnone, -⟩ | ⟨pre, cr, post, hsplit, hpre, hstop, hres⟩
  · exact absurd h.eligible.2 (hnone _ hmem)
  · have htop := selected_top (goPreferring compile r) rfl (hrules.symm.trans hsplit) hpre hstop
    have hpriority : cr.rule.priority = r.priority :=
      le_antisymm (not_lt.mp (h.highest _ htop.mem htop.eligible))
        (not_lt.mp (htop.highest _ h.mem h.eligible))
    -- the rule itself does not stand before, so it is this one or behind it
    have hcr : cr.rule = r := by
      rw [hsplit] at hmem
      rcases mem_append.mp hmem with hbefore | hafter
      · exact absurd h.eligible.2 (hpre _ hbefore)
      · rcases mem_cons.mp hafter with heq | hafter
        · rw [← heq]
          rfl
        · have hfirst := goPreferring_first compile r
            ((rules.filter enabled).map
              (compiled (goPreferring compile r).compile))
          rw [← hrules, hsplit] at hfirst
          have htail := (pairwise_append.mp hfirst).2.1
          exact (pairwise_cons.mp htail).1 _ hafter hpriority rfl
    rw [hcr] at hres
    rcases hres with ⟨hok, -⟩ | ⟨-, hpanic⟩
    · exact absurd hok hbad
    · exact hpanic

/-- **The engine's law.** Whatever the sort and the draws, `Resolve` after `Reload` returns the
chain of an eligible rule of the highest priority and no chain iff no rule is eligible, with
distinct priorities the order of the list does not matter, and a failed `Reload` changes nothing, if
and only if no eligible rule of the highest priority is weighted with weights that sum to a negative
`int`. -/
theorem engine_iff (compile : String → Option (String → Bool)) (rules : List RouteRule)
    (vk : Option VirtualKey) (req : ChatCompletionRequest) (hcompiles : Compiles compile rules) :
    EngineLaw compile rules vk req ↔ ∀ r, Top compile rules vk req r → r.WeightsOk := by
  constructor
  · intro h r htop
    by_contra hbad
    have hanswer := h.answers (goPreferring compile r) rfl ⟨[], none⟩ zeros
    rw [resolve_goPreferring hcompiles htop hbad] at hanswer
    exact hanswer
  · intro hweights
    refine ⟨fun go hgo ar rand => ?_,
      fun hdistinct rules' hperm go go' hgo hgo' ar ar' rand rand' r => ?_,
      fun go ar rules' e => reload_failed⟩
    · rcases resolve_cases vk req hgo hcompiles ar rand with
        ⟨hnone, hres⟩ | ⟨r, htop, ⟨-, chain, hres⟩ | ⟨hbad, -⟩⟩
      · rw [hres]
        exact hnone
      · rw [hres]
        obtain ⟨hchain, hne⟩ := resolveLoop_chain _ go rand hres
        exact ⟨htop, buildChain_name _ go rand hchain, hne⟩
      · exact absurd (hweights r htop) hbad
    · have hcompiles' : Compiles compile rules' := fun q hq => hcompiles q (hperm.mem_iff.mp hq)
      have hdistinct' : (rules'.map priority).Nodup :=
        ((hperm.map _).nodup_iff).mpr hdistinct
      rw [selected_iff hgo hcompiles hdistinct, selected_iff hgo' hcompiles' hdistinct',
        Top.perm hperm]

end Law

def weightedRule (weight : Int) : RouteRule where
  id := "r3"
  name := "split"
  priority := 10
  strategy := .weighted
  targets := [⟨"openai", "gpt-4o", weight⟩]

theorem engine_positive_weight :
    EngineLaw (fun _ => none) [weightedRule 3, restRule] none (askWith []) := by
  refine (engine_iff _ _ _ _ fun r hr _ hregex => ?_).mpr fun r htop => ?_
  · have hall : ∀ r ∈ [weightedRule 3, restRule], r.cond.modelRegex = "" := by decide
    exact absurd (hall r hr) hregex
  · have hall : ∀ r ∈ [weightedRule 3, restRule], r.WeightsOk := by decide
    exact hall r htop.mem

theorem engine_negative_weight :
    (AdvancedRouter.reload ⟨[], none⟩ plainGo [weightedRule (-1)]).2 = .ok () ∧
      (AdvancedRouter.reload ⟨[], none⟩ plainGo [weightedRule (-1)]).1.resolve plainGo zeros none
        (askWith []) = .panicked ∧
      ¬ EngineLaw plainGo.compile [weightedRule (-1)] none (askWith []) := by
  have hpanics : (AdvancedRouter.reload ⟨[], none⟩ plainGo [weightedRule (-1)]).1.resolve plainGo
      zeros none (askWith []) = .panicked := by
    decide +kernel
  refine ⟨rfl, hpanics, fun hlaw => ?_⟩
  have hanswer := hlaw.answers plainGo rfl ⟨[], none⟩ zeros
  rw [hpanics] at hanswer
  exact hanswer

/-! ## The placeholder -/

section Placeholder

variable {ar : AdvancedRouter} {go : GoLib} {rand : Rand} {req : ChatCompletionRequest}

theorem weightedSelect_single {t selected : Target} (h : weightedSelect rand t [] = some selected) :
    selected = t := by
  simp only [weightedSelect] at h
  split_ifs at h
  · cases hindex : (rand.intn [t].length).toNat <;> simp_all
  · rw [← Option.some.inj h, pickWeighted, pickWeighted, getLastD_nil, ite_self]

theorem sortByCost_single (t : Target) : ar.sortByCost go [t] req = [t] := by
  unfold AdvancedRouter.sortByCost
  split
  · rfl
  next c _ =>
    simp only [map_cons, map_nil, perm_singleton.mp (go.sortCosts.perm _)]

theorem buildChain_single {r : RouteRule} {rt : RuleTarget} {chain : Chain}
    (htargets : r.targets = [rt]) (h : ar.buildChain go rand req r = .ok chain) :
    chain.targets = expandTargets [rt] req.model := by
  unfold AdvancedRouter.buildChain at h
  rw [htargets] at h
  cases hstrategy : r.strategy with
  | weighted =>
    simp only [hstrategy, expandTargets, map_cons, map_nil] at h
    split at h
    · cases h
    next selected hselected =>
      obtain rfl := weightedSelect_single hselected
      obtain rfl := Except.ok.inj h
      simp [expandTargets]
  | leastCost =>
    simp only [hstrategy, expandTargets, map_cons, map_nil, sortByCost_single] at h
    exact congrArg Chain.targets (Except.ok.inj h).symm
  | direct | qualityFirst | failover | other =>
    simp only [hstrategy, expandTargets, map_cons, map_nil] at h
    exact congrArg Chain.targets (Except.ok.inj h).symm

def asks (c : Chain) : List (String × String) :=
  c.targets.map fun t => (t.provider, t.model)

theorem parseModel_ne (p m : String) :
    parseModel (p ++ "/" ++ m) ≠ ⟨p, p ++ "/" ++ m⟩ := by
  have hlist : (p ++ "/" ++ m).toList = p.toList ++ '/' :: m.toList := by simp
  intro h
  unfold parseModel at h
  simp only at h
  split at h
  next hdrop =>
    have hslash := dropWhile_eq_nil_iff.mp hdrop '/' (by simp)
    exact absurd rfl (of_decide_eq_true hslash)
  next c rest hdrop =>
    split_ifs at h with htake
    · have hlength := congrArg length (congrArg (String.toList ∘ ParsedModel.model) h)
      have hsuffix := (dropWhile_suffix (l := (p ++ "/" ++ m).toList) (· ≠ '/')).length_le
      rw [hdrop] at hsuffix
      simp only [Function.comp_apply, String.toList_ofList] at hlength
      rw [length_cons, ← hlength] at hsuffix
      omega
    · have hopenai := congrArg ParsedModel.provider h
      simp only at hopenai
      rw [hlist, ← hopenai] at htake
      exact htake (by simp)

/-- **What the placeholder means.** Where a rule with the one target `p` and the placeholder
decides, the target asked for is that of direct routing iff that leaves the model whole and sends it
to `p`. For `p/m` the rule asks for `p/m`, and direct routing for `m`. -/
theorem placeholder_iff {h : ChatHandler} {vk : Option VirtualKey} {r : RouteRule} {p : String}
    {w : Int} {chain : Chain} (htargets : r.targets = [⟨p, "\x7bmodel\x7d", w⟩])
    (hselected : ar.resolve go rand vk req = .selected r chain)
    (hname : ∀ c ∈ h.chains, c.name ≠ req.model) :
    (asks chain = asks (h.resolveChain req.model) ↔ parseModel req.model = ⟨p, req.model⟩) ∧
      ∀ m, req.model = p ++ "/" ++ m → asks chain ≠ asks (h.resolveChain req.model) := by
  have hchain := buildChain_single htargets (resolveLoop_chain ar go rand hselected).1
  have hdirect : h.resolveChain req.model =
      singleTarget (parseModel req.model).provider (parseModel req.model).model := by
    have hnone : h.chains.reverse.find? (fun c => c.name == req.model) = none := by
      simpa using hname
    simp only [ChatHandler.resolveChain, hnone]
  have hiff : asks chain = asks (h.resolveChain req.model) ↔
      parseModel req.model = ⟨p, req.model⟩ := by
    rw [hdirect, asks, asks, hchain]
    obtain ⟨provider, model⟩ := parseModel req.model
    simp [expandTargets, singleTarget, eq_comm]
  refine ⟨hiff, fun m hmodel hsame => parseModel_ne p m ?_⟩
  rw [← hmodel]
  exact hiff.mp hsame

end Placeholder

def passRule : RouteRule where
  id := "r5"
  name := "openai-prefix"
  strategy := .direct
  targets := [⟨"openai", "\x7bmodel\x7d", 0⟩]

def passRouter : AdvancedRouter where
  rules := [⟨passRule, none⟩]
  pricing := none

def bareHandler : ChatHandler where
  json := Setup.twoBodies
  fallbackRouter := { registry := Registry.empty }

theorem placeholder_plain :
    asks { name := "openai-prefix", targets := [⟨"openai", "gpt-4o", 0⟩] } =
      asks (bareHandler.resolveChain "gpt-4o") :=
  (@placeholder_iff passRouter plainGo zeros (askWith []) bareHandler none passRule "openai" 0 _ rfl
    (by decide +kernel) (by decide)).1.mpr (by decide)

theorem placeholder_keeps_provider :
    let req : ChatCompletionRequest := { askWith [] with model := "openai/gpt-4o" }
    passRouter.resolve plainGo zeros none req =
        .selected passRule
          { name := "openai-prefix", targets := [⟨"openai", "openai/gpt-4o", 0⟩] } ∧
      (bareHandler.resolveChain req.model).targets = [⟨"openai", "gpt-4o", 0⟩] := by
  decide +kernel

end LlmRouter.Routing
