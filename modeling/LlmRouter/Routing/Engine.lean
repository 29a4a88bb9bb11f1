import LlmRouter.Lib.SliceSort
import LlmRouter.Budget.Spend

/-!
# LlmRouter — routing rules and the engine

`AdvancedRouter`: `Reload` compiles the enabled rules and sorts them by priority, `Resolve` takes
the first rule that matches and builds a chain from its targets. Regular expressions and
`sort.Slice`, which is not stable, are in `GoLib`. A negative sum of weights makes `rand.Intn`
panic.
-/

namespace LlmRouter.Routing

open Lib Gateway Auth Budgets List
open Lib.Weighted (wrap)

/-! ## Rules (internal/gateway/types) -/

/-- `types.Strategy`; any other text acts like `failover`. -/
inductive Strategy where
  | direct
  | weighted
  | leastCost
  | failover
  | qualityFirst
  | other (name : String)
  deriving DecidableEq, Repr

structure RuleTarget where
  provider : String
  model : String
  weight : Int := 0
  deriving DecidableEq, Repr

/-- `types.RouteMatch`; UUIDs are texts. -/
structure RouteMatch where
  model : String := ""
  modelPrefix : String := ""
  modelRegex : String := ""
  keyID : Option String := none
  userID : Option String := none
  teamID : Option String := none
  orgID : Option String := none
  metadata : List (String × String) := []
  minContextTokens : Int := 0
  maxContextTokens : Int := 0
  hasTools : Bool := false
  deriving DecidableEq, Repr

structure RouteRule where
  id : String
  name : String
  priority : Int := 0
  enabled : Bool := true
  cond : RouteMatch := {}
  strategy : Strategy := .failover
  targets : List RuleTarget := []
  deriving DecidableEq, Repr

/-! ## The matcher (internal/gateway/router/matcher.go) -/

structure CompiledRule where
  rule : RouteRule
  compiledRegex : Option (String → Bool)

def CompiledRule.before (a b : CompiledRule) : Bool := decide (b.rule.priority < a.rule.priority)

/-- `regexp.Compile` with `MatchString` and the text of its errors, and `sort.Slice` on rules and on
targets with their costs. -/
structure GoLib where
  compile : String → Option (String → Bool)
  compileError : String → String
  sortRules : SliceSort CompiledRule.before
  sortCosts : SliceSort fun a b : Target × ℚ => decide (a.2 < b.2)

/-- A source of random numbers: `rand.Intn` of a positive number. -/
structure Rand where
  intn : Int → Int
  bounds : ∀ n, 0 < n → 0 ≤ intn n ∧ intn n < n

def compileRule (go : GoLib) (rule : RouteRule) : Option CompiledRule :=
  if rule.cond.modelRegex ≠ "" then
    (go.compile rule.cond.modelRegex).map fun re => ⟨rule, some re⟩
  else some ⟨rule, none⟩

def ownedBy (want have_ : Option String) : Bool := want.all fun id => have_ == some id

def RouteMatch.ownerMatches (m : RouteMatch) : Option VirtualKey → Bool
  | some vk =>
    ownedBy m.keyID (some vk.id) && ownedBy m.userID vk.userID && ownedBy m.teamID vk.teamID &&
      ownedBy m.orgID vk.orgID
  | none => m.keyID.isNone && m.userID.isNone && m.teamID.isNone && m.orgID.isNone

def lookupText (m : List (String × String)) (k : String) : String := (m.lookup k).getD ""

def pairsMatch (want have_ : List (String × String)) : Bool :=
  want.all fun kv => lookupText have_ kv.1 == kv.2

def CompiledRule.matchesRequest (cr : CompiledRule) (vk : Option VirtualKey)
    (req : ChatCompletionRequest) (estimatedTokens : Int) : Bool :=
  let m := cr.rule.cond
  if m.model ≠ "" ∧ req.model ≠ m.model then false
  else if m.modelPrefix ≠ "" ∧ ¬ m.modelPrefix.toList.isPrefixOf req.model.toList then false
  else if cr.compiledRegex.any (fun re => !re req.model) then false
  else if !m.ownerMatches vk then false
  else if m.metadata ≠ [] ∧ (req.metadata = [] ∨ ¬ pairsMatch m.metadata req.metadata) then false
  else if 0 < m.minContextTokens ∧ estimatedTokens < m.minContextTokens then false
  else if 0 < m.maxContextTokens ∧ m.maxContextTokens < estimatedTokens then false
  else if m.hasTools ∧ req.tools = [] then false
  else true

def estimateTokens (messages : List Message) : Int :=
  (messages.map fun m => ((m.content.utf8ByteSize / 4 : Nat) : Int)).sum

/-! ## The engine (internal/gateway/router/engine.go) -/

structure AdvancedRouter where
  rules : List CompiledRule
  pricing : Option Calculator

/-- The loop of `reload`: the first rule that does not compile ends it. -/
def compileRules (go : GoLib) : List RouteRule → Except String (List CompiledRule)
  | [] => .ok []
  | r :: rest =>
    if !r.enabled then compileRules go rest
    else match compileRule go r with
      | none => .error
          ("compile rule " ++ goQuote r.name ++ ": " ++ go.compileError r.cond.modelRegex)
      | some cr => (compileRules go rest).map (cr :: ·)

variable (ar : AdvancedRouter) (go : GoLib)

def AdvancedRouter.reload (rules : List RouteRule) : AdvancedRouter × Except String Unit :=
  match compileRules go rules with
  | .error e => (ar, .error e)
  | .ok compiled => ({ ar with rules := go.sortRules.sort compiled }, .ok ())

def expandTargets (rts : List RuleTarget) (requestModel : String) : List Target :=
  rts.map fun rt =>
    { provider := rt.provider
      model := if rt.model = "\x7bmodel\x7d" then requestModel else rt.model
      weight := rt.weight }

def totalWeight (weights : List Int) : Int := weights.foldl (fun total w => wrap (total + w)) 0

def pickWeighted (last : Target) : Int → List Target → Target
  | _, [] => last
  | r, t :: rest =>
    let r := wrap (r - t.weight)
    if r < 0 then t else pickWeighted last r rest

/-- `weightedSelect` on at least one target; `none` is the panic of `rand.Intn`. -/
def weightedSelect (rand : Rand) (first : Target) (rest : List Target) : Option Target :=
  let targets := first :: rest
  let total := totalWeight (targets.map Target.weight)
  if total = 0 then some (targets.getD (rand.intn targets.length).toNat first)
  else if total < 0 then none
  else some (pickWeighted (rest.getLastD first) (rand.intn total) targets)

def AdvancedRouter.sortByCost (targets : List Target) (req : ChatCompletionRequest) : List Target :=
  match ar.pricing with
  | none => targets
  | some c =>
    let estimated := estimateTokens (req.messages.getD [])
    (go.sortCosts.sort (targets.map fun t =>
      (t, c.calculate t.model estimated (estimated / 2)))).map Prod.fst

/-- How `buildChain` ends without a chain. -/
inductive BuildFailure where
  | noTargets
  | panicked
  deriving DecidableEq, Repr

def AdvancedRouter.buildChain (rand : Rand)
    (req : ChatCompletionRequest) (rule : RouteRule) : Except BuildFailure Chain :=
  match expandTargets rule.targets req.model with
  | [] => .error .noTargets
  | first :: rest =>
    match rule.strategy with
    | .direct => .ok { name := rule.name, targets := [first] }
    | .weighted =>
      match weightedSelect rand first rest with
      | none => .error .panicked
      | some selected =>
        let others := (first :: rest).filter fun t =>
          t.provider != selected.provider || t.model != selected.model
        .ok { name := rule.name, targets := selected :: others }
    | .leastCost => .ok { name := rule.name, targets := ar.sortByCost go (first :: rest) req }
    | .qualityFirst | .failover | .other _ => .ok { name := rule.name, targets := first :: rest }

inductive Resolved where
  | selected (rule : RouteRule) (chain : Chain)
  | noRule
  | panicked
  deriving DecidableEq

def AdvancedRouter.resolveLoop (ar : AdvancedRouter) (go : GoLib) (rand : Rand)
    (vk : Option VirtualKey) (req : ChatCompletionRequest) : List CompiledRule → Resolved
  | [] => .noRule
  | cr :: rest =>
    if !cr.matchesRequest vk req (estimateTokens (req.messages.getD [])) then
      ar.resolveLoop go rand vk req rest
    else match ar.buildChain go rand req cr.rule with
      | .error .panicked => .panicked
      | .error .noTargets => ar.resolveLoop go rand vk req rest
      | .ok chain =>
        if chain.targets = [] then ar.resolveLoop go rand vk req rest
        else .selected cr.rule chain

def AdvancedRouter.resolve (rand : Rand)
    (vk : Option VirtualKey) (req : ChatCompletionRequest) : Resolved :=
  ar.resolveLoop go rand vk req ar.rules

/-! ## What is compiled, matched and selected -/

theorem compileRule_rule {go : GoLib} {r : RouteRule} {cr : CompiledRule}
    (h : compileRule go r = some cr) : cr.rule = r := by
  unfold compileRule at h
  split at h
  · obtain ⟨re, -, rfl⟩ := Option.map_eq_some_iff.mp h
    rfl
  · cases h
    rfl

theorem compileRules_ok {go : GoLib} {rules : List RouteRule} {crs : List CompiledRule}
    (h : compileRules go rules = .ok crs) :
    crs.map CompiledRule.rule = rules.filter RouteRule.enabled ∧
      ∀ cr ∈ crs, compileRule go cr.rule = some cr := by
  induction rules generalizing crs with
  | nil =>
    obtain rfl : [] = crs := Except.ok.inj h
    exact ⟨rfl, fun _ hmem => absurd hmem not_mem_nil⟩
  | cons r rest ih =>
    unfold compileRules at h
    cases hen : r.enabled with
    | false =>
      simp only [hen, Bool.not_false, if_true] at h
      simpa [hen] using ih h
    | true =>
      simp only [hen, Bool.not_true, Bool.false_eq_true, if_false] at h
      split at h
      · cases h
      · rename_i cr hcr
        cases hrest : compileRules go rest with
        | error e =>
          rw [hrest] at h
          cases h
        | ok crs' =>
          rw [hrest] at h
          cases h
          have hrule := compileRule_rule hcr
          obtain ⟨hmap, hall⟩ := ih hrest
          refine ⟨by simp [hen, hmap, hrule], fun cr' hmem => ?_⟩
          rcases mem_cons.mp hmem with rfl | hmem
          · rw [hrule, hcr]
          · exact hall cr' hmem

def CompiledRule.Stops (cr : CompiledRule) (vk : Option VirtualKey)
    (req : ChatCompletionRequest) : Prop :=
  cr.matchesRequest vk req (estimateTokens (req.messages.getD [])) = true ∧ cr.rule.targets ≠ []

def RouteRule.WeightsOk (r : RouteRule) : Prop :=
  r.strategy = .weighted → 0 ≤ totalWeight (r.targets.map RuleTarget.weight)

instance (r : RouteRule) : Decidable r.WeightsOk := inferInstanceAs (Decidable (_ → _))

section Search

variable (ar : AdvancedRouter) (go : GoLib) (rand : Rand) {vk : Option VirtualKey}
  {req : ChatCompletionRequest}

theorem sortByCost_ne_nil {targets : List Target} (h : targets ≠ []) :
    ar.sortByCost go targets req ≠ [] := by
  unfold AdvancedRouter.sortByCost
  split
  · exact h
  · simpa using go.sortCosts.sort_ne_nil (map_eq_nil_iff.not.mpr h)

variable {r : RouteRule}

theorem buildChain_cases (req : ChatCompletionRequest) (h : r.targets ≠ []) :
    (r.WeightsOk ∧ ∃ chain, ar.buildChain go rand req r = .ok chain ∧ chain.targets ≠ []) ∨
      (¬ r.WeightsOk ∧ ar.buildChain go rand req r = .error .panicked) := by
  obtain ⟨rt, rts, htargets⟩ := exists_cons_of_ne_nil h
  obtain ⟨first, rest, hexpand⟩ : ∃ first rest,
      expandTargets r.targets req.model = first :: rest := ⟨_, _, by rw [htargets]; rfl⟩
  have hweights : r.targets.map RuleTarget.weight = (first :: rest).map Target.weight := by
    rw [← hexpand]
    simp [expandTargets]
  unfold AdvancedRouter.buildChain RouteRule.WeightsOk
  rw [hexpand, hweights]
  cases hstrategy : r.strategy with
  | weighted =>
    simp only [forall_const, weightedSelect]
    rcases lt_trichotomy (totalWeight ((first :: rest).map Target.weight)) 0 with
      hneg | hzero | hpos
    · rw [if_neg (by omega), if_pos hneg]
      exact .inr ⟨by omega, rfl⟩
    · rw [if_pos hzero]
      exact .inl ⟨by omega, _, rfl, cons_ne_nil _ _⟩
    · rw [if_neg (by omega), if_neg (by omega)]
      exact .inl ⟨by omega, _, rfl, cons_ne_nil _ _⟩
  | leastCost => exact .inl ⟨nofun, _, rfl, sortByCost_ne_nil ar go (cons_ne_nil _ _)⟩
  | direct | failover | qualityFirst | other name =>
    exact .inl ⟨nofun, _, rfl, cons_ne_nil _ _⟩

theorem buildChain_noTargets (h : r.targets = []) :
    ar.buildChain go rand req r = .error .noTargets := by
  unfold AdvancedRouter.buildChain
  rw [h]
  rfl

theorem resolveLoop_skip {cr : CompiledRule} (h : ¬ cr.Stops vk req) (rest : List CompiledRule) :
    ar.resolveLoop go rand vk req (cr :: rest) = ar.resolveLoop go rand vk req rest := by
  rw [AdvancedRouter.resolveLoop]
  by_cases hmatch : cr.matchesRequest vk req (estimateTokens (req.messages.getD [])) = true
  · have hnone : cr.rule.targets = [] := by
      by_contra hne
      exact h ⟨hmatch, hne⟩
    rw [buildChain_noTargets ar go rand hnone]
    simp [hmatch]
  · simp [hmatch]

theorem resolveLoop_stop {cr : CompiledRule} (h : cr.Stops vk req) (rest : List CompiledRule) :
    (cr.rule.WeightsOk ∧
        ∃ chain, ar.resolveLoop go rand vk req (cr :: rest) = .selected cr.rule chain) ∨
      (¬ cr.rule.WeightsOk ∧ ar.resolveLoop go rand vk req (cr :: rest) = .panicked) := by
  obtain ⟨hmatch, htargets⟩ := h
  rw [AdvancedRouter.resolveLoop]
  rcases buildChain_cases ar go rand req htargets with
    ⟨hok, chain, hchain, hne⟩ | ⟨hbad, hpanic⟩
  · exact .inl ⟨hok, chain, by simp [hmatch, hchain, hne]⟩
  · exact .inr ⟨hbad, by simp [hmatch, hpanic]⟩

theorem resolveLoop_skipAll {pre : List CompiledRule} (h : ∀ cr ∈ pre, ¬ cr.Stops vk req)
    (rest : List CompiledRule) :
    ar.resolveLoop go rand vk req (pre ++ rest) = ar.resolveLoop go rand vk req rest := by
  induction pre with
  | nil => rfl
  | cons cr pre ih =>
    rw [cons_append, resolveLoop_skip ar go rand (h cr mem_cons_self),
      ih fun cr' hmem => h cr' (mem_cons_of_mem _ hmem)]

/-- **What `Resolve` selects**: the first rule that stops it, if its weights are fine. -/
theorem resolveLoop_selected_iff {crs : List CompiledRule} :
    (∃ chain, ar.resolveLoop go rand vk req crs = .selected r chain) ↔
      ∃ pre cr post, crs = pre ++ cr :: post ∧ cr.rule = r ∧ (∀ q ∈ pre, ¬ q.Stops vk req) ∧
        cr.Stops vk req ∧ r.WeightsOk := by
  constructor
  · rintro ⟨chain, h⟩
    induction crs with
    | nil => cases h
    | cons cr rest ih =>
      by_cases hstop : cr.Stops vk req
      · rcases resolveLoop_stop ar go rand hstop rest with
          ⟨hok, chain', hsel⟩ | ⟨-, hpanic⟩
        · rw [hsel] at h
          obtain ⟨rfl, -⟩ := Resolved.selected.inj h
          exact ⟨[], cr, rest, rfl, rfl, fun _ hmem => absurd hmem not_mem_nil, hstop, hok⟩
        · rw [hpanic] at h
          cases h
      · rw [resolveLoop_skip ar go rand hstop] at h
        obtain ⟨pre, cr', post, rfl, hrule, hpre, hrest⟩ := ih h
        refine ⟨cr :: pre, cr', post, rfl, hrule, fun q hq => ?_, hrest⟩
        rcases mem_cons.mp hq with rfl | hq
        · exact hstop
        · exact hpre q hq
  · rintro ⟨pre, cr, post, rfl, rfl, hpre, hstop, hok⟩
    rw [resolveLoop_skipAll ar go rand hpre]
    rcases resolveLoop_stop ar go rand hstop post with
      ⟨-, hsel⟩ | ⟨hbad, -⟩
    · exact hsel
    · exact absurd hok hbad

end Search

end LlmRouter.Routing
