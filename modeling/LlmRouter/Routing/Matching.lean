import LlmRouter.Routing.Engine

/-!
# LlmRouter — what a rule asks for

The conditions of `compiledRule.Matches` are a conjunction (`matchesRequest_iff`), with one
difference to what they declare: a missing key of the metadata reads as the empty text
(`matches_declared_iff`).
-/

namespace LlmRouter.Routing

open Lib Gateway Auth

/-- The conditions of a rule, `pair` being what is asked for a pair of its metadata. -/
structure RouteMatch.Meets (m : RouteMatch) (go : GoLib) (vk : Option VirtualKey)
    (req : ChatCompletionRequest) (estimatedTokens : Int) (pair : String × String → Prop) :
    Prop where
  model : m.model ≠ "" → req.model = m.model
  modelPrefix : m.modelPrefix ≠ "" → m.modelPrefix.toList <+: req.model.toList
  modelRegex : m.modelRegex ≠ "" → ∃ re, go.compile m.modelRegex = some re ∧ re req.model = true
  keyID : ∀ id ∈ m.keyID, ∃ k ∈ vk, k.id = id
  userID : ∀ id ∈ m.userID, ∃ k ∈ vk, k.userID = some id
  teamID : ∀ id ∈ m.teamID, ∃ k ∈ vk, k.teamID = some id
  orgID : ∀ id ∈ m.orgID, ∃ k ∈ vk, k.orgID = some id
  metadata : ∀ kv ∈ m.metadata, pair kv
  minTokens : 0 < m.minContextTokens → m.minContextTokens ≤ estimatedTokens
  maxTokens : 0 < m.maxContextTokens → estimatedTokens ≤ m.maxContextTokens
  tools : m.hasTools = true → req.tools ≠ []

variable (req : ChatCompletionRequest) (kv : String × String)

/-- The pair is in the request's metadata. -/
def Declared : Prop :=
  req.metadata.lookup kv.1 = some kv.2

/-- The pair asks for an empty value, and the request's metadata does not have its key. -/
def Blank : Prop :=
  kv.2 = "" ∧ req.metadata.lookup kv.1 = none

/-- What the matcher asks for a pair. -/
def Tested : Prop :=
  req.metadata ≠ [] ∧ lookupText req.metadata kv.1 = kv.2

theorem RouteMatch.Meets.imp {m : RouteMatch} {go : GoLib} {vk : Option VirtualKey}
    {req : ChatCompletionRequest} {estimatedTokens : Int} {pair pair' : String × String → Prop}
    (h : m.Meets go vk req estimatedTokens pair) (himp : ∀ kv ∈ m.metadata, pair kv → pair' kv) :
    m.Meets go vk req estimatedTokens pair' :=
  { h with metadata := fun kv hkv => himp kv hkv (h.metadata kv hkv) }

theorem test_iff (c : Prop) [Decidable c] (b : Bool) :
    (if c then false else b) = true ↔ ¬ c ∧ b = true := by
  split <;> simp [*]

variable {go : GoLib} {cr : CompiledRule}

theorem compiledRegex_iff (h : compileRule go cr.rule = some cr) (model : String) :
    ¬ cr.compiledRegex.any (fun re => !re model) = true ↔
      (cr.rule.cond.modelRegex ≠ "" →
        ∃ re, go.compile cr.rule.cond.modelRegex = some re ∧ re model = true) := by
  unfold compileRule at h
  split at h
  · rename_i hne
    obtain ⟨re, hre, hcr⟩ := Option.map_eq_some_iff.mp h
    have hregex : cr.compiledRegex = some re := by rw [← hcr]
    rw [hregex, hre]
    simp [hne]
  · rename_i hempty
    have hregex : cr.compiledRegex = none := by rw [← Option.some.inj h]
    rw [hregex]
    simp_all

theorem ownedBy_iff {want have_ : Option String} :
    ownedBy want have_ = true ↔ ∀ id ∈ want, have_ = some id := by
  cases want <;> simp [ownedBy]

theorem ownerMatches_iff {m : RouteMatch} {vk : Option VirtualKey} :
    m.ownerMatches vk = true ↔
      (∀ id ∈ m.keyID, ∃ k ∈ vk, k.id = id) ∧ (∀ id ∈ m.userID, ∃ k ∈ vk, k.userID = some id) ∧
      (∀ id ∈ m.teamID, ∃ k ∈ vk, k.teamID = some id) ∧
      ∀ id ∈ m.orgID, ∃ k ∈ vk, k.orgID = some id := by
  cases vk with
  | none => simp [RouteMatch.ownerMatches, Option.eq_none_iff_forall_ne_some, and_assoc]
  | some k => simp [RouteMatch.ownerMatches, ownedBy_iff, and_assoc]

theorem prefix_iff {want model : String} :
    (want ≠ "" → want.toList <+: model.toList) ↔ want.toList <+: model.toList := by
  refine ⟨fun h => ?_, fun h _ => h⟩
  by_cases hempty : want = ""
  · subst hempty
    exact List.nil_prefix
  · exact h hempty

theorem metadata_iff {want : List (String × String)} {req : ChatCompletionRequest} :
    (∀ kv ∈ want, Tested req kv) ↔
      (want ≠ [] → req.metadata ≠ []) ∧
        (want ≠ [] → pairsMatch want req.metadata = true) := by
  simp only [pairsMatch, List.all_eq_true, beq_iff_eq, Tested]
  constructor
  · intro h
    refine ⟨fun hne => ?_, fun _ kv hkv => (h kv hkv).2⟩
    obtain ⟨kv, hkv⟩ := List.exists_mem_of_ne_nil _ hne
    exact (h kv hkv).1
  · intro h kv hkv
    have hne := List.ne_nil_of_mem hkv
    exact ⟨h.1 hne, h.2 hne kv hkv⟩

/-- **The matcher tests the conjunction of the conditions.** -/
theorem matchesRequest_iff (h : compileRule go cr.rule = some cr) {vk : Option VirtualKey}
    {req : ChatCompletionRequest} {estimatedTokens : Int} :
    cr.matchesRequest vk req estimatedTokens = true ↔
      cr.rule.cond.Meets go vk req estimatedTokens (Tested req) := by
  simp only [CompiledRule.matchesRequest, test_iff, compiledRegex_iff h]
  simp only [not_and, not_or, not_not, List.isPrefixOf_iff_prefix, Bool.not_eq_true',
    Bool.not_eq_false, ownerMatches_iff, not_lt, and_true, imp_and, ← metadata_iff]
  exact ⟨fun ⟨hmodel, hpre, hre, ⟨hkey, huser, hteam, horg⟩, hmeta, hmin, hmax, htools⟩ =>
      ⟨hmodel, hpre, hre, hkey, huser, hteam, horg, hmeta, hmin, hmax, htools⟩,
    fun h => ⟨h.model, h.modelPrefix, h.modelRegex, ⟨h.keyID, h.userID, h.teamID, h.orgID⟩,
      h.metadata, h.minTokens, h.maxTokens, h.tools⟩⟩

/-- A pair is tested as declared, except that a blank one passes if there is other metadata. -/
theorem tested_iff (req : ChatCompletionRequest) (kv : String × String) :
    Tested req kv ↔ Declared req kv ∨ (req.metadata ≠ [] ∧ Blank req kv) := by
  unfold Tested Declared Blank lookupText
  cases hfound : req.metadata.lookup kv.1 with
  | none => simp [@eq_comm _ "" kv.2]
  | some v =>
    have hne : req.metadata ≠ [] := by
      intro hempty
      rw [hempty] at hfound
      cases hfound
    simp [hne]

/-- **Matching is the conjunction of the declared conditions** of a compiled rule, unless they hold
up to blank pairs of the metadata, there is such a pair, and the request has other metadata. -/
theorem matches_declared_iff (h : compileRule go cr.rule = some cr) (vk : Option VirtualKey)
    (req : ChatCompletionRequest) (estimatedTokens : Int) :
    (cr.matchesRequest vk req estimatedTokens = true ↔
        cr.rule.cond.Meets go vk req estimatedTokens (Declared req)) ↔
      ¬ (cr.rule.cond.Meets go vk req estimatedTokens (fun kv => Declared req kv ∨ Blank req kv) ∧
        req.metadata ≠ [] ∧ ∃ kv ∈ cr.rule.cond.metadata, Blank req kv) := by
  rw [matchesRequest_iff h]
  constructor
  · rintro hiff ⟨hmeets, hne, kv, hkv, hblank⟩
    have hpass := hmeets.imp fun kv _ hpair =>
      (tested_iff req kv).mpr (hpair.imp_right fun hblank => ⟨hne, hblank⟩)
    have hdeclared : req.metadata.lookup kv.1 = some kv.2 := (hiff.mp hpass).metadata kv hkv
    rw [hblank.2] at hdeclared
    cases hdeclared
  · refine fun hnone => ⟨fun hpass => hpass.imp fun kv hkv htested => ?_, fun hmeets =>
      hmeets.imp fun kv _ hdeclared => (tested_iff req kv).mpr (.inl hdeclared)⟩
    rcases (tested_iff req kv).mp htested with hdeclared | ⟨hne, hblank⟩
    · exact hdeclared
    · have hmeets := hpass.imp fun kv _ htested =>
        ((tested_iff req kv).mp htested).imp_right And.right
      exact absurd ⟨hmeets, hne, kv, hkv, hblank⟩ hnone

theorem before_eq (a b : CompiledRule) :
    a.before b = decide (-a.rule.priority < -b.rule.priority) := by
  simp [CompiledRule.before]

def plainGo : GoLib where
  compile := fun _ => none
  compileError := fun pattern => "error parsing regexp: missing closing ): `" ++ pattern ++ "`"
  sortRules := SliceSort.byKey (fun cr => -cr.rule.priority) before_eq
  sortCosts := SliceSort.byKey Prod.snd fun _ _ => rfl

def pairRule (key value : String) : CompiledRule where
  rule := { id := "r4", name := "tier", cond := { metadata := [(key, value)] } }
  compiledRegex := none

def pairRequest (key value : String) : ChatCompletionRequest where
  model := "gpt-4o"
  messages := none
  metadata := [(key, value)]

theorem matches_pair :
    (pairRule "tier" "gold").matchesRequest none (pairRequest "tier" "gold") 0 = true ↔
      (pairRule "tier" "gold").rule.cond.Meets plainGo none (pairRequest "tier" "gold") 0
        (Declared (pairRequest "tier" "gold")) :=
  (matches_declared_iff rfl none _ 0).mpr fun ⟨_, _, hblank⟩ =>
    absurd hblank (by unfold Blank; decide)

theorem matches_absent_key :
    (pairRule "tier" "").matchesRequest none (pairRequest "team" "a") 0 = true ∧
      ¬ (pairRule "tier" "").rule.cond.Meets plainGo none (pairRequest "team" "a") 0
        (Declared (pairRequest "team" "a")) := by
  refine ⟨by decide, fun hmeets => ?_⟩
  have hdeclared := hmeets.metadata ("tier", "") (by decide)
  exact absurd hdeclared (by unfold Declared; decide)

end LlmRouter.Routing
