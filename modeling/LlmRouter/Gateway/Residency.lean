import LlmRouter.Gateway.Fallback

/-!
# LlmRouter — data residency policies

`internal/residency`: a policy allows or forbids providers by name, and the enforcer filters a
fallback chain. An unknown policy restricts nothing. `filterChain_ok` is all that callers need.
-/

namespace LlmRouter.Residency

open Gateway

structure ProviderConstraint where
  name : String
  region : String := ""
  deriving DecidableEq, Repr

/-- `residency.Policy`; the maps are lists of their entries. -/
structure Policy where
  name : String
  allowedProviders : List (String × ProviderConstraint) := []
  blockedProviders : List (String × Bool) := []
  deriving DecidableEq, Repr

/-- The denylist takes precedence; without an allowlist every other provider is permitted. -/
def Policy.isProviderAllowed (p : Policy) (providerName : String) : Bool :=
  if (p.blockedProviders.lookup providerName).getD false then false
  else if p.allowedProviders.length = 0 then true
  else (p.allowedProviders.lookup providerName).isSome

/-- `residency.Registry`, built from its policies: of two with one name the
later is kept. -/
structure PolicyRegistry where
  policies : List Policy

def PolicyRegistry.get (r : PolicyRegistry) (name : String) : Option Policy :=
  r.policies.reverse.find? fun p => p.name == name

structure ErrNoCompliantProvider where
  policy : String
  provider : String
  model : String
  deriving DecidableEq, Repr

def ErrNoCompliantProvider.text (e : ErrNoCompliantProvider) : String :=
  "data residency policy '" ++ e.policy ++ "' does not allow provider '" ++ e.provider ++
    "' for model '" ++ e.model ++ "'"

structure Enforcer where
  registry : PolicyRegistry

def Enforcer.filterChain (e : Enforcer) (policyName : String) (chain : Chain) (model : String) :
    Except ErrNoCompliantProvider Chain :=
  match e.registry.get policyName with
  -- unknown policy = no restriction
  | none => .ok chain
  | some policy =>
    let filtered := chain.targets.filter fun t => policy.isProviderAllowed t.provider
    if filtered.length = 0 then
      .error { policy := policyName, provider := chain.primary, model := model }
    else .ok { name := chain.name, targets := filtered }

/-- A filtered chain has the allowed targets, and at least one. -/
theorem filterChain_ok {e : Enforcer} {policyName model : String} {chain filtered : Chain}
    {policy : Policy} (hknown : e.registry.get policyName = some policy)
    (h : e.filterChain policyName chain model = .ok filtered) :
    filtered.targets ≠ [] ∧ ∀ t, t ∈ filtered.targets ↔
      t ∈ chain.targets ∧ policy.isProviderAllowed t.provider = true := by
  simp only [Enforcer.filterChain, hknown] at h
  split_ifs at h with hempty
  cases h
  exact ⟨fun hnil => hempty (List.length_eq_zero_iff.mpr hnil), fun t => List.mem_filter⟩

end LlmRouter.Residency
