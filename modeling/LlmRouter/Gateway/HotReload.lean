import LlmRouter.Lib.Pool
import LlmRouter.Guardrail.Pipeline
import LlmRouter.Routing.DryRun

/-!
# LlmRouter — hot reload

The admin requests that change guardrail policies, routing rules and the routing configuration.
Each writes its store, lists it and installs what it builds from the list, in separate steps, so a
request that was overtaken installs an old list. A `List` that fails after a change, and a rule
that does not compile, are logged or dropped. `reload_iff` says when the gateway runs with what is
stored.
-/

namespace LlmRouter.HotReload

open Lib Gateway Routing Guardrail

/-! ## Guardrail policies -/

structure PolicyRecord where
  guardrailType : String
  isEnabled : Bool
  action : String
  engine : String
  configJSON : String
  sortOrder : Int
  deriving DecidableEq, Repr

/-- `updateGuardrailRequest`: the fields to change. -/
structure PolicyPatch where
  isEnabled : Option Bool := none
  action : Option String := none
  engine : Option String := none
  configJSON : Option String := none
  sortOrder : Option Int := none
  deriving DecidableEq, Repr

def PolicyRecord.patched (rec : PolicyRecord) (p : PolicyPatch) : PolicyRecord where
  guardrailType := rec.guardrailType
  isEnabled := p.isEnabled.getD rec.isEnabled
  action := p.action.getD rec.action
  engine := p.engine.getD rec.engine
  configJSON := p.configJSON.getD rec.configJSON
  sortOrder := p.sortOrder.getD rec.sortOrder

def PolicyRecord.before (a b : PolicyRecord) : Prop :=
  a.sortOrder < b.sortOrder ∨ (a.sortOrder = b.sortOrder ∧ a.guardrailType ≤ b.guardrailType)

instance : DecidableRel PolicyRecord.before := fun _ _ =>
  inferInstanceAs (Decidable (_ ∨ (_ ∧ _)))

variable (table : List PolicyRecord)

def listPolicies : List PolicyRecord :=
  table.insertionSort PolicyRecord.before

def getByType (guardrailType : String) : Option PolicyRecord :=
  table.find? fun rec => rec.guardrailType == guardrailType

def upsert (rec : PolicyRecord) : List PolicyRecord :=
  if (getByType table rec.guardrailType).isSome then
    table.map fun old => if old.guardrailType = rec.guardrailType then rec else old
  else table ++ [rec]

/-- Step 2 of `UpdateAll`: the patched records and their types. The records are pointers, so a later
patch shows in an earlier entry. -/
def patchAll : List PolicyRecord → List (String × PolicyPatch) →
    Option (List PolicyRecord × List String)
  | existing, [] => some (existing, [])
  | existing, (guardrailType, patch) :: rest =>
    if guardrailType = "" then patchAll existing rest
    else match getByType existing guardrailType with
      | none => none
      | some rec =>
        (patchAll (upsert existing (rec.patched patch)) rest).map fun r =>
          (r.1, guardrailType :: r.2)

def upsertAll (recs : List PolicyRecord) : List PolicyRecord :=
  recs.foldl upsert table

/-! ## Routing rules -/

/-- `RoutingRuleStore.List`: by priority, then by creation. -/
def listRules (table : List RouteRule) : List RouteRule :=
  table.insertionSort fun a b => b.priority ≤ a.priority

/-- What `Reload` makes the engine's rules, unless a rule does not compile. -/
def buildRules (go : GoLib) (table : List RouteRule) : Option (List CompiledRule) :=
  (compileRules go (listRules table)).toOption.map go.sortRules.sort

/-- The statements that change the table of rules; `none` is an error. -/
inductive RuleChange where
  | create (rule : RouteRule)
  | update (rule : RouteRule)
  | delete (id : String)
  deriving DecidableEq

/-- `Create`, `Update` and `Delete` of `RoutingRuleStore`; `newID` is `uuid.New()`. -/
def RuleChange.apply (newID : String) (table : List RouteRule) :
    RuleChange → Option (List RouteRule)
  | .create rule => some (table ++ [{ rule with id := newID }])
  | .update rule =>
    if table.any (fun r => r.id == rule.id) then
      some (table.map fun r => if r.id = rule.id then rule else r)
    else none
  | .delete id =>
    if table.any (fun r => r.id == id) then some (table.filter fun r => r.id != id) else none

def RuleChange.status : RuleChange → Nat
  | .create _ => 201
  | .update _ => 200
  | .delete _ => 204

/-! ## The routing configuration -/

structure FallbackChainConfig where
  name : String
  targets : List Target
  deriving DecidableEq, Repr

/-- `config.RoutingConfig`, without the thresholds of the circuit breaker. -/
structure RoutingConfig where
  fallbackChains : List FallbackChainConfig
  deriving DecidableEq, Repr

def buildFallbackChains (rc : RoutingConfig) : List Chain :=
  rc.fallbackChains.map fun fc => { name := fc.name, targets := fc.targets }

/-- `SetChains`: the chains by name, the last one of a name. -/
def setChains (chains : List Chain) (name : String) : Option Chain :=
  chains.reverse.find? fun c => c.name == name

/-! ## Requests as threads -/

structure Wiring where
  buildPipeline : List PolicyRecord → Option Pipeline
  go : GoLib

/-- The pipeline of a table of policies; no pipeline is a pipeline that lets all through. -/
def Wiring.policies (w : Wiring) (table : List PolicyRecord) : Option (Option Pipeline) :=
  some (w.buildPipeline (listPolicies table))

def Wiring.rules (w : Wiring) (table : List RouteRule) : Option (List CompiledRule) :=
  buildRules w.go table

def Wiring.chains (_ : Wiring) (cfg : RoutingConfig) : Option (String → Option Chain) :=
  some (setChains (buildFallbackChains cfg))

structure Shared where
  policies : Cell (List PolicyRecord) (Option Pipeline)
  rules : Cell (List RouteRule) (List CompiledRule)
  config : Cell RoutingConfig (String → Option Chain)

/-- An admin request. A body that does not decode, or an id that is no UUID, is `none`. -/
inductive Call where
  | updatePolicy (guardrailType : String) (body : Option PolicyPatch)
  | updateAllPolicies (body : Option (List (String × PolicyPatch)))
  | changeRule (change : Option RuleChange)
  | reloadRules
  | updateConfig (body : Option RoutingConfig)
  | reloadConfig

/-- Where a request stands. `lax` says that an error of the reload is dropped. -/
inductive Point where
  | getPolicy (guardrailType : String) (body : Option PolicyPatch)
  | upsertPolicy (rec : PolicyRecord)
  | listAll (patches : List (String × PolicyPatch))
  | upsertAll (recs : List PolicyRecord)
  | listPolicies (lax : Bool)
  | setPipeline (listed : List PolicyRecord)
  | writeRule (change : RuleChange)
  | listRules (lax : Bool) (status : Nat)
  | reloadEngine (listed : List RouteRule) (lax : Bool) (status : Nat)
  | getConfig
  | setConfig (cfg : RoutingConfig)
  | notify (cfg : RoutingConfig)
  | done (status : Nat)

/-- A step may fail, and a new rule gets an id. -/
structure Input where
  fault : Bool
  newID : String

def RuleChange.valid : RuleChange → Bool
  | .create rule => rule.name != "" && !rule.targets.isEmpty
  | _ => true

/-- Where a request starts: bodies are checked first, except for `Update` of a policy. -/
def Call.start : Call → Point
  | .updatePolicy guardrailType body => .getPolicy guardrailType body
  | .updateAllPolicies none => .done 400
  | .updateAllPolicies (some patches) => .listAll patches
  | .changeRule none => .done 400
  | .changeRule (some change) => if change.valid then .writeRule change else .done 400
  | .reloadRules => .listRules false 200
  | .updateConfig none => .done 400
  | .updateConfig (some cfg) => .setConfig cfg
  | .reloadConfig => .getConfig

def next (w : Wiring) (s : Shared) (x : Input) : Point → Option (Shared × Point)
  | .getPolicy guardrailType body =>
    if x.fault then some (s, .done 500)
    else match getByType s.policies.stored guardrailType, body with
      | none, _ => some (s, .done 404)
      | some _, none => some (s, .done 400)
      | some rec, some patch => some (s, .upsertPolicy (rec.patched patch))
  | .upsertPolicy rec =>
    if x.fault then some (s, .done 500)
    else some ({ s with policies := s.policies.write (upsert s.policies.stored rec) },
      .listPolicies true)
  | .listAll patches =>
    if x.fault then some (s, .done 500)
    else match patchAll s.policies.stored patches with
      | none => some (s, .done 404)
      | some (recs, types) => some (s, .upsertAll (types.filterMap (getByType recs)))
  | .upsertAll recs =>
    if x.fault then some (s, .done 500)
    else some ({ s with policies := s.policies.write (HotReload.upsertAll s.policies.stored recs) },
      .listPolicies false)
  | .listPolicies lax =>
    if x.fault then some (s, .done (if lax then 200 else 500))
    else some (s, .setPipeline s.policies.stored)
  | .setPipeline listed =>
    some ({ s with policies := s.policies.install w.policies listed }, .done 200)
  | .writeRule change =>
    if x.fault then some (s, .done 500)
    else match change.apply x.newID s.rules.stored with
      | none => some (s, .done 500)
      | some table =>
        some ({ s with rules := s.rules.write table }, .listRules true change.status)
  | .listRules lax status =>
    if x.fault then some (s, .done (if lax then status else 500))
    else some (s, .reloadEngine s.rules.stored lax status)
  | .reloadEngine listed lax status =>
    some ({ s with rules := s.rules.install w.rules listed },
      .done (if lax ∨ (w.rules listed).isSome then status else 500))
  | .getConfig => some (s, .setConfig s.config.stored)
  | .setConfig cfg => some ({ s with config := s.config.write cfg }, .notify cfg)
  | .notify cfg => some ({ s with config := s.config.install w.chains cfg }, .done 200)
  | .done _ => none

def adminCode (w : Wiring) : Code Shared Call Point Input where
  start := Call.start
  next := next w

/-! ## Convergence -/

variable {w : Wiring} {s : Shared} {p : Pool Shared Point} {ms : List (Move Call Input)}

/-- What is active was built from what its last installation had listed. -/
structure Shared.Built (w : Wiring) (s : Shared) : Prop where
  policies : s.policies.Built w.policies
  rules : s.rules.Built w.rules
  config : s.config.Built w.chains

structure Shared.Converged (w : Wiring) (s : Shared) : Prop where
  policies : s.policies.Current w.policies
  rules : s.rules.Current w.rules
  config : s.config.Current w.chains

/-- The changes after the last installation's list left what is built as it was. -/
structure Shared.Unchanged (w : Wiring) (s : Shared) : Prop where
  policies : s.policies.Unchanged w.policies
  rules : s.rules.Unchanged w.rules
  config : s.config.Unchanged w.chains

structure Shared.Fresh (w : Wiring) (s : Shared) : Prop where
  built : s.Built w
  unchanged : s.Unchanged w

def Point.succeeded : Point → Bool
  | .done status => decide (status < 400)
  | _ => false

def Returned (p : Pool Shared Point) : Prop := ∀ t ∈ p.threads, t.succeeded = true

instance (p : Pool Shared Point) : Decidable (Returned p) :=
  inferInstanceAs (Decidable (∀ t ∈ p.threads, t.succeeded = true))

theorem Shared.Built.converged_iff (h : s.Built w) : s.Converged w ↔ s.Unchanged w := by
  constructor
  · rintro ⟨hpolicies, hrules, hconfig⟩
    exact ⟨h.policies.current_iff.mp hpolicies, h.rules.current_iff.mp hrules,
      h.config.current_iff.mp hconfig⟩
  · rintro ⟨hpolicies, hrules, hconfig⟩
    exact ⟨h.policies.current_iff.mpr hpolicies, h.rules.current_iff.mpr hrules,
      h.config.current_iff.mpr hconfig⟩

inductive Store where
  | policies
  | rules
  | config
  deriving DecidableEq, Repr

/-- The request has changed a store, and what it builds is still to be installed. -/
def Point.Owes : Point → Store → Prop
  | .listPolicies _, .policies | .setPipeline _, .policies => True
  | .listRules _ _, .rules | .reloadEngine _ _ _, .rules => True
  | .notify _, .config => True
  | _, _ => False

def Point.Installs : Point → Store → Prop
  | .setPipeline _, .policies | .reloadEngine _ _ _, .rules | .notify _, .config => True
  | _, _ => False

/-- No `List` after a change fails, and no rule is refused. -/
def Answered (w : Wiring) (_ : Shared) (x : Input) : Point → Prop
  | .listPolicies _ | .listRules _ _ => x.fault = false
  | .reloadEngine listed _ _ => (w.rules listed).isSome = true
  | _ => True

/-- What is installed builds the same as what is stored by then: the request was not
overtaken. -/
def Timely (w : Wiring) (s : Shared) : Point → Prop
  | .setPipeline listed => w.policies s.policies.stored = w.policies listed
  | .reloadEngine listed _ _ => w.rules s.rules.stored = w.rules listed
  | .notify cfg => w.chains s.config.stored = w.chains cfg
  | _ => True

/-- The last installation at a store in a run, if there is one, is timely. -/
def LastTimely (w : Wiring) (s : Shared) (ms : List (Move Call Input)) (store : Store) : Prop :=
  ∀ before i x after q q' t, ms = before ++ .advance i x :: after →
    runFrom (Pool.step (adminCode w)) (Pool.init s) before = some q →
    q.threads[i]? = some t → t.Installs store → q.step (adminCode w) (.advance i x) = some q' →
    AlongFrom (Pool.step (adminCode w)) (Pool.Ok fun _ _ t => ¬ t.Installs store) q' after →
      Timely w q.shared t

inductive Effect (w : Wiring) (s : Shared) (x : Input) : Point → Shared → Point → Prop where
  | read {t t' : Point} (hkeep : ∀ store, t.Owes store → t'.Owes store ∨ ¬ Answered w s x t) :
      Effect w s x t s t'
  | writePolicies {t : Point} (hnone : ∀ store, t.Owes store → False)
      (table : List PolicyRecord) (lax : Bool) :
      Effect w s x t { s with policies := s.policies.write table } (.listPolicies lax)
  | writeRules {t : Point} (hnone : ∀ store, t.Owes store → False) (table : List RouteRule)
      (lax : Bool) (status : Nat) :
      Effect w s x t { s with rules := s.rules.write table } (.listRules lax status)
  | writeConfig {t : Point} (hnone : ∀ store, t.Owes store → False) (cfg : RoutingConfig) :
      Effect w s x t { s with config := s.config.write cfg } (.notify cfg)
  | installPolicies (listed : List PolicyRecord) (status : Nat) :
      Effect w s x (.setPipeline listed)
        { s with policies := s.policies.install w.policies listed } (.done status)
  | installRules (listed : List RouteRule) (lax : Bool) (status status' : Nat) :
      Effect w s x (.reloadEngine listed lax status)
        { s with rules := s.rules.install w.rules listed } (.done status')
  | installConfig (cfg : RoutingConfig) (status : Nat) :
      Effect w s x (.notify cfg)
        { s with config := s.config.install w.chains cfg } (.done status)

theorem next_effect {x : Input} {t t' : Point} {s' : Shared}
    (h : next w s x t = some (s', t')) : Effect w s x t s' t' := by
  cases t with
  | getPolicy | listAll =>
    simp only [next] at h
    split at h
    · cases h
      exact .read nofun
    · split at h <;> cases h <;> exact .read nofun
  | upsertPolicy | upsertAll =>
    simp only [next] at h
    split at h <;> cases h
    · exact .read nofun
    · exact .writePolicies (fun _ => id) _ _
  | listPolicies | listRules =>
    simp only [next] at h
    split at h
    case isTrue hfault =>
      cases h
      exact .read fun _ _ => .inr (by simp [Answered, hfault])
    case isFalse =>
      cases h
      refine .read fun store howes => .inl ?_
      cases store <;> trivial
  | setPipeline listed =>
    cases h
    exact .installPolicies _ _
  | writeRule change =>
    simp only [next] at h
    split at h
    · cases h
      exact .read nofun
    · split at h <;> cases h
      · exact .read nofun
      · exact .writeRules (fun _ => id) _ _ _
  | reloadEngine listed lax status =>
    cases h
    exact .installRules _ _ _ _
  | getConfig =>
    cases h
    exact .read nofun
  | setConfig cfg =>
    cases h
    exact .writeConfig (fun _ => id) _
  | notify cfg =>
    cases h
    exact .installConfig _ _
  | done status => cases h

theorem Effect.built {x : Input} {t t' : Point} {s' : Shared} (he : Effect w s x t s' t')
    (h : s.Built w) : s'.Built w := by
  cases he with
  | read => exact h
  | writePolicies _ table => exact ⟨h.policies.write table, h.rules, h.config⟩
  | writeRules _ table => exact ⟨h.policies, h.rules.write table, h.config⟩
  | writeConfig _ cfg => exact ⟨h.policies, h.rules, h.config.write cfg⟩
  | installPolicies listed => exact ⟨h.policies.install listed, h.rules, h.config⟩
  | installRules listed => exact ⟨h.policies, h.rules.install listed, h.config⟩
  | installConfig cfg => exact ⟨h.policies, h.rules, h.config.install cfg⟩

theorem built_outline (w : Wiring) :
    Outline (adminCode w) (fun _ _ _ => True) 0 (Shared.Built w) fun _ _ _ => True where
  start := fun _ _ _ _ _ => trivial
  inv := fun _ _ _ _ _ _ hs _ _ h => (next_effect h).built hs
  self := fun _ _ _ _ _ _ _ _ _ _ => trivial
  frame := fun _ _ _ _ _ _ _ _ _ _ _ _ _ => trivial

theorem built_run (hs : s.Built w)
    (hrun : runFrom (Pool.step (adminCode w)) (Pool.init s) ms = some p) :
    p.shared.Built w :=
  ((built_outline w).run_init hs (Pool.along_true _ _ _) hrun).inv

/-- What is stored at a store builds the same as what its last installation had listed. -/
def Shared.UnchangedAt (w : Wiring) (s : Shared) : Store → Prop
  | .policies => s.policies.Unchanged w.policies
  | .rules => s.rules.Unchanged w.rules
  | .config => s.config.Unchanged w.chains

theorem Shared.unchanged_iff : s.Unchanged w ↔ ∀ store, s.UnchangedAt w store := by
  constructor
  · intro h store
    cases store
    exacts [h.policies, h.rules, h.config]
  · intro h
    exact ⟨h .policies, h .rules, h .config⟩

def Shared.SameAt (s s' : Shared) : Store → Prop
  | .policies => s.policies = s'.policies
  | .rules => s.rules = s'.rules
  | .config => s.config = s'.config

theorem Shared.SameAt.unchangedAt_iff {s s' : Shared} {store : Store} (h : s.SameAt s' store) :
    s.UnchangedAt w store ↔ s'.UnchangedAt w store := by
  cases store with
  | policies => exact iff_of_eq (congrArg (Cell.Unchanged w.policies) h)
  | rules => exact iff_of_eq (congrArg (Cell.Unchanged w.rules) h)
  | config => exact iff_of_eq (congrArg (Cell.Unchanged w.chains) h)

/-- Between installations, whoever changes a store owes one. -/
theorem reload_debt (w : Wiring) (store : Store) (s₀ : Shared) :
    Debt (adminCode w) (fun s x t => Answered w s x t ∧ ¬ t.Installs store)
      (fun s => s.SameAt s₀ store) fun t => t.Owes store where
  step := by
    rintro s x t s' t' ⟨hanswered, hinstalls⟩ h
    cases next_effect h with
    | read hkeep =>
      by_cases howes : t.Owes store
      · rcases hkeep store howes with hnext | hlate
        · exact .inl hnext
        · exact absurd hanswered hlate
      · exact .inr (.inr ⟨howes, id⟩)
    | writePolicies hnone table lax =>
      cases store with
      | policies => exact .inl trivial
      | rules | config => exact .inr (.inr ⟨hnone _, id⟩)
    | writeRules hnone table lax status =>
      cases store with
      | rules => exact .inl trivial
      | policies | config => exact .inr (.inr ⟨hnone _, id⟩)
    | writeConfig hnone cfg =>
      cases store with
      | config => exact .inl trivial
      | policies | rules => exact .inr (.inr ⟨hnone _, id⟩)
    | installPolicies listed status =>
      cases store with
      | policies => exact absurd trivial hinstalls
      | rules | config => exact .inr (.inr ⟨id, id⟩)
    | installRules listed lax status status' =>
      cases store with
      | rules => exact absurd trivial hinstalls
      | policies | config => exact .inr (.inr ⟨id, id⟩)
    | installConfig cfg status =>
      cases store with
      | config => exact absurd trivial hinstalls
      | policies | rules => exact .inr (.inr ⟨id, id⟩)

theorem unchangedAt_install {store : Store} {x : Input} {t t' : Point} {s' : Shared}
    (hanswered : Answered w s x t) (hinstalls : t.Installs store)
    (h : next w s x t = some (s', t')) : s'.UnchangedAt w store ↔ Timely w s t := by
  cases t with
  | setPipeline listed =>
    cases h
    cases store with
    | policies => exact Cell.unchanged_install_iff rfl
    | rules | config => cases hinstalls
  | reloadEngine listed lax status =>
    cases h
    cases store with
    | rules => exact Cell.unchanged_install_iff hanswered
    | policies | config => cases hinstalls
  | notify cfg =>
    cases h
    cases store with
    | config => exact Cell.unchanged_install_iff rfl
    | policies | rules => cases hinstalls
  | _ => cases hinstalls

theorem not_owes_of_succeeded {t : Point} (h : t.succeeded = true) (store : Store) :
    ¬ t.Owes store := by
  cases t with
  | done status => exact id
  | _ => cases h

/-- Nothing changes at a store after its last installation, once all have returned. -/
theorem sameAt_of_no_install {q : Pool Shared Point} {store : Store}
    (hanswered : AlongFrom (Pool.step (adminCode w)) (Pool.Ok (Answered w)) q ms)
    (hnone : AlongFrom (Pool.step (adminCode w)) (Pool.Ok fun _ _ t => ¬ t.Installs store) q ms)
    (hrun : runFrom (Pool.step (adminCode w)) q ms = some p) (hret : Returned p) :
    p.shared.SameAt q.shared store := by
  have hok : AlongFrom (Pool.step (adminCode w))
      (Pool.Ok fun s x t => Answered w s x t ∧ ¬ t.Installs store) q ms := by
    refine (alongFrom_iff (P := fun _ => True) (fun s m _ => ?_) (fun _ _ _ _ _ _ => trivial)
      trivial ms).mpr (alongFrom_and hanswered hnone)
    cases m with
    | start => exact ⟨fun _ => ⟨trivial, trivial⟩, fun _ => trivial⟩
    | advance i x => exact ⟨fun h => ⟨fun t ht => (h t ht).1, fun t ht => (h t ht).2⟩,
        fun h t ht => ⟨h.1 t ht, h.2 t ht⟩⟩
  refine (reload_debt w store q.shared).run ?_ hok hrun fun t ht =>
    not_owes_of_succeeded (hret t ht) store
  cases store <;> rfl

theorem unchangedAt_iff_lastTimely {store : Store} (hs : s.UnchangedAt w store)
    (hanswered : AlongFrom (Pool.step (adminCode w)) (Pool.Ok (Answered w)) (Pool.init s) ms)
    (hrun : runFrom (Pool.step (adminCode w)) (Pool.init s) ms = some p) (hret : Returned p) :
    p.shared.UnchangedAt w store ↔ LastTimely w s ms store := by
  -- after an installation that is the last, what it found decides
  have hlast : ∀ before i x after q q' t, ms = before ++ .advance i x :: after →
      runFrom (Pool.step (adminCode w)) (Pool.init s) before = some q →
      q.threads[i]? = some t → t.Installs store → q.step (adminCode w) (.advance i x) = some q' →
      AlongFrom (Pool.step (adminCode w)) (Pool.Ok fun _ _ t => ¬ t.Installs store) q' after →
        (p.shared.UnchangedAt w store ↔ Timely w q.shared t) := by
    rintro before i x after q q' t rfl hq hi hinstalls hstep hnone
    have hrest := alongFrom_append hanswered hq
    rw [runFrom_append, hq, Option.bind_some, runFrom, hstep, Option.bind_some] at hrun
    obtain ⟨t₀, s', t', hi₀, hnext, rfl⟩ := Pool.step_advance hstep
    obtain rfl : t = t₀ := Option.some.inj (hi.symm.trans hi₀)
    rw [(sameAt_of_no_install (hrest.2 _ hstep) hnone hrun hret).unchangedAt_iff]
    exact unchangedAt_install (hrest.1 t hi) hinstalls hnext
  constructor
  · intro h before i x after q q' t hms hq hi hinstalls hstep hnone
    exact (hlast before i x after q q' t hms hq hi hinstalls hstep hnone).mp h
  · intro h
    rcases alongFrom_or_last (Pool.step (adminCode w))
      (Pool.Ok fun _ _ t => ¬ t.Installs store) (Pool.init s) ms with
      hnone | ⟨before, m, after, q, rfl, hq, hinstalls, hnone⟩
    · exact (sameAt_of_no_install hanswered hnone hrun hret).unchangedAt_iff.mpr hs
    · rw [runFrom_append, hq, Option.bind_some] at hrun
      obtain ⟨q', hstep, -⟩ := Option.bind_eq_some_iff.mp hrun
      cases m with
      | start => exact absurd trivial hinstalls
      | advance i x =>
        obtain ⟨t, ht⟩ := not_forall.mp hinstalls
        obtain ⟨hi, hinstalls⟩ := Classical.not_imp.mp ht
        replace hinstalls := not_not.mp hinstalls
        exact (hlast before i x after q q' t rfl hq hi hinstalls hstep (hnone q' hstep)).mpr
          (h before i x after q q' t rfl hq hi hinstalls hstep (hnone q' hstep))

/-- **Convergence**: once all requests have returned, the gateway runs with what is stored iff the
changes after the `List` of the last installation left what is built as it was. If every `List`
answers and no rule is refused, that is so iff the last installation at each store was not
overtaken. -/
theorem reload_iff (hs : s.Fresh w)
    (hrun : runFrom (Pool.step (adminCode w)) (Pool.init s) ms = some p) (hret : Returned p) :
    (p.shared.Converged w ↔ p.shared.Unchanged w) ∧
      (AlongFrom (Pool.step (adminCode w)) (Pool.Ok (Answered w)) (Pool.init s) ms →
        (p.shared.Converged w ↔ ∀ store, LastTimely w s ms store)) := by
  have hconverged := (built_run hs.built hrun).converged_iff
  refine ⟨hconverged, fun hanswered => ?_⟩
  rw [hconverged, Shared.unchanged_iff]
  exact forall_congr' fun store =>
    unchangedAt_iff_lastTimely (Shared.unchanged_iff.mp hs.unchanged store) hanswered hrun hret

def plainWiring : Wiring where
  buildPipeline := fun recs => if recs.any PolicyRecord.isEnabled then some {} else none
  go := plainGo

def piiPolicy : PolicyRecord := ⟨"pii", true, "block", "regex", "", 0⟩

def oneGuardrail : Shared where
  policies := ⟨[piiPolicy], some {}, [piiPolicy]⟩
  rules := ⟨[], [], []⟩
  config := ⟨⟨[]⟩, fun _ => none, ⟨[]⟩⟩

theorem oneGuardrail_fresh : oneGuardrail.Fresh plainWiring where
  built := ⟨rfl, rfl, rfl⟩
  unchanged := ⟨rfl, rfl, rfl⟩

def chainTo (provider : String) : RoutingConfig := ⟨[⟨"main", [⟨provider, "m", 0⟩]⟩]⟩

def works (i : Nat) : Move Call Input := .advance i ⟨false, "r1"⟩

def oneByOne : List (Move Call Input) :=
  [.start (.updateConfig (some (chainTo "a"))), works 0, works 0,
    .start (.changeRule (some (.create restRule))), works 1, works 1, works 1,
    .start (.updatePolicy "pii" (some { isEnabled := some false })),
    works 2, works 2, works 2, works 2]

theorem reload_one_by_one :
    ∃ p, runFrom (Pool.step (adminCode plainWiring)) (Pool.init oneGuardrail) oneByOne = some p ∧
      p.shared.Converged plainWiring ∧ p.shared.policies.active.isNone := by
  have hrun : runFrom (Pool.step (adminCode plainWiring)) (Pool.init oneGuardrail) oneByOne =
    some _ := rfl
  exact ⟨_, hrun, (reload_iff oneGuardrail_fresh hrun (by decide)).1.mpr ⟨rfl, rfl, rfl⟩, rfl⟩

/-- Two configurations at once: the first is set first, but its listener runs last. -/
def overtaken : List (Move Call Input) :=
  [.start (.updateConfig (some (chainTo "a"))), .start (.updateConfig (some (chainTo "b"))),
    works 0, works 1, works 1, works 0]

theorem overtaken_keeps_old_chains :
    ∃ p, runFrom (Pool.step (adminCode plainWiring)) (Pool.init oneGuardrail) overtaken = some p ∧
      Returned p ∧ p.shared.config.stored = chainTo "b" ∧
      p.shared.config.active = setChains (buildFallbackChains (chainTo "a")) ∧
      ¬ p.shared.Converged plainWiring := by
  refine ⟨_, rfl, by decide, rfl, rfl, fun h => ?_⟩
  have hchains : setChains (buildFallbackChains (chainTo "b")) =
    setChains (buildFallbackChains (chainTo "a")) := Option.some.inj h.config
  exact absurd (congrFun hchains "main") (by decide)

-- A rule whose expression does not compile is stored, and the engine keeps its rules.
example : ∃ p, runFrom (Pool.step (adminCode plainWiring)) (Pool.init oneGuardrail)
    [.start (.changeRule (some (.create { restRule with cond := { modelRegex := "(" } }))),
      works 0, works 0, works 0] = some p ∧
    p.threads.map Point.succeeded = [true] ∧ p.shared.rules.stored.length = 1 ∧
    p.shared.rules.active.length = 0 :=
  ⟨_, rfl, rfl, rfl, rfl⟩

end LlmRouter.HotReload
