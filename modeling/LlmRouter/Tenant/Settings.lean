import LlmRouter.Gateway.Types
import Mathlib.Data.Fintype.EquivFin

/-!
# LlmRouter — the settings of organisations and teams

`tenant.MergeSettings`: of two limits the smaller one counts, 0 being none; the allowed models are
the intersection of two lists. The empty list allows every model, and so does the intersection of
lists without a common model (`mergeSettings_iff`).
-/

namespace LlmRouter.Tenant

open Auth List

/-- `tenant.Settings`; amounts are exact. -/
structure Settings where
  rpmLimit : Int := 0
  tpmLimit : Int := 0
  budgetUSD : ℚ := 0
  allowedModels : List String := []
  blockedModels : List String := []
  deriving DecidableEq, Repr

def minSet {α : Type} [Zero α] [LinearOrder α] (a b : α) : α :=
  if a = 0 then b else if b = 0 then a else if a < b then a else b

def minNonZero : Int → Int → Int := minSet

def minNonZeroFloat : ℚ → ℚ → ℚ := minSet

def intersection (a b : List String) : List String := a.filter fun v => b.contains v

structure MapOrder where
  visit : List String → List String
  perm : ∀ keys, (visit keys).Perm keys

def union (order : MapOrder) (a b : List String) : List String := order.visit (a ++ b).dedup

def mergeSettings (order : MapOrder) (org team : Settings) : Settings where
  rpmLimit := minNonZero org.rpmLimit team.rpmLimit
  tpmLimit := minNonZero org.tpmLimit team.tpmLimit
  budgetUSD := minNonZeroFloat org.budgetUSD team.budgetUSD
  allowedModels :=
    if org.allowedModels.length = 0 then team.allowedModels
    else if team.allowedModels.length = 0 then org.allowedModels
    else intersection org.allowedModels team.allowedModels
  blockedModels := union order org.blockedModels team.blockedModels

/-! ## What settings permit -/

def Settings.Permits (s : Settings) (model : String) : Prop :=
  VirtualKey.canAccessModel
    { id := "", allowedModels := s.allowedModels, blockedModels := s.blockedModels } model = .ok ()

instance (s : Settings) (model : String) : Decidable (s.Permits model) :=
  inferInstanceAs (Decidable (_ = _))

structure Stricter {α : Type} [Zero α] [LinearOrder α] (a b merged : α) : Prop where
  unset : merged = 0 → a = 0 ∧ b = 0
  left : a ≠ 0 → merged ≤ a
  right : b ≠ 0 → merged ≤ b

structure OnlyRestricts (org team merged : Settings) : Prop where
  models : ∀ model, merged.Permits model ↔ org.Permits model ∧ team.Permits model
  rpm : Stricter org.rpmLimit team.rpmLimit merged.rpmLimit
  tpm : Stricter org.tpmLimit team.tpmLimit merged.tpmLimit
  budget : Stricter org.budgetUSD team.budgetUSD merged.budgetUSD

theorem minSet_stricter {α : Type} [Zero α] [LinearOrder α] (a b : α) :
    Stricter a b (minSet a b) := by
  unfold minSet
  split_ifs with ha hb hlt
  · exact ⟨fun h => ⟨ha, h⟩, fun h => absurd ha h, fun _ => le_rfl⟩
  · exact ⟨fun h => absurd h ha, fun _ => le_rfl, fun h => absurd hb h⟩
  · exact ⟨fun h => absurd h ha, fun _ => le_rfl, fun _ => hlt.le⟩
  · exact ⟨fun h => absurd h hb, fun _ => not_lt.mp hlt, fun _ => le_rfl⟩

theorem permits_iff {s : Settings} {model : String} :
    s.Permits model ↔ model ∉ s.blockedModels ∧
      (s.allowedModels = [] ∨ model ∈ s.allowedModels) := by
  simp only [Settings.Permits, VirtualKey.canAccessModel]
  by_cases hblocked : model ∈ s.blockedModels
  · simp [hblocked]
  · by_cases hallowed : model ∈ s.allowedModels
    · simp [hblocked, hallowed]
    · simp [hblocked, hallowed, length_pos_iff]

variable {order : MapOrder} {org team : Settings} {model : String}

theorem mem_union {a b : List String} : model ∈ union order a b ↔ model ∈ a ∨ model ∈ b := by
  rw [union, (order.perm _).mem_iff, mem_dedup, mem_append]

theorem merged_blocked : model ∈ (mergeSettings order org team).blockedModels ↔
    model ∈ org.blockedModels ∨ model ∈ team.blockedModels := mem_union

theorem merged_allowed (h : org.allowedModels = [] ∨ team.allowedModels = [] ∨
      ∃ m ∈ org.allowedModels, m ∈ team.allowedModels) :
    ((mergeSettings order org team).allowedModels = [] ∨
        model ∈ (mergeSettings order org team).allowedModels) ↔
      (org.allowedModels = [] ∨ model ∈ org.allowedModels) ∧
        (team.allowedModels = [] ∨ model ∈ team.allowedModels) := by
  simp only [mergeSettings, length_eq_zero_iff]
  by_cases horg : org.allowedModels = []
  · simp [horg]
  · by_cases hteam : team.allowedModels = []
    · simp [horg, hteam]
    · obtain ⟨m, hm, hm'⟩ := (h.resolve_left horg).resolve_left hteam
      have hne : intersection org.allowedModels team.allowedModels ≠ [] :=
        ne_nil_of_mem (a := m) (by simp [intersection, hm, hm'])
      have hmem : model ∈ intersection org.allowedModels team.allowedModels ↔
          model ∈ org.allowedModels ∧ model ∈ team.allowedModels := by
        simp [intersection]
      simp only [horg, hteam, hne, hmem, if_false, false_or]

theorem merged_disjoint (horg : org.allowedModels ≠ []) (hteam : team.allowedModels ≠ [])
    (h : ¬ ∃ m ∈ org.allowedModels, m ∈ team.allowedModels) :
    (mergeSettings order org team).allowedModels = [] := by
  simp only [mergeSettings, length_eq_zero_iff, if_neg horg, if_neg hteam, intersection]
  exact filter_eq_nil_iff.mpr fun m hm hm' => h ⟨m, hm, by simpa using hm'⟩

/-- **Merging only restricts, unless the allow lists are disjoint.** The merged settings permit
exactly the models that both permit and have limits as strict as both iff one of the allow lists is
empty or some model is in both. -/
theorem mergeSettings_iff (order : MapOrder) (org team : Settings) :
    OnlyRestricts org team (mergeSettings order org team) ↔
      org.allowedModels = [] ∨ team.allowedModels = [] ∨
        ∃ m ∈ org.allowedModels, m ∈ team.allowedModels := by
  constructor
  · intro h
    by_contra hno
    push Not at hno
    obtain ⟨horg, hteam, hdisjoint⟩ := hno
    have hno : ¬ ∃ m ∈ org.allowedModels, m ∈ team.allowedModels :=
      fun ⟨m, hm, hm'⟩ => hdisjoint m hm hm'
    -- a model that no list names is permitted by the merged settings and by neither of the two
    obtain ⟨model, hfresh⟩ := Infinite.exists_notMem_finset
      (org.blockedModels ++ team.blockedModels ++ org.allowedModels).toFinset
    simp only [mem_toFinset, mem_append, not_or] at hfresh
    have hmerged : (mergeSettings order org team).Permits model :=
      permits_iff.mpr ⟨by simpa [merged_blocked] using hfresh.1,
        .inl (merged_disjoint horg hteam hno)⟩
    have hallowed := (permits_iff.mp ((h.models model).mp hmerged).1).2
    exact hallowed.elim horg hfresh.2
  · intro h
    refine ⟨fun model => ?_, minSet_stricter _ _, minSet_stricter _ _, minSet_stricter _ _⟩
    rw [permits_iff, permits_iff, permits_iff, merged_blocked, merged_allowed h, not_or]
    tauto

def MapOrder.insertion : MapOrder where
  visit := fun keys => keys
  perm := fun _ => .refl _

theorem disjoint_lists_permit_all :
    let org : Settings := { allowedModels := ["gpt-4o"] }
    let team : Settings := { allowedModels := ["claude"] }
    let merged := mergeSettings .insertion org team
    merged.allowedModels = [] ∧ merged.Permits "o1" ∧ ¬ org.Permits "o1" ∧ ¬ team.Permits "o1" ∧
      ¬ OnlyRestricts org team merged := by
  intro org team merged
  have hpermits : merged.Permits "o1" := by decide
  have hdenied : ¬ org.Permits "o1" := by decide
  exact ⟨by decide, hpermits, hdenied, by decide,
    fun h => hdenied ((h.models "o1").mp hpermits).1⟩

end LlmRouter.Tenant
