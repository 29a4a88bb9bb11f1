import LlmRouter.Lib.InsertionSort
import LlmRouter.Gateway.Fallback

/-!
# LlmRouter — the ranking of a quality tier

`Scorer.RankTier` (`internal/mlrouter/scorer.go`) takes the entries of a tier, or of another
one if that has none, and sorts them by their scores.
-/

namespace LlmRouter.MlRouter

open Lib Gateway List

structure ModelEntry where
  provider : String
  model : String
  qualityScore : ℚ
  deriving DecidableEq, Repr

def complexitySimple : String := "economy"

def complexityMedium : String := "medium"

/-- The loop over the fallback tiers: the first with entries replaces `entries`. -/
def fallbackEntries (tiers : String → Option (List ModelEntry)) (entries : List ModelEntry) :
    List String → List ModelEntry
  | [] => entries
  | fallbackTier :: rest =>
    match tiers fallbackTier with
    | some e => if 0 < e.length then e else fallbackEntries tiers entries rest
    | none => fallbackEntries tiers entries rest

/-- The entries that `RankTier` sorts. A tier that the map does not have is nil. -/
def tierEntries (tiers : String → Option (List ModelEntry)) (tier : String) : List ModelEntry :=
  let entries := (tiers tier).getD []
  if tiers tier = none ∨ entries.length = 0 then
    fallbackEntries tiers entries [complexityMedium, complexitySimple]
  else entries

def ModelEntry.target (e : ModelEntry) : Target := { provider := e.provider, model := e.model }

variable {κ : Type*} [LinearOrder κ]

/-- `RankTier`; `score` is `Score` with the token estimates of the request. -/
def rankTier (tiers : String → Option (List ModelEntry)) (score : ModelEntry → κ)
    (tier : String) : Chain :=
  let results := (tierEntries tiers tier).map fun e => (e, score e)
  { name := "ml-" ++ tier
    targets := (sortDescending Prod.snd results).map fun r => r.1.target }

variable {tiers : String → Option (List ModelEntry)}

def firstNonEmpty (tiers : String → Option (List ModelEntry)) (names : List String) :
    List ModelEntry :=
  ((names.filterMap tiers).find? fun e => e ≠ []).getD []

theorem firstNonEmpty_cons (t : String) (names : List String) :
    firstNonEmpty tiers (t :: names) =
      if (tiers t).getD [] = [] then firstNonEmpty tiers names else (tiers t).getD [] := by
  cases h : tiers t with
  | none => simp [firstNonEmpty, h]
  | some e => by_cases he : e = [] <;> simp [firstNonEmpty, h, he]

theorem fallbackEntries_eq (names : List String) :
    fallbackEntries tiers [] names = firstNonEmpty tiers names := by
  induction names with
  | nil => rfl
  | cons t names ih =>
    rw [firstNonEmpty_cons, fallbackEntries, ih]
    cases tiers t with
    | none => rfl
    | some e => cases e <;> rfl

theorem tierEntries_eq (tiers : String → Option (List ModelEntry)) (tier : String) :
    tierEntries tiers tier = firstNonEmpty tiers [tier, complexityMedium, complexitySimple] := by
  rw [firstNonEmpty_cons, ← fallbackEntries_eq, tierEntries]
  cases tiers tier with
  | none => rfl
  | some e => cases e <;> rfl

theorem sortDescending_scored (score : ModelEntry → κ) (entries : List ModelEntry) :
    ∃ ranked : List ModelEntry,
      sortDescending Prod.snd (entries.map fun e => (e, score e)) =
        ranked.map (fun e => (e, score e)) := by
  refine ⟨(sortDescending Prod.snd (entries.map fun e => (e, score e))).map Prod.fst, ?_⟩
  rw [map_map, eq_comm]
  refine (map_congr_left fun r hr => ?_).trans (map_id _)
  obtain ⟨e, -, rfl⟩ := mem_map.mp ((sortDescending_perm _ _).mem_iff.mp hr)
  rfl

/-- **The ranking of a tier.** The targets are the entries of the requested tier, or else of the
first of medium and economy that has some, with no score above one before it, and those of equal
score as configured. -/
theorem rankTier_spec (tiers : String → Option (List ModelEntry)) (score : ModelEntry → κ)
    (tier : String) :
    let entries := firstNonEmpty tiers [tier, complexityMedium, complexitySimple]
    ∃ ranked : List ModelEntry,
      (rankTier tiers score tier).targets = ranked.map ModelEntry.target ∧
      ranked.Perm entries ∧ (ranked.Pairwise fun a b => score b ≤ score a) ∧
      ∀ k, (ranked.filter fun e => score e = k) = entries.filter fun e => score e = k := by
  intro entries
  let pair := fun e => (e, score e)
  have hinj : Function.Injective pair := fun a b h => (Prod.mk.inj h).1
  obtain ⟨ranked, hranked⟩ := sortDescending_scored score entries
  refine ⟨ranked, ?_, ?_, ?_, fun k => ?_⟩
  · rw [rankTier, tierEntries_eq]
    dsimp only
    rw [hranked, map_map]
    rfl
  · have hperm := sortDescending_perm Prod.snd (entries.map pair)
    rw [hranked] at hperm
    exact (map_perm_map_iff hinj).mp hperm
  · have hpairs := sortDescending_pairwise Prod.snd (entries.map pair)
    rw [hranked] at hpairs
    exact pairwise_map.mp hpairs
  · have hfilter := sortDescending_filter Prod.snd (entries.map pair) k
    rw [hranked, filter_map, filter_map] at hfilter
    exact map_injective_iff.mpr hinj hfilter

end LlmRouter.MlRouter
