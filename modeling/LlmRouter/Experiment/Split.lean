import LlmRouter.Experiment.Targets
import Mathlib.Algebra.BigOperators.Fin

/-!
# LlmRouter — the traffic split of an experiment

`Assign` puts an entity into one of 100 buckets and looks for its variant with a running sum of
the weights, a `uint32`; the buckets past the sum go to the first variant. `Create` does not look
at weights or names.
-/

namespace LlmRouter.Experiments

open Gateway Lib List

/-! ## The endpoint (internal/gateway/handler/admin_abtests.go) -/

/-- The body of `POST /admin/ab-tests`, without the metrics that only the analysis reads. -/
structure CreateBody where
  name : String
  trafficSplit : List (TrafficSplit × String)
  teamIDs : List String := []
  sampleRate : ℚ := 0
  startAt : Option Int := none
  endAt : Option Int := none

def createExperiment (id : String) (body : Except String CreateBody) : Except Response Targeted :=
  match body with
  | .error err => .error (badRequest ("invalid JSON: " ++ err))
  | .ok body =>
    if body.name = "" ∨ body.trafficSplit.length < 2 then
      .error (badRequest "name and at least 2 traffic_split entries are required")
    else .ok {
      id
      status := .draft
      trafficSplit := body.trafficSplit.map Prod.fst
      sampleRate := if body.sampleRate ≤ 0 then 1 else body.sampleRate
      startAt := body.startAt
      endAt := body.endAt
      winner := none
      teamIDs := body.teamIDs
      models := body.trafficSplit.map Prod.snd
      paired := by simp }

def Targeted.started (e : Targeted) : Targeted := { e with status := .running }

/-! ## Buckets -/

def bucketOf (e : Experiment) (entityID : String) : UInt32 :=
  fnv32a (e.id ++ "\x00" ++ entityID) % 100

def pickEntry (bucket : UInt32) : UInt32 → List TrafficSplit → Option Nat
  | _, [] => none
  | cumulative, split :: rest =>
    let cumulative := cumulative + UInt32.ofNat (split.weight % 2 ^ 32).toNat
    if bucket < cumulative then some 0 else (pickEntry bucket cumulative rest).map (· + 1)

def entryOf (e : Experiment) (bucket : Nat) : Nat :=
  (pickEntry (UInt32.ofNat bucket) 0 e.trafficSplit).getD 0

/-- Every entry has as many buckets as its weight says, and the entry of a bucket is asked for
its own model. -/
structure SplitHonoured (e : Targeted) : Prop where
  share : ∀ i (h : i < e.trafficSplit.length),
    (((Finset.range 100).filter fun b => entryOf e.toExperiment b = i).card : Int) =
      e.trafficSplit[i].weight
  model : ∀ b < 100, ∀ split model, e.trafficSplit[entryOf e.toExperiment b]? = some split →
    e.models[entryOf e.toExperiment b]? = some model →
    (e.stage 0).modelForVariant split.variant = model

/-- The weights are shares of 100, and an entry with a share has the model of the first of its name. -/
structure SplitSound (e : Targeted) : Prop where
  nonneg : ∀ split ∈ e.trafficSplit, 0 ≤ split.weight
  total : (e.trafficSplit.map TrafficSplit.weight).sum = 100
  model : ∀ (i : Nat) (split : TrafficSplit) model, e.trafficSplit[i]? = some split →
    e.models[i]? = some model → 0 < split.weight → (e.stage 0).modelForVariant split.variant = model

theorem pickVariant_eq (bucket cumulative : UInt32) (splits : List TrafficSplit) :
    pickVariant bucket cumulative splits =
      (pickEntry bucket cumulative splits).bind fun i => (splits[i]?).map TrafficSplit.variant := by
  induction splits generalizing cumulative with
  | nil => rfl
  | cons split rest ih =>
    show ite _ _ (pickVariant bucket _ rest) = _
    rw [pickEntry]
    split_ifs
    · rfl
    · rw [ih]
      cases pickEntry bucket (cumulative + UInt32.ofNat (split.weight % 2 ^ 32).toNat) rest <;> rfl

theorem pickEntry_lt {bucket cumulative : UInt32} {splits : List TrafficSplit} {i : Nat}
    (h : pickEntry bucket cumulative splits = some i) : i < splits.length := by
  induction splits generalizing cumulative i with
  | nil => cases h
  | cons split rest ih =>
    rw [pickEntry] at h
    split_ifs at h
    · obtain rfl := Option.some.inj h
      exact Nat.succ_pos _
    · obtain ⟨j, hj, rfl⟩ := Option.map_eq_some_iff.mp h
      exact Nat.succ_lt_succ (ih hj)

theorem pickEntry_eq {splits : List TrafficSplit} (h : ∀ split ∈ splits, 0 ≤ split.weight)
    {b c : Nat} (hsum : c + (splits.map fun split => split.weight.toNat).sum ≤ 100)
    (hc : c ≤ b) (hb : b < 100) :
    pickEntry (UInt32.ofNat b) (UInt32.ofNat c) splits =
      Weighted.pick (splits.map fun split => split.weight.toNat) (b - c) := by
  induction splits generalizing c with
  | nil => rfl
  | cons split rest ih =>
    have hw := h split mem_cons_self
    rw [map_cons, sum_cons] at hsum
    have hnat : (split.weight % 2 ^ 32).toNat = split.weight.toNat := by omega
    rw [pickEntry, map_cons, Weighted.pick, hnat, ← UInt32.ofNat_add]
    have hlt : UInt32.ofNat b < UInt32.ofNat (c + split.weight.toNat) ↔
        b - c < split.weight.toNat := by
      have hsize : UInt32.size = 4294967296 := rfl
      rw [UInt32.ofNat_lt_iff_lt (by omega) (by omega)]
      omega
    by_cases hend : b - c < split.weight.toNat
    · rw [if_pos (hlt.mpr hend), if_pos hend]
    · rw [if_neg fun hless => hend (hlt.mp hless), if_neg hend,
        ih (fun s hs => h s (mem_cons_of_mem split hs)) (by omega) (by omega), Nat.sub_sub]

/-! ## The shares -/

variable {e : Targeted}

theorem assign_entry (hstatus : e.status = .running) (hrate : e.sampleRate = 1)
    (hstart : e.startAt = none) (hend : e.endAt = none) (entityID : String) (now : Int) :
    assign e.toExperiment entityID now =
      ((e.trafficSplit[entryOf e.toExperiment (bucketOf e.toExperiment entityID).toNat]?).map
        TrafficSplit.variant).getD "" := by
  have hactive : e.isActive now = true := by
    simp [Experiment.isActive, hstatus, hstart, hend]
  simp only [assign, hactive, hrate, lt_irrefl, false_and, if_false, Bool.not_true,
    Bool.false_eq_true, pickVariant_eq, entryOf, bucketOf, UInt32.ofNat_toNat]
  cases hpick : pickEntry (fnv32a (e.id ++ "\x00" ++ entityID) % 100) 0 e.trafficSplit with
  | none =>
    simp only [Option.bind_none, Option.getD_none]
    cases e.trafficSplit <;> rfl
  | some i =>
    have hi := pickEntry_lt hpick
    simp [getElem?_eq_getElem hi]

theorem entryOf_lt (hlen : 0 < e.trafficSplit.length) (b : Nat) :
    entryOf e.toExperiment b < e.trafficSplit.length := by
  unfold entryOf
  cases hpick : pickEntry (UInt32.ofNat b) 0 e.trafficSplit with
  | none => exact hlen
  | some i => exact pickEntry_lt hpick

theorem sum_shares (h : SplitSound e) :
    (e.trafficSplit.map fun split => split.weight.toNat).sum = 100 := by
  have hcast := Weighted.sum_toNat h.nonneg
  have := h.total
  omega

theorem pick_entryOf (h : SplitSound e) {b : Nat} (hb : b < 100) :
    Weighted.pick (e.trafficSplit.map fun split => split.weight.toNat) b =
      some (entryOf e.toExperiment b) := by
  have hsum := sum_shares h
  have hpick := pickEntry_eq h.nonneg (b := b) (c := 0) (by omega) (Nat.zero_le b) hb
  obtain ⟨i, hi⟩ := Weighted.pick_isSome (by rw [hsum]; exact hb)
  rw [Nat.sub_zero, hi] at hpick
  rw [hi, entryOf]
  exact congrArg some (by rw [show (0 : UInt32) = UInt32.ofNat 0 from rfl, hpick]; rfl)

theorem sum_weights (hlen : 0 < e.trafficSplit.length)
    (h : ∀ i (h : i < e.trafficSplit.length),
      (((Finset.range 100).filter fun b => entryOf e.toExperiment b = i).card : Int) =
        e.trafficSplit[i].weight) :
    (e.trafficSplit.map TrafficSplit.weight).sum = 100 := by
  have hmaps : Set.MapsTo (entryOf e.toExperiment) (Finset.range 100 : Finset Nat)
      (Finset.range e.trafficSplit.length : Finset Nat) :=
    fun b _ => by simpa using entryOf_lt hlen b
  have hcard := Finset.card_eq_sum_card_fiberwise hmaps
  rw [Finset.card_range, Finset.sum_range] at hcard
  have hweights : ∀ i : Fin e.trafficSplit.length, e.trafficSplit[(i : Nat)].weight =
      (((Finset.range 100).filter fun b => entryOf e.toExperiment b = i).card : Int) :=
    fun i => (h i i.isLt).symm
  rw [← Fin.sum_univ_fun_getElem, Finset.sum_congr rfl fun i _ => hweights i]
  exact_mod_cast hcard.symm

/-- **When the traffic split is honoured.** For an accepted experiment with the sample rate 1 and no
time window, each entry has its weight in buckets and its own model iff the weights are shares of
100 and no entry with a share has the name of an earlier one with another model. -/
theorem split_honoured_iff {id : String} {body : CreateBody} {created : Targeted}
    (hcreated : createExperiment id (.ok body) = .ok created) (he : e = created.started)
    (hrate : e.sampleRate = 1) (hstart : e.startAt = none) (hend : e.endAt = none) :
    (∀ entityID now, assign e.toExperiment entityID now =
      ((e.trafficSplit[entryOf e.toExperiment (bucketOf e.toExperiment entityID).toNat]?).map
        TrafficSplit.variant).getD "") ∧
    (SplitHonoured e ↔ SplitSound e) := by
  have hlen : 2 ≤ e.trafficSplit.length := by
    subst he
    simp only [createExperiment] at hcreated
    split at hcreated
    · cases hcreated
    next hbad =>
      obtain rfl := Except.ok.inj hcreated
      have htwo : 2 ≤ body.trafficSplit.length := Nat.le_of_not_lt (not_or.mp hbad).2
      rwa [← length_map (f := Prod.fst)] at htwo
  refine ⟨assign_entry (by rw [he]; rfl) hrate hstart hend, fun h => ⟨?_, ?_, ?_⟩,
    fun h => ⟨fun i hi => ?_, fun b hb split model hsplit hmodel => ?_⟩⟩
  · intro split hsplit
    obtain ⟨i, hi, rfl⟩ := getElem_of_mem hsplit
    rw [← h.share i hi]
    exact Int.natCast_nonneg _
  · exact sum_weights (by omega) h.share
  · -- an entry with a share has a bucket
    intro i split model hsplit hmodel hpos
    obtain ⟨hi, rfl⟩ := List.getElem?_eq_some_iff.mp hsplit
    rw [← h.share i hi, Int.natCast_pos, Finset.card_pos] at hpos
    obtain ⟨b, hmem⟩ := hpos
    obtain ⟨hb, rfl⟩ := Finset.mem_filter.mp hmem
    exact h.model b (Finset.mem_range.mp hb) _ model hsplit hmodel
  · have hweight := h.nonneg _ (getElem_mem hi)
    have hcard := @Weighted.card_pick (e.trafficSplit.map fun split => split.weight.toNat) i
      (by simpa using hi)
    rw [sum_shares h, Finset.filter_congr fun b hb => by
      rw [pick_entryOf h (Finset.mem_range.mp hb), Option.some.injEq]] at hcard
    rw [hcard, getElem_map]
    omega
  · obtain ⟨hi, rfl⟩ := List.getElem?_eq_some_iff.mp hsplit
    refine h.model _ _ model hsplit hmodel ?_
    obtain ⟨-, hge, hlt⟩ := Weighted.pick_eq_some_iff.mp (pick_entryOf h hb)
    rw [sum_take_succ _ _ (by simpa using hi), getElem_map] at hlt
    omega

def twoVariants (control treatment : Int) : CreateBody where
  name := "models"
  trafficSplit := [(⟨"control", control⟩, "gpt-4o"), (⟨"treatment", treatment⟩, "claude")]

def twoArms (control treatment : Int) : Targeted where
  id := "exp-2"
  status := .draft
  trafficSplit := [⟨"control", control⟩, ⟨"treatment", treatment⟩]
  sampleRate := 1
  startAt := none
  endAt := none
  winner := none
  teamIDs := []
  models := ["gpt-4o", "claude"]
  paired := rfl

theorem split_honoured_ninety : SplitHonoured (twoArms 90 10).started := by
  refine (@split_honoured_iff (twoArms 90 10).started "exp-2" (twoVariants 90 10) (twoArms 90 10)
    rfl rfl rfl rfl rfl).2.mpr ⟨by decide, by decide, fun i split model hsplit hmodel _ => ?_⟩
  match i with
  | 0 | 1 =>
    obtain rfl := Option.some.inj hsplit
    obtain rfl := Option.some.inj hmodel
    rfl

theorem missing_share_goes_first :
    createExperiment "exp-2" (.ok (twoVariants 50 30)) = .ok (twoArms 50 30) ∧
      ((Finset.range 100).filter fun b =>
        entryOf (twoArms 50 30).started.toExperiment b = 0).card = 70 ∧
      ¬ SplitHonoured (twoArms 50 30).started := by
  have hcard : ((Finset.range 100).filter fun b =>
      entryOf (twoArms 50 30).started.toExperiment b = 0).card = 70 := by
    decide +kernel
  refine ⟨rfl, hcard, fun h => ?_⟩
  have hshare := h.share 0 (by decide)
  rw [hcard] at hshare
  exact absurd hshare (by decide)

end LlmRouter.Experiments
