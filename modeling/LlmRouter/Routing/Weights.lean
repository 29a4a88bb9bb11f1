import LlmRouter.Provider.KeyManager
import LlmRouter.Routing.Selection

/-!
# LlmRouter — weighted choice

Three loops choose by weight: `WeightedRandom.Sort` among the targets of a chain,
`weightedRandom` among the keys of a provider, both by a running sum, and `weightedSelect`
among the targets of a rule, by a running remainder.
-/

namespace LlmRouter.Routing

open Lib Gateway Auth Keys Target Weighted List

/-! ## Proportional choice -/

def Proportional {α : Type} (weight : α → Int) (entries : List α) (chosen : Nat → Nat) : Prop :=
  ∀ i (h : i < entries.length),
    (((Finset.range (entries.map weight).sum.toNat).filter fun d => chosen d = i).card : Int) =
      weight entries[i]

def shares {α : Type} (weight : α → Int) (entries : List α) : List Nat :=
  entries.map fun a => (weight a).toNat

section Shares

variable {α : Type} {weight : α → Int} {entries : List α}

theorem proportional_of_pick (h : ∀ a ∈ entries, 0 ≤ weight a) {chosen : Nat → Nat}
    (hpick : ∀ d < (shares weight entries).sum,
      pick (shares weight entries) d = some (chosen d)) :
    Proportional weight entries chosen := by
  intro i hi
  have hlen : i < (shares weight entries).length := by rwa [shares, length_map]
  have hsum : (entries.map weight).sum.toNat = (shares weight entries).sum := by
    rw [← sum_toNat h, Int.toNat_natCast, shares]
  have hcard := card_pick hlen
  rw [Finset.filter_congr fun d hd => by
    rw [hpick d (Finset.mem_range.mp hd), Option.some.injEq]] at hcard
  have hweight := h _ (getElem_mem hi)
  rw [hsum, hcard]
  simp only [shares, getElem_map]
  omega

end Shares

theorem effectiveWeight_pos (t : Target) : 0 < t.effectiveWeight := by
  unfold effectiveWeight
  split_ifs <;> omega

theorem share_pos (k : ProviderKey) : 0 < k.share := by
  unfold ProviderKey.share
  split_ifs <;> omega

theorem pick_cons {w : Int} (hw : 0 < w) {ws : List Nat} {d i : Nat} (cumulative : Nat)
    (h : pick (w.toNat :: ws) d = some i) :
    ((cumulative + d : Nat) : Int) < cumulative + w ∧ i = 0 ∨
      ¬ ((cumulative + d : Nat) : Int) < cumulative + w ∧
        ∃ d' j, pick ws d' = some j ∧ i = j + 1 ∧ cumulative + w.toNat + d' = cumulative + d ∧
          ((cumulative + w.toNat : Nat) : Int) = cumulative + w := by
  rw [pick] at h
  split_ifs at h with hlt
  · exact .inl ⟨by omega, (Option.some.inj h).symm⟩
  · obtain ⟨j, hj, rfl⟩ := Option.map_eq_some_iff.mp h
    exact .inr ⟨by omega, _, j, hj, rfl, by omega, by omega⟩

theorem chosenTarget_go {targets : List Target} {d cumulative i n : Nat}
    (h : pick (shares effectiveWeight targets) d = some i)
    (hfits : cumulative + (targets.map effectiveWeight).sum < 2 ^ 63) :
    chosenTarget.go (cumulative + d : Nat) cumulative targets n = n + i := by
  induction targets generalizing d cumulative i n with
  | nil => cases h
  | cons t rest ih =>
    have hpos := effectiveWeight_pos t
    have hrest : 0 ≤ (rest.map effectiveWeight).sum :=
      sum_nonneg (by simpa using fun t _ => (effectiveWeight_pos t).le)
    rw [map_cons, sum_cons] at hfits
    rw [chosenTarget.go, wrap_eq ⟨by omega, by omega⟩]
    rcases pick_cons hpos cumulative h with
      ⟨hlt, rfl⟩ | ⟨hge, d', j, hj, rfl, hdraw, hsum⟩
    · rw [if_pos hlt, Nat.add_zero]
    · rw [if_neg hge, ← hsum, ← hdraw, ih hj (by omega)]
      omega

theorem cumulativePick_eq {keys : List ProviderKey} {d cumulative i : Nat}
    (h : pick (shares ProviderKey.share keys) d = some i) :
    cumulativePick (cumulative + d : Nat) cumulative keys = keys[i]? := by
  induction keys generalizing d cumulative i with
  | nil => cases h
  | cons k rest ih =>
    rw [cumulativePick]
    rcases pick_cons (share_pos k) cumulative h with
      ⟨hlt, rfl⟩ | ⟨hge, d', j, hj, rfl, hdraw, hsum⟩
    · rw [if_pos hlt]
      rfl
    · rw [if_neg hge, ← hsum, ← hdraw, ih hj, getElem?_cons_succ]

/-! ## The running remainder -/

/-- The loop that adds up the weights gives their sum as an `int`. -/
theorem totalWeight_eq_wrap (ws : List Int) : totalWeight ws = wrap ws.sum := by
  suffices hloop : ∀ total : Int,
      ws.foldl (fun total w => wrap (total + w)) (wrap total) = wrap (total + ws.sum) by
    simpa [totalWeight, wrap] using hloop 0
  induction ws with
  | nil => simp
  | cons w ws ih =>
    intro total
    have hwrap : wrap (wrap total + w) = wrap (total + w) := Int.bmod_add_bmod
    rw [foldl_cons, hwrap, ih, sum_cons, add_assoc]

theorem totalWeight_eq {ws : List Int} (h : ∀ w ∈ ws, 0 ≤ w) (hfits : ws.sum < 2 ^ 63) :
    totalWeight ws = ws.sum := by
  have hsum : 0 ≤ ws.sum := sum_nonneg h
  rw [totalWeight_eq_wrap, wrap_eq ⟨by omega, hfits⟩]

variable {targets : List Target} {d i : Nat}

theorem pickWeighted_eq (last : Target) (h : ∀ t ∈ targets, 0 ≤ t.weight ∧ t.weight < 2 ^ 63)
    (hd : d < 2 ^ 63) (hpick : pick (shares weight targets) d = some i) :
    targets[i]? = some (pickWeighted last d targets) := by
  induction targets generalizing d i with
  | nil => cases hpick
  | cons t rest ih =>
    obtain ⟨h0, hlt⟩ := h t mem_cons_self
    rw [shares, map_cons, pick] at hpick
    rw [pickWeighted, wrap_eq ⟨by omega, by omega⟩]
    split_ifs at hpick with hless
    · obtain rfl := Option.some.inj hpick
      rw [if_pos (by omega)]
      rfl
    · obtain ⟨j, hj, rfl⟩ := Option.map_eq_some_iff.mp hpick
      have hcast : (d : Int) - t.weight = (d - t.weight.toNat : Nat) := by omega
      rw [if_neg (by omega), hcast, getElem?_cons_succ]
      exact ih (fun x hx => h x (mem_cons_of_mem t hx)) (by omega) hj

/-! ## The three loops -/

theorem pick_shares {α : Type} {weight : α → Int} {entries : List α}
    (h : ∀ a ∈ entries, 0 ≤ weight a) (hd : (d : Int) < (entries.map weight).sum) :
    ∃ i, i < entries.length ∧ pick (shares weight entries) d = some i := by
  rw [← sum_toNat h] at hd
  obtain ⟨i, hi⟩ := pick_isSome (Int.ofNat_lt.mp hd)
  exact ⟨i, by simpa [shares] using (pick_eq_some_iff.mp hi).1, hi⟩

theorem chosenTarget_eq (hfits : (targets.map effectiveWeight).sum < 2 ^ 63)
    (h : pick (shares effectiveWeight targets) d = some i) : chosenTarget d targets = i := by
  have hgo := @chosenTarget_go _ _ 0 _ 0 h (by simpa using hfits)
  rwa [Nat.zero_add, Nat.zero_add] at hgo

theorem sort_weightedRandom (hlen : 2 ≤ targets.length)
    (hfits : (targets.map effectiveWeight).sum < 2 ^ 63)
    (hd : (d : Int) < (targets.map effectiveWeight).sum) :
    ∃ h : chosenTarget d targets < targets.length,
      (LoadBalancer.weightedRandom d).sort targets =
        targets[chosenTarget d targets] :: targets.eraseIdx (chosenTarget d targets) := by
  obtain ⟨i, hi, hpick⟩ := pick_shares (fun t _ => (effectiveWeight_pos t).le) hd
  have hlt : chosenTarget d targets < targets.length := by rwa [chosenTarget_eq hfits hpick]
  refine ⟨hlt, ?_⟩
  show (if targets.length ≤ 1 then targets else _) = _
  rw [if_neg (by omega), getElem?_eq_getElem hlt]
  rfl

theorem weightedRandom_eq {keys : List ProviderKey} (hlen : 2 ≤ keys.length)
    (hd : (d : Int) < (keys.map ProviderKey.share).sum)
    (hpick : pick (shares ProviderKey.share keys) d = some i) (hi : i < keys.length) :
    weightedRandom keys (.ok d) = .ok keys[i] := by
  obtain ⟨k, k', rest, rfl⟩ : ∃ k k' rest, keys = k :: k' :: rest := by
    match keys, hlen with
    | k :: k' :: rest, _ => exact ⟨k, k', rest, rfl⟩
  have hfound := @cumulativePick_eq _ _ 0 _ hpick
  rw [Nat.zero_add, Nat.cast_zero, getElem?_eq_getElem hi] at hfound
  simp only [weightedRandom, Int.emod_eq_of_lt (Int.natCast_nonneg d) hd, hfound, Option.getD_some]

theorem weightedSelect_eq {first : Target} {rest : List Target}
    (h : ∀ t ∈ first :: rest, 0 ≤ t.weight)
    (hfits : ((first :: rest).map weight).sum < 2 ^ 63) {rand : Rand}
    (hd : (d : Int) < ((first :: rest).map weight).sum)
    (hrand : rand.intn ((first :: rest).map weight).sum = d)
    (hpick : pick (shares weight (first :: rest)) d = some i) :
    weightedSelect rand first rest = (first :: rest)[i]? := by
  have hnonneg : ∀ w ∈ (first :: rest).map weight, 0 ≤ w := by simpa using h
  have hbound : ∀ t ∈ first :: rest, 0 ≤ t.weight ∧ t.weight < 2 ^ 63 := fun t ht =>
    ⟨h t ht, (single_le_sum hnonneg _ (mem_map_of_mem ht)).trans_lt hfits⟩
  rw [weightedSelect, totalWeight_eq hnonneg hfits, if_neg (by omega), if_neg (by omega), hrand,
    ← pickWeighted_eq _ hbound (by omega) hpick]

/-- **Weighted choice is exactly proportional.** For two or more entries with weights that are not
negative and no overflow, each entry is chosen by as many draws as its weight, 0 counting as 1 in
the first two loops; `WeightedRandom.Sort` puts the chosen target in front and leaves the others in
order. -/
theorem choice_proportional :
    (∀ targets : List Target, 2 ≤ targets.length → (∀ t ∈ targets, 0 ≤ t.weight) →
      (targets.map effectiveWeight).sum < 2 ^ 63 →
        Proportional effectiveWeight targets (fun d => chosenTarget d targets) ∧
        ∀ d : Nat, (d : Int) < (targets.map effectiveWeight).sum →
          ((LoadBalancer.weightedRandom d).sort targets).Perm targets ∧
          ∃ h : chosenTarget d targets < targets.length,
            (LoadBalancer.weightedRandom d).sort targets =
              targets[chosenTarget d targets] :: targets.eraseIdx (chosenTarget d targets)) ∧
    (∀ keys : List ProviderKey, 2 ≤ keys.length → (∀ k ∈ keys, 0 ≤ k.weight) →
      (keys.map ProviderKey.share).sum < 2 ^ 63 →
        ∃ chosen, Proportional ProviderKey.share keys chosen ∧
          ∀ d : Nat, (d : Int) < (keys.map ProviderKey.share).sum →
            ∃ h : chosen d < keys.length, weightedRandom keys (.ok d) = .ok keys[chosen d]) ∧
    ∀ (first : Target) (rest : List Target), 1 ≤ rest.length →
      (∀ t ∈ first :: rest, 0 ≤ t.weight) →
      ((first :: rest).map weight).sum < 2 ^ 63 →
      0 < ((first :: rest).map weight).sum →
        ∃ chosen, Proportional weight (first :: rest) chosen ∧
          ∀ (rand : Rand) (d : Nat), (d : Int) < ((first :: rest).map weight).sum →
            rand.intn ((first :: rest).map weight).sum = d →
            ∃ h : chosen d < (first :: rest).length,
              weightedSelect rand first rest = some (first :: rest)[chosen d] := by
  refine ⟨fun targets hlen _ htotal => ⟨?_, fun d hd => ?_⟩, fun keys hlen _ _ => ?_,
    fun first rest _ hnonneg hfits _ => ?_⟩
  · refine proportional_of_pick (fun t _ => (effectiveWeight_pos t).le) fun d hd => ?_
    obtain ⟨i, hi⟩ := pick_isSome hd
    rw [chosenTarget_eq htotal hi, hi]
  · exact ⟨(LoadBalancer.weightedRandom d).perm targets, sort_weightedRandom hlen htotal hd⟩
  · have hnonneg : ∀ k ∈ keys, 0 ≤ k.share := fun k _ => (share_pos k).le
    refine ⟨_, proportional_of_pick hnonneg fun d => pick_getD, fun d hd => ?_⟩
    obtain ⟨i, hi, hpick⟩ := pick_shares hnonneg hd
    simp only [hpick, Option.getD_some]
    exact ⟨hi, weightedRandom_eq hlen hd hpick hi⟩
  · refine ⟨_, proportional_of_pick hnonneg fun d => pick_getD,
      fun rand d hd hrand => ?_⟩
    obtain ⟨i, hi, hpick⟩ := pick_shares hnonneg hd
    simp only [hpick, Option.getD_some]
    exact ⟨hi, by rw [weightedSelect_eq hnonneg hfits hd hrand hpick, getElem?_eq_getElem]⟩

theorem choice_proportional_example :
    Proportional effectiveWeight [⟨"a", "m", 0⟩, ⟨"b", "m", 3⟩]
        (fun d => chosenTarget d [⟨"a", "m", 0⟩, ⟨"b", "m", 3⟩]) ∧
      (∃ chosen, Proportional ProviderKey.share
        [⟨"1", "a", "x", "", 0⟩, ⟨"2", "b", "y", "", 2⟩] chosen) ∧
      ∃ chosen, Proportional weight [⟨"a", "m", 1⟩, ⟨"b", "m", 2⟩] chosen := by
  obtain ⟨hsort, hkeys, hselect⟩ := choice_proportional
  have hk := hkeys [⟨"1", "a", "x", "", 0⟩, ⟨"2", "b", "y", "", 2⟩] (by decide) (by decide)
    (by decide)
  have hs := hselect ⟨"a", "m", 1⟩ [⟨"b", "m", 2⟩] (by decide) (by decide) (by decide) (by decide)
  exact ⟨(hsort _ (by decide) (by decide) (by decide)).1, hk.imp fun _ h => h.1,
    hs.imp fun _ h => h.1⟩

/-! ## The weights of a rule (internal/gateway/handler/admin_routing_rules.go) -/

def createRule (body : Except String RouteRule) : Except Response RouteRule :=
  match body with
  | .error err => .error (badRequest ("invalid JSON: " ++ err))
  | .ok rule =>
    if rule.name = "" then .error (badRequest "name is required")
    else if rule.targets = [] then .error (badRequest "targets must not be empty")
    else .ok rule

def updateRule (id : Option String) (body : Except String RouteRule) : Except Response RouteRule :=
  match id, body with
  | none, _ => .error (badRequest "invalid rule id")
  | some _, .error err => .error (badRequest ("invalid JSON: " ++ err))
  | some id, .ok rule => .ok { rule with id }

def StartsPositive (r : RouteRule) : Resolved → Prop
  | .selected _ chain =>
    ∃ t ts, chain.targets = t :: ts ∧ (0 < t.weight ∨ ∀ rt ∈ r.targets, rt.weight = 0)
  | .noRule | .panicked => False

def Rand.drawing (i : Nat) : Rand where
  intn := fun n => if (i : Int) < n then i else 0
  bounds := fun n hn => by
    split_ifs <;> omega

def Rand.largest : Rand where
  intn := fun n => n - 1
  bounds := fun n hn => by omega

/-- The remainder is taken before a weight of 0 or less makes the difference leave `int`. -/
def TakenEarlier (r : Int) (ws : List Int) : Prop :=
  ∀ pre w post, ws = pre ++ w :: post → w ≤ 0 →
    (∃ q, q <+: pre ∧ r < q.sum) ∨ r - (pre.sum + w) < 2 ^ 63

/-- The weights are all 0, or they are all positive and sum to 0 as an `int`, or the sum is a
positive `int` and its largest draw is taken before it overflows at a weight of 0 or less. -/
def Steady (ws : List Int) : Prop :=
  (∀ w ∈ ws, w = 0) ∨ (wrap ws.sum = 0 ∧ ∀ w ∈ ws, 0 < w) ∨
    (0 < wrap ws.sum ∧ TakenEarlier (wrap ws.sum - 1) ws)

theorem takenEarlier_cons {r w : Int} {ws : List Int} (h0 : 0 ≤ r) :
    TakenEarlier r (w :: ws) ↔
      (w ≤ 0 → r - w < 2 ^ 63) ∧ (r < w ∨ TakenEarlier (r - w) ws) := by
  constructor
  · refine fun h => ⟨fun hw => ?_, or_iff_not_imp_left.mpr fun hge pre w' post hsplit hw' => ?_⟩
    · rcases h [] w ws rfl hw with ⟨q, hq, hlt⟩ | hfits
      · rw [prefix_nil.mp hq, sum_nil] at hlt
        omega
      · simpa using hfits
    · rcases h (w :: pre) w' post (by rw [hsplit, cons_append]) hw' with ⟨q, hq, hlt⟩ | hfits
      · rcases prefix_cons_iff.mp hq with rfl | ⟨q', rfl, hq'⟩
        · rw [sum_nil] at hlt
          omega
        · rw [sum_cons] at hlt
          exact .inl ⟨q', hq', by omega⟩
      · rw [sum_cons] at hfits
        exact .inr (by omega)
  · rintro ⟨hfits, htaken⟩ pre w' post hsplit hw'
    cases pre with
    | nil =>
      obtain ⟨rfl, -⟩ := cons.inj hsplit
      exact .inr (by simpa using hfits hw')
    | cons w₀ pre =>
      obtain ⟨rfl, rfl⟩ := cons.inj hsplit
      rcases htaken with hlt | htaken
      · exact .inl ⟨[w], by simp, by simpa using hlt⟩
      rcases htaken pre w' post rfl hw' with ⟨q, hq, hlt⟩ | hend
      · exact .inl ⟨w :: q, by simpa using hq, by rw [sum_cons]; omega⟩
      · exact .inr (by rw [sum_cons]; omega)

/-- **Where the loop ends**: at a positive weight exactly if the remainder is taken before it
overflows. -/
theorem pickWeighted_pos_iff (last : Target) (hints : ∀ t ∈ targets, IsInt t.weight) {r : Int}
    (h0 : 0 ≤ r) (hlt : r < 2 ^ 63)
    (hends : r < (targets.map weight).sum ∨ 2 ^ 63 ≤ r - (targets.map weight).sum) :
    0 < (pickWeighted last r targets).weight ↔ TakenEarlier r (targets.map weight) := by
  induction targets generalizing r with
  | nil =>
    rw [map_nil, sum_nil] at hends
    omega
  | cons t rest ih =>
    obtain ⟨hge, htop⟩ := hints t mem_cons_self
    have hrest := fun x hx => hints x (mem_cons_of_mem t hx)
    rw [map_cons, sum_cons] at hends
    rw [pickWeighted, map_cons, takenEarlier_cons h0]
    rcases lt_or_ge 0 t.weight with hpos | hneg
    · rw [wrap_eq ⟨by omega, by omega⟩]
      split_ifs with hend
      · exact ⟨fun _ => ⟨by omega, .inl (by omega)⟩, fun _ => hpos⟩
      · rw [ih hrest (by omega) (by omega) (by omega)]
        exact ⟨fun h => ⟨by omega, .inr h⟩, fun h => h.2.resolve_left (by omega)⟩
    · rcases lt_or_ge (r - t.weight) (2 ^ 63) with hfits | hover
      · rw [wrap_eq ⟨by omega, by omega⟩, if_neg (by omega), ih hrest (by omega) hfits (by omega)]
        exact ⟨fun h => ⟨fun _ => hfits, .inr h⟩, fun h => h.2.resolve_left (by omega)⟩
      · rw [if_pos (wrap_overflow hover (by omega))]
        exact ⟨fun h => by omega, fun h => absurd (h.1 hneg) (by omega)⟩

/-- If a draw takes a target of no positive weight, every larger draw does: its remainder overflows
as well. -/
theorem pickWeighted_mono (last : Target) (hints : ∀ t ∈ targets, IsInt t.weight) {r r' : Int}
    (h0 : 0 ≤ r) (hle : r ≤ r') (hlt : r' < 2 ^ 63)
    (hbad : (pickWeighted last r targets).weight ≤ 0) :
    (pickWeighted last r' targets).weight ≤ 0 := by
  induction targets generalizing r r' with
  | nil => exact hbad
  | cons t rest ih =>
    obtain ⟨hge, htop⟩ := hints t mem_cons_self
    have hrest := fun x hx => hints x (mem_cons_of_mem t hx)
    rw [pickWeighted] at hbad ⊢
    rcases lt_or_ge 0 t.weight with hpos | hneg
    · rw [wrap_eq ⟨by omega, by omega⟩] at hbad ⊢
      by_cases hend : r - t.weight < 0
      · rw [if_pos hend] at hbad
        omega
      · rw [if_neg hend] at hbad
        rw [if_neg (by omega)]
        exact ih hrest (by omega) (by omega) (by omega) hbad
    · rcases lt_or_ge (r' - t.weight) (2 ^ 63) with hfits | hover
      · rw [wrap_eq ⟨by omega, by omega⟩, if_neg (by omega)] at hbad ⊢
        exact ih hrest (by omega) (by omega) hfits hbad
      · rw [if_pos (wrap_overflow hover (by omega))]
        exact hneg

section Select

variable {first : Target} {rest : List Target}

theorem weightedSelect_zero (hzero : totalWeight ((first :: rest).map weight) = 0)
    (rand : Rand) :
    ∃ t ∈ first :: rest, weightedSelect rand first rest = some t ∧
      (first :: rest)[(rand.intn (first :: rest).length).toNat]? = some t := by
  have hbounds := rand.bounds (first :: rest).length (Int.natCast_pos.mpr (Nat.succ_pos _))
  have hlt : (rand.intn (first :: rest).length).toNat < (first :: rest).length := by omega
  refine ⟨_, getElem_mem hlt, ?_, getElem?_eq_getElem hlt⟩
  rw [weightedSelect, if_pos hzero, getD_eq_getElem?_getD, getElem?_eq_getElem hlt]
  rfl

theorem weightedSelect_pos (hpos : 0 < totalWeight ((first :: rest).map weight))
    (rand : Rand) :
    weightedSelect rand first rest = some (pickWeighted (rest.getLastD first)
      (rand.intn (totalWeight ((first :: rest).map weight))) (first :: rest)) := by
  rw [weightedSelect, if_neg (by omega), if_neg (by omega)]

theorem wrap_lt (n : Int) : wrap n < 2 ^ 63 := Int.bmod_lt (by decide)

/-- The largest draw ends before the weights do, whether or not their sum overflows. -/
theorem pickWeighted_largest_iff (hints : ∀ t ∈ targets, IsInt t.weight) (last : Target)
    (hpos : 0 < wrap (targets.map weight).sum) :
    0 < (pickWeighted last (wrap (targets.map weight).sum - 1) targets).weight ↔
      TakenEarlier (wrap (targets.map weight).sum - 1) (targets.map weight) := by
  have hlt := wrap_lt (targets.map weight).sum
  have hmod : (2 : Int) ^ 64 ∣ (targets.map weight).sum - wrap (targets.map weight).sum :=
    Int.dvd_self_sub_bmod
  exact pickWeighted_pos_iff last hints (by omega) (by omega) (by omega)

/-- **Which weights always draw a target of positive weight.** -/
theorem weightedSelect_iff (hints : ∀ t ∈ first :: rest, IsInt t.weight) :
    (∀ rand, ∃ t, weightedSelect rand first rest = some t ∧
      (0 < t.weight ∨ ∀ t ∈ first :: rest, t.weight = 0)) ↔
        Steady ((first :: rest).map weight) := by
  have htotal := totalWeight_eq_wrap ((first :: rest).map weight)
  have hlargest := pickWeighted_largest_iff hints (rest.getLastD first)
  rw [Steady, forall_mem_map, forall_mem_map]
  constructor
  · intro h
    by_cases hall : ∀ t ∈ first :: rest, t.weight = 0
    · exact .inl hall
    have hdraws : ∀ rand, ∃ t, weightedSelect rand first rest = some t ∧ 0 < t.weight :=
      fun rand => (h rand).imp fun t ht => ⟨ht.1, ht.2.resolve_right hall⟩
    rcases lt_trichotomy (totalWeight ((first :: rest).map weight)) 0 with
      hneg | hzero | hpos
    · obtain ⟨t, ht, -⟩ := hdraws .largest
      rw [weightedSelect, if_neg (by omega), if_pos hneg] at ht
      cases ht
    · refine .inr (.inl ⟨htotal ▸ hzero, fun t ht => ?_⟩)
      obtain ⟨i, hi, rfl⟩ := getElem_of_mem ht
      obtain ⟨t, hsel, hpos⟩ := hdraws (.drawing i)
      obtain ⟨t', -, hsel', hget⟩ := weightedSelect_zero hzero (.drawing i)
      have hdrawn : (Rand.drawing i).intn (first :: rest).length = i :=
        if_pos (Int.ofNat_lt.mpr hi)
      rw [hdrawn, Int.toNat_natCast, getElem?_eq_getElem hi] at hget
      rwa [Option.some.inj hget, Option.some.inj (hsel'.symm.trans hsel)]
    · refine .inr (.inr ⟨htotal ▸ hpos, (hlargest (htotal ▸ hpos)).mp ?_⟩)
      obtain ⟨t, hsel, ht⟩ := hdraws .largest
      rw [weightedSelect_pos hpos, htotal] at hsel
      rwa [← Option.some.inj hsel] at ht
  · rintro (hall | ⟨hzero, hpos⟩ | ⟨hpos, htaken⟩) rand
    · have hzero : totalWeight ((first :: rest).map weight) = 0 := by
        rw [htotal, sum_eq_zero (by simpa using hall)]
        rfl
      obtain ⟨t, -, hsel, -⟩ := weightedSelect_zero hzero rand
      exact ⟨t, hsel, .inr hall⟩
    · obtain ⟨t, ht, hsel, -⟩ := weightedSelect_zero (htotal.trans hzero) rand
      exact ⟨t, hsel, .inl (hpos t ht)⟩
    · refine ⟨_, weightedSelect_pos (htotal ▸ hpos) rand, .inl ?_⟩
      by_contra hbad
      obtain ⟨h0, hlt⟩ := rand.bounds _ (htotal ▸ hpos)
      have hfits := wrap_lt ((first :: rest).map weight).sum
      have hmono := pickWeighted_mono (rest.getLastD first) hints h0 (Int.le_sub_one_of_lt hlt)
        (by omega) (not_lt.mp hbad)
      rw [htotal] at hmono
      exact absurd ((hlargest hpos).mpr htaken) (not_lt.mpr hmono)

end Select

section Rule

variable {ar : AdvancedRouter} {go : GoLib} {vk : Option VirtualKey}
  {req : ChatCompletionRequest} {pre post : List CompiledRule} {cr : CompiledRule}

theorem resolve_weighted (hsplit : ar.rules = pre ++ cr :: post)
    (hpre : ∀ q ∈ pre, ¬ q.Stops vk req) (hstop : cr.Stops vk req)
    (hstrategy : cr.rule.strategy = .weighted) {first : Target} {rest : List Target}
    (hexpand : expandTargets cr.rule.targets req.model = first :: rest) (rand : Rand) :
    ar.resolve go rand vk req =
      match weightedSelect rand first rest with
      | none => .panicked
      | some t => .selected cr.rule
        { name := cr.rule.name
          targets := t :: (first :: rest).filter fun t' =>
            t'.provider != t.provider || t'.model != t.model } := by
  rw [AdvancedRouter.resolve, hsplit, resolveLoop_skipAll ar go rand hpre,
    AdvancedRouter.resolveLoop]
  simp only [hstop.1, Bool.not_true, Bool.false_eq_true, if_false, AdvancedRouter.buildChain,
    hexpand, hstrategy]
  cases weightedSelect rand first rest <;> rfl

/-- **When a weighted rule never crashes routing.** The admin API stores every rule with a target.
At every draw `Resolve` returns a chain that begins with a target of positive weight, or of any
weight if all are 0, iff the weights are steady. -/
theorem weighted_rule_iff (hsplit : ar.rules = pre ++ cr :: post)
    (hpre : ∀ q ∈ pre, ¬ q.Stops vk req) (hstop : cr.Stops vk req)
    (hstrategy : cr.rule.strategy = .weighted) (hints : ∀ rt ∈ cr.rule.targets, IsInt rt.weight) :
    (updateRule (some cr.rule.id) (.ok cr.rule) = .ok cr.rule ∧
      (cr.rule.name ≠ "" → createRule (.ok cr.rule) = .ok cr.rule)) ∧
    ((∀ rand, StartsPositive cr.rule (ar.resolve go rand vk req)) ↔
      Steady (cr.rule.targets.map RuleTarget.weight)) := by
  refine ⟨⟨rfl, fun hname => by rw [createRule, if_neg hname, if_neg hstop.2]⟩, ?_⟩
  obtain ⟨rt, rts, htargets⟩ := exists_cons_of_ne_nil hstop.2
  obtain ⟨first, rest, hexpand⟩ : ∃ first rest,
      expandTargets cr.rule.targets req.model = first :: rest := ⟨_, _, by rw [htargets]; rfl⟩
  have hweights : cr.rule.targets.map RuleTarget.weight = (first :: rest).map weight := by
    rw [← hexpand]
    simp [expandTargets]
  have hall : ∀ P : Int → Prop, (∀ rt ∈ cr.rule.targets, P rt.weight) ↔
      ∀ t ∈ first :: rest, P t.weight := fun P => by
    rw [← forall_mem_map (f := RuleTarget.weight), hweights, forall_mem_map]
  rw [hweights, ← weightedSelect_iff ((hall IsInt).mp hints)]
  refine forall_congr' fun rand => ?_
  rw [resolve_weighted hsplit hpre hstop hstrategy hexpand rand]
  cases weightedSelect rand first rest with
  | none =>
    refine ⟨False.elim, ?_⟩
    rintro ⟨t, ht, -⟩
    cases ht
  | some t =>
    simp only [StartsPositive, cons.injEq, Option.some.injEq, hall (· = 0)]
    constructor
    · rintro ⟨t', ts, ⟨rfl, -⟩, h⟩
      exact ⟨t, rfl, h⟩
    · rintro ⟨t', rfl, h⟩
      exact ⟨t, _, ⟨rfl, rfl⟩, h⟩

end Rule

/-- Two targets, of which the first is never taken. -/
def lopsidedRule : RouteRule :=
  { weightedRule (-3) with
    targets := [⟨"openai", "gpt-4o", -3⟩, ⟨"anthropic", "claude-sonnet-4", 5⟩] }

theorem weighted_rule_lopsided :
    StartsPositive lopsidedRule
      (AdvancedRouter.resolve ⟨[⟨lopsidedRule, none⟩], none⟩ plainGo zeros none (askWith [])) := by
  have h := @weighted_rule_iff ⟨[⟨lopsidedRule, none⟩], none⟩ plainGo none (askWith []) [] []
    ⟨lopsidedRule, none⟩ rfl (forall_mem_nil _) ⟨by decide +kernel, by decide⟩ rfl (by decide)
  refine h.2.mpr (.inr (.inr ⟨by decide, ?_⟩)) zeros
  -- the draws are 0 and 1, which -3 leaves at 3 and 4
  exact (takenEarlier_cons (by decide)).mpr ⟨by decide, .inr ((takenEarlier_cons (by decide)).mpr
    ⟨by decide, .inl (by decide)⟩)⟩

theorem negative_weight_panics :
    createRule (.ok (weightedRule (-1))) = .ok (weightedRule (-1)) ∧
      AdvancedRouter.resolve ⟨[⟨weightedRule (-1), none⟩], none⟩ plainGo zeros none (askWith []) =
        .panicked ∧
      ¬ StartsPositive (weightedRule (-1)) .panicked :=
  ⟨by decide, by decide +kernel, fun h => h⟩

end LlmRouter.Routing
