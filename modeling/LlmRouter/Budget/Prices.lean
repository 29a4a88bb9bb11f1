import LlmRouter.Budget.Spend

/-!
# LlmRouter — under which names a price is found

The table of a `cost.Calculator` has three writers. `NewCalculator` and `LoadFromYAML` take the
keys as they are, `UpdatePricing` puts them into lower case, and `lookup` asks for lower case.
-/

namespace LlmRouter.Budgets

open List

/-- `strings.ToLower`, which maps a text letter by letter. -/
structure LetterCase where
  lower : Char → Char
  idem : ∀ c, lower (lower c) = lower c
  slash : ∀ c, lower c = '/' ↔ c = '/'

def LetterCase.toLower (lc : LetterCase) (s : String) : String :=
  String.ofList (s.toList.map lc.lower)

abbrev Pricing := List (String × ModelPricing)

namespace Calculator

/-- `NewCalculator`. `LoadFromYAML` calls it with the table of the file. -/
def new (lc : LetterCase) (round : ℚ → ℚ) (models : Pricing) : Calculator where
  models := models
  toLower := lc.toLower
  round := round

/-- `UpdatePricing`; what is written last is found first. -/
def updatePricing (c : Calculator) (pricing : Pricing) : Calculator :=
  { c with models := pricing.foldl (fun models kv => (c.toLower kv.1, kv.2) :: models) c.models }

end Calculator

variable {lc : LetterCase} {round : ℚ → ℚ} {table : Pricing} {updates : List Pricing}
  {k s : String}

def updated (lc : LetterCase) (round : ℚ → ℚ) (table : Pricing) (updates : List Pricing) :
    Calculator :=
  updates.foldl Calculator.updatePricing (.new lc round table)

def given (table : Pricing) (updates : List Pricing) : Pricing := table ++ updates.flatten

def LetterCase.Same (lc : LetterCase) (s t : String) : Prop := lc.toLower s = lc.toLower t

instance (lc : LetterCase) (s t : String) : Decidable (lc.Same s t) :=
  inferInstanceAs (Decidable (_ = _))

def LetterCase.Distinct (lc : LetterCase) (m : Pricing) : Prop :=
  (m.map fun kv => lc.toLower kv.1).Nodup

def latest (lc : LetterCase) (prices : Pricing) (k : String) : Option ModelPricing :=
  (prices.reverse.find? fun kv => decide (lc.Same kv.1 k)).map Prod.snd

/-- The text is the key, or the key behind a provider and a slash, up to letter case; and it
is no other key. -/
def Spells (lc : LetterCase) (prices : Pricing) (k s : String) : Prop :=
  (lc.Same s k ∨ ∃ provider : String, '/' ∉ provider.toList ∧ lc.Same s (provider ++ "/" ++ k)) ∧
    ∀ kv ∈ prices, lc.Same s kv.1 → lc.Same kv.1 k

def Priced (lc : LetterCase) (round : ℚ → ℚ) (table : Pricing) (updates : List Pricing) : Prop :=
  ∀ kv ∈ given table updates, ∀ s, Spells lc (given table updates) kv.1 s →
    ∃ p, latest lc (given table updates) kv.1 = some p ∧
      (updated lc round table updates).lookup s = some p ∧ ∀ promptTokens completionTokens,
        (updated lc round table updates).calculate s promptTokens completionTokens =
          (updated lc round table updates).cost p promptTokens completionTokens

/-! ## Lower case -/

theorem LetterCase.toList_toLower (lc : LetterCase) (s : String) :
    (lc.toLower s).toList = s.toList.map lc.lower := String.toList_ofList

theorem LetterCase.toLower_toLower (lc : LetterCase) (s : String) :
    lc.toLower (lc.toLower s) = lc.toLower s := by
  refine String.toList_inj.mp ?_
  simp only [toList_toLower, map_map]
  exact map_congr_left fun c _ => lc.idem c

theorem dropWhile_provider (lc : LetterCase) {provider : String} (h : '/' ∉ provider.toList)
    (k : String) : (lc.toLower (provider ++ "/" ++ k)).toList.dropWhile (· ≠ '/') =
      '/' :: (lc.toLower k).toList := by
  have hslash : lc.lower '/' = '/' := (lc.slash '/').mpr rfl
  rw [lc.toList_toLower, lc.toList_toLower, String.toList_append, String.toList_append,
    map_append, map_append, append_assoc, dropWhile_append_of_pos]
  · show dropWhile _ (lc.lower '/' :: _) = _
    rw [hslash, dropWhile_cons_of_neg (by simp)]
    rfl
  · intro c hc
    obtain ⟨d, hd, rfl⟩ := mem_map.mp hc
    exact decide_eq_true fun heq => h ((lc.slash d).mp heq ▸ hd)

/-! ## The table -/

theorem toLower_updated (table : Pricing) (updates : List Pricing) :
    (updated lc round table updates).toLower = lc.toLower := by
  unfold updated
  generalize hc : Calculator.new lc round table = c
  replace hc : c.toLower = lc.toLower := by rw [← hc]; rfl
  clear table
  induction updates generalizing c with
  | nil => exact hc
  | cons u updates ih => exact ih _ hc

theorem models_updated (table : Pricing) (updates : List Pricing) :
    (updated lc round table updates).models =
      (updates.flatten.reverse.map fun kv => (lc.toLower kv.1, kv.2)) ++ table := by
  induction updates using reverseRecOn with
  | nil => rfl
  | append_singleton updates u ih =>
    have hfold : ∀ (u models : Pricing),
        u.foldl (fun models kv => (lc.toLower kv.1, kv.2) :: models) models =
          (u.reverse.map fun kv => (lc.toLower kv.1, kv.2)) ++ models := by
      intro u
      induction u with
      | nil => exact fun _ => rfl
      | cons kv u ih => intro models; simp [ih]
    have hlast : updated lc round table (updates ++ [u]) =
        (updated lc round table updates).updatePricing u := foldl_append
    rw [hlast, Calculator.updatePricing, toLower_updated, hfold, ih]
    simp

theorem lookup_lower (prices : Pricing) (k : String) :
    (prices.map fun kv => (lc.toLower kv.1, kv.2)).lookup (lc.toLower k) =
      (prices.find? fun kv => decide (lc.Same kv.1 k)).map Prod.snd := by
  induction prices with
  | nil => rfl
  | cons kv prices ih =>
    obtain ⟨key, p⟩ := kv
    rw [map_cons, lookup_cons, find?_cons]
    by_cases hk : lc.Same key k
    · simp [hk, hk.symm]
    · simp [hk, beq_false_of_ne (Ne.symm hk), ih]

/-- The key is asked for in lower case only, and was never put into it. -/
def Lost (lc : LetterCase) (updates : List Pricing) (k : String) : Prop :=
  lc.toLower k ≠ k ∧ ∀ kv ∈ updates.flatten, ¬ lc.Same kv.1 k

variable {kv : String × ModelPricing}

theorem lookup_table (htable : lc.Distinct table) (hkv : kv ∈ table) :
    table.lookup (lc.toLower kv.1) = if lc.toLower kv.1 = kv.1 then some kv.2 else none := by
  cases hlookup : table.lookup (lc.toLower kv.1) with
  | none =>
    rw [if_neg]
    intro hlower
    have hne := lookup_eq_none_iff.mp hlookup kv hkv
    simp [hlower] at hne
  | some p =>
    obtain ⟨pre, post, hsplit, -⟩ := lookup_eq_some_iff.mp hlookup
    have hmem : (lc.toLower kv.1, p) ∈ table := by rw [hsplit]; simp
    have heq : (lc.toLower kv.1, p) = kv :=
      inj_on_of_nodup_map htable hmem hkv (lc.toLower_toLower kv.1)
    rw [if_pos (congrArg Prod.fst heq), ← congrArg Prod.snd heq]

theorem find?_table (htable : lc.Distinct table) (hkv : kv ∈ table) :
    (table.reverse.find? fun kv' => decide (lc.Same kv'.1 kv.1)) = some kv := by
  cases hfind : table.reverse.find? fun kv' => decide (lc.Same kv'.1 kv.1) with
  | none =>
    have hnone := find?_eq_none.mp hfind kv (mem_reverse.mpr hkv)
    simp [LetterCase.Same] at hnone
  | some kv' =>
    have hsame : lc.Same kv'.1 kv.1 := by simpa using find?_some hfind
    have hmem := mem_reverse.mp (mem_of_find?_eq_some hfind)
    rw [inj_on_of_nodup_map htable hmem hkv hsame]

/-- **What is found for a key in lower case**: the latest price, unless the key is lost. -/
theorem lookup_models (round : ℚ → ℚ) (htable : lc.Distinct table)
    (hkv : kv ∈ given table updates) :
    ∃ p, latest lc (given table updates) kv.1 = some p ∧
      (¬ Lost lc updates kv.1 →
        (updated lc round table updates).models.lookup (lc.toLower kv.1) = some p) ∧
      (Lost lc updates kv.1 →
        (updated lc round table updates).models.lookup (lc.toLower kv.1) = none) := by
  rw [models_updated, lookup_append, lookup_lower, latest, given, reverse_append, find?_append]
  cases hfind : updates.flatten.reverse.find? fun kv' => decide (lc.Same kv'.1 kv.1) with
  | some kv' =>
    -- the updates stand in front of the table
    refine ⟨kv'.2, rfl, fun _ => rfl, fun hlost => ?_⟩
    have hmem := mem_reverse.mp (mem_of_find?_eq_some hfind)
    exact absurd (by simpa using find?_some hfind) (hlost.2 kv' hmem)
  | none =>
    -- no update has given the key, so it is the table's
    have hnone : ∀ kv' ∈ updates.flatten, ¬ lc.Same kv'.1 kv.1 := by
      simpa using find?_eq_none.mp hfind
    have hmem : kv ∈ table := (mem_append.mp hkv).resolve_right fun h => hnone kv h rfl
    rw [find?_table htable hmem, lookup_table htable hmem]
    refine ⟨kv.2, rfl, fun hkept => ?_, fun hlost => by rw [if_neg hlost.1]; rfl⟩
    rw [if_pos (not_not.mp fun hlower => hkept ⟨hlower, hnone⟩)]
    rfl

theorem same_of_lookup {p : ModelPricing}
    (h : (updated lc round table updates).models.lookup (lc.toLower s) = some p) :
    ∃ kv ∈ given table updates, lc.Same s kv.1 := by
  obtain ⟨pre, post, hsplit, -⟩ := lookup_eq_some_iff.mp h
  have hmem : (lc.toLower s, p) ∈ (updated lc round table updates).models := by
    rw [hsplit]
    simp
  rw [models_updated, mem_append, mem_map] at hmem
  rcases hmem with ⟨kv, hkv, heq⟩ | hmem
  · exact ⟨kv, mem_append_right _ (mem_reverse.mp hkv), (congrArg Prod.fst heq).symm⟩
  · exact ⟨_, mem_append_left _ hmem, (lc.toLower_toLower s).symm⟩

theorem lookup_of_found {p : ModelPricing}
    (h : (updated lc round table updates).models.lookup (lc.toLower s) = some p) :
    (updated lc round table updates).lookup s = some p := by
  simp only [Calculator.lookup, toLower_updated, h]

theorem lookup_provider {provider : String} (hprovider : '/' ∉ provider.toList)
    (hs : lc.Same s (provider ++ "/" ++ k))
    (h : (updated lc round table updates).models.lookup (lc.toLower s) = none) :
    (updated lc round table updates).lookup s =
      (updated lc round table updates).models.lookup (lc.toLower k) := by
  have hrest := dropWhile_provider lc hprovider k
  rw [← show lc.toLower s = _ from hs] at hrest
  simp only [Calculator.lookup, toLower_updated, h, hrest, String.ofList_toList]

theorem exists_provider (lc : LetterCase) (prices : Pricing) (k : String) :
    ∃ provider : String, '/' ∉ provider.toList ∧
      ∀ kv ∈ prices, ¬ lc.Same (provider ++ "/" ++ k) kv.1 := by
  have hbound : ∃ n, ∀ kv ∈ prices, kv.1.toList.length ≤ n := by
    induction prices with
    | nil => exact ⟨0, by simp⟩
    | cons kv prices ih =>
      obtain ⟨n, hn⟩ := ih
      refine ⟨max kv.1.toList.length n, forall_mem_cons.mpr ⟨le_max_left _ _, ?_⟩⟩
      exact fun kv' hkv' => le_max_of_le_right (hn kv' hkv')
  obtain ⟨n, hn⟩ := hbound
  refine ⟨String.ofList (replicate n 'x'), by simp [mem_replicate], ?_⟩
  intro kv hkv hsame
  have hlength := congrArg (fun t : String => t.toList.length) hsame
  have hle := hn kv hkv
  simp only [lc.toList_toLower, length_map, String.toList_append, length_append,
    String.toList_ofList, length_replicate] at hlength
  have hslash : "/".toList.length = 1 := rfl
  omega

/-- **Price lookup and letter case.** Every key is found under all its spellings with the price that
was given last, iff every key of the table is in lower case or was given once more by an update. -/
theorem priced_iff (htable : lc.Distinct table) :
    Priced lc round table updates ↔ ∀ kv ∈ table, ¬ Lost lc updates kv.1 := by
  constructor
  · intro h kv hkv hlost
    have hkv' : kv ∈ given table updates := mem_append_left _ hkv
    -- the key itself may be found as it is; behind a new provider only the rest is asked for
    obtain ⟨provider, hprovider, hfresh⟩ := exists_provider lc (given table updates) kv.1
    obtain ⟨p, -, hfound, -⟩ := h kv hkv' (provider ++ "/" ++ kv.1)
      ⟨.inr ⟨provider, hprovider, rfl⟩, fun kv' hmem hsame => absurd hsame (hfresh kv' hmem)⟩
    have hnone : (updated lc round table updates).models.lookup
        (lc.toLower (provider ++ "/" ++ kv.1)) = none := by
      refine Option.eq_none_iff_forall_ne_some.mpr fun p' hp' => ?_
      obtain ⟨kv', hmem, hsame⟩ := same_of_lookup hp'
      exact hfresh kv' hmem hsame
    obtain ⟨_, -, -, hgone⟩ := lookup_models round htable hkv'
    rw [lookup_provider hprovider rfl hnone, hgone hlost] at hfound
    cases hfound
  · intro h kv hkv s hs
    obtain ⟨p, hlatest, hkept, -⟩ := lookup_models round htable hkv
    have hfound : (updated lc round table updates).models.lookup (lc.toLower kv.1) = some p := by
      refine hkept fun hlost => ?_
      rcases mem_append.mp hkv with hmem | hmem
      · exact h kv hmem hlost
      · exact hlost.2 kv hmem rfl
    have hlookup : (updated lc round table updates).lookup s = some p := by
      rcases hs with ⟨hsame | ⟨provider, hprovider, hsame⟩, hother⟩
      · exact lookup_of_found (by rw [show lc.toLower s = _ from hsame, hfound])
      · cases hwhole : (updated lc round table updates).models.lookup (lc.toLower s) with
        | none => rw [lookup_provider hprovider hsame hwhole, hfound]
        | some p' =>
          -- a key that is spelled so is the key itself
          obtain ⟨kv', hmem, hskv'⟩ := same_of_lookup hwhole
          have hsk : lc.Same s kv.1 := hskv'.trans (hother kv' hmem hskv')
          exact lookup_of_found (by rw [show lc.toLower s = _ from hsk, hfound])
    exact ⟨p, hlatest, hlookup, fun _ _ => by rw [Calculator.calculate, hlookup]⟩

def caseOfG : LetterCase where
  lower c := if c = 'G' then 'g' else c
  idem c := by split <;> simp_all
  slash c := by split <;> simp_all

theorem priced_gpt :
    caseOfG.Distinct [("gpt-4o", ⟨5 / 2, 10⟩), ("Gemma", ⟨1, 1⟩)] ∧
      Priced caseOfG id [("gpt-4o", ⟨5 / 2, 10⟩), ("Gemma", ⟨1, 1⟩)] [[("Gemma", ⟨2, 2⟩)]] := by
  have htable : caseOfG.Distinct [("gpt-4o", ⟨5 / 2, 10⟩), ("Gemma", ⟨1, 1⟩)] := by
    unfold LetterCase.Distinct
    decide
  refine ⟨htable, (priced_iff htable).mpr fun kv hkv hlost => ?_⟩
  simp only [mem_cons, not_mem_nil, or_false] at hkv
  rcases hkv with rfl | rfl
  · exact hlost.1 (by decide)
  · exact hlost.2 ("Gemma", ⟨2, 2⟩) (by simp) rfl

theorem capital_costs_nothing :
    let c := updated caseOfG id [("Gpt-4o", ⟨5 / 2, 10⟩)] []
    c.lookup "Gpt-4o" = none ∧ c.calculate "Gpt-4o" 1000000 1000000 = 0 ∧
      ¬ Priced caseOfG id [("Gpt-4o", ⟨5 / 2, 10⟩)] [] := by
  intro c
  have hlookup : c.lookup "Gpt-4o" = none := by decide
  refine ⟨hlookup, by rw [Calculator.calculate, hlookup], fun h => ?_⟩
  obtain ⟨p, -, hfound, -⟩ := h ("Gpt-4o", ⟨5 / 2, 10⟩) (by simp [given]) "Gpt-4o"
    ⟨.inl rfl, fun _ _ hsame => by simp_all [given]⟩
  exact absurd (hlookup.symm.trans hfound) (by simp)

end LlmRouter.Budgets
