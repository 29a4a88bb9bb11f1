import LlmRouter.Gateway.Types

/-!
# LlmRouter — the exact-match cache key

`buildKey` hashes the JSON of `CacheKeyData`, the fields of a chat request that the exact cache
keeps apart. The digest (hex SHA-256) is a parameter, assumed injective on the marshalled bytes.
-/

namespace LlmRouter.Cache

open Lib Gateway List

structure CacheKeyData where
  model : String
  messages : Option (List Message)
  temperature : Decimal
  maxTokens : Int
  topP : Decimal

/-- The fields of `cacheKeyData` in the order of its JSON. A `float64` is empty if it is a zero. -/
def CacheKeyData.fields (kd : CacheKeyData) : List (String × Json) :=
  [("model", .str kd.model), ("messages", sliceJson Message.toJson kd.messages)] ++
    omitEmpty "temperature" (kd.temperature.digits = 0) (.ofDecimal kd.temperature) ++
    omitEmpty "max_tokens" (kd.maxTokens = 0) (.ofInt kd.maxTokens) ++
    omitEmpty "top_p" (kd.topP.digits = 0) (.ofDecimal kd.topP)

def keyData (req : ChatCompletionRequest) : CacheKeyData :=
  { model := req.model
    messages := req.messages
    temperature := req.temperature.getD Decimal.zero
    maxTokens := req.maxTokens.getD 0
    topP := req.topP.getD Decimal.zero }

def buildKey (sha256Hex : List Char → String) (req : ChatCompletionRequest) : String :=
  sha256Hex (Json.obj (keyData req).fields).render

def isCacheable (req : ChatCompletionRequest) (temperatureZeroOnly : Bool)
    (headers : List (String × String)) : Bool :=
  if header headers "Cache-Control" == "no-cache" || header headers "X-Gateway-No-Cache" == "true"
  then false
  else if req.maxTokens.isNone then false
  else if temperatureZeroOnly && req.temperature.any (fun t => t.gtInt 0) then false
  else true

/-- `BuildEmbeddingKey`. `parse` decodes the input to any value; an input that
does not decode has no key. -/
def buildEmbeddingKey (sha256Hex : List Char → String) (parse : RawMessage → Except String Json)
    (req : EmbeddingRequest) : String :=
  match parse req.input with
  | .error _ => ""
  | .ok input =>
    sha256Hex (Json.obj ([("model", .str req.model)] ++
      omitEmpty "encoding_format" (req.encodingFormat == "") (.str req.encodingFormat) ++
      [("input", input)])).render

def isEmbeddingCacheable (headers : List (String × String)) : Bool :=
  header headers "Cache-Control" != "no-cache" && header headers "X-Gateway-No-Cache" != "true"

/-! ## What the key determines -/

theorem isCacheable_maxTokens {req : ChatCompletionRequest} {zeroOnly : Bool}
    {headers : List (String × String)} (h : isCacheable req zeroOnly headers = true) :
    ∃ n, req.maxTokens = some n := by
  unfold isCacheable at h
  split_ifs at h with _ hnone
  exact Option.ne_none_iff_exists'.mp (by simpa using hnone)

/-- Members that are left out when empty agree if the values do, or both are empty. -/
theorem eq_or_empty_of_omitted {α : Type} (empty : α → Prop) [DecidablePred empty]
    {toJson : α → Json} (hinj : Function.Injective toJson) {a b : α}
    (h : (if empty a then none else some (toJson a)) =
      if empty b then none else some (toJson b)) : a = b ∨ empty a ∧ empty b := by
  split_ifs at h with ha hb hb
  · exact .inr ⟨ha, hb⟩
  · exact .inl (hinj (Option.some.inj h))

theorem CacheKeyData.lookup_fields (kd : CacheKeyData) (key : String) :
    kd.fields.lookup key =
      if key = "model" then some (.str kd.model)
      else if key = "messages" then some (sliceJson Message.toJson kd.messages)
      else if key = "temperature" then
        if kd.temperature.digits = 0 then none else some (.ofDecimal kd.temperature)
      else if key = "max_tokens" then
        if kd.maxTokens = 0 then none else some (.ofInt kd.maxTokens)
      else if key = "top_p" then
        if kd.topP.digits = 0 then none else some (.ofDecimal kd.topP)
      else none := by
  by_cases h₁ : key = "model"
  · simp [fields, h₁]
  by_cases h₂ : key = "messages"
  · simp [fields, lookup_cons, h₂]
  have h₁' : (key == "model") = false := beq_eq_false_iff_ne.mpr h₁
  have h₂' : (key == "messages") = false := beq_eq_false_iff_ne.mpr h₂
  by_cases h₃ : key = "temperature"
  · simp [fields, lookup_append, lookup_omitEmpty, lookup_cons, h₃]
  by_cases h₄ : key = "max_tokens"
  · simp [fields, lookup_append, lookup_omitEmpty, lookup_cons, h₄]
  by_cases h₅ : key = "top_p"
  · simp [fields, lookup_append, lookup_omitEmpty, lookup_cons, h₅]
  simp [fields, lookup_append, lookup_omitEmpty, lookup_cons, h₁, h₁', h₂, h₂', h₃, h₄, h₅]

/-- The fields determine the data, up to the sign of a zero. -/
theorem CacheKeyData.same_of_fields {a b : CacheKeyData} (h : a.fields = b.fields) :
    a.model = b.model ∧ a.messages = b.messages ∧ a.maxTokens = b.maxTokens ∧
      a.temperature.Same b.temperature ∧ a.topP.Same b.topP := by
  have hlook : ∀ key, a.fields.lookup key = b.fields.lookup key := fun key => by rw [h]
  simp only [lookup_fields] at hlook
  have hmodel : a.model = b.model := by simpa using hlook "model"
  have hmessages : a.messages = b.messages :=
    sliceJson_injective Message.toJson_injective (by simpa using hlook "messages")
  have htemperature : a.temperature.Same b.temperature :=
    eq_or_empty_of_omitted (Decimal.digits · = 0) Json.ofDecimal_injective
      (by simpa using hlook "temperature")
  have hmaxTokens : a.maxTokens = b.maxTokens ∨ a.maxTokens = 0 ∧ b.maxTokens = 0 :=
    eq_or_empty_of_omitted (· = 0) Json.ofInt_injective (by simpa using hlook "max_tokens")
  have htopP : a.topP.Same b.topP :=
    eq_or_empty_of_omitted (Decimal.digits · = 0) Json.ofDecimal_injective
      (by simpa using hlook "top_p")
  exact ⟨hmodel, hmessages, by omega, htemperature, htopP⟩

theorem CacheKeyData.valid_fields (kd : CacheKeyData) : (Json.obj kd.fields).Valid := by
  rw [Json.Valid, Json.validFields_iff]
  simp only [fields, forall_mem_append, forall_mem_cons]
  exact ⟨⟨⟨⟨trivial, valid_sliceJson Message.valid_toJson _, nofun⟩,
    valid_omitEmpty (Json.valid_ofDecimal _)⟩, valid_omitEmpty (Json.valid_ofInt _)⟩,
    valid_omitEmpty (Json.valid_ofDecimal _)⟩

/-- **Key soundness.** Two cacheable requests with one key agree on the model, the messages and the
token limit, and on temperature and top-p up to the sign of a zero and an unset value standing for
0. -/
theorem buildKey_sound {sha256Hex : List Char → String} (hinj : Function.Injective sha256Hex)
    {r₁ r₂ : ChatCompletionRequest} {h₁ h₂ : List (String × String)}
    (hc₁ : isCacheable r₁ true h₁ = true) (hc₂ : isCacheable r₂ true h₂ = true)
    (hkey : buildKey sha256Hex r₁ = buildKey sha256Hex r₂) :
    r₁.model = r₂.model ∧ r₁.messages = r₂.messages ∧ r₁.maxTokens = r₂.maxTokens ∧
      (r₁.temperature.getD .zero).Same (r₂.temperature.getD .zero) ∧
      (r₁.topP.getD .zero).Same (r₂.topP.getD .zero) := by
  have hjson := Json.eq_of_render (keyData r₁).valid_fields (keyData r₂).valid_fields (hinj hkey)
  obtain ⟨hmodel, hmessages, hmaxTokens, htemperature, htopP⟩ :=
    CacheKeyData.same_of_fields (Json.obj.inj hjson)
  -- a cacheable request has a token limit, so a limit of 0 is not an unset one
  obtain ⟨m₁, hm₁⟩ := isCacheable_maxTokens hc₁
  obtain ⟨m₂, hm₂⟩ := isCacheable_maxTokens hc₂
  refine ⟨hmodel, hmessages, ?_, htemperature, htopP⟩
  simp only [keyData, hm₁, hm₂, Option.getD_some] at hmaxTokens
  rw [hm₁, hm₂, hmaxTokens]

/-- An unset top-p, and one of -0: the key is the same, and so is all that is compared. -/
theorem buildKey_sound_negative_zero :
    let r₁ : ChatCompletionRequest :=
      { model := "gpt-4o", messages := some [⟨"user", "hi"⟩], maxTokens := some 5 }
    let r₂ := { r₁ with topP := some ⟨true, 0, 0, .inr ⟨rfl, rfl⟩⟩ }
    buildKey String.ofList r₁ = buildKey String.ofList r₂ ∧ r₁.messages = r₂.messages ∧
      r₁.maxTokens = r₂.maxTokens ∧ (r₁.topP.getD .zero).Same (r₂.topP.getD .zero) := by
  intro r₁ r₂
  have hsound := @buildKey_sound String.ofList (fun _ _ h => String.ofList_injective h) r₁ r₂ [] []
    (by decide) (by decide) rfl
  exact ⟨rfl, hsound.2.1, hsound.2.2.1, hsound.2.2.2.2⟩

/-- Routing metadata, the prompt and a temperature of 0 can change the answer, but not the key. -/
theorem buildKey_ignores_routing_and_prompt :
    let r₁ : ChatCompletionRequest :=
      { model := "gpt-4o", messages := some [⟨"user", "hi"⟩], maxTokens := some 5 }
    let r₂ := { r₁ with
      temperature := some Decimal.zero, metadata := [("tier", "gold")], promptSlug := "support" }
    isCacheable r₁ true [] = true ∧ isCacheable r₂ true [] = true ∧
      (∀ sha256Hex, buildKey sha256Hex r₁ = buildKey sha256Hex r₂) ∧
      r₁.temperature ≠ r₂.temperature ∧ r₁.metadata ≠ r₂.metadata ∧
      r₁.promptSlug ≠ r₂.promptSlug := by
  intro r₁ r₂
  exact ⟨by decide, by decide, fun _ => rfl, by decide, by decide, by decide⟩

end LlmRouter.Cache
