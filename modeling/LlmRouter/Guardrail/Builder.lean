import LlmRouter.Gateway.HotReload
import LlmRouter.Guardrail.Judge

/-!
# LlmRouter — guardrails from the configuration and from the database

The gateway builds its guardrails from the configuration or from the records of the policy table,
which is seeded with `ConfigToRecords`. Both build the same guards (`config_and_records_agree`),
although the records have other defaults. What a guard is built from is kept as data
(`BuiltGuard`).
-/

namespace LlmRouter.Guardrail

open Lib Lib.Json Gateway HotReload

/-! ## The configuration (internal/config) -/

structure LLMJudgeConfig where
  provider : String := ""
  model : String := ""
  deriving DecidableEq, Repr

structure PIIGuardrailConfig where
  enabled : Bool := false
  action : String := ""
  categories : Option (List String) := none
  deriving DecidableEq, Repr

structure PromptInjectionGuardrailConfig where
  enabled : Bool := false
  action : String := ""
  engine : String := ""
  deriving DecidableEq, Repr

structure ContentFilterGuardrailConfig where
  enabled : Bool := false
  action : String := ""
  engine : String := ""
  categories : Option (List String) := none
  deriving DecidableEq, Repr

structure CustomKeywordsGuardrailConfig where
  enabled : Bool := false
  action : String := ""
  blocked : Option (List String) := none
  deriving DecidableEq, Repr

structure GuardrailConfig where
  llmJudge : LLMJudgeConfig := {}
  pii : PIIGuardrailConfig := {}
  promptInjection : PromptInjectionGuardrailConfig := {}
  contentFilter : ContentFilterGuardrailConfig := {}
  customKeywords : CustomKeywordsGuardrailConfig := {}
  deriving DecidableEq, Repr

/-- `defaultStr`, and the tests of `applyDefaults`. -/
def defaultStr (v fallback : String) : String := if v = "" then fallback else v

def GuardrailConfig.applyDefaults (gc : GuardrailConfig) : GuardrailConfig :=
  { gc with
    pii := { gc.pii with action := defaultStr gc.pii.action "mask" }
    promptInjection :=
      { gc.promptInjection with action := defaultStr gc.promptInjection.action "block" }
    contentFilter :=
      { gc.contentFilter with action := defaultStr gc.contentFilter.action "block" }
    customKeywords :=
      { gc.customKeywords with action := defaultStr gc.customKeywords.action "block" } }

/-! ## Guards and what they are built from -/

/-- `guardrail.Action` of a text. -/
def Action.ofText (text : String) : Action :=
  if text = "block" then .block
  else if text = "mask" then .mask
  else if text = "log_only" then .logOnly
  else .other text

inductive BuiltGuard where
  | pii (action : Action) (categories : List String)
  | injection (action : Action)
  | judgedInjection (judge : Judge) (action : Action)
  | content (action : Action) (categories : List String)
  | judgedContent (judge : Judge) (action : Action)
  | keywords (action : Action) (blocked : List String)

structure Built where
  input : List BuiltGuard := []
  output : List BuiltGuard := []

def upTo (p : Char → Bool) : Nat → Regex
  | 0 => .eps
  | n + 1 => .opt (.seq (.cls p) (upTo p n))

def injectionPatterns : List Regex :=
  let spaces : Regex := .many1 Category.isSpace
  [.seqs [Topic.word "ignore", spaces, upTo (· != '\n') 30, Topic.word "instruction",
      .opt (Topic.word "s")],
    .seqs [Topic.phrase ["you", "are", "now"], spaces],
    .seqs [Topic.phrase ["act", "as"], spaces,
      .alt (Topic.phrase ["if", "you", "are"]) (.alt (Topic.word "a") (Topic.word "an")), spaces],
    .seqs [Topic.word "forget", spaces,
      .alt (Topic.word "everything") (.alt (Topic.word "all") (Topic.word "your")), spaces,
      .alt (Topic.word "you") (Topic.word "previous")],
    .alt (Topic.phrase ["system", "prompt"]) (Topic.phrase ["initial", "instructions"]),
    .alt (Topic.word "jailbreak")
      (.alt (Topic.phrase ["dan", "mode"]) (Topic.phrase ["developer", "mode"]))]

/-- `injection.Detector`: it looks at inputs only. -/
def injectionGuard (action : Action) : Guard where
  name := "prompt_injection"
  check := fun _ text dir =>
    if dir ≠ .input then .ok {}
    else if injectionPatterns.any fun re => re.matchString text.toList then
      .ok (filterResult "prompt_injection" action (some "prompt_injection"))
    else .ok {}

/-- What the guards take from the Go runtime: `strings.ToLower`, and the orders in which maps
are iterated. -/
structure GuardRuntime where
  toLower : String → String
  categories : (n : Nat) → (text : String) → List Category
  categories_perm : ∀ n text, (categories n text).Perm Category.all
  topics : (n : Nat) → (text : String) → List Topic
  topics_perm : ∀ n text, (topics n text).Perm Topic.all

def BuiltGuard.guard (rt : GuardRuntime) : BuiltGuard → Guard
  | .pii action categories =>
    Detector.guard
      { action, categories, order := rt.categories, perm := rt.categories_perm }
  | .injection action => injectionGuard action
  | .judgedInjection judge action => promptInjectionGuard judge action
  | .content action categories =>
    OutputGuard.guard
      (.content { action, categories, order := rt.topics, perm := rt.topics_perm })
  | .judgedContent judge action => contentFilterGuard judge action
  | .keywords action blocked =>
    OutputGuard.guard (.keyword { action, keywords := blocked, toLower := rt.toLower })

def Built.pipeline (rt : GuardRuntime) (b : Built) : Pipeline where
  input := b.input.map (BuiltGuard.guard rt)
  output := b.output.map (BuiltGuard.guard rt)

def check (rt : GuardRuntime) (b : Option Built) (dir : Direction) (n : Nat) (text : String) :
    String × Option BlockError :=
  match b with
  | none => (text, none)
  | some b =>
    match dir with
    | .input => (b.pipeline rt).checkInput n text
    | .output => (b.pipeline rt).checkOutput n text

/-! ## From the configuration (cmd/gateway) -/

abbrev JudgeRegistry := String → Option JudgeProvider

variable (registry : JudgeRegistry)

def newJudge (providerName model : String) : Option Judge :=
  if providerName = "" ∨ model = "" then none
  else (registry providerName).map fun p => { provider := p, model := model }

variable (b : Built)

def Built.both (g : BuiltGuard) : Built :=
  { input := b.input ++ [g], output := b.output ++ [g] }

variable (engine : String) (judge : Option Judge) (action : Action)

/-- Add the guard against injections: the judge's if the engine asks for it and there is one,
else the patterns. -/
def Built.injection : Built :=
  match (if engine = "llm" then judge else none) with
  | some judge => { b with input := b.input ++ [.judgedInjection judge action] }
  | none => { b with input := b.input ++ [.injection action] }

def Built.content (categories : List String) : Built :=
  match (if engine = "llm" then judge else none) with
  | some judge => b.both (.judgedContent judge action)
  | none => b.both (.content action categories)

def Built.keywords (action : Action) (blocked : List String) : Built :=
  if 0 < blocked.length then b.both (.keywords action blocked) else b

def Built.orNil : Option Built :=
  if b.input.length = 0 ∧ b.output.length = 0 then none else some b

def GuardrailConfig.needsLLM (gc : GuardrailConfig) : Bool :=
  (gc.promptInjection.enabled && gc.promptInjection.engine == "llm") ||
    (gc.contentFilter.enabled && gc.contentFilter.engine == "llm")

def buildPipelineFromConfig (gc : GuardrailConfig) : Option Built :=
  let judge :=
    if gc.needsLLM then newJudge registry gc.llmJudge.provider gc.llmJudge.model else none
  let b : Built := {}
  let b :=
    if gc.pii.enabled then b.both (.pii (.ofText gc.pii.action) (gc.pii.categories.getD []))
    else b
  let b :=
    if gc.promptInjection.enabled then
      b.injection gc.promptInjection.engine judge (.ofText gc.promptInjection.action)
    else b
  let b :=
    if gc.contentFilter.enabled then
      b.content gc.contentFilter.engine judge (.ofText gc.contentFilter.action)
        (gc.contentFilter.categories.getD [])
    else b
  let b :=
    if gc.customKeywords.enabled then
      b.keywords (.ofText gc.customKeywords.action) (gc.customKeywords.blocked.getD [])
    else b
  b.orNil

/-! ## From records -/

/-- A decoder whose errors are dropped: what does not fit is passed over. -/
def loosely {α : Type} (into : Into α) : Into α := fun v old => some ((into v old).getD old)

def readStrings (name configJSON : String) : List String :=
  match parse configJSON.toList with
  | some (.obj fs) =>
    ((field (loosely (intoSlice (loosely intoString) "")) none name fs).bind fun ss => ss).elim []
      Slice.elems
  | _ => []

def stringAt (key : String) (fs : List (String × Json)) : String :=
  match member key fs with
  | some (.str s) => s
  | _ => ""

def judgeSettings (configJSON : String) : String × String :=
  match parse configJSON.toList with
  | some (.obj fs) => (stringAt "provider" fs, stringAt "model" fs)
  | _ => ("", "")

/-- The judge: built if an enabled record asks for it, from the first record of type
`llm_judge`. -/
def recordJudge (recs : List PolicyRecord) : Option Judge :=
  if recs.any fun rec => rec.isEnabled && rec.engine == "llm" then
    let (providerName, model) :=
      ((recs.find? fun rec => rec.guardrailType == "llm_judge").map fun rec =>
        judgeSettings rec.configJSON).getD ("", "")
    newJudge registry providerName model
  else none

def Built.record (judge : Option Judge) (b : Built) (rec : PolicyRecord) : Built :=
  if !rec.isEnabled then b
  else
    let action := Action.ofText rec.action
    if rec.guardrailType = "pii" then
      b.both (.pii action (readStrings "categories" rec.configJSON))
    else if rec.guardrailType = "prompt_injection" then b.injection rec.engine judge action
    else if rec.guardrailType = "content_filter" then
      b.content rec.engine judge action (readStrings "categories" rec.configJSON)
    else if rec.guardrailType = "custom_keywords" then
      b.keywords action (readStrings "blocked" rec.configJSON)
    else b

def buildPipelineFromRecords (recs : List PolicyRecord) : Option Built :=
  (recs.foldl (Built.record (recordJudge registry recs)) {}).orNil

/-- `json.Marshal` of a map with one list of strings; nil is the empty list. -/
def marshalStrings (name : String) (xs : Option (List String)) : String :=
  rawText (.obj [(name, .arr ((xs.getD []).map .str))])

def configToRecords (gc : GuardrailConfig) : List PolicyRecord :=
  [{ guardrailType := "pii"
     isEnabled := gc.pii.enabled
     action := defaultStr gc.pii.action "log_only"
     engine := ""
     configJSON := marshalStrings "categories" gc.pii.categories
     sortOrder := 0 },
   { guardrailType := "prompt_injection"
     isEnabled := gc.promptInjection.enabled
     action := defaultStr gc.promptInjection.action "block"
     engine := defaultStr gc.promptInjection.engine "regex"
     configJSON := rawText (.obj [])
     sortOrder := 1 },
   { guardrailType := "content_filter"
     isEnabled := gc.contentFilter.enabled
     action := defaultStr gc.contentFilter.action "log_only"
     engine := defaultStr gc.contentFilter.engine "regex"
     configJSON := marshalStrings "categories" gc.contentFilter.categories
     sortOrder := 2 },
   { guardrailType := "custom_keywords"
     isEnabled := gc.customKeywords.enabled
     action := defaultStr gc.customKeywords.action "block"
     engine := ""
     configJSON := marshalStrings "blocked" gc.customKeywords.blocked
     sortOrder := 3 },
   { guardrailType := "llm_judge"
     isEnabled := false
     action := "log_only"
     engine := ""
     -- the keys of a map are written in order
     configJSON := rawText (.obj [("model", .str gc.llmJudge.model),
       ("provider", .str gc.llmJudge.provider)])
     sortOrder := 4 }]

/-! ## What is written is read back -/

theorem intoElems_strings (xs : List String) :
    intoElems (loosely intoString) "" (xs.map .str) [] = some xs := by
  induction xs with
  | nil => rfl
  | cons x xs ih =>
    rw [List.map_cons, intoElems, List.tail_nil, ih]
    rfl

theorem readStrings_marshalStrings (name : String) (xs : Option (List String)) :
    readStrings name (marshalStrings name xs) = xs.getD [] := by
  rw [marshalStrings]
  generalize xs.getD [] = strs
  have hvalid : (Json.obj [(name, .arr (strs.map .str))]).Valid := by
    rw [Json.Valid, ValidFields]
    exact ⟨valid_arr_map fun _ _ => by simp [Json.Valid], trivial⟩
  have hvalues : fieldValues name [(name, Json.arr (strs.map .str))] =
      [Json.arr (strs.map .str)] := by
    simp [fieldValues]
  have hslice : intoSlice (loosely intoString) "" (.arr (strs.map .str)) none =
      some (some { elems := strs }) := by
    cases strs with
    | nil => rfl
    | cons x strs =>
      show (intoElems (loosely intoString) "" ((x :: strs).map .str) []).map _ = _
      rw [intoElems_strings]
      rfl
  rw [readStrings, rawText, String.toList_ofList, parse_render hvalid]
  simp [field, hvalues, intoAll, loosely, hslice]

theorem judgeSettings_rawText (provider model : String) :
    judgeSettings (rawText (.obj [("model", .str model), ("provider", .str provider)])) =
      (provider, model) := by
  have hvalid : (Json.obj [("model", .str model), ("provider", .str provider)]).Valid := by
    simp [Json.Valid, ValidFields]
  rw [judgeSettings, rawText, String.toList_ofList, parse_render hvalid]
  simp [stringAt, member]

/-! ## The two pipelines -/

theorem defaultStr_ne {v fallback : String} (h : fallback ≠ "") : defaultStr v fallback ≠ "" := by
  unfold defaultStr
  split_ifs with hv
  · exact h
  · exact hv

theorem defaultStr_of_ne {v : String} (h : v ≠ "") (fallback : String) :
    defaultStr v fallback = v :=
  if_neg h

theorem defaultStr_eq_llm {engine : String} :
    defaultStr engine "regex" = "llm" ↔ engine = "llm" := by
  unfold defaultStr
  split_ifs with h
  · subst h
    decide
  · rfl

theorem Built.injection_default :
    b.injection (defaultStr engine "regex") judge action = b.injection engine judge action := by
  simp only [Built.injection, defaultStr_eq_llm]

theorem Built.content_default (categories : List String) :
    b.content (defaultStr engine "regex") judge action categories =
      b.content engine judge action categories := by
  simp only [Built.content, defaultStr_eq_llm]

theorem recordJudge_configToRecords (gc : GuardrailConfig) :
    recordJudge registry (configToRecords gc) =
      if gc.needsLLM then newJudge registry gc.llmJudge.provider gc.llmJudge.model else none := by
  have hengine : ∀ engine, (defaultStr engine "regex" == "llm") = (engine == "llm") := by
    intro engine
    rw [Bool.eq_iff_iff, beq_iff_eq, beq_iff_eq]
    exact defaultStr_eq_llm
  have hasks : (configToRecords gc).any (fun rec => rec.isEnabled && rec.engine == "llm") =
      gc.needsLLM := by
    simp [configToRecords, GuardrailConfig.needsLLM, hengine]
  have hfind : ((configToRecords gc).find? fun rec => rec.guardrailType == "llm_judge").map
      (fun rec => judgeSettings rec.configJSON) =
        some (gc.llmJudge.provider, gc.llmJudge.model) := by
    simp [configToRecords, judgeSettings_rawText]
  rw [recordJudge, hasks, hfind]
  rfl

theorem build_configToRecords {gc : GuardrailConfig}
    (hpii : gc.pii.action ≠ "") (hinjection : gc.promptInjection.action ≠ "")
    (hcontent : gc.contentFilter.action ≠ "") (hkeywords : gc.customKeywords.action ≠ "") :
    buildPipelineFromRecords registry (configToRecords gc) =
      buildPipelineFromConfig registry gc := by
  rw [buildPipelineFromRecords, recordJudge_configToRecords, buildPipelineFromConfig]
  congr 1
  generalize (if gc.needsLLM then newJudge registry gc.llmJudge.provider gc.llmJudge.model
    else none) = judge
  -- record by record: a disabled one adds nothing, an enabled one what its section adds
  have hskip : ∀ (enabled : Bool) (b b' : Built),
      (if enabled = false then b else b') = if enabled = true then b' else b := by
    intro enabled b b'
    cases enabled <;> rfl
  simp [configToRecords, Built.record, hskip, readStrings_marshalStrings, Built.injection_default,
    Built.content_default, defaultStr_of_ne hpii, defaultStr_of_ne hinjection,
    defaultStr_of_ne hcontent, defaultStr_of_ne hkeywords]

/-- **Guardrails from the configuration and from the table seeded with it are the same**: the same
guards in the same order, so every text is treated alike on both sides. -/
theorem config_and_records_agree (registry : JudgeRegistry) (gc : GuardrailConfig) :
    buildPipelineFromRecords registry (configToRecords gc.applyDefaults) =
        buildPipelineFromConfig registry gc.applyDefaults ∧
      ∀ rt dir n text,
        check rt (buildPipelineFromRecords registry (configToRecords gc.applyDefaults)) dir n text =
          check rt (buildPipelineFromConfig registry gc.applyDefaults) dir n text := by
  have hsame := @build_configToRecords registry gc.applyDefaults (defaultStr_ne (by decide))
    (defaultStr_ne (by decide)) (defaultStr_ne (by decide)) (defaultStr_ne (by decide))
  exact ⟨hsame, fun rt dir n text => by rw [hsame]⟩

end LlmRouter.Guardrail
