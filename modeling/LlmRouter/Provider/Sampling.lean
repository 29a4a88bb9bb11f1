import LlmRouter.Provider.SystemPrompts

/-!
# LlmRouter — sampling parameters in the requests of anthropic, gemini, bedrock and cohere

These adapters build their request field by field. Anthropic and gemini have a field for each
parameter. Bedrock has one for `top_p` that nothing is assigned to, and none for `stop`; cohere
has neither.
-/

namespace LlmRouter.Adapters

open Gateway Lib Lib.Json Lib.Text Adapter

/-! ## Parameters of a request -/

inductive Param where
  | maxTokens
  | temperature
  | topP
  | stop
  deriving DecidableEq, Repr

def Adapter.paramGroup : Adapter → Option String
  | .gemini => some "generationConfig"
  | .bedrock => some "inferenceConfig"
  | _ => none

def Adapter.paramName : Adapter → Param → String
  | .gemini, .maxTokens => "maxOutputTokens"
  | .bedrock, .maxTokens => "maxTokens"
  | _, .maxTokens => "max_tokens"
  | _, .temperature => "temperature"
  | .gemini, .topP | .bedrock, .topP => "topP"
  | .cohere, .topP => "p"
  | _, .topP => "top_p"
  | .gemini, .stop | .bedrock, .stop => "stopSequences"
  | _, .stop => "stop_sequences"

def Adapter.param (a : Adapter) (p : Param) (wire : Json) : Option Json :=
  match a.paramGroup with
  | some group => (get group wire).bind (get (a.paramName p))
  | none => get (a.paramName p) wire

def Adapter.sentParam (a : Adapter) (json : Unmarshal) (req : ChatCompletionRequest) :
    Param → Option Json
  | .maxTokens =>
    if a = .anthropic then some (.ofInt (req.maxTokens.getD Anthropic.defaultMaxTokens))
    else req.maxTokens.map .ofInt
  | .temperature => req.temperature.map .ofDecimal
  | .topP => if a = .anthropic ∨ a = .gemini then req.topP.map .ofDecimal else none
  | .stop =>
    if a = .anthropic ∨ a = .gemini then nonEmpty ((stopSequences json req.stop).map .str) else none

section Sent

variable (json : Unmarshal) (model : String) (req : ChatCompletionRequest)

theorem anthropic_param (p : Param) :
    anthropic.param p (Anthropic.buildRequest json model req) =
      anthropic.sentParam json req p := by
  have hget := member_present (Anthropic.parts json model req) Anthropic.nodup_keys
  cases p with
  | maxTokens => exact hget "max_tokens"
  | temperature => exact hget "temperature"
  | topP => exact hget "top_p"
  | stop => exact hget "stop_sequences"

theorem gemini_param (p : Param) :
    gemini.param p (Gemini.buildRequest json req) =
      gemini.sentParam json req p := by
  have hgroup := member_present (Gemini.parts json req) Gemini.nodup_keys "generationConfig"
  have hget := member_present
    [("temperature", req.temperature.map .ofDecimal), ("topP", req.topP.map .ofDecimal),
      ("maxOutputTokens", req.maxTokens.map .ofInt),
      ("stopSequences", nonEmpty ((stopSequences json req.stop).map .str))]
    (show ["temperature", "topP", "maxOutputTokens", "stopSequences"].Nodup by decide)
  refine (congrArg (Option.bind · _) hgroup).trans ?_
  cases p with
  | maxTokens => exact hget "maxOutputTokens"
  | temperature => exact hget "temperature"
  | topP => exact hget "topP"
  | stop => exact hget "stopSequences"

theorem bedrock_param (p : Param) :
    bedrock.param p (Bedrock.buildConverseRequest req) =
      bedrock.sentParam json req p := by
  have hgroup := member_present (Bedrock.parts req) Bedrock.nodup_keys "inferenceConfig"
  have hget := member_present [("maxTokens", req.maxTokens.map .ofInt),
    ("temperature", req.temperature.map .ofDecimal)]
    (show ["maxTokens", "temperature"].Nodup by decide)
  refine (congrArg (Option.bind · _) hgroup).trans ?_
  cases p with
  | maxTokens => exact hget "maxTokens"
  | temperature => exact hget "temperature"
  | topP => exact hget "topP"
  | stop => exact hget "stopSequences"

theorem cohere_param (stream : Bool) (p : Param) :
    cohere.param p (Cohere.request stream model req) =
      cohere.sentParam json req p := by
  have hget := member_present (Cohere.parts stream model req) Cohere.nodup_keys
  cases p with
  | maxTokens => exact hget "max_tokens"
  | temperature => exact hget "temperature"
  | topP => exact hget "p"
  | stop => exact hget "stop_sequences"

end Sent

/-! ## What survives -/

def Adapter.stops (a : Adapter) (wire : Json) : List Json :=
  match a.param .stop wire with
  | some (.arr vs) => vs
  | _ => []

def IsStop (raw : RawMessage) (ss : List String) : Prop :=
  (∃ s, parse raw.toList = some (.str s) ∧ ss = [s]) ∨
    parse raw.toList = some (.arr (ss.map .str))

/-- No message is dropped for its role, nor put in another's field. -/
def Adapter.Keeps (a : Adapter) (ms : List Message) (wire : Json) : Prop :=
  match a with
  | .anthropic => Translator.anthropic.Survives ms wire
  | .gemini => Translator.gemini.Survives ms wire
  | .bedrock => Translator.bedrock.Survives ms wire
  | _ => a.messages wire = some ms

/-- What is set in a request is in the body that is sent, with the same value. -/
structure Adapter.Carries (a : Adapter) (req : ChatCompletionRequest) (wire : Json) : Prop where
  maxTokens : ∀ n ∈ req.maxTokens, a.param .maxTokens wire = some (.ofInt n)
  temperature : ∀ x ∈ req.temperature, a.param .temperature wire = some (.ofDecimal x)
  topP : ∀ x ∈ req.topP, a.param .topP wire = some (.ofDecimal x)
  stop : ∀ raw ∈ req.stop, ∀ ss, IsStop raw ss → a.stops wire = ss.map .str
  messages : a.Keeps (req.messages.getD []) wire

theorem stopSequences_of_isStop (enc : Encoding) (rest : Unmarshal) {raw : RawMessage}
    {ss : List String} (h : IsStop raw ss) : stopSequences (enc.json rest) (some raw) = ss := by
  rcases h with ⟨s, hparse, rfl⟩ | hparse
  · simp [stopSequences, Encoding.json, Encoding.unmarshal, hparse, intoString]
  · have hslice : decodeStrings (.arr (ss.map .str)) = some ss := by
      rw [decodeStrings, intoSlice_map fun s _ => rfl]
      rfl
    simp [stopSequences, Encoding.json, Encoding.unmarshal, hparse, intoString, hslice]

section Body

variable {a : Adapter} (ha : a.isRaw = false) (enc : Encoding) (json : Unmarshal) (stream : Bool)
  (model : String) (req : ChatCompletionRequest) (rawBody : String)

include ha

/-- **What is sent** of each parameter and of the messages. -/
theorem body_params : ∃ wire, a.body enc json stream model req rawBody = .ok wire ∧
    (∀ p, a.param p wire = a.sentParam json req p) ∧
    (a.Keeps (req.messages.getD []) wire ↔ (a = .anthropic ∨ a = .gemini →
      ∀ text ∈ (contents "system" (req.messages.getD [])).dropLast, text = "")) := by
  cases a with
  | anthropic =>
    refine ⟨_, rfl, fun p => ?_, ?_⟩
    · rw [anthropic_param]
      cases stream <;> rfl
    · have hiff := Translator.survives_iff json model
        (if stream then { req with stream := true } else req) .anthropic
      have hms : (if stream then { req with stream := true } else req).messages = req.messages := by
        cases stream <;> rfl
      rw [hms] at hiff
      exact hiff.trans (by simp)
  | gemini =>
    refine ⟨_, rfl, gemini_param json req, ?_⟩
    exact (Translator.survives_iff json model req .gemini).trans (by simp)
  | bedrock =>
    refine ⟨_, rfl, bedrock_param json req, ?_⟩
    exact (Translator.survives_iff json model req .bedrock).trans (by simp)
  | cohere =>
    exact ⟨_, rfl, cohere_param json model req stream,
      iff_of_true (cohere_messages stream model) (by simp)⟩
  | _ => cases ha

/-- **Parameters and messages survive with anthropic and gemini exactly if all but the last system
message are empty, and with bedrock and cohere exactly if `top_p` is not set and `stop` has no
strings.** -/
theorem parameters_survive_iff (rest : Unmarshal) :
    ∃ wire, a.body enc (enc.json rest) stream model req rawBody = .ok wire ∧
      (a.Carries req wire ↔
        (a = .anthropic ∨ a = .gemini →
          ∀ text ∈ (contents "system" (req.messages.getD [])).dropLast, text = "") ∧
        (a = .bedrock ∨ a = .cohere →
          req.topP = none ∧ ∀ raw ∈ req.stop, ∀ ss, IsStop raw ss → ss = [])) := by
  obtain ⟨wire, hbody, hparam, hkeeps⟩ :=
    body_params ha enc (enc.json rest) stream model req rawBody
  refine ⟨wire, hbody, fun h => ⟨hkeeps.mp h.messages, fun hlost => ?_⟩, fun ⟨hsystem, hlost⟩ => ?_⟩
  · -- neither of the two is in a request of these
    have hnot : ¬ (a = .anthropic ∨ a = .gemini) := by
      rcases hlost with rfl | rfl <;> decide
    refine ⟨Option.eq_none_iff_forall_not_mem.mpr fun x hx => ?_, fun raw hraw ss hss => ?_⟩
    · have htopP := h.topP x hx
      rw [hparam, sentParam, if_neg hnot] at htopP
      cases htopP
    · have hstop := h.stop raw hraw ss hss
      rw [stops, hparam, sentParam, if_neg hnot] at hstop
      exact List.map_eq_nil_iff.mp hstop.symm
  · have hkind : (a = .anthropic ∨ a = .gemini) ∨ (a = .bedrock ∨ a = .cohere) := by
      cases a <;> simp [isRaw] at ha ⊢
    refine ⟨fun n hn => ?_, fun x hx => ?_, fun x hx => ?_, fun raw hraw ss hss => ?_,
      hkeeps.mpr hsystem⟩
    · rw [hparam, sentParam, Option.mem_def.mp hn]
      split_ifs <;> rfl
    · rw [hparam, sentParam, Option.mem_def.mp hx]
      rfl
    · rcases hkind with hsent | hnone
      · rw [hparam, sentParam, if_pos hsent, Option.mem_def.mp hx]
        rfl
      · rw [(hlost hnone).1] at hx
        cases hx
    · rw [stops, hparam, sentParam]
      rcases hkind with hsent | hnone
      · rw [if_pos hsent, Option.mem_def.mp hraw, stopSequences_of_isStop enc rest hss, nonEmpty]
        split_ifs with hempty
        · exact hempty.symm
        · rfl
      · have hss' := (hlost hnone).2 raw hraw ss hss
        subst hss'
        split_ifs with hsent
        · rcases hnone with rfl | rfl <;> simp at hsent
        · rfl

end Body

def nucleusRequest : ChatCompletionRequest :=
  { model := "command-r-plus", messages := some [⟨"system", "Be terse."⟩, ⟨"user", "Hello"⟩]
    topP := some ⟨false, 5, -1, by decide⟩, stop := some "[\"END\",\"STOP\"]" }

theorem parameters_survive_nucleus :
    ∃ wire, gemini.body .noFloats (Encoding.noFloats.json Setup.twoBodies) false
        "gemini-2.0-flash" nucleusRequest "" = .ok wire ∧
      gemini.Carries nucleusRequest wire := by
  have ha : gemini.isRaw = false := by decide
  obtain ⟨wire, hbody, hiff⟩ := parameters_survive_iff ha .noFloats false "gemini-2.0-flash"
    nucleusRequest "" Setup.twoBodies
  exact ⟨wire, hbody, hiff.mpr ⟨fun _ => by decide, fun hlost => absurd hlost (by decide)⟩⟩

theorem cohere_drops_nucleus :
    validateChatRequest nucleusRequest = .ok () ∧ ∀ (enc : Encoding) (rest : Unmarshal), ∃ wire,
      cohere.body enc (enc.json rest) false "command-r-plus" nucleusRequest "" = .ok wire ∧
      cohere.param .topP wire = none ∧ cohere.stops wire = [] ∧
      ¬ cohere.Carries nucleusRequest wire := by
  refine ⟨by decide, fun enc rest => ?_⟩
  have ha : cohere.isRaw = false := by decide
  obtain ⟨wire, hbody, hparam, -⟩ := body_params ha enc (enc.json rest) false "command-r-plus"
    nucleusRequest ""
  have htopP : cohere.param .topP wire = none := hparam .topP
  have hstop : cohere.stops wire = [] := by
    rw [stops, hparam]
    rfl
  refine ⟨wire, hbody, htopP, hstop, fun hcarries => ?_⟩
  have hsent := hcarries.topP _ rfl
  rw [htopP] at hsent
  cases hsent

end LlmRouter.Adapters
