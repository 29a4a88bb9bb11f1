import LlmRouter.Gateway.Stages
import LlmRouter.Provider.Adapters

/-!
# LlmRouter — system messages in the requests of anthropic, gemini and bedrock

These APIs have a field for system instructions. The loop of bedrock appends to it. Those of
anthropic and gemini assign to it, so of several system messages the last one is sent and the
others are lost, among them the prompt of `PromptInjector`.
-/

namespace LlmRouter.Adapters

open Gateway Lib Lib.Json Lib.Text

def isChat (m : Message) : Bool := m.role == "user" || m.role == "assistant"

/-! ## What is in a request -/

/-- The adapters that have a field for system instructions. -/
inductive Translator where
  | anthropic
  | gemini
  | bedrock
  deriving DecidableEq, Repr

namespace Translator

def build (json : Unmarshal) (model : String) (req : ChatCompletionRequest) : Translator → Json
  | anthropic => Anthropic.buildRequest json model req
  | gemini => Gemini.buildRequest json req
  | bedrock => Bedrock.buildConverseRequest req

def systemText : Translator → Json → String
  | anthropic, wire => (getString "system" wire).getD ""
  | gemini, wire =>
    ((get "systemInstruction" wire).bind fun v => readBlocks (get "parts" v)).getD ""
  | bedrock, wire => (readBlocks (get "system" wire)).getD ""

def messages (t : Translator) (wire : Json) : List Json :=
  match get (if t = gemini then "contents" else "messages") wire with
  | some (.arr vs) => vs
  | _ => []

def toWire : Translator → Message → Json
  | anthropic => Message.toJson
  | gemini => Gemini.content
  | bedrock => Bedrock.message

def sent : Translator → List String → String
  | anthropic, texts | gemini, texts => texts.getLast?.getD ""
  | bedrock, texts => String.join texts

/-- All system messages are in the system field, one behind the other, and the rest in the old
order. -/
structure Survives (t : Translator) (ms : List Message) (wire : Json) : Prop where
  instructions : InOrder ((contents "system" ms).map String.toList) (t.systemText wire).toList
  chat : ((ms.filter isChat).map t.toWire).Sublist (t.messages wire)

variable (json : Unmarshal) (model : String) (req : ChatCompletionRequest)

theorem systemText_build (t : Translator) :
    t.systemText (t.build json model req) = t.sent (contents "system" (req.messages.getD [])) := by
  cases t with
  | anthropic =>
    rw [systemText, build, getString, Anthropic.get_system, sent]
    split_ifs with hempty
    · exact hempty.symm
    · rfl
  | gemini =>
    rw [systemText, build, Gemini.get_systemInstruction, sent]
    cases (contents "system" (req.messages.getD [])).getLast? with
    | none => rfl
    | some text => simp [readBlocks_parts]
  | bedrock =>
    rw [systemText, build, Bedrock.get_system, readBlocks, Bedrock.readArray_blocks]
    rfl

theorem elements_slice {f : Message → Json} (ms : List Message) :
    (match some (sliceJson f (appended ms)) with
      | some (.arr vs) => vs
      | _ => []) = ms.map f := by
  cases ms <;> rfl

theorem chat_build (t : Translator) :
    (((req.messages.getD []).filter isChat).map t.toWire).Sublist
      (t.messages (t.build json model req)) := by
  have hchat : ((req.messages.getD []).filter isChat).Sublist
      ((req.messages.getD []).filter fun m => m.role ≠ "system") := by
    refine List.monotone_filter_right _ fun m hm => ?_
    by_contra hrole
    rw [decide_eq_true_eq, not_not] at hrole
    simp [isChat, hrole] at hm
  cases t with
  | anthropic =>
    rw [messages, build, if_neg (by decide), Anthropic.get_messages, elements_slice]
    exact hchat.map _
  | gemini =>
    rw [messages, build, if_pos rfl, Gemini.get_contents, elements_slice]
    exact hchat.map _
  | bedrock =>
    rw [messages, build, if_neg (by decide), Bedrock.get_messages, elements_slice]
    exact List.Sublist.refl _

theorem inOrder_sent_iff (t : Translator) (texts : List String) :
    InOrder (texts.map String.toList) (t.sent texts).toList ↔
      t = bedrock ∨ ∀ text ∈ texts.dropLast, text = "" := by
  have hlast : InOrder (texts.map String.toList) (texts.getLast?.getD "").toList ↔
      ∀ text ∈ texts.dropLast, text = "" := by
    have hget : (texts.getLast?.getD "").toList = (texts.map String.toList).getLast?.getD [] := by
      rw [List.getLast?_map]
      cases texts.getLast? <;> rfl
    rw [hget, inOrder_getLast_iff, ← List.map_dropLast, List.forall_mem_map]
    simp only [String.toList_eq_nil_iff]
  cases t with
  | anthropic | gemini => simpa [sent] using hlast
  | bedrock =>
    refine iff_of_true ?_ (.inl rfl)
    have hjoin : (String.join texts).toList = (texts.map String.toList).flatten := by
      simp [List.flatMap_def]
    rw [sent, hjoin]
    exact inOrder_flatten _

theorem survives_iff (t : Translator) :
    t.Survives (req.messages.getD []) (t.build json model req) ↔
      t = bedrock ∨ ∀ text ∈ (contents "system" (req.messages.getD [])).dropLast, text = "" := by
  constructor
  · intro h
    have hin := h.instructions
    rw [systemText_build] at hin
    exact (inOrder_sent_iff t _).mp hin
  · intro h
    refine ⟨?_, chat_build json model req t⟩
    rw [systemText_build]
    exact (inOrder_sent_iff t _).mpr h

/-- **Every system message is sent, by bedrock always, by anthropic and gemini exactly if all but
the last are empty; other messages are sent by all.** An injected prompt is sent iff it is bedrock,
or the client has no system message, or its last one repeats the prompt. -/
theorem system_prompts_iff (t : Translator) :
    (t.Survives (req.messages.getD []) (t.build json model req) ↔
      t = bedrock ∨ ∀ text ∈ (contents "system" (req.messages.getD [])).dropLast, text = "") ∧
    ∀ rendered : String,
      rendered.toList <:+: (t.systemText (t.build json model (req.inject rendered))).toList ↔
        t = bedrock ∨ ∀ text ∈ (contents "system" (req.messages.getD [])).getLast?,
          rendered.toList <:+: text.toList := by
  refine ⟨survives_iff json model req t, fun rendered => ?_⟩
  have hcontents : contents "system" ((req.inject rendered).messages.getD []) =
      rendered :: contents "system" (req.messages.getD []) := rfl
  rw [systemText_build, hcontents]
  cases t with
  | anthropic | gemini =>
    rw [sent, List.getLast?_cons, Option.getD_some]
    cases (contents "system" (req.messages.getD [])).getLast? <;> simp
  | bedrock =>
    refine iff_of_true ?_ (.inl rfl)
    rw [sent, String.join_cons, String.toList_append]
    exact (List.prefix_append _ _).isInfix

end Translator

def promptedRequest : ChatCompletionRequest :=
  ChatCompletionRequest.inject
    { model := "anthropic/claude", messages := some [⟨"system", "Be terse."⟩, ⟨"user", "Hello"⟩] }
    "Never give legal advice."

theorem client_replaces_prompt :
    let json := Encoding.noFloats.json Setup.twoBodies
    let wire := Translator.anthropic.build json "claude" promptedRequest
    Translator.anthropic.systemText wire = "Be terse." ∧
      ¬ Translator.anthropic.Survives (promptedRequest.messages.getD []) wire := by
  intro json wire
  have hsent : Translator.anthropic.systemText wire = "Be terse." :=
    Translator.systemText_build json "claude" promptedRequest .anthropic
  refine ⟨hsent, fun hsurvives => ?_⟩
  have hlength := hsurvives.instructions.length_le
  rw [hsent] at hlength
  exact absurd hlength (by decide)

end LlmRouter.Adapters
