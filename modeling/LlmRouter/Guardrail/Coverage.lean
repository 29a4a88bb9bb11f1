import LlmRouter.Gateway.Stages
import LlmRouter.Provider.Adapters

/-!
# LlmRouter — what the input guards see of a chat request

`GuardrailCheck` decodes the body into a struct, where the last spelling of a key wins; an adapter
for an OpenAI-compatible API picks the field `messages` out of the bytes by its exact name. The
two readings differ on a body that repeats a key or spells it in another case.
-/

namespace LlmRouter.Guardrail

open Gateway Adapters Lib Lib.Json List

/-! ## User messages in a body -/

def userContent (v : Json) : Option Json :=
  if getString "role" v = some "user" then Adapters.get "content" v else none

def userContents (wire : Json) : List Json :=
  match Adapters.get "messages" wire with
  | some (.arr vs) => vs.filterMap userContent
  | _ => []

theorem userContents_congr {fs ws : List (String × Json)}
    (h : member "messages" ws = member "messages" fs) :
    userContents (.obj ws) = userContents (.obj fs) := by
  simp only [userContents, Adapters.get, h]

theorem userContent_toJson (m : Message) :
    userContent m.toJson = if m.role = "user" then some (.str m.content) else none := by
  have hrole : getString "role" m.toJson = some m.role := rfl
  have hcontent : Adapters.get "content" m.toJson = some (.str m.content) := rfl
  simp [userContent, hrole, hcontent]

theorem mem_userContents_toJson {req : ChatCompletionRequest} {v : Json} :
    v ∈ userContents req.toJson ↔
      ∃ m ∈ req.messages.getD [], m.role = "user" ∧ v = .str m.content := by
  have hget : Adapters.get "messages" req.toJson = some (sliceJson Message.toJson req.messages) := by
    simp only [Adapters.get, ChatCompletionRequest.toJson, ChatCompletionRequest.member_parts]
    rfl
  cases hms : req.messages with
  | none => simp [userContents, hget, hms, sliceJson]
  | some ms =>
    simp only [userContents, hget, hms, sliceJson, mem_filterMap, mem_map, Option.getD_some]
    constructor
    · rintro ⟨_, ⟨m, hm, rfl⟩, hv⟩
      rw [userContent_toJson] at hv
      split_ifs at hv with hrole
      exact ⟨m, hm, hrole, (Option.some.inj hv).symm⟩
    · rintro ⟨m, hm, hrole, rfl⟩
      exact ⟨_, ⟨m, hm, rfl⟩, by rw [userContent_toJson, if_pos hrole]⟩

/-! ## Coverage -/

/-- Whatever gateway, adapters, guards, prompts and experiments the body meets, every user content
that an adapter makes of the raw body is a text that `CheckInput` returned for a message of this
request. -/
def Covered (enc : Encoding) (body : String) : Prop :=
  ∀ (g : Setup) (adapters : String → Adapter) (st : Stages) (r r' : Request)
    (log : List InputCheck),
    st.pipeline ≠ none → r.body = .ok body →
    st.pass (g.decoding enc).json r = .ok (r', log) →
    ∀ env cb, ∀ c ∈ ((g.decoding enc).handle env .chatCompletions r' { cb := cb }).1.calls,
      (adapters c.provider).isRaw = true →
      ∀ wire, wireBody enc (g.decoding enc).json adapters c = some (.ok wire) →
        ∀ v ∈ userContents wire, ∃ k ∈ log, v = .str k.modified

/-- The numbers of the request are in the ranges that `validateChatRequest` checks. -/
def InRange (req : ChatCompletionRequest) : Prop :=
  req.temperature.filter (fun t => t.ltInt 0 || t.gtInt 2) = none ∧
    req.maxTokens.any (fun n => decide (n ≤ 0)) = false

theorem validateChatRequest_eq_ok {req : ChatCompletionRequest} :
    validateChatRequest req = .ok () ↔
      req.model ≠ "" ∧ req.messages.getD [] ≠ [] ∧ InRange req := by
  unfold validateChatRequest InRange
  cases req.temperature.filter (fun t => t.ltInt 0 || t.gtInt 2) <;> split_ifs <;> simp_all

section Covered

variable {enc : Encoding} {rest : Unmarshal} {st : Stages} {r r' : Request} {body body' : String}
  {req req' : ChatCompletionRequest} {log : List InputCheck} {fs : List (String × Json)}

theorem inRange_final (r : Request) : InRange (st.final r req) ↔ InRange req := by
  rw [st.final_eq]
  rfl

theorem logged_of_forall₂ {ms ms' : List Message} (h : List.Forall₂ (Message.Passed log) ms ms')
    (hchecked : ∀ m ∈ ms, m.role = "user" → m.content ≠ "") {m' : Message} (hm' : m' ∈ ms')
    (hrole : m'.role = "user") : ∃ k ∈ log, m'.content = k.modified := by
  induction h with
  | nil => cases hm'
  | @cons m m₁ ms ms₁ hpassed _ ih =>
    rcases mem_cons.mp hm' with rfl | hm'
    · have hm : m.isChecked := by
        have huser : m.role = "user" := hpassed.1 ▸ hrole
        exact ⟨huser, hchecked m mem_cons_self huser⟩
      exact ⟨_, hpassed.2.1 hm, rfl⟩
    · exact ih (fun m hm => hchecked m (mem_cons_of_mem _ hm)) hm'

theorem Covered.of_carries (hcov : Covered enc body) (hpipeline : st.pipeline ≠ none)
    (hbody : r.body = .ok body) (hpass : st.pass (enc.json rest) r = .ok (r', log))
    (h : Carries (enc.json rest) r' body' req') (hvalid : validateChatRequest req' = .ok ())
    (hparse : parse body'.toList = some (.obj fs)) :
    ∀ v ∈ userContents (.obj fs), ∃ k ∈ log, v = .str k.modified := by
  intro v hv
  obtain ⟨env, cb, t, hc⟩ := exists_chat_call h hvalid
  obtain ⟨ws, hws, hmember⟩ :=
    @call_of_raw enc (fun _ => .openai) t rfl _ _ hparse (enc.json rest) req'.stream req'
  rw [← userContents_congr hmember] at hv
  exact hcov (.serving rest (parseModel req'.model).provider) (fun _ => .openai) st r r' log
    hpipeline hbody hpass env cb _ hc rfl _ hws v hv

theorem sent_contents {adapters : String → Adapter} {t : Target}
    (h : Carries (enc.json rest) r' body' req') (hvalid : validateChatRequest req' = .ok ())
    (hraw : (adapters (t.call req'.stream req' body').provider).isRaw = true) {wire : Json}
    (hwire : wireBody enc (enc.json rest) adapters (t.call req'.stream req' body') =
      some (.ok wire)) :
    ∃ fs, parse body'.toList = some (.obj fs) ∧ userContents wire = userContents (.obj fs) := by
  obtain ⟨fs, hparse⟩ := accepted_chat h hvalid
  rw [Target.call_provider] at hraw
  obtain ⟨ws, hws, hmember⟩ := call_of_raw hraw hparse (enc.json rest) req'.stream req'
  rw [hws, Option.some.injEq, Except.ok.injEq] at hwire
  subst hwire
  exact ⟨fs, hparse, userContents_congr hmember⟩

def unguarded (tests : List Experiment) : Stages where
  pipeline := some {}
  tests := tests

theorem checkMessages_nil (n : Nat) (ms : List Message) :
    ∃ log, checkMessages {} n ms = .ok (ms, log) := by
  induction ms generalizing n with
  | nil => exact ⟨[], rfl⟩
  | cons m ms ih =>
    rw [checkMessages]
    split_ifs
    · obtain ⟨log, hlog⟩ := ih n
      exact ⟨log, by simp [hlog, Except.map]⟩
    · obtain ⟨log, hlog⟩ := ih (n + 1)
      exact ⟨_, by simp [hlog, Except.map, Pipeline.checkInput, run]; rfl⟩

theorem pass_unguarded (tests : List Experiment) (h : Carries (enc.json rest) r body req) :
    ∃ r' log, (unguarded tests).pass (enc.json rest) r = .ok (r', log) ∧
      (∀ k ∈ log, ∃ m ∈ req.messages.getD [], m.isChecked ∧ m.content = k.modified) ∧
      Carries (enc.json rest) r'
        (((unguarded tests).variant r).elim body fun model => (req.assign model).marshal)
        (((unguarded tests).variant r).elim req req.assign) := by
  obtain ⟨log, hms⟩ := checkMessages_nil 0 (req.messages.getD [])
  have hcheck : guardrailCheck (enc.json rest) (unguarded tests).pipeline r = .ok (r, log) := by
    simp only [unguarded, guardrailCheck, h.holds, h.reads, hms, if_true]
  have hmasked : (unguarded tests).masked req = .ok (req, log) := by
    simp [Stages.masked, unguarded, hms, Except.map]
  have hinjected : (unguarded tests).injected req = none := by
    simp [Stages.injected, unguarded, Except.toOption]
  obtain ⟨r', hpass⟩ : ∃ r', (unguarded tests).pass (enc.json rest) r = .ok (r', log) :=
    ⟨_, map_eq_ok.mpr ⟨_, hcheck, rfl⟩⟩
  refine ⟨r', log, hpass, fun k hk => ?_, ?_⟩
  · obtain ⟨n, m, hm, hchecked, htext, hk⟩ := (checkMessages_eq_ok hms).2 k hk
    have hsame : k.text = k.modified := congrArg Prod.fst hk
    exact ⟨m, hm, hchecked, htext.trans hsame⟩
  · obtain ⟨req₁, hmasked', hcarries⟩ := pass_eq_ok h hpass
    obtain rfl : req = req₁ := congrArg Prod.fst (Except.ok.inj (hmasked.symm.trans hmasked'))
    cases hv : (unguarded tests).variant r <;>
      simpa [Stages.final, Stages.Rewrites, hinjected, hv] using hcarries

end Covered

section Covered

variable {enc : Encoding} {body : String} {req : ChatCompletionRequest} {fs : List (String × Json)}

theorem Covered.content_ne_empty (hcov : Covered enc body)
    (h : Carries (enc.json Setup.twoBodies) { body := .ok body } body req) (hrange : InRange req)
    {m : Message} (hm : m ∈ req.messages.getD []) (huser : m.role = "user") : m.content ≠ "" := by
  intro hempty
  obtain ⟨r', log, hpass, hlog, hcarries⟩ := pass_unguarded [.everyone] h
  replace hcarries : Carries _ r' (req.assign "gpt-4o").marshal (req.assign "gpt-4o") := hcarries
  have hvalid : validateChatRequest (req.assign "gpt-4o") = .ok () :=
    validateChatRequest_eq_ok.mpr
      ⟨show "gpt-4o" ≠ "" by decide, ne_nil_of_mem hm, hrange⟩
  have hv : Json.str m.content ∈ userContents (req.assign "gpt-4o").toJson :=
    mem_userContents_toJson.mpr ⟨m, hm, huser, rfl⟩
  obtain ⟨k, hk, heq⟩ := hcov.of_carries (by simp [unguarded]) rfl hpass hcarries hvalid
    (ChatCompletionRequest.parse_marshal (h.clean.assign _)) _ hv
  obtain ⟨m', -, hm', heq'⟩ := hlog k hk
  exact hm'.2 (heq'.trans ((Json.str.inj heq).symm.trans hempty))

theorem Covered.content_mem (hcov : Covered enc body)
    (h : Carries (enc.json Setup.twoBodies) { body := .ok body } body req)
    (hvalid : validateChatRequest req = .ok ()) (hparse : parse body.toList = some (.obj fs))
    {v : Json} (hv : v ∈ userContents (.obj fs)) :
    ∃ m ∈ req.messages.getD [], m.isChecked ∧ v = .str m.content := by
  obtain ⟨r', log, hpass, hlog, hcarries⟩ := pass_unguarded [] h
  obtain ⟨k, hk, rfl⟩ := hcov.of_carries (by simp [unguarded]) rfl hpass hcarries hvalid hparse v hv
  obtain ⟨m, hm, hchecked, heq⟩ := hlog k hk
  exact ⟨m, hm, hchecked, by rw [heq]⟩

theorem logged_of_pass {rest : Unmarshal} {st : Stages} {p : Pipeline} {r r' : Request}
    {log : List InputCheck} {body' : String} {req' : ChatCompletionRequest}
    (h : Carries (enc.json rest) r body req) (hp : st.pipeline = some p)
    (hpass : st.pass (enc.json rest) r = .ok (r', log))
    (h' : Carries (enc.json rest) r' body' req') (hvalid : validateChatRequest req' = .ok ())
    (hparse : parse body'.toList = some (.obj fs))
    (hne : InRange req → ∀ m ∈ req.messages.getD [], m.role = "user" → m.content ≠ "")
    (hclient : body' = body → validateChatRequest req = .ok () → ∀ v ∈ userContents (.obj fs),
      ∃ m ∈ req.messages.getD [], m.isChecked ∧ v = .str m.content) :
    ∀ v ∈ userContents (.obj fs), ∃ k ∈ log, v = .str k.modified := by
  intro v hv
  obtain ⟨req₁, hmasked, hfinal⟩ := pass_eq_ok h hpass
  obtain ⟨ms, hms, hreq₁⟩ := masked_eq_ok hp hmasked
  obtain ⟨hbody, rfl⟩ := h'.unique hfinal
  have hpassed := (checkMessages_eq_ok hms).1
  have hms₁ : req₁.messages.getD [] = ms := by
    rw [hreq₁]
    dsimp only
    split_ifs with hsame
    · exact hsame.symm
    · rfl
  by_cases hrewrites : st.Rewrites r req req₁
  · rw [if_pos hrewrites] at hbody
    subst hbody
    rw [ChatCompletionRequest.parse_marshal h'.clean, Option.some.injEq] at hparse
    rw [← hparse] at hv
    obtain ⟨m, hm, huser, rfl⟩ := mem_userContents_toJson.mp hv
    have hrange : InRange req := by
      have hrange := (inRange_final r).mp (validateChatRequest_eq_ok.mp hvalid).2.2
      rw [hreq₁] at hrange
      exact hrange
    rw [st.final_messages, hms₁, mem_append] at hm
    rcases hm with hsystem | hm
    · -- the prompt is no user message
      obtain ⟨rendered, -, rfl⟩ := Option.map_eq_some_iff.mp (Option.mem_toList.mp hsystem)
      exact absurd huser (show ¬ "system" = "user" by decide)
    · obtain ⟨k, hk, heq⟩ := logged_of_forall₂ hpassed (hne hrange) hm huser
      exact ⟨k, hk, by rw [heq]⟩
  · rw [if_neg hrewrites] at hbody
    obtain ⟨rfl, hfinal⟩ := st.not_rewrites hrewrites
    rw [hfinal] at hvalid
    obtain ⟨m, hm, hchecked, rfl⟩ := hclient hbody hvalid v hv
    rw [← hms₁] at hpassed
    exact ⟨_, (forall₂_same.mp hpassed m hm).2.1 hchecked, rfl⟩

end Covered

/-- **Guardrail coverage.** A body is covered iff the decoded struct has no empty user message
(unless its numbers are refused) and every user content under the exact name `messages` is that of a
user message of the struct (unless the handler refuses the request). -/
theorem covered_iff (enc : Encoding) (body : String) :
    Covered enc body ↔
      ∀ fs req, parse body.toList = some (.obj fs) → enc.chatRequest fs = some req →
        (InRange req → ∀ m ∈ req.messages.getD [], m.role = "user" → m.content ≠ "") ∧
        (validateChatRequest req = .ok () → ∀ v ∈ userContents (.obj fs),
          ∃ m ∈ req.messages.getD [], m.isChecked ∧ v = .str m.content) := by
  constructor
  · intro hcov fs req hparse hreads
    have h : Carries (enc.json Setup.twoBodies) { body := .ok body } body req :=
      carries_of_parse rfl hparse hreads
    exact ⟨fun hrange m hm huser => hcov.content_ne_empty h hrange hm huser,
      fun hvalid v hv => hcov.content_mem h hvalid hparse hv⟩
  · intro hcond g adapters st r r' log hpipeline hbody hpass env cb c hc hraw wire hwire v hv
    obtain ⟨body', req', h', hvalid, t, rfl⟩ := chat_call hc
    obtain ⟨fs', hparse', hcontents⟩ := sent_contents h' hvalid hraw hwire
    rw [hcontents] at hv
    obtain ⟨p, hp⟩ := Option.ne_none_iff_exists'.mp hpipeline
    obtain ⟨req, h⟩ := carries_of_pass hbody hpass h'
    have hdecode := h.reads
    rw [show (g.decoding enc).json = enc.json g.json from rfl, Encoding.json_chatRequest] at hdecode
    obtain ⟨tree, hparse, hreads⟩ := Encoding.unmarshal_eq_ok.mp hdecode
    refine logged_of_pass h hp hpass h' hvalid hparse' ?_ ?_ v hv
    · cases tree with
      | null =>
        -- a `null` body has no messages
        obtain ⟨⟩ := hreads
        intro _ m hm
        cases hm
      | obj fs => exact (hcond fs req hparse hreads).1
      | _ => cases hreads
    · rintro rfl
      obtain rfl : tree = .obj fs' := Option.some.inj (hparse.symm.trans hparse')
      exact (hcond fs' req hparse' hreads).2

def badWord : Pipeline where
  input := [{ name := "custom_keywords"
              check := fun _ text _ =>
                .ok { triggered := text == "bad", action := .block, category := "blocked_keyword",
                      guardrail := "custom_keywords" } }]

def oneMessage (content : String) : Json :=
  .arr [.obj [("role", .str "user"), ("content", .str content)]]

def twoSpellings : List (String × Json) :=
  [("model", .str "gpt-4o"), ("messages", oneMessage "bad"), ("Messages", oneMessage "ok")]

theorem blocked_text_is_sent :
    (∀ n, (badWord.checkInput n "bad").2.isSome) ∧
      Stages.pass { pipeline := some badWord } (Encoding.noFloats.json Setup.twoBodies)
          { body := .ok (encode (.obj twoSpellings)) } =
        .ok ({ body := .ok (encode (.obj twoSpellings)) }, [{ text := "ok", modified := "ok" }]) ∧
      (∃ env cb, ∃ c ∈ (((Setup.serving Setup.twoBodies "openai").decoding .noFloats).handle env
            .chatCompletions { body := .ok (encode (.obj twoSpellings)) } { cb := cb }).1.calls,
        ∃ wire, wireBody .noFloats (Encoding.noFloats.json Setup.twoBodies) (fun _ => .openai) c =
            some (.ok wire) ∧ userContents wire = [.str "bad"]) ∧
      ¬ Covered .noFloats (encode (.obj twoSpellings)) := by
  have hparse : parse (encode (.obj twoSpellings)).toList = some (.obj twoSpellings) :=
    parse_encode (by simp [twoSpellings, oneMessage, Json.Valid, ValidFields, ValidElems])
  generalize encode (.obj twoSpellings) = body at hparse ⊢
  have h : Carries (Encoding.noFloats.json Setup.twoBodies) { body := .ok body } body
      { model := "gpt-4o", messages := some [{ role := "user", content := "ok" }] } :=
    carries_of_parse rfl hparse rfl
  have hpass : Stages.pass { pipeline := some badWord } (Encoding.noFloats.json Setup.twoBodies)
      { body := .ok body } = .ok ({ body := .ok body }, [{ text := "ok", modified := "ok" }]) := by
    have hcheck : guardrailCheck (Encoding.noFloats.json Setup.twoBodies) (some badWord)
        { body := .ok body } = .ok ({ body := .ok body }, [{ text := "ok", modified := "ok" }]) := by
      simp only [guardrailCheck, h.reads]
      rfl
    have hresidency : dataResidency { body := .ok body } = { body := .ok body } := rfl
    -- no other stage changes the request: it has no prompt and is in no experiment
    simp only [Stages.pass, hcheck, Except.map, hresidency, promptInjector, abTest, h.reads, if_true]
    rfl
  obtain ⟨env, cb, t, hc⟩ := exists_chat_call h rfl
  obtain ⟨ws, hws, hmember⟩ := @call_of_raw .noFloats (fun _ => .openai) t rfl _ _ hparse
    (Encoding.noFloats.json Setup.twoBodies) false
    { model := "gpt-4o", messages := some [{ role := "user", content := "ok" }] }
  have hcontents : userContents (.obj ws) = [.str "bad"] := userContents_congr hmember
  refine ⟨fun _ => rfl, hpass, ⟨env, cb, _, hc, _, hws, hcontents⟩, fun hcov => ?_⟩
  obtain ⟨k, hk, heq⟩ := hcov (.serving Setup.twoBodies "openai") (fun _ => .openai)
    { pipeline := some badWord } _ _ _ (Option.some_ne_none _) rfl hpass _ _ _ hc rfl _ hws
    (.str "bad") (by rw [hcontents]; exact mem_cons_self)
  obtain rfl := mem_singleton.mp hk
  exact absurd (Json.str.inj heq) (by decide)

end LlmRouter.Guardrail
