import LlmRouter.Auth.Revocation
import LlmRouter.Experiment.Middleware
import LlmRouter.Gateway.Stages

/-!
# LlmRouter — the teams of an experiment

A target of an experiment names a sample rate and the teams that take part. `Assign` reads the
sample rate and not the teams, and the middleware hands it the `Authorization` header only.
-/

namespace LlmRouter.Experiments

open Auth Gateway Lib
open Auth.Revocation (validated authenticate_eq)

/-! ## The model -/

structure Targeted extends Experiment where
  teamIDs : List String
  models : List String
  paired : models.length = trafficSplit.length

namespace Targeted

def stage (e : Targeted) (now : Int) : Gateway.Experiment where
  id := e.id
  assign entityID := Experiments.assign e.toExperiment entityID now
  trafficSplit := (e.trafficSplit.map TrafficSplit.variant).zip e.models

end Targeted

def firstTargeted (entityID : String) (now : Int) : List Targeted → Option (Targeted × String)
  | [] => none
  | e :: rest =>
    let v := assign e.toExperiment entityID now
    if v = "" then firstTargeted entityID now rest else some (e, v)

variable (json : Unmarshal) (tests : List Targeted)

/-- The experiment and variant applied to a request: none if the body is not read or does not
decode. -/
def applied (now : Int) (remoteAddr : String)
    (r : Request) : Option (ChatCompletionRequest × Targeted × String) :=
  match r.body with
  | .error _ => none
  | .ok body =>
    match json.chatRequest body with
    | .error _ => none
    | .ok req => (firstTargeted (entityID r remoteAddr) now tests).map fun ev => (req, ev)

/-- A request that was authenticated with a key; the middlewares leave its headers and its key. -/
def Authenticated (m : VirtualKeyMiddleware) (now : Int) (r : Request) (k : VirtualKey) : Prop :=
  ∃ r₀ r₁, m.authenticate now r₀ = .ok r₁ ∧ r₁.virtualKey = some k ∧
    r.headers = r₁.headers ∧ r.virtualKey = some k

def TeamsRespected : Prop :=
  ∀ m since now remoteAddr r k, Authenticated m since r k →
    ∀ req e v, applied json tests now remoteAddr r = some (req, e, v) → e.teamIDs ≠ [] →
      k.teamID ∈ e.teamIDs.map some

def Exposed (tests : List Targeted) (e : Targeted) : Prop :=
  ∃ token now v, token ≠ "" ∧ firstTargeted ("Bearer " ++ token) now tests = some (e, v)

/-! ## The loop and the handler -/

theorem variantModel_eq (entityID : String) (now : Int) (tests : List Targeted) :
    variantModel (tests.map (Targeted.stage · now)) entityID =
      (firstTargeted entityID now tests).map fun (e, v) => (e.stage now).modelForVariant v := by
  induction tests with
  | nil => rfl
  | cons e tests ih =>
    rw [variantModel] at ih ⊢
    rw [List.map_cons, firstTargeted, List.find?_cons]
    by_cases hnone : assign e.toExperiment entityID now = ""
    · have hskip : decide ((e.stage now).assign entityID ≠ "") = false :=
        decide_eq_false (not_not.mpr hnone)
      rw [hskip, if_pos hnone]
      exact ih
    · have hfound : decide ((e.stage now).assign entityID ≠ "") = true := decide_eq_true hnone
      rw [hfound, if_neg hnone]
      rfl

theorem abTest_eq (now : Int) (remoteAddr : String) (r : Request) :
    abTest json (tests.map (Targeted.stage · now)) remoteAddr r =
      match applied json tests now remoteAddr r with
      | none => r
      | some (req, e, v) =>
        { r with body := .ok (req.assign ((e.stage now).modelForVariant v)).marshal } := by
  rw [abTest, applied]
  cases r.body with
  | error u => rfl
  | ok body =>
    cases hread : json.chatRequest body with
    | error err => simp only [hread]
    | ok req =>
      simp only [hread, variantModel_eq]
      cases firstTargeted (entityID r remoteAddr) now tests <;> rfl

/-! ## Authenticated requests -/

theorem drop_bearer (t : List Char) : ("Bearer ".toList ++ t).drop "Bearer ".length = t := by
  rw [← String.length_toList, List.drop_left]

variable {r : Request} {token : String} {since : Int}

theorem header_of_bearerToken (h : bearerToken r ≠ "") :
    header r.headers "Authorization" = "Bearer " ++ bearerToken r := by
  unfold bearerToken at h ⊢
  simp only at h ⊢
  split_ifs at h ⊢ with hpre
  · obtain ⟨t, ht⟩ := List.isPrefixOf_iff_prefix.mp hpre
    rw [← ht, drop_bearer, ← String.toList_inj, ← ht, String.toList_append]
    exact congrArg _ String.toList_ofList.symm
  · exact absurd rfl h

theorem bearerToken_of_header (h : header r.headers "Authorization" = "Bearer " ++ token) :
    bearerToken r = token := by
  have hpre : "Bearer ".toList.isPrefixOf ("Bearer ".toList ++ token.toList) = true :=
    List.isPrefixOf_iff_prefix.mpr (List.prefix_append _ _)
  rw [bearerToken, h, String.toList_append]
  show (if _ then _ else _ : String) = _
  rw [if_pos hpre, drop_bearer, String.ofList_toList]

theorem of_authenticate {m : VirtualKeyMiddleware} {r' : Request}
    (h : m.authenticate since r = .ok r') : bearerToken r ≠ "" ∧ r'.headers = r.headers := by
  by_cases htoken : bearerToken r = ""
  · unfold VirtualKeyMiddleware.authenticate at h
    rw [htoken] at h
    cases h
  · refine ⟨htoken, ?_⟩
    rw [authenticate_eq m since htoken] at h
    obtain ⟨key, -, hvalid⟩ := bind_eq_ok.mp h
    unfold validated at hvalid
    split at hvalid
    next => cases hvalid
    next => cases hvalid
    next =>
      obtain ⟨⟩ := hvalid
      rfl

theorem entityID_of_authenticated {m : VirtualKeyMiddleware} {k : VirtualKey}
    (h : Authenticated m since r k) (remoteAddr : String) :
    ∃ token, token ≠ "" ∧ entityID r remoteAddr = "Bearer " ++ token := by
  obtain ⟨r₀, r₁, hauth, -, hheaders, -⟩ := h
  obtain ⟨htoken, hsame⟩ := of_authenticate hauth
  have hheader := header_of_bearerToken htoken
  rw [← hsame, ← hheaders] at hheader
  refine ⟨_, htoken, ?_⟩
  rw [entityID, hheader, if_neg (by simp)]

def openStore (k : VirtualKey) : VirtualKeyMiddleware where
  sha256Hex := String.ofList
  cacheGet := fun _ => .ok none
  getByHash := fun _ _ => .ok k

def tokenRequest (token : String) (k : VirtualKey) : Request where
  headers := [("Authorization", "Bearer " ++ token)]
  body := .ok "\x7b\x7d"
  virtualKey := some k

theorem authenticated_tokenRequest (htoken : token ≠ "") {k : VirtualKey}
    (hk : k.isValid since = .ok ()) :
    Authenticated (openStore k) since (tokenRequest token k) k := by
  refine ⟨tokenRequest token k, tokenRequest token k, ?_, rfl, rfl, rfl⟩
  have hbearer : bearerToken (tokenRequest token k) = token := bearerToken_of_header rfl
  rw [authenticate_eq _ _ (by rwa [hbearer])]
  show validated since (tokenRequest token k) k = _
  rw [validated, hk]
  rfl

theorem applied_tokenRequest (enc : Encoding) (rest : Unmarshal) {tests : List Targeted} {now : Int}
    {e : Targeted} {v : String} (k : VirtualKey)
    (h : firstTargeted ("Bearer " ++ token) now tests = some (e, v)) :
    ∃ req, applied (enc.json rest) tests now "" (tokenRequest token k) = some (req, e, v) := by
  obtain ⟨req, hread⟩ : ∃ req, (enc.json rest).chatRequest "\x7b\x7d" = .ok req := ⟨_, rfl⟩
  have hheader : header (tokenRequest token k).headers "Authorization" = "Bearer " ++ token := rfl
  have hentity : entityID (tokenRequest token k) "" = "Bearer " ++ token := by
    rw [entityID, hheader, if_neg (by simp)]
  have hbody : (tokenRequest token k).body = .ok "\x7b\x7d" := rfl
  refine ⟨req, ?_⟩
  simp only [applied, hbody, hread, hentity, h, Option.map_some]

/-! ## The theorem -/

def teamlessKey : VirtualKey := { id := "k1" }

/-- **Teams are respected just if no experiment that names teams is ever applied**, that is, the
first to assign a variant. -/
theorem teams_respected_iff (enc : Encoding) (rest : Unmarshal) (tests : List Targeted) :
    TeamsRespected (enc.json rest) tests ↔ ∀ e, Exposed tests e → e.teamIDs = [] := by
  constructor
  · rintro hteams e ⟨token, now, v, htoken, hfirst⟩
    by_contra hnames
    have hauth : Authenticated (openStore teamlessKey) now (tokenRequest token teamlessKey)
      teamlessKey := authenticated_tokenRequest htoken rfl
    obtain ⟨req, happlied⟩ := applied_tokenRequest enc rest teamlessKey hfirst
    have hteam := hteams _ _ _ _ _ _ hauth req e v happlied hnames
    obtain ⟨t, -, ht⟩ := List.mem_map.mp hteam
    cases ht
  · intro hexposed m since now remoteAddr r k hauth req e v happlied hnames
    obtain ⟨token, htoken, hentity⟩ := entityID_of_authenticated hauth remoteAddr
    refine absurd (hexposed e ⟨token, now, v, htoken, ?_⟩) hnames
    unfold applied at happlied
    split at happlied
    next => cases happlied
    next =>
      split at happlied
      next => cases happlied
      next =>
        obtain ⟨ev, hfirst, hev⟩ := Option.map_eq_some_iff.mp happlied
        obtain ⟨-, rfl⟩ := Prod.mk.inj hev
        rwa [← hentity]

def teamTest : Targeted where
  id := "exp-1"
  status := .running
  trafficSplit := [⟨"treatment", 100⟩]
  sampleRate := 1
  startAt := none
  endAt := none
  winner := none
  teamIDs := ["team-a"]
  models := ["gpt-4o"]
  paired := rfl

theorem assign_teamTest (entityID : String) (now : Int) :
    assign teamTest.toExperiment entityID now = "treatment" := by
  have hactive : teamTest.isActive now = true := rfl
  have hrate : ¬ (teamTest.sampleRate < 1 ∧ teamTest.sampleRate ≤
      (fnv32a ("sample\x00" ++ teamTest.id ++ "\x00" ++ entityID)).toNat / 2 ^ 32) :=
    fun h => absurd h.1 (lt_irrefl 1)
  have hpick : ∀ bucket, pickVariant bucket 0 teamTest.trafficSplit = some "treatment" ∨
      pickVariant bucket 0 teamTest.trafficSplit = none := by
    intro bucket
    show ite _ _ _ = _ ∨ ite _ _ _ = _
    split
    · exact .inl rfl
    · exact .inr rfl
  rw [assign, hactive, if_neg (by decide), if_neg hrate]
  rcases hpick (fnv32a (teamTest.id ++ "\x00" ++ entityID) % 100) with h | h
  · simp only [h]
  · simp only [h]
    rfl

theorem other_team_is_rerouted :
    let k : VirtualKey := { id := "k1", teamID := some "team-b" }
    let r := tokenRequest "sk-1" k
    Authenticated (openStore k) 0 r k ∧ k.teamID ∉ teamTest.teamIDs.map some ∧
      ∃ req, applied (Encoding.noFloats.json Setup.twoBodies) [teamTest] 0 "" r =
          some (req, teamTest, "treatment") ∧
        (abTest (Encoding.noFloats.json Setup.twoBodies) [teamTest.stage 0] "" r).body =
          .ok ({ req with model := "gpt-4o" } : ChatCompletionRequest).marshal := by
  intro k r
  have hfirst : firstTargeted ("Bearer " ++ "sk-1") 0 [teamTest] =
      some (teamTest, "treatment") := by
    rw [firstTargeted, assign_teamTest]
    rfl
  obtain ⟨req, happlied⟩ := applied_tokenRequest .noFloats Setup.twoBodies k hfirst
  refine ⟨authenticated_tokenRequest (by decide) rfl, by decide, req, happlied, ?_⟩
  have hhandler := abTest_eq (Encoding.noFloats.json Setup.twoBodies) [teamTest] 0 "" r
  rw [happlied] at hhandler
  exact congrArg Request.body hhandler

end LlmRouter.Experiments
