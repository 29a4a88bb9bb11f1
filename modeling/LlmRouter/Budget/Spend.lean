import LlmRouter.Gateway.Forwarding
import LlmRouter.Budget.Hierarchy

/-!
# LlmRouter — the price of a request

`cost.Calculator`, and `middleware.BudgetCheck` around the chat handler. The log context names the
model of the request; after a fallback the handler corrects the provider in it, but not the model,
so what is recorded is the price of the model asked for. Prices are exact; every operation of
`Calculate` rounds, in a way that is a parameter.
-/

namespace LlmRouter.Budgets

open Gateway Auth

/-! ## The calculator (internal/cost) -/

/-- `cost.ModelPricing`; the provider is not read. -/
structure ModelPricing where
  inputPerMillionTokens : ℚ
  outputPerMillionTokens : ℚ
  deriving DecidableEq

/-- `cost.Calculator`, with what it takes from the Go runtime: `strings.ToLower`
and the rounding of `float64`. -/
structure Calculator where
  models : List (String × ModelPricing)
  toLower : String → String
  round : ℚ → ℚ

namespace Calculator

variable (c : Calculator)

/-- `lookup`: the name in lower case, then what stands after its first slash. -/
def lookup (model : String) : Option ModelPricing :=
  let model := c.toLower model
  match c.models.lookup model with
  | some p => some p
  | none =>
    match model.toList.dropWhile (· ≠ '/') with
    | [] => none
    | _ :: rest => c.models.lookup (String.ofList rest)

def amount (tokens : Int) (perMillion : ℚ) : ℚ :=
  c.round (c.round (c.round tokens / 1000000) * perMillion)

def cost (p : ModelPricing) (promptTokens completionTokens : Int) : ℚ :=
  c.round (c.amount promptTokens p.inputPerMillionTokens +
    c.amount completionTokens p.outputPerMillionTokens)

def calculate (model : String) (promptTokens completionTokens : Int) : ℚ :=
  match c.lookup model with
  | none => 0
  | some p => c.cost p promptTokens completionTokens

/-- The table prices two names alike for these counts: the same if it has both, nothing if it lacks
one only. -/
def PricedAlike (model model' : String) (promptTokens completionTokens : Int) : Prop :=
  match c.lookup model, c.lookup model' with
  | none, none => True
  | some p, none => c.cost p promptTokens completionTokens = 0
  | none, some p => c.cost p promptTokens completionTokens = 0
  | some p, some p' =>
    c.cost p promptTokens completionTokens = c.cost p' promptTokens completionTokens

theorem calculate_eq_iff (model model' : String) (promptTokens completionTokens : Int) :
    c.calculate model promptTokens completionTokens =
        c.calculate model' promptTokens completionTokens ↔
      c.PricedAlike model model' promptTokens completionTokens := by
  unfold calculate PricedAlike
  cases c.lookup model with
  | none =>
    cases c.lookup model' with
    | none => exact iff_of_true rfl trivial
    | some p => exact eq_comm
  | some p =>
    cases c.lookup model' with
    | none => exact Iff.rfl
    | some p' => exact Iff.rfl

end Calculator

/-! ## The middleware around a handler -/

/-- The calls of `RecordSpend` after a request that costs something: for the key, and for its team
and its org. -/
def spends (k : VirtualKey) (costUSD : ℚ) : List (Entity × ℚ) :=
  if costUSD = 0 then []
  else
    (keyEntity k, costUSD) ::
      ((k.teamID.map fun id => (⟨.team, id⟩, costUSD)).toList ++
        (k.orgID.map fun id => (⟨.org, id⟩, costUSD)).toList)

theorem spends_inj {k : VirtualKey} {costUSD costUSD' : ℚ} :
    spends k costUSD = spends k costUSD' ↔ costUSD = costUSD' := by
  refine ⟨fun h => ?_, congrArg _⟩
  unfold spends at h
  split_ifs at h with hcost hcost' hcost'
  · exact hcost.trans hcost'.symm
  · exact congrArg Prod.snd (List.cons.inj h).1

structure Checked where
  world : World
  session : Session
  reply : Except BudgetExceeded Reply
  spends : List (Entity × ℚ)

/-- `BudgetCheck`: the check, the next handler and the calls that record the
cost, which are done at `later`. -/
def BudgetCheck.serve (w : World) (calculator : Option Calculator) (key : Option VirtualKey)
    (now later : Int) (next : Session → Session × Reply) (s : Session) : Checked :=
  match key with
  | none =>
    let out := next s
    { world := w, session := out.1, reply := .ok out.2, spends := [] }
  | some k =>
    let checked := budgetCheck w key now
    match checked.2 with
    | some exceeded =>
      { world := checked.1, session := s, reply := .error exceeded, spends := [] }
    | none =>
      let out := next s
      match calculator with
      | none => { world := checked.1, session := out.1, reply := .ok out.2, spends := [] }
      | some calculator =>
        let costUSD :=
          calculator.calculate out.1.log.model out.1.log.promptTokens out.1.log.completionTokens
        { world := checked.1.recordRequest k costUSD later
          session := out.1
          reply := .ok out.2
          spends := spends k costUSD }

theorem BudgetCheck.serve_spends {w : World} {k : VirtualKey} {now : Int}
    (hadmitted : (budgetCheck w (some k) now).2 = none) (calculator : Calculator) (later : Int)
    (next : Session → Session × Reply) (s : Session) :
    (BudgetCheck.serve w (some calculator) (some k) now later next s).spends =
      spends k (calculator.calculate (next s).1.log.model (next s).1.log.promptTokens
        (next s).1.log.completionTokens) := by
  unfold BudgetCheck.serve
  dsimp only
  rw [hadmitted]

/-! ## The chat handler -/

theorem handle_log {h : ChatHandler} {env : Env} {r : Request} {s s' : Session} {body : String}
    {req : ChatCompletionRequest} {chain : Chain} {resp : ChatCompletionResponse} {t : Target}
    {u : Usage} (hplan : h.plan r = .ok (body, req, chain)) (hstream : req.stream = false)
    (hexec : h.fallbackRouter.execute env chain req body
      (s.setModel req.model chain.primary) = (s', .ok (resp, t)))
    (husage : resp.usage = some u) :
    (h.handle env r s).1.log.model = req.model ∧
      (h.handle env r s).1.log.promptTokens = u.promptTokens ∧
      (h.handle env r s).1.log.completionTokens = u.completionTokens := by
  have hlog : s'.log = (s.setModel req.model chain.primary).log := by
    rw [← h.fallbackRouter.execute_log env chain req body (s.setModel req.model chain.primary),
      hexec]
  have hused : (s'.noteUsed req.model chain.primary t.provider).log.model = req.model := by
    unfold Session.noteUsed
    split_ifs
    · rfl
    · rw [hlog]
      rfl
  have hhandle : (h.handle env r s).1 =
      ((s'.noteUsed req.model chain.primary t.provider).noteUsage (some u)).noteFinish
        (((resp.choices.getD []).head?).map Choice.finishReason) := by
    simp only [ChatHandler.handle, hplan, ChatHandler.forward, hstream, Bool.false_eq_true,
      if_false, hexec, husage]
  rw [hhandle]
  cases ((resp.choices.getD []).head?).map Choice.finishReason <;> exact ⟨hused, rfl, rfl⟩

/-- **Who is charged for what.** For a chat request answered by the target `t` with the token counts
`u`, the cost recorded is the price of `t`'s model iff the table prices it and the model of the
request alike. -/
theorem spends_served_iff {h : ChatHandler} {env : Env} {r : Request} {s s' : Session}
    {body : String} {req : ChatCompletionRequest} {chain : Chain} {resp : ChatCompletionResponse}
    {t : Target} {u : Usage} {w : World} {k : VirtualKey} {now : Int}
    (hplan : h.plan r = .ok (body, req, chain)) (hstream : req.stream = false)
    (hexec : h.fallbackRouter.execute env chain req body
      (s.setModel req.model chain.primary) = (s', .ok (resp, t)))
    (husage : resp.usage = some u) (hadmitted : (budgetCheck w (some k) now).2 = none)
    (calculator : Calculator) (later : Int) :
    (BudgetCheck.serve w (some calculator) (some k) now later (h.handle env r) s).spends =
        spends k (calculator.calculate t.model u.promptTokens u.completionTokens) ↔
      calculator.PricedAlike req.model t.model u.promptTokens u.completionTokens := by
  obtain ⟨hmodel, hprompt, hcompletion⟩ := handle_log hplan hstream hexec husage
  rw [BudgetCheck.serve_spends hadmitted, hmodel, hprompt, hcompletion, spends_inj,
    calculator.calculate_eq_iff]

def askBody (model : String) : String :=
  encode (.obj [("model", .str model),
    ("messages", .arr [Message.toJson { role := "user", content := "hi" }])])

def chatGateway (model : String) : ChatHandler where
  json := { Setup.twoBodies with
    chatRequest := fun body =>
      if body = askBody model
      then .ok { model := model, messages := some [{ role := "user", content := "hi" }] }
      else .error "unexpected end of JSON input" }
  fallbackRouter := { registry := Gateway.Registry.empty.register { name := "openai" } }
  chains := [{
    name := "default"
    targets := [⟨"openai", "gpt-4o", 100⟩, ⟨"anthropic", "claude-sonnet-4-20250514", 100⟩,
      ⟨"gemini", "gemini-2.0-flash", 100⟩] }]

def millionTokens : ChatCompletionResponse where
  id := "1"
  object := "chat.completion"
  created := 0
  model := "gpt-4o"
  choices := none
  usage := some ⟨1000000, 1000000, 2000000⟩

def millionEnv : Env where
  chatCompletion := fun _ => .ok millionTokens
  chatCompletionStream := fun _ => .error (.other "not asked")
  embed := fun _ => .error (.other "not asked")
  ctxDone := fun _ _ => none
  cachedEmbedding := fun _ => .ok none
  jitter := fun _ => 0
  clock := fun _ => 0
  others := fun _ cb => cb

/-- Two prices of `config/models.yaml`, computed exactly. -/
def priceTable : Calculator where
  models := [("gpt-4o", ⟨5 / 2, 10⟩), ("gpt-4o-mini", ⟨3 / 20, 3 / 5⟩)]
  toLower := fun s => String.ofList (s.toList.map Char.toLower)
  round := id

def newRequest : Session := { cb := Circuit.new Circuit.defaultConfig }

theorem spends_served_prefixed :
    (BudgetCheck.serve noBudgets (some priceTable) (some { id := "k" }) 0 0
        ((chatGateway "openai/gpt-4o").handle millionEnv { body := .ok (askBody "openai/gpt-4o") })
        newRequest).spends =
      spends { id := "k" } (priceTable.calculate "gpt-4o" 1000000 1000000) :=
  (spends_served_iff (h := chatGateway "openai/gpt-4o") (t := ⟨"openai", "gpt-4o", 0⟩)
    (u := ⟨1000000, 1000000, 2000000⟩) rfl rfl rfl rfl rfl priceTable 0).mpr
    (show priceTable.PricedAlike "openai/gpt-4o" "gpt-4o" 1000000 1000000 from rfl)

theorem named_chain_is_free :
    (∃ req, ((chatGateway "default").handle millionEnv { body := .ok (askBody "default") }
        newRequest).1.calls = [.chatCompletion "openai" "gpt-4o" req (askBody "default")]) ∧
      (BudgetCheck.serve noBudgets (some priceTable) (some { id := "k" }) 0 0
        ((chatGateway "default").handle millionEnv { body := .ok (askBody "default") })
        newRequest).spends = [] ∧
      spends { id := "k" } (priceTable.calculate "gpt-4o" 1000000 1000000) =
        [(⟨.key, "k"⟩, 25 / 2)] := by
  refine ⟨⟨_, rfl⟩, rfl, ?_⟩
  decide +kernel

end LlmRouter.Budgets
