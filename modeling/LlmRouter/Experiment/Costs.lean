import LlmRouter.Budget.Spend
import LlmRouter.Experiment.Middleware

/-!
# LlmRouter — the cost in the result of an experiment

`ABTestMiddleware` starts `recordResult` and returns. The goroutine copies `CostUSD` from the log
context, which `BudgetCheck`, in front of the middleware, sets only when the middleware has
returned. A request is a thread with two program counters, and either may move next.
-/

namespace LlmRouter.Experiments

open Auth Budgets Gateway Lib

/-! ## The model -/

/-- A chat request that an experiment is applied to: the model it was given, its key and its log
context. -/
structure Observed where
  testID : String
  variant : String
  requestID : String
  model : String
  key : Option VirtualKey
  log : Option RequestLogContext
  deriving DecidableEq

structure CostResult extends Result where
  model : String
  promptTokens : Int
  completionTokens : Int
  costUSD : ℚ
  finishReason : String
  deriving DecidableEq

inductive ChainPoint where
  | handling
  | returned
  | priced (k : VirtualKey) (costUSD : ℚ)
  | charged (k : VirtualKey) (costUSD : ℚ)
  | done (costUSD : ℚ)
  deriving DecidableEq

inductive RecorderPoint where
  | waiting
  | reading
  | inserting (r : CostResult)
  | done (r : CostResult)
  deriving DecidableEq

/-- A request; `costUSD` is the field of its log context. -/
structure Flight where
  req : Observed
  costUSD : ℚ := 0
  chain : ChainPoint := .handling
  recorder : RecorderPoint := .waiting
  deriving DecidableEq

inductive Turn where
  | chain
  | recorder
  deriving DecidableEq, Repr

structure CostTables where
  results : List CostResult := []
  spends : List (Entity × ℚ) := []
  deriving DecidableEq

variable (calculator : Option Calculator)

/-- The cost that `BudgetCheck` records for a request: none without a key, a log context or a
calculator. -/
def budgetCost (req : Observed) : ℚ :=
  match req.key, req.log, calculator with
  | some _, some lc, some calculator =>
    calculator.calculate lc.model lc.promptTokens lc.completionTokens
  | _, _, _ => 0

theorem budgetCost_of_no_key {calculator : Option Calculator} {req : Observed}
    (h : req.key = none) : budgetCost calculator req = 0 := by
  unfold budgetCost
  rw [h]

def Flight.result (f : Flight) : CostResult where
  testID := f.req.testID
  variant := f.req.variant
  requestID := f.req.requestID
  model := f.req.model
  error := f.req.log.any fun lc => lc.errorCode != ""
  promptTokens := f.req.log.elim 0 RequestLogContext.promptTokens
  completionTokens := f.req.log.elim 0 RequestLogContext.completionTokens
  costUSD := if f.req.log.isSome then f.costUSD else 0
  finishReason := f.req.log.elim "" RequestLogContext.finishReason

/-- `ABTestStore.InsertResult`: a request counts once. -/
def insertCostResult (results : List CostResult) (r : CostResult) : List CostResult :=
  if results.any (fun r' => r'.testID == r.testID && r'.requestID == r.requestID) then results
  else results ++ [r]

def Flight.nextChain (s : CostTables) (f : Flight) : Option (CostTables × Flight) :=
  match f.chain with
  | .handling => some (s, { f with chain := .returned, recorder := .reading })
  | .returned =>
    match f.req.key with
    | none => some (s, { f with chain := .done 0 })
    | some k =>
      let costUSD := budgetCost calculator f.req
      some (s, { f with chain := if costUSD = 0 then .done 0 else .priced k costUSD })
  | .priced k costUSD => some (s, { f with costUSD := costUSD, chain := .charged k costUSD })
  | .charged k costUSD =>
    some ({ s with spends := s.spends ++ spends k costUSD }, { f with chain := .done costUSD })
  | .done _ => none

def Flight.nextRecorder (s : CostTables) (f : Flight) : Option (CostTables × Flight) :=
  match f.recorder with
  | .waiting => none
  | .reading => some (s, { f with recorder := .inserting f.result })
  | .inserting r =>
    some ({ s with results := insertCostResult s.results r }, { f with recorder := .done r })
  | .done _ => none

/-- Requests under `BudgetCheck` and `ABTestMiddleware`. -/
def costCode : Code CostTables Observed Flight Turn where
  start req := { req }
  next s
    | .chain, f => f.nextChain calculator s
    | .recorder, f => f.nextRecorder s

def Flight.Agrees (f : Flight) : Prop :=
  ∀ r costUSD, f.recorder = .done r → f.chain = .done costUSD → r.costUSD = costUSD

/-! ## What is read -/

def Either (req : Observed) (costUSD : ℚ) : Prop :=
  costUSD = 0 ∨ costUSD = budgetCost calculator req

structure Flight.Inv (calculator : Option Calculator) (f : Flight) : Prop where
  noted : Either calculator f.req f.costUSD
  priced : ∀ k costUSD, f.chain = .priced k costUSD ∨ f.chain = .charged k costUSD →
    costUSD = budgetCost calculator f.req
  done : ∀ costUSD, f.chain = .done costUSD → costUSD = budgetCost calculator f.req
  read : ∀ r, f.recorder = .inserting r ∨ f.recorder = .done r → Either calculator f.req r.costUSD

section Step

variable {calculator : Option Calculator} {s s' : CostTables} {f f' : Flight}

theorem inv_start (req : Observed) : ((costCode calculator).start req).Inv calculator where
  noted := .inl rfl
  priced := by rintro k costUSD (h | h) <;> cases h
  done := by rintro costUSD ⟨⟩
  read := by rintro r (h | h) <;> cases h

theorem inv_nextChain (hf : f.Inv calculator) (h : f.nextChain calculator s = some (s', f')) :
    f'.Inv calculator := by
  unfold Flight.nextChain at h
  split at h
  next hpoint =>
    obtain ⟨⟩ := h
    refine ⟨hf.noted, ?_, ?_, ?_⟩
    · rintro k costUSD (h | h) <;> cases h
    · rintro costUSD ⟨⟩
    · rintro r (h | h) <;> cases h
  next hpoint =>
    split at h
    next hkey =>
      obtain ⟨⟩ := h
      refine ⟨hf.noted, ?_, ?_, hf.read⟩
      · rintro k costUSD (h | h) <;> cases h
      · rintro costUSD ⟨⟩
        exact (budgetCost_of_no_key hkey).symm
    next k hkey =>
      obtain ⟨⟩ := h
      refine ⟨hf.noted, ?_, ?_, hf.read⟩
      · intro k' costUSD hpriced
        simp only at hpriced
        split_ifs at hpriced <;> simp at hpriced
        exact hpriced.2.symm
      · intro costUSD hdone
        simp only at hdone
        split_ifs at hdone with hzero
        obtain ⟨⟩ := hdone
        exact hzero.symm
  next k costUSD hpoint =>
    obtain ⟨⟩ := h
    have hcost := hf.priced k costUSD (.inl hpoint)
    refine ⟨.inr hcost, ?_, ?_, hf.read⟩
    · rintro k' costUSD' (h | h)
      · cases h
      · obtain ⟨-, rfl⟩ := ChainPoint.charged.inj h
        exact hcost
    · rintro costUSD' ⟨⟩
  next k costUSD hpoint =>
    obtain ⟨⟩ := h
    refine ⟨hf.noted, ?_, ?_, hf.read⟩
    · rintro k' costUSD' (h | h) <;> cases h
    · rintro costUSD' ⟨⟩
      exact hf.priced k costUSD (.inr hpoint)
  next => cases h

theorem inv_nextRecorder (hf : f.Inv calculator) (h : f.nextRecorder s = some (s', f')) :
    f'.Inv calculator := by
  unfold Flight.nextRecorder at h
  split at h
  next => cases h
  next =>
    obtain ⟨⟩ := h
    refine ⟨hf.noted, hf.priced, hf.done, ?_⟩
    rintro r (h | h)
    · obtain rfl := RecorderPoint.inserting.inj h
      show Either calculator f.req (if f.req.log.isSome then f.costUSD else 0)
      split_ifs
      · exact hf.noted
      · exact .inl rfl
    · cases h
  next r hpoint =>
    obtain ⟨⟩ := h
    refine ⟨hf.noted, hf.priced, hf.done, ?_⟩
    rintro r' (h | h)
    · cases h
    · obtain rfl := RecorderPoint.done.inj h
      exact hf.read r (.inl hpoint)
  next => cases h

end Step

/-! ## The race -/

theorem costOutline (calculator : Option Calculator) :
    Outline (costCode calculator) (fun _ _ _ => True) 0 (fun _ => True)
      fun _ _ f => f.Inv calculator where
  start _ _ req _ _ := inv_start req
  inv _ _ _ _ _ _ _ _ _ _ := trivial
  self _ _ turn _ _ _ _ hf _ h := by
    cases turn with
    | chain => exact inv_nextChain hf h
    | recorder => exact inv_nextRecorder hf h
  frame _ _ _ _ _ _ _ _ _ _ _ _ hu := hu

/-- The goroutine overtakes the chain: it reads and inserts before `BudgetCheck` prices. -/
def overtaking : List Turn := [.chain, .recorder, .recorder, .chain, .chain, .chain]

def Flight.overtaken (calculator : Option Calculator) (req : Observed) : Flight where
  req := req
  costUSD := budgetCost calculator req
  chain := .done (budgetCost calculator req)
  recorder := .done (Flight.result { req })

theorem run_overtaking {calculator : Option Calculator} {req : Observed} {k : VirtualKey}
    (hkey : req.key = some k) (hcost : budgetCost calculator req ≠ 0) :
    runFrom (Pool.step (costCode calculator)) (Pool.init {})
      (.start req :: overtaking.map (.advance 0)) =
        some ⟨⟨[Flight.result { req }], spends k (budgetCost calculator req)⟩,
          [.overtaken calculator req]⟩ := by
  simp [overtaking, runFrom, Pool.step, Pool.init, costCode, Flight.nextChain, hkey, hcost,
    Flight.nextRecorder, Flight.overtaken, insertCostResult, Flight.result]

theorem result_costUSD (req : Observed) : (Flight.result { req }).costUSD = 0 := by
  show (if req.log.isSome then (0 : ℚ) else 0) = 0
  rw [ite_self]

/-- **The result of a request has the cost that is recorded for it, in every run, just if there is
none.** -/
theorem result_cost_iff (calculator : Option Calculator) (req : Observed) :
    (∀ s ms p, runFrom (Pool.step (costCode calculator)) (Pool.init s) ms = some p →
        ∀ f ∈ p.threads, f.req = req → f.Agrees) ↔
      budgetCost calculator req = 0 := by
  constructor
  · intro hagree
    by_contra hcost
    cases hkey : req.key with
    | none => exact hcost (budgetCost_of_no_key hkey)
    | some k =>
      have hrun := run_overtaking hkey hcost
      have h := hagree _ _ _ hrun _ (List.mem_singleton.mpr rfl) rfl _ _ rfl rfl
      exact hcost (h.symm.trans (result_costUSD req))
  · rintro hzero s ms p hrun f hf rfl r costUSD hrecorder hchain
    obtain ⟨i, hi⟩ := List.mem_iff_getElem?.mp hf
    have hinv :=
      ((costOutline calculator).run_init trivial (Pool.along_true _ _ _) hrun).thread i f hi
    rw [hinv.done costUSD hchain, hzero]
    rcases hinv.read r (.inr hrecorder) with h | h
    · exact h
    · rw [h, hzero]

def oneModel : Calculator where
  models := [("gpt-4o", ⟨5 / 2, 10⟩)]
  toLower := id
  round := id

def pricedRequest : Observed where
  testID := "exp-1"
  variant := "treatment"
  requestID := "r1"
  model := "gpt-4o"
  key := some { id := "k1" }
  log := some { model := "gpt-4o", promptTokens := 1000, completionTokens := 500 }

def freeResult : CostResult where
  testID := "exp-1"
  variant := "treatment"
  requestID := "r1"
  model := "gpt-4o"
  error := false
  promptTokens := 1000
  completionTokens := 500
  costUSD := 0
  finishReason := ""

theorem charged_request_is_free :
    runFrom (Pool.step (costCode (some oneModel))) (Pool.init {})
        (.start pricedRequest :: overtaking.map (.advance 0)) =
      some ⟨⟨[freeResult], [(⟨.key, "k1"⟩, 3 / 400)]⟩,
        [.overtaken (some oneModel) pricedRequest]⟩ := by
  have hcost : budgetCost (some oneModel) pricedRequest = 3 / 400 := by decide +kernel
  have hne : (3 / 400 : ℚ) ≠ 0 := by decide +kernel
  rw [run_overtaking (k := { id := "k1" }) rfl (hcost ▸ hne), hcost, spends, if_neg hne]
  rfl

end LlmRouter.Experiments
