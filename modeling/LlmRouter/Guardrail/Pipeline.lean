import Mathlib.Data.List.Basic

/-!
# LlmRouter — guardrail pipelines

A pipeline asks its guards one after the other about a text. A guard that triggers blocks it,
replaces it or is only logged. What a guard answers is any function of the text and of how many
checks the request has made before, which covers a judge over the network.
-/

namespace LlmRouter.Guardrail

inductive Direction where
  | input
  | output
  deriving DecidableEq, Repr

/-- `guardrail.Action`; a policy may hold any other text. -/
inductive Action where
  | block
  | mask
  | logOnly
  | other (text : String)
  deriving DecidableEq, Repr

structure Result where
  triggered : Bool := false
  action : Action := .other ""
  modified : String := ""
  category : String := ""
  guardrail : String := ""
  deriving DecidableEq, Repr

structure BlockError where
  guardrail : String
  category : String
  message : String
  deriving DecidableEq, Repr

/-- `guardrail.Guardrail`: its answer to the `n`-th check of a request, or an
error. -/
structure Guard where
  name : String
  check : (n : Nat) → (text : String) → Direction → Except String Result

structure Pipeline where
  input : List Guard := []
  output : List Guard := []

/-- `Pipeline.run`: the text that is left, and whether it was blocked. A guard
that fails is skipped. -/
def run (n : Nat) (dir : Direction) : (current : String) → List Guard → String × Option BlockError
  | current, [] => (current, none)
  | current, g :: guards =>
    match g.check n current dir with
    | .error _ => run n dir current guards
    | .ok result =>
      if result.triggered then
        match result.action with
        | .block =>
          (current, some { guardrail := result.guardrail, category := result.category,
                           message := "Request blocked by content policy: " ++ result.category
                             ++ " detected." })
        | .mask => run n dir result.modified guards
        | _ => run n dir current guards
      else run n dir current guards

namespace Pipeline

variable (p : Pipeline)

def checkInput (n : Nat) (text : String) : String × Option BlockError := run n .input text p.input

def checkOutput (n : Nat) (text : String) : String × Option BlockError :=
  run n .output text p.output

end Pipeline

end LlmRouter.Guardrail
