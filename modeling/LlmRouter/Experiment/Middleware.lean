import LlmRouter.Lib.Pool
import Mathlib.Data.Rat.Defs

/-!
# LlmRouter — experiments: table, assignment, requests

`abtest.Assign`, `postgres.ABTestStore`, the admin requests that change a status, and
`ABTestMiddleware` with the goroutine that records each result and may stop the experiment:
threads over the tables and the middleware's list, one statement at a time, any of which may fail.
An error rate is compared as an exact fraction.
-/

namespace LlmRouter.Experiments

open Lib

/-! ## Data -/

inductive Status where
  | draft
  | running
  | paused
  | completed
  | stopped
  deriving DecidableEq, Repr

/-- `abtest.TrafficSplit`, without the model of the variant. -/
structure TrafficSplit where
  variant : String
  weight : Int
  deriving DecidableEq, Repr

/-- `abtest.Experiment`. Times are nanoseconds since the epoch. -/
structure Experiment where
  id : String
  status : Status
  trafficSplit : List TrafficSplit
  sampleRate : ℚ
  startAt : Option Int
  endAt : Option Int
  winner : Option String
  deriving DecidableEq

structure Result where
  testID : String
  variant : String
  requestID : String
  error : Bool
  deriving DecidableEq, Repr

/-! ## Assignment (internal/abtest) -/

def Experiment.isActive (e : Experiment) (now : Int) : Bool :=
  e.status == .running && e.startAt.all (fun start => decide (start ≤ now)) &&
    e.endAt.all fun stop => decide (now ≤ stop)

/-- `fnv.New32a`, fed with the bytes of a text. -/
def fnv32a (s : String) : UInt32 :=
  s.toUTF8.toList.foldl (fun h b => (h ^^^ b.toUInt32) * 16777619) 2166136261

def pickVariant (bucket : UInt32) : UInt32 → List TrafficSplit → Option String
  | _, [] => none
  | cumulative, split :: rest =>
    let cumulative := cumulative + UInt32.ofNat (split.weight % 2 ^ 32).toNat
    if bucket < cumulative then some split.variant else pickVariant bucket cumulative rest

/-- `abtest.Assign`; the empty text says that the entity does not take part. -/
def assign (e : Experiment) (entityID : String) (now : Int) : String :=
  if !e.isActive now then ""
  else if e.sampleRate < 1 ∧
      e.sampleRate ≤ (fnv32a ("sample\x00" ++ e.id ++ "\x00" ++ entityID)).toNat / 2 ^ 32 then ""
  else
    let bucket := fnv32a (e.id ++ "\x00" ++ entityID) % 100
    match pickVariant bucket 0 e.trafficSplit with
    | some variant => variant
    | none => (e.trafficSplit.head?.map TrafficSplit.variant).getD ""

def firstMatch (entityID : String) (now : Int) : List Experiment → Option (Experiment × String)
  | [] => none
  | e :: rest =>
    let v := assign e entityID now
    if v = "" then firstMatch entityID now rest else some (e, v)

/-! ## The store (internal/store/postgres) -/

/-- What a `VARCHAR(n)` column stores: a longer text is cut if only blanks are lost, else rejected. -/
def varchar (n : Nat) (s : String) : Option String :=
  if s.length ≤ n then some s
  else if (s.toList.drop n).all (· == ' ') then some (String.ofList (s.toList.take n))
  else none

/-- `NULLIF(winner, '')` in a `VARCHAR(50)`. -/
def storedWinner (winner : String) : Option (Option String) :=
  if winner = "" then some none else (varchar 50 winner).map some

/-- The `UPDATE` of `ABTestStore.UpdateStatus`, on one row. -/
def Experiment.updated (id : String) (status : Status) (winner : Option String)
    (e : Experiment) : Experiment :=
  if e.id = id then { e with status, winner } else e

def updateStatus (table : List Experiment) (id : String) (status : Status) (winner : String) :
    Option (List Experiment) :=
  (storedWinner winner).map fun w => table.map (Experiment.updated id status w)

/-- `ABTestStore.InsertResult`: a request counts once. -/
def insertResult (results : List Result) (r : Result) : List Result :=
  if results.any (fun r' => r'.testID == r.testID && r'.requestID == r.requestID) then results
  else results ++ [r]

/-- The number of results of a variant and how many are errors (`GetVariantStats`). -/
def variantStats (results : List Result) (testID variant : String) : Nat × Nat :=
  let rs := results.filter fun r => r.testID == testID && r.variant == variant
  (rs.length, (rs.filter Result.error).length)

/-- The test of `checkAutoStop`: 100 samples and more than 20% errors. -/
def exceedsErrorRate (stats : Nat × Nat) : Bool :=
  decide (100 ≤ stats.1 ∧ stats.1 < 5 * stats.2)

/-! ## Requests and goroutines as threads -/

inductive Action where
  | start
  | pause
  | stop
  | promote (winner : String)
  deriving DecidableEq, Repr

def Action.target : Action → Status × String
  | .start => (.running, "")
  | .pause => (.paused, "")
  | .stop => (.stopped, "")
  | .promote winner => (.completed, winner)

inductive Call where
  | admin (a : Action) (id : String)
  | chat (entityID : String)
  deriving DecidableEq, Repr

inductive Point where
  | admin (a : Action) (id : String)
  | list (response : Option Nat)
  | install (active : List Experiment) (response : Option Nat)
  | chat (entityID : String)
  | serving (e : Experiment) (variant : String)
  | insert (e : Experiment) (r : Result)
  | check (e : Experiment) (variant : String)
  | autoStop (e : Experiment)
  | done (response : Option Nat)

/-- The tables and the middleware's list, with the winner of the last promotion of each experiment. -/
structure Shared where
  table : List Experiment
  results : List Result
  tests : List Experiment
  promoted : String → Option String

/-- What an operation needs from outside: whether it fails, the time, and how a
chat request went. -/
structure Input where
  fault : Bool
  now : Int
  requestID : String
  error : Bool
  deriving DecidableEq, Repr

def Shared.noted (s : Shared) (id : String) : Action → String → Option String
  | .promote winner => Function.update s.promoted id ((storedWinner winner).bind fun w => w)
  | _ => s.promoted

def Shared.update (s : Shared) (fault : Bool) (a : Action) (id : String) : Option Shared :=
  if fault then none
  else (updateStatus s.table id a.target.1 a.target.2).map fun table =>
    { s with table, promoted := s.noted id a }

def next (s : Shared) (x : Input) : Point → Option (Shared × Point)
  | .admin a id =>
    -- `Promote` without a winner is a bad request
    if a = .promote "" then some (s, .done (some 400))
    else match s.update x.fault a id with
      | none => some (s, .done (some 500))
      | some s' => some (s', .list (some 200))
  | .list response =>
    if x.fault then some (s, .done response)
    else some (s, .install (s.table.filter fun e => e.status == .running) response)
  | .install active response => some ({ s with tests := active }, .done response)
  | .chat entityID =>
    match firstMatch entityID x.now s.tests with
    | none => some (s, .done none)
    | some (e, variant) => some (s, .serving e variant)
  | .serving e variant => some (s, .insert e ⟨e.id, variant, x.requestID, x.error⟩)
  | .insert e r =>
    -- a failed insertion is logged, and the check follows all the same
    some (if x.fault then s else { s with results := insertResult s.results r },
      .check e r.variant)
  | .check e variant =>
    if !x.fault && exceedsErrorRate (variantStats s.results e.id variant) then
      some (s, .autoStop e)
    else some (s, .done none)
  | .autoStop e => some ((s.update x.fault .stop e.id).getD s, .list none)
  | .done _ => none

def Call.start : Call → Point
  | .admin a id => .admin a id
  | .chat entityID => .chat entityID

def experimentCode : Code Shared Call Point Input where
  start := Call.start
  next := next

/-! ## What an operation does to an experiment -/

def Shared.row (s : Shared) (id : String) : Option Experiment :=
  s.table.find? fun e => e.id == id

/-- The status change that a thread is about to write; an automatic stop writes
what a `Stop` request writes. -/
def Point.action : Point → Option (Action × String)
  | .admin a id => some (a, id)
  | .autoStop e => some (.stop, e.id)
  | _ => none

/-- What an action writes: nothing if the winner is missing or too long. -/
def Action.written (a : Action) : Option (Option String) :=
  if a = .promote "" then none else storedWinner a.target.2

def Shared.wrote (s : Shared) (a : Action) (id : String) (winner : Option String) : Shared :=
  { s with
    table := s.table.map (Experiment.updated id a.target.1 winner)
    promoted := s.noted id a }

variable {s : Shared}

theorem update_cases {a : Action} (h : a ≠ .promote "") (fault : Bool) (id : String) :
    (∃ w, fault = false ∧ a.written = some w ∧ s.update fault a id = some (s.wrote a id w)) ∨
      (fault = true ∨ a.written = none) ∧ s.update fault a id = none := by
  have hupdate : s.update false a id = a.written.map (s.wrote a id) := by
    simp only [Shared.update, updateStatus, Action.written, if_neg h, Bool.false_eq_true, if_false,
      Option.map_map]
    rfl
  cases fault with
  | true => exact .inr ⟨.inl rfl, rfl⟩
  | false =>
    rw [hupdate]
    cases a.written with
    | none => exact .inr ⟨.inr rfl, rfl⟩
    | some w => exact .inl ⟨w, rfl, rfl, rfl⟩

/-- An operation writes its thread's action, or changes neither experiments nor promotions. -/
theorem next_cases {s' : Shared} {x : Input} {t t' : Point} (h : next s x t = some (s', t')) :
    (∃ a id w, t.action = some (a, id) ∧ x.fault = false ∧ a.written = some w ∧
      s' = s.wrote a id w) ∨
    ((∀ a id, t.action = some (a, id) → x.fault = true ∨ a.written = none) ∧
      s'.table = s.table ∧ s'.promoted = s.promoted) := by
  revert h
  fun_cases next s x t with
  | case1 =>
    rintro ⟨⟩
    refine .inr ⟨?_, rfl, rfl⟩
    rintro _ _ ⟨⟩
    exact .inr rfl
  | case2 a id hbad hupdate =>
    rintro ⟨⟩
    rcases update_cases hbad x.fault id with ⟨w, -, -, hw⟩ | ⟨hno, -⟩
    · cases hupdate.symm.trans hw
    · refine .inr ⟨?_, rfl, rfl⟩
      rintro _ _ ⟨⟩
      exact hno
  | case3 a id hbad s' hupdate =>
    rintro ⟨⟩
    rcases update_cases hbad x.fault id with ⟨w, hfault, hw, heq⟩ | ⟨-, hnone⟩
    · exact .inl ⟨a, id, w, rfl, hfault, hw, Option.some.inj (hupdate.symm.trans heq)⟩
    · cases hupdate.symm.trans hnone
  | case10 =>
    rintro ⟨⟩
    refine .inr ⟨nofun, ?_, ?_⟩ <;> split <;> rfl
  | case13 e =>
    rintro ⟨⟩
    have hstop : Action.stop ≠ .promote "" := by decide
    rcases update_cases hstop x.fault e.id with ⟨w, hfault, hw, heq⟩ | ⟨hno, hnone⟩
    · exact .inl ⟨.stop, e.id, w, rfl, hfault, hw, by rw [heq]; rfl⟩
    · rw [hnone]
      refine .inr ⟨?_, rfl, rfl⟩
      rintro _ _ ⟨⟩
      exact hno
  | case14 => rintro ⟨⟩
  | _ =>
    rintro ⟨⟩
    exact .inr ⟨nofun, rfl, rfl⟩

theorem next_ne_none {t : Point} {r : Action × String} (h : t.action = some r) (s : Shared)
    (x : Input) : next s x t ≠ none := by
  cases t with
  | admin a id =>
    simp only [next]
    split
    · nofun
    · split <;> nofun
  | autoStop e => nofun
  | _ => cases h

theorem row_wrote (s : Shared) (a : Action) (id : String) (w : Option String) (x : String) :
    (s.wrote a id w).row x = (s.row x).map (Experiment.updated id a.target.1 w) := by
  have hid : ∀ e : Experiment, (e.updated id a.target.1 w).id = e.id := by
    intro e
    unfold Experiment.updated
    split <;> rfl
  have hsame : (fun e : Experiment => e.id == x) ∘ Experiment.updated id a.target.1 w =
      fun e => e.id == x := funext fun e => by rw [Function.comp_apply, hid]
  rw [Shared.row, Shared.wrote, List.find?_map, hsame]
  rfl

theorem row_id {id : String} {e : Experiment} (h : s.row id = some e) : e.id = id := by
  simpa using List.find?_some h

end LlmRouter.Experiments
