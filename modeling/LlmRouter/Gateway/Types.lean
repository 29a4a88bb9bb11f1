import LlmRouter.Lib.JsonScan

/-!
# LlmRouter — wire types

The OpenAI-compatible request and error types, the response a handler writes, and
`auth.VirtualKey` with the fields that the request path reads. Pointers and slices that may be nil
are `Option`s where the encoding shows the difference; a `float64` is its shortest decimal, a raw
JSON message its text, a UUID its canonical text.
-/

namespace LlmRouter.Gateway

open Lib

abbrev RawMessage := String

structure Message where
  role : String
  content : String
  deriving DecidableEq, Repr

structure StreamOptions where
  includeUsage : Bool
  deriving DecidableEq, Repr

structure ChatCompletionRequest where
  model : String
  messages : Option (List Message)
  temperature : Option Decimal := none
  maxTokens : Option Int := none
  topP : Option Decimal := none
  n : Option Int := none
  stream : Bool := false
  streamOptions : Option StreamOptions := none
  stop : Option RawMessage := none
  presencePenalty : Option Decimal := none
  frequencyPenalty : Option Decimal := none
  user : String := ""
  tools : List RawMessage := []
  metadata : List (String × String) := []
  promptSlug : String := ""
  promptVariables : List (String × String) := []
  deriving DecidableEq, Repr

structure CompletionRequest where
  model : String
  prompt : RawMessage
  maxTokens : Option Int := none
  temperature : Option Decimal := none
  stream : Bool := false
  user : String := ""
  deriving DecidableEq, Repr

structure EmbeddingRequest where
  model : String
  input : RawMessage
  encodingFormat : String := ""
  user : String := ""
  deriving DecidableEq, Repr

structure Usage where
  promptTokens : Int := 0
  completionTokens : Int := 0
  totalTokens : Int := 0
  deriving DecidableEq, Repr

structure Choice where
  index : Int
  message : Message
  finishReason : String
  deriving DecidableEq, Repr

structure ChatCompletionResponse where
  id : String
  object : String
  created : Int
  model : String
  choices : Option (List Choice)
  usage : Option Usage := none
  deriving DecidableEq, Repr

structure CompletionChoice where
  index : Int
  text : String
  finishReason : String
  deriving DecidableEq, Repr

structure CompletionResponse where
  id : String
  object : String
  created : Int
  model : String
  choices : Option (List CompletionChoice)
  usage : Option Usage := none
  deriving DecidableEq, Repr

structure Embedding where
  object : String
  embedding : Option (List Decimal)
  index : Int
  deriving DecidableEq, Repr

structure EmbeddingResponse where
  object : String
  data : Option (List Embedding)
  model : String
  usage : Option Usage := none
  deriving DecidableEq, Repr

structure ParsedModel where
  provider : String
  model : String
  deriving DecidableEq, Repr

structure ErrorDetail where
  message : String
  type : String
  code : String := ""
  deriving DecidableEq, Repr

structure Response where
  status : Nat
  headers : List (String × String)
  body : String
  deriving DecidableEq, Repr

def omitEmpty (name : String) (empty : Bool) (value : Json) : List (String × Json) :=
  if empty then [] else [(name, value)]

theorem lookup_omitEmpty (key name : String) (empty : Bool) (value : Json) :
    (omitEmpty name empty value).lookup key =
      if key = name ∧ empty = false then some value else none := by
  by_cases h : key = name
  · cases empty <;> simp [omitEmpty, h]
  · cases empty <;> simp [omitEmpty, List.lookup_cons, h, beq_eq_false_iff_ne.mpr h]

def Message.toJson (m : Message) : Json :=
  .obj [("role", .str m.role), ("content", .str m.content)]

def ErrorDetail.toJson (e : ErrorDetail) : Json :=
  .obj [("error", .obj ([("message", .str e.message), ("type", .str e.type)] ++
    omitEmpty "code" (e.code == "") (.str e.code)))]

def sliceJson {α : Type} (toJson : α → Json) : Option (List α) → Json
  | none => .null
  | some vs => .arr (vs.map toJson)

theorem sliceJson_injective {α : Type} {toJson : α → Json} (h : Function.Injective toJson) :
    Function.Injective (sliceJson toJson) := by
  intro a b hab
  cases a with
  | none => cases b <;> simp_all [sliceJson]
  | some a =>
    cases b with
    | none => simp [sliceJson] at hab
    | some b =>
      simp only [sliceJson, Json.arr.injEq] at hab
      rw [List.map_injective_iff.mpr h hab]

def Usage.toJson (u : Usage) : Json :=
  .obj [("prompt_tokens", .ofInt u.promptTokens), ("completion_tokens", .ofInt u.completionTokens),
    ("total_tokens", .ofInt u.totalTokens)]

def usageField (u : Option Usage) : List (String × Json) :=
  omitEmpty "usage" u.isNone (u.elim .null Usage.toJson)

def Choice.toJson (c : Choice) : Json :=
  .obj [("index", .ofInt c.index), ("message", c.message.toJson),
    ("finish_reason", .str c.finishReason)]

def ChatCompletionResponse.toJson (r : ChatCompletionResponse) : Json :=
  .obj ([("id", .str r.id), ("object", .str r.object), ("created", .ofInt r.created),
    ("model", .str r.model), ("choices", sliceJson Choice.toJson r.choices)] ++ usageField r.usage)

theorem valid_omitEmpty {key : String} {empty : Bool} {v : Json} (hv : v.Valid) :
    ∀ kv ∈ omitEmpty key empty v, kv.2.Valid := by
  intro kv hkv
  cases empty with
  | true => cases hkv
  | false =>
    obtain rfl := List.mem_singleton.mp hkv
    exact hv

theorem valid_sliceJson {α : Type} {f : α → Json} (h : ∀ a, (f a).Valid) (o : Option (List α)) :
    (sliceJson f o).Valid := by
  cases o with
  | none => trivial
  | some l => exact Json.valid_arr_map fun a _ => h a

theorem Message.valid_toJson (m : Message) : m.toJson.Valid := by
  simp [Message.toJson, Json.Valid, Json.ValidFields]

theorem Usage.valid_toJson (u : Usage) : u.toJson.Valid := by
  simp [Usage.toJson, Json.Valid, Json.ValidFields, Json.valid_ofInt]

theorem valid_usageField (u : Option Usage) : ∀ kv ∈ usageField u, kv.2.Valid := by
  refine valid_omitEmpty ?_
  cases u with
  | none => trivial
  | some u => exact u.valid_toJson

def CompletionChoice.toJson (c : CompletionChoice) : Json :=
  .obj [("index", .ofInt c.index), ("text", .str c.text), ("finish_reason", .str c.finishReason)]

def CompletionResponse.toJson (r : CompletionResponse) : Json :=
  .obj ([("id", .str r.id), ("object", .str r.object), ("created", .ofInt r.created),
    ("model", .str r.model), ("choices", sliceJson CompletionChoice.toJson r.choices)] ++
    usageField r.usage)

def Embedding.toJson (e : Embedding) : Json :=
  .obj [("object", .str e.object), ("embedding", sliceJson Json.ofDecimal e.embedding),
    ("index", .ofInt e.index)]

def EmbeddingResponse.toJson (r : EmbeddingResponse) : Json :=
  .obj ([("object", .str r.object), ("data", sliceJson Embedding.toJson r.data),
    ("model", .str r.model)] ++ usageField r.usage)

/-- `json.NewEncoder(w).Encode`: the text and a newline. -/
def encode (v : Json) : String := String.ofList (v.render ++ ['\n'])

def writeError (status : Nat) (e : ErrorDetail) : Response :=
  { status := status, headers := [("Content-Type", "application/json")], body := encode e.toJson }

def writeJSON (status : Nat) (v : Json) : Response :=
  { status := status, headers := [("Content-Type", "application/json")], body := encode v }

/-- `http.Header.Get`, and a lookup in a map of strings: what is missing reads
as the empty string. -/
def header (headers : List (String × String)) (name : String) : String :=
  (headers.lookup name).getD ""

theorem Message.toJson_injective : Function.Injective Message.toJson := by
  intro a b h
  simp only [Message.toJson, Json.obj.injEq, List.cons.injEq, Prod.mk.injEq, Json.str.injEq,
    true_and, and_true] at h
  cases a
  cases b
  simp only [Message.mk.injEq]
  exact h

end LlmRouter.Gateway

/-! ## Virtual keys -/

namespace LlmRouter.Auth

/-- `auth.VirtualKey`. Times are nanoseconds since the epoch. -/
structure VirtualKey where
  id : String
  userID : Option String := none
  teamID : Option String := none
  orgID : Option String := none
  expiresAt : Option Int := none
  rpmLimit : Option Int := none
  tpmLimit : Option Int := none
  allowedModels : List String := []
  blockedModels : List String := []
  isActive : Bool := true
  deriving DecidableEq, Repr

/-- The errors of `internal/auth` that a key can raise. -/
inductive KeyError where
  | keyNotFound
  | keyInactive
  | keyExpired
  | modelNotAllowed
  | modelBlocked
  deriving DecidableEq, Repr

def VirtualKey.isValid (k : VirtualKey) (now : Int) : Except KeyError Unit :=
  if !k.isActive then .error .keyInactive
  else if k.expiresAt.any (fun t => decide (t < now)) then .error .keyExpired
  else .ok ()

/-- `VirtualKey.CanAccessModel`: the block list first, then a non-empty allow list. -/
def VirtualKey.canAccessModel (k : VirtualKey) (model : String) : Except KeyError Unit :=
  if k.blockedModels.contains model then .error .modelBlocked
  else if 0 < k.allowedModels.length ∧ !k.allowedModels.contains model then
    .error .modelNotAllowed
  else .ok ()

end LlmRouter.Auth
