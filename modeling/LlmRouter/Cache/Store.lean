import LlmRouter.Lib.Redis
import LlmRouter.Provider.Responses

/-!
# LlmRouter — the store of the exact cache

`Store` keeps an answer in Redis as JSON, compressed if that makes it smaller; `Get` looks at
the first two bytes to tell which. JSON begins with a brace and never with the two bytes of
gzip, so an entry is read as what it was stored.
-/

namespace LlmRouter.Exact

open Lib Lib.Json Lib.Redis Gateway Adapters List
open Streams (unmarshal intoUsage)
open Utf8

/-! ## Entries -/

/-- A finite `float64`, as its shortest decimal, which is read back as it is. -/
def Float64 (enc : Encoding) : Type :=
  { x : Decimal // enc.parseFloat (.ofDecimal x) = some x }

structure Entry where
  response : Option ChatCompletionResponse := none
  createdAt : Int := 0
  model : String := ""
  promptTokens : Int := 0
  completionTokens : Int := 0
  costUSD : Decimal := .zero

def Entry.parts (e : Entry) : List (String × Option Json) :=
  [("response", some (e.response.elim .null ChatCompletionResponse.toJson)),
    ("created_at", some (.ofInt e.createdAt)), ("model", some (.str e.model)),
    ("prompt_tokens", some (.ofInt e.promptTokens)),
    ("completion_tokens", some (.ofInt e.completionTokens)),
    ("cost_usd", some (.ofDecimal e.costUSD))]

def Entry.marshal (e : Entry) : Bytes := encode (Json.obj (present e.parts)).render

def intoResponse : Into (Option ChatCompletionResponse) :=
  intoPtr (fun v _ => Encoding.decodeStruct chatResponse v) ⟨"", "", 0, "", none, none⟩

def entry (enc : Encoding) (fs : List (String × Json)) : Option Entry := do
  let response ← field intoResponse none "response" fs
  let createdAt ← field intoInt 0 "created_at" fs
  let model ← field intoString "" "model" fs
  let promptTokens ← field intoInt 0 "prompt_tokens" fs
  let completionTokens ← field intoInt 0 "completion_tokens" fs
  let costUSD ← field (intoFloat enc.parseFloat) .zero "cost_usd" fs
  return ⟨response, createdAt, model, promptTokens, completionTokens, costUSD⟩

/-! ## Get and Store -/

/-- `compress/gzip`: a writer, which may fail, and a reader that inverts it. It begins with two
fixed bytes. -/
structure Gzip where
  compress : Bytes → Option Bytes
  read : Bytes → Option Bytes
  read_compress : ∀ data z, compress data = some z → read z = some data
  magic : ∀ data z, compress data = some z → [0x1f, 0x8b] <+: z

def Gzip.maybeDecompress (gz : Gzip) (data : Bytes) : Bytes :=
  if [0x1f, 0x8b] <+: data then (gz.read data).getD data else data

structure Cache where
  gz : Gzip
  enc : Encoding
  maxResponseSize : Int
  defaultTTL : Int

abbrev Db := String → Option (Keyed Bytes)

/-- `SET` with the options of a go-redis expiration: a positive one is a time to live, `-1`
keeps that of the key. -/
def set (now ttl : Int) (key : String) (data : Bytes) (db : Db) : Db :=
  Function.update db key (some
    { val := data
      expireAt := if 0 < ttl then some (now + ttl)
        else if ttl = -1 then (live now (db key)).bind Keyed.expireAt else none })

def keyPrefix : String := "cache:exact:"

namespace Cache

variable (c : Cache)

/-- The `Entry` that `Store` makes at `now`, which is a `UnixNano`. -/
def newEntry (now : Int64) (resp : ChatCompletionResponse) (costUSD : Float64 c.enc) : Entry where
  response := some resp
  createdAt := now.toInt / 1000000000
  model := resp.model
  costUSD := costUSD.1
  promptTokens := resp.usage.elim 0 Usage.promptTokens
  completionTokens := resp.usage.elim 0 Usage.completionTokens

/-- What `Store` writes: the text, or what it compresses to if that is shorter. -/
def payload (data : Bytes) : Bytes :=
  match c.gz.compress data with
  | some z => if z.length < data.length then z else data
  | none => data

/-- `Store`: the values afterwards and the error; `fault` is an error of Redis. -/
def store (fault : Option String) (now : Int64) (key : String) (resp : ChatCompletionResponse)
    (costUSD : Float64 c.enc) (ttl : Int) (db : Db) : Db × Option String :=
  let ttl := if ttl = 0 then c.defaultTTL else ttl
  let data := (c.newEntry now resp costUSD).marshal
  -- the limit is on the text before it is compressed
  if c.maxResponseSize < data.length then (db, some "response too large for cache")
  else
    match fault with
    | some err => (db, some ("cache set: " ++ err))
    | none => (set now.toInt ttl (keyPrefix ++ key) (c.payload data) db, none)

def get (fault : Option String) (now : Int64) (key : String) (db : Db) :
    Except String (Option Entry) :=
  match fault with
  | some err => .error ("cache get: " ++ err)
  | none =>
    match live now.toInt (db (keyPrefix ++ key)) with
    | none => .ok none
    | some v =>
      let decoded := c.gz.maybeDecompress v.val
      match unmarshal (Encoding.decodeStruct (entry c.enc)) decoded with
      | none => .error ("cache unmarshal: " ++ c.enc.errorText (String.ofList (decode decoded)))
      | some e => .ok (some e)

end Cache

/-! ## What is decoded -/

def UsageInRange (u : Usage) : Prop :=
  IsInt64 u.promptTokens ∧ IsInt64 u.completionTokens ∧ IsInt64 u.totalTokens

structure InRange (r : ChatCompletionResponse) : Prop where
  created : IsInt64 r.created
  choices : ∀ cs ∈ r.choices, ∀ choice ∈ cs, IsInt64 choice.index
  usage : ∀ u ∈ r.usage, UsageInRange u

theorem keeps_intoChoice : Keeps (fun choice => IsInt64 choice.index) intoChoice := by
  intro v old new hold h
  cases v with
  | null => exact Option.some.inj h ▸ hold
  | obj fs =>
    obtain ⟨index, hindex, h⟩ := Option.bind_eq_some_iff.mp h
    obtain ⟨message, -, h⟩ := Option.bind_eq_some_iff.mp h
    obtain ⟨reason, -, h⟩ := Option.bind_eq_some_iff.mp h
    cases h
    exact keeps_intoInt.field hold hindex
  | _ => cases h

theorem keeps_intoUsage : Keeps UsageInRange intoUsage := by
  intro v old new hold h
  cases v with
  | null => exact Option.some.inj h ▸ hold
  | obj fs =>
    obtain ⟨prompt, hprompt, h⟩ := Option.bind_eq_some_iff.mp h
    obtain ⟨completion, hcompletion, h⟩ := Option.bind_eq_some_iff.mp h
    obtain ⟨total, htotal, h⟩ := Option.bind_eq_some_iff.mp h
    cases h
    exact ⟨keeps_intoInt.field hold.1 hprompt, keeps_intoInt.field hold.2.1 hcompletion,
      keeps_intoInt.field hold.2.2 htotal⟩
  | _ => cases h

variable {r : ChatCompletionResponse} {fs : List (String × Json)}

theorem inRange_of_chatResponse (h : chatResponse fs = some r) : InRange r := by
  obtain ⟨id, -, h⟩ := Option.bind_eq_some_iff.mp h
  obtain ⟨object, -, h⟩ := Option.bind_eq_some_iff.mp h
  obtain ⟨created, hcreated, h⟩ := Option.bind_eq_some_iff.mp h
  obtain ⟨model, -, h⟩ := Option.bind_eq_some_iff.mp h
  obtain ⟨choices, hchoices, h⟩ := Option.bind_eq_some_iff.mp h
  obtain ⟨usage, husage, h⟩ := Option.bind_eq_some_iff.mp h
  cases h
  have hslice : ∀ x ∈ choices, ∀ choice ∈ x.elems ++ x.stale, IsInt64 choice.index :=
    (keeps_intoChoice.slice isInt64_zero).field (by simp) hchoices
  refine ⟨keeps_intoInt.field isInt64_zero hcreated, ?_,
    (keeps_intoUsage.ptr ⟨isInt64_zero, isInt64_zero, isInt64_zero⟩).field (by simp) husage⟩
  intro cs hcs choice hchoice
  -- a slice also has elements behind its length, which no choice is
  obtain ⟨slice, rfl, rfl⟩ := Option.map_eq_some_iff.mp hcs
  exact hslice slice rfl choice (mem_append_left _ hchoice)

/-! ## What is encoded is decoded -/

theorem intoUsage_toJson {u : Usage} (h : UsageInRange u) (old : Usage) :
    intoUsage u.toJson old = some u := by
  let parts := [("prompt_tokens", some (Json.ofInt u.promptTokens)),
    ("completion_tokens", some (.ofInt u.completionTokens)),
    ("total_tokens", some (.ofInt u.totalTokens))]
  have hnames : Distinct (parts.map Prod.fst) := by
    show Distinct ["prompt_tokens", "completion_tokens", "total_tokens"]
    decide
  have hprompt := field_of_lookup "prompt_tokens" hnames rfl (intoInt_ofInt h.1 old.promptTokens)
  have hcompletion := field_of_lookup "completion_tokens" hnames rfl
    (intoInt_ofInt h.2.1 old.completionTokens)
  have htotal := field_of_lookup "total_tokens" hnames rfl (intoInt_ofInt h.2.2 old.totalTokens)
  exact Option.bind_eq_some_iff.mpr ⟨_, hprompt, Option.bind_eq_some_iff.mpr ⟨_, hcompletion,
    Option.bind_eq_some_iff.mpr ⟨_, htotal, rfl⟩⟩⟩

theorem intoChoice_toJson {choice : Choice} (h : IsInt64 choice.index) (old : Choice) :
    intoChoice choice.toJson old = some choice := by
  let parts := [("index", some (Json.ofInt choice.index)), ("message", some choice.message.toJson),
    ("finish_reason", some (.str choice.finishReason))]
  have hnames : Distinct (parts.map Prod.fst) := by
    show Distinct ["index", "message", "finish_reason"]
    decide
  have hindex := field_of_lookup "index" hnames rfl (intoInt_ofInt h old.index)
  have hmessage := field_of_lookup "message" hnames rfl
    (Message.into_toJson choice.message old.message)
  have hreason : field intoString old.finishReason "finish_reason" (present parts) = _ :=
    field_of_lookup _ hnames rfl rfl
  exact Option.bind_eq_some_iff.mpr ⟨_, hindex, Option.bind_eq_some_iff.mpr ⟨_, hmessage,
    Option.bind_eq_some_iff.mpr ⟨_, hreason, rfl⟩⟩⟩

def responseParts (r : ChatCompletionResponse) : List (String × Option Json) :=
  [("id", some (.str r.id)), ("object", some (.str r.object)), ("created", some (.ofInt r.created)),
    ("model", some (.str r.model)), ("choices", some (sliceJson Choice.toJson r.choices)),
    ("usage", r.usage.map Usage.toJson)]

theorem toJson_eq (r : ChatCompletionResponse) : r.toJson = .obj (present (responseParts r)) := by
  obtain ⟨id, object, created, model, choices, usage⟩ := r
  cases usage <;> rfl

theorem intoResponse_toJson (h : InRange r) : intoResponse r.toJson none = some (some r) := by
  have hnames : Distinct ((responseParts r).map Prod.fst) := by
    show Distinct ["id", "object", "created", "model", "choices", "usage"]
    decide
  have hstring (name : String) {s : String}
      (hpart : (responseParts r).lookup name = some (some (.str s))) :
      field intoString "" name (present (responseParts r)) = some s :=
    field_of_lookup name hnames hpart rfl
  have hcreated := field_of_lookup "created" hnames rfl (intoInt_ofInt h.created 0)
  have hchoices : ∃ s, field (intoSlice intoChoice ⟨0, ⟨"", ""⟩, ""⟩) none "choices"
      (present (responseParts r)) = some s ∧ s.map Slice.elems = r.choices := by
    cases hcs : r.choices with
    | none =>
      exact ⟨none, field_of_lookup _ hnames (by rw [responseParts, hcs]; rfl) rfl, rfl⟩
    | some cs =>
      exact ⟨_, field_of_lookup _ hnames (by rw [responseParts, hcs]; rfl)
        (intoSlice_map fun choice hchoice => intoChoice_toJson (h.choices cs hcs choice hchoice) _),
        rfl⟩
  have husage : field (intoPtr intoUsage {}) none "usage" (present (responseParts r)) =
      some r.usage := by
    rw [field_present _ _ _ hnames (by simp [responseParts])]
    show (r.usage.map Usage.toJson).elim _ _ = _
    cases hu : r.usage with
    | none => rfl
    | some u => exact congrArg (Option.map some) (intoUsage_toJson (h.usage u hu) {})
  obtain ⟨s, hs, helems⟩ := hchoices
  rw [toJson_eq]
  show (chatResponse (present (responseParts r))).map some = some (some r)
  rw [chatResponse, hstring "id" rfl, hstring "object" rfl, hcreated, hstring "model" rfl, hs,
    husage]
  show some (some _) = some (some r)
  rw [helems]

theorem Choice.valid_toJson (choice : Choice) : choice.toJson.Valid := by
  rw [Choice.toJson, Valid, validFields_iff]
  simp only [forall_mem_cons]
  exact ⟨valid_ofInt _, Message.valid_toJson _, trivial, fun _ h => absurd h not_mem_nil⟩

theorem valid_toJson (r : ChatCompletionResponse) : r.toJson.Valid := by
  rw [ChatCompletionResponse.toJson, Valid, validFields_iff]
  simp only [cons_append, nil_append, forall_mem_cons]
  exact ⟨trivial, trivial, valid_ofInt _, trivial, valid_sliceJson Choice.valid_toJson _,
    valid_usageField _⟩

theorem Entry.valid (e : Entry) : (Json.obj (present e.parts)).Valid := by
  have hresponse : (e.response.elim .null ChatCompletionResponse.toJson).Valid := by
    cases e.response with
    | none => trivial
    | some r => exact valid_toJson r
  rw [Valid]
  refine validFields_present ?_
  simp only [Entry.parts, forall_mem_cons, Option.mem_some_iff, forall_eq']
  exact ⟨hresponse, valid_ofInt _, trivial, valid_ofInt _, valid_ofInt _, valid_ofDecimal _,
    fun _ h => absurd h not_mem_nil⟩

variable {c : Cache} {now : Int64}

theorem unmarshal_newEntry (h : InRange r) (costUSD : Float64 c.enc) :
    unmarshal (Encoding.decodeStruct (entry c.enc)) (c.newEntry now r costUSD).marshal =
      some (c.newEntry now r costUSD) := by
  set e := c.newEntry now r costUSD with he
  have hnames : Distinct (e.parts.map Prod.fst) := by
    show Distinct ["response", "created_at", "model", "prompt_tokens", "completion_tokens",
      "cost_usd"]
    decide
  have hnow : IsInt64 e.createdAt := by
    have hlow := now.le_toInt
    have hhigh := now.toInt_lt
    constructor <;> simp only [he, Cache.newEntry] <;> omega
  have husage : IsInt64 e.promptTokens ∧ IsInt64 e.completionTokens := by
    simp only [he, Cache.newEntry]
    cases hu : r.usage with
    | none => exact ⟨isInt64_zero, isInt64_zero⟩
    | some u => exact ⟨(h.usage u hu).1, (h.usage u hu).2.1⟩
  rw [unmarshal, Entry.marshal, decode_encode, parse_render e.valid]
  show entry c.enc (present e.parts) = some e
  rw [entry, field_of_lookup "response" hnames rfl (intoResponse_toJson h),
    field_of_lookup "created_at" hnames rfl (intoInt_ofInt hnow 0),
    field_of_lookup "model" hnames rfl (show intoString (.str e.model) "" = some e.model from rfl),
    field_of_lookup "prompt_tokens" hnames rfl (intoInt_ofInt husage.1 0),
    field_of_lookup "completion_tokens" hnames rfl (intoInt_ofInt husage.2 0),
    field_of_lookup "cost_usd" hnames rfl (show intoFloat c.enc.parseFloat (.ofDecimal e.costUSD)
      .zero = some e.costUSD from costUSD.2)]
  rfl

/-! ## What is stored is read -/

theorem maybeDecompress_marshal (gz : Gzip) (e : Entry) :
    gz.maybeDecompress e.marshal = e.marshal := by
  refine if_neg fun hmagic => ?_
  -- the first byte of an object is its brace
  obtain ⟨rest, hrest⟩ := hmagic
  cases hrest

theorem maybeDecompress_payload (c : Cache) (e : Entry) :
    c.gz.maybeDecompress (c.payload e.marshal) = e.marshal := by
  rw [Cache.payload]
  cases hz : c.gz.compress e.marshal with
  | none => exact maybeDecompress_marshal c.gz e
  | some z =>
    dsimp only
    split
    · rw [Gzip.maybeDecompress, if_pos (c.gz.magic _ z hz), c.gz.read_compress _ z hz]
      rfl
    · exact maybeDecompress_marshal c.gz e

/-- **The round trip of the cache.** An answer that was decoded from JSON has an entry with the
answer, the time and the token counts. If the entry is not too large, it is read back until it
expires or is overwritten; else nothing is written. JSON is never taken for compressed data. -/
theorem get_store (c : Cache) (now : Int64) (key : String) (costUSD : Float64 c.enc) (ttl : Int)
    (db : Db) {text : Bytes} {resp : ChatCompletionResponse}
    (hdecoded : unmarshal (Encoding.decodeStruct chatResponse) text = some resp) :
    (∃ e : Entry, e.response = some resp ∧ e.createdAt = now.toInt / 1000000000 ∧
      e.model = resp.model ∧ e.promptTokens = resp.usage.elim 0 Usage.promptTokens ∧
      e.completionTokens = resp.usage.elim 0 Usage.completionTokens ∧ e.costUSD = costUSD.1 ∧
      (e.marshal.length ≤ c.maxResponseSize →
        (c.store none now key resp costUSD ttl db).2 = none ∧
        ∀ (db' : Db) (later : Int64),
          db' (keyPrefix ++ key) = (c.store none now key resp costUSD ttl db).1 (keyPrefix ++ key) →
          (live later.toInt (db' (keyPrefix ++ key))).isSome →
          c.get none later key db' = .ok (some e)) ∧
      ∀ fault, c.maxResponseSize < e.marshal.length →
        c.store fault now key resp costUSD ttl db = (db, some "response too large for cache")) ∧
    ∀ e : Entry, c.gz.maybeDecompress e.marshal = e.marshal := by
  refine ⟨⟨c.newEntry now resp costUSD, rfl, rfl, rfl, rfl, rfl, rfl, fun hfits => ?_,
    fun fault hlarge => if_pos hlarge⟩, maybeDecompress_marshal c.gz⟩
  have hrange : InRange resp := by
    obtain ⟨v, -, hv⟩ := Option.bind_eq_some_iff.mp hdecoded
    cases v with
    | null | obj fs => exact inRange_of_chatResponse hv
    | _ => cases hv
  have hstore : c.store none now key resp costUSD ttl db =
      (set now.toInt (if ttl = 0 then c.defaultTTL else ttl) (keyPrefix ++ key)
        (c.payload (c.newEntry now resp costUSD).marshal) db, none) := if_neg (by omega)
  rw [hstore]
  refine ⟨rfl, fun db' later hsame hlive => ?_⟩
  obtain ⟨v, hv⟩ := Option.isSome_iff_exists.mp hlive
  have hval : v.val = c.payload (c.newEntry now resp costUSD).marshal := by
    have hkept := hsame.symm.trans (live_eq_some.mp hv).1
    simp only [set, Function.update_self, Option.some.injEq] at hkept
    rw [← hkept]
  rw [Cache.get, hv]
  simp only [hval, maybeDecompress_payload, unmarshal_newEntry hrange]

def entryHead : Bytes := bytes "\x7b\"response\":\x7b\"id\":\""

/-- A compressor that knows how an entry begins. -/
def headGzip : Gzip where
  compress data :=
    some ([0x1f, 0x8b] ++
      if entryHead <+: data then 1 :: data.drop entryHead.length else 0 :: data)
  read z :=
    match z.drop 2 with
    | 0 :: rest => some rest
    | 1 :: rest => some (entryHead ++ rest)
    | _ => none
  read_compress data z h := by
    obtain rfl := Option.some.inj h
    by_cases hhead : entryHead <+: data
    · obtain ⟨rest, rfl⟩ := hhead
      simp
    · simp [hhead]
  magic data z h := by
    obtain rfl := Option.some.inj h
    exact prefix_append _ _

def headCache : Cache where
  gz := headGzip
  enc :=
    { parseFloat := fun _ => some .zero
      parseFloat_ofDecimal := fun _ _ h => h
      errorText := fun _ => "" }
  maxResponseSize := 1048576
  defaultTTL := 3600000000000

def hiAnswer : ChatCompletionResponse where
  id := "chatcmpl-1"
  object := "chat.completion"
  created := 1700000000
  model := "gpt-4o"
  choices := some [{ index := 0, message := ⟨"assistant", "hi"⟩, finishReason := "stop" }]
  usage := some { promptTokens := 9, completionTokens := 1, totalTokens := 10 }

theorem get_store_compressed :
    let db := (headCache.store none 1000000000 "k" hiAnswer ⟨.zero, rfl⟩ 0 fun _ => none).1
    (db "cache:exact:k").any (fun v => decide ([0x1f, 0x8b] <+: v.val)) = true ∧
      ∃ e, headCache.get none 2000000000 "k" db = .ok (some e) ∧ e.response = some hiAnswer ∧
        e.createdAt = 1 ∧ e.promptTokens = 9 ∧ e.completionTokens = 1 := by
  intro db
  have hdecoded : unmarshal (Encoding.decodeStruct chatResponse) (encode hiAnswer.toJson.render) =
      some hiAnswer := by decide +kernel
  obtain ⟨⟨⟨_, _, _, _, _, _⟩, ⟨⟩, ⟨⟩, ⟨⟩, ⟨⟩, ⟨⟩, ⟨⟩, hround, -⟩, -⟩ :=
    get_store headCache 1000000000 "k" ⟨.zero, rfl⟩ 0 (fun _ => none) hdecoded
  have hget := (hround (by decide +kernel)).2 db 2000000000 rfl (by decide +kernel)
  exact ⟨by decide +kernel, _, hget, rfl, rfl, rfl, rfl⟩

end LlmRouter.Exact
