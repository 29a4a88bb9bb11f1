import LlmRouter.Provider.SseReaders

/-!
# LlmRouter — the MCP proxy and its result cache

`Proxy.CallTool` asks the caller's policy, then the cache of tool results, then the hub, and
applies the size limit of the policy to what the hub has returned. A hit is answered before the
size limit, and two requests may have one key. `cache_iff` says that nothing else can tell a
cached answer from one without a cache.
-/

namespace LlmRouter.Mcp

open Gateway Lib Lib.Json Lib.Utf8 Streams

/-! ## Policies -/

structure Policy where
  allowedServers : List String := []
  allowedTools : List String := []
  blockedTools : List String := []
  requireApproval : List String := []
  maxResultSize : Int := 0
  deriving DecidableEq, Repr

def defaultMaxResultSize : Int := 1048576

-- A policy may be nil, which is `none`.

def effectiveMaxResultSize : Option Policy → Int
  | none => defaultMaxResultSize
  | some p => if p.maxResultSize ≤ 0 then defaultMaxResultSize else p.maxResultSize

def canAccessServer (policy : Option Policy) (server : String) : Bool :=
  match policy with
  | none => true
  | some p => p.allowedServers.isEmpty || p.allowedServers.contains server

def canCallTool (policy : Option Policy) (server tool : String) : Bool :=
  canAccessServer policy server &&
    match policy with
    | none => true
    | some p => !p.blockedTools.contains tool &&
      (p.allowedTools.isEmpty || p.allowedTools.contains tool)

def needsApproval (policy : Option Policy) (tool : String) : Bool :=
  policy.any fun p => p.requireApproval.contains tool

def policyError (server tool : String) : String :=
  if tool ≠ "" then
    "policy denies access to tool " ++ goQuote tool ++ " on server " ++ goQuote server
  else "policy denies access to server " ++ goQuote server

/-! ## Requests and results -/

section

variable {α : Type}

structure ToolCallRequest (α : Type) where
  server : String
  tool : String
  arguments : List (String × α)
  sorted : SortedKeys arguments

structure ToolContent where
  type : String := ""
  text : String := ""
  data : String := ""
  mimeType : String := ""
  uri : String := ""
  deriving DecidableEq, Repr

def ToolContent.into : Into ToolContent :=
  intoStruct fun fs c => do
    let type ← field intoString c.type "type" fs
    let text ← field intoString c.text "text" fs
    let data ← field intoString c.data "data" fs
    let mimeType ← field intoString c.mimeType "mimeType" fs
    let uri ← field intoString c.uri "uri" fs
    return ⟨type, text, data, mimeType, uri⟩

structure ToolCallResponse where
  content : Option (List ToolContent)
  isError : Bool := false
  cached : Bool := false
  durationMS : Nat := 0
  deriving DecidableEq, Repr

/-- What `json.Unmarshal` leaves in `isError`: a value of the wrong type is skipped. -/
def isErrorOf : Json → Bool
  | .obj fs => (fieldValues "isError" fs).foldl (fun old v => (intoBool v old).getD old) false
  | _ => false

def parseResult (raw : RawMessage) : Option (List ToolContent) × Bool :=
  let wrapped : Option (List ToolContent) := some [{ type := "text", text := raw }]
  match parse raw.toList with
  | none => (wrapped, false)
  | some v =>
    let decoded := intoStruct (fun fs (r : Option (Slice ToolContent) × Bool) => do
      let content ← field (intoSlice ToolContent.into {}) r.1 "content" fs
      let isError ← field intoBool r.2 "isError" fs
      return (content, isError)) v (none, false)
    match decoded with
    | some r => (r.1.map Slice.elems, r.2)
    | none => (wrapped, isErrorOf v)

/-! ## The cache -/

def fnv64a (bs : Bytes) : UInt64 :=
  bs.foldl (fun h b => (h ^^^ b.toUInt64) * 1099511628211) 14695981039346656037

variable (marshal : α → Bytes)

/-- What `resultCache.key` writes to the hash; `marshal` is `json.Marshal` of an argument. -/
def keyBytes (req : ToolCallRequest α) : Bytes :=
  bytes req.server ++ [0] ++ bytes req.tool ++ [0] ++
    req.arguments.flatMap fun kv => bytes kv.1 ++ marshal kv.2

/-- `resultCache.key`, as the number whose digits are the key. -/
def cacheKey (req : ToolCallRequest α) : UInt64 := fnv64a (keyBytes marshal req)

structure CacheEntry (α : Type) where
  content : Option (List ToolContent)
  expiresAt : Nat
  origin : ToolCallRequest α

structure ResultCache (α : Type) where
  ttl : Nat
  entries : UInt64 → Option (CacheEntry α) := fun _ => none

def ResultCache.get (c : ResultCache α) (req : ToolCallRequest α)
    (now : Nat) : Option (CacheEntry α) :=
  (c.entries (cacheKey marshal req)).filter fun e => now ≤ e.expiresAt

def ResultCache.set (c : ResultCache α) (req : ToolCallRequest α)
    (content : Option (List ToolContent)) (now : Nat) : ResultCache α :=
  { c with
    entries := fun k =>
      if k = cacheKey marshal req then some ⟨content, now + c.ttl, req⟩ else c.entries k }

def ResultCache.sweep (c : ResultCache α) (now : Nat) : ResultCache α :=
  { c with entries := fun k => (c.entries k).filter fun e => now ≤ e.expiresAt }

/-! ## The proxy -/

/-- A call of `CallTool`, with the times at which it asks the cache and stores, and how long the hub
takes. -/
structure ToolCall (α : Type) where
  req : ToolCallRequest α
  policy : Option Policy
  now : Nat := 0
  stored : Nat := 0
  elapsed : Nat := 0

/-- `CallTool` behind the cache; a result that is no error goes into the cache. -/
def callHub (hub : ToolCallRequest α → Except String RawMessage) (marshal : α → Bytes)
    (cache : Option (ResultCache α)) (c : ToolCall α) :
    Option (ResultCache α) × Except String ToolCallResponse :=
  match hub c.req with
  | .error err =>
    (cache, .error ("mcp: CallTool " ++ c.req.server ++ "/" ++ c.req.tool ++ ": " ++ err))
  | .ok raw =>
    let maxSize := effectiveMaxResultSize c.policy
    if maxSize < raw.utf8ByteSize then
      (cache, .error ("tool result size " ++ toString raw.utf8ByteSize ++ " exceeds limit " ++
        toString maxSize))
    else
      let (content, isError) := parseResult raw
      (if isError then cache else cache.map fun rc => rc.set marshal c.req content c.stored,
        .ok { content, isError, durationMS := c.elapsed })

def callTool (hub : ToolCallRequest α → Except String RawMessage) (marshal : α → Bytes)
    (cache : Option (ResultCache α)) (c : ToolCall α) :
    Option (ResultCache α) × Except String ToolCallResponse :=
  if !canCallTool c.policy c.req.server c.req.tool then
    (cache, .error (policyError c.req.server c.req.tool))
  else if needsApproval c.policy c.req.tool then
    (cache, .error ("tool " ++ goQuote c.req.tool ++ " on " ++ goQuote c.req.server ++
      " requires human approval"))
  else
    match cache.bind fun rc => rc.get marshal c.req c.now with
    | some e => (cache, .ok { content := e.content, cached := true })
    | none => callHub hub marshal cache c

def answer (r : Except String ToolCallResponse) :
    Except String (Option (List ToolContent) × Bool) :=
  r.map fun resp => (resp.content, resp.isError)

/-! ## With and without the cache -/

variable (hub : ToolCallRequest α → Except String RawMessage) (marshal : α → Bytes)

def ResultCache.after (rc : ResultCache α) (c : ToolCall α) : ResultCache α :=
  (callTool hub marshal (some rc) c).1.getD rc

inductive ProxyEvent (α : Type) where
  | call (c : ToolCall α)
  | cleanup (now : Nat)

def ResultCache.step (rc : ResultCache α) : ProxyEvent α → ResultCache α
  | .call c => rc.after hub marshal c
  | .cleanup now => rc.sweep now

def Transparent (rc : ResultCache α) : ProxyEvent α → Prop
  | .call c =>
    answer (callTool hub marshal (some rc) c).2 = answer (callTool hub marshal none c).2
  | .cleanup _ => True

/-- An allowed call finds only entries within its limit, of its own request or one with the same
result. -/
def HitFits (rc : ResultCache α) : ProxyEvent α → Prop
  | .call c =>
    canCallTool c.policy c.req.server c.req.tool = true →
    needsApproval c.policy c.req.tool = false →
    ∀ e, rc.get marshal c.req c.now = some e →
      ∃ raw, hub c.req = .ok raw ∧ raw.utf8ByteSize ≤ effectiveMaxResultSize c.policy ∧
        (e.origin = c.req ∨
          ∃ raw', hub e.origin = .ok raw' ∧ parseResult raw' = parseResult raw)
  | .cleanup _ => True

variable {hub marshal}

def Stored (hub : ToolCallRequest α → Except String RawMessage) (rc : ResultCache α) : Prop :=
  ∀ k e, rc.entries k = some e →
    ∃ raw, hub e.origin = .ok raw ∧ parseResult raw = (e.content, false)

theorem stored_empty (ttl : Nat) : Stored hub ({ ttl } : ResultCache α) := nofun

variable {rc : ResultCache α}

theorem Stored.sweep (h : Stored hub rc) (now : Nat) : Stored hub (rc.sweep now) := by
  intro k e he
  exact h k e (Option.mem_filter_iff.mp he).1

theorem Stored.set (h : Stored hub rc) {req : ToolCallRequest α} {raw : RawMessage}
    {content : Option (List ToolContent)} (hraw : hub req = .ok raw)
    (hcontent : parseResult raw = (content, false)) (now : Nat) :
    Stored hub (rc.set marshal req content now) := by
  intro k e he
  simp only [ResultCache.set] at he
  split at he
  case isTrue =>
    cases he
    exact ⟨raw, hraw, hcontent⟩
  case isFalse => exact h k e he

theorem Stored.callHub {rc : ResultCache α} (h : Stored hub rc) (c : ToolCall α) :
    Stored hub ((callHub hub marshal (some rc) c).1.getD rc) := by
  unfold Mcp.callHub
  split
  case h_1 => exact h
  case h_2 raw hraw =>
    dsimp only
    split
    case isTrue => exact h
    case isFalse =>
      cases hresult : parseResult raw with
      | mk content isError =>
        cases isError with
        | true => exact h
        | false => exact h.set hraw hresult c.stored

theorem Stored.step (h : Stored hub rc) (ev : ProxyEvent α) :
    Stored hub (rc.step hub marshal ev) := by
  cases ev with
  | cleanup now => exact h.sweep now
  | call c =>
    simp only [ResultCache.step, ResultCache.after, callTool]
    split
    · exact h
    · split
      · exact h
      · split
        · exact h
        · exact h.callHub c

theorem answer_callHub (cache : Option (ResultCache α)) (c : ToolCall α) :
    answer (callHub hub marshal cache c).2 =
      match hub c.req with
      | .error err =>
        .error ("mcp: CallTool " ++ c.req.server ++ "/" ++ c.req.tool ++ ": " ++ err)
      | .ok raw =>
        if effectiveMaxResultSize c.policy < raw.utf8ByteSize then
          .error ("tool result size " ++ toString raw.utf8ByteSize ++ " exceeds limit " ++
            toString (effectiveMaxResultSize c.policy))
        else .ok (parseResult raw) := by
  unfold callHub
  split
  · rfl
  · dsimp only
    split <;> rfl

theorem answer_callHub_eq_ok {c : ToolCall α} {content : Option (List ToolContent)} :
    answer (callHub hub marshal none c).2 = .ok (content, false) ↔
      ∃ raw, hub c.req = .ok raw ∧ raw.utf8ByteSize ≤ effectiveMaxResultSize c.policy ∧
        parseResult raw = (content, false) := by
  rw [answer_callHub]
  cases hub c.req with
  | error err => simp
  | ok raw =>
    by_cases hsize : effectiveMaxResultSize c.policy < raw.utf8ByteSize
    · have hnot : ¬ (raw.utf8ByteSize : Int) ≤ effectiveMaxResultSize c.policy := by omega
      simp [hsize, hnot]
    · have hle : (raw.utf8ByteSize : Int) ≤ effectiveMaxResultSize c.policy := by omega
      simp [hsize, hle]

/-- **One call is answered as without a cache exactly if its hit fits.** -/
theorem transparent_iff (h : Stored hub rc) (ev : ProxyEvent α) :
    Transparent hub marshal rc ev ↔ HitFits hub marshal rc ev := by
  cases ev with
  | cleanup now => exact Iff.rfl
  | call c =>
    simp only [Transparent, HitFits, callTool, Option.bind_some, Option.bind_none]
    cases hallowed : canCallTool c.policy c.req.server c.req.tool with
    | false => simp
    | true =>
      cases happroval : needsApproval c.policy c.req.tool with
      | true => simp
      | false =>
        simp only [Bool.not_true, Bool.false_eq_true, if_false, forall_const]
        cases hget : rc.get marshal c.req c.now with
        | none => simp [answer_callHub]
        | some e =>
          obtain ⟨raw', hraw', hcontent⟩ := h _ e (Option.mem_filter_iff.mp hget).1
          simp only [Option.some.injEq, forall_eq']
          show (Except.ok (e.content, false) : Except String _) = _ ↔ _
          rw [eq_comm, answer_callHub_eq_ok]
          refine exists_congr fun raw => and_congr_right fun hraw => and_congr_right fun _ => ?_
          constructor
          · intro hsame
            exact .inr ⟨raw', hraw', by rw [hcontent, hsame]⟩
          · rintro (horigin | ⟨raw₂, hraw₂, hsame⟩)
            · rw [horigin, hraw] at hraw'
              cases hraw'
              exact hcontent
            · rw [hraw'] at hraw₂
              cases hraw₂
              rw [← hsame, hcontent]

/-- **The result cache.** Whatever the policies, every call of a run is answered as by a proxy
without a cache iff every hit fits: the result of the caller's own request is within its limit, and
the entry belongs to that request or to one with the same result. -/
theorem cache_iff (hub : ToolCallRequest α → Except String RawMessage) (marshal : α → Bytes)
    (ttl : Nat) (evs : List (ProxyEvent α)) :
    Along (ResultCache.step hub marshal) (Transparent hub marshal) { ttl } evs ↔
      Along (ResultCache.step hub marshal) (HitFits hub marshal) { ttl } evs := by
  have hany : Along (ResultCache.step hub marshal) (fun _ _ => True) { ttl } evs :=
    along_of_forall (fun _ _ => trivial) _ evs
  exact along_iff (P := Stored hub) (fun _ ev hrc _ => transparent_iff hrc ev)
    (fun _ ev hrc _ _ => hrc.step ev) (stored_empty ttl) hany

end

def numberCall (arguments : List (String × Nat)) (sorted : SortedKeys arguments)
    (policy : Option Policy) : ToolCall Nat :=
  { req := ⟨"srv", "get", arguments, sorted⟩, policy }

/-- A number as `json.Marshal` writes it. -/
def marshalNat (n : Nat) : Bytes := bytes (toString n)

def firstName (req : ToolCallRequest Nat) : Except String RawMessage :=
  .ok ((req.arguments.head?.map Prod.fst).getD "no argument")

/-- A limit of one byte and a result of two; and `{a1: 2}` gets the result stored for `{a: 12}`. -/
theorem cache_differs :
    (let first := numberCall [("ab", 1)] (by simp [SortedKeys]) none
     let rc := ResultCache.after firstName marshalNat { ttl := 60 } first
     let second : ToolCall Nat := { first with policy := some { maxResultSize := 1 } }
     answer (callTool firstName marshalNat (some rc) second).2 =
        .ok (some [{ type := "text", text := "ab" }], false) ∧
      answer (callTool firstName marshalNat none second).2 =
        .error "tool result size 2 exceeds limit 1") ∧
    (let first := numberCall [("a", 12)] (by simp [SortedKeys]) none
     let second := numberCall [("a1", 2)] (by simp [SortedKeys]) none
     let rc := ResultCache.after firstName marshalNat { ttl := 60 } first
     answer (callTool firstName marshalNat (some rc) second).2 =
        .ok (some [{ type := "text", text := "a" }], false) ∧
      answer (callTool firstName marshalNat none second).2 =
        .ok (some [{ type := "text", text := "a1" }], false)) := by
  refine ⟨⟨?_, ?_⟩, ⟨?_, ?_⟩⟩ <;> rfl

end LlmRouter.Mcp
