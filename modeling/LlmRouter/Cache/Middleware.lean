import LlmRouter.Gateway.Forwarding
import LlmRouter.Lib.Calendar

/-!
# LlmRouter — the cache middleware

`CacheMiddleware.Handler` for any number of concurrent chat requests, one step per atomic action:
the lookup, the entry into the singleflight group, the end of an execution, the asynchronous
store, expiry, and a client that goes away. What the handlers behind the cache answer is a
parameter `next` of the request, of a cancelled context, and of an outcome `o` of everything else.
-/

namespace LlmRouter.Cache

open Lib Gateway Auth Function List

/-! ## Requests and cache entries -/

/-- What the handlers behind the cache read of a request; `policy` is its
`X-Data-Residency-Policy` header. -/
structure Inputs where
  body : String
  policy : String := ""
  virtualKey : Option VirtualKey := none
  deriving DecidableEq

/-- The middleware's own parameters: the decoders, the digest, and
`ReplayAsStream`. -/
structure CacheMiddleware where
  json : Unmarshal
  sha256Hex : List Char → String
  replayAsStream : ChatCompletionResponse → Response

/-- The key of a request, and whether it streams. `none`: it is passed on untouched. -/
def CacheMiddleware.cacheKey (m : CacheMiddleware) (headers : List (String × String))
    (body : String) : Option (String × Bool) :=
  match m.json.chatRequest body with
  | .error _ => none
  | .ok req =>
    if !isCacheable req true headers then none
    else
      let key := buildKey m.sha256Hex req
      if key = "" then none else some (key, req.stream)

/-- A cached answer, with the request it was computed for and what that request was sent. -/
structure Entry where
  response : ChatCompletionResponse
  createdAt : Int
  producer : Inputs
  sent : String

structure PendingStore where
  key : String
  response : ChatCompletionResponse
  producer : Inputs
  sent : String

/-- `time.RFC3339` of an instant in UTC, in seconds. -/
def rfc3339 (unix : Int) : String :=
  let date := Calendar.ofDays (unix / 86400)
  let secs := (unix % 86400).toNat
  String.ofList (Text.pad 4 date.year.toNat ++ ['-'] ++ Text.pad 2 date.month.toNat ++ ['-'] ++
    Text.pad 2 date.day.toNat ++ ['T'] ++ Text.pad 2 (secs / 3600) ++ [':'] ++
    Text.pad 2 (secs / 60 % 60) ++ [':'] ++ Text.pad 2 (secs % 60) ++ ['Z'])

def CacheMiddleware.serveFromCache (m : CacheMiddleware) (entry : Entry) (key : String)
    (stream : Bool) (now : Int) : Response :=
  let resp := if stream then m.replayAsStream entry.response
    else writeJSON 200 entry.response.toJson
  { resp with
    headers := [("X-Cache", "HIT"), ("X-Cache-Key", String.ofList (key.toList.take 8)),
      ("X-Cache-Age", toString (now - entry.createdAt)),
      ("X-Cached-At", rfc3339 entry.createdAt)] ++ resp.headers }

/-! ## The system -/

inductive Phase where
  /-- before `cache.Get` -/
  | looking (key : String)
  /-- before `group.Do` -/
  | missed (key : String)
  /-- runs the next handler inside `group.Do` -/
  | leading (key : String)
  /-- waits in `group.Do` for the execution in flight -/
  | following (key : String)
  /-- runs the next handler on its own -/
  | direct
  /-- has its answer -/
  | served (resp : Response)
  deriving DecidableEq

structure Client where
  inputs : Inputs
  stream : Bool
  connected : Bool := true
  phase : Phase
  deriving DecidableEq

/-- All requests, the cache, the group and the stores under way. -/
structure Sys where
  clients : List Client := []
  entries : String → Option Entry := fun _ => none
  inFlight : String → Option Nat := fun _ => none
  pending : List (Option PendingStore) := []

/-- The steps. `o` is the outcome of the handlers; `ok`: Redis and the size limit did not get in the
way. -/
inductive Act (ω : Type) where
  | arrive (headers : List (String × String)) (inputs : Inputs)
  | lookup (i : Nat) (ok : Bool) (now : Int)
  | enter (i : Nat)
  | finish (i : Nat) (o : ω)
  | store (j : Nat) (ok : Bool) (now : Int)
  | expire (key : String)
  | disconnect (i : Nat)

def Client.receive (key : String) (resp : Response) (c : Client) : Client :=
  if c.phase = .following key then { c with phase := .served resp } else c

/-- The store that an execution starts: of an answer 200 that decodes. -/
def CacheMiddleware.toStore (m : CacheMiddleware) (key : String) (producer : Inputs)
    (resp : Response) : Option PendingStore :=
  if resp.status = 200 then
    match m.json.chatResponse resp.body with
    | .ok r => some { key := key, response := r, producer := producer, sent := resp.body }
    | .error _ => none
  else none

variable {ω : Type} (m : CacheMiddleware) (next : Inputs → (cancelled : Bool) → ω → Response)

def arriving (headers : List (String × String)) (inputs : Inputs) : Client :=
  match m.cacheKey headers inputs.body with
  | none => { inputs := inputs, stream := false, phase := .direct }
  | some (key, stream) => { inputs := inputs, stream := stream, phase := .looking key }

/-- What a lookup that finds `found` makes of a request. A streaming request
that misses is passed through. -/
def Client.looked (c : Client) (key : String) (found : Option Entry) (now : Int) : Client :=
  match found with
  | some e => { c with phase := .served (m.serveFromCache e key c.stream now) }
  | none => { c with phase := if c.stream then .direct else .missed key }

/-- The answer that a request's own run of the handlers ends with. -/
def Client.answer (c : Client) (o : ω) : Response := next c.inputs (!c.connected) o

def Sys.step (s : Sys) : Act ω → Option Sys
  | .arrive headers inputs => some { s with clients := s.clients ++ [arriving m headers inputs] }
  | .lookup i ok now =>
    match s.clients[i]? with
    | some c =>
      match c.phase with
      | .looking key =>
        let found := if ok then s.entries key else none
        some { s with clients := s.clients.set i (c.looked m key found now) }
      | _ => none
    | none => none
  | .enter i =>
    match s.clients[i]? with
    | some c =>
      match c.phase with
      | .missed key =>
        if (s.inFlight key).isSome then
          some { s with clients := s.clients.set i { c with phase := .following key } }
        else
          some { s with
            clients := s.clients.set i { c with phase := .leading key }
            inFlight := update s.inFlight key (some i) }
      | _ => none
    | none => none
  | .finish i o =>
    match s.clients[i]? with
    | some c =>
      match c.phase with
      | .direct => some { s with
          clients := s.clients.set i { c with phase := .served (c.answer next o) } }
      | .leading key =>
        let resp := c.answer next o
        some { s with
          clients := (s.clients.map (Client.receive key resp)).set i
            { c with phase := .served resp }
          inFlight := update s.inFlight key none
          pending := s.pending ++ [m.toStore key c.inputs resp] }
      | _ => none
    | none => none
  | .store j ok now =>
    match s.pending[j]? with
    | some (some p) =>
      some { s with
        pending := s.pending.set j none
        entries :=
          if ok then
            update s.entries p.key (some
              { response := p.response, createdAt := now, producer := p.producer, sent := p.sent })
          else s.entries }
    | _ => none
  | .expire key => some { s with entries := update s.entries key none }
  | .disconnect i =>
    match s.clients[i]? with
    | some c => some { s with clients := s.clients.set i { c with connected := false } }
    | none => none

/-! ## Answers of one's own -/

/-- Status and body that a run of the handlers for this request, with its
context alive, can end with. -/
def Possible (inputs : Inputs) (status : Nat) (body : String) : Prop :=
  ∃ o, (next inputs false o).status = status ∧ (next inputs false o).body = body

/-- The handlers answer two requests alike, which may differ in what they do not read, such as the
key. -/
def Alike (a b : Inputs) : Prop := ∀ o, next a false o = next b false o

/-- A non-streaming request hits only an entry that was computed for a request like it and encodes
to what was sent then, and joins only an execution for one like it. An execution whose client has
gone ends with nobody waiting for it and nothing to store. -/
def StepOk (s : Sys) : Act ω → Prop
  | .lookup i ok _ => ∀ c key e, s.clients[i]? = some c → c.phase = .looking key →
      c.stream = false → ok = true → s.entries key = some e →
      Alike next e.producer c.inputs ∧ encode e.response.toJson = e.sent
  | .enter i => ∀ c key l lead, s.clients[i]? = some c → c.phase = .missed key →
      s.inFlight key = some l → s.clients[l]? = some lead → Alike next lead.inputs c.inputs
  | .finish i o => ∀ c key, s.clients[i]? = some c → c.phase = .leading key →
      c.connected = false → (∀ d ∈ s.clients, d.phase ≠ .following key) ∧
        m.toStore key c.inputs (c.answer next o) = none
  | _ => True

structure Sound (s : Sys) : Prop where
  served : ∀ c ∈ s.clients, ∀ resp, c.phase = .served resp → c.stream = false →
    c.connected = true → Possible next c.inputs resp.status resp.body
  leading : ∀ i c key, s.clients[i]? = some c → c.phase = .leading key → s.inFlight key = some i
  inFlight : ∀ key l, s.inFlight key = some l →
    ∃ lead, s.clients[l]? = some lead ∧ lead.phase = .leading key
  following : ∀ c ∈ s.clients, ∀ key, c.phase = .following key →
    ∃ l lead, s.inFlight key = some l ∧ s.clients[l]? = some lead ∧
      Alike next lead.inputs c.inputs
  entries : ∀ key e, s.entries key = some e → Possible next e.producer 200 e.sent
  pending : ∀ p, some p ∈ s.pending → Possible next p.producer 200 p.sent

variable {m next} {s s' : Sys}

theorem Possible.of_alike {a b : Inputs} {status : Nat} {body : String}
    (h : Possible next a status body) (halike : Alike next a b) : Possible next b status body := by
  obtain ⟨o, hstatus, hbody⟩ := h
  exact ⟨o, halike o ▸ hstatus, halike o ▸ hbody⟩

variable {i : Nat} {c : Client} {key : String}

theorem Sound.set (h : Sound next s) {c' : Client} (hi : s.clients[i]? = some c)
    (hinputs : c'.inputs = c.inputs)
    (hlead : ∀ key, c'.phase = .leading key ↔ c.phase = .leading key)
    (hserved : ∀ resp, c'.phase = .served resp → c'.stream = false → c'.connected = true →
      Possible next c'.inputs resp.status resp.body) (hfollow : ∀ key, c'.phase = .following key →
      ∃ l lead, s.inFlight key = some l ∧ s.clients[l]? = some lead ∧
        Alike next lead.inputs c'.inputs) :
    Sound next { s with clients := s.clients.set i c' } := by
  have hself : (s.clients.set i c')[i]? = some c' :=
    List.getElem?_set_self (List.getElem?_eq_some_iff.mp hi).1
  -- whoever leads is still there, with the same inputs
  have hkept : ∀ (l : Nat) (lead : Client), s.clients[l]? = some lead →
      ∃ lead' : Client, (s.clients.set i c')[l]? = some lead' ∧ lead'.inputs = lead.inputs ∧
        ∀ key, lead.phase = .leading key → lead'.phase = .leading key := by
    intro l lead hl
    by_cases hli : i = l
    · subst hli
      obtain rfl : c = lead := Option.some.inj (hi.symm.trans hl)
      exact ⟨c', hself, hinputs, fun key => (hlead key).mpr⟩
    · exact ⟨lead, by rw [getElem?_set_ne hli, hl], rfl, fun _ => id⟩
  constructor
  case served =>
    intro d hd
    rcases mem_or_eq_of_mem_set hd with hd | rfl
    · exact h.served d hd
    · exact hserved
  case leading =>
    intro j d key hj hphase
    by_cases hij : i = j
    · subst hij
      obtain rfl : c' = d := Option.some.inj (hself.symm.trans hj)
      exact h.leading i c key hi ((hlead key).mp hphase)
    · rw [getElem?_set_ne hij] at hj
      exact h.leading j d key hj hphase
  case inFlight =>
    intro key l hl
    obtain ⟨lead, hlead', hphase⟩ := h.inFlight key l hl
    obtain ⟨lead', hl', -, hstill⟩ := hkept l lead hlead'
    exact ⟨lead', hl', hstill key hphase⟩
  case following =>
    intro d hd key hphase
    obtain ⟨l, lead, hl, hget, hsame⟩ : ∃ (l : Nat) (lead : Client), s.inFlight key = some l ∧
        s.clients[l]? = some lead ∧ Alike next lead.inputs d.inputs := by
      rcases mem_or_eq_of_mem_set hd with hd | rfl
      · exact h.following d hd key hphase
      · exact hfollow key hphase
    obtain ⟨lead', hl', hinputs', -⟩ := hkept l lead hget
    exact ⟨l, lead', hl, hl', hinputs' ▸ hsame⟩
  case entries => exact h.entries
  case pending => exact h.pending

theorem arriving_phase (headers : List (String × String)) (inputs : Inputs) :
    (∀ key, (arriving m headers inputs).phase ≠ .leading key) ∧
      (∀ key, (arriving m headers inputs).phase ≠ .following key) ∧
      ∀ resp, (arriving m headers inputs).phase ≠ .served resp := by
  unfold arriving
  split
  · exact ⟨nofun, nofun, nofun⟩
  · exact ⟨nofun, nofun, nofun⟩

theorem Sound.arrive (h : Sound next s) (headers : List (String × String)) (inputs : Inputs) :
    Sound next { s with clients := s.clients ++ [arriving m headers inputs] } := by
  obtain ⟨hnoLead, hnoFollow, hnoAnswer⟩ := arriving_phase (m := m) headers inputs
  have hold : ∀ (l : Nat) (lead : Client), s.clients[l]? = some lead →
      (s.clients ++ [arriving m headers inputs])[l]? = some lead := by
    intro l lead hl
    rw [List.getElem?_append_left (List.getElem?_eq_some_iff.mp hl).1, hl]
  constructor
  case served =>
    intro d hd resp hphase
    rcases mem_append.mp hd with hd | hd
    · exact h.served d hd resp hphase
    · rw [mem_singleton.mp hd] at hphase
      exact absurd hphase (hnoAnswer resp)
  case leading =>
    intro j d key hj hphase
    by_cases hlt : j < s.clients.length
    · rw [List.getElem?_append_left hlt] at hj
      exact h.leading j d key hj hphase
    · rw [getElem?_append_right (not_lt.mp hlt)] at hj
      rw [mem_singleton.mp (mem_of_getElem? hj)] at hphase
      exact absurd hphase (hnoLead key)
  case inFlight =>
    intro key l hl
    obtain ⟨lead, hget, hphase⟩ := h.inFlight key l hl
    exact ⟨lead, hold l lead hget, hphase⟩
  case following =>
    intro d hd key hphase
    rcases mem_append.mp hd with hd | hd
    · obtain ⟨l, lead, hl, hget, hsame⟩ := h.following d hd key hphase
      exact ⟨l, lead, hl, hold l lead hget, hsame⟩
    · rw [mem_singleton.mp hd] at hphase
      exact absurd hphase (hnoFollow key)
  case entries => exact h.entries
  case pending => exact h.pending

theorem Client.looked_miss (c : Client) (key : String) (now : Int) :
    (c.looked m key none now).phase = .direct ∨ (c.looked m key none now).phase = .missed key := by
  show (if c.stream then Phase.direct else .missed key) = .direct ∨
    (if c.stream then Phase.direct else .missed key) = .missed key
  split_ifs
  · exact .inl rfl
  · exact .inr rfl

theorem CacheMiddleware.serveFromCache_status_body (m : CacheMiddleware) (e : Entry) (key : String)
    (now : Int) : (m.serveFromCache e key false now).status = 200 ∧
      (m.serveFromCache e key false now).body = encode e.response.toJson :=
  ⟨rfl, rfl⟩

theorem Sound.lookup (h : Sound next s) {ok : Bool} {now : Int} (hi : s.clients[i]? = some c)
    (hphase : c.phase = .looking key) (hok : StepOk m next s (.lookup i ok now)) :
    Sound next { s with
      clients := s.clients.set i (c.looked m key (if ok then s.entries key else none) now) } := by
  cases hfound : (if ok then s.entries key else none) with
  | none =>
    have hmiss := c.looked_miss (m := m) key now
    refine h.set hi rfl (fun k => ?_) (fun resp hp => ?_) (fun k hp => ?_)
    · rw [hphase]
      rcases hmiss with hm | hm <;> simp [hm]
    · rcases hmiss with hm | hm <;> rw [hm] at hp <;> cases hp
    · rcases hmiss with hm | hm <;> rw [hm] at hp <;> cases hp
  | some e =>
    obtain ⟨rfl, hentry⟩ : ok = true ∧ s.entries key = some e := by
      cases ok
      · cases hfound
      · exact ⟨rfl, hfound⟩
    refine h.set hi rfl (fun k => ?_) (fun resp hp hstream _ => ?_) (fun k hp => ?_)
    · rw [hphase]
      simp [Client.looked]
    · obtain ⟨hsame, hsent⟩ := hok c key e hi hphase hstream rfl hentry
      -- what is sent now is what the producer was sent
      obtain ⟨hstatus, hbody⟩ := m.serveFromCache_status_body e key now
      have hresp : resp = m.serveFromCache e key false now := by
        rw [← hstream]
        exact (Phase.served.inj hp).symm
      rw [hresp, hstatus, hbody, hsent]
      exact (h.entries key e hentry).of_alike hsame
    · cases hp

theorem Sound.join (h : Sound next s) {l : Nat} (hi : s.clients[i]? = some c)
    (hphase : c.phase = .missed key) (hl : s.inFlight key = some l)
    (hok : StepOk m next s (.enter i)) :
    Sound next { s with clients := s.clients.set i { c with phase := .following key } } := by
  obtain ⟨lead, hlead, -⟩ := h.inFlight key l hl
  refine h.set hi rfl (fun k => ?_) nofun (fun k hp => ?_)
  · rw [hphase]
    simp
  · cases hp
    exact ⟨l, lead, hl, hlead, hok c key l lead hi hphase hl hlead⟩

theorem Sound.ne_of_not_leading (h : Sound next s) {l : Nat} (hi : s.clients[i]? = some c)
    (hnot : c.phase ≠ .leading key) (hl : s.inFlight key = some l) : i ≠ l := by
  rintro rfl
  obtain ⟨lead, hlead, hleads⟩ := h.inFlight key i hl
  obtain rfl : c = lead := Option.some.inj (hi.symm.trans hlead)
  exact hnot hleads

theorem Sound.lead (h : Sound next s) {i : Nat} {c : Client} {key : String}
    (hi : s.clients[i]? = some c) (hphase : c.phase = .missed key) (hnone : s.inFlight key = none) :
    Sound next { s with
      clients := s.clients.set i { c with phase := .leading key }
      inFlight := update s.inFlight key (some i) } := by
  have hself : (s.clients.set i { c with phase := .leading key })[i]? =
      some { c with phase := .leading key } :=
    List.getElem?_set_self (List.getElem?_eq_some_iff.mp hi).1
  -- other executions are under other keys
  have hother : ∀ k l, s.inFlight k = some l →
      update s.inFlight key (some i) k = some l := by
    intro k l hl
    rw [update_of_ne (fun hk => by rw [hk, hnone] at hl; cases hl), hl]
  -- and have other leaders
  have hkept : ∀ (k : String) (l : Nat), s.inFlight k = some l → ∀ lead : Client,
      s.clients[l]? = some lead →
      (s.clients.set i { c with phase := .leading key })[l]? = some lead := by
    intro k l hl lead hlead
    have hnot : c.phase ≠ .leading k := by
      rw [hphase]
      nofun
    rw [getElem?_set_ne (h.ne_of_not_leading hi hnot hl), hlead]
  constructor
  case served =>
    intro d hd resp hp
    rcases mem_or_eq_of_mem_set hd with hd | rfl
    · exact h.served d hd resp hp
    · cases hp
  case leading =>
    intro j d k hj hp
    by_cases hij : i = j
    · subst hij
      obtain rfl : { c with phase := .leading key } = d := Option.some.inj (hself.symm.trans hj)
      cases hp
      exact update_self ..
    · rw [getElem?_set_ne hij] at hj
      exact hother k j (h.leading j d k hj hp)
  case inFlight =>
    intro k l hl
    replace hl : update s.inFlight key (some i) k = some l := hl
    by_cases hk : k = key
    · subst hk
      rw [update_self, Option.some.injEq] at hl
      subst hl
      exact ⟨_, hself, rfl⟩
    · rw [update_of_ne hk] at hl
      obtain ⟨lead, hlead, hleads⟩ := h.inFlight k l hl
      exact ⟨lead, hkept k l hl lead hlead, hleads⟩
  case following =>
    intro d hd k hp
    rcases mem_or_eq_of_mem_set hd with hd | rfl
    · obtain ⟨l, lead, hl, hlead, hsame⟩ := h.following d hd k hp
      exact ⟨l, lead, hother k l hl, hkept k l hl lead hlead, hsame⟩
    · cases hp
  case entries => exact h.entries
  case pending => exact h.pending

theorem Client.receive_of_following (h : c.phase = .following key) (resp : Response) :
    c.receive key resp = { c with phase := .served resp } := if_pos h

theorem Client.receive_of_not_following (h : c.phase ≠ .following key) (resp : Response) :
    c.receive key resp = c := if_neg h

theorem Client.receive_following {k : String} {resp : Response}
    (h : (c.receive key resp).phase = .following k) : k ≠ key ∧ c.receive key resp = c := by
  by_cases hfollows : c.phase = .following key
  · rw [Client.receive_of_following hfollows] at h
    cases h
  · have hsame := Client.receive_of_not_following hfollows resp
    rw [hsame] at h
    exact ⟨fun hk => hfollows (hk ▸ h), hsame⟩

theorem Client.receive_leading {k : String} {resp : Response}
    (h : (c.receive key resp).phase = .leading k) : c.phase = .leading k := by
  by_cases hfollows : c.phase = .following key
  · rw [Client.receive_of_following hfollows] at h
    cases h
  · rwa [Client.receive_of_not_following hfollows] at h

theorem possible_answer {c : Client} (hconnected : c.connected = true) (o : ω) :
    Possible next c.inputs (c.answer next o).status (c.answer next o).body := by
  have hanswer : c.answer next o = next c.inputs false o := by
    unfold Client.answer
    rw [hconnected]
    rfl
  exact ⟨o, congrArg Response.status hanswer.symm, congrArg Response.body hanswer.symm⟩

theorem toStore_possible {o : ω} {p : PendingStore} (hconnected : c.connected = true)
    (h : m.toStore key c.inputs (c.answer next o) = some p) :
    Possible next p.producer 200 p.sent := by
  have hpossible := @possible_answer ω next c hconnected o
  unfold CacheMiddleware.toStore at h
  split_ifs at h with hstatus
  split at h
  · cases h
    exact hstatus ▸ hpossible
  · cases h

/-- Who waits for an execution gets an answer that is possible for its own inputs. -/
theorem Sound.possible_received (h : Sound next s) {d : Client} {o : ω}
    (hi : s.clients[i]? = some c) (hphase : c.phase = .leading key)
    (hok : StepOk m next s (.finish i o)) (hd : d ∈ s.clients) (hfollows : d.phase = .following key) :
    Possible next d.inputs (c.answer next o).status (c.answer next o).body := by
  obtain ⟨l, lead, hl, hlead, hsame⟩ := h.following d hd key hfollows
  obtain rfl : i = l := Option.some.inj ((h.leading i c key hi hphase).symm.trans hl)
  obtain rfl : c = lead := Option.some.inj (hi.symm.trans hlead)
  refine (possible_answer (Bool.of_not_eq_false fun hlost => ?_) o).of_alike hsame
  exact (hok c key hi hphase hlost).1 d hd hfollows

theorem Sound.finish (h : Sound next s) {o : ω} (hi : s.clients[i]? = some c)
    (hphase : c.phase = .leading key) (hok : StepOk m next s (.finish i o)) :
    Sound next { s with
      clients := (s.clients.map (Client.receive key (c.answer next o))).set i
        { c with phase := .served (c.answer next o) }
      inFlight := update s.inFlight key none
      pending := s.pending ++ [m.toStore key c.inputs (c.answer next o)] } := by
  have hflight : s.inFlight key = some i := h.leading i c key hi hphase
  have hgone := hok c key hi hphase
  -- the leaders of other executions stay where they are
  have hkept : ∀ k l (lead : Client), k ≠ key → s.inFlight k = some l → s.clients[l]? = some lead →
      ((s.clients.map (Client.receive key (c.answer next o))).set i
        { c with phase := .served (c.answer next o) })[l]? = some lead := by
    intro k l lead hk hl hlead
    obtain ⟨lead', hlead', hleads⟩ := h.inFlight k l hl
    obtain rfl : lead = lead' := Option.some.inj (hlead.symm.trans hlead')
    have hnot : c.phase ≠ .leading k := by
      rw [hphase]
      exact fun hsame => hk (Phase.leading.inj hsame).symm
    rw [getElem?_set_ne (h.ne_of_not_leading hi hnot hl), getElem?_map, hlead,
      Option.map_some, Client.receive_of_not_following (by rw [hleads]; nofun)]
  constructor
  case served =>
    intro d hd resp hp hstream hconnected
    rcases mem_or_eq_of_mem_set hd with hd | rfl
    · obtain ⟨d₀, hd₀, rfl⟩ := mem_map.mp hd
      by_cases hfollows : d₀.phase = .following key
      · rw [Client.receive_of_following hfollows] at hp hstream hconnected ⊢
        cases hp
        show Possible next d₀.inputs _ _
        exact h.possible_received hi hphase hok hd₀ hfollows
      · rw [Client.receive_of_not_following hfollows] at hp hstream hconnected ⊢
        exact h.served d₀ hd₀ resp hp hstream hconnected
    · cases hp
      exact possible_answer (c := c) hconnected o
  case leading =>
    intro j d k hj hp
    by_cases hij : i = j
    · subst hij
      rw [List.getElem?_set_self (by
        rw [List.length_map]; exact (List.getElem?_eq_some_iff.mp hi).1)] at hj
      cases hj
      cases hp
    · rw [getElem?_set_ne hij, getElem?_map] at hj
      obtain ⟨d₀, hd₀, rfl⟩ := Option.map_eq_some_iff.mp hj
      have hold : s.inFlight k = some j := h.leading j d₀ k hd₀ (Client.receive_leading hp)
      have hk : k ≠ key := by
        rintro rfl
        exact hij (Option.some.inj (hflight.symm.trans hold))
      exact (update_of_ne hk _ _).trans hold
  case inFlight =>
    intro k l hl
    replace hl : update s.inFlight key none k = some l := hl
    by_cases hk : k = key
    · rw [hk, update_self] at hl
      cases hl
    · rw [update_of_ne hk] at hl
      obtain ⟨lead, hlead, hleads⟩ := h.inFlight k l hl
      exact ⟨lead, hkept k l lead hk hl hlead, hleads⟩
  case following =>
    intro d hd k hp
    rcases mem_or_eq_of_mem_set hd with hd | rfl
    · obtain ⟨d₀, hd₀, rfl⟩ := mem_map.mp hd
      obtain ⟨hk, hsame₀⟩ := Client.receive_following hp
      rw [hsame₀] at hp ⊢
      obtain ⟨l, lead, hl, hlead, hsame⟩ := h.following d₀ hd₀ k hp
      exact ⟨l, lead, (update_of_ne hk _ _).trans hl, hkept k l lead hk hl hlead, hsame⟩
    · cases hp
  case entries => exact h.entries
  case pending =>
    intro p hp
    rcases mem_append.mp hp with hp | hp
    · exact h.pending p hp
    · have hstore := (mem_singleton.mp hp).symm
      refine toStore_possible (Bool.of_not_eq_false fun hlost => ?_) hstore
      rw [(hgone hlost).2] at hstore
      cases hstore

theorem Sound.finish_direct (h : Sound next s) (hi : s.clients[i]? = some c)
    (hphase : c.phase = .direct) (o : ω) :
    Sound next { s with
      clients := s.clients.set i { c with phase := .served (c.answer next o) } } := by
  refine h.set hi rfl (fun k => ?_) (fun resp hp _ hconnected => ?_) nofun
  · rw [hphase]
    simp
  · cases hp
    exact possible_answer (c := c) hconnected o

theorem Sound.store (h : Sound next s) {j : Nat} {p : PendingStore}
    (hj : s.pending[j]? = some (some p)) (ok : Bool) (now : Int) :
    Sound next { s with
      pending := s.pending.set j none
      entries :=
        if ok then
          update s.entries p.key (some
            { response := p.response, createdAt := now, producer := p.producer, sent := p.sent })
        else s.entries } := by
  refine { h with entries := ?_, pending := ?_ }
  · intro key e he
    cases ok with
    | false => exact h.entries key e he
    | true =>
      replace he : update s.entries p.key _ key = some e := he
      by_cases hkey : key = p.key
      · rw [hkey, update_self] at he
        cases he
        exact h.pending p (mem_of_getElem? hj)
      · rw [update_of_ne hkey] at he
        exact h.entries key e he
  · intro q hq
    rcases mem_or_eq_of_mem_set hq with hq | hq
    · exact h.pending q hq
    · cases hq

theorem Sound.expire (h : Sound next s) (key : String) :
    Sound next { s with entries := update s.entries key none } := by
  refine { h with entries := fun k e he => ?_ }
  replace he : update s.entries key none k = some e := he
  by_cases hk : k = key
  · rw [hk, update_self] at he
    cases he
  · rw [update_of_ne hk] at he
    exact h.entries k e he

theorem Sound.disconnect (h : Sound next s) (hi : s.clients[i]? = some c) :
    Sound next { s with clients := s.clients.set i { c with connected := false } } :=
  h.set hi rfl (fun _ => Iff.rfl) (fun _ _ _ hc => by cases hc)
    (fun key hp => h.following c (mem_of_getElem? hi) key hp)

/-- Every answer, cached or shared, stays one that its client could have got. -/
theorem Sound.step (h : Sound next s) {a : Act ω} (hok : StepOk m next s a)
    (hstep : s.step m next a = some s') : Sound next s' := by
  cases a with
  | arrive headers inputs =>
    cases hstep
    exact h.arrive headers inputs
  | lookup i ok now =>
    simp only [Sys.step] at hstep
    split at hstep
    next c hi =>
      split at hstep
      next key hphase =>
        cases hstep
        exact h.lookup hi hphase hok
      next => cases hstep
    next => cases hstep
  | enter i =>
    simp only [Sys.step] at hstep
    split at hstep
    next c hi =>
      split at hstep
      next key hphase =>
        split_ifs at hstep with hflight
        · cases hstep
          obtain ⟨l, hl⟩ := Option.isSome_iff_exists.mp hflight
          exact h.join hi hphase hl hok
        · cases hstep
          exact h.lead hi hphase (Option.not_isSome_iff_eq_none.mp hflight)
      next => cases hstep
    next => cases hstep
  | finish i o =>
    simp only [Sys.step] at hstep
    split at hstep
    next c hi =>
      split at hstep
      next hphase =>
        cases hstep
        exact h.finish_direct hi hphase o
      next key hphase =>
        cases hstep
        exact h.finish hi hphase hok
      next => cases hstep
    next => cases hstep
  | store j ok now =>
    simp only [Sys.step] at hstep
    split at hstep
    next p hj =>
      cases hstep
      exact h.store hj ok now
    next => cases hstep
  | expire key =>
    cases hstep
    exact h.expire key
  | disconnect i =>
    simp only [Sys.step] at hstep
    split at hstep
    next c hi =>
      cases hstep
      exact h.disconnect hi
    next => cases hstep

theorem sound_start : Sound next {} where
  served := fun c hc => absurd hc not_mem_nil
  leading := by
    intro i c key hi
    cases hi
  inFlight := by
    intro key l hl
    cases hl
  following := fun c hc => absurd hc not_mem_nil
  entries := by
    intro key e he
    cases he
  pending := fun p hp => absurd hp not_mem_nil

/-- **Every client gets an answer of its own.** If requests share answers only with requests that
the handlers answer alike, and no abandoned execution is shared or stored, a connected,
non-streaming client receives a status and body that its own run of the handlers can end with. -/
theorem own_answers {acts : List (Act ω)} {s : Sys}
    (hok : AlongFrom (Sys.step m next) (StepOk m next) {} acts)
    (hrun : runFrom (Sys.step m next) {} acts = some s) {c : Client} (hc : c ∈ s.clients)
    {resp : Response} (hserved : c.phase = .served resp) (hstream : c.stream = false)
    (hconnected : c.connected = true) : Possible next c.inputs resp.status resp.body := by
  have h : Sound next s :=
    runFrom_invariant (fun _ _ _ h hok hstep => h.step hok hstep) sound_start hok hrun
  exact h.served c hc resp hserved hstream hconnected

/-! ## The handlers of the gateway behind the cache -/

def cancelAfter (env : Env) (n : Nat) : Env :=
  { env with
    chatCompletion := fun calls =>
      if n < calls.length then .error .canceled else env.chatCompletion calls
    chatCompletionStream := fun calls =>
      if n < calls.length then .error .canceled else env.chatCompletionStream calls
    ctxDone := fun calls delay =>
      if n ≤ calls.length then some .canceled else env.ctxDone calls delay }

structure Outcome where
  env : Env
  cb : Circuit.CircuitBreaker
  calls : Nat := 0

/-- The residency middleware and the chat handler, all there is behind the cache without guardrails,
prompts and experiments. The text of a stream, which no shared execution is, is left out. -/
def downstream (g : Setup) (inputs : Inputs) (cancelled : Bool) (o : Outcome) : Response :=
  let r := dataResidency
    { headers := [("X-Data-Residency-Policy", inputs.policy)], body := .ok inputs.body,
      virtualKey := inputs.virtualKey }
  let env := if cancelled then cancelAfter o.env o.calls else o.env
  match (g.chat.handle env r { cb := o.cb }).2 with
  | .response resp => resp
  | .stream _ _ _ | .textStream _ _ _ =>
    { status := 200, headers := [("Content-Type", "text/event-stream")], body := "" }

def hello : ChatCompletionResponse where
  id := "c1"
  object := "chat.completion"
  created := 0
  model := "gpt-4o"
  choices := some [{ index := 0, message := { role := "assistant", content := "hello" },
                     finishReason := "stop" }]

def euCache : CacheMiddleware where
  json := { Setup.twoBodies with
    chatResponse := fun body =>
      if body = encode hello.toJson then .ok hello else .error "unexpected end of JSON input" }
  sha256Hex := String.ofList
  replayAsStream := fun r => writeJSON 200 r.toJson

def answering : Outcome where
  env := { Env.failing with chatCompletion := fun _ => .ok hello }
  cb := Circuit.new Circuit.defaultConfig

def twoAtOnce (policy policy' : String) : List (Act Outcome) :=
  [.arrive [] { body := Setup.chatBody, policy := policy },
    .arrive [] { body := Setup.chatBody, policy := policy' },
    .lookup 0 true 0, .lookup 1 true 0, .enter 0, .enter 1, .finish 0 answering]

/-- The answer is stored, and a request of another key finds it a minute later. -/
def thenHit : List (Act Outcome) :=
  [.store 0 true 0, .arrive [] { body := Setup.chatBody, virtualKey := some { id := "k2" } },
    .lookup 2 true 60]

set_option maxRecDepth 4000 in
theorem own_answers_shared :
    ∃ s c c' resp resp', runFrom (Sys.step euCache (downstream Setup.euGateway)) {}
        (twoAtOnce "" "" ++ thenHit) = some s ∧
      s.clients[1]? = some c ∧ c.phase = .served resp ∧
      s.clients[2]? = some c' ∧ c'.phase = .served resp' ∧
      Possible (downstream Setup.euGateway) c.inputs resp.status resp.body ∧
      Possible (downstream Setup.euGateway) c'.inputs resp'.status resp'.body := by
  have hok : AlongFrom (Sys.step euCache (downstream Setup.euGateway))
      (StepOk euCache (downstream Setup.euGateway)) {} (twoAtOnce "" "" ++ thenHit) := by
    refine ⟨trivial, fun s₁ h₁ => ?_⟩
    cases h₁
    refine ⟨trivial, fun s₂ h₂ => ?_⟩
    cases h₂
    -- nothing is cached yet
    refine ⟨fun _ _ _ _ _ _ _ he => (by cases he), fun s₃ h₃ => ?_⟩
    cases h₃
    refine ⟨fun _ _ _ _ _ _ _ he => (by cases he), fun s₄ h₄ => ?_⟩
    cases h₄
    -- the first finds no execution, the second the first's
    refine ⟨fun _ _ _ _ _ _ hl => (by cases hl), fun s₅ h₅ => ?_⟩
    cases h₅
    refine ⟨?_, fun s₆ h₆ => ?_⟩
    · intro c key l lead hc hphase hl hlead
      cases hc
      cases hphase
      cases hl
      cases hlead
      exact fun _ => rfl
    cases h₆
    -- its client is still there
    refine ⟨?_, fun s₇ h₇ => ?_⟩
    · intro c key hc _ hgone
      cases hc
      cases hgone
    cases h₇
    refine ⟨trivial, fun s₈ h₈ => ?_⟩
    cases h₈
    refine ⟨trivial, fun s₉ h₉ => ?_⟩
    cases h₉
    -- the entry is the first request's answer, and the handlers do not read the key
    refine ⟨?_, fun _ _ => trivial⟩
    intro c key e hc hphase _ _ he
    cases hc
    cases hphase
    cases he
    exact ⟨fun _ => rfl, rfl⟩
  refine ⟨_, _, _, _, _, rfl, rfl, rfl, rfl, rfl, ?_, ?_⟩
  · exact own_answers hok rfl (mem_of_getElem? (i := 1) rfl) rfl rfl rfl
  · exact own_answers hok rfl (mem_of_getElem? (i := 2) rfl) rfl rfl rfl

/-- A client whose policy forbids the only provider is sent that provider's answer; by itself it
gets a 451. -/
theorem forbidden_answer_is_shared :
    ∃ s c resp, runFrom (Sys.step euCache (downstream Setup.euGateway)) {} (twoAtOnce "" "eu-only") =
        some s ∧ s.clients[1]? = some c ∧ c.inputs.policy = "eu-only" ∧ c.connected = true ∧
      c.stream = false ∧ c.phase = .served resp ∧ resp.status = 200 ∧
      ∀ o, (downstream Setup.euGateway c.inputs false o).status = 451 :=
  ⟨_, _, _, rfl, rfl, rfl, rfl, rfl, rfl, rfl, fun _ => rfl⟩

end LlmRouter.Cache
